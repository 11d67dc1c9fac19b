import RecordFilter.Text.CaseTable
import RecordFilter.Text.CharClass

/-!
# Letter case

Small and capital forms of whole texts. A character may have a form of several characters (`ß` has
the capital form `SS`), so the mappings work on texts and not on characters. A capital sigma at the
end of a word has a small form of its own, which is why `lowerChars` carries what stands before
the character at hand.
-/

namespace RecordFilter.Text

open CaseTable (Run)

/-- The image of a code point under runs of shifted code points, if one of them holds it. -/
def shifted? (runs : List Run) (n : Nat) : Option Nat :=
  (runs.find? fun r => r.first ≤ n && n ≤ r.last && (n - r.first) % r.step == 0).map fun r =>
    ((n : Int) + r.shift).toNat

/-- The characters of a character in the other case: a single character through `runs`, several
through `long`, and the character itself when neither lists it. -/
def mapCase (runs : List Run) (long : List (Nat × List Nat)) (c : CodePoint) :
    List CodePoint :=
  match shifted? runs c.number with
  | some n => [.ofNumber n]
  | none =>
    match long.lookup c.number with
    | some ns => ns.map CodePoint.ofNumber
    | none => [c]

/-- The small form of a letter of ASCII; all else stays as it is. -/
def lowerAscii : CodePoint → CodePoint
  | .char c => .char c.toLower
  | c => c

/-- The small form of a character on its own. -/
def lowerPoint (c : CodePoint) : List CodePoint :=
  if c.number < 128 then [c.toChar.toLower] else mapCase CaseTable.lower CaseTable.lowerLong c

/-- The capital form of a character. -/
def upperPoint (c : CodePoint) : List CodePoint :=
  if c.number < 128 then [c.toChar.toUpper] else mapCase CaseTable.upper CaseTable.upperLong c

/-- The nearest character that takes part in finding the end of a word has a case. -/
def nextIsCased (cs : List CodePoint) : Bool :=
  match cs.dropWhile fun c => inRanges CaseTable.ignorable c.number with
  | [] => false
  | c :: _ => inRanges CaseTable.cased c.number

/-- The small form of a text of which `before` has been read, nearest character first. A sigma
that ends a word becomes the final sigma. -/
def lowerAfter (before : List CodePoint) : List CodePoint → List CodePoint
  | [] => []
  | c :: cs =>
    let small :=
      if c = 'Σ' then
        if nextIsCased before && !nextIsCased cs then [CodePoint.char 'ς'] else [CodePoint.char 'σ']
      else lowerPoint c
    small ++ lowerAfter (c :: before) cs

/-- The small form of a list of code points. -/
def lowerPoints (cs : List CodePoint) : List CodePoint :=
  lowerAfter [] cs

/-- The capital form of a list of code points. -/
def upperPoints (cs : List CodePoint) : List CodePoint :=
  cs.flatMap upperPoint

/-- The small form of a text. -/
def lower (s : Text) : Text :=
  ⟨lowerPoints s.points⟩

/-- The capital form of a text. -/
def upper (s : Text) : Text :=
  ⟨upperPoints s.points⟩

end RecordFilter.Text
