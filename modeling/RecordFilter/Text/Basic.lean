/-!
# Texts

A text is a list of code points. A code point is a character, or one of the 2048 surrogates that
stand in pairs for the characters beyond U+FFFF in sixteen bit units. A surrogate that stands alone
is no character, yet texts can hold it, which is why they are not strings of characters.

`ofNumber_number` and `number_ofNumber` say that code points are the numbers below `0x110000`, and
`ofString_append` that joining texts of characters is joining strings.
-/

namespace RecordFilter

/-- A code point. -/
inductive CodePoint where
  | char (c : Char)
  /-- The surrogate with the number `0xd800 + n`. -/
  | surrogate (n : Fin 2048)
deriving DecidableEq, Repr, Inhabited

instance : Coe Char CodePoint := ⟨.char⟩

namespace CodePoint

/-- The number of a code point. -/
def number : CodePoint → Nat
  | char c => c.toNat
  | surrogate n => 0xd800 + n

/-- The code point with a number. -/
def ofNumber (n : Nat) : CodePoint :=
  if h : 0xd800 ≤ n ∧ n < 0xe000 then .surrogate ⟨n - 0xd800, by omega⟩ else .char (.ofNat n)

theorem ofNumber_number (c : CodePoint) : ofNumber c.number = c := by
  cases c with
  | char c =>
    have h := c.valid
    have hc : ¬(0xd800 ≤ c.toNat ∧ c.toNat < 0xe000) := by
      simp only [UInt32.isValidChar, Nat.isValidChar] at h
      change ¬(0xd800 ≤ c.val.toNat ∧ c.val.toNat < 0xe000)
      omega
    simp [ofNumber, number, hc]
  | surrogate n =>
    have hn : 0xd800 ≤ 0xd800 + n.val ∧ 0xd800 + n.val < 0xe000 := by omega
    simp [ofNumber, number, hn]

theorem number_ofNumber {n : Nat} (h : n < 0x110000) : (ofNumber n).number = n := by
  unfold ofNumber
  split
  · simp only [number]
    omega
  · have hvalid : Nat.isValidChar n := by
      unfold Nat.isValidChar
      omega
    rw [number, Char.ofNat, dif_pos hvalid]
    rfl

/-- The character that a code point is, if it is one. -/
def char? : CodePoint → Option Char
  | char c => some c
  | surrogate _ => none

/-- The character that a code point is; for a surrogate the character that stands for unknown
ones. -/
def toChar : CodePoint → Char
  | char c => c
  | surrogate _ => '\ufffd'

/-- A digit of ASCII. -/
def isDigit (c : CodePoint) : Bool :=
  c.toChar.isDigit

/-- A surrogate that stands alone. -/
def isSurrogate (c : CodePoint) : Bool :=
  c.char?.isNone

/-- A first surrogate of a pair. -/
def isHigh (c : CodePoint) : Bool :=
  0xd800 ≤ c.number && c.number < 0xdc00

/-- A second surrogate of a pair. -/
def isLow (c : CodePoint) : Bool :=
  0xdc00 ≤ c.number && c.number < 0xe000

/-- The character that a pair of surrogates stands for. -/
def ofPair (high low : CodePoint) : CodePoint :=
  ofNumber (0x10000 + 1024 * (high.number - 0xd800) + (low.number - 0xdc00))

end CodePoint

/-- A text. -/
structure Text where
  points : List CodePoint
deriving DecidableEq, Repr, Inhabited

namespace Text

/-- The text of a string. -/
def ofString (s : String) : Text :=
  ⟨s.toList.map .char⟩

instance : Coe String Text := ⟨ofString⟩

instance : Append Text := ⟨fun s t => ⟨s.points ++ t.points⟩⟩

/-- The characters of a text, with a mark for unknown ones in the place of surrogates. -/
def chars (s : Text) : List Char :=
  s.points.map CodePoint.toChar

/-- The characters of a text, if no surrogate stands alone in it. -/
def chars? (s : Text) : Option (List Char) :=
  s.points.mapM CodePoint.char?

/-- The string of a text, with a mark for unknown characters in the place of surrogates. -/
def toString (s : Text) : String :=
  String.ofList s.chars

/-- The number of code points of a text. -/
def length (s : Text) : Nat :=
  s.points.length

/-- A text without any code point. -/
def isEmpty (s : Text) : Bool :=
  s.points.isEmpty

/-- The order of two texts, by the numbers of their code points. -/
def order (s t : Text) : Ordering :=
  compare (s.points.map CodePoint.number) (t.points.map CodePoint.number)

/-- A text stands before another one or is the same. -/
def le (s t : Text) : Bool :=
  order s t != .gt

/-- The texts joined, with `separator` between them. -/
def join (separator : Text) : List Text → Text
  | [] => ""
  | [s] => s
  | s :: rest => s ++ separator ++ join separator rest

theorem points_append (s t : Text) : (s ++ t).points = s.points ++ t.points := rfl

theorem ofString_append (s t : String) : ofString (s ++ t) = ofString s ++ ofString t := by
  change Text.mk _ = Text.mk _
  simp [ofString]

theorem chars_ofString (s : String) : (ofString s).chars = s.toList := by
  simp [chars, ofString, Function.comp_def, CodePoint.toChar]

end Text

end RecordFilter
