import RecordFilter.Number.Numeral
import RecordFilter.Value.Compare

/-!
# Reading JSON

Reads a JSON text as a value. Numbers without a fraction or exponent are integers of any size, all
others doubles; `NaN`, `Infinity` and `-Infinity` are numbers too. Of several entries with one key
the last counts, at the place of the first. A text that is no JSON is refused with the reason and
the place, whose wording counts lines and columns.

The reader walks along a list of code points and carries its position. Each nested step takes at
least one character, so the length of the text bounds their number.
-/

namespace RecordFilter.Json

/-- Why a text is no JSON. -/
inductive Reason where
  | noValue | noName | noColon | noComma | extraData
  | openText | controlCharacter | badEscape | badHexEscape | byteOrderMark
deriving DecidableEq, Repr

/-- The wording of a reason. -/
def Reason.text : Reason → Text
  | noValue => "Expecting value"
  | noName => "Expecting property name enclosed in double quotes"
  | noColon => "Expecting ':' delimiter"
  | noComma => "Expecting ',' delimiter"
  | extraData => "Extra data"
  | openText => "Unterminated string starting at"
  | controlCharacter => "Invalid control character at"
  | badEscape => "Invalid \\escape"
  | badHexEscape => "Invalid \\uXXXX escape"
  | byteOrderMark => "Unexpected UTF-8 BOM (decode using utf-8-sig)"

/-- Why a text cannot be read: it is no JSON from some place on, or an integer in it has more digits
than are read. -/
inductive Failure where
  | malformed (reason : Reason) (position : Nat)
  | longInteger
deriving DecidableEq, Repr

/-- The wording of a place in a text: its line, its column and its number. -/
def placeText (document : List CodePoint) (position : Nat) : Text :=
  let before := document.take position
  let line := before.count (CodePoint.char '\n') + 1
  let column := (before.reverse.takeWhile (· != CodePoint.char '\n')).length + 1
  "line " ++ Text.ofNat line ++ " column " ++ Text.ofNat column ++ " (char " ++
    Text.ofNat position ++ ")"

/-- The wording of what is wrong with a text. -/
def malformedText (document : List CodePoint) (reason : Reason) (position : Nat) : Text :=
  reason.text ++ ": " ++ placeText document position

/-- What is left of a text and how many characters were read. -/
structure Cursor where
  rest : List CodePoint
  position : Nat

/-- Steps of reading. -/
abbrev Reader := StateT Cursor (Except Failure)

/-- Refuses the text at a place. -/
def refuse {α : Type} (reason : Reason) (position : Nat) : Reader α :=
  throw (.malformed reason position)

/-- Refuses the text at the place that is reached. -/
def refuseHere {α : Type} (reason : Reason) : Reader α := do
  refuse reason (← get).position

/-- Moves forward by some characters. -/
def advance (n : Nat) : Reader Unit :=
  modify fun s => ⟨s.rest.drop n, s.position + n⟩

/-- The four characters that may stand between the parts of a JSON text. -/
def isSpace (c : CodePoint) : Bool :=
  c == ' ' || c == '\t' || c == '\n' || c == '\r'

/-- Moves past blanks. -/
def skipSpace : Reader Unit := do
  advance ((← get).rest.takeWhile isSpace).length

/-- Moves past a character if it comes next, and tells whether it does. -/
def skip (c : CodePoint) : Reader Bool := do
  if (← get).rest.head? == some c then
    advance 1
    return true
  else return false

/-! ### Texts -/

/-- The character that a letter after a backslash stands for. -/
def escaped? (c : CodePoint) : Option CodePoint :=
  if c = '"' || c = '\\' || c = '/' then some c
  else if c = 'b' then some (Char.ofNat 8)
  else if c = 'f' then some (Char.ofNat 12)
  else if c = 'n' then some '\n'
  else if c = 'r' then some '\r'
  else if c = 't' then some '\t'
  else none

/-- The code point whose number four hexadecimal digits denote, if more follows them. -/
def hex4? : List CodePoint → Option CodePoint
  | a :: b :: c :: d :: _ :: _ => do
    let a ← Text.hexValue? a.toChar
    let b ← Text.hexValue? b.toChar
    let c ← Text.hexValue? c.toChar
    let d ← Text.hexValue? d.toChar
    return .ofNumber (4096 * a + 256 * b + 16 * c + d)
  | _ => none

/-- What follows `\u`: a code point, and how many characters it is written with. The position is
that of the `u`. -/
def hexEscape (position : Nat) (cs : List CodePoint) : Except Failure (CodePoint × Nat) :=
  match hex4? cs with
  | none => .error (.malformed .badHexEscape position)
  | some c =>
    match c.isHigh, cs.drop 4 with
    | true, .char '\\' :: .char 'u' :: more =>
      if more.length < 5 then .ok (c, 4)
      else
        match hex4? more with
        | none => .error (.malformed .badHexEscape (position + 6))
        | some d => .ok (if d.isLow then (.ofPair c d, 10) else (c, 4))
    | _, _ => .ok (c, 4)

/-- Reads the characters of a text up to the closing quote. `start` is the place of the opening
quote, and the first `skipped` characters are known already. -/
def textFrom (start : Nat) :
    Nat → Nat → List CodePoint → Except Failure (List CodePoint × Cursor)
  | _, _, [] => .error (.malformed .openText start)
  | skipped + 1, position, _ :: cs => textFrom start skipped (position + 1) cs
  | 0, position, c :: cs =>
    if c = '"' then .ok ([], ⟨cs, position + 1⟩)
    else if c = '\\' then
      match cs with
      | [] => .error (.malformed .openText start)
      | .char 'u' :: more => do
        let (d, n) ← hexEscape (position + 1) more
        let (ds, s) ← textFrom start (n + 1) (position + 1) cs
        return (d :: ds, s)
      | e :: _ =>
        match escaped? e with
        | none => .error (.malformed .badEscape position)
        | some d => do
          let (ds, s) ← textFrom start 1 (position + 1) cs
          return (d :: ds, s)
    else if c.number < 0x20 then .error (.malformed .controlCharacter position)
    else do
      let (ds, s) ← textFrom start 0 (position + 1) cs
      return (c :: ds, s)

/-- Reads a text of which the opening quote was read. -/
def text : Reader Text := do
  let s ← get
  match textFrom (s.position - 1) 0 s.position s.rest with
  | .error e => throw e
  | .ok (cs, s) =>
    set s
    return Text.mk cs

/-! ### Numbers -/

/-- The digits of the whole part of a number: a zero, or digits that begin with another one. -/
def wholeDigits (cs : List CodePoint) : List CodePoint :=
  match cs with
  | .char '0' :: _ => ['0']
  | _ => cs.takeWhile CodePoint.isDigit

/-- A point and the digits behind it, of which there is at least one. -/
def fractionPart : List CodePoint → List CodePoint
  | .char '.' :: cs =>
    let ds := cs.takeWhile CodePoint.isDigit
    if ds.isEmpty then [] else .char '.' :: ds
  | _ => []

/-- The sign of an exponent. -/
def exponentSign : List CodePoint → List CodePoint
  | .char '+' :: _ => ['+']
  | .char '-' :: _ => ['-']
  | _ => []

/-- The mark of an exponent, its sign and its digits, of which there is at least one. -/
def exponentPart : List CodePoint → List CodePoint
  | [] => []
  | c :: cs =>
    if c = 'e' || c = 'E' then
      let sign := exponentSign cs
      let ds := (cs.drop sign.length).takeWhile CodePoint.isDigit
      if ds.isEmpty then [] else c :: sign ++ ds
    else []

/-- Reads a number. -/
def number : Reader Value := do
  let s ← get
  let minus : List CodePoint := if s.rest.head? == some (.char '-') then ['-'] else []
  let whole := wholeDigits (s.rest.drop minus.length)
  if whole.isEmpty then refuse .noValue s.position
  else
    let after := s.rest.drop (minus ++ whole).length
    let fraction := fractionPart after
    let exponent := exponentPart (after.drop fraction.length)
    let numeral := (minus ++ whole ++ fraction ++ exponent).map CodePoint.toChar
    advance numeral.length
    if fraction.isEmpty && exponent.isEmpty then
      match Numeral.int? numeral with
      | some n => return .int n
      | none => throw .longInteger
    else return .double ((Numeral.double? numeral).getD (.nan 0))

/-- The values that are written as words. -/
def words : List (Text × Value) :=
  [("null", .null), ("true", .bool true), ("false", .bool false), ("NaN", .double (.nan 0)),
    ("Infinity", .double (.infinite false)), ("-Infinity", .double (.infinite true))]

/-- Reads a word or a number. -/
def scalar : Reader Value := do
  let cs := (← get).rest
  match words.find? fun w => w.1.points.isPrefixOf cs with
  | some (word, v) =>
    advance word.length
    return v
  | none => number

/-! ### Values -/

mutual

/-- Reads a value. -/
def value : Nat → Reader Value
  | 0 => refuseHere .noValue
  | fuel + 1 => do
    if ← skip '"' then return .text (← text)
    else if ← skip '\x7b' then
      skipSpace
      if ← skip '\x7d' then return .map []
      else return .map (← entries fuel [])
    else if ← skip '[' then
      skipSpace
      if ← skip ']' then return .list []
      else return .list (← items fuel)
    else scalar

/-- Reads the items of a list, of which there is at least one. -/
def items : Nat → Reader (List Value)
  | 0 => refuseHere .noValue
  | fuel + 1 => do
    let v ← value fuel
    skipSpace
    if ← skip ']' then return [v]
    else if ← skip ',' then
      skipSpace
      return v :: (← items fuel)
    else refuseHere .noComma

/-- Reads the entries of a map, of which there is at least one more. -/
def entries : Nat → List (Value × Value) → Reader (List (Value × Value))
  | 0, _ => refuseHere .noName
  | fuel + 1, known => do
    if ← skip '"' then
      let name ← text
      skipSpace
      if ← skip ':' then
        skipSpace
        let v ← value fuel
        let known := Value.insert (.text name) v known
        skipSpace
        if ← skip '\x7d' then return known
        else if ← skip ',' then
          skipSpace
          entries fuel known
        else refuseHere .noComma
      else refuseHere .noColon
    else refuseHere .noName

end

/-- Reads a whole text. -/
def document (fuel : Nat) : Reader Value := do
  if (← get).rest.head? == some (.ofNumber 0xfeff) then refuse .byteOrderMark 0
  else
    skipSpace
    let v ← value fuel
    skipSpace
    if (← get).rest.isEmpty then return v else refuseHere .extraData

/-- The value that a JSON text denotes. -/
def ofText (cs : List CodePoint) : Except Failure Value :=
  (document (2 * cs.length + 2)).run' ⟨cs, 0⟩

end RecordFilter.Json
