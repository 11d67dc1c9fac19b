import RecordFilter.Number.Decimal
import RecordFilter.Text.Blank
import RecordFilter.Text.Case

/-!
# Reading numerals

Integers, doubles and decimal numbers from text. The digits of every script are accepted and stand
for the digits of ASCII. Blanks around a numeral are dropped: among ASCII characters only the space
and the line and tabulator characters are such blanks, all others count once the text holds a
character beyond ASCII. In integers and doubles single underscores may stand between digits; in
decimal numbers underscores are ignored.
-/

namespace RecordFilter.Numeral

open Text

/-- The blanks of ASCII around integers and doubles. -/
def isAsciiBlank (c : Char) : Bool :=
  c == ' ' || (0x09 ≤ c.toNat && c.toNat ≤ 0x0d)

/-- Every decimal digit as a digit of ASCII. -/
def plainDigit (c : Char) : Char :=
  match digitValue? c with
  | some d => digitChar d
  | none => c

/-- A numeral without the blanks around it and with digits of ASCII. -/
def plain (cs : List Char) : List Char :=
  if cs.all fun c => c.toNat < 128 then dropBothEnds isAsciiBlank cs
  else dropBothEnds (fun c : Char => isBlank c) (cs.map plainDigit)

/-- Removes the underscores that stand between two digits; `none` if one stands elsewhere. -/
def dropUnderscores (before : Option Char) : List Char → Option (List Char)
  | [] => if before = some '_' then none else some []
  | c :: cs =>
    if c = '_' then
      if before.any Char.isDigit then dropUnderscores (some '_') cs else none
    else if before = some '_' && !c.isDigit then none
    else (dropUnderscores (some c) cs).map (c :: ·)

/-- The number that decimal digits denote. -/
def valueOf (ds : List Char) : Nat :=
  ds.foldl (fun n c => 10 * n + (c.toNat - 48)) 0

/-- The sign in front of a numeral, as "is negative", and the rest of it. -/
def sign : List Char → Bool × List Char
  | '-' :: cs => (true, cs)
  | '+' :: cs => (false, cs)
  | cs => (false, cs)

/-- The most digits that an integer may be written with. -/
def maxIntDigits : Nat := 4300

/-- Reads an integer. -/
def int? (cs : List Char) : Option Int := do
  let (negative, cs) := sign (plain cs)
  let ds ← dropUnderscores none cs
  if ds.isEmpty || !ds.all Char.isDigit || maxIntDigits < ds.length then none
  else
    let n : Int := valueOf ds
    some (if negative then -n else n)

/-- The digits of a numeral before and after the point, and its exponent. -/
structure Parts where
  whole : List Char
  fraction : List Char
  exponent : Int

/-- Reads the exponent part of a numeral, if it is one. -/
def exponent? : List Char → Option Int
  | [] => some 0
  | c :: cs =>
    if c = 'e' || c = 'E' then
      let (negative, ds) := sign cs
      if ds.isEmpty || !ds.all Char.isDigit then none
      else
        let n : Int := valueOf ds
        some (if negative then -n else n)
    else none

/-- Reads digits with at most one point and an optional exponent. -/
def parts? (cs : List Char) : Option Parts := do
  let whole := cs.takeWhile Char.isDigit
  let rest := cs.dropWhile Char.isDigit
  let (fraction, rest) :=
    match rest with
    | '.' :: more => (more.takeWhile Char.isDigit, more.dropWhile Char.isDigit)
    | _ => ([], rest)
  if whole.isEmpty && fraction.isEmpty then none
  else
    let exponent ← exponent? rest
    some { whole, fraction, exponent }

/-- Coefficient and exponent of a numeral. -/
def Parts.scaled (p : Parts) : Nat × Int :=
  (valueOf (p.whole ++ p.fraction), p.exponent - p.fraction.length)

/-- Reads a double: a numeral, or one of the names of infinity and not-a-number. -/
def double? (cs : List Char) : Option Double := do
  let (negative, cs) := sign (plain cs)
  let name := String.ofList (cs.map Char.toLower)
  if name == "inf" || name == "infinity" then some (.infinite negative)
  else if name == "nan" then some (.nan 0)
  else
    let cs ← dropUnderscores none cs
    let p ← parts? cs
    let (coefficient, exponent) := p.scaled
    some (Decimal.finite negative coefficient exponent).toDouble

/-- Reads the digits of a payload; no digits are the payload zero. -/
def payload? (ds : List Char) : Option Nat :=
  if ds.all Char.isDigit then some (valueOf ds) else none

/-- Reads a decimal number: a numeral within the limits of the exponent, infinity, or a
not-a-number value with its payload. -/
def decimal? (cs : List Char) : Option Decimal := do
  let cs := (dropBothEnds (fun c : Char => isBlank c) cs).filter (· != '_')
  let (negative, cs) := sign (cs.map plainDigit)
  let small := cs.map Char.toLower
  let name := String.ofList small
  if name == "inf" || name == "infinity" then some (.infinite negative)
  else if startsWith small "nan".toList then
    (payload? (cs.drop 3)).map (Decimal.nan negative false · 0)
  else if startsWith small "snan".toList then
    (payload? (cs.drop 4)).map (Decimal.nan negative true · 0)
  else
    let p ← parts? cs
    let (coefficient, exponent) := p.scaled
    if Decimal.isRepresentable coefficient exponent then
      some (.finite negative coefficient exponent)
    else none
where
  startsWith (cs find : List Char) : Bool := find.isPrefixOf cs

end RecordFilter.Numeral
