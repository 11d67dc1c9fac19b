import RecordFilter.Text.Basic
import RecordFilter.Text.ClassTable

/-!
# Character classes

Which characters may stand in a name, which are decimal digits and with what value, and which have
a printed form. ASCII is tested directly and all else in the tables of
`RecordFilter.Text.ClassTable`.
-/

namespace RecordFilter.Text

/-- The code point lies in one of the ranges. -/
def inRanges (ranges : List (Nat × Nat)) (n : Nat) : Bool :=
  ranges.any fun (first, last) => first ≤ n && n ≤ last

/-- A letter or digit of ASCII. -/
def isAsciiAlphanumeric (c : CodePoint) : Bool :=
  c.toChar.isAlphanum

/-- A letter, a numeral or an underscore. -/
def isWord (c : CodePoint) : Bool :=
  if c.number < 128 then isAsciiAlphanumeric c || c == '_'
  else inRanges ClassTable.alphanumeric c.number

/-- A character that has a printed form. -/
def isPrintable (c : CodePoint) : Bool :=
  if c.number < 127 then 32 ≤ c.number else !inRanges ClassTable.unprintable c.number

/-- The value of a decimal digit, of any script. -/
def digitValue? (c : Char) : Option Nat :=
  let n := c.toNat
  if n < 128 then
    if c.isDigit then some (n - 48) else none
  else
    (ClassTable.digitZeros.find? fun first => first ≤ n && n < first + 10).map (n - ·)

/-- A decimal digit of any script. -/
def isDecimalDigit (c : Char) : Bool :=
  (digitValue? c).isSome

/-- The ASCII digit of a value below ten. -/
def digitChar (d : Nat) : Char :=
  Char.ofNat (48 + d)

/-- The decimal digits of a number, most significant first; `0` has the digit zero. -/
def digits (n : Nat) : List Char :=
  Nat.toDigits 10 n

/-- The text of a natural number in decimal notation. -/
def ofNat (n : Nat) : String :=
  String.ofList (digits n)

/-- The text of an integer in decimal notation. -/
def ofInt (n : Int) : String :=
  if n < 0 then "-" ++ ofNat n.natAbs else ofNat n.natAbs

/-- The value of a hexadecimal digit of ASCII. -/
def hexValue? (c : Char) : Option Nat :=
  if c.isDigit then some (c.toNat - 48)
  else if 'a' ≤ c && c ≤ 'f' then some (c.toNat - 87)
  else if 'A' ≤ c && c ≤ 'F' then some (c.toNat - 55)
  else none

/-- The lower case hexadecimal digit of a value below sixteen. -/
def hexChar (d : Nat) : Char :=
  if d < 10 then Char.ofNat (48 + d) else Char.ofNat (87 + d)

/-- The last `width` hexadecimal digits of a number. -/
def hexDigits (width n : Nat) : List Char :=
  match width with
  | 0 => []
  | w + 1 => hexDigits w (n / 16) ++ [hexChar (n % 16)]

/-- A number in decimal notation, filled with zeros on the left up to `width` characters. -/
def padded (width n : Nat) : String :=
  let ds := digits n
  String.ofList (List.replicate (width - ds.length) '0' ++ ds)

end RecordFilter.Text
