import RecordFilter.Number.Double
import RecordFilter.Text.CharClass

/-!
# Shortest decimal text of a double

The fewest decimal digits that read back as the same double, and of those the nearest to it. A
finite number stands for every real that rounds to it; `Double.shortest` tries one, two, … seventeen
digits and takes the first decimal grid with a point in that interval. It is enough to look at the
two grid points next to the number itself.

`Double.text` then lays the digits out: positionally for decimal exponents from `-4` to `15`, in
exponent notation otherwise.
-/

namespace RecordFilter.Double

/-- Bounds of the reals that round to `mantissa * 2 ^ exponent`, with the number in the middle, as
numerators over a common denominator. Below a power of two the doubles lie closer together, so the
lower bound is nearer there. -/
structure Interval where
  low : Nat
  value : Nat
  high : Nat
  unit : Nat
  closed : Bool

/-- The interval of a positive finite number. -/
def interval (mantissa : Nat) (exponent : Int) : Interval :=
  let below := if mantissa = Nat.pow 2 52 && minExponent < exponent then 1 else 2
  let scale := if exponent < 0 then 1 else Nat.pow 2 exponent.natAbs
  { low := (4 * mantissa - below) * scale
    value := 4 * mantissa * scale
    high := (4 * mantissa + 2) * scale
    unit := if exponent < 0 then 4 * Nat.pow 2 exponent.natAbs else 4
    closed := mantissa % 2 = 0 }

/-- Scales a fraction to the decimal place `place`: the numerator and denominator of
`num / den / 10 ^ place`. -/
def atPlace (num den : Nat) (place : Int) : Nat × Nat :=
  if place < 0 then (num * Nat.pow 10 place.natAbs, den) else (num, den * Nat.pow 10 place.natAbs)

/-- The point `n * 10 ^ place` lies in the interval. -/
def Interval.holds (i : Interval) (n : Nat) (place : Int) : Bool :=
  let point := if place < 0 then n * i.unit else n * Nat.pow 10 place.natAbs * i.unit
  let scale := if place < 0 then Nat.pow 10 place.natAbs else 1
  if i.closed then i.low * scale ≤ point && point ≤ i.high * scale
  else i.low * scale < point && point < i.high * scale

/-- The better of the two grid points next to the number at a decimal place, if one of them lies in
the interval: the nearer one, and of two equally near the even one. -/
def Interval.pick (i : Interval) (place : Int) : Option Nat :=
  let (num, den) := atPlace i.value i.unit place
  let down := num / den
  match i.holds down place && down != 0, i.holds (down + 1) place with
  | false, false => none
  | true, false => some down
  | false, true => some (down + 1)
  | true, true =>
    match compare (2 * (num % den)) den with
    | .lt => some down
    | .gt => some (down + 1)
    | .eq => some (if down % 2 = 0 then down else down + 1)

/-- The exponent of the leading decimal digit of `num / den`. -/
def leadingPlace (num den : Nat) : Int :=
  if den ≤ num then ((Text.digits (num / den)).length : Int) - 1
  else
    let d := (Text.digits (den / num)).length
    if num * Nat.pow 10 (d - 1) ≥ den then -((d : Int) - 1) else -(d : Int)

/-- The digits to try, from `count` on, with `fuel` grids left. -/
def shortestFrom (i : Interval) (lead : Int) (count : Nat) : Nat → Nat × Int
  | 0 => (0, 0)
  | fuel + 1 =>
    let place := lead - count + 1
    match i.pick place with
    | some n => (n, place)
    | none => shortestFrom i lead (count + 1) fuel

/-- Drops zeros at the end of a positive number and moves its place up instead. -/
def dropZeros (n : Nat) (place : Int) : Nat → Nat × Int
  | 0 => (n, place)
  | fuel + 1 => if n % 10 = 0 then dropZeros (n / 10) (place + 1) fuel else (n, place)

/-- Digits and decimal place of the shortest decimal text of a positive finite number. -/
def shortest (mantissa : Nat) (exponent : Int) : Nat × Int :=
  let i := interval mantissa exponent
  let (n, place) := shortestFrom i (leadingPlace i.value i.unit) 1 17
  dropZeros n place 20

/-- Digits `ds` with the point after the first `whole` of them, filled up with zeros. -/
def positional (ds : List Char) (whole : Int) : String :=
  if whole ≤ 0 then
    String.ofList ("0.".toList ++ List.replicate whole.natAbs '0' ++ ds)
  else
    let n := whole.toNat
    let front := ds.take n ++ List.replicate (n - ds.length) '0'
    let back := ds.drop n
    String.ofList (front ++ ['.'] ++ if back.isEmpty then ['0'] else back)

/-- Digits `ds` with one of them before the point and the decimal exponent `e`. -/
def scientific (ds : List Char) (e : Int) : String :=
  let point := if ds.length ≤ 1 then [] else ['.']
  String.ofList (ds.take 1 ++ point ++ ds.drop 1) ++ "e" ++ (if e < 0 then "-" else "+") ++
    Text.padded 2 e.natAbs

/-- The text of a double: the shortest digits that read back, positionally below `10 ^ 16`. -/
def text : Double → String
  | .nan _ => "nan"
  | .infinite negative => if negative then "-inf" else "inf"
  | .finite negative m e =>
    let body :=
      if m = 0 then "0.0"
      else
        let (n, place) := shortest m e
        let ds := Text.digits n
        let e := (ds.length : Int) + place - 1
        if -4 ≤ e && e < 16 then positional ds (e + 1) else scientific ds e
    if negative then "-" ++ body else body

end RecordFilter.Double
