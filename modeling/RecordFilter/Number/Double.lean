/-!
# Double precision numbers

The binary floating point numbers of 64 bits as exact data: a finite number is
`± mantissa * 2 ^ exponent`, with a mantissa below `2 ^ 53` and an exponent of at least `-1074`.
The largest mantissa of a given value is used, so two finite numbers are the same number exactly
when they are the same data (zeros apart, which come with either sign). All arithmetic goes through
`Double.ofRatio`, the one place where rounding happens.

A value that is not a number carries its origin. It equals nothing as a number; the origin tells
whether two such values are one and the same thing.
-/

namespace RecordFilter

/-- A double precision number. -/
inductive Double where
  /-- Not a number. Origin zero is that of every such value which is written or computed as one. -/
  | nan (origin : Nat)
  | infinite (negative : Bool)
  | finite (negative : Bool) (mantissa : Nat) (exponent : Int)
deriving DecidableEq, Repr, Inhabited

namespace Double

/-- The least exponent of a finite number. -/
def minExponent : Int := -1074

/-- The greatest exponent of a finite number. -/
def maxExponent : Int := 971

/-- The value of zero with a sign. -/
def zero (negative : Bool) : Double :=
  .finite negative 0 minExponent

/-- `num / den` rounded down at the binary place `e`, and whether the part cut off is below, at or
above one half of that place. -/
def cutAt (num den : Nat) (e : Int) : Nat × Ordering :=
  let n := if e < 0 then num * Nat.pow 2 e.natAbs else num
  let d := if e < 0 then den else den * Nat.pow 2 e.natAbs
  (n / d, compare (2 * (n % d)) d)

/-- The exponent at which `num / den` has a mantissa of 53 bits, or the least exponent where the
number is too small for that. -/
def placeOf (num den : Nat) : Int :=
  let e : Int := (num.log2 : Int) - (den.log2 : Int) - 52
  let e := if (cutAt num den e).1 < Nat.pow 2 52 then e - 1 else e
  max e minExponent

/-- The double nearest to `± num / den`; of two nearest ones that with the even mantissa. -/
def ofRatio (negative : Bool) (num den : Nat) : Double :=
  if num = 0 then zero negative
  else
    let e := placeOf num den
    let (q, rest) := cutAt num den e
    let q := if rest = .gt || (rest = .eq && q % 2 = 1) then q + 1 else q
    let (q, e) := if q = Nat.pow 2 53 then (Nat.pow 2 52, e + 1) else (q, e)
    if maxExponent < e then .infinite negative else .finite negative q e

/-- The double nearest to an integer, infinite when it is out of range. -/
def ofInt (n : Int) : Double :=
  ofRatio (n < 0) n.natAbs 1

/-- The absolute value of a finite number as a fraction. -/
def ratio (mantissa : Nat) (exponent : Int) : Nat × Nat :=
  if exponent < 0 then (mantissa, Nat.pow 2 exponent.natAbs)
  else (mantissa * Nat.pow 2 exponent.natAbs, 1)

/-- The same value with another origin, if it is not a number. -/
def withOrigin (origin : Nat) : Double → Double
  | .nan _ => .nan origin
  | d => d

/-- A number is zero exactly when its mantissa is. -/
def isZero : Double → Bool
  | .finite _ m _ => m == 0
  | _ => false

/-- The sum of a number and one half. -/
def addHalf : Double → Double
  | .finite negative m e =>
    let (num, den) := ratio m e
    let sum : Int := (if negative then -(2 * num : Int) else 2 * num) + den
    if sum = 0 then zero false else ofRatio (sum < 0) sum.natAbs (2 * den)
  | d => d

/-- The greatest integer that is not above a finite number. -/
def floor (negative : Bool) (m : Nat) (e : Int) : Int :=
  let (num, den) := ratio m e
  Int.fdiv (if negative then -(num : Int) else num) den

/-- The least integer that is not below a finite number. -/
def ceiling (negative : Bool) (m : Nat) (e : Int) : Int :=
  -floor (!negative) m e

/-- The integer next to a finite number on the side of zero. -/
def truncate (negative : Bool) (m : Nat) (e : Int) : Int :=
  let (num, den) := ratio m e
  if negative then -((num / den : Nat) : Int) else (num / den : Nat)

end Double

end RecordFilter
