import RecordFilter.Number.Double
import RecordFilter.Text.CharClass

/-!
# Decimal numbers

Decimal numbers with a coefficient and a decimal exponent, `± coefficient * 10 ^ exponent`, next to
infinities and quiet or signalling not-a-number values with a payload and, as for doubles, an
origin. Trailing zeros are kept: `1.50` and `1.5` are equal numbers with different texts.
`Decimal.compareFinite` orders two finite numbers exactly, whatever their exponents.
-/

namespace RecordFilter

/-- A decimal number. -/
inductive Decimal where
  | finite (negative : Bool) (coefficient : Nat) (exponent : Int)
  | infinite (negative : Bool)
  | nan (negative signalling : Bool) (payload origin : Nat)
deriving DecidableEq, Repr, Inhabited

namespace Decimal

/-- An integer as a decimal number. -/
def ofInt (n : Int) : Decimal :=
  .finite (n < 0) n.natAbs 0

/-- The exact decimal value of a double. -/
def ofDouble : Double → Decimal
  | .nan origin => .nan false false 0 origin
  | .infinite negative => .infinite negative
  | .finite negative m e =>
    if e < 0 then .finite negative (m * Nat.pow 5 e.natAbs) e
    else .finite negative (m * Nat.pow 2 e.natAbs) 0

/-- The value is not a number. -/
def isNaN : Decimal → Bool
  | .nan .. => true
  | _ => false

/-- The value is a not-a-number value that no comparison admits. -/
def isSignalling : Decimal → Bool
  | .nan _ signalling _ _ => signalling
  | _ => false

/-- The same value with another origin, if it is not a number. -/
def withOrigin (origin : Nat) : Decimal → Decimal
  | .nan negative signalling payload _ => .nan negative signalling payload origin
  | d => d

/-- The exponent of the leading digit, for a coefficient that is not zero. -/
def leading (coefficient : Nat) (exponent : Int) : Int :=
  exponent + (Text.digits coefficient).length - 1

/-- Compares `c₁ * 10 ^ e₁` with `c₂ * 10 ^ e₂`. The leading digits settle most cases, so the
coefficients are brought to one exponent only when they are of like size. -/
def compareMagnitude (c₁ : Nat) (e₁ : Int) (c₂ : Nat) (e₂ : Int) : Ordering :=
  if c₁ = 0 || c₂ = 0 then compare c₁ c₂
  else
    match compare (leading c₁ e₁) (leading c₂ e₂) with
    | .eq =>
      if e₁ ≤ e₂ then compare c₁ (c₂ * Nat.pow 10 (e₂ - e₁).toNat)
      else compare (c₁ * Nat.pow 10 (e₁ - e₂).toNat) c₂
    | order => order

/-- Compares two finite decimal numbers; zeros of either sign are equal. -/
def compareFinite (n₁ : Bool) (c₁ : Nat) (e₁ : Int) (n₂ : Bool) (c₂ : Nat) (e₂ : Int) : Ordering :=
  match n₁ && c₁ != 0, n₂ && c₂ != 0 with
  | false, false => compareMagnitude c₁ e₁ c₂ e₂
  | true, true => compareMagnitude c₂ e₂ c₁ e₁
  | true, false => .lt
  | false, true => .gt

/-- Compares two numbers; `none` when one of them is not a number. -/
def compare? : Decimal → Decimal → Option Ordering
  | .nan .., _ => none
  | _, .nan .. => none
  | .infinite n₁, .infinite n₂ => some (if n₁ = n₂ then .eq else if n₁ then .lt else .gt)
  | .infinite n, .finite .. => some (if n then .lt else .gt)
  | .finite .., .infinite n => some (if n then .gt else .lt)
  | .finite n₁ c₁ e₁, .finite n₂ c₂ e₂ => some (compareFinite n₁ c₁ e₁ n₂ c₂ e₂)

/-- Greatest exponent of a leading digit. -/
def maxLeading : Int := 999999999999999999

/-- Least exponent of a last digit. -/
def minExponent : Int := -1999999999999999997

/-- The number has a representation within the limits of the exponent. -/
def isRepresentable (coefficient : Nat) (exponent : Int) : Bool :=
  leading coefficient exponent ≤ maxLeading && minExponent ≤ exponent

/-- The nearest double; infinite when out of range. Exponents far outside the range of doubles are
settled without computing their powers of ten. -/
def toDouble : Decimal → Double
  | .nan _ _ _ origin => .nan origin
  | .infinite negative => .infinite negative
  | .finite negative c e =>
    if c = 0 then Double.zero negative
    else if 400 < leading c e then .infinite negative
    else if leading c e < -400 then Double.zero negative
    else if e < 0 then Double.ofRatio negative c (Nat.pow 10 e.natAbs)
    else Double.ofRatio negative (c * Nat.pow 10 e.natAbs) 1

/-- The integer next to a finite number on the side of zero. -/
def truncate (negative : Bool) (c : Nat) (e : Int) : Int :=
  let n : Nat :=
    if 0 ≤ e then c * Nat.pow 10 e.toNat
    else if leading c e < 0 then 0
    else c / Nat.pow 10 e.natAbs
  if negative then -(n : Int) else n

/-- The digits `ds` followed by a decimal exponent, with the point `whole` digits from the left. -/
def layout (ds : List Char) (whole : Int) (exponent : Int) : String :=
  let body : List Char :=
    if whole ≤ 0 then "0.".toList ++ List.replicate whole.natAbs '0' ++ ds
    else if (ds.length : Int) ≤ whole then ds ++ List.replicate (whole.toNat - ds.length) '0'
    else ds.take whole.toNat ++ ['.'] ++ ds.drop whole.toNat
  String.ofList body ++
    if exponent = 0 then ""
    else "E" ++ (if exponent < 0 then "-" else "+") ++ Text.ofNat exponent.natAbs

/-- The text of a decimal number: positional when the exponent is not positive and the leading
digit is at the sixth place after the point or before it, in exponent notation otherwise. -/
def text : Decimal → String
  | .nan negative signalling payload _ =>
    (if negative then "-" else "") ++ (if signalling then "sNaN" else "NaN") ++
      if payload = 0 then "" else Text.ofNat payload
  | .infinite negative => if negative then "-Infinity" else "Infinity"
  | .finite negative c e =>
    let ds := Text.digits c
    let lead := leading c e
    (if negative then "-" else "") ++
      if e ≤ 0 && -6 ≤ lead then layout ds (ds.length + e) 0
      else layout ds 1 lead

end Decimal

end RecordFilter
