import RecordFilter.Number.Decimal

/-!
# Comparing numbers

Integers, doubles and decimal numbers compare by their exact values, across the three kinds.
`Number.order?` is `none` when one side is not a number. Whether such a comparison has an answer at
all depends on the kinds: doubles that are not numbers differ from everything, while a comparison
that takes part in decimal arithmetic may be undefined (`Number.equalUndefined`,
`Number.orderUndefined`).
-/

namespace RecordFilter

/-- A number of one of the three kinds. -/
inductive Number where
  | int (n : Int)
  | double (d : Double)
  | decimal (d : Decimal)
deriving DecidableEq, Repr

namespace Number

/-- The exact value. -/
def exact : Number → Decimal
  | .int n => .ofInt n
  | .double d => .ofDouble d
  | .decimal d => d

/-- The number is a decimal number. -/
def isDecimal : Number → Bool
  | .decimal _ => true
  | _ => false

/-- The order of two numbers by exact value; `none` when one of them is not a number. -/
def order? : Number → Number → Option Ordering
  | .int a, .int b => some (compare a b)
  | a, b => a.exact.compare? b.exact

/-- A test of equality is undefined when a signalling decimal takes part. -/
def equalUndefined (a b : Number) : Bool :=
  a.exact.isSignalling || b.exact.isSignalling

/-- A test of order is undefined when a decimal takes part and one side is not a number. -/
def orderUndefined (a b : Number) : Bool :=
  (a.isDecimal || b.isDecimal) && (order? a b).isNone

/-- The two numbers have one value; a value that is not a number equals nothing. -/
def equal (a b : Number) : Bool :=
  order? a b == some .eq

end Number

end RecordFilter
