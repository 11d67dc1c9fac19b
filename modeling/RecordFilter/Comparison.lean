import RecordFilter.DataType.Coercion
import RecordFilter.Schema
import RecordFilter.Value.Compare
import RecordFilter.Operator.Registry

/-!
# Comparing values

The comparisons that operators stand for. Values are first brought into the form of the data type.
Texts are equal under a policy: letter case and blanks at the ends may be set aside. The policy
applies whenever the first value is a text that is not empty, except for types that compare by what
their values are. Comparisons of order hold for no two values that cannot be ordered, and the
comparisons of parts of texts take the plain text of any value.
-/

namespace RecordFilter

/-- A comparison of two values. -/
inductive Comparison where
  | eq | ne
  | order (relation : Relation)
  | startsWith | endsWith | contains
deriving DecidableEq, Repr

namespace Comparison

/-- The comparisons under the keys of their operators. -/
def table : List (Text × Comparison) :=
  [("eq", eq), ("ne", ne), ("gt", order .gt), ("ge", order .ge), ("lt", order .lt),
    ("le", order .le), ("startswith", startsWith), ("endswith", endsWith), ("contains", contains)]

/-- The comparison that an operator stands for. -/
def ofOperator? (op : Operator) : Option Comparison :=
  op.key.asText?.bind fun key => table.lookup key

end Comparison

namespace TextPolicy

/-- A text without the letter case that the policy sets aside. -/
def cased (policy : TextPolicy) (cs : List CodePoint) : List CodePoint :=
  if policy.caseSensitive then cs else Text.lowerPoints cs

/-- The form of a text in which it is tested for equality. -/
def normal (policy : TextPolicy) (cs : List CodePoint) : List CodePoint :=
  policy.cased (if policy.trimmed then Text.trimPoints cs else cs)

end TextPolicy

namespace Value

/-- The code points of the plain text of a value; an absent value has none. -/
def pointsOrNone : Value → Except Fault (List CodePoint)
  | null => .ok []
  | v => v.toText.map Text.points

/-- A text that is not empty. -/
def isNonemptyText (v : Value) : Bool :=
  v.asText?.any (!·.isEmpty)

end Value

namespace Comparison

/-- Values of the type compare by what they are and not as texts. -/
def isByValue : Option TypeRef → Bool
  | some (.data t) => t.isByValue
  | _ => false

/-- A text equals a value under a policy. No text equals an absent value. -/
def textEqual (policy : TextPolicy) (a b : Value) : Except Fault Bool :=
  match b with
  | .null => .ok false
  | b => do
    let a ← a.pointsOrNone
    return policy.normal a == policy.normal (← b.pointsOrNone)

/-- Two values of a type are equal. -/
def equal (type : Option TypeRef) (policy : TextPolicy) (a b : Value) : Except Fault Bool :=
  if a.isNonemptyText && !isByValue type then textEqual policy a b
  else Value.equal (TypeRef.comparable type a) (TypeRef.comparable type b)

/-- Two values of a type stand in a relation. Values that cannot be ordered do not. -/
def ordered (type : Option TypeRef) (r : Relation) (a b : Value) : Except Fault Bool :=
  match Value.relate r (TypeRef.comparable type a) (TypeRef.comparable type b) with
  | .error .wrongType => .ok false
  | result => result

/-- A test on the texts of two values. -/
def onTexts (policy : TextPolicy) (test : List CodePoint → List CodePoint → Bool) (a b : Value) :
    Except Fault Bool := do
  let a ← a.pointsOrNone
  return test (policy.cased a) (policy.cased (← b.pointsOrNone))

/-- Whether a comparison of two values of a type holds. -/
def holds (type : Option TypeRef) (policy : TextPolicy) : Comparison → Value → Value →
    Except Fault Bool
  | eq, a, b => equal type policy a b
  | ne, a, b => (equal type policy a b).map not
  | order r, a, b => ordered type r a b
  | startsWith, a, b => onTexts policy Text.startsWith a b
  | endsWith, a, b => onTexts policy Text.endsWith a b
  | contains, a, b => onTexts policy Text.contains a b

/-- The comparison that an operator stands for, which has to be a known one. -/
def ofOperator (op : Operator) : Except Fault Comparison :=
  match ofOperator? op with
  | some comparison => .ok comparison
  | none => do
    if op.key.isKey then throw (.evaluation (.unknownOperator (← op.key.toText)))
    else throw .wrongType

end Comparison

end RecordFilter
