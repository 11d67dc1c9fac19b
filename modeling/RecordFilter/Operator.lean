import RecordFilter.Node.Kind
import RecordFilter.Text.Case
import RecordFilter.Text.Quoted

/-!
# Operators

An operator is named by a canonical key and may be written with aliases, in any letter case. The
members of two enumerations stand for operators as well: one for comparisons and quantifiers, one
for the logical connectives. The kinds of nodes are named constants of the same sort. The operator
of a predicate (`RecordFilter.Operator`) is a value and may have any key, known or not.
-/

namespace RecordFilter

/-- An operator that is known by its key and aliases, with a mark of some type that says whether it
is written like a call. -/
structure MarkedOperator (φ : Type) where
  key : Text
  aliases : List Text
  isFunction : φ
deriving DecidableEq, Repr, Inhabited

/-- Named constants. Each of them is the text of its key as well, so those that bear the key of an
operator can be used in its place. -/
inductive Token where
  | equals | notEquals | greaterThan | lessThan | greaterThanOrEqual | lessThanOrEqual
  | startsWith | endsWith | contains | any | all
  | and | or | not
  | kind (k : NodeKind)
deriving DecidableEq, Repr, Inhabited

namespace Token

/-- The constants that name operators, those of the first enumeration before those of the second. -/
def members : List Token :=
  [equals, notEquals, greaterThan, lessThan, greaterThanOrEqual, lessThanOrEqual, startsWith,
    endsWith, contains, any, all, and, or, not]

/-- The text that a constant stands for: the key of an operator or the name of a kind. -/
def key : Token → Text
  | equals => "eq"
  | notEquals => "ne"
  | greaterThan => "gt"
  | lessThan => "lt"
  | greaterThanOrEqual => "ge"
  | lessThanOrEqual => "le"
  | startsWith => "startswith"
  | endsWith => "endswith"
  | contains => "contains"
  | any => "any"
  | all => "all"
  | and => "and"
  | or => "or"
  | not => "not"
  | kind k => k.name

/-- The name of a constant. -/
def name : Token → Text
  | equals => "EQUALS"
  | notEquals => "NOT_EQUALS"
  | greaterThan => "GREATER_THAN"
  | lessThan => "LESS_THAN"
  | greaterThanOrEqual => "GREATER_THAN_OR_EQUAL"
  | lessThanOrEqual => "LESS_THAN_OR_EQUAL"
  | startsWith => "STARTS_WITH"
  | endsWith => "ENDS_WITH"
  | contains => "CONTAINS"
  | any => "ANY"
  | all => "ALL"
  | and => "AND"
  | or => "OR"
  | not => "NOT"
  | kind k => Text.upper k.name

/-- The constant is a logical connective. -/
def isBoolean : Token → Bool
  | and | or | not => true
  | _ => false

/-- The name of the enumeration that a constant belongs to. -/
def enumeration : Token → Text
  | and | or | not => "BooleanQueryOp"
  | kind _ => "NodeKind"
  | _ => "FilterQueryOp"

/-- The text of a constant: its enumeration and its name. -/
def text (t : Token) : Text :=
  t.enumeration ++ "." ++ t.name

/-- How a constant is shown inside lists and messages. -/
def display (t : Token) : Text :=
  "<" ++ t.text ++ ": " ++ Text.quoted t.key ++ ">"

end Token

end RecordFilter
