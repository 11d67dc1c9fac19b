import RecordFilter.Text.Basic

/-!
# Kinds of nodes

The kinds that predicates and operands are of, with their names.
-/

namespace RecordFilter

/-- The kinds of nodes. -/
inductive NodeKind where
  | passthrough | unary | logical | comparison | quantified | literal | propertyPath | functionCall
deriving DecidableEq, Repr

namespace NodeKind

/-- All kinds. -/
def all : List NodeKind :=
  [passthrough, unary, logical, comparison, quantified, literal, propertyPath, functionCall]

/-- The name of a kind. -/
def name : NodeKind → String
  | passthrough => "passthrough"
  | unary => "unary"
  | logical => "logical"
  | comparison => "comparison"
  | quantified => "quantified"
  | literal => "literal"
  | propertyPath => "property_path"
  | functionCall => "function_call"

/-- The kind with a name. -/
def ofName? (name : Text) : Option NodeKind :=
  all.find? fun k => k.name == name

theorem mem_all (k : NodeKind) : k ∈ all := by
  cases k <;> decide

end NodeKind

end RecordFilter
