import RecordFilter.Comparison
import RecordFilter.Context
import RecordFilter.Function.Apply
import RecordFilter.Operand.Sharing

/-!
# Running predicates on records

A predicate is compiled once into a function on records. Compiling fails where no record is needed
to see that the predicate cannot be run: filter text that is only passed through, or an operator
that is not known. Running fails only by the values of a record.

The policy for comparing texts is that of the context, else that of the schema in scope, else a
default, which is looked up only when it is needed.
-/

namespace RecordFilter

/-! ### Operands -/

namespace Expr

/-- A function from records to values. -/
abbrev Reader := Value → Except Fault Value

/-- The values of operands on a record, one after the other. -/
def valuesOn (record : Value) : List Reader → Except Fault (List Value)
  | [] => .ok []
  | f :: fs => do
    let v ← f record
    return v :: (← valuesOn record fs)

/-- Reads the value at a dotted path. -/
def readPath (access : Accessor) (path : Text) (record : Value) : Value :=
  match Text.segments path with
  | [_] => access record path
  | segments => Record.walk access record segments

mutual

/-- The function of an operand. -/
def compile (context : Context) : Expr → Except Fault Reader
  | literal value _ _ _ => .ok fun _ => .ok value
  | path p _ _ =>
    match p.asText? with
    | some s => .ok fun record => .ok (readPath (context.accessor.getD Record.get) s record)
    | none => .error .noMember
  | call function args _ _ => do
    let fs ← compileAll context args
    return fun record => do function.apply (← valuesOn record fs)

/-- The functions of operands. -/
def compileAll (context : Context) : List Expr → Except Fault (List Reader)
  | [] => .ok []
  | e :: es => do
    let f ← compile context e
    return f :: (← compileAll context es)

end

/-- The function of an operand that checking has found, which must be there. -/
def compileFound (context : Context) : Option Expr → Except Fault Reader
  | some e => compile context e
  | none => .error .noMember

end Expr

/-! ### Predicates -/

/-- The elements of a collection; an empty or absent one has none. -/
def Value.elements (v : Value) : Except Fault (List Value) :=
  if v.truthy then
    match v.contents? with
    | some vs => .ok vs
    | none => .error .wrongType
  else .ok []

namespace Predicate

/-- A function from records to truth values. -/
abbrev Test := Value → Except Fault Bool

/-- How a test is repeated: until one holds, or until one fails. -/
inductive Extent where
  | some | all
deriving DecidableEq, Repr

/-- Whether a test holds for some or all things, which are tested in order as far as needed. -/
def Extent.holds {α : Type} (extent : Extent) (test : α → Except Fault Bool) :
    List α → Except Fault Bool
  | [] => .ok (extent == .all)
  | a :: as => do
    if (← test a) == (extent == .all) then extent.holds test as
    else return extent == .some

/-- How the operands of a joining operator are tested. -/
def logicalExtent (op : Operator) : Except Fault Extent :=
  if op.key.isText "and" then .ok .all
  else if op.key.isText "or" then .ok .some
  else do throw (.evaluation (.logicalOperator (← op.key.toText)))

/-- How the elements of a collection are tested. -/
def quantifiedExtent (op : Operator) : Except Fault Extent :=
  if op.key.isText "any" then .ok .some
  else if op.key.isText "all" then .ok .all
  else do throw (.evaluation (.unknownOperator (← op.key.toText)))

/-- The policy for comparing texts in a context. -/
def policyOf (c : Catalog) (default : Except Fault TextPolicy) (context : Context) :
    Except Fault TextPolicy :=
  match context.policy with
  | some policy => .ok policy
  | none =>
    match (context.schema.bind c.entity?).bind EntityType.policy with
    | some policy => .ok policy
    | none => default

/-- The type that a comparison compares by: that of its left operand, or else of its right one. -/
def comparedType (left : Option Expr) (right : Option Expr) : Except Fault (Option TypeRef) :=
  match left with
  | none => .error .noMember
  | some l =>
    match l.type with
    | some type => .ok (some type)
    | none =>
      match right with
      | none => .error .noMember
      | some r => .ok r.type

/-- The function of a comparison. -/
def compileComparison (c : Catalog) (default : Except Fault TextPolicy) (context : Context)
    (op : Operator) (left right : Option Expr) : Except Fault Test := do
  let type ← comparedType left right
  let policy ← policyOf c default context
  let comparison ← Comparison.ofOperator op
  let l ← Expr.compileFound context left
  let r ← Expr.compileFound context right
  return fun record => do
    let a ← l record
    comparison.holds type policy a (← r record)

end Predicate

/-- A function from records to values. -/
abbrev Node.Result := Value → Except Fault Value

mutual

/-- The function of a predicate. -/
def Predicate.compile (c : Catalog) (notes : Notes) (default : Except Fault TextPolicy)
    (context : Context) : Predicate → Except Fault Predicate.Test
  | .passthrough _ text => do throw (.evaluation (.passthrough (← text.toText)))
  | .unary _ op operand => do
    if op.key.isText "not" then
      let f ← Predicate.compilePresent c notes default context operand
      return fun record => (f record).map not
    else throw (.evaluation (.unaryOperator (← op.key.toText)))
  | .logical _ op children => do
    let fs ← Predicate.compileAll c notes default context children
    let extent ← Predicate.logicalExtent op
    return fun record => extent.holds (fun f => f record) fs
  | .comparison id op _ _ =>
    Predicate.compileComparison c default context op (notes.note id).left (notes.note id).right
  | .quantified id op _ body => do
    let collection := (notes.note id).collection
    let elements ← Expr.compileFound context collection
    let f ← Predicate.compilePresent c notes default
      (context.withSchema (collection.bind Expr.entity?)) body
    let extent ← Predicate.quantifiedExtent op
    return fun record => do extent.holds f (← (← elements record).elements)
  | .bare n => do
    let f ← Node.function c notes default context n
    return fun record => (f record).map Value.truthy

/-- The function of a predicate that must be there. -/
def Predicate.compilePresent (c : Catalog) (notes : Notes) (default : Except Fault TextPolicy)
    (context : Context) : Option Predicate → Except Fault Predicate.Test
  | none => .error .noMember
  | some p => Predicate.compile c notes default context p

/-- The functions of predicates. -/
def Predicate.compileAll (c : Catalog) (notes : Notes) (default : Except Fault TextPolicy)
    (context : Context) : List (Option Predicate) → Except Fault (List Predicate.Test)
  | [] => .ok []
  | p :: ps => do
    let f ← Predicate.compilePresent c notes default context p
    return f :: (← Predicate.compileAll c notes default context ps)

/-- The function of a node. -/
def Node.function (c : Catalog) (notes : Notes) (default : Except Fault TextPolicy)
    (context : Context) : Node → Except Fault Node.Result
  | .predicate p => do
    let test ← Predicate.compile c notes default context p
    return fun record => (test record).map Value.bool
  | .expr e => (e.current notes).compile context
  | .call _ function args => do
    let fs ← Node.functions c notes default context args
    return fun record => do function.apply (← Expr.valuesOn record fs)

/-- The functions of nodes that must be there. -/
def Node.functions (c : Catalog) (notes : Notes) (default : Except Fault TextPolicy)
    (context : Context) : List (Option Node) → Except Fault (List Node.Result)
  | [] => .ok []
  | none :: _ => .error .noMember
  | some n :: ns => do
    let f ← Node.function c notes default context n
    return f :: (← Node.functions c notes default context ns)

end

end RecordFilter
