import RecordFilter.Context
import RecordFilter.Json.Merge
import RecordFilter.Operand.Sharing

/-!
# Canonical form of predicates

The canonical form is a value from which the predicate can be read again. A comparison becomes a map
from its left operand to an operator and its right operand, without the operator when that is
equality. Properties on the right and literals with a type spelled out become maps themselves, and
calls become texts. Two predicates joined by `and` are merged into one map where that does not
change the meaning.

The operands are those in the notes, so the predicate has to be checked first.
-/

namespace RecordFilter

/-! ### Operands -/

/-- How a literal is written as an argument of a call: numbers and truth values bare, all else in
quotes. -/
def Value.asArgument (v : Value) : Except Fault Text := do
  match v with
  | .bool b => return if b then "true" else "false"
  | .int n => return Text.ofInt n
  | .double d => return d.text
  | .decimal d => return d.text
  | v =>
    let s : Text ←
      match v with
      | .moment m => pure m.isoText
      | v => v.toText
    return if s.points.contains (.char '\'') then "\"" ++ s ++ "\"" else "'" ++ s ++ "'"

namespace Expr

/-- The name of the type of a literal. -/
def typeName (c : Catalog) : Option TypeRef → Except Fault Value
  | some (.data type) => .ok (.text type.name)
  | some (.entity id) => .ok (((c.entity? id).map EntityType.name).getD .null)
  | none => .error .noMember

/-- A path as it is written in a context. -/
def writtenPath (c : Catalog) (context : Context) (path : Value) : Except Fault Value :=
  match context.server.truthy, context.schema.bind c.entity? with
  | true, some e =>
    match path.asText? with
    | some s => .ok (.text (e.convention.convertPath s))
    | none => .error .noMember
  | _, _ => .ok path

/-- The text of a call, whose arguments have to be texts. -/
def callText (function : Function) (args : List Value) : Except Fault Value := do
  match args.mapM Value.asText? with
  | some texts => return .text (function.name ++ "(" ++ Text.join "," texts ++ ")")
  | none => throw .wrongType

mutual

/-- The canonical form of an operand. -/
def canonical (c : Catalog) (context : Context) : Expr → Except Fault Value
  | literal value type explicit _ =>
    if explicit || context.explicitType.truthy then do
      return .map [(.text "value", value), (.text "dataType", ← typeName c type)]
    else .ok value
  | path p _ _ => writtenPath c context p
  | call function args _ _ => do callText function (← argumentForms c context args)

/-- The forms of the arguments of a call. -/
def argumentForms (c : Catalog) (context : Context) : List Expr → Except Fault (List Value)
  | [] => .ok []
  | e :: es => do
    let v ← argumentForm c context e
    return v :: (← argumentForms c context es)

/-- The form of an argument of a call, where literals are written as texts. -/
def argumentForm (c : Catalog) (context : Context) : Expr → Except Fault Value
  | literal value _ _ _ => value.asArgument.map Value.text
  | path p _ _ => writtenPath c context p
  | call function args _ _ => do callText function (← argumentForms c context args)

end

/-- The canonical form of the right operand of a comparison. -/
def canonicalRight (c : Catalog) (context : Context) (e : Expr) : Except Fault Value := do
  let v ← canonical c context e
  match e with
  | path .. => return .map [(.text "value", v), (.text "isProperty", .bool true)]
  | _ => return v

/-- The operand that checking has found, which must be there. -/
def found : Option Expr → Except Fault Expr
  | some e => .ok e
  | none => .error .noMember

end Expr

/-! ### Predicates -/

namespace Predicate

/-- A map of one entry, of which the key must be usable as one. -/
def entry (key v : Value) : Except Fault Value :=
  if key.isKey then .ok (.map [(key, v)]) else .error .wrongType

/-- The canonical form of predicates joined by an operator. -/
def joined (op : Operator) (vs : List Value) : Except Fault Value :=
  let separate := entry op.key (.list vs)
  match vs with
  | [first, second] =>
    if op.key.isText "and" && first.asText?.isNone && second.asText?.isNone then do
      match ← Json.mergeMaps first second with
      | some merged => return merged
      | none => separate
    else separate
  | _ => separate

/-- The canonical form of a comparison. -/
def comparisonForm (op : Operator) (left right : Value) : Except Fault Value := do
  if op.key.isText "eq" then entry left right else entry left (← entry op.key right)

end Predicate

mutual

/-- The canonical form of a predicate. -/
def Predicate.canonical (c : Catalog) (notes : Notes) (context : Context) :
    Predicate → Except Fault Value
  | .passthrough _ text => .ok text
  | .unary _ op operand => do
    Predicate.entry op.key (← Predicate.canonicalPresent c notes context operand)
  | .logical _ op children => do
    Predicate.joined op (← Predicate.canonicalAll c notes context children)
  | .comparison id op _ _ => do
    let left ← Expr.found (notes.note id).left
    let leftForm ← left.canonical c context
    let right ← Expr.found (notes.note id).right
    Predicate.comparisonForm op leftForm (← right.canonicalRight c context)
  | .quantified id op _ body => do
    let e ← Expr.found (notes.note id).collection
    let collection ← e.canonical c context
    let v ← Predicate.canonicalPresent c notes (context.withSchema e.entity?) body
    Predicate.entry collection (← Predicate.entry op.key v)
  | .bare n => Node.canonical c notes context n

/-- The canonical form of a predicate that must be there. -/
def Predicate.canonicalPresent (c : Catalog) (notes : Notes) (context : Context) :
    Option Predicate → Except Fault Value
  | none => .error .noMember
  | some p => Predicate.canonical c notes context p

/-- The canonical forms of predicates. -/
def Predicate.canonicalAll (c : Catalog) (notes : Notes) (context : Context) :
    List (Option Predicate) → Except Fault (List Value)
  | [] => .ok []
  | p :: ps => do
    let v ← Predicate.canonicalPresent c notes context p
    return v :: (← Predicate.canonicalAll c notes context ps)

/-- The canonical form of a node. -/
def Node.canonical (c : Catalog) (notes : Notes) (context : Context) : Node → Except Fault Value
  | .predicate p => Predicate.canonical c notes context p
  | .expr e => (e.current notes).canonical c context
  | .call _ function args => do
    Expr.callText function (← Node.argumentForms c notes context args)

/-- The forms of the arguments of a call. -/
def Node.argumentForms (c : Catalog) (notes : Notes) (context : Context) :
    List (Option Node) → Except Fault (List Value)
  | [] => .ok []
  | none :: _ => .error .noMember
  | some n :: ns => do
    let v ←
      match n with
      | .expr e => (e.current notes).argumentForm c context
      | n => Node.canonical c notes context n
    return v :: (← Node.argumentForms c notes context ns)

end

end RecordFilter
