import RecordFilter.Schema

/-!
# Checking operands against a schema

An operand fits a schema when every property path in it leads to a property, whose type then becomes
the type of the path. Under no schema everything fits. An operand is marked with the entity type it
was last checked against and is not looked at again under that one.

`Expr.check` returns the operand with the types and marks found so far even when it does not fit, in
order, next to the fault that stopped it.
-/

namespace RecordFilter

/-- The type of what a property leads to. -/
def PropertyTarget.type : PropertyTarget → TypeRef
  | data type => .data type
  | navigation entity _ => .entity entity

/-- What bears the mark was already checked against this very entity type. -/
def Mark.isFor (schema : Option EntityId) (mark : Mark) : Bool :=
  schema.isSome && mark.checked == schema

/-- The mark of what was checked against an entity type. -/
def Mark.after (schema : Option EntityId) (mark : Mark) : Mark :=
  { mark with checked := schema, wasChecked := true }

namespace Expr

variable (c : Catalog) (schema : Option EntityId)

/-- The type of a path in a schema. -/
def pathType (entity : EntityId) (path : Value) : Except Fault TypeRef :=
  match path.asText? with
  | none => .error .noMember
  | some s =>
    match c.property? entity s with
    | some p => .ok p.target.type
    | none => do throw (.validation (.unresolvedPath (c.nameText entity) (← path.toText)))

/-- A path with the type that it has in the schema. -/
def checkPath (path : Value) (type : Option TypeRef) : Except Fault (Option TypeRef) :=
  match schema with
  | none => .ok type
  | some entity =>
    if c.isSchemaless schema then .ok type else (pathType c entity path).map some

mutual

/-- Checks an operand: the operand with its types and marks, and the fault if it does not fit. -/
def check : Expr → Expr × Option Fault
  | literal value type explicit mark =>
    if mark.isFor schema then (literal value type explicit mark, none)
    else (literal value type explicit (mark.after schema), none)
  | path p type mark =>
    if mark.isFor schema then (path p type mark, none)
    else
      match checkPath c schema p type with
      | .ok type => (path p type (mark.after schema), none)
      | .error fault => (path p type mark, some fault)
  | call function args type mark =>
    if mark.isFor schema then (call function args type mark, none)
    else
      match checkAll args with
      | (args, none) => (call function args type (mark.after schema), none)
      | (args, some fault) => (call function args type mark, some fault)

/-- Checks operands one after the other, up to the first that does not fit. -/
def checkAll : List Expr → List Expr × Option Fault
  | [] => ([], none)
  | e :: es =>
    match check e with
    | (e, some fault) => (e :: es, some fault)
    | (e, none) =>
      let (es, fault) := checkAll es
      (e :: es, fault)

end

/-- An operand that has to fit the schema. -/
def fit (e : Expr) : Except Fault Expr :=
  match check c schema e with
  | (e, none) => .ok e
  | (_, some fault) => .error fault

end Expr

end RecordFilter
