import RecordFilter.Record
import RecordFilter.Schema

/-!
# Contexts

A context says how a predicate is used: the schema it refers to, how it is written, and how texts
are compared and fields are read when it is run. Callers may give nothing, a bare schema, a ready
context or a list of named fields, of which the schema must be one; `Context.ofSource` brings all of
these into one form.
-/

namespace RecordFilter

/-- How a predicate is used. -/
structure Context where
  schema : Option EntityId := none
  /-- Paths are written with the names of the server. -/
  server : Value := .bool false
  /-- Literals are written with their data types. -/
  explicitType : Value := .bool false
  /-- How texts are compared, whatever the schema says. -/
  policy : Option TextPolicy := none
  /-- How fields are read, if not in the usual way. -/
  accessor : Option Accessor := none
deriving Inhabited

/-- A named field of a context. -/
inductive ContextField where
  | schema (schema : Option EntityId)
  | server (v : Value)
  | explicitType (v : Value)
  | policy (policy : Option TextPolicy)
  | accessor (accessor : Option Accessor)
  | unknown (name : Text)

/-- What a caller may give as a context. -/
inductive ContextSource where
  | absent
  | entity (id : EntityId)
  | ready (context : Context)
  | fields (fields : List ContextField)
  | other (v : Value)

/-- The field is a schema. -/
def ContextField.isSchema : ContextField → Bool
  | schema _ => true
  | _ => false

/-- The name of a field that contexts do not have. -/
def ContextField.unknownName? : ContextField → Option Text
  | unknown name => some name
  | _ => none

namespace Context

/-- The same context for the elements of a collection. -/
def withSchema (context : Context) (schema : Option EntityId) : Context :=
  { context with schema }

/-- The context with a field set. -/
def set (context : Context) : ContextField → Context
  | .schema schema => { context with schema }
  | .server v => { context with server := v }
  | .explicitType v => { context with explicitType := v }
  | .policy policy => { context with policy }
  | .accessor accessor => { context with accessor }
  | .unknown _ => context

/-- The context with named fields. No fields at all are the empty context. -/
def ofFields (fields : List ContextField) : Except Fault Context :=
  if fields.isEmpty then .ok {}
  else if !fields.any ContextField.isSchema then .error (.context .noSchemaField)
  else
    match fields.filterMap ContextField.unknownName? with
    | [] => .ok (fields.foldl set {})
    | names => .error (.context (.unknownFields (names.mergeSort Text.le)))

/-- The context that a caller gives. -/
def ofSource : ContextSource → Except Fault Context
  | .absent => .ok {}
  | .entity id => .ok { schema := some id }
  | .ready context => .ok context
  | .fields fields => ofFields fields
  | .other v => .error (.context (.notAContext v.display))

end Context

end RecordFilter
