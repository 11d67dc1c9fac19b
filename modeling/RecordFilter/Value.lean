import RecordFilter.Calendar.Clock
import RecordFilter.DataType.Basic
import RecordFilter.Fault
import RecordFilter.Function.Basic
import RecordFilter.Guid
import RecordFilter.Number.Compare
import RecordFilter.Operator

/-!
# Values, operands and predicates

The data that filters and records are made of. A value is a scalar, a list, a map or an object with
named fields; predicates and operands are values too, since a predicate may be used inside a filter
that is still to be read.

A predicate is a tree over the operands *as they were given*: which property or literal a comparison
means depends on the schema, so resolved operands are kept apart from the tree, under the label of
the node (`RecordFilter.Predicate.Notes`). Labels are what makes two occurrences the same
predicate. An operand tree (`Expr`) is a literal, a property path or a call of a function; it gets a
label only when it can be reached from several places (`RecordFilter.Operand.Sharing`).
-/

namespace RecordFilter

/-- The identity of a node. -/
abbrev Label := Nat

/-- The place of an entity type in its catalog. -/
abbrev EntityId := Nat

/-- What the value of an operand is: a value of a data type, or entities of an entity type. -/
inductive TypeRef where
  | data (type : DataType)
  | entity (id : EntityId)
deriving DecidableEq, Repr

/-- What a predicate or an operand is as a value: its plain text, which may fail to exist, the form
in which it is shown inside lists and messages, and the fields that it has as a record. All three
are those at a certain moment, since checking adds to what is known about a node. -/
structure Shown (α : Type) where
  text : Except Fault Text
  display : Text
  fields : List (Text × α)

/-- What fields of nodes hold besides nodes and plain values: a type, or a thing that has no use as
a value. Of such a thing only the name of its sort, the form in which it is shown and the node that
it belongs to are known. -/
inductive Member where
  | type (type : TypeRef)
  | thing (sort display : Text) (owner : Option Label)
deriving DecidableEq, Repr

/-- What an operand is known by: the entity type that it was last validated against, whether it was
validated at all, and its label, if it has one. -/
structure Mark where
  checked : Option EntityId := none
  wasChecked : Bool := false
  label : Option Label := none
deriving DecidableEq, Repr, Inhabited

mutual

/-- A value of a filter or of a record. The entries of a map are in order of insertion and have
distinct keys. -/
inductive Value where
  | null
  | bool (b : Bool)
  | int (n : Int)
  | double (d : Double)
  | decimal (d : Decimal)
  | text (s : Text)
  | token (t : Token)
  | operator (o : Operator)
  | date (d : Date)
  | time (t : TimeOfDay)
  | moment (m : Moment)
  | guid (g : Guid)
  | list (items : List Value)
  | map (entries : List (Value × Value))
  | object (fields : List (Text × Value))
  | member (m : Member) (fields : List (Text × Value))
  | node (n : Node) (shown : Shown Value)

/-- The operator of a predicate. Its key may be any value; only some texts are keys of operators
that do something. -/
structure Operator where
  key : Value
  aliases : List Text
  isFunction : Bool

/-- A predicate or an operand. -/
inductive Node where
  | predicate (p : Predicate)
  | expr (e : Expr)
  /-- A call with an argument that is absent or no operand. -/
  | call (id : Label) (function : Function) (args : List (Option Node))

/-- A condition on records. Operands that are predicates may be absent, as in the negation of an
empty conjunction. -/
inductive Predicate where
  /-- Filter text that is only ever written out again. -/
  | passthrough (id : Label) (text : Value)
  | unary (id : Label) (op : Operator) (operand : Option Predicate)
  | logical (id : Label) (op : Operator) (children : List (Option Predicate))
  /-- A comparison of two operands, which are kept as they were given. -/
  | comparison (id : Label) (op : Operator) (left right : Value)
  /-- A test of `body` over the elements of a collection. -/
  | quantified (id : Label) (op : Operator) (collection : Value) (body : Option Predicate)
  /-- An operand in the place of a predicate; it holds when its value is truthy. -/
  | bare (n : Node)

/-- An operand. -/
inductive Expr where
  | literal (value : Value) (type : Option TypeRef) (explicit : Bool) (mark : Mark)
  | path (path : Value) (type : Option TypeRef) (mark : Mark)
  | call (function : Function) (args : List Expr) (type : Option TypeRef) (mark : Mark)

end

instance : Inhabited Value := ⟨.null⟩

/-- The operator with a key and without aliases. -/
def Operator.ofKey (key : Value) : Operator :=
  ⟨key, [], false⟩

/-- An operator that is known as the operator of a predicate. -/
def MarkedOperator.toOperator (o : MarkedOperator Bool) : Operator :=
  ⟨.text o.key, o.aliases, o.isFunction⟩

/-- What the value of an operand is, when that is known. -/
def Expr.type : Expr → Option TypeRef
  | literal _ type _ _ | path _ type _ | call _ _ type _ => type

/-- The entity type of the entities that an operand leads to. -/
def Expr.entity? (e : Expr) : Option EntityId :=
  match e.type with
  | some (.entity id) => some id
  | _ => none

/-- What an operand is known by. -/
def Expr.mark : Expr → Mark
  | literal _ _ _ mark | path _ _ mark | call _ _ _ mark => mark

/-- The entity type that an operand was last validated against. -/
def Expr.checked (e : Expr) : Option EntityId :=
  e.mark.checked

/-- The label of an operand. -/
def Expr.label (e : Expr) : Option Label :=
  e.mark.label

/-- The same operand with another type. -/
def Expr.withType (type : Option TypeRef) : Expr → Expr
  | literal value _ explicit mark => literal value type explicit mark
  | path p _ mark => path p type mark
  | call function args _ mark => call function args type mark

mutual

/-- The label of a predicate. -/
def Predicate.label : Predicate → Option Label
  | .passthrough id _ | .unary id _ _ | .logical id _ _ | .comparison id _ _ _
  | .quantified id _ _ _ => some id
  | .bare n => n.label

/-- The label of a node. -/
def Node.label : Node → Option Label
  | .predicate p => p.label
  | .expr e => e.label
  | .call id _ _ => some id

end

/-- The kind of a node. -/
def Node.kind : Node → NodeKind
  | .predicate (.passthrough ..) => .passthrough
  | .predicate (.unary ..) => .unary
  | .predicate (.logical ..) => .logical
  | .predicate (.comparison ..) => .comparison
  | .predicate (.quantified ..) => .quantified
  | .predicate (.bare n) => n.kind
  | .expr (.literal ..) => .literal
  | .expr (.path ..) => .propertyPath
  | .expr (.call ..) | .call .. => .functionCall

/-- Two nodes are one and the same: they have one label. -/
def Node.isSame (m n : Node) : Bool :=
  m.label.isSome && m.label == n.label

namespace Value

/-- A list of code points as a value. -/
def ofPoints (cs : List CodePoint) : Value :=
  text ⟨cs⟩

/-- The text that a value is; a constant of an enumeration is the text of its key. -/
def asText? : Value → Option Text
  | text s => some s
  | token t => some t.key
  | _ => none

/-- The items of a list. -/
def asList? : Value → Option (List Value)
  | list items => some items
  | _ => none

/-- The entries of a map. -/
def asMap? : Value → Option (List (Value × Value))
  | map entries => some entries
  | _ => none

/-- What a value consists of: the items of a list, the keys of a map, the code points of a text. -/
def contents? (v : Value) : Option (List Value) :=
  match v with
  | list items => some items
  | map entries => some (entries.map Prod.fst)
  | v => v.asText?.map fun s => s.points.map fun c => ofPoints [c]

/-- The value is absent. -/
def isNull : Value → Bool
  | null => true
  | _ => false

/-- The value is a map. -/
def isMap : Value → Bool
  | map _ => true
  | _ => false

/-- The number that a value is; truth values are the numbers zero and one. -/
def asNumber? : Value → Option Number
  | bool b => some (.int (if b then 1 else 0))
  | int n => some (.int n)
  | double d => some (.double d)
  | decimal d => some (.decimal d)
  | _ => none

/-- The same value with another origin, if it is not a number. -/
def withOrigin (origin : Nat) : Value → Value
  | double d => double (d.withOrigin origin)
  | decimal d => decimal (d.withOrigin origin)
  | v => v

/-- The value is this very text. -/
def isText (s : Text) (v : Value) : Bool :=
  v.asText? == some s

/-- What a value counts as where a condition is expected: absent, zero and empty values are
false. -/
def truthy : Value → Bool
  | null => false
  | bool b => b
  | int n => n != 0
  | double d => !d.isZero
  | decimal (.finite _ c _) => c != 0
  | text s => !s.isEmpty
  | list items => !items.isEmpty
  | map entries => !entries.isEmpty
  | _ => true

end Value

end RecordFilter
