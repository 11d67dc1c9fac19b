import RecordFilter.Json.Write
import RecordFilter.Node.Display
import RecordFilter.Operand.Reading
import RecordFilter.Predicate.Canonical

/-!
# Checking predicates against a schema

Checking resolves the operands of comparisons and the collections of quantifiers and writes them
into the notes. A node that was already checked against the same entity type is skipped; without an
entity type checking always takes place. Notes are written in order, node after node, and those
written before a fault stay.

The body of a quantifier is checked against the entity type of the collection. Where there is no
schema, the elements have none either.

The plain text of a node is its canonical form under no schema, so taking it checks the node, and
what is found out then replaces what was known (`Value.tell`). That happens to a node in the place
of an operand that is read as a text, to a literal among the arguments of a call that is written,
and to a node that a message quotes.
-/

namespace RecordFilter

/-- Steps of checking. Notes survive a fault. -/
abbrev Check := ExceptT Fault (StateM Notes)

namespace Check

/-- The note on a node. -/
def note (id : Label) : Check Note := do
  return (← get).note id

/-- Changes the note on a node. -/
def change (id : Label) (f : Note → Note) : Check Unit :=
  modify fun notes => notes.change id f

/-- Stops with a validation error. -/
def fail {α : Type} (e : ValidationError) : Check α :=
  throw (.validation e)

end Check

namespace Predicate

variable (c : Catalog)

/-- The left operand of a comparison, which must not be a literal. -/
def leftOperand (schema : Option EntityId) (source : Value) : Except Fault Expr := do
  match ← Operand.read? c { schema := schema } source with
  | none => throw (.validation (.unresolvedOperand source.display))
  | some (.literal ..) => throw (.validation (.literalOperand source.display))
  | some e => return e

/-- The data type that an operand gives to a literal on the other side. -/
def hintOf (e : Expr) : Option DataType :=
  match e.type with
  | some (.data type) => some type
  | _ => none

/-- The right operand of a comparison with a left operand. -/
def rightOperand (schema : Option EntityId) (left : Expr) (source : Value) :
    Except Fault Expr := do
  match ← Operand.read? c { schema, isRight := true, hint := hintOf left } source with
  | none => throw (.validation (.unresolvedOperand source.display))
  | some e => return e

/-- The path leads to a single entity. -/
def isSingle (entity : EntityId) : Expr → Bool
  | .path p .. =>
    match p.asText?.bind (c.property? entity) with
    | some ⟨_, .navigation _ isScalar⟩ => isScalar
    | _ => false
  | _ => false

/-- Why an operand cannot be the collection of a quantifier: where there is a schema it must be many
entities. The texts are those of the collection as it was given and of the operator. -/
def misfit? (schema : Option EntityId) (e : Expr) : Option (Text → Text → ValidationError) :=
  match schema with
  | none => none
  | some entity =>
    if c.isSchemaless schema then none
    else
      match e.type with
      | some (.entity _) =>
        if isSingle c entity e then
          some fun text op => .singleEntity text (c.nameText entity) op
        else none
      | _ => some fun text op => .notNavigation text (c.nameText entity) op

/-- The operand that the collection of a quantifier means. Its entities have no type where there is
no schema. -/
def collectionOperand (schema : Option EntityId) (source : Value) : Except Fault Expr := do
  match ← Operand.read? c { schema := schema } source with
  | none => throw (.validation (.unresolvedCollection source.display))
  | some e => return if c.isSchemaless schema then e.withType none else e

end Predicate

namespace Check

/-- Checks a node with `step`, unless it was already checked against this very entity type. -/
def once (schema : Option EntityId) (id : Label) (step : Check Unit) : Check Unit := do
  if schema.isSome && (← note id).checked == schema then return ()
  else
    step
    change id fun n => { n with checked := schema, wasChecked := true }

/-- Checks an operand and notes what is found about its parts. -/
def operand (c : Catalog) (schema : Option EntityId) (e : Expr) : Check Unit := do
  let (e, fault) := (e.current (← get)).check c schema
  modify fun notes => e.record notes
  match fault with
  | some f => throw f
  | none => return ()

/-- An operand as it was given, with all nodes in it up to date. When it is read as a text, `told`
is the operand with its text taken. -/
def source (c : Catalog) (place : Operand.Place) (given : Value) (told : Check Value) :
    Check Value := do
  let v ← if Operand.readsText place given then told else pure given
  return v.refreshed c (← get)

/-- The plain text of a node that is already checked: its canonical form as JSON. -/
def written (c : Catalog) (n : Node) : Check Text := do
  Json.toText {} (← n.canonical c (← get) {})

end Check

variable (c : Catalog)

mutual

/-- Checks a predicate. -/
def Predicate.check (schema : Option EntityId) : Predicate → Check Unit
  | .passthrough id _ => Check.once schema id (pure ())
  | .unary id _ operand => Check.once schema id (Predicate.checkPresent schema operand)
  | .logical id _ children => Check.once schema id (Predicate.checkAll schema children)
  | .comparison id _ left right => Check.once schema id do
    let place : Operand.Place := { schema := schema }
    let l ← Predicate.leftOperand c schema
      (← Check.source c place left (Value.tell true left))
    let place := { place with isRight := true, hint := Predicate.hintOf l }
    let r ← Predicate.rightOperand c schema l
      (← Check.source c place right (Value.tell true right))
    let l := if l.type.isNone then l.withType r.type else l
    Check.change id fun n => { n with left := some l, right := some r }
  | .quantified id ⟨key, _, _⟩ collection body => Check.once schema id do
    let e ← Predicate.collectionOperand c schema
      (← Check.source c { schema := schema } collection (Value.tell true collection))
    match Predicate.misfit? c schema e with
    | some error => do
      let text ← (← Value.tell false collection).toText
      Check.fail (error text (← (← Value.tell false key).toText))
    | none => do
      Check.change id fun n => { n with collection := some e }
      Predicate.checkPresent e.entity? body
  | .bare n => Node.check schema n

/-- Checks a predicate that must be there. -/
def Predicate.checkPresent (schema : Option EntityId) : Option Predicate → Check Unit
  | none => throw .noMember
  | some p => Predicate.check schema p

/-- Checks predicates one after the other. -/
def Predicate.checkAll (schema : Option EntityId) : List (Option Predicate) → Check Unit
  | [] => return ()
  | p :: ps => do
    Predicate.checkPresent schema p
    Predicate.checkAll schema ps

/-- Checks a node. -/
def Node.check (schema : Option EntityId) : Node → Check Unit
  | .predicate p => Predicate.check schema p
  | .expr e => Check.operand c schema e
  | .call id _ args => Check.once schema id (Node.checkAll schema args)

/-- Checks nodes one after the other. -/
def Node.checkAll (schema : Option EntityId) : List (Option Node) → Check Unit
  | [] => return ()
  | none :: _ => throw .noMember
  | some n :: ns => do
    Node.check schema n
    Node.checkAll schema ns

/-- Takes the plain text of a value, which for a node means to check it under no schema and to write
it: the value with that text. In a map that spells an operand out the text is that of its value. -/
def Value.tell (wrapped : Bool) : Value → Check Value
  | .node n shown => do
    Node.check none n
    Node.tellArguments n
    return .node n { shown with text := .ok (← Check.written c n) }
  | .map entries => do
    if wrapped then return .map (← Value.tellEntries entries) else return .map entries
  | v => return v

/-- Takes the plain text of what stands under `value`. -/
def Value.tellEntries : List (Value × Value) → Check (List (Value × Value))
  | [] => return []
  | (k, v) :: rest => do
    let v ← if Value.sameKey k (.text "value") then Value.tell false v else pure v
    return (k, v) :: (← Value.tellEntries rest)

/-- Takes the plain texts of the literals among the arguments of a call. -/
def Node.tellArguments : Node → Check Unit
  | .expr e => Expr.tellArguments e
  | .call _ _ args => Node.tellAll args
  | .predicate _ => return ()

/-- Takes the plain texts of the literals among the arguments of a call. -/
def Expr.tellArguments : Expr → Check Unit
  | .call _ args _ _ => Expr.tellAll args
  | _ => return ()

/-- Takes the plain texts of arguments. -/
def Expr.tellAll : List Expr → Check Unit
  | [] => return ()
  | .literal v _ _ _ :: es => do
    let _ ← Value.tell false v
    Expr.tellAll es
  | e :: es => do
    Expr.tellArguments e
    Expr.tellAll es

/-- Takes the plain texts of arguments. -/
def Node.tellAll : List (Option Node) → Check Unit
  | some (.expr (.literal v _ _ _)) :: ns => do
    let _ ← Value.tell false v
    Node.tellAll ns
  | some n :: ns => do
    Node.tellArguments n
    Node.tellAll ns
  | _ => return ()

end

end RecordFilter
