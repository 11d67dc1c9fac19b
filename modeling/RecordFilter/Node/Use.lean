import RecordFilter.Predicate.Check
import RecordFilter.Predicate.Told

/-!
# Using predicates and operands

A predicate or an operand is used in a context: the context is brought into form, the node is
checked against its schema, and then it is written in canonical form or compiled into a function.
What checking finds out is noted, so every use is a step of `Check`. A compiled node is a `Program`;
a run of it takes the plain texts of nodes in the record, which is noted as well.
-/

namespace RecordFilter

/-- Takes a step and brings the notes up to date afterwards. -/
def Check.settled {α : Type} (c : Catalog) (step : Check α) : Check α :=
  ExceptT.mk do
    let result ← step.run
    modify (Notes.refreshed c)
    return result

/-- A compiled node: all that its runs depend on, as it was when the node was compiled. -/
structure Program where
  node : Node
  context : Context
  catalog : Catalog
  notes : Notes
  default : Except Fault TextPolicy

namespace Program

/-- The result of a run on a record. -/
def result (program : Program) (record : Value) : Except Fault Value := do
  (← program.node.function program.catalog program.notes program.default program.context) record

/-- The nodes whose plain texts a run on a record takes. -/
def told (program : Program) (record : Value) : List Node :=
  program.node.told program.catalog program.notes program.default program.context record

/-- The program with all values in it up to date. -/
def refreshed (c : Catalog) (notes : Notes) (program : Program) : Program :=
  { program with
    node := program.node.refreshed c notes
    notes := notes.shownBy c program.notes }

end Program

/-- The values that a message about a predicate that cannot be compiled may quote: filter texts and
keys of operators, in the order in which they are looked at. -/
def Predicate.quotable : Predicate → List Value
  | passthrough _ text => [text]
  | unary _ op operand => op.key :: present operand
  | logical _ op children => all children ++ [op.key]
  | comparison _ op _ _ => [op.key]
  | quantified _ op _ body => present body ++ [op.key]
  | bare _ => []
where
  /-- The same of a predicate that may be absent. -/
  present : Option Predicate → List Value
    | none => []
    | some p => p.quotable
  /-- The same of several predicates. -/
  all : List (Option Predicate) → List Value
    | [] => []
    | p :: ps => present p ++ all ps

namespace Node

variable (c : Catalog)

/-- Checks a node against a schema. -/
def validate (schema : Option EntityId) (n : Node) : Check Unit :=
  Check.settled c (n.check c schema)

/-- Checks a node against the schema of a context and then uses it there. -/
def inContext {α : Type} (source : ContextSource) (n : Node) (use : Context → Check α) :
    Check α := do
  let context ← Context.ofSource source
  n.validate c context.schema
  use context

/-- The canonical form of a node in a context. -/
def toCanonical (source : ContextSource) (n : Node) : Check Value :=
  inContext c source n fun context => do
    n.tellArguments c
    n.canonical c (← get) context

/-- The canonical form of a node in a context, as a JSON text. -/
def toJson (layout : Json.Layout) (source : ContextSource) (n : Node) : Check Text := do
  Json.toText layout (← n.toCanonical c source)

/-- The plain text of a node. -/
def say (n : Node) : Check Text :=
  n.toJson c {} .absent

/-- The values that a message about a node that cannot be compiled may quote. -/
def quotable : Node → List Value
  | predicate p => p.quotable
  | _ => []

/-- The fault that keeps a node from being compiled, with the plain text taken that it quotes. -/
def refuse {α : Type} (n : Node) (fault : Fault) : Check α := do
  match fault with
  | .evaluation e =>
    match n.quotable.find? fun v => v.toText.toOption == some e.quoted with
    | some v => throw (.evaluation (e.quoting (← (← v.tell c false).toText)))
    | none => throw fault
  | fault => throw fault

/-- The program of a node in a context. -/
def compile (default : Except Fault TextPolicy) (source : ContextSource) (n : Node) :
    Check Program :=
  inContext c source n fun context => do
    let notes ← get
    match n.function c notes default context with
    | .ok _ => return { node := n, context, catalog := c, notes, default }
    | .error fault => Check.settled c (n.refuse c fault)

end Node

/-- The notes after the plain texts of nodes were taken. -/
def Notes.afterTelling (c : Catalog) (notes : Notes) (nodes : List Node) : Notes :=
  nodes.foldl (fun notes n => ((n.say c).run.run notes).2) notes

/-- Runs a program on a record. -/
def Program.run (c : Catalog) (program : Program) (record : Value) : Check Value := do
  let program := program.refreshed c (← get)
  modify fun notes => notes.afterTelling c (program.told record)
  program.result record

/-- A literal with a data type that a value names; for a text the plain text of a node is taken. -/
def Expr.makeLiteral (c : Catalog) (value typeName : Value) (explicit : Bool) : Check Expr := do
  match DataType.ofValue typeName with
  | .ok (some .string) => Expr.literalOf (← value.tell c false) typeName explicit
  | _ => Expr.literalOf value typeName explicit

end RecordFilter
