import RecordFilter.Node.Fields

/-!
# Backends

A backend gives an answer to a node in a context, by a handler for the kind of the node. It needs a
handler for every kind; `Backend.ofHandlers` refuses a list of handlers in which one is missing.
-/

namespace RecordFilter

/-- What a backend does with a node of one kind. -/
abbrev Handler (α : Type) := Context → Node → Check α

/-- A named table of handlers, one for every kind of node. -/
structure Backend (α : Type) where
  name : Text
  handler : NodeKind → Handler α

namespace Backend

/-- The backend with these handlers, of which none may be missing. -/
def ofHandlers {α : Type} (name : Text) (handlers : List (NodeKind × Handler α)) :
    Except Fault (Backend α) :=
  match NodeKind.all.filter fun k => (handlers.lookup k).isNone with
  | [] =>
    .ok { name, handler := fun k => (handlers.lookup k).getD fun _ _ => throw .noMember }
  | missing => .error (.incompleteBackend name (missing.map fun k => ↑k.name))

/-- The answer of a backend to a node, which is checked first. -/
def run {α : Type} (b : Backend α) (c : Catalog) (source : ContextSource) (n : Node) : Check α :=
  n.inContext c source fun context => b.handler n.kind context n

end Backend

end RecordFilter
