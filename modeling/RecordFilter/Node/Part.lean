import RecordFilter.Predicate.Notes

/-!
# Parts of nodes

The nodes that a node is made of, reached step by step: by the name of a field, or by the place in
the list that a field holds, counted from the end when it is negative. Operands of a predicate are
those that checking has found.
-/

namespace RecordFilter

/-- What a field of a node holds. -/
inductive Part where
  | one (n : Option Node)
  | many (ns : List (Option Node))

/-- A step from a node or a list of nodes into it. -/
inductive PartStep where
  | field (name : Text)
  | place (i : Int)

/-- A predicate in a place where operands may stand as well. -/
def Predicate.toNode : Predicate → Node
  | bare n => n
  | p => .predicate p

/-- What a field of a node holds; some fields hold no nodes. -/
def Node.part? (notes : Notes) (name : Text) : Node → Option Part
  | .predicate (.unary _ _ p) =>
    if name = "operand" then some (.one (p.map Predicate.toNode)) else none
  | .predicate (.logical _ _ ps) =>
    if name = "children" then some (.many (ps.map fun p => p.map Predicate.toNode)) else none
  | .predicate (.comparison id ..) =>
    if name = "left" then some (.one ((notes.note id).left.map .expr))
    else if name = "right" then some (.one ((notes.note id).right.map .expr))
    else none
  | .predicate (.quantified id _ _ body) =>
    if name = "body" then some (.one (body.map Predicate.toNode))
    else if name = "collection_expr" then some (.one ((notes.note id).collection.map .expr))
    else none
  | .expr (.call _ args _ _) =>
    if name = "args" then some (.many (args.map fun e => some (.expr e))) else none
  | .call _ _ args => if name = "args" then some (.many args) else none
  | _ => none

/-- The item of a list at a place. -/
def itemAt? {α : Type} (items : List α) (i : Int) : Option α :=
  if 0 ≤ i then items[i.toNat]?
  else if i.natAbs ≤ items.length then items[items.length - i.natAbs]?
  else none

namespace Part

/-- Takes a step. -/
def step (notes : Notes) : Part → PartStep → Except Fault Part
  | one (some n), .field name =>
    match n.part? notes name with
    | some part => .ok part
    | none => .error .noMember
  | one none, .field _ => .error .noMember
  | many _, .field _ => .error .noMember
  | one _, .place _ => .error .wrongType
  | many ns, .place i =>
    match itemAt? ns i with
    | some n => .ok (one n)
    | none => .error .badIndex

/-- The node that steps lead to, which must not be a list. -/
def walk (notes : Notes) (steps : List PartStep) (n : Option Node) :
    Except Fault (Option Node) := do
  match ← steps.foldlM (step notes) (one n) with
  | one n => return n
  | many _ => throw .noMember

end Part

end RecordFilter
