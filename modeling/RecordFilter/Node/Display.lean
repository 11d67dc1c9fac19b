import RecordFilter.Operand.Sharing
import RecordFilter.Schema
import RecordFilter.Value.Text

/-!
# How predicates and operands are shown

The form in which a predicate or an operand is shown inside lists and messages: its kind with all
its parts, among them the operands that checking has found. It changes with what is known about the
node, so a value that holds nodes is brought up to date (`Value.refreshed`) before it is shown.
-/

namespace RecordFilter

/-- How a type is shown. -/
def TypeRef.display (c : Catalog) : Option TypeRef → Text
  | none => Value.null.display
  | some (.data type) => "DataType(" ++ type.name ++ ")"
  | some (.entity id) =>
    "EntityType(name=" ++ (((c.entity? id).map EntityType.name).getD .null).display ++ ")"

namespace Expr

/-- How a call is shown. -/
def displayCall (c : Catalog) (function : Function) (args : List Text)
    (type : Option TypeRef) : Text :=
  "FunctionCallExpr(name=" ++ Text.quoted function.name ++ ", args=[" ++
    Text.join ", " args ++ "], data_type=" ++ TypeRef.display c type ++ ")"

mutual

/-- How an operand is shown. -/
def display (c : Catalog) : Expr → Text
  | literal value type explicit _ =>
    "LiteralExpr(value=" ++ value.display ++ ", data_type=" ++ TypeRef.display c type ++
      ", has_explicit_data_type=" ++ (Value.bool explicit).display ++ ")"
  | path p type _ =>
    "PropertyPathExpr(path=" ++ p.display ++ ", data_type=" ++ TypeRef.display c type ++ ")"
  | call function args type _ => displayCall c function (displayAll c args) type

/-- How operands are shown. -/
def displayAll (c : Catalog) : List Expr → List Text
  | [] => []
  | e :: es => display c e :: displayAll c es

end

/-- How an operand that may be absent is shown. -/
def displayOption (c : Catalog) : Option Expr → Text
  | none => Value.null.display
  | some e => e.display c

end Expr

mutual

/-- How a predicate is shown. -/
def Predicate.display (c : Catalog) (notes : Notes) : Predicate → Text
  | .passthrough _ text => "PassthroughNode(text=" ++ text.display ++ ")"
  | .unary _ op operand =>
    "UnaryNode(op=" ++ op.display ++ ", operand=" ++
      Predicate.displayOption c notes operand ++ ")"
  | .logical _ op children =>
    "LogicalNode(op=" ++ op.display ++ ", children=[" ++
      Text.join ", " (Predicate.displayAll c notes children) ++ "])"
  | .comparison id op left right =>
    "ComparisonNode(op=" ++ op.display ++ ", left_source=" ++ left.display ++
      ", right_source=" ++ right.display ++
      ", left=" ++ Expr.displayOption c (notes.note id).left ++
      ", right=" ++ Expr.displayOption c (notes.note id).right ++ ")"
  | .quantified id op collection body =>
    "QuantifiedNode(op=" ++ op.display ++ ", collection_source=" ++ collection.display ++
      ", body=" ++ Predicate.displayOption c notes body ++
      ", collection_expr=" ++ Expr.displayOption c (notes.note id).collection ++ ")"
  | .bare n => Node.display c notes n

/-- How a predicate that may be absent is shown. -/
def Predicate.displayOption (c : Catalog) (notes : Notes) : Option Predicate → Text
  | none => Value.null.display
  | some p => Predicate.display c notes p

/-- How predicates are shown. -/
def Predicate.displayAll (c : Catalog) (notes : Notes) : List (Option Predicate) → List Text
  | [] => []
  | p :: ps => Predicate.displayOption c notes p :: Predicate.displayAll c notes ps

/-- How a node is shown. -/
def Node.display (c : Catalog) (notes : Notes) : Node → Text
  | .predicate p => Predicate.display c notes p
  | .expr e => (e.current notes).display c
  | .call _ function args =>
    Expr.displayCall c function (Node.displayAll c notes args) (some (.data function.resultType))

/-- How a node that may be absent is shown. -/
def Node.displayOption (c : Catalog) (notes : Notes) : Option Node → Text
  | none => Value.null.display
  | some n => Node.display c notes n

/-- How nodes are shown. -/
def Node.displayAll (c : Catalog) (notes : Notes) : List (Option Node) → List Text
  | [] => []
  | n :: ns => Node.displayOption c notes n :: Node.displayAll c notes ns

end

/-! ### Bringing values up to date -/

mutual

/-- The value with all nodes in it shown as they are now. -/
def Value.refreshed (c : Catalog) (notes : Notes) : Value → Value
  | .list items => .list (Value.refreshedItems c notes items)
  | .map entries => .map (Value.refreshedEntries c notes entries)
  | .object fields => .object (Value.refreshedFields c notes fields)
  | .operator o => .operator (Operator.refreshed c notes o)
  | .node n shown =>
    let n := Node.refreshed c notes n
    .node n { shown with display := n.display c notes }
  | v => v

/-- The operator with all nodes in its key shown as they are now. -/
def Operator.refreshed (c : Catalog) (notes : Notes) : Operator → Operator
  | ⟨key, aliases, isFunction⟩ => ⟨Value.refreshed c notes key, aliases, isFunction⟩

/-- The items of a list with all nodes in them shown as they are now. -/
def Value.refreshedItems (c : Catalog) (notes : Notes) : List Value → List Value
  | [] => []
  | v :: vs => Value.refreshed c notes v :: Value.refreshedItems c notes vs

/-- The entries of a map with all nodes in them shown as they are now. -/
def Value.refreshedEntries (c : Catalog) (notes : Notes) :
    List (Value × Value) → List (Value × Value)
  | [] => []
  | (k, v) :: rest =>
    (Value.refreshed c notes k, Value.refreshed c notes v) ::
      Value.refreshedEntries c notes rest

/-- The fields of an object with all nodes in them shown as they are now. -/
def Value.refreshedFields (c : Catalog) (notes : Notes) :
    List (Text × Value) → List (Text × Value)
  | [] => []
  | (name, v) :: rest =>
    (name, Value.refreshed c notes v) :: Value.refreshedFields c notes rest

/-- The node with all values in it up to date. -/
def Node.refreshed (c : Catalog) (notes : Notes) : Node → Node
  | .predicate p => .predicate (Predicate.refreshed c notes p)
  | .expr e => .expr (Expr.refreshed c notes e)
  | .call id function args => .call id function (Node.refreshedAll c notes args)

/-- The nodes with all values in them up to date. -/
def Node.refreshedAll (c : Catalog) (notes : Notes) : List (Option Node) → List (Option Node)
  | [] => []
  | none :: ns => none :: Node.refreshedAll c notes ns
  | some n :: ns => some (Node.refreshed c notes n) :: Node.refreshedAll c notes ns

/-- The predicate with all values in it up to date. -/
def Predicate.refreshed (c : Catalog) (notes : Notes) : Predicate → Predicate
  | .passthrough id text => .passthrough id (Value.refreshed c notes text)
  | .unary id op operand =>
    .unary id (Operator.refreshed c notes op) (Predicate.refreshedOption c notes operand)
  | .logical id op children =>
    .logical id (Operator.refreshed c notes op) (Predicate.refreshedAll c notes children)
  | .comparison id op left right =>
    .comparison id (Operator.refreshed c notes op) (Value.refreshed c notes left)
      (Value.refreshed c notes right)
  | .quantified id op collection body =>
    .quantified id (Operator.refreshed c notes op) (Value.refreshed c notes collection)
      (Predicate.refreshedOption c notes body)
  | .bare n => .bare (Node.refreshed c notes n)

/-- The predicate, if there is one, with all values in it up to date. -/
def Predicate.refreshedOption (c : Catalog) (notes : Notes) : Option Predicate → Option Predicate
  | none => none
  | some p => some (Predicate.refreshed c notes p)

/-- The predicates with all values in them up to date. -/
def Predicate.refreshedAll (c : Catalog) (notes : Notes) :
    List (Option Predicate) → List (Option Predicate)
  | [] => []
  | p :: ps => Predicate.refreshedOption c notes p :: Predicate.refreshedAll c notes ps

/-- The operand with all values in it up to date. -/
def Expr.refreshed (c : Catalog) (notes : Notes) : Expr → Expr
  | .literal value type explicit mark =>
    .literal (Value.refreshed c notes value) type explicit mark
  | .path p type mark => .path (Value.refreshed c notes p) type mark
  | .call function args type mark =>
    .call function (Expr.refreshedAll c notes args) type mark

/-- The operands with all values in them up to date. -/
def Expr.refreshedAll (c : Catalog) (notes : Notes) : List Expr → List Expr
  | [] => []
  | e :: es => Expr.refreshed c notes e :: Expr.refreshedAll c notes es

end

namespace Notes

/-- The operand as the notes know it, with all values in it up to date. -/
def operand (c : Catalog) (notes : Notes) (e : Expr) : Expr :=
  (e.current notes).refreshed c notes

/-- The notes with all values in their operands as other notes know them. -/
def shownBy (current : Notes) (c : Catalog) (notes : Notes) : Notes :=
  notes.map fun (id, note) =>
    (id, { note with
      left := note.left.map (Expr.refreshed c current)
      right := note.right.map (Expr.refreshed c current)
      collection := note.collection.map (Expr.refreshed c current) })

/-- The notes with all their operands up to date. -/
def refreshed (c : Catalog) (notes : Notes) : Notes :=
  notes.map fun (id, note) =>
    (id, { note with
      left := note.left.map (notes.operand c)
      right := note.right.map (notes.operand c)
      collection := note.collection.map (notes.operand c) })

end Notes

end RecordFilter
