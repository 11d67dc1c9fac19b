import RecordFilter.Node.Use
import RecordFilter.Value.Family

/-!
# Nodes as values

A node may stand inside a filter or a record. Its texts are then those that it has at the moment,
and as a record it has the fields that say what it is made of.
-/

namespace RecordFilter

/-- A data type as a value. -/
def DataType.asValue (t : DataType) : Value :=
  .member (.type (.data t))
    [("name", .text t.name),
      ("parse", if t.hasReader then .thing "function" ("read " ++ t.name) [] else .null),
      ("comparable", .thing "function" ("comparable " ++ t.name) []),
      ("is_numeric", .bool t.isNumeric), ("is_date", .bool t.isDate)]

/-- A policy as a value. -/
def TextPolicy.asValue (policy : TextPolicy) : Value :=
  .thing "StringComparisonOptions"
    ("StringComparisonOptions(case_sensitive=" ++ (Value.bool policy.caseSensitive).display ++
      ", trim_before_compare=" ++ (Value.bool policy.trimmed).display ++ ")")
    [("case_sensitive", .bool policy.caseSensitive),
      ("trim_before_compare", .bool policy.trimmed)]

/-- A naming convention as a value. -/
def NamingConvention.asValue (n : NamingConvention) : Value :=
  .thing "NamingConvention" n.name
    [("name", .text n.name), ("client_to_server", .thing "function" n.name [])]

/-- A property as a value; `entity` gives the values of entity types. -/
def Property.asValue (entity : EntityId → Value) (p : Property) : Value :=
  match p.target with
  | .data t =>
    .thing "DataProperty" p.name
      [("name", .text p.name), ("data_type", t.asValue), ("is_data_property", .bool true),
        ("is_navigation_property", .bool false)]
  | .navigation id isScalar =>
    .thing "NavigationProperty" p.name
      [("name", .text p.name), ("entity_type", entity id), ("is_scalar", .bool isScalar),
        ("is_data_property", .bool false), ("is_navigation_property", .bool true)]

/-- An entity type as a value. The entity types that its properties lead to are values as well, down
to some depth. -/
def EntityType.asValue (c : Catalog) : Nat → EntityId → Value
  | depth, id =>
    match c.entity? id with
    | none => .null
    | some e =>
      let properties : List Value :=
        match depth with
        | 0 => []
        | depth + 1 => e.properties.map (Property.asValue (EntityType.asValue c depth))
      .member (.type (.entity id))
        [("name", e.name),
          ("properties", .map ((e.properties.map fun p => .text p.name).zip properties)),
          ("is_anonymous", .bool e.isAnonymous),
          ("comparison_options", (e.policy.map TextPolicy.asValue).getD .null),
          ("naming_convention", e.convention.asValue)]

/-- A type as a value. -/
def TypeRef.asValue (c : Catalog) : Option TypeRef → Value
  | none => .null
  | some (.data t) => t.asValue
  | some (.entity id) => EntityType.asValue c 2 id

/-- A function as a value. -/
def Function.asValue (f : Function) : Value :=
  .thing "QueryFunction" ("QueryFunction " ++ f.name)
    [("name", .text f.name), ("fn", .thing "function" f.name []),
      ("data_type", f.resultType.asValue)]

namespace Node

/-- The entity type that a node was last checked against, and whether it was checked at all. -/
def checked (notes : Notes) : Node → Option EntityId × Bool
  | expr e =>
    let mark := (e.current notes).mark
    (mark.checked, mark.wasChecked)
  | n =>
    let note := notes.note (n.label.getD 0)
    (note.checked, note.wasChecked)

/-- The node is a predicate. -/
def isPredicate (n : Node) : Bool :=
  match n.kind with
  | .literal | .propertyPath | .functionCall => false
  | _ => true

/-- What can be done with a node. -/
def methods (n : Node) : List (Text × Text) :=
  let ofNodes : List (Text × Text) :=
    [("Node", "validate"), ("Node", "to_json"), ("Node", "to_function")]
  let ofPredicates : List (Text × Text) :=
    [("Predicate", "and_"), ("Predicate", "or_"), ("Predicate", "not_")]
  if n.isPredicate then ofNodes ++ ofPredicates else ofNodes

variable (c : Catalog) (notes : Notes)

/-- The entity type that a node was last checked against as a value. -/
def schemaValue (n : Node) : Value :=
  TypeRef.asValue c ((n.checked notes).1.map TypeRef.entity)

/-- The fields that are set, as a map: those that the node was built with, those that checking has
found, and what it was checked against. A type that a path got from outside its schema was set after
it had been checked. -/
def setFields (n : Node) (built found : List (Text × Value)) : Value :=
  let (schema, wasChecked) := n.checked notes
  let found := found.filter fun f => !f.2.isNull
  let checked : List (Text × Value) :=
    if wasChecked then [("validated_schema", n.schemaValue c notes)] else []
  let set :=
    match n.kind, schema with
    | .propertyPath, none => built ++ checked ++ found
    | _, _ => built ++ found ++ checked
  .map (set.map fun (name, v) => (.text name, v))

/-- The fields that all nodes have. -/
def commonFields (n : Node) : List (Text × Value) :=
  ("kind", .token (.kind n.kind)) :: ("validated_schema", n.schemaValue c notes) ::
    n.methods.map fun (sort, name) =>
      (name, .member (.thing "method"
        ("<bound method " ++ sort ++ "." ++ name ++ " of " ++ n.display c notes ++ ">") n.label) [])

/-- The node as a value with its texts, with the fields that it was built with and those that
checking finds. -/
def withFields (n : Node) (built found : List (Text × Value)) : Value :=
  let set : Text × Value := ("__dict__", n.setFields c notes built found)
  .node n
    { text := ((n.say c).run.run notes).1
      display := n.display c notes
      fields := set :: commonFields c notes n ++ built ++ found }

end Node

section

variable (c : Catalog) (notes : Notes)

mutual

/-- An operand as a value. -/
def Expr.asValue : Expr → Value
  | .literal value type explicit mark =>
    Node.withFields c notes (.expr (.literal value type explicit mark))
      [("value", value), ("data_type", TypeRef.asValue c type),
        ("has_explicit_data_type", .bool explicit)] []
  | .path p type mark =>
    Node.withFields c notes (.expr (.path p type mark)) [("path", p)]
      [("data_type", TypeRef.asValue c type)]
  | .call function args type mark =>
    Node.withFields c notes (.expr (.call function args type mark))
      [("name", .text function.name), ("args", .list (Expr.asValues args)),
        ("function", function.asValue), ("data_type", TypeRef.asValue c type)] []

/-- Operands as values. -/
def Expr.asValues : List Expr → List Value
  | [] => []
  | e :: es => Expr.asValue e :: Expr.asValues es

end

/-- An operand that checking may have found as a value. -/
def Expr.foundValue (e : Option Expr) : Value :=
  (e.map fun e => Expr.asValue c notes (notes.operand c e)).getD .null

mutual

/-- A predicate as a value. -/
def Predicate.asValue : Predicate → Value
  | .passthrough id text =>
    Node.withFields c notes (.predicate (.passthrough id text)) [("text", text)] []
  | .unary id op operand =>
    Node.withFields c notes (.predicate (.unary id op operand))
      [("op", .operator op), ("operand", Predicate.optionValue operand)] []
  | .logical id op children =>
    Node.withFields c notes (.predicate (.logical id op children))
      [("op", .operator op), ("children", .list (Predicate.asValues children))] []
  | .comparison id op left right =>
    Node.withFields c notes (.predicate (.comparison id op left right))
      [("op", .operator op), ("left_source", left), ("right_source", right)]
      [("left", Expr.foundValue c notes (notes.note id).left),
        ("right", Expr.foundValue c notes (notes.note id).right)]
  | .quantified id op collection body =>
    Node.withFields c notes (.predicate (.quantified id op collection body))
      [("op", .operator op), ("collection_source", collection),
        ("body", Predicate.optionValue body)]
      [("collection_expr", Expr.foundValue c notes (notes.note id).collection)]
  | .bare n => Node.asValue n

/-- A predicate that may be absent as a value. -/
def Predicate.optionValue : Option Predicate → Value
  | none => .null
  | some p => Predicate.asValue p

/-- Predicates as values. -/
def Predicate.asValues : List (Option Predicate) → List Value
  | [] => []
  | p :: ps => Predicate.optionValue p :: Predicate.asValues ps

/-- A node as a value. -/
def Node.asValue : Node → Value
  | .predicate p => Predicate.asValue p
  | .expr e => Expr.asValue c notes (e.current notes)
  | .call id function args =>
    Node.withFields c notes (.call id function args)
      [("name", .text function.name), ("args", .list (Node.asValues args)),
        ("function", function.asValue), ("data_type", function.resultType.asValue)] []

/-- Nodes as values. -/
def Node.asValues : List (Option Node) → List Value
  | [] => []
  | none :: ns => .null :: Node.asValues ns
  | some n :: ns => Node.asValue n :: Node.asValues ns

end

/-- A node as a value, with all values in it up to date. -/
def Node.toValue (n : Node) : Value :=
  Node.asValue c notes (n.refreshed c notes)

end

end RecordFilter
