import RecordFilter.Value

/-!
# Families of things

Nodes, operators, constants, types and objects are things: besides their own fields they have
members that they share with their family. These say what the family is called, where it belongs
and what it is for, which fields are declared for it, and which operations there are. Operations and
families have no use as values; of them only the sort is known (`Value.thing`).

`Family.members` lists the members of a thing from its family and its own fields.
-/

namespace RecordFilter

/-- A thing that has no use as a value but for its fields. -/
def Value.thing (sort display : Text) (fields : List (Text × Value)) : Value :=
  .member (.thing sort display none) fields

/-- What the things of a family have in common. -/
structure Family where
  name : Text
  /-- Where the family belongs; the family of plain objects belongs nowhere. -/
  home : Option Text
  /-- What the family is for. -/
  account : Text
  /-- The fields that the family has from a larger family. -/
  inherited : List Text := []
  /-- The fields that are declared for the family, each with what is declared about it. -/
  declared : List (Text × Value) := []
  /-- The fields that a thing is built from. -/
  given : List Text := []
  /-- The operations that are the family's own. -/
  operations : List Text := []
  /-- The things can be keys of a map. -/
  hashable : Bool := true

namespace Family

/-- Something about a field of which only the sort is known. -/
def declaredAs (sort : Text) : Value :=
  .thing sort sort []

/-- The declaration of a field whose values are of one sort. -/
def plain : Value := declaredAs "type"

/-- The declaration of a field whose values are anything. -/
def anything : Value := declaredAs "_AnyMeta"

/-- The declaration of a field that all things of the family share. -/
def shared : Value := declaredAs "_GenericAlias"

/-- The declaration of a field whose values are lists or maps of one sort. -/
def many : Value := declaredAs "GenericAlias"

/-- The declaration of a field that may be absent. -/
def optional : Value := declaredAs "UnionType"

/-- The declaration of a field whose values are functions. -/
def functions : Value := declaredAs "_CallableGenericAlias"

/-! ### Nodes -/

/-- The family of a kind of nodes. -/
def ofNodes (name account : Text) (declared : List (Text × Value)) (given : List Text)
    (operations : List Text) : Family :=
  { name, account, given
    home := some "filterexpr.core.predicates.ast"
    inherited := ["kind", "validated_schema"]
    declared := ("kind", shared) :: declared
    operations := "__init__" :: "__repr__" :: "__str__" :: operations }

/-- The family of the nodes of a kind. -/
def ofKind : NodeKind → Family
  | .passthrough =>
    ofNodes "PassthroughNode" "Opaque filter text that is only ever serialized back out."
      [("text", plain)] ["text"] []
  | .unary =>
    ofNodes "UnaryNode" "Logical negation of ``operand``." [("op", plain), ("operand", plain)]
      ["op", "operand"] []
  | .logical =>
    ofNodes "LogicalNode" "'and' / 'or' over two or more children."
      [("op", plain), ("children", many)] ["op", "children"] []
  | .comparison =>
    ofNodes "ComparisonNode"
      ("Binary comparison.\n\n    ``left_source`` and ``right_source`` keep the raw operands as " ++
        "given; the\n    expressions they denote depend on the schema, so ``left`` and " ++
        "``right``\n    are resolved during validation.\n    ")
      [("op", plain), ("left_source", anything), ("right_source", anything), ("left", optional),
        ("right", optional)]
      ["op", "left_source", "right_source"] []
  | .quantified =>
    ofNodes "QuantifiedNode" "'any' / 'all' test of ``body`` over a collection property."
      [("op", plain), ("collection_source", anything), ("body", plain),
        ("collection_expr", optional)]
      ["op", "collection_source", "body"] []
  | .literal =>
    ofNodes "LiteralExpr" "A constant value."
      [("value", anything), ("data_type", optional), ("has_explicit_data_type", plain)]
      ["value", "data_type", "has_explicit_data_type"] []
  | .propertyPath =>
    ofNodes "PropertyPathExpr"
      ("Reference to a (possibly nested) record field.\n\n    ``data_type`` is a ``DataType`` " ++
        "for data properties, the target entity\n    type for navigation properties, and None " ++
        "when unresolved.\n    ")
      [("path", plain), ("data_type", anything)] ["path"] []
  | .functionCall =>
    ofNodes "FunctionCallExpr" "Call to a function from the built-in function table."
      [("name", plain), ("args", many), ("function", plain), ("data_type", optional)]
      ["name", "args"] ["__post_init__"]

/-! ### Other families -/

/-- The operations of things that do not change and are equal when all their fields are. -/
def fixedOperations : List Text :=
  ["__delattr__", "__eq__", "__hash__", "__init__", "__repr__", "__setattr__"]

/-- The family of things that do not change and are built from all their fields. -/
def ofFixed (name home account : Text) (declared : List (Text × Value))
    (operations : List Text) : Family :=
  { name, account, declared
    home := some home
    given := declared.map Prod.fst
    operations := fixedOperations ++ operations }

/-- The family of operators. -/
def operators : Family :=
  ofFixed "Operator" "filterexpr.core.predicates.operators"
    "A canonical operator key for one node kind."
    [("key", plain), ("aliases", many), ("is_function", plain)] ["__str__"]

/-- The family of data types. -/
def dataTypes : Family :=
  ofFixed "DataType" "filterexpr.core.datatypes"
    "A named data type with parse and comparable coercions."
    [("name", plain), ("parse", declaredAs "_UnionGenericAlias"), ("comparable", functions),
      ("is_numeric", plain), ("is_date", plain)] []

/-- The family of functions. -/
def calledFunctions : Family :=
  ofFixed "QueryFunction" "filterexpr.core.predicates.functions" "A function table entry."
    [("name", plain), ("fn", functions), ("data_type", plain)] []

/-- Where schemas and what they consist of belong. -/
def schemaHome : Text := "filterexpr.domain.entities.entity_type"

/-- The family of policies. -/
def policies : Family :=
  ofFixed "StringComparisonOptions" schemaHome
    ("Policy used when comparing string values locally.\n\n    Attributes:\n        " ++
      "case_sensitive: Whether \"Foo\" and \"foo\" are different values.\n        " ++
      "trim_before_compare: Trim both sides before an equality test (SQL-92 style).\n    ")
    [("case_sensitive", plain), ("trim_before_compare", plain)] []

/-- The family of naming conventions. -/
def conventions : Family :=
  ofFixed "NamingConvention" schemaHome
    "Translation between client and server property names."
    [("name", plain), ("client_to_server", functions)] ["client_property_name_to_server"]

/-- The family of entity types. -/
def entityTypes : Family :=
  { name := "EntityType"
    home := some schemaHome
    account :=
      "Schema against which property paths and data types are resolved.\n\n    Instances " ++
        "compare by identity; the validation cache relies on it.\n\n    Attributes:\n        " ++
        "name: Entity type name (used in error messages).\n        properties: Property name -> " ++
        "property.\n        is_anonymous: Treat as schema-less when True.\n        " ++
        "comparison_options: String comparison policy, if the schema defines one.\n        " ++
        "naming_convention: Client to server property name translation.\n    "
    declared :=
      [("name", plain), ("properties", many), ("is_anonymous", plain),
        ("comparison_options", optional), ("naming_convention", plain)]
    given := ["name", "properties", "is_anonymous", "comparison_options", "naming_convention"]
    operations :=
      ["__init__", "__repr__", "add_property", "get_property", "client_property_path_to_server",
        "from_dict"] }

/-- The family of a sort of properties. -/
def ofProperties (name account : Text) (declared : List (Text × Value)) (given : List Text) :
    Family :=
  { name, account, declared, given
    home := some schemaHome
    operations := ["__eq__", "__init__", "__repr__"]
    hashable := false }

/-- The family of data properties. -/
def dataProperties : Family :=
  ofProperties "DataProperty" "A scalar property holding a value of ``data_type``."
    [("name", plain), ("data_type", plain), ("is_data_property", plain),
      ("is_navigation_property", plain)]
    ["name", "data_type"]

/-- The family of navigation properties. -/
def navigationProperties : Family :=
  ofProperties "NavigationProperty"
    "A property that points at one (scalar) or many related entities."
    [("name", plain), ("entity_type", .text "EntityType"), ("is_scalar", plain),
      ("is_data_property", plain), ("is_navigation_property", plain)]
    ["name", "entity_type", "is_scalar"]

/-- The family of plain objects. -/
def objects : Family :=
  { name := "SimpleNamespace"
    home := none
    account := "A simple attribute-based namespace.\n\nSimpleNamespace(**kwargs)"
    hashable := false }

/-- The families of things of which little more than the sort is known. -/
def ofSort? (sort : Text) : Option Family :=
  [policies, conventions, calledFunctions, dataProperties, navigationProperties].find? fun f =>
    f.name == sort

/-! ### Members -/

/-- A family as a thing. -/
def asValue (f : Family) : Value :=
  let home := f.home.getD "types"
  .thing "type" ("<class '" ++ home ++ "." ++ f.name ++ "'>")
    [("__name__", .text f.name), ("__qualname__", .text f.name), ("__module__", .text home),
      ("__doc__", .text f.account)]

/-- The operations that all things have for being compared, shown and changed. -/
def commonOperations : List Text :=
  ["__delattr__", "__eq__", "__ge__", "__getattribute__", "__gt__", "__hash__", "__init__",
    "__le__", "__lt__", "__ne__", "__repr__", "__setattr__", "__str__"]

/-- The operations that all things have for being built, copied and listed. -/
def basicOperations : List Text :=
  ["__dir__", "__format__", "__getstate__", "__init_subclass__", "__new__", "__reduce__",
    "__reduce_ex__", "__sizeof__", "__subclasshook__"]

/-- Operations as members of one sort. -/
def operationMembers (sort : Text) (names : List Text) : List (Text × Value) :=
  names.map fun name => (name, .thing sort name [])

/-- The members that tell of the fields that are declared for a family. -/
def declarations (f : Family) : List (Text × Value) :=
  let names := f.inherited ++ (f.declared.map Prod.fst).filter fun n => !f.inherited.contains n
  [("__annotations__", .map (f.declared.map fun (n, v) => (.text n, v))),
    ("__dataclass_fields__", .map (names.map fun n => (.text n, declaredAs "Field"))),
    ("__dataclass_params__", declaredAs "_DataclassParams"),
    ("__match_args__", .list (f.given.map Value.text))]

/-- The members of a thing of a family that has these fields of its own. -/
def members (f : Family) (fields : List (Text × Value)) : List (Text × Value) :=
  let belonging : List (Text × Value) :=
    match f.home with
    | some home => ("__module__", .text home) :: declarations f
    | none => []
  let hash : List (Text × Value) := if f.hashable then [] else [("__hash__", .null)]
  ("__class__", f.asValue) :: ("__doc__", .text f.account) ::
    ("__dict__", .map (fields.map fun (n, v) => (.text n, v))) ::
    (belonging ++ hash ++ operationMembers "method" f.operations ++
      operationMembers "method-wrapper" commonOperations ++
      operationMembers "builtin_function_or_method" basicOperations)

end Family

/-! ### Constants -/

namespace Token

/-- Where the enumeration of a constant belongs. -/
def home : Token → Text
  | kind _ => "filterexpr.core.predicates.ast"
  | _ => "filterexpr.core.predicates.operators"

/-- What the enumeration of a constant is for. -/
def account : Token → Text
  | kind _ => "Node kinds; also the operator registry's kind names."
  | and | or | not => "Logical operators usable in place of strings."
  | _ => "Comparison and quantifier operators usable in place of strings."

/-- The constants of the enumeration that a constant belongs to. -/
def peers (t : Token) : List Token :=
  (members ++ NodeKind.all.map kind).filter fun u => u.enumeration == t.enumeration

/-- The place of a constant among those of its enumeration. -/
def place (t : Token) : Nat :=
  (t.peers.findIdx? (· == t)).getD 0

/-- The enumeration of a constant as a thing. -/
def enumerationValue (t : Token) : Value :=
  .thing "EnumType" ("<enum '" ++ t.enumeration ++ "'>")
    [("__name__", .text t.enumeration), ("__qualname__", .text t.enumeration),
      ("__module__", .text t.home), ("__doc__", .text t.account)]

/-- The fields that a constant has of its own. -/
def fields (t : Token) : List (Text × Value) :=
  [("_value_", .text t.key), ("_name_", .text t.name), ("__objclass__", t.enumerationValue),
    ("_sort_order_", .int t.place)]

/-- The members of a constant: what it stands for, and the constants beside it. -/
def asRecord (t : Token) : List (Text × Value) :=
  ("name", .text t.name) :: ("value", .text t.key) ::
    ("__class__", t.enumerationValue) :: ("__doc__", .text t.account) ::
    ("__module__", .text t.home) ::
    ("__dict__", .map (t.fields.map fun (n, v) => (.text n, v))) ::
    (t.fields ++ t.peers.map fun u => (u.name, .token u))

end Token

end RecordFilter
