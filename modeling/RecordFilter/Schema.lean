import RecordFilter.Text.Case
import RecordFilter.Text.Search
import RecordFilter.Value.Text

/-!
# Schemas

An entity type lists data properties, which have a data type, and navigation properties, which
point at one or many entities of an entity type. Entity types refer to each other freely, so they
are kept in a catalog and named by their place in it. `Catalog.property?` resolves a dotted path.
An anonymous entity type counts as no schema at all.
-/

namespace RecordFilter

/-- How texts are compared. -/
structure TextPolicy where
  caseSensitive : Bool := false
  trimmed : Bool := true
deriving DecidableEq, Repr, Inhabited

/-- How names of properties are written for a server. -/
inductive NamingConvention where
  | same
  | capitalized
deriving DecidableEq, Repr, Inhabited

/-- What a property leads to. -/
inductive PropertyTarget where
  | data (type : DataType)
  | navigation (entity : EntityId) (isScalar : Bool)
deriving DecidableEq, Repr

/-- A property of an entity type. -/
structure Property where
  name : Text
  target : PropertyTarget
deriving DecidableEq, Repr

/-- An entity type. Its properties are in order of insertion and have distinct names. -/
structure EntityType where
  name : Value
  properties : List Property := []
  isAnonymous : Bool := false
  policy : Option TextPolicy := none
  convention : NamingConvention := .same

namespace NamingConvention

/-- The name of a convention. -/
def name : NamingConvention → Text
  | same => "none"
  | capitalized => "camel_case"

/-- The convention with a name. -/
def ofName? (name : Text) : Option NamingConvention :=
  [same, capitalized].find? fun c => c.name == name

/-- The name of a property for a server. -/
def convert : NamingConvention → Text → Text
  | same, name => name
  | capitalized, name =>
    ⟨Text.upperPoints (name.points.take 1) ++ name.points.drop 1⟩

/-- The dotted path of a property for a server, converted segment by segment. -/
def convertPath (c : NamingConvention) (path : Text) : Text :=
  Text.join "." ((Text.segments path).map c.convert)

end NamingConvention

namespace EntityType

/-- The property with a name. -/
def find? (e : EntityType) (name : Text) : Option Property :=
  e.properties.find? fun p => p.name == name

/-- Adds a property, or replaces the one with its name at its place. -/
def insert (p : Property) : List Property → List Property
  | [] => [p]
  | q :: rest => if q.name = p.name then p :: rest else q :: insert p rest

/-- The entity type with one more property. -/
def add (e : EntityType) (p : Property) : EntityType :=
  { e with properties := insert p e.properties }

end EntityType

/-- All entity types, each named by its place. -/
abbrev Catalog := List EntityType

namespace Catalog

/-- The entity type at a place. -/
def entity? (catalog : Catalog) (id : EntityId) : Option EntityType :=
  catalog[id]?

/-- Changes the entity type at a place. -/
def update (c : Catalog) (id : EntityId) (f : EntityType → EntityType) : Catalog :=
  c.modify id f

/-- The property at the end of a path of names that starts at an entity type. All names but the
last have to be navigation properties. -/
def walk? (c : Catalog) (id : EntityId) : List Text → Option Property
  | [] => none
  | [name] => (c.entity? id).bind fun e => e.find? name
  | name :: path =>
    match (c.entity? id).bind fun e => e.find? name with
    | some ⟨_, .navigation target _⟩ => walk? c target path
    | _ => none

/-- The property at the end of a dotted path. -/
def property? (c : Catalog) (id : EntityId) (path : Text) : Option Property :=
  c.walk? id (Text.segments path)

/-- There is no schema to check anything against: none is given, or an anonymous one. -/
def isSchemaless (c : Catalog) (schema : Option EntityId) : Bool :=
  match schema with
  | none => true
  | some id => ((c.entity? id).map EntityType.isAnonymous).getD true

/-- The text of the name of an entity type. -/
def nameText (c : Catalog) (id : EntityId) : Text :=
  match c.entity? id with
  | some e => (e.name.toText.toOption).getD e.name.display
  | none => Value.null.display

/-- The entity types that a navigation property of an entity type points at, in order. -/
def neighbours (c : Catalog) (id : EntityId) : List EntityId :=
  match c.entity? id with
  | some e =>
    e.properties.filterMap fun p =>
      match p.target with
      | .navigation target _ => some target
      | .data _ => none
  | none => []

/-- Breadth first search: `found` in order of discovery, of which the last `todo` are still to be
looked at. -/
def search (c : Catalog) : Nat → List EntityId → List EntityId → List EntityId
  | 0, found, _ => found
  | _ + 1, found, [] => found
  | fuel + 1, found, id :: todo =>
    let new := (c.neighbours id).foldl
      (fun seen n => if found.contains n || seen.contains n then seen else seen ++ [n]) []
    search c fuel (found ++ new) (todo ++ new)

/-- An entity type and all that can be reached from it, breadth first. -/
def reachable (c : Catalog) (id : EntityId) : List EntityId :=
  c.search (c.length + 1) [id] [id]

end Catalog

end RecordFilter
