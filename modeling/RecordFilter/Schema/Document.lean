import RecordFilter.Schema
import RecordFilter.Value.Compare

/-!
# Schema documents

Reads entity types from a document: a map with the name of the entity type, its options and its
properties. A property is the name of a data type or a map with a navigation, which is either a
document of its own or the name of an entity type defined elsewhere in the same document. An entity
type may be named before it is defined: a name that is new gets an empty entity type, which its
definition fills later.
-/

namespace RecordFilter.Document

/-- The catalog read so far, and the entity types that the document has named. -/
structure Reading where
  catalog : Catalog
  known : List (Value × EntityId)

/-- Steps of reading a document. -/
abbrev Reader := StateT Reading (Except Fault)

/-- The entity type with a name, which is added when the name is new. -/
def entityNamed (name : Value) : Reader EntityId := do
  let r ← get
  match Value.lookup? name r.known with
  | some id => return id
  | none =>
    let id := r.catalog.length
    set (⟨r.catalog ++ [{ name := name }], r.known ++ [(name, id)]⟩ : Reading)
    return id

/-- Changes an entity type. -/
def modifyEntity (id : EntityId) (f : EntityType → EntityType) : Reader Unit :=
  modify fun r => { r with catalog := r.catalog.update id f }

/-- The value under a text key. -/
def field? (name : Text) (entries : List (Value × Value)) : Option Value :=
  Value.lookup? (.text name) entries

/-- The value under a text key, absent when there is none. -/
def field (name : Text) (entries : List (Value × Value)) : Value :=
  (field? name entries).getD .null

/-- The naming convention that a value names. -/
def convention (v : Value) : Reader NamingConvention :=
  if !v.isKey then throw .wrongType
  else
    match v.asText?.bind NamingConvention.ofName? with
    | some c => return c
    | none => do throw (.document (.unknownConvention (← v.toText)))

/-- The text policy that a value describes. -/
def policy (v : Value) : Reader TextPolicy :=
  match v with
  | .map entries =>
    return {
      caseSensitive := ((field? "caseSensitive" entries).map Value.truthy).getD false
      trimmed := ((field? "trimBeforeCompare" entries).map Value.truthy).getD true }
  | _ => throw .noMember

/-- Reads the flags and options of a definition. -/
def options (id : EntityId) (entries : List (Value × Value)) : Reader Unit := do
  modifyEntity id fun e => { e with isAnonymous := (field "isAnonymous" entries).truthy }
  match field "namingConvention" entries with
  | .null => pure ()
  | v =>
    let c ← convention v
    modifyEntity id fun e => { e with convention := c }
  match field "comparisonOptions" entries with
  | .null => pure ()
  | v =>
    let p ← policy v
    modifyEntity id fun e => { e with policy := some p }

/-- The name of a definition. -/
def nameOf (entries : List (Value × Value)) : Reader Value :=
  match field? "name" entries with
  | none => throw (.document .noName)
  | some name => if name.isKey then return name else throw .wrongType

mutual

/-- Reads a definition and returns its entity type. -/
def entity : Value → Reader EntityId
  | .map entries => do
    let id ← entityNamed (← nameOf entries)
    options id entries
    propertiesField id entries
    return id
  | .list items =>
    if items.any fun v => Value.sameKey v (.text "name") then throw .wrongType
    else throw (.document .noName)
  | .text s =>
    if Text.contains s.points (Text.points "name") then throw .wrongType
    else throw (.document .noName)
  | _ => throw .wrongType

/-- Reads the properties among the entries of a definition. -/
def propertiesField (id : EntityId) : List (Value × Value) → Reader Unit
  | [] => return ()
  | (k, v) :: rest =>
    if Value.sameKey k (.text "properties") then properties id v else propertiesField id rest

/-- Reads the map of the properties of an entity type. -/
def properties (id : EntityId) : Value → Reader Unit
  | .map entries => propertyEntries id entries
  | _ => throw .noMember

/-- Reads properties one after the other. -/
def propertyEntries (id : EntityId) : List (Value × Value) → Reader Unit
  | [] => return ()
  | (k, v) :: rest => do
    let name ← k.toText
    let target ← target name v
    modifyEntity id fun e => e.add ⟨name, target⟩
    propertyEntries id rest

/-- Reads what a property leads to. -/
def target (name : Text) : Value → Reader PropertyTarget
  | .text s =>
    match DataType.ofName? s with
    | some t => return .data t
    | none => throw (.document (.unknownDataType s name))
  | .map entries => do
    let id ← navigationField name entries
    return .navigation id (field "isScalar" entries).truthy
  | _ => throw .noMember

/-- Reads the navigation among the entries of a property: the name of an entity type, or its
definition. -/
def navigationField (name : Text) : List (Value × Value) → Reader EntityId
  | [] => throw (.document (.badProperty name))
  | (k, v) :: rest =>
    if Value.sameKey k (.text "navigation") then
      match v with
      | .text s => entityNamed (.text s)
      | .map _ => entity v
      | _ => throw (.document (.badProperty name))
    else navigationField name rest

end

/-- Adds the entity types of a document to a catalog and returns that of the document itself. -/
def read (catalog : Catalog) (document : Value) : Except Fault (EntityId × Catalog) := do
  let (id, r) ← (entity document).run ⟨catalog, []⟩
  return (id, r.catalog)

end RecordFilter.Document
