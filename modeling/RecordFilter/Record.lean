import RecordFilter.Text.Case
import RecordFilter.Text.Search
import RecordFilter.Value.Compare
import RecordFilter.Value.Family

/-!
# Reading fields of records

A record is a map, looked up by key, or an object, looked up by field name. Operators, constants,
types and nodes have fields like objects. Whatever is missing is absent, and so is every field of a
value that has no fields. A path of several names walks through nested records and stops at the
first absent value.
-/

namespace RecordFilter

/-- A way to read the field of a record. -/
abbrev Accessor := Value → Text → Value

namespace Record

/-- The fields of an operator. -/
def operatorFields (o : Operator) : List (Text × Value) :=
  [("key", o.key), ("aliases", .list (o.aliases.map Value.text)),
    ("is_function", .bool o.isFunction)]

/-- The family of a thing of which a field of a node consists. -/
def familyOf? : Member → Option Family
  | .type (.data _) => some .dataTypes
  | .type (.entity _) => some .entityTypes
  | .thing sort .. => Family.ofSort? sort

/-- The fields of a thing, its own before those of its family. -/
def withFamily (family : Option Family) (fields : List (Text × Value)) : List (Text × Value) :=
  fields ++ ((family.map fun f => f.members fields).getD [])

/-- The fields of a value that is no map. -/
def members : Value → List (Text × Value)
  | .object fields => withFamily (some .objects) fields
  | .node n shown => withFamily (some (.ofKind n.kind)) shown.fields
  | .member m fields => withFamily (familyOf? m) fields
  | .operator o => withFamily (some .operators) (operatorFields o)
  | .token t => t.asRecord
  | _ => []

/-- The field of a record with a name. -/
def get : Accessor
  | .map entries, name => (Value.lookup? (.text name) entries).getD .null
  | v, name => ((members v).lookup name).getD .null

/-- The field of a record whose name is the given one in capital letters. -/
def getUpper : Accessor := fun record name =>
  get record (Text.upper name)

/-- The value at the end of a path. -/
def walk (access : Accessor) (record : Value) : List Text → Value
  | [] => record
  | name :: path =>
    match record with
    | .null => .null
    | v => walk access (access v name) path

end Record

end RecordFilter
