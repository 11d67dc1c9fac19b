import RecordFilter.Text.Case

/-!
# Data types

The fourteen data types of literals and data properties, their names and their families. How
values are read into a type is in `RecordFilter.DataType.Coercion`.
-/

namespace RecordFilter

/-- A data type of literals and data properties. -/
inductive DataType where
  | string | int16 | int32 | int64 | byte | decimal | double | single | boolean
  | dateTime | dateTimeOffset | time | guid | undefined
deriving DecidableEq, Repr, Inhabited

namespace DataType

/-- All data types. -/
def all : List DataType :=
  [string, int16, int32, int64, byte, decimal, double, single, boolean, dateTime, dateTimeOffset,
    time, guid, undefined]

/-- The name of a data type. -/
def name : DataType → String
  | string => "String"
  | int16 => "Int16"
  | int32 => "Int32"
  | int64 => "Int64"
  | byte => "Byte"
  | decimal => "Decimal"
  | double => "Double"
  | single => "Single"
  | boolean => "Boolean"
  | dateTime => "DateTime"
  | dateTimeOffset => "DateTimeOffset"
  | time => "Time"
  | guid => "Guid"
  | undefined => "Undefined"

/-- The name under which a data type is looked up. -/
def key (t : DataType) : Text :=
  Text.lower t.name

/-- The data type with a name, in any letter case. -/
def ofName? (name : Text) : Option DataType :=
  all.find? fun t => t.key == Text.lower name

/-- The values are numbers. -/
def isNumeric : DataType → Bool
  | int16 | int32 | int64 | byte | decimal | double | single => true
  | _ => false

/-- The values are dates or times. -/
def isDate : DataType → Bool
  | dateTime | dateTimeOffset | time => true
  | _ => false

/-- Values are read into the type; a value of type `Undefined` is left as it is given. -/
def hasReader : DataType → Bool
  | undefined => false
  | _ => true

/-- Values of the type compare by what they are and not as texts. -/
def isByValue (t : DataType) : Bool :=
  t.isDate || t == guid

end DataType

end RecordFilter
