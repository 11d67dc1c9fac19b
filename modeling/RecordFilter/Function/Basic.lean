import RecordFilter.DataType.Basic

/-!
# Functions

The functions that operands may call, with their names and result types. What they compute is in
`RecordFilter.Function.Apply`.
-/

namespace RecordFilter

/-- A function that operands may call. -/
inductive Function where
  | toupper | tolower | substring | substringof | length | trim | concat | replace
  | startswith | endswith | indexof | round | ceiling | floor
  | second | minute | day | month | year
deriving DecidableEq, Repr, Inhabited

namespace Function

/-- All functions, in the order of the function table. -/
def all : List Function :=
  [toupper, tolower, substring, substringof, length, trim, concat, replace, startswith, endswith,
    indexof, round, ceiling, floor, second, minute, day, month, year]

/-- The name of a function. -/
def name : Function → String
  | toupper => "toupper"
  | tolower => "tolower"
  | substring => "substring"
  | substringof => "substringof"
  | length => "length"
  | trim => "trim"
  | concat => "concat"
  | replace => "replace"
  | startswith => "startswith"
  | endswith => "endswith"
  | indexof => "indexof"
  | round => "round"
  | ceiling => "ceiling"
  | floor => "floor"
  | second => "second"
  | minute => "minute"
  | day => "day"
  | month => "month"
  | year => "year"

/-- The type of the values that a function returns. -/
def resultType : Function → DataType
  | toupper | tolower | substring | trim | concat | replace => .string
  | substringof | startswith | endswith => .boolean
  | length | indexof | round | ceiling | floor | second | minute | day | month | year => .int32

/-- The function with a name, in any letter case. -/
def ofName? (name : Text) : Option Function :=
  all.find? fun f => f.name == Text.lower name

end Function

end RecordFilter
