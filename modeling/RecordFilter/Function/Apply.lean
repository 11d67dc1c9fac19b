import RecordFilter.DataType.Coercion
import RecordFilter.Text.Search

/-!
# Calling functions

What each function of operands computes. All functions but `concat` and `substringof` have no value
when their first argument has none, whatever the other arguments are; otherwise a wrong number of
arguments is `Fault.wrongType`. Functions of texts take the plain text of any value.
-/

namespace RecordFilter

namespace Value

/-- The code points of the plain text of a value. -/
def toPoints (v : Value) : Except Fault (List CodePoint) :=
  v.toText.map Text.points

/-- The integer that a value denotes, cut off at the point. -/
def toInt (v : Value) : Except Fault Int :=
  match v with
  | bool b => .ok (if b then 1 else 0)
  | int n => .ok n
  | double (.finite negative m e) => .ok (Double.truncate negative m e)
  | double (.infinite _) => .error .outOfRange
  | double (.nan _) => .error .badValue
  | decimal (.finite negative c e) => .ok (Decimal.truncate negative c e)
  | decimal (.infinite _) => .error .outOfRange
  | decimal (.nan ..) => .error .badValue
  | guid g => .ok g.bits
  | v =>
    match v.asText? with
    | some s =>
      match Numeral.int? s.chars with
      | some n => .ok n
      | none => .error .badValue
    | none => .error .wrongType

/-- The double that a value denotes. -/
def toDouble (v : Value) : Except Fault Double :=
  match v with
  | bool b => .ok (.ofInt (if b then 1 else 0))
  | int n =>
    match Double.ofInt n with
    | .infinite _ => .error .outOfRange
    | d => .ok d
  | double d => .ok d
  | decimal d => if d.isSignalling then .error .badValue else .ok d.toDouble
  | v =>
    match v.asText? with
    | some s =>
      match Numeral.double? s.chars with
      | some d => .ok d
      | none => .error .badValue
    | none => .error .wrongType

/-- The number of code points, items or entries of a value. -/
def size (v : Value) : Except Fault Nat :=
  match v with
  | list items => .ok items.length
  | map entries => .ok entries.length
  | v =>
    match v.asText? with
    | some s => .ok s.length
    | none => .error .wrongType

end Value

namespace Function

/-- Rounds a double to an integer with `round`. -/
def toInteger (round : Bool → Nat → Int → Int) : Double → Except Fault Value
  | .finite negative m e => .ok (.int (round negative m e))
  | .infinite _ => .error .outOfRange
  | .nan _ => .error .badValue

/-- The part of a text between two places, which are brought into order and into the text. -/
def slice (cs : List CodePoint) (first last : Nat) : List CodePoint :=
  let (low, high) := if last < first then (last, first) else (first, last)
  (cs.take high).drop low

/-- The place `n` in a text; places before the start are the start. -/
def place (v : Value) : Except Fault Nat :=
  v.toInt.map Int.toNat

/-- A part of a moment of which `part` is the value. Values that are no moments may have a member
of that name: times of day have seconds and minutes, and objects have their fields. -/
def momentPart (f : Function) (part : Moment → Nat) (v : Value) : Except Fault Value :=
  match f, DataType.readMoment v with
  | _, .moment m => .ok (.int (part m))
  | second, .time t => .ok (.int t.clock.second)
  | minute, .time t => .ok (.int t.clock.minute)
  | f, .object fields =>
    match fields.lookup (f.name : Text) with
    | some v => .ok v
    | none => .error .noMember
  | _, _ => .error .noMember

/-- The value of a function at arguments of which the first is not absent. -/
def applyPresent (f : Function) (source : Value) (rest : List Value) : Except Fault Value :=
  match f, rest with
  | toupper, [] => do return Value.ofPoints (Text.upperPoints (← source.toPoints))
  | tolower, [] => do return Value.ofPoints (Text.lowerPoints (← source.toPoints))
  | trim, [] => do return Value.ofPoints (Text.trimPoints (← source.toPoints))
  | length, [] => do return .int (← source.size)
  | substring, [start] => do
    let cs ← source.toPoints
    return Value.ofPoints (slice cs (← place start) cs.length)
  | substring, [start, .null] => do
    let cs ← source.toPoints
    return Value.ofPoints (slice cs (← place start) cs.length)
  | substring, [start, stop] => do
    let cs ← source.toPoints
    let first ← place start
    return Value.ofPoints (slice cs first (← place stop))
  | replace, [find, replacement] => do
    let cs ← source.toPoints
    let find ← find.toPoints
    return Value.ofPoints (Text.replaceFirst find (← replacement.toPoints) cs)
  | startswith, [find] => do
    let cs ← source.toPoints
    return .bool (Text.startsWith cs (← find.toPoints))
  | endswith, [find] => do
    let cs ← source.toPoints
    return .bool (Text.endsWith cs (← find.toPoints))
  | indexof, [find] => do
    let cs ← source.toPoints
    return .int (((Text.indexOf? (← find.toPoints) cs).map Int.ofNat).getD (-1))
  | round, [] => do toInteger Double.floor (← source.toDouble).addHalf
  | ceiling, [] => do toInteger Double.ceiling (← source.toDouble)
  | floor, [] => do toInteger Double.floor (← source.toDouble)
  | second, [] => momentPart second (fun m => m.time.clock.second) source
  | minute, [] => momentPart minute (fun m => m.time.clock.minute) source
  | day, [] => momentPart day (fun m => m.date.day) source
  | month, [] => momentPart month (fun m => m.date.month) source
  | year, [] => momentPart year (fun m => m.date.year) source
  | _, _ => .error .wrongType

/-- The text that a value adds to a longer text; absent values add nothing. -/
def concatPart : Value → Except Fault Text
  | .null => .ok ""
  | v => v.toText

/-- The value of a function. -/
def apply (f : Function) (args : List Value) : Except Fault Value :=
  match f, args with
  | concat, [front, back] => do
    let front ← concatPart front
    return .text (front ++ (← concatPart back))
  | substringof, [.null, _] | substringof, [_, .null] => .ok (.bool false)
  | substringof, [find, source] => do
    let find ← find.toPoints
    return .bool (Text.contains (← source.toPoints) find)
  | concat, _ | substringof, _ => .error .wrongType
  | _, .null :: _ => .ok .null
  | f, source :: rest => applyPresent f source rest
  | _, [] => .error .wrongType

end Function

end RecordFilter
