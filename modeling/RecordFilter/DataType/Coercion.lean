import RecordFilter.Calendar.Iso
import RecordFilter.Number.Numeral
import RecordFilter.Value.Text

/-!
# Reading values into data types

`DataType.infer` is the type of a value that comes without one, `DataType.read` reads a value into a
type, and `DataType.comparable` brings a value into the form in which values of the type are
compared. Reading is lenient: a text that cannot be read is left as it is.
-/

namespace RecordFilter

open Text (trim lower)

namespace DataType

/-- The text begins like a moment of ISO 8601: a date, a `T` or a space, hours and minutes. Digits
of any script count. -/
def looksLikeMoment (s : Text) : Bool :=
  go "dddd-dd-ddTdd:dd".toList s.chars
where
  /-- `d` stands for a digit, `T` for itself or a space. -/
  go : List Char → List Char → Bool
    | [], _ => true
    | _ :: _, [] => false
    | p :: ps, c :: cs =>
      (if p = 'd' then Text.isDecimalDigit c
        else if p = 'T' then c == 'T' || c == ' '
        else c == p) && go ps cs

/-- The type of a text that comes without one. -/
def inferText (s : Text) : DataType :=
  if Guid.isWritten s.chars then guid else if looksLikeMoment s then dateTime else string

/-- The type of a value that comes without one. -/
def infer : Value → DataType
  | .bool _ => boolean
  | .int _ => int32
  | .double _ => double
  | .decimal _ => decimal
  | .moment _ | .date _ => dateTime
  | .time _ => time
  | .guid _ => guid
  | .text s => inferText s
  | .token t => inferText t.key
  | _ => undefined

/-- Reads a text as an integer; a numeral with a fraction or exponent is cut off at the point. -/
def readInt (s : Text) (given : Value) : Except Fault Value :=
  let cs := (trim s).chars
  if cs.isEmpty then .ok .null
  else
    match Numeral.int? cs with
    | some n => .ok (.int n)
    | none =>
      match Numeral.double? cs with
      | some (.finite negative m e) => .ok (.int (Double.truncate negative m e))
      | some (.infinite _) => .error .outOfRange
      | _ => .ok given

/-- Reads a text as a double. -/
def readDouble (s : Text) (given : Value) : Value :=
  let cs := (trim s).chars
  if cs.isEmpty then .null else ((Numeral.double? cs).map Value.double).getD given

/-- Reads a text as a decimal number. -/
def readDecimalText (s : Text) (given : Value) : Value :=
  let cs := (trim s).chars
  if cs.isEmpty then .null else ((Numeral.decimal? cs).map Value.decimal).getD given

/-- Reads a value as a decimal number. A double becomes the decimal number of its text. -/
def readDecimal : Value → Value
  | .double d => ((Numeral.decimal? d.text.toList).map Value.decimal).getD (.double d)
  | .int n => .decimal (.ofInt n)
  | .text s => readDecimalText s (.text s)
  | .token t => readDecimalText t.key (.token t)
  | v => v

/-- Reads a text as a truth value. -/
def readBool (s : Text) (given : Value) : Value :=
  let small := lower (trim s)
  if small == "true" then .bool true else if small == "false" then .bool false else given

/-- Reads a value as a text: texts stay as they are, all else becomes its plain text. -/
def readString : Value → Except Fault Value
  | .null => .ok .null
  | .text s => .ok (.text s)
  | .token t => .ok (.token t)
  | .bool b => .ok (.text (if b then "true" else "false"))
  | v => v.toText.map Value.text

/-- A text in which a `Z` at the end is written as a distance from universal time. -/
def withPlainZone (s : Text) : Text :=
  if s.points.getLast? == some (.char 'Z') then ⟨s.points.dropLast⟩ ++ "+00:00" else s

/-- Reads a text as a moment. -/
def readMomentText (s : Text) (given : Value) : Value :=
  ((Iso.moment? (withPlainZone (trim s))).map Value.moment).getD given

/-- Reads a value as a moment; a date is the moment at which it begins. -/
def readMoment : Value → Value
  | .date d => .moment (.ofDate d)
  | .text s => readMomentText s (.text s)
  | .token t => readMomentText t.key (.token t)
  | v => v

/-- Reads a value as a time of day. -/
def readTime : Value → Value
  | .text s => ((Iso.timeOfDay? (trim s)).map Value.time).getD (.text s)
  | .token t => ((Iso.timeOfDay? (trim t.key)).map Value.time).getD (.token t)
  | v => v

/-- Reads a value as an identifier: its canonical text, or a text without the blanks around it. -/
def readGuid : Value → Value
  | .guid g => .text g.text
  | .text s => .text (trim s)
  | .token t => .text t.key
  | v => v

/-- Reads a value that is a text with `reader`, and leaves every other value as it is. -/
def onText (reader : Text → Value → Except Fault Value) (v : Value) : Except Fault Value :=
  match v.asText? with
  | some s => reader s v
  | none => .ok v

/-- Reads a value into a data type. -/
def read (t : DataType) (v : Value) : Except Fault Value :=
  match t, v with
  | _, .null => .ok .null
  | string, v => readString v
  | int16, v | int32, v | int64, v | byte, v => onText readInt v
  | decimal, v => .ok (readDecimal v)
  | double, v | single, v => onText (fun s given => .ok (readDouble s given)) v
  | boolean, v => onText (fun s given => .ok (readBool s given)) v
  | dateTime, v | dateTimeOffset, v => .ok (readMoment v)
  | time, v => .ok (readTime v)
  | guid, v => .ok (readGuid v)
  | undefined, v => .ok v

/-- The form in which identifiers are compared: their text in small letters. -/
def comparableGuid : Value → Value
  | .guid g => .text g.text
  | .text s => .text (lower s)
  | .token t => .text (lower t.key)
  | v => v

/-- The form in which values of a data type are compared. -/
def comparable (t : DataType) (v : Value) : Value :=
  match t with
  | decimal => readDecimal v
  | dateTime | dateTimeOffset => readMoment v
  | time => readTime v
  | guid => comparableGuid v
  | _ => v

/-- The data type that a value names; no value names no type. -/
def ofValue (v : Value) : Except TypeNameError (Option DataType) :=
  match v with
  | .null => .ok none
  | _ =>
    match v.asText? with
    | some s =>
      match ofName? s with
      | some t => .ok (some t)
      | none => .error (.unknown (v.toText.toOption.getD s))
    | none => .error (.notAName v.display)

end DataType

/-- The form in which values of a type are compared; values of no data type compare as they are. -/
def TypeRef.comparable : Option TypeRef → Value → Value
  | some (.data t), v => t.comparable v
  | _, v => v

end RecordFilter
