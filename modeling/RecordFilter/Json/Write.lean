import RecordFilter.Value.Compare
import RecordFilter.Value.Text

/-!
# Writing JSON

Writes a value as a JSON text. Dates and times are written as texts of ISO 8601 and decimal numbers
as doubles; texts are escaped down to ASCII unless the layout says otherwise. Values of other kinds
have no JSON form. The keys of a map are texts, or scalars that are written as texts.

A `Layout` says what stands between the parts. With an indentation every item and entry has a line
of its own.
-/

namespace RecordFilter.Json

/-- How a JSON text is laid out. -/
structure Layout where
  /-- What a level of nesting adds to the start of a line; without it all is on one line. -/
  indent : Option Text := none
  itemSeparator : Text := ", "
  keySeparator : Text := ": "
  onlyAscii : Bool := true
  allowNaN : Bool := true
  sortKeys : Bool := false
  /-- Entries under keys that have no text are left out. -/
  skipKeys : Bool := false
deriving DecidableEq, Repr, Inhabited

/-! ### Texts and numbers -/

/-- The escape of a sixteen bit unit. -/
def hexEscapeOf (n : Nat) : List CodePoint :=
  '\\' :: 'u' :: (Text.hexDigits 4 n).map .char

/-- The escape of a code point by number, as a pair when it is beyond sixteen bits. -/
def escapeByNumber (c : CodePoint) : List CodePoint :=
  let n := c.number
  if n < 0x10000 then hexEscapeOf n
  else hexEscapeOf (0xd800 + (n - 0x10000) / 1024) ++ hexEscapeOf (0xdc00 + (n - 0x10000) % 1024)

/-- A code point as it stands in a JSON text. -/
def writtenPoint (onlyAscii : Bool) (c : CodePoint) : List CodePoint :=
  if c = '"' || c = '\\' then ['\\', c]
  else if c = '\n' then ['\\', 'n']
  else if c = '\r' then ['\\', 'r']
  else if c = '\t' then ['\\', 't']
  else if c.number = 8 then ['\\', 'b']
  else if c.number = 12 then ['\\', 'f']
  else if c.number < 0x20 then escapeByNumber c
  else if onlyAscii && 0x7e < c.number then escapeByNumber c
  else [c]

/-- A text in double quotes. -/
def writtenText (onlyAscii : Bool) (s : Text) : Text :=
  "\"" ++ ⟨s.points.flatMap (writtenPoint onlyAscii)⟩ ++ "\""

/-- A double as a number. -/
def writtenDouble (layout : Layout) (d : Double) : Except Fault Text :=
  match d with
  | .finite .. => .ok d.text
  | .nan _ => if layout.allowNaN then .ok "NaN" else .error .badValue
  | .infinite negative =>
    if layout.allowNaN then .ok (if negative then "-Infinity" else "Infinity")
    else .error .badValue

/-- The text of a key, if it has one. -/
def keyText? (layout : Layout) (key : Value) : Except Fault (Option Text) :=
  match key with
  | .null => .ok (some "null")
  | .bool b => .ok (some (if b then "true" else "false"))
  | .int n => .ok (some (Text.ofInt n))
  | .double d => (writtenDouble layout d).map some
  | v => .ok v.asText?

/-- A scalar as JSON. -/
def writtenScalar (layout : Layout) (v : Value) : Except Fault Text :=
  match v with
  | .null => .ok "null"
  | .bool b => .ok (if b then "true" else "false")
  | .int n => .ok (Text.ofInt n)
  | .double d => writtenDouble layout d
  | .decimal d => if d.isSignalling then .error .badValue else writtenDouble layout d.toDouble
  | .date d => .ok (writtenText layout.onlyAscii d.text)
  | .time t => .ok (writtenText layout.onlyAscii t.text)
  | .moment m => .ok (writtenText layout.onlyAscii m.isoText)
  | v =>
    match v.asText? with
    | some s => .ok (writtenText layout.onlyAscii s)
    | none => .error .wrongType

/-! ### Lists and maps -/

/-- Puts an entry into entries that are sorted by key, behind those with smaller keys. -/
def insertSorted (key : Value) (a : Text) :
    List (Value × Text) → Except Fault (List (Value × Text))
  | [] => .ok [(key, a)]
  | (k, b) :: rest => do
    if ← Value.relate .lt key k then return (key, a) :: (k, b) :: rest
    else return (k, b) :: (← insertSorted key a rest)

/-- The entries sorted by key. -/
def sorted (entries : List (Value × Text)) : Except Fault (List (Value × Text)) :=
  entries.foldlM (fun known (k, a) => insertSorted k a known) []

/-- The start of a line at a depth of nesting; nothing when all is on one line. -/
def lineStart (layout : Layout) (depth : Nat) : Text :=
  match layout.indent with
  | none => ""
  | some indent => "\n" ++ Text.join "" (List.replicate depth indent)

/-- Parts between brackets, the parts one level deeper than the brackets. -/
def bracketed (layout : Layout) (depth : Nat) (opening closing : Text) (parts : List Text) :
    Text :=
  match parts with
  | [] => opening ++ closing
  | parts =>
    opening ++ lineStart layout (depth + 1) ++
      Text.join (layout.itemSeparator ++ lineStart layout (depth + 1)) parts ++
      lineStart layout depth ++ closing

/-- A map of which the entries are written already. -/
def writtenMap (layout : Layout) (depth : Nat) (entries : List (Value × Text)) :
    Except Fault Text := do
  let entries ← if layout.sortKeys then sorted entries else pure entries
  return bracketed layout depth "\x7b" "\x7d" (entries.map Prod.snd)

mutual

/-- Writes a value that stands at a depth of nesting. -/
def write (layout : Layout) (depth : Nat) : Value → Except Fault Text
  | .list items => do
    return bracketed layout depth "[" "]" (← writeItems layout (depth + 1) items)
  | .map entries => do
    writtenMap layout depth (← writeEntries layout (depth + 1) entries)
  | v => writtenScalar layout v

/-- Writes the items of a list. -/
def writeItems (layout : Layout) (depth : Nat) : List Value → Except Fault (List Text)
  | [] => return []
  | v :: vs => do
    let s ← write layout depth v
    return s :: (← writeItems layout depth vs)

/-- Writes the entries of a map, each beside its key. -/
def writeEntries (layout : Layout) (depth : Nat) :
    List (Value × Value) → Except Fault (List (Value × Text))
  | [] => return []
  | (k, v) :: rest => do
    match ← keyText? layout k with
    | some key =>
      let s ← write layout depth v
      let s := writtenText layout.onlyAscii key ++ layout.keySeparator ++ s
      return (k, s) :: (← writeEntries layout depth rest)
    | none => if layout.skipKeys then writeEntries layout depth rest else throw .wrongType

end

/-- The JSON text of a value. -/
def toText (layout : Layout) (v : Value) : Except Fault Text :=
  write layout 0 v

/-! ### Layouts from keywords -/

/-- The indentation that a value stands for: a text, or a number of spaces. -/
def indentOf (v : Value) : Except Fault (Option Text) :=
  match v with
  | .null => .ok none
  | .bool b => .ok (some (if b then " " else ""))
  | .int n => .ok (some ⟨List.replicate n.toNat ' '⟩)
  | v =>
    match v.asText? with
    | some s => .ok (some s)
    | none => .error .wrongType

/-- The two values that separators are given as. -/
def separatorsOf (v : Value) : Except Fault (Value × Value) :=
  match v.contents? with
  | some [item, key] => .ok (item, key)
  | some _ => .error .badValue
  | none => .error .wrongType

/-- The value of a keyword; a keyword that is not given has none. -/
def keywordValue (name : Text) (keywords : List (Text × Value)) : Value :=
  (keywords.lookup name).getD .null

/-- The keywords that change nothing when they have the right values. -/
def idleKeyword (keyword : Text) (v : Value) : Bool :=
  keyword = "check_circular" || keyword = "cls" && v.isNull

/-- The keywords that change the layout. -/
def layoutKeywords : List Text :=
  ["indent", "separators", "ensure_ascii", "allow_nan", "sort_keys", "skipkeys"]

/-- Keywords for a layout: only known ones, and two separators if there are any. -/
def checkKeywords (keywords : List (Text × Value)) : Except Fault Unit := do
  if !keywords.all fun (k, v) => layoutKeywords.contains k || idleKeyword k v then
    throw .wrongType
  match keywordValue "separators" keywords with
  | .null => return ()
  | v => (separatorsOf v).map fun _ => ()

/-- The separators that keywords ask for. An indentation drops the space after commas unless
separators are given as well. -/
def separatorTexts (keywords : List (Text × Value)) (indented : Bool) :
    Except Fault (Text × Text) := do
  match keywordValue "separators" keywords with
  | .null => return (if indented then "," else ", ", ": ")
  | v =>
    let (item, key) ← separatorsOf v
    match item.asText?, key.asText? with
    | some item, some key => return (item, key)
    | _, _ => throw .wrongType

/-- The value stands on one line without separators. -/
def isPlain : Value → Bool
  | .list items => items.isEmpty
  | .map entries => entries.isEmpty
  | _ => true

/-- The JSON text of a value, laid out as keywords say. What the value has no use for is not looked
at: the whole layout for a text, and the separators for other plain values on lines of their own. -/
def toTextWith (keywords : List (Text × Value)) (v : Value) : Except Fault Text := do
  checkKeywords keywords
  let flag (name : Text) (default : Bool) : Bool :=
    ((keywords.lookup name).map Value.truthy).getD default
  let onlyAscii := flag "ensure_ascii" true
  match v.asText? with
  | some s => return writtenText onlyAscii s
  | none =>
    let indent ← indentOf (keywordValue "indent" keywords)
    let layout : Layout :=
      { indent, onlyAscii, allowNaN := flag "allow_nan" true
        sortKeys := flag "sort_keys" false, skipKeys := flag "skipkeys" false }
    if indent.isSome && isPlain v then toText layout v
    else
      let (itemSeparator, keySeparator) ← separatorTexts keywords indent.isSome
      toText { layout with itemSeparator, keySeparator } v

end RecordFilter.Json
