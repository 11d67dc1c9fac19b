import RecordFilter.Number.Shortest
import RecordFilter.Value

/-!
# Texts of values

Every value has a form in which it is shown inside lists and messages (`Value.display`) and a plain
text (`Value.toText`). The two differ for texts, which are shown in quotes, and for values whose
shown form names their kind. Only a predicate, an operand or an operator may have no plain text.
-/

namespace RecordFilter

/-- How what a field of a node holds is shown. -/
def Member.display : Member → Text
  | type (.data t) => "DataType(" ++ t.name ++ ")"
  | type (.entity _) => "EntityType"
  | thing _ display _ => display

/-- How a list of aliases is shown. -/
def Operator.displayAliases : List Text → Text
  | [] => "()"
  | [a] => "(" ++ Text.quoted a ++ ",)"
  | as => "(" ++ Text.join ", " (as.map Text.quoted) ++ ")"

namespace Value

mutual

/-- How a value is shown inside lists and messages. -/
def display : Value → Text
  | null => "None"
  | bool b => if b then "True" else "False"
  | int n => Text.ofInt n
  | double d => d.text
  | decimal d => "Decimal('" ++ d.text ++ "')"
  | text s => Text.quoted s
  | token t => t.display
  | operator ⟨key, aliases, isFunction⟩ =>
    "Operator(key=" ++ display key ++ ", aliases=" ++ Operator.displayAliases aliases ++
      ", is_function=" ++ (if isFunction then "True" else "False") ++ ")"
  | date d => d.display
  | time t => t.display
  | moment m => m.display
  | guid g => g.display
  | list items => "[" ++ Text.join ", " (displayItems items) ++ "]"
  | map entries => "\x7b" ++ Text.join ", " (displayEntries entries) ++ "\x7d"
  | object fields => "namespace(" ++ Text.join ", " (displayFields fields) ++ ")"
  | member m _ => m.display
  | node _ shown => shown.display

/-- The shown forms of the items of a list. -/
def displayItems : List Value → List Text
  | [] => []
  | v :: vs => display v :: displayItems vs

/-- The shown forms of the entries of a map. -/
def displayEntries : List (Value × Value) → List Text
  | [] => []
  | (k, v) :: rest => (display k ++ ": " ++ display v) :: displayEntries rest

/-- The shown forms of the fields of an object. -/
def displayFields : List (Text × Value) → List Text
  | [] => []
  | (name, v) :: rest => (name ++ "=" ++ display v) :: displayFields rest

end

/-- The plain text of a value. -/
def toText : Value → Except Fault Text
  | text s => .ok s
  | token t => .ok t.text
  | operator o =>
    match o.key.asText? with
    | some s => .ok s
    | none => .error .wrongType
  | decimal d => .ok d.text
  | date d => .ok d.text
  | time t => .ok t.text
  | moment m => .ok m.text
  | guid g => .ok g.text
  | node _ shown => shown.text
  | v => .ok (display v)

@[simp] theorem toText_text (s : Text) : toText (text s) = .ok s := rfl

end Value

/-- How an operator is shown inside lists and messages. -/
def Operator.display (o : Operator) : Text :=
  (Value.operator o).display

end RecordFilter
