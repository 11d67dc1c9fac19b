import RecordFilter.DataType.Coercion
import RecordFilter.Operand.Check
import RecordFilter.Operand.Linear
import RecordFilter.Value.Compare

/-!
# Reading operands

What an operand means depends on the side it stands on and on the schema. A text on the left is a
property path or a call of a function; on the right it is a literal unless it names a property or
calls a function. A map spells out that its `value` is a literal, with or without a data type, or a
property. All other values are literals.

`Operand.ofText?` reads the linear form of a text. A call whose function is unknown or whose
arguments cannot be read gives no operand, which the caller takes for a literal (right) or a mistake
(left). Groups refer to each other by number, and a text may hold the mark of a group itself, so the
groups may refer to each other in a circle; every chain longer than the number of groups is one.
-/

namespace RecordFilter

/-- A literal with a data type, which is inferred from the value when none is given. -/
def Expr.ofValue (value : Value) (type : Option DataType) (explicit : Bool) :
    Except Fault Expr := do
  let type := type.getD (DataType.infer value)
  return .literal (← type.read value) (some (.data type)) explicit {}

/-- A literal whose data type is given by a value that names it. -/
def Expr.literalOf (value typeName : Value) (explicit : Bool) : Except Fault Expr :=
  match DataType.ofValue typeName with
  | .ok type => Expr.ofValue value type explicit
  | .error e => .error (.construction (.dataType e))

namespace Operand

/-- Where an operand stands: the schema it refers to, whether it is on the right of a comparison,
the data type that a literal there has, and whether it is an argument of a call. -/
structure Place where
  schema : Option EntityId := none
  isRight : Bool := false
  hint : Option DataType := none
  isArgument : Bool := false
deriving DecidableEq, Repr, Inhabited

/-- The place of an argument of a call that stands at a place. -/
def Place.argument (place : Place) : Place :=
  { place with hint := some .undefined, isArgument := true }

/-! ### Single tokens -/

/-- A letter of ASCII, an underscore, or one of the few characters that differ from a letter of
ASCII in case only. -/
def isNameStart (c : CodePoint) : Bool :=
  c.toChar.isAlpha || c == '_' || [0x130, 0x131, 0x17f, 0x212a].contains c.number

/-- A text that can name a property: a name, or names joined by dots. -/
def isName : List CodePoint → Bool
  | [] => false
  | c :: cs => isNameStart c && cs.all fun c => Text.isWord c || c == '.' || c == '$'

/-- A text that is a number: digits of any script with an optional sign, point and exponent. -/
def isNumber (cs : List CodePoint) : Bool :=
  (Numeral.parts? (Numeral.sign (cs.map fun c => Numeral.plainDigit c.toChar)).2).isSome

/-- The number that a text denotes: an integer if it has the form of one, a double otherwise. -/
def numberValue (cs : List CodePoint) : Value :=
  let numeral := cs.map CodePoint.toChar
  match Numeral.int? numeral with
  | some n => .int n
  | none => .double ((Numeral.double? numeral).getD (.nan 0))

/-- What stands between the quotes of a text that begins and ends with the same quote. -/
def quotedInside? : List CodePoint → Option (List CodePoint)
  | [] => none
  | q :: cs => if isQuote q && cs.getLast? == some q then some cs.dropLast else none

/-- The literal or path that a text without calls denotes. A name that the schema does not know is
a path only on the left of a comparison, where it is reported later. -/
def bare (c : Catalog) (place : Place) (cs : List CodePoint) : Except Fault Expr :=
  match quotedInside? cs with
  | some inside => Expr.ofValue (Value.ofPoints inside) (some (place.hint.getD .string)) false
  | none =>
    let path := Expr.path (Value.ofPoints cs) none {}
    let isArgumentNumber := place.isArgument && isNumber cs
    let literal :=
      if isArgumentNumber then Expr.ofValue (numberValue cs) none false
      else Expr.ofValue (Value.ofPoints cs) place.hint false
    match place.schema with
    | none => if isArgumentNumber then literal else .ok path
    | some entity =>
      if c.isSchemaless place.schema then if isArgumentNumber then literal else .ok path
      else if isName cs && ((c.property? entity (Text.mk cs)).isSome ||
          !(place.isRight || place.isArgument)) then .ok path
      else literal

/-! ### Calls -/

/-- The operands that `read` gives, if it gives one for every text. -/
def readAll (read : List CodePoint → Except Fault (Option Expr)) :
    List (List CodePoint) → Except Fault (Option (List Expr))
  | [] => .ok (some [])
  | cs :: rest => do
    match ← read cs with
    | none => return none
    | some e => return (← readAll read rest).map (e :: ·)

/-- The call of the function with a name; an unknown name calls nothing. -/
def callOf? (name : List CodePoint) (args : List Expr) : Option Expr :=
  (Function.ofName? (Text.mk (Text.trimPoints name))).map fun f =>
    .call f args (some (.data f.resultType)) {}

/-- The texts of the arguments in the group with the number that a text denotes. -/
def argumentTexts (l : Linear) (index : List CodePoint) : Except Fault (List (List CodePoint)) := do
  match (Numeral.int? (index.map CodePoint.toChar)).bind l.group? with
  | none => throw .badIndex
  | some group => return arguments ((Text.trimPoints (← unmask l.quoted group)).drop 1).dropLast

/-- Nothing in place of a call that cannot be read. Only a circle of groups is a fault. -/
def orNothing {α : Type} : Except Fault (Option α) → Except Fault (Option α)
  | .error .endlessOperand => .error .endlessOperand
  | .error _ => .ok none
  | .ok r => .ok r

/-- Reads a text in linear form; `fuel` bounds how deep calls are nested. -/
def expression (c : Catalog) (l : Linear) :
    Nat → Place → List CodePoint → Except Fault (Option Expr)
  | fuel, place, cs =>
    match Text.split groupMark cs with
    | name :: index :: _ =>
      match fuel with
      | 0 => .error .endlessOperand
      | fuel + 1 =>
        orNothing do
          let texts ← argumentTexts l index
          let args ← readAll (expression c l fuel place.argument) texts
          return args.bind (callOf? name)
    | _ => do
      let token ← unmask l.quoted cs
      return some (← bare c place (Text.trimPoints token))

/-- Reads an operand text. -/
def ofText? (c : Catalog) (place : Place) (cs : List CodePoint) : Except Fault (Option Expr) :=
  let l := Linear.ofText cs
  expression c l (l.groups.length + 1) place l.source

/-! ### Operands -/

/-- Reads an operand that is a map: a property or a literal. -/
def ofEntries (c : Catalog) (place : Place) (entries : List (Value × Value)) : Except Fault Expr :=
  let field (name : Text) : Value := (Value.lookup? (.text name) entries).getD .null
  match Value.lookup? (.text "value") entries with
  | none =>
    .error (.validation (.noValue (Value.map entries).display
      ((place.schema.map c.nameText).getD Value.null.display)))
  | some value =>
    if (field "isProperty").truthy then Expr.fit c place.schema (.path value none {})
    else if (field "dataType").truthy then Expr.literalOf value (field "dataType") true
    else Expr.ofValue value place.hint true

/-- An operand is a literal that is read as a text, although it is not given as one. -/
def readsText (place : Place) (source : Value) : Bool :=
  match source with
  | .map entries =>
    let field (name : Text) : Value := (Value.lookup? (.text name) entries).getD .null
    if (field "isProperty").truthy then false
    else if (field "dataType").truthy then
      match DataType.ofValue (field "dataType") with
      | .ok type => type == some .string
      | .error _ => false
    else place.hint == some .string
  | _ => place.hint == some .string

/-- Reads an operand and checks it against the schema. Nothing is read from a text on the left that
looks like a call and is none. -/
def read? (c : Catalog) (place : Place) (source : Value) : Except Fault (Option Expr) :=
  match source.asText? with
  | none =>
    match source with
    | .map entries => (ofEntries c place entries).map some
    | v => (Expr.ofValue v place.hint false).map some
  | some s =>
    if place.isRight && c.isSchemaless place.schema then
      (Expr.ofValue source place.hint false).map some
    else do
      match ← ofText? c place s.points with
      | some e => return some (← Expr.fit c place.schema e)
      | none =>
        if place.isRight then return some (← Expr.ofValue source place.hint false)
        else return none

end Operand

end RecordFilter
