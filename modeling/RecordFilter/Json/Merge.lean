import RecordFilter.Filter

/-!
# Merging conditions

Two maps of conditions are merged into one that holds the entries of both, level by level. Where
both have an entry under one key the two have to be maps themselves, and neither may be an operand
with its type spelled out. Nothing is merged below a negation or a quantifier, since that would move
a condition into its scope. Maps that collide in any other way have no merge.

The first map may also be given as a list of pairs (`entriesOf`).
-/

namespace RecordFilter.Json

/-- The key opens a scope of its own: it is a negation or a quantifier. -/
def isScoped (key : Value) : Bool :=
  (Operator.unary? key).isSome || (Operator.quantified? key).isSome

mutual

/-- The entries of two maps in one, in order, if they can be merged. -/
def merge (first : List (Value × Value)) : List (Value × Value) → Option (List (Value × Value))
  | [] => some first
  | (k, v) :: rest =>
    match Value.lookup? k first with
    | none => merge (Value.insert k v first) rest
    | some known =>
      if isScoped k || Filter.isWrapper known || Filter.isWrapper v then none
      else
        match mergeValues known v with
        | none => none
        | some merged => merge (Value.insert k merged first) rest

/-- Two maps in one. Other values cannot be merged. -/
def mergeValues (known : Value) : Value → Option Value
  | .map entries =>
    match known with
    | .map first => (merge first entries).map Value.map
    | _ => none
  | _ => none

end

/-- Adds the entry that a pair stands for: its first item is the key. -/
def addPair (entries : List (Value × Value)) (pair : Value) :
    Except Fault (List (Value × Value)) :=
  match pair.contents? with
  | some [k, v] => if k.isKey then .ok (Value.insert k v entries) else .error .wrongType
  | some _ => .error .badValue
  | none => .error .wrongType

/-- The entries of a map, or those that the pairs in a list stand for. -/
def entriesOf (v : Value) : Except Fault (List (Value × Value)) :=
  match v with
  | .map entries => .ok entries
  | v =>
    match v.contents? with
    | some pairs => pairs.foldlM addPair []
    | none => .error .wrongType

/-- The merge of two values, of which the second one has to be a map. -/
def mergeMaps (first second : Value) : Except Fault (Option Value) := do
  let xs ← entriesOf first
  match second with
  | .map ys => return (merge xs ys).map Value.map
  | _ => throw .noMember

end RecordFilter.Json
