import RecordFilter.Operator.Registry
import RecordFilter.Value.Compare

/-!
# Reading filters

Builds predicates from loosely structured input:

* a predicate, which is taken as it is;
* a list of one item, which stands for the item;
* a chain `[path, operator, value]`, or with quantifiers `[path, "any", path, operator, value]`,
  which stands for maps nested in each other, each with one entry;
* a text, which is passed through;
* a map such as `freight ↦ (gt ↦ 100), shipCity ↦ "London"`, whose entries are joined by `and`.

Joining a single predicate gives that predicate, and joining none gives no predicate at all, so the
result of reading may be absent. Every new node gets a label of its own.

A message quotes what it is about. When that is a node its plain text is taken, which leaves traces
at the node (`RecordFilter.Predicate.Check`), so building remembers such nodes.
-/

namespace RecordFilter

/-- What building predicates keeps track of: the next label that is free, and the nodes whose plain
texts were taken, in order. -/
structure Builder where
  next : Label := 0
  told : List Node := []

/-- Steps of building predicates. What was kept track of survives a fault. -/
abbrev Build := ExceptT Fault (StateM Builder)

namespace Build

/-- A label that no other node has. -/
def fresh : Build Label :=
  modifyGet fun b => (b.next, { b with next := b.next + 1 })

/-- The plain text of a value. -/
def textOf (v : Value) : Build Text := do
  match v with
  | .node n _ => modify fun b => { b with told := b.told ++ [n] }
  | _ => pure ()
  liftM v.toText

/-- Stops with a construction error. -/
def fail {α : Type} (e : ConstructionError) : Build α :=
  throw (.construction e)

end Build

namespace Filter

open Build (fresh fail textOf)

/-- A text that is passed through. -/
def passthrough (text : Value) : Build Predicate := do
  return .passthrough (← fresh) text

/-- The negation of an operand. -/
def negate (op : Operator) (operand : Option Predicate) : Build Predicate := do
  return .unary (← fresh) op operand

/-- Predicates under an operator that joins them. -/
def joined (op : Operator) (ps : List (Option Predicate)) : Build Predicate := do
  return .logical (← fresh) op ps

/-- Predicates joined by an operator: one predicate is itself, and none is no predicate. -/
def join (op : Operator) : List (Option Predicate) → Build (Option Predicate)
  | [] => return none
  | [p] => return p
  | ps => return some (← joined op ps)

/-- A comparison of two operands. -/
def compare (op : Operator) (left right : Value) : Build Predicate := do
  return .comparison (← fresh) op left right

/-- A test of a predicate over a collection. -/
def quantify (op : Operator) (collection : Value) (body : Option Predicate) : Build Predicate := do
  return .quantified (← fresh) op collection body

/-- The operator of a kind in the standard registry. -/
def resolve (kind : Text) (token : Value) : Build Operator := do
  return (← liftM (Registry.standard.resolve kind token)).toOperator

/-- The predicates read from several entries, joined by `and`; absent ones are dropped. -/
def joinEntries (ps : List (Option Predicate)) : Build (Option Predicate) :=
  match ps with
  | [p] => return p
  | ps => do join (← resolve "logical" (.text "and")) (ps.filter Option.isSome)

/-- A map with an entry for `value`, which is an operand with its type or kind spelled out. -/
def isWrapper : Value → Bool
  | .map entries => (Value.lookup? (.text "value") entries).isSome
  | _ => false

/-- The value that a chain of keys with a value at its end stands for: maps of one entry, nested in
each other. -/
def foldChain : List Value → Value
  | [] => .null
  | [v] => v
  | k :: rest => .map [(k, foldChain rest)]

/-- An entry under a path whose key is no known operator. -/
def unknownEntry (key op operand : Value) : Build Predicate := do
  let phrase ← textOf key
  let op ← textOf op
  fail (.noPredicateForOperator phrase op (← textOf operand))

/-- A path with an operand that is no predicate and no comparison. -/
def unknownOperand (key : Value) : Build (Option Predicate) := do
  fail (.noPredicateAfter (← textOf key))

/-- The comparison that an entry `op ↦ operand` under a path makes, if its key is no quantifier. -/
def comparisonEntry (key op operand : Value) : Build Predicate := do
  if (Operator.comparison? op).isSome then compare (← resolve "comparison" op) key operand
  else if isWrapper operand then compare (← resolve "comparison" (.text "eq")) key operand
  else unknownEntry key op operand

/-- A test of equality. -/
def equalTo (key operand : Value) : Build (Option Predicate) := do
  return some (← compare (← resolve "comparison" (.text "eq")) key operand)

/-- The items of a chain can be read: there are an odd number of them, at least three, and all but
the last can be keys of a map. -/
def checkChain (items : List Value) : Build Unit :=
  if items.length < 3 || items.length % 2 = 0 then
    fail (.wrongLength (Value.list items).display)
  else if items.dropLast.all Value.isKey then return ()
  else throw .wrongType

/-- Reads a filter that is neither a list nor a map. -/
def readScalar : Value → Build (Option Predicate)
  | .node (.predicate p) _ => return some p
  | .text s => do return some (← passthrough (.text s))
  | .token t => do return some (← passthrough (.token t))
  | v => fail (.notAPredicate v.display)

/-- Reads the entry of a map whose value is neither a list nor a map: the only operand of a joining
operator or of a negation, or what a path has to be equal to. -/
def readScalarEntry (key v : Value) : Build (Option Predicate) := do
  if (Operator.logical? key).isSome then
    let op ← resolve "logical" key
    match v with
    | .null => join op []
    | v => join op [← readScalar v]
  else if (Operator.unary? key).isSome then
    let op ← resolve "unary" key
    return some (← negate op (← readScalar v))
  else
    match v with
    | .node (.predicate _) _ => unknownOperand key
    | v => equalTo key v

mutual

/-- Reads a filter. -/
def read : Value → Build (Option Predicate)
  | .list items => readItems items
  | .map entries => do joinEntries (← readEntries entries)
  | v => readScalar v

/-- Reads a list: its only item, or a chain. -/
def readItems : List Value → Build (Option Predicate)
  | [v] => read v
  | [] => do
    checkChain []
    return none
  | k :: rest => do
    checkChain (k :: rest)
    readChain k rest

/-- Reads filters one after the other, leaving out absent values. -/
def readAll : List Value → Build (List (Option Predicate))
  | [] => return []
  | .null :: vs => readAll vs
  | v :: vs => do
    let p ← read v
    return p :: (← readAll vs)

/-- Reads the entries of a map. -/
def readEntries : List (Value × Value) → Build (List (Option Predicate))
  | [] => return []
  | (k, v) :: rest => do
    let p ← readEntry k v
    return p :: (← readEntries rest)

/-- Reads an entry of a map: operands of a joining operator, the operand of a negation, or
conditions on a path. A list of operands may be put into a list of its own. -/
def readEntry (key : Value) : Value → Build (Option Predicate)
  | .list [.list items] => do
    if (Operator.logical? key).isSome then
      let op ← resolve "logical" key
      join op (← readAll items)
    else if (Operator.unary? key).isSome then
      let op ← resolve "unary" key
      return some (← negate op (← readItems items))
    else unknownOperand key
  | .list items => do
    if (Operator.logical? key).isSome then
      let op ← resolve "logical" key
      join op (← readAll items)
    else if (Operator.unary? key).isSome then
      let op ← resolve "unary" key
      return some (← negate op (← readItems items))
    else unknownOperand key
  | .map entries => do
    if (Operator.logical? key).isSome then
      let op ← resolve "logical" key
      join op [← joinEntries (← readEntries entries)]
    else if (Operator.unary? key).isSome then
      let op ← resolve "unary" key
      return some (← negate op (← joinEntries (← readEntries entries)))
    else if isWrapper (.map entries) then equalTo key (.map entries)
    else joinEntries ((← readOperators key entries).map some)
  | v => readScalarEntry key v

/-- Reads the entries of a map of operators under a path. -/
def readOperators (key : Value) : List (Value × Value) → Build (List Predicate)
  | [] => return []
  | (op, operand) :: rest => do
    let p ←
      if (Operator.quantified? op).isSome then do
        let quantifier ← resolve "quantified" op
        quantify quantifier key (← read operand)
      else comparisonEntry key op operand
    return p :: (← readOperators key rest)

/-- Reads the entry with key `key` and the map that a chain stands for, or the value alone that the
chain ends with. -/
def readChain (key : Value) : List Value → Build (Option Predicate)
  | [] => return none
  | [v] => readEntry key v
  | k :: v :: rest => do
    if (Operator.logical? key).isSome then readChain k (v :: rest)
    else if (Operator.unary? key).isSome then
      let op ← resolve "unary" key
      return some (← negate op (← readChain k (v :: rest)))
    else if Value.sameKey k (.text "value") then equalTo key (foldChain (k :: v :: rest))
    else if (Operator.quantified? k).isSome then
      let quantifier ← resolve "quantified" k
      match rest with
      | [] => return some (← quantify quantifier key (← read v))
      | w :: more => return some (← quantify quantifier key (← readChain v (w :: more)))
    else return some (← comparisonEntry key k (foldChain (v :: rest)))

end

/-- Reads a chain. -/
def readTuple : List Value → Build (Option Predicate)
  | [] => do
    checkChain []
    return none
  | k :: rest => do
    checkChain (k :: rest)
    readChain k rest

/-- Reads filters given one by one: a single filter, or the items of a chain. -/
def readArguments : List Value → Build (Option Predicate)
  | [] => fail .noInput
  | [v] => read v
  | vs => readTuple vs

/-- Joins the operands of an operator that has to be a joining one. -/
def makeLogical (op operands : Value) : Build (Option Predicate) := do
  let _ ← resolve "logical" op
  readEntry op operands

/-- Negates a filter by an operator that has to be a negation. -/
def makeUnary (op operand : Value) : Build Predicate := do
  let op ← resolve "unary" op
  negate op (← read operand)

/-- Compares two operands by an operator that has to be a comparison. -/
def makeComparison (op left right : Value) : Build Predicate := do
  compare (← resolve "comparison" op) left right

/-- Tests a filter over a collection by an operator that has to be a quantifier. -/
def makeQuantified (op collection body : Value) : Build Predicate := do
  let op ← resolve "quantified" op
  quantify op collection (← read body)

/-- A value names the operator of a chain. -/
def isChainOperator (v : Value) : Bool :=
  (Operator.comparison? v).isSome || (Operator.quantified? v).isSome

/-- The filters that are joined to a predicate: given one by one, as one list of them, or as the
items of a single chain. -/
def readOthers (others : List Value) : Build (List (Option Predicate)) := do
  let others :=
    match others with
    | [.list items] => items
    | _ => others
  match others with
  | path :: op :: _ :: _ =>
    if path.asText?.isSome && !Registry.canFind op then throw .wrongType
    else if path.asText?.isSome && isChainOperator op then
      match ← readTuple others with
      | some p => return [some p]
      | none => return []
    else readAll others
  | _ => readAll others

/-- Joins a predicate and others by a joining operator. -/
def combine (op : Value) (first : Predicate) (others : List Value) : Build (Option Predicate) := do
  let op ← resolve "logical" op
  join op (some first :: (← readOthers others))

end Filter

end RecordFilter
