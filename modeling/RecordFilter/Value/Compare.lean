import RecordFilter.Value

/-!
# Equality and order of values

Numbers of all kinds are equal when they have one value, and truth values count as zero and one.
Lists are equal item by item and maps key by key; an item is always equal to itself there, even
when it is not a number (`Value.isSame`), which as a number equals nothing. Texts, numbers, dates,
moments, times, identifiers and lists are ordered among their own kind; all other comparisons of
order are `Fault.wrongType`. A comparison of decimal numbers can be undefined, which is a fault as
well.
-/

namespace RecordFilter

/-- A comparison of order. -/
inductive Relation where
  | lt | le | gt | ge
deriving DecidableEq, Repr

/-- The relation holds between two things in this order. -/
def Relation.holds : Relation → Ordering → Bool
  | lt, o => o == .lt
  | le, o => o != .gt
  | gt, o => o == .gt
  | ge, o => o != .lt

namespace Value

/-- Two numbers are equal. -/
def equalNumbers (a b : Number) : Except Fault Bool :=
  if Number.equalUndefined a b then .error .undefinedComparison
  else .ok (Number.equal a b)

/-- Two scalars are equal. -/
def equalScalars (a b : Value) : Except Fault Bool :=
  match a.asNumber?, b.asNumber? with
  | some x, some y => equalNumbers x y
  | _, _ =>
    match a.asText?, b.asText? with
    | some s, some t => .ok (s == t)
    | _, _ =>
      match a, b with
      | null, null => .ok true
      | date d, date e => .ok (d == e)
      | time s, time t => .ok (TimeOfDay.order? s t == some .eq)
      | moment m, moment n => .ok (Moment.order? m n == some .eq)
      | guid g, guid h => .ok (g == h)
      | member m _, member n _ => .ok (m == n)
      | node m _, node n _ => .ok (m.isSame n)
      | _, _ => .ok false

/-- Two values that can be keys of a map are the same key. -/
def sameKey : Value → Value → Bool
  | operator ⟨k, as, f⟩, operator ⟨l, bs, g⟩ => sameKey k l && as == bs && f == g
  | a, b =>
    match equalScalars a b with
    | .ok r => r
    | .error _ => false

/-- What stands under a key in a list of entries. -/
def lookup? {α : Type} (key : Value) : List (Value × α) → Option α
  | [] => none
  | (k, a) :: rest => if sameKey k key then some a else lookup? key rest

/-- Puts an entry into a list of entries; a known key keeps its place and its spelling. -/
def insert {α : Type} (key : Value) (a : α) : List (Value × α) → List (Value × α)
  | [] => [(key, a)]
  | (k, b) :: rest => if sameKey k key then (k, a) :: rest else (k, b) :: insert key a rest

/-- A list of entries without the one under a key. -/
def remove {α : Type} (key : Value) (entries : List (Value × α)) : List (Value × α) :=
  entries.filter fun e => !sameKey e.1 key

/-- Two values that are not numbers are one and the same thing: they have one origin. -/
def isSame (a b : Value) : Bool :=
  match a, b with
  | double (.nan o), double (.nan p) => o == p
  | decimal (.nan _ _ _ o), decimal (.nan _ _ _ p) => o == p
  | _, _ => false

/-- The result of comparing two items: they are equal when they are the same, whatever else they
are. -/
def orSame (a b : Value) (equal : Except Fault Bool) : Except Fault Bool :=
  if isSame a b then .ok true else equal

mutual

/-- Two values are equal. -/
def equal : Value → Value → Except Fault Bool
  | list xs, list ys => if xs.length = ys.length then equalItems xs ys else .ok false
  | map xs, map ys => if xs.length = ys.length then equalEntries xs ys else .ok false
  | object xs, object ys => if xs.length = ys.length then equalFields xs ys else .ok false
  | operator ⟨k, as, f⟩, operator ⟨l, bs, g⟩ => do
    return (← orSame k l (equal k l)) && as == bs && f == g
  | a, b => equalScalars a b

/-- Two lists of one length are equal item by item. -/
def equalItems : List Value → List Value → Except Fault Bool
  | x :: xs, y :: ys => do
    if ← orSame x y (equal x y) then equalItems xs ys else return false
  | _, _ => .ok true

/-- Every entry has an equal one under its key in `ys`. -/
def equalEntries : List (Value × Value) → List (Value × Value) → Except Fault Bool
  | (k, x) :: xs, ys =>
    match lookup? k ys with
    | some y => do
      if ← orSame x y (equal x y) then equalEntries xs ys else return false
    | none => .ok false
  | [], _ => .ok true

/-- Every field has an equal one of its name in `ys`. -/
def equalFields : List (Text × Value) → List (Text × Value) → Except Fault Bool
  | (name, x) :: xs, ys =>
    match ys.lookup name with
    | some y => do
      if ← orSame x y (equal x y) then equalFields xs ys else return false
    | none => .ok false
  | [], _ => .ok true

end

/-- The relation between two numbers. A number that is not a number stands in no relation. -/
def relateNumbers (r : Relation) (a b : Number) : Except Fault Bool :=
  if Number.orderUndefined a b then .error .undefinedComparison
  else .ok ((Number.order? a b).any r.holds)

/-- The relation between two things that may be incomparable. -/
def relateOrdered (r : Relation) (order : Option Ordering) : Except Fault Bool :=
  match order with
  | some o => .ok (r.holds o)
  | none => .error .wrongType

/-- The relation between two scalars. -/
def relateScalars (r : Relation) (a b : Value) : Except Fault Bool :=
  match a.asNumber?, b.asNumber? with
  | some x, some y => relateNumbers r x y
  | _, _ =>
    match a.asText?, b.asText? with
    | some s, some t => .ok (r.holds (Text.order s t))
    | _, _ =>
      match a, b with
      | date d, date e => .ok (r.holds (d.order e))
      | time s, time t => relateOrdered r (TimeOfDay.order? s t)
      | moment m, moment n => relateOrdered r (Moment.order? m n)
      | guid g, guid h => .ok (r.holds (compare g.bits h.bits))
      | _, _ => .error .wrongType

mutual

/-- The relation between two values; lists relate as their first items that differ do. -/
def relate (r : Relation) : Value → Value → Except Fault Bool
  | list xs, list ys => relateItems r xs ys
  | a, b => relateScalars r a b

/-- The relation between two lists of items. -/
def relateItems (r : Relation) : List Value → List Value → Except Fault Bool
  | x :: xs, y :: ys => do
    if ← orSame x y (equal x y) then relateItems r xs ys else relate r x y
  | [], [] => .ok (r.holds .eq)
  | [], _ :: _ => .ok (r.holds .lt)
  | _ :: _, [] => .ok (r.holds .gt)

end

/-- A value can be a key of a map: it is no list, map or object, no number that cannot be compared,
and no operator whose key is one of these. -/
def isKey : Value → Bool
  | list _ | map _ | object _ => false
  | decimal d => !d.isSignalling
  | operator ⟨key, _, _⟩ => isKey key
  | _ => true

end Value

end RecordFilter
