import RecordFilter.Predicate.Compile
import RecordFilter.Proofs.DataType.Reading
import RecordFilter.Proofs.Filter.Building

/-!
# Ordinary values

The values of records and of literals are ordinary as a rule: JSON values, and the moments and times
that texts are read as (`Value.IsOrdinary`). Comparing ordinary values never fails, whatever the types
and the policy are (`Comparison.exists_holds`): numbers of JSON can always be tested for equality, a
comparison of order that has no answer does not hold, and every ordinary value has a plain text. Only
decimal numbers are left out, of which some cannot be compared.

The fields of a JSON record are JSON values, and a value that is no map has none
(`Expr.isJson_readPath`).
-/

namespace RecordFilter

/-- JSON values, moments and times of day. -/
inductive Value.IsOrdinary : Value → Prop
  | json {v : Value} : v.IsJson → IsOrdinary v
  | moment (m : Moment) : IsOrdinary (.moment m)
  | time (t : TimeOfDay) : IsOrdinary (.time t)

namespace Value

/-! ### Texts -/

theorem IsOrdinary.exists_toText {v : Value} (h : v.IsOrdinary) : ∃ s, v.toText = .ok s := by
  cases h with
  | json hjson =>
    rcases e : v.toText with fault | s
    · exact absurd e (toText_ne_error v hjson)
    · exact ⟨s, rfl⟩
  | moment m => exact ⟨_, rfl⟩
  | time t => exact ⟨_, rfl⟩

theorem IsOrdinary.exists_pointsOrNone {v : Value} (h : v.IsOrdinary) :
    ∃ cs, v.pointsOrNone = .ok cs := by
  obtain ⟨s, hs⟩ := h.exists_toText
  cases v
  case null => exact ⟨[], rfl⟩
  all_goals exact ⟨s.points, by rw [pointsOrNone, hs, Except.map]; nofun⟩

/-! ### Equality -/

theorem isSignalling_ofDouble (d : Double) : (Decimal.ofDouble d).isSignalling = false := by
  cases d
  case finite negative m e =>
    rw [Decimal.ofDouble]
    split <;> rfl
  all_goals rfl

/-- A number of JSON is no decimal number. -/
theorem IsOrdinary.asNumber? {v : Value} (h : v.IsOrdinary) {n : Number}
    (hn : v.asNumber? = some n) : n.exact.isSignalling = false ∧ n.isDecimal = false := by
  cases v
  case bool | int =>
    cases hn
    exact ⟨rfl, rfl⟩
  case double d =>
    cases hn
    exact ⟨isSignalling_ofDouble d, rfl⟩
  case decimal =>
    cases h with
    | json h => exact h.elim
  all_goals cases hn

theorem exists_equalScalars {a b : Value} (ha : a.IsOrdinary) (hb : b.IsOrdinary) :
    ∃ x, equalScalars a b = .ok x := by
  unfold equalScalars
  split
  · rename_i m n hm hn
    refine ⟨Number.equal m n, ?_⟩
    rw [equalNumbers, Number.equalUndefined, (ha.asNumber? hm).1, (hb.asNumber? hn).1]
    rfl
  · split
    · exact ⟨_, rfl⟩
    · split <;> exact ⟨_, rfl⟩

/-- Ordinary values that are not both lists or both maps are compared as scalars. -/
theorem equal_of_isOrdinary {a b : Value} (ha : a.IsOrdinary)
    (hlist : ∀ xs ys, a = list xs → b = list ys → False)
    (hmap : ∀ xs ys, a = map xs → b = map ys → False) : equal a b = equalScalars a b := by
  refine equal.eq_5 a b hlist hmap ?_ ?_
  · rintro xs ys rfl
    cases ha with
    | json ha => exact ha.elim
  · rintro k as f l bs g rfl
    cases ha with
    | json ha => exact ha.elim

theorem exists_orSame {a b : Value} {equal : Except Fault Bool} (h : ∃ x, equal = .ok x) :
    ∃ x, orSame a b equal = .ok x := by
  rw [orSame]
  split
  · exact ⟨true, rfl⟩
  · exact h

mutual

/-- **JSON values can always be tested for equality.** -/
theorem exists_equal_of_isJson :
    ∀ a : Value, a.IsJson → ∀ b : Value, b.IsJson → ∃ x, equal a b = .ok x
  | .list xs, ha, b, hb => by
    by_cases h : ∃ ys, b = .list ys
    · obtain ⟨ys, rfl⟩ := h
      rw [equal]
      split
      · exact exists_equalItems xs ha ys hb
      · exact ⟨false, rfl⟩
    · rw [equal_of_isOrdinary (.json ha) (fun _ ys _ hy => h ⟨ys, hy⟩) nofun]
      exact exists_equalScalars (.json ha) (.json hb)
  | .map xs, ha, b, hb => by
    by_cases h : ∃ ys, b = .map ys
    · obtain ⟨ys, rfl⟩ := h
      rw [equal]
      split
      · exact exists_equalEntries xs ha ys hb
      · exact ⟨false, rfl⟩
    · rw [equal_of_isOrdinary (.json ha) nofun (fun _ ys _ hy => h ⟨ys, hy⟩)]
      exact exists_equalScalars (.json ha) (.json hb)
  | .null, ha, b, hb | .bool _, ha, b, hb | .int _, ha, b, hb | .double _, ha, b, hb
  | .text _, ha, b, hb => by
    rw [equal_of_isOrdinary (.json ha) nofun nofun]
    exact exists_equalScalars (.json ha) (.json hb)
  | .decimal _, ha, _, _ | .token _, ha, _, _ | .operator _, ha, _, _ | .date _, ha, _, _
  | .time _, ha, _, _ | .moment _, ha, _, _ | .guid _, ha, _, _ | .object _, ha, _, _
  | .member .., ha, _, _ | .node .., ha, _, _ => ha.elim

theorem exists_equalItems : ∀ xs : List Value, JsonItems xs → ∀ ys : List Value, JsonItems ys →
    ∃ x, equalItems xs ys = .ok x
  | [], _, _, _ => ⟨true, by rw [equalItems]; nofun⟩
  | _ :: _, _, [], _ => ⟨true, by rw [equalItems]; nofun⟩
  | x :: xs, hx, y :: ys, hy => by
    obtain ⟨r, hr⟩ := exists_orSame (a := x) (b := y) (exists_equal_of_isJson x hx.1 y hy.1)
    rw [equalItems, hr, ok_bind]
    split
    · exact exists_equalItems xs hx.2 ys hy.2
    · exact ⟨false, rfl⟩

theorem exists_equalEntries : ∀ xs : List (Value × Value), JsonEntries xs →
    ∀ ys : List (Value × Value), JsonEntries ys → ∃ x, equalEntries xs ys = .ok x
  | [], _, _, _ => ⟨true, by rw [equalEntries]⟩
  | (k, x) :: xs, hx, ys, hy => by
    rw [equalEntries]
    split
    · rename_i y hlookup
      have hyjson : y.IsJson := isJson_of_lookup? hy hlookup
      obtain ⟨r, hr⟩ := exists_orSame (a := x) (b := y)
        (exists_equal_of_isJson x hx.1.2.2 y hyjson)
      rw [hr, ok_bind]
      split
      · exact exists_equalEntries xs hx.2 ys hy
      · exact ⟨false, rfl⟩
    · exact ⟨false, rfl⟩

end

theorem IsOrdinary.exists_equal {a b : Value} (ha : a.IsOrdinary) (hb : b.IsOrdinary) :
    ∃ x, equal a b = .ok x := by
  have hscalars : equal a b = equalScalars a b → ∃ x, equal a b = .ok x := by
    intro h
    rw [h]
    exact exists_equalScalars ha hb
  cases ha with
  | json hajson =>
    cases hb with
    | json hbjson => exact exists_equal_of_isJson a hajson b hbjson
    | moment | time => exact hscalars (equal_of_isOrdinary (.json hajson) nofun nofun)
  | moment m => exact hscalars (equal_of_isOrdinary (.moment m) nofun nofun)
  | time t => exact hscalars (equal_of_isOrdinary (.time t) nofun nofun)

/-! ### Order -/

/-- A comparison of order has an answer, or there is no order. -/
def IsOrderOutcome (x : Except Fault Bool) : Prop :=
  (∃ holds, x = .ok holds) ∨ x = .error .wrongType

theorem isOrderOutcome_relateScalars {r : Relation} {a b : Value} (ha : a.IsOrdinary)
    (hb : b.IsOrdinary) : IsOrderOutcome (relateScalars r a b) := by
  have hordered : ∀ order, IsOrderOutcome (relateOrdered r order) := by
    rintro (- | o)
    · exact .inr rfl
    · exact .inl ⟨_, rfl⟩
  unfold relateScalars
  split
  · rename_i m n hm hn
    refine .inl ⟨(Number.order? m n).any r.holds, ?_⟩
    rw [relateNumbers, Number.orderUndefined, (ha.asNumber? hm).2, (hb.asNumber? hn).2]
    rfl
  · split
    · exact .inl ⟨_, rfl⟩
    · split
      · exact .inl ⟨_, rfl⟩
      · exact hordered _
      · exact hordered _
      · exact .inl ⟨_, rfl⟩
      · exact .inr rfl

theorem isOrderOutcome_of_eq {r : Relation} {a b : Value} (ha : a.IsOrdinary) (hb : b.IsOrdinary)
    (h : relate r a b = relateScalars r a b) : IsOrderOutcome (relate r a b) := by
  rw [h]
  exact isOrderOutcome_relateScalars ha hb

mutual

/-- JSON values are ordered, or they have no order. -/
theorem isOrderOutcome_relate_of_isJson (r : Relation) :
    ∀ a : Value, a.IsJson → ∀ b : Value, b.IsJson → IsOrderOutcome (relate r a b)
  | .list xs, ha, b, hb => by
    by_cases h : ∃ ys, b = .list ys
    · obtain ⟨ys, rfl⟩ := h
      rw [relate]
      exact isOrderOutcome_relateItems r xs ha ys hb
    · exact isOrderOutcome_of_eq (.json ha) (.json hb)
        (relate.eq_2 r _ b fun _ ys _ hy => h ⟨ys, hy⟩)
  | .null, ha, b, hb | .bool _, ha, b, hb | .int _, ha, b, hb | .double _, ha, b, hb
  | .text _, ha, b, hb | .map _, ha, b, hb =>
    isOrderOutcome_of_eq (.json ha) (.json hb) (relate.eq_2 r _ b nofun)
  | .decimal _, ha, _, _ | .token _, ha, _, _ | .operator _, ha, _, _ | .date _, ha, _, _
  | .time _, ha, _, _ | .moment _, ha, _, _ | .guid _, ha, _, _ | .object _, ha, _, _
  | .member .., ha, _, _ | .node .., ha, _, _ => ha.elim

theorem isOrderOutcome_relateItems (r : Relation) :
    ∀ xs : List Value, JsonItems xs → ∀ ys : List Value, JsonItems ys →
      IsOrderOutcome (relateItems r xs ys)
  | [], _, [], _ | [], _, _ :: _, _ | _ :: _, _, [], _ => .inl ⟨_, by rw [relateItems]⟩
  | x :: xs, hx, y :: ys, hy => by
    obtain ⟨same, hsame⟩ := exists_orSame (a := x) (b := y)
      (exists_equal_of_isJson x hx.1 y hy.1)
    rw [relateItems, hsame, ok_bind]
    split
    · exact isOrderOutcome_relateItems r xs hx.2 ys hy.2
    · exact isOrderOutcome_relate_of_isJson r x hx.1 y hy.1

end

theorem IsOrdinary.isOrderOutcome_relate {a b : Value} (ha : a.IsOrdinary) (hb : b.IsOrdinary)
    (r : Relation) : IsOrderOutcome (relate r a b) := by
  cases ha with
  | json hajson =>
    cases hb with
    | json hbjson => exact isOrderOutcome_relate_of_isJson r a hajson b hbjson
    | moment m => exact isOrderOutcome_of_eq (.json hajson) (.moment m) (relate.eq_2 r a _ nofun)
    | time t => exact isOrderOutcome_of_eq (.json hajson) (.time t) (relate.eq_2 r a _ nofun)
  | moment m => exact isOrderOutcome_of_eq (.moment m) hb (relate.eq_2 r _ b nofun)
  | time t => exact isOrderOutcome_of_eq (.time t) hb (relate.eq_2 r _ b nofun)

end Value

/-! ### Comparisons -/

namespace DataType

theorem isOrdinary_readMoment {v : Value} (h : v.IsOrdinary) : (readMoment v).IsOrdinary := by
  rcases readMoment_eq_or v with hv | ⟨m, hm⟩
  · rwa [hv]
  · rw [hm]
    exact .moment m

theorem isOrdinary_readTime {v : Value} (h : v.IsOrdinary) : (readTime v).IsOrdinary := by
  rcases readTime_eq_or v with hv | ⟨t, ht⟩
  · rwa [hv]
  · rw [ht]
    exact .time t

theorem isOrdinary_comparableGuid {v : Value} (h : v.IsOrdinary) :
    (comparableGuid v).IsOrdinary := by
  cases v
  case text | token | guid => exact .json trivial
  all_goals exact h

end DataType

/-- The form in which ordinary values are compared is ordinary, but for the one of decimal numbers. -/
theorem TypeRef.isOrdinary_comparable {type : Option TypeRef} {v : Value} (h : v.IsOrdinary)
    (htype : type ≠ some (.data .decimal)) : (comparable type v).IsOrdinary := by
  rcases type with - | ⟨t⟩ | e
  · exact h
  · cases t
    case decimal => exact (htype rfl).elim
    case dateTime | dateTimeOffset => exact DataType.isOrdinary_readMoment h
    case time => exact DataType.isOrdinary_readTime h
    case guid => exact DataType.isOrdinary_comparableGuid h
    all_goals exact h
  · exact h

namespace Comparison

variable {type : Option TypeRef} {policy : TextPolicy} {a b : Value}

theorem exists_equal (ha : a.IsOrdinary) (hb : b.IsOrdinary)
    (htype : type ≠ some (.data .decimal)) : ∃ x, equal type policy a b = .ok x := by
  rw [equal]
  split
  · obtain ⟨cs, hcs⟩ := ha.exists_pointsOrNone
    obtain ⟨ds, hds⟩ := hb.exists_pointsOrNone
    unfold textEqual
    split
    · exact ⟨false, rfl⟩
    · rw [hcs, hds]
      exact ⟨_, rfl⟩
  · exact (TypeRef.isOrdinary_comparable ha htype).exists_equal
      (TypeRef.isOrdinary_comparable hb htype)

theorem exists_ordered (r : Relation) (ha : a.IsOrdinary) (hb : b.IsOrdinary)
    (htype : type ≠ some (.data .decimal)) : ∃ x, ordered type r a b = .ok x := by
  rw [ordered]
  rcases (TypeRef.isOrdinary_comparable ha htype).isOrderOutcome_relate
    (TypeRef.isOrdinary_comparable hb htype) r with ⟨x, hx⟩ | hx
  · exact ⟨x, by rw [hx]⟩
  · exact ⟨false, by rw [hx]⟩

theorem exists_onTexts (test : List CodePoint → List CodePoint → Bool) (ha : a.IsOrdinary)
    (hb : b.IsOrdinary) : ∃ x, onTexts policy test a b = .ok x := by
  obtain ⟨cs, hcs⟩ := ha.exists_pointsOrNone
  obtain ⟨ds, hds⟩ := hb.exists_pointsOrNone
  rw [onTexts, hcs, hds]
  exact ⟨_, rfl⟩

/-- **Comparing ordinary values never fails**, unless they are compared as decimal numbers. -/
theorem exists_holds (k : Comparison) (ha : a.IsOrdinary) (hb : b.IsOrdinary)
    (htype : type ≠ some (.data .decimal)) : ∃ x, k.holds type policy a b = .ok x := by
  cases k with
  | eq => exact exists_equal ha hb htype
  | ne =>
    obtain ⟨x, hx⟩ := @exists_equal type policy a b ha hb htype
    exact ⟨!x, by rw [holds, hx]; rfl⟩
  | order r => exact exists_ordered r ha hb htype
  | startsWith => exact exists_onTexts _ ha hb
  | endsWith => exact exists_onTexts _ ha hb
  | contains => exact exists_onTexts _ ha hb

end Comparison

/-! ### Records -/

/-- A field of a JSON record is a JSON value. -/
theorem Record.isJson_get {record : Value} (h : record.IsJson) (name : Text) :
    (Record.get record name).IsJson := by
  cases record
  case map entries =>
    rw [Record.get]
    rcases e : Value.lookup? (.text name) entries with - | v
    · trivial
    · exact Value.isJson_of_lookup? h e
  case null | bool | int | double | text | list => trivial
  all_goals exact h.elim

theorem Record.isJson_walk (names : List Text) :
    ∀ {record : Value}, record.IsJson → (Record.walk Record.get record names).IsJson := by
  induction names with
  | nil =>
    intro record h
    exact h
  | cons name names ih =>
    intro record h
    unfold Record.walk
    split
    · trivial
    · exact ih (Record.isJson_get h name)

/-- What stands at a path in a JSON record is a JSON value. -/
theorem Expr.isJson_readPath {record : Value} (h : record.IsJson) (path : Text) :
    (Expr.readPath Record.get path record).IsJson := by
  rw [Expr.readPath]
  split
  · exact Record.isJson_get h path
  · exact Record.isJson_walk _ h

/-- A value of JSON that is no map has no fields. -/
theorem Record.get_of_not_map {v : Value} (h : v.IsJson) (hmap : ∀ entries, v ≠ .map entries)
    (name : Text) : Record.get v name = .null := by
  cases v
  case map entries => exact (hmap entries rfl).elim
  case null | bool | int | double | text | list => rfl
  all_goals exact h.elim

end RecordFilter
