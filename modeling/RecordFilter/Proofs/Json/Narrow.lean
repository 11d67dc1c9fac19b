import RecordFilter.Predicate.Canonical
import RecordFilter.Proofs.Json.Merging

/-!
# Crowded maps and long lists

A map that joins more than two conditions is read as a list of conditions that are joined, and such a
list is written as a list. `Value.crowds` counts the maps of a canonical form that join more than two
conditions, and `Value.longLists` counts the lists of more than two items. Neither merging maps
(`Json.longLists_merge`) nor joining conditions (`Predicate.longLists_joined`) makes or loses a long
list, but for the one that joins more than two.
-/

namespace RecordFilter

/-! ### Counting -/

/-- One if there are more than two things, and zero otherwise. -/
def Value.crowd (n : Nat) : Nat :=
  if 2 < n then 1 else 0

mutual

/-- The number of maps in a canonical form that join more than two conditions: maps of conditions, and
maps of operators under a path. Operands are not looked into. -/
def Value.crowds : Value → Nat
  | .list vs => Value.crowdsItems vs
  | .map es => Value.crowd es.length + Value.crowdsEntries es
  | _ => 0

/-- The number of such maps in the items of a list. -/
def Value.crowdsItems : List Value → Nat
  | [] => 0
  | v :: vs => Value.crowds v + Value.crowdsItems vs

/-- The number of such maps in the entries of a map of conditions. -/
def Value.crowdsEntries : List (Value × Value) → Nat
  | [] => 0
  | (k, v) :: rest => Value.crowdsUnder k v + Value.crowdsEntries rest

/-- The number of such maps in what stands under the key of a map of conditions. -/
def Value.crowdsUnder (key : Value) : Value → Nat
  | .list vs => Value.crowdsItems vs
  | .map es =>
    if (Operator.unary? key).isSome then Value.crowd es.length + Value.crowdsEntries es
    else if Filter.isWrapper (.map es) then 0
    else Value.crowd es.length + Value.crowdsOperators es
  | _ => 0

/-- The number of such maps in the entries of a map of operators, which are the bodies of its
quantifiers. -/
def Value.crowdsOperators : List (Value × Value) → Nat
  | [] => 0
  | (op, v) :: rest =>
    (if (Operator.quantified? op).isSome then Value.crowds v else 0) + Value.crowdsOperators rest

end

mutual

/-- The number of lists in a value that have more than two items. -/
def Value.longLists : Value → Nat
  | .list vs => Value.crowd vs.length + Value.longListsItems vs
  | .map es => Value.longListsEntries es
  | _ => 0

/-- The number of such lists in the items of a list. -/
def Value.longListsItems : List Value → Nat
  | [] => 0
  | v :: vs => Value.longLists v + Value.longListsItems vs

/-- The number of such lists in the entries of a map. -/
def Value.longListsEntries : List (Value × Value) → Nat
  | [] => 0
  | (_, v) :: rest => Value.longLists v + Value.longListsEntries rest

end

namespace Value

theorem crowdsItems_eq (vs : List Value) : crowdsItems vs = (vs.map crowds).sum := by
  induction vs with
  | nil => rfl
  | cons v vs ih => rw [crowdsItems, ih, List.map_cons, List.sum_cons]

theorem crowdsEntries_eq (es : List (Value × Value)) :
    crowdsEntries es = (es.map fun e => crowdsUnder e.1 e.2).sum := by
  induction es with
  | nil => rfl
  | cons e es ih => rw [crowdsEntries, ih, List.map_cons, List.sum_cons]

/-- The number of crowded maps in the body of a quantifier, if the operator is one. -/
def crowdsOperator (e : Value × Value) : Nat :=
  if (Operator.quantified? e.1).isSome then e.2.crowds else 0

theorem crowdsOperators_eq (es : List (Value × Value)) :
    crowdsOperators es = (es.map crowdsOperator).sum := by
  induction es with
  | nil => rfl
  | cons e es ih =>
    rw [crowdsOperators, ih, List.map_cons, List.sum_cons]
    rfl

theorem longListsItems_eq (vs : List Value) : longListsItems vs = (vs.map longLists).sum := by
  induction vs with
  | nil => rfl
  | cons v vs ih => rw [longListsItems, ih, List.map_cons, List.sum_cons]

theorem longListsEntries_eq (es : List (Value × Value)) :
    longListsEntries es = (es.map fun e => e.2.longLists).sum := by
  induction es with
  | nil => rfl
  | cons e es ih => rw [longListsEntries, ih, List.map_cons, List.sum_cons]

theorem crowds_map (es : List (Value × Value)) :
    (Value.map es).crowds = crowd es.length + (es.map fun e => crowdsUnder e.1 e.2).sum := by
  rw [crowds, crowdsEntries_eq]

theorem longLists_list (vs : List Value) :
    (Value.list vs).longLists = crowd vs.length + (vs.map longLists).sum := by
  rw [longLists, longListsItems_eq]

theorem longLists_map (es : List (Value × Value)) :
    (Value.map es).longLists = (es.map fun e => e.2.longLists).sum := by
  rw [longLists, longListsEntries_eq]

@[simp] theorem longLists_entry (k v : Value) : (Value.map [(k, v)]).longLists = v.longLists := by
  rw [longLists_map, List.map_singleton, List.sum_singleton]

theorem crowd_eq_zero_iff {n : Nat} : crowd n = 0 ↔ n ≤ 2 := by
  unfold crowd
  split <;> omega

end Value

/-! ### Merging -/

namespace Json

mutual

/-- **A merge has the long lists of both maps.** -/
theorem longLists_merge : ∀ (second : List (Value × Value)) {first merged : List (Value × Value)},
    merge first second = some merged →
      (Value.map merged).longLists = (Value.map first).longLists + (Value.map second).longLists
  | [], first, merged, h => by
    cases h
    simp [Value.longLists_map]
  | (k, v) :: rest, first, merged, h => by
    rcases merge_cons h with ⟨-, h⟩ | ⟨front, k', known, both, back, rfl, -, -, -, -, hboth, h⟩
    · rw [longLists_merge rest h]
      simp only [Value.longLists_map, List.map_append, List.map_cons, List.map_nil, List.sum_append,
        List.sum_cons, List.sum_nil]
      omega
    · rw [longLists_merge rest h]
      simp only [Value.longLists_map, List.map_append, List.map_cons, List.sum_append, List.sum_cons,
        longLists_mergeValues v hboth]
      omega
termination_by structural second => second

theorem longLists_mergeValues : ∀ (v : Value) {known both : Value},
    mergeValues known v = some both → both.longLists = known.longLists + v.longLists
  | .map entries, known, both, h => by
    cases known
    case map first =>
      obtain ⟨zs, hzs, rfl⟩ := Option.map_eq_some_iff.mp h
      exact longLists_merge entries hzs
    all_goals cases h
  | .null, _, _, h | .bool _, _, _, h | .int _, _, _, h | .double _, _, _, h | .decimal _, _, _, h
  | .text _, _, _, h | .token _, _, _, h | .operator _, _, _, h | .date _, _, _, h
  | .time _, _, _, h | .moment _, _, _, h | .guid _, _, _, h | .list _, _, _, h
  | .object _, _, _, h | .member .., _, _, h | .node .., _, _, h => by cases h
termination_by structural v => v

end

/-- No two entries have keys that are the same. -/
def DistinctKeys (es : List (Value × Value)) : Prop :=
  (es.map Prod.fst).Pairwise fun a b => Value.sameKey a b = false

theorem distinctKeys_merge {first second merged : List (Value × Value)}
    (h : merge first second = some merged) (hfirst : DistinctKeys first) : DistinctKeys merged := by
  refine merge_induction (P := DistinctKeys) ?new ?both h hfirst
  case new =>
    intro es k v _ hk hes
    rw [lookup?_eq_none_iff] at hk
    unfold DistinctKeys at hes ⊢
    rw [List.map_append, List.pairwise_append]
    refine ⟨hes, List.pairwise_singleton _ _, ?_⟩
    intro a ha b hb
    obtain ⟨e, he, rfl⟩ := List.mem_map.mp ha
    cases List.mem_singleton.mp hb
    exact hk e he
  case both =>
    -- an entry that is merged keeps its key
    intro front back k' k known v w _ _ _ _ _ _ hes
    unfold DistinctKeys at hes ⊢
    rw [List.map_append, List.map_cons] at hes ⊢
    exact hes

theorem merge_ne_nil {first second merged : List (Value × Value)}
    (h : merge first second = some merged) (hfirst : first ≠ []) : merged ≠ [] :=
  merge_induction (P := (· ≠ [])) (fun _ _ _ => by simp) (fun _ _ _ _ _ _ _ => by simp) h hfirst

/-- Two entries under different keys stand side by side in the merge. -/
theorem merge_of_sameKey_eq_false {k k' v v' : Value} (h : Value.sameKey k k' = false) :
    merge [(k, v)] [(k', v')] = some [(k, v), (k', v')] := by
  simp [merge, Value.lookup?, Value.insert, h]

/-- Two maps under one key are merged under this key. -/
theorem merge_of_sameKey {k : Value} {xs ys zs : List (Value × Value)} (hk : Value.sameKey k k)
    (hfree : isScoped k = false) (hxs : Filter.isWrapper (.map xs) = false)
    (hys : Filter.isWrapper (.map ys) = false) (h : merge xs ys = some zs) :
    merge [(k, .map xs)] [(k, .map ys)] = some [(k, .map zs)] := by
  simp [merge, mergeValues, Value.lookup?, Value.insert, hk, hfree, hxs, hys, h]

end Json

/-! ### Joined conditions -/

/-- The value is a text or a map, as the canonical forms of conditions are. -/
def Value.IsClause : Value → Prop
  | .text _ | .map _ => True
  | _ => False

namespace Predicate

theorem entry_of_isKey {k : Value} (hk : k.isKey) (v : Value) : entry k v = .ok (.map [(k, v)]) :=
  if_pos hk

/-- Clauses that are joined are written as a list under the operator, unless they are merged into one
map. -/
theorem joined_cases {op : Operator} {vs : List Value} (hkey : op.key.isKey)
    (hvs : ∀ v ∈ vs, v.IsClause) :
    joined op vs = .ok (.map [(op.key, .list vs)]) ∨
      ∃ xs ys zs, op.key.isText "and" ∧ vs = [.map xs, .map ys] ∧ Json.merge xs ys = some zs ∧
        joined op vs = .ok (.map zs) := by
  unfold joined
  dsimp only
  rw [entry_of_isKey hkey]
  split
  · rename_i first second
    split
    · rename_i hmaps
      simp only [Bool.and_eq_true, Option.isNone_iff_eq_none] at hmaps
      obtain ⟨⟨hand, hfirst⟩, hsecond⟩ := hmaps
      have hmap : ∀ v ∈ [first, second], v.asText? = none → ∃ es, v = .map es := by
        intro v hv htext
        have hclause := hvs v hv
        cases v
        case map es => exact ⟨es, rfl⟩
        case text s => cases htext
        all_goals exact hclause.elim
      obtain ⟨xs, rfl⟩ := hmap first (by simp) hfirst
      obtain ⟨ys, rfl⟩ := hmap second (by simp) hsecond
      have hmerged : Json.mergeMaps (.map xs) (.map ys) = .ok ((Json.merge xs ys).map .map) := rfl
      rw [hmerged, ok_bind]
      rcases e : Json.merge xs ys with - | zs
      · exact .inl rfl
      · exact .inr ⟨xs, ys, zs, hand, rfl, e, rfl⟩
    · exact .inl rfl
  · exact .inl rfl

/-- Two maps that can be merged are joined by merging them. -/
theorem joined_of_merge {op : Operator} {xs ys zs : List (Value × Value)} (hop : op.key.isText "and")
    (h : Json.merge xs ys = some zs) : joined op [.map xs, .map ys] = .ok (.map zs) := by
  have hmerged : Json.mergeMaps (.map xs) (.map ys) = .ok (some (.map zs)) := by
    show Except.ok ((Json.merge xs ys).map Value.map) = _
    rw [h]
    rfl
  unfold joined
  dsimp only
  rw [if_pos (by simp [hop, Value.asText?]), hmerged]
  rfl

/-- Joined clauses have the long lists of all of them, and the list in which they stand if they are more
than two. -/
theorem longLists_joined {op : Operator} {vs : List Value} {w : Value} (hkey : op.key.isKey)
    (hvs : ∀ v ∈ vs, v.IsClause) (h : joined op vs = .ok w) :
    w.longLists = Value.crowd vs.length + (vs.map Value.longLists).sum := by
  rcases joined_cases hkey hvs with hlist | ⟨xs, ys, zs, -, rfl, hmerge, hmap⟩
  · rw [hlist] at h
    cases h
    rw [Value.longLists_entry, Value.longLists_list]
  · rw [hmap] at h
    cases h
    rw [Json.longLists_merge ys hmerge]
    simp [Value.crowd]

end Predicate

end RecordFilter
