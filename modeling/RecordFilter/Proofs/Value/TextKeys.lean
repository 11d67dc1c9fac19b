import Mathlib.Data.List.Nodup
import Mathlib.Data.List.Perm.Basic
import Mathlib.Data.Option.Basic
import RecordFilter.Value.Compare
import RecordFilter.Value.Text

/-!
# Maps with texts for keys

In the objects of JSON all keys are texts, and no two of them are the same (`Value.HasTextKeys`). What
stands under a key is then a matter of membership, and two objects that are the same but for the order
of their entries, at any depth, are told apart by no lookup (`Value.Reordered`).
-/

namespace RecordFilter

namespace Value

variable {α : Type}

/-! ### Entries under texts -/

/-- The keys of the entries are texts, and all different. -/
structure TextKeyed (es : List (Value × α)) : Prop where
  nodup : (es.map Prod.fst).Nodup
  text : ∀ k ∈ es.map Prod.fst, ∃ s, k = .text s

theorem sameKey_text (s t : Text) : sameKey (.text s) (.text t) = decide (s = t) := by
  change (s == t) = _
  by_cases h : s = t <;> simp [h]

namespace TextKeyed

variable {es : List (Value × α)} {k : Value} {a b : α} {s t : Text}

theorem nil : TextKeyed ([] : List (Value × α)) :=
  ⟨List.nodup_nil, List.forall_mem_nil _⟩

theorem cons_iff : TextKeyed ((k, a) :: es) ↔
    (∃ s, k = .text s) ∧ k ∉ es.map Prod.fst ∧ TextKeyed es := by
  constructor
  · intro h
    obtain ⟨hk, htext⟩ := List.forall_mem_cons.mp h.text
    obtain ⟨hnew, hnodup⟩ := List.nodup_cons.mp h.nodup
    exact ⟨hk, hnew, hnodup, htext⟩
  · rintro ⟨hk, hnew, h⟩
    exact ⟨List.nodup_cons.mpr ⟨hnew, h.nodup⟩, List.forall_mem_cons.mpr ⟨hk, h.text⟩⟩

theorem of_perm {es' : List (Value × α)} (h : TextKeyed es)
    (hperm : (es.map Prod.fst).Perm (es'.map Prod.fst)) : TextKeyed es' :=
  ⟨hperm.nodup_iff.mp h.nodup, fun k hk => h.text k (hperm.mem_iff.mpr hk)⟩

end TextKeyed

section

variable {es : List (Value × α)} {k : Value} {a b : α} {s t : Text}

theorem lookup?_cons_text :
    lookup? (.text t) ((.text s, a) :: es) = if s = t then some a else lookup? (.text t) es := by
  rw [lookup?, sameKey_text]
  exact if_congr (by simp) rfl rfl

theorem lookup?_eq_none_of_not_mem (h : TextKeyed es) (hs : .text s ∉ es.map Prod.fst) :
    lookup? (.text s) es = none := by
  induction es with
  | nil => rfl
  | cons e es ih =>
    obtain ⟨k, a⟩ := e
    obtain ⟨⟨r, rfl⟩, -, hes⟩ := TextKeyed.cons_iff.mp h
    rw [List.map_cons, List.mem_cons, not_or] at hs
    rw [lookup?_cons_text, if_neg fun hrs => hs.1 (congrArg _ hrs.symm), ih hes hs.2]

/-- What stands under a text. -/
theorem lookup?_eq_some_iff (h : TextKeyed es) : lookup? (.text s) es = some a ↔ (.text s, a) ∈ es := by
  induction es with
  | nil => simp [lookup?]
  | cons e es ih =>
    obtain ⟨k, b⟩ := e
    obtain ⟨⟨r, rfl⟩, hnew, hes⟩ := TextKeyed.cons_iff.mp h
    rw [lookup?_cons_text, List.mem_cons]
    by_cases hrs : r = s
    · subst hrs
      have hnone : (Value.text r, a) ∉ es := fun hmem => hnew (List.mem_map_of_mem hmem)
      simp [hnone, eq_comm]
    · simp [hrs, Ne.symm hrs, ih hes]

theorem lookup?_eq_none_iff_not_mem (h : TextKeyed es) :
    lookup? (.text s) es = none ↔ .text s ∉ es.map Prod.fst := by
  refine ⟨fun hnone hmem => ?_, lookup?_eq_none_of_not_mem h⟩
  obtain ⟨⟨k, a⟩, he, rfl⟩ := List.mem_map.mp hmem
  rw [(lookup?_eq_some_iff h).mpr he] at hnone
  cases hnone

/-- Entries are told apart by their keys, in order, and by what stands under them. -/
theorem eq_of_lookup?_eq {es' : List (Value × α)} (h : TextKeyed es)
    (hkeys : es.map Prod.fst = es'.map Prod.fst)
    (hlookup : ∀ s : Text, lookup? (.text s) es = lookup? (.text s) es') : es = es' := by
  induction es generalizing es' with
  | nil => exact (List.map_eq_nil_iff.mp hkeys.symm).symm
  | cons e es ih =>
    obtain ⟨k, a⟩ := e
    obtain ⟨⟨r, rfl⟩, hnew, hes⟩ := TextKeyed.cons_iff.mp h
    rcases es' with - | ⟨⟨k', b⟩, es'⟩
    · cases hkeys
    · obtain ⟨hkey, hrest⟩ := List.cons_eq_cons.mp hkeys
      obtain rfl : .text r = k' := hkey
      have hes' : TextKeyed es' := hes.of_perm (.of_eq hrest)
      have hhead := hlookup r
      rw [lookup?_cons_text, lookup?_cons_text, if_pos rfl, if_pos rfl] at hhead
      obtain rfl : a = b := Option.some.inj hhead
      rw [ih hes hrest fun s => ?_]
      by_cases hrs : r = s
      · subst hrs
        rw [lookup?_eq_none_of_not_mem hes hnew, lookup?_eq_none_of_not_mem hes' (hrest ▸ hnew)]
      · simpa [lookup?_cons_text, hrs] using hlookup s

end

section

variable {β : Type}

theorem TextKeyed.lookup?_of_mem {es : List (Value × α)} (h : TextKeyed es) {e : Value × α} (he : e ∈ es) :
    Value.lookup? e.1 es = some e.2 := by
  obtain ⟨k, a⟩ := e
  obtain ⟨s, rfl⟩ := h.text k (List.mem_map_of_mem he)
  exact (lookup?_eq_some_iff h).mpr he

theorem TextKeyed.eq_of_toText {es : List (Value × α)} (h : TextKeyed es) {e e' : Value × α} (he : e ∈ es)
    (he' : e' ∈ es) {key : Text} (hkey : e.1.toText = .ok key) (hkey' : e'.1.toText = .ok key) :
    e.1 = e'.1 := by
  obtain ⟨s, hs⟩ := h.text e.1 (List.mem_map_of_mem he)
  obtain ⟨t, ht⟩ := h.text e'.1 (List.mem_map_of_mem he')
  rw [hs, toText_text] at hkey
  rw [ht, toText_text] at hkey'
  cases hkey
  cases hkey'
  exact hs.trans ht.symm

/-- What entries come to one after the other is the same but for the order, if it is so for each key. -/
theorem TextKeyed.perm_flatMap {xs ys : List (Value × α)} (hxs : TextKeyed xs)
    (hkeys : (xs.map Prod.fst).Perm (ys.map Prod.fst)) {f g : Value × α → List β}
    (h : ∀ k a b, (k, a) ∈ xs → (k, b) ∈ ys → (f (k, a)).Perm (g (k, b))) :
    (xs.flatMap f).Perm (ys.flatMap g) := by
  have hys : TextKeyed ys := hxs.of_perm hkeys
  have hbyKey : ∀ {es : List (Value × α)} (f : Value × α → List β), TextKeyed es →
      es.flatMap f = (es.map Prod.fst).flatMap fun k =>
        (Value.lookup? k es).elim [] fun a => f (k, a) := by
    intro es f hes
    rw [List.flatMap_map]
    exact List.flatMap_congr fun e he => by rw [hes.lookup?_of_mem he, Option.elim_some]
  rw [hbyKey f hxs, hbyKey g hys]
  refine hkeys.flatMap fun k hk => ?_
  obtain ⟨⟨_, a⟩, ha, rfl⟩ := List.mem_map.mp hk
  obtain ⟨⟨_, b⟩, hb, rfl⟩ := List.mem_map.mp (hkeys.mem_iff.mp hk)
  rw [hxs.lookup?_of_mem ha, hys.lookup?_of_mem hb]
  exact h _ a b ha hb

end

/-! ### Putting an entry in -/

section

variable {es : List (Value × α)} {a : α} {s t : Text}

theorem lookup?_insert (h : TextKeyed es) :
    lookup? (.text t) (insert (.text s) a es) = if s = t then some a else lookup? (.text t) es := by
  induction es with
  | nil => rw [insert, lookup?_cons_text]
  | cons e es ih =>
    obtain ⟨k, b⟩ := e
    obtain ⟨⟨r, rfl⟩, -, hes⟩ := TextKeyed.cons_iff.mp h
    unfold insert
    rw [sameKey_text]
    by_cases hrs : r = s
    · subst hrs
      rw [if_pos (by simp), lookup?_cons_text, lookup?_cons_text]
      split <;> rfl
    · rw [if_neg (by simpa using hrs), lookup?_cons_text, lookup?_cons_text, ih hes]
      split
      · rename_i hrt
        rw [if_neg fun hst => hrs (hrt.trans hst.symm)]
      · rfl

theorem map_fst_insert (h : TextKeyed es) : (insert (.text s) a es).map Prod.fst =
    es.map Prod.fst ++ if (lookup? (.text s) es).isNone then [.text s] else [] := by
  induction es with
  | nil => rfl
  | cons e es ih =>
    obtain ⟨k, b⟩ := e
    obtain ⟨⟨r, rfl⟩, -, hes⟩ := TextKeyed.cons_iff.mp h
    unfold insert
    rw [sameKey_text, lookup?_cons_text]
    by_cases hrs : r = s
    · simp [hrs]
    · simp [hrs, ih hes]

theorem TextKeyed.insert (h : TextKeyed es) : TextKeyed (Value.insert (.text s) a es) := by
  rcases hlookup : lookup? (.text s) es with - | b
  · have hnew : .text s ∉ es.map Prod.fst := (lookup?_eq_none_iff_not_mem h).mp hlookup
    have hkeys : (Value.insert (.text s) a es).map Prod.fst = es.map Prod.fst ++ [.text s] := by
      rw [map_fst_insert h, hlookup]
      rfl
    refine ⟨?_, ?_⟩
    · rw [hkeys]
      exact List.nodup_append_comm.mpr (List.nodup_cons.mpr ⟨hnew, h.nodup⟩)
    · rw [hkeys]
      exact List.forall_mem_append.mpr ⟨h.text, List.forall_mem_singleton.mpr ⟨s, rfl⟩⟩
  · refine h.of_perm (.of_eq ?_)
    rw [map_fst_insert h, hlookup]
    exact (List.append_nil _).symm

end

/-! ### Objects in objects -/

mutual

/-- The value is no map, or a map under different texts of values that are so as well. -/
def HasTextKeys : Value → Prop
  | .map entries => TextKeyed entries ∧ EntriesHaveTextKeys entries
  | _ => True

/-- All values under keys have texts for keys. -/
def EntriesHaveTextKeys : List (Value × Value) → Prop
  | [] => True
  | (_, v) :: rest => HasTextKeys v ∧ EntriesHaveTextKeys rest

end

variable {v w : Value} {xs ys : List (Value × Value)}

theorem hasTextKeys_map :
    HasTextKeys (.map xs) ↔ TextKeyed xs ∧ ∀ e ∈ xs, e.2.HasTextKeys := by
  have hentries : EntriesHaveTextKeys xs ↔ ∀ e ∈ xs, e.2.HasTextKeys := by
    induction xs with
    | nil => simp [EntriesHaveTextKeys]
    | cons e xs ih => simp [EntriesHaveTextKeys, ih]
  rw [HasTextKeys, hentries]

theorem HasTextKeys.keyed (h : HasTextKeys (.map xs)) : TextKeyed xs :=
  (hasTextKeys_map.mp h).1

theorem HasTextKeys.of_mem (h : HasTextKeys (.map xs)) {k : Value} (he : (k, v) ∈ xs) :
    v.HasTextKeys :=
  (hasTextKeys_map.mp h).2 _ he

theorem HasTextKeys.of_lookup? (h : HasTextKeys (.map xs)) {s : Text}
    (hv : lookup? (.text s) xs = some v) : v.HasTextKeys :=
  h.of_mem ((lookup?_eq_some_iff h.keyed).mp hv)

/-- Two values are the same but for the order in which entries stand in maps, at any depth. -/
inductive Reordered : Value → Value → Prop
  | refl (v : Value) : Reordered v v
  | map {xs ys : List (Value × Value)} : (xs.map Prod.fst).Perm (ys.map Prod.fst) →
      (∀ k v w, (k, v) ∈ xs → (k, w) ∈ ys → Reordered v w) → Reordered (.map xs) (.map ys)

namespace Reordered

/-- The entries of a map may be put into any order. -/
theorem of_perm (hxs : TextKeyed xs) (hperm : xs.Perm ys) : Reordered (.map xs) (.map ys) := by
  refine .map (hperm.map Prod.fst) fun k v w hv hw => ?_
  have hlookup := hxs.lookup?_of_mem hv
  rw [hxs.lookup?_of_mem (hperm.mem_iff.mpr hw)] at hlookup
  cases hlookup
  exact .refl v

theorem eq_text {s : Text} (h : Reordered (.text s) w) : w = .text s := by
  cases h
  rfl

theorem eq_of_isKey (h : Reordered v w) (hv : v.isKey) : v = w := by
  cases h with
  | refl => rfl
  | map => cases hv

theorem exists_map {xs : List (Value × Value)} (h : Reordered (.map xs) w) : ∃ ys, w = .map ys := by
  cases h with
  | refl => exact ⟨xs, rfl⟩
  | map => exact ⟨_, rfl⟩

theorem truthy_eq (h : Reordered v w) : v.truthy = w.truthy := by
  cases h with
  | refl => rfl
  | @map xs ys hperm =>
    have hempty : xs.isEmpty = ys.isEmpty := by
      rw [← List.isEmpty_map (f := Prod.fst), hperm.isEmpty_eq, List.isEmpty_map]
    rw [truthy, truthy, hempty]

variable {xs ys : List (Value × Value)}

/-- Under a key there are values that are the same but for the order, or none. -/
theorem lookup? (h : Reordered (.map xs) (.map ys)) (hxs : TextKeyed xs) (s : Text) :
    Option.Rel Reordered (Value.lookup? (.text s) xs) (Value.lookup? (.text s) ys) := by
  cases h with
  | refl =>
    rcases Value.lookup? (.text s) xs with - | v
    · exact .none
    · exact .some (.refl v)
  | map hperm hvalues =>
    have hys : TextKeyed ys := hxs.of_perm hperm
    rcases hx : Value.lookup? (.text s) xs with - | v
    · have hnew := (lookup?_eq_none_iff_not_mem hxs).mp hx
      rw [(lookup?_eq_none_iff_not_mem hys).mpr fun hmem => hnew (hperm.mem_iff.mpr hmem)]
      exact .none
    · have hv := (lookup?_eq_some_iff hxs).mp hx
      obtain ⟨⟨k, w⟩, hw, hk⟩ := List.mem_map.mp (hperm.mem_iff.mp (List.mem_map_of_mem hv))
      obtain rfl : k = .text s := hk
      rw [(lookup?_eq_some_iff hys).mpr hw]
      exact .some (hvalues _ v w hv hw)

theorem of_mem (h : Reordered (.map xs) (.map ys)) (hxs : TextKeyed xs) {k : Value}
    (hv : (k, v) ∈ xs) (hw : (k, w) ∈ ys) : Reordered v w := by
  cases h with
  | refl =>
    have hlookup := hxs.lookup?_of_mem hv
    rw [hxs.lookup?_of_mem hw] at hlookup
    cases hlookup
    exact .refl v
  | map _ hvalues => exact hvalues k v w hv hw

theorem keys_perm (h : Reordered (.map xs) (.map ys)) : (xs.map Prod.fst).Perm (ys.map Prod.fst) := by
  cases h with
  | refl => exact .refl _
  | map hperm => exact hperm

end Reordered

end Value

end RecordFilter
