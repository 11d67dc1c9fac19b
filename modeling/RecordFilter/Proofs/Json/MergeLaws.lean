import Mathlib.Data.List.Perm.Basic
import Mathlib.Data.Option.Basic
import RecordFilter.Proofs.Json.Merging
import RecordFilter.Proofs.Value.TextKeys

/-!
# Laws of merging

Whether two objects can be merged does not depend on which of them is the first, and their merge only in
the order of its entries. Of three objects it makes no difference which two are merged first, and an
empty object changes nothing: where merging fails it fails either way (`Json.merge_laws`).

A merge is described key by key. It holds what the two objects hold under a key, if that can be united
(`Json.unite`), and its keys are those of the first object followed by the new ones of the second. Every
law is a law of `unite`, which calls on the merge itself for the maps under a common key.
-/

namespace RecordFilter.Json

open Value (lookup? TextKeyed HasTextKeys Reordered)
open Filter (isWrapper)

/-! ### What stands under a key of a merge -/

/-- What stands under a key after `v` is merged into what stands there. -/
def joint (k : Value) : Option Value → Value → Option Value
  | none, v => some v
  | some known, v =>
    if isScoped k || isWrapper known || isWrapper v then none else mergeValues known v

/-- What stands under a key in a merge, given what stands there in both maps. -/
def unite (k : Value) (known : Option Value) : Option Value → Option (Option Value)
  | none => some known
  | some v => (joint k known v).map some

theorem merge_nil (first : List (Value × Value)) : merge first [] = some first := by
  rw [merge]

theorem merge_cons_eq (k v : Value) (first rest : List (Value × Value)) :
    merge first ((k, v) :: rest) =
      (joint k (lookup? k first) v).bind fun both => merge (Value.insert k both first) rest := by
  rw [merge]
  rcases lookup? k first with - | known
  · rfl
  · dsimp only [joint]
    split
    · rfl
    · cases mergeValues known v <;> rfl

@[simp] theorem unite_none_left (k : Value) (v : Option Value) : unite k none v = some v := by
  cases v <;> rfl

@[simp] theorem unite_none_right (k : Value) (known : Option Value) :
    unite k known none = some known := rfl

theorem unite_some (k : Value) (known : Option Value) (v : Value) :
    unite k known (some v) = (joint k known v).map some := rfl

theorem mergeValues_map (xs ys : List (Value × Value)) :
    mergeValues (.map xs) (.map ys) = (merge xs ys).map .map := by
  rw [mergeValues]

/-! ### A merge key by key -/

/-- The map holds what two maps hold together: their keys in order, and under each key what stands there in
either of them or in both. -/
structure IsMerge (first second merged : List (Value × Value)) : Prop where
  keys : merged.map Prod.fst =
    first.map Prod.fst ++ (second.map Prod.fst).filter fun k => (lookup? k first).isNone
  entries : ∀ s : Text, unite (.text s) (lookup? (.text s) first) (lookup? (.text s) second) =
    some (lookup? (.text s) merged)

section

variable {first second merged : List (Value × Value)}

theorem IsMerge.keyed (hfirst : TextKeyed first) (hsecond : TextKeyed second)
    (h : IsMerge first second merged) : TextKeyed merged := by
  constructor
  · rw [h.keys]
    refine hfirst.nodup.append (hsecond.nodup.filter _) fun k hk hk' => ?_
    obtain ⟨s, rfl⟩ := hfirst.text k hk
    have hnone := Option.isNone_iff_eq_none.mp (List.mem_filter.mp hk').2
    exact (Value.lookup?_eq_none_iff_not_mem hfirst).mp hnone hk
  · rw [h.keys]
    exact List.forall_mem_append.mpr ⟨hfirst.text, fun k hk =>
      hsecond.text k (List.mem_filter.mp hk).1⟩

theorem IsMerge.mem_keys_iff (hfirst : TextKeyed first) (hsecond : TextKeyed second)
    (h : IsMerge first second merged) (k : Value) :
    k ∈ merged.map Prod.fst ↔ k ∈ first.map Prod.fst ∨ k ∈ second.map Prod.fst := by
  rw [h.keys, List.mem_append, List.mem_filter]
  constructor
  · exact Or.imp_right And.left
  · rintro (hk | hk)
    · exact .inl hk
    · obtain ⟨s, rfl⟩ := hsecond.text k hk
      by_cases hmem : .text s ∈ first.map Prod.fst
      · exact .inl hmem
      · exact .inr ⟨hk, by rw [(Value.lookup?_eq_none_iff_not_mem hfirst).mpr hmem]; rfl⟩

/-- There is only one such map. -/
theorem IsMerge.eq {other : List (Value × Value)} (hfirst : TextKeyed first)
    (hsecond : TextKeyed second) (h : IsMerge first second merged) (h' : IsMerge first second other) :
    merged = other :=
  Value.eq_of_lookup?_eq (h.keyed hfirst hsecond) (h.keys.trans h'.keys.symm) fun s =>
    Option.some.inj ((h.entries s).symm.trans (h'.entries s))

/-- **What can be united under every key can be merged.** -/
theorem exists_merge (hfirst : TextKeyed first) (hsecond : TextKeyed second)
    (h : ∀ s : Text, (unite (.text s) (lookup? (.text s) first) (lookup? (.text s) second)).isSome) :
    ∃ merged, merge first second = some merged := by
  induction second generalizing first with
  | nil => exact ⟨first, merge_nil first⟩
  | cons e rest ih =>
    obtain ⟨k, v⟩ := e
    obtain ⟨⟨r, rfl⟩, hnew, hrest⟩ := TextKeyed.cons_iff.mp hsecond
    have hhead := h r
    rw [Value.lookup?_cons_text, if_pos rfl, unite_some, Option.isSome_map] at hhead
    obtain ⟨both, hboth⟩ := Option.isSome_iff_exists.mp hhead
    rw [merge_cons_eq, hboth, Option.bind_some]
    refine ih hfirst.insert hrest fun s => ?_
    rw [Value.lookup?_insert hfirst]
    by_cases hrs : r = s
    · subst hrs
      rw [Value.lookup?_eq_none_of_not_mem hrest hnew]
      rfl
    · have hs := h s
      rw [Value.lookup?_cons_text, if_neg hrs] at hs
      rwa [if_neg hrs]

theorem isMerge_of_merge (hfirst : TextKeyed first) (hsecond : TextKeyed second)
    (h : merge first second = some merged) : IsMerge first second merged := by
  induction second generalizing first with
  | nil =>
    rw [merge_nil] at h
    cases h
    exact ⟨(List.append_nil _).symm, fun s => rfl⟩
  | cons e rest ih =>
    obtain ⟨k, v⟩ := e
    obtain ⟨⟨r, rfl⟩, hnew, hrest⟩ := TextKeyed.cons_iff.mp hsecond
    rw [merge_cons_eq] at h
    obtain ⟨both, hboth, h⟩ := Option.bind_eq_some_iff.mp h
    have hmerge := ih hfirst.insert hrest h
    -- the other new keys of the second map are those that were new before
    have hsame : (rest.map Prod.fst).filter
        (fun k => (lookup? k (Value.insert (.text r) both first)).isNone) =
        (rest.map Prod.fst).filter fun k => (lookup? k first).isNone := by
      refine List.filter_congr fun k hk => ?_
      obtain ⟨s, rfl⟩ := hrest.text k hk
      rw [Value.lookup?_insert hfirst, if_neg]
      rintro rfl
      exact hnew hk
    constructor
    · rw [hmerge.keys, Value.map_fst_insert hfirst, hsame, List.map_cons, List.filter_cons,
        List.append_assoc]
      split <;> rfl
    · intro s
      rw [← hmerge.entries s, Value.lookup?_insert hfirst, Value.lookup?_cons_text]
      by_cases hrs : r = s
      · subst hrs
        rw [if_pos rfl, if_pos rfl, Value.lookup?_eq_none_of_not_mem hrest hnew, unite_some, hboth]
        rfl
      · rw [if_neg hrs, if_neg hrs]

/-- **A merge is described key by key.** -/
theorem merge_eq_some_iff (hfirst : TextKeyed first) (hsecond : TextKeyed second) :
    merge first second = some merged ↔ IsMerge first second merged := by
  refine ⟨isMerge_of_merge hfirst hsecond, fun h => ?_⟩
  obtain ⟨other, hother⟩ := exists_merge hfirst hsecond fun s => by rw [h.entries s]; rfl
  rw [hother, (isMerge_of_merge hfirst hsecond hother).eq hfirst hsecond h]

/-- What the entries of two objects can be united to is what their merge holds. -/
theorem exists_isMerge {P : Text → Option Value → Prop} (hfirst : TextKeyed first)
    (hsecond : TextKeyed second) (h : ∀ s : Text, ∃ v,
      unite (.text s) (lookup? (.text s) first) (lookup? (.text s) second) = some v ∧ P s v) :
    ∃ merged, merge first second = some merged ∧ IsMerge first second merged ∧
      ∀ s : Text, P s (lookup? (.text s) merged) := by
  obtain ⟨merged, hmerge⟩ := exists_merge hfirst hsecond fun s => by
    obtain ⟨v, hv, -⟩ := h s
    rw [hv]
    rfl
  have hmerged := isMerge_of_merge hfirst hsecond hmerge
  refine ⟨merged, hmerge, hmerged, fun s => ?_⟩
  obtain ⟨v, hv, hP⟩ := h s
  rw [hmerged.entries s] at hv
  cases hv
  exact hP

end

/-! ### Either object first -/

theorem rel_map {α β γ δ : Type} {R : α → β → Prop} {S : γ → δ → Prop} {f : α → γ} {g : β → δ}
    {x : Option α} {y : Option β} (h : Option.Rel R x y) (hfg : ∀ a b, R a b → S (f a) (g b)) :
    Option.Rel S (x.map f) (y.map g) := by
  cases h with
  | some hab => exact .some (hfg _ _ hab)
  | none => exact .none

theorem isSome_of_rel {α β : Type} {R : α → β → Prop} {x : Option α} {y : Option β}
    (h : Option.Rel R x y) : x.isSome = y.isSome := by
  cases h <;> rfl

/-- Uniting what stands under a key comes to the same the other way round, if merging does. -/
theorem unite_comm {k : Value} {known v : Option Value}
    (h : ∀ a b, known = some a → v = some b →
      Option.Rel Reordered (mergeValues a b) (mergeValues b a)) :
    Option.Rel (Option.Rel Reordered) (unite k known v) (unite k v known) := by
  have hrefl : ∀ x : Option Value, Option.Rel Reordered x x
    | none => .none
    | some a => .some (.refl a)
  rcases known with - | a
  · rw [unite_none_left, unite_none_right]
    exact .some (hrefl v)
  rcases v with - | b
  · rw [unite_none_left, unite_none_right]
    exact .some (hrefl (some a))
  rw [unite_some, unite_some, joint, joint, Bool.or_right_comm]
  split
  · exact .none
  · exact rel_map (h a b rfl rfl) fun _ _ => .some

theorem mergeValues_of_not_map {v w : Value} (h : (∀ xs, v ≠ .map xs) ∨ ∀ ys, w ≠ .map ys) :
    mergeValues v w = none := by
  rw [Option.eq_none_iff_forall_not_mem]
  intro merged hmerged
  obtain ⟨xs, ys, zs, rfl, rfl, -, -⟩ := mergeValues_eq_some hmerged
  rcases h with h | h
  · exact h xs rfl
  · exact h ys rfl

theorem mergeValues_comm {v w : Value}
    (h : ∀ xs ys, v = .map xs → w = .map ys →
      Option.Rel (fun zs zs' => Reordered (.map zs) (.map zs')) (merge xs ys) (merge ys xs)) :
    Option.Rel Reordered (mergeValues v w) (mergeValues w v) := by
  by_cases hmaps : (∃ xs, v = .map xs) ∧ ∃ ys, w = .map ys
  · obtain ⟨⟨xs, rfl⟩, ys, rfl⟩ := hmaps
    rw [mergeValues_map, mergeValues_map]
    exact rel_map (h xs ys rfl rfl) fun _ _ => id
  · have hnot : (∀ xs, v ≠ .map xs) ∨ ∀ ys, w ≠ .map ys :=
      (not_and_or.mp hmaps).imp (fun h xs hxs => h ⟨xs, hxs⟩) fun h ys hys => h ⟨ys, hys⟩
    rw [mergeValues_of_not_map hnot, mergeValues_of_not_map hnot.symm]
    exact .none

theorem sizeOf_lt_of_lookup? {s : Text} {v : Value} {xs : List (Value × Value)} (hxs : TextKeyed xs)
    (h : lookup? (.text s) xs = some v) : sizeOf v < sizeOf xs := by
  have hlt := List.sizeOf_lt_of_mem ((Value.lookup?_eq_some_iff hxs).mp h)
  rw [Prod.mk.sizeOf_spec] at hlt
  omega

/-- **Which object is the first makes no difference but in the order of entries.** -/
theorem merge_comm (xs ys : List (Value × Value)) (hxs : HasTextKeys (.map xs))
    (hys : HasTextKeys (.map ys)) :
    Option.Rel (fun zs zs' => Reordered (.map zs) (.map zs')) (merge xs ys) (merge ys xs) := by
  have hunite : ∀ s : Text, Option.Rel (Option.Rel Reordered)
      (unite (.text s) (lookup? (.text s) xs) (lookup? (.text s) ys))
      (unite (.text s) (lookup? (.text s) ys) (lookup? (.text s) xs)) := by
    intro s
    refine unite_comm fun v w hv hw => mergeValues_comm fun xs' ys' hv' hw' => ?_
    have hsmaller : sizeOf xs' < sizeOf xs := by
      have hlt := sizeOf_lt_of_lookup? hxs.keyed hv
      rw [hv', Value.map.sizeOf_spec] at hlt
      omega
    exact merge_comm xs' ys' (hv' ▸ hxs.of_lookup? hv) (hw' ▸ hys.of_lookup? hw)
  have hsome : ∀ s : Text, (unite (.text s) (lookup? (.text s) xs) (lookup? (.text s) ys)).isSome =
      (unite (.text s) (lookup? (.text s) ys) (lookup? (.text s) xs)).isSome :=
    fun s => isSome_of_rel (hunite s)
  rcases hmerge : merge xs ys with - | zs <;> rcases hmerge' : merge ys xs with - | zs'
  · exact .none
  · have hother := isMerge_of_merge hys.keyed hxs.keyed hmerge'
    obtain ⟨zs, hzs⟩ := exists_merge hxs.keyed hys.keyed fun s => by
      rw [hsome s, hother.entries s]
      rfl
    rw [hmerge] at hzs
    cases hzs
  · have hone := isMerge_of_merge hxs.keyed hys.keyed hmerge
    obtain ⟨zs', hzs'⟩ := exists_merge hys.keyed hxs.keyed fun s => by
      rw [← hsome s, hone.entries s]
      rfl
    rw [hmerge'] at hzs'
    cases hzs'
  · have hone := isMerge_of_merge hxs.keyed hys.keyed hmerge
    have hother := isMerge_of_merge hys.keyed hxs.keyed hmerge'
    have hkeyed := hone.keyed hxs.keyed hys.keyed
    have hkeyed' := hother.keyed hys.keyed hxs.keyed
    refine .some (.map ?_ fun k v w hv hw => ?_)
    · refine (List.perm_ext_iff_of_nodup hkeyed.nodup hkeyed'.nodup).mpr fun k => ?_
      rw [hone.mem_keys_iff hxs.keyed hys.keyed, hother.mem_keys_iff hys.keyed hxs.keyed, or_comm]
    · obtain ⟨s, rfl⟩ := hkeyed.text k (List.mem_map_of_mem hv)
      have hs := hunite s
      rw [hone.entries s, hother.entries s, (Value.lookup?_eq_some_iff hkeyed).mpr hv,
        (Value.lookup?_eq_some_iff hkeyed').mpr hw] at hs
      obtain ⟨⟨hvw⟩⟩ := hs
      exact hvw
termination_by sizeOf xs

/-! ### Three objects -/

theorem joint_eq_some_iff {k known v both : Value} : joint k (some known) v = some both ↔
    (¬ isScoped k ∧ ¬ isWrapper known ∧ ¬ isWrapper v) ∧ mergeValues known v = some both := by
  rw [joint]
  split
  · rename_i h
    simp only [Bool.or_eq_true] at h
    constructor
    · rintro ⟨⟩
    · rintro ⟨⟨hk, hknown, hv⟩, -⟩
      rcases h with (h | h) | h
      · exact absurd h hk
      · exact absurd h hknown
      · exact absurd h hv
  · rename_i h
    simp only [Bool.or_eq_true, not_or] at h
    exact ⟨fun hboth => ⟨⟨h.1.1, h.1.2, h.2⟩, hboth⟩, And.right⟩

theorem not_isWrapper_of_mergeValues {v w both : Value} (hv : ¬ isWrapper v) (hw : ¬ isWrapper w)
    (h : mergeValues v w = some both) : ¬ isWrapper both := by
  obtain ⟨xs, ys, zs, rfl, rfl, rfl, hmerge⟩ := mergeValues_eq_some h
  exact not_isWrapper_merge hv hw hmerge

section

variable {k u v w m : Value}

theorem mergeValues_assoc
    (h : ∀ xs ys zs, u = .map xs → v = .map ys → w = .map zs →
      ((merge xs ys).bind fun xy => merge xy zs) = (merge ys zs).bind fun yz => merge xs yz) :
    ((mergeValues u v).bind fun uv => mergeValues uv w) =
      (mergeValues v w).bind fun vw => mergeValues u vw := by
  apply Option.ext
  intro m
  rw [Option.bind_eq_some_iff, Option.bind_eq_some_iff]
  constructor
  · rintro ⟨uv, huv, hm⟩
    obtain ⟨xs, ys, xy, rfl, rfl, rfl, hxy⟩ := mergeValues_eq_some huv
    obtain ⟨_, zs, r, hmap, rfl, rfl, hr⟩ := mergeValues_eq_some hm
    cases hmap
    have hboth : ((merge xs ys).bind fun xy => merge xy zs) = some r := by
      rw [hxy, Option.bind_some, hr]
    rw [h xs ys zs rfl rfl rfl] at hboth
    obtain ⟨yz, hyz, hr'⟩ := Option.bind_eq_some_iff.mp hboth
    exact ⟨.map yz, by rw [mergeValues_map, hyz]; rfl, by rw [mergeValues_map, hr']; rfl⟩
  · rintro ⟨vw, hvw, hm⟩
    obtain ⟨ys, zs, yz, rfl, rfl, rfl, hyz⟩ := mergeValues_eq_some hvw
    obtain ⟨xs, _, r, rfl, hmap, rfl, hr⟩ := mergeValues_eq_some hm
    cases hmap
    have hboth : ((merge ys zs).bind fun yz => merge xs yz) = some r := by
      rw [hyz, Option.bind_some, hr]
    rw [← h xs ys zs rfl rfl rfl] at hboth
    obtain ⟨xy, hxy, hr'⟩ := Option.bind_eq_some_iff.mp hboth
    exact ⟨.map xy, by rw [mergeValues_map, hxy]; rfl, by rw [mergeValues_map, hr']; rfl⟩

/-- Merging makes no wrapper and hides none, so the same three values are refused either way. -/
theorem joint_assoc
    (h : ((mergeValues u v).bind fun uv => mergeValues uv w) =
      (mergeValues v w).bind fun vw => mergeValues u vw) :
    ((joint k (some u) v).bind fun uv => joint k (some uv) w) =
      (joint k (some v) w).bind fun vw => joint k (some u) vw := by
  apply Option.ext
  intro m
  rw [Option.bind_eq_some_iff, Option.bind_eq_some_iff]
  constructor
  · rintro ⟨uv, huv, hm⟩
    obtain ⟨⟨hk, hu, hv⟩, huv⟩ := joint_eq_some_iff.mp huv
    obtain ⟨⟨-, -, hw⟩, hm⟩ := joint_eq_some_iff.mp hm
    have hboth : ((mergeValues u v).bind fun uv => mergeValues uv w) = some m := by
      rw [huv, Option.bind_some, hm]
    rw [h] at hboth
    obtain ⟨vw, hvw, hm'⟩ := Option.bind_eq_some_iff.mp hboth
    exact ⟨vw, joint_eq_some_iff.mpr ⟨⟨hk, hv, hw⟩, hvw⟩,
      joint_eq_some_iff.mpr ⟨⟨hk, hu, not_isWrapper_of_mergeValues hv hw hvw⟩, hm'⟩⟩
  · rintro ⟨vw, hvw, hm⟩
    obtain ⟨⟨hk, hv, hw⟩, hvw⟩ := joint_eq_some_iff.mp hvw
    obtain ⟨⟨-, hu, -⟩, hm⟩ := joint_eq_some_iff.mp hm
    have hboth : ((mergeValues v w).bind fun vw => mergeValues u vw) = some m := by
      rw [hvw, Option.bind_some, hm]
    rw [← h] at hboth
    obtain ⟨uv, huv, hm'⟩ := Option.bind_eq_some_iff.mp hboth
    exact ⟨uv, joint_eq_some_iff.mpr ⟨⟨hk, hu, hv⟩, huv⟩,
      joint_eq_some_iff.mpr ⟨⟨hk, not_isWrapper_of_mergeValues hu hv huv, hw⟩, hm'⟩⟩

end

/-- What stands under a key of three objects can be united in either way, if maps can be merged so. -/
theorem unite_assoc {k : Value} {x y z : Option Value}
    (h : ∀ u v w, x = some u → y = some v → z = some w →
      ((mergeValues u v).bind fun uv => mergeValues uv w) =
        (mergeValues v w).bind fun vw => mergeValues u vw) :
    ((unite k x y).bind fun xy => unite k xy z) = (unite k y z).bind fun yz => unite k x yz := by
  rcases x with - | u
  · simp
  rcases y with - | v
  · simp
  rcases z with - | w
  · simp
  have hleft : ((unite k (some u) (some v)).bind fun xy => unite k xy (some w)) =
      ((joint k (some u) v).bind fun uv => joint k (some uv) w).map some := by
    rw [unite_some]
    cases joint k (some u) v <;> rfl
  have hright : ((unite k (some v) (some w)).bind fun yz => unite k (some u) yz) =
      ((joint k (some v) w).bind fun vw => joint k (some u) vw).map some := by
    rw [unite_some]
    cases joint k (some v) w <;> rfl
  rw [hleft, hright, joint_assoc (h u v w rfl rfl rfl)]

section

variable {xs ys zs xy yz m : List (Value × Value)}

/-- The keys that are new in the third of three maps. -/
theorem isMerge_keys_assoc (hxs : TextKeyed xs) (hys : TextKeyed ys) (hzs : TextKeyed zs)
    (hxy : IsMerge xs ys xy) (hyz : IsMerge ys zs yz) :
    xy.map Prod.fst ++ (zs.map Prod.fst).filter (fun k => (lookup? k xy).isNone) =
      xs.map Prod.fst ++ (yz.map Prod.fst).filter fun k => (lookup? k xs).isNone := by
  have hnew : ∀ k ∈ zs.map Prod.fst, (lookup? k xy).isNone =
      ((lookup? k xs).isNone && (lookup? k ys).isNone) := by
    intro k hk
    obtain ⟨s, rfl⟩ := hzs.text k hk
    rw [Bool.eq_iff_iff, Bool.and_eq_true, Option.isNone_iff_eq_none, Option.isNone_iff_eq_none,
      Option.isNone_iff_eq_none, Value.lookup?_eq_none_iff_not_mem (hxy.keyed hxs hys),
      Value.lookup?_eq_none_iff_not_mem hxs, Value.lookup?_eq_none_iff_not_mem hys,
      hxy.mem_keys_iff hxs hys, not_or]
  rw [hxy.keys, hyz.keys, List.filter_append, List.filter_filter, List.filter_congr hnew,
    List.append_assoc]

/-- **Which two of three objects are merged first makes no difference.** -/
theorem merge_assoc (xs ys zs : List (Value × Value)) (hxs : HasTextKeys (.map xs))
    (hys : HasTextKeys (.map ys)) (hzs : HasTextKeys (.map zs)) :
    ((merge xs ys).bind fun xy => merge xy zs) = (merge ys zs).bind fun yz => merge xs yz := by
  have hunite : ∀ s : Text,
      ((unite (.text s) (lookup? (.text s) xs) (lookup? (.text s) ys)).bind fun xy =>
        unite (.text s) xy (lookup? (.text s) zs)) =
      (unite (.text s) (lookup? (.text s) ys) (lookup? (.text s) zs)).bind fun yz =>
        unite (.text s) (lookup? (.text s) xs) yz := by
    intro s
    refine unite_assoc fun u v w hu hv hw => mergeValues_assoc fun xs' ys' zs' hu' hv' hw' => ?_
    have hsmaller : sizeOf xs' < sizeOf xs := by
      have hlt := sizeOf_lt_of_lookup? hxs.keyed hu
      rw [hu', Value.map.sizeOf_spec] at hlt
      omega
    exact merge_assoc xs' ys' zs' (hu' ▸ hxs.of_lookup? hu) (hv' ▸ hys.of_lookup? hv)
      (hw' ▸ hzs.of_lookup? hw)
  apply Option.ext
  intro m
  rw [Option.bind_eq_some_iff, Option.bind_eq_some_iff]
  constructor
  · rintro ⟨xy, hxy, hm⟩
    have hxy := isMerge_of_merge hxs.keyed hys.keyed hxy
    have hm := isMerge_of_merge (hxy.keyed hxs.keyed hys.keyed) hzs.keyed hm
    have hyz : ∀ s : Text, ∃ yz, unite (.text s) (lookup? (.text s) ys) (lookup? (.text s) zs) = some yz ∧
        unite (.text s) (lookup? (.text s) xs) yz = some (lookup? (.text s) m) := by
      intro s
      have hs := hunite s
      rw [hxy.entries s, Option.bind_some, hm.entries s] at hs
      exact Option.bind_eq_some_iff.mp hs.symm
    obtain ⟨yz, hmerge, hyz, hentries⟩ := exists_isMerge hys.keyed hzs.keyed hyz
    have hkeys := isMerge_keys_assoc hxs.keyed hys.keyed hzs.keyed hxy hyz
    exact ⟨yz, hmerge, (merge_eq_some_iff hxs.keyed (hyz.keyed hys.keyed hzs.keyed)).mpr
      ⟨hm.keys.trans hkeys, hentries⟩⟩
  · rintro ⟨yz, hyz, hm⟩
    have hyz := isMerge_of_merge hys.keyed hzs.keyed hyz
    have hm := isMerge_of_merge hxs.keyed (hyz.keyed hys.keyed hzs.keyed) hm
    have hxy : ∀ s : Text, ∃ xy, unite (.text s) (lookup? (.text s) xs) (lookup? (.text s) ys) = some xy ∧
        unite (.text s) xy (lookup? (.text s) zs) = some (lookup? (.text s) m) := by
      intro s
      have hs := hunite s
      rw [hyz.entries s, Option.bind_some, hm.entries s] at hs
      exact Option.bind_eq_some_iff.mp hs
    obtain ⟨xy, hmerge, hxy, hentries⟩ := exists_isMerge hxs.keyed hys.keyed hxy
    have hkeys := isMerge_keys_assoc hxs.keyed hys.keyed hzs.keyed hxy hyz
    exact ⟨xy, hmerge, (merge_eq_some_iff (hxy.keyed hxs.keyed hys.keyed) hzs.keyed).mpr
      ⟨hm.keys.trans hkeys.symm, hentries⟩⟩
termination_by sizeOf xs

end

theorem merge_nil_left {ys : List (Value × Value)} (hys : TextKeyed ys) : merge [] ys = some ys := by
  refine (merge_eq_some_iff TextKeyed.nil hys).mpr ⟨?_, fun s => unite_none_left _ _⟩
  exact (List.filter_eq_self.mpr fun _ _ => rfl).symm

/-- **Merging is a partial commutative monoid on objects.** Two objects can be merged in both orders or in
neither, to objects that are the same but for the order of entries at any depth. Three objects can be
merged in both groupings or in neither, to the same object with its entries in the same order. The empty
object is neutral. -/
theorem merge_laws {a b c : List (Value × Value)} (ha : HasTextKeys (.map a))
    (hb : HasTextKeys (.map b)) (hc : HasTextKeys (.map c)) :
    (merge a b = none ↔ merge b a = none) ∧
    (∀ m n, merge a b = some m → merge b a = some n → Reordered (.map m) (.map n)) ∧
    ((merge a b).bind fun ab => merge ab c) = ((merge b c).bind fun bc => merge a bc) ∧
    merge [] a = some a ∧ merge a [] = some a := by
  have hcomm := merge_comm a b ha hb
  refine ⟨?_, fun m n hm hn => ?_, merge_assoc a b c ha hb hc, merge_nil_left ha.keyed, merge_nil a⟩
  · have hsome := isSome_of_rel hcomm
    rw [← Option.not_isSome_iff_eq_none, ← Option.not_isSome_iff_eq_none, hsome]
  · rw [hm, hn] at hcomm
    obtain ⟨hmn⟩ := hcomm
    exact hmn

/-- Three bounds under one path, of which two come with another condition: the entries of a merge stand in
the order of its first object, and so do the bounds in it. -/
theorem merge_laws_of_bounds :
    let low : List (Value × Value) := [(.text "freight", .map [(.text "gt", .int 1)])]
    let high : List (Value × Value) :=
      [(.text "city", .text "Paris"), (.text "freight", .map [(.text "lt", .int 5)])]
    let gap : List (Value × Value) := [(.text "freight", .map [(.text "ne", .int 3)])]
    Reordered
      (.map [(.text "freight", .map [(.text "gt", .int 1), (.text "lt", .int 5)]),
        (.text "city", .text "Paris")])
      (.map [(.text "city", .text "Paris"),
        (.text "freight", .map [(.text "lt", .int 5), (.text "gt", .int 1)])]) ∧
    ((merge low high).bind fun both => merge both gap) =
      (merge high gap).bind fun both => merge low both := by
  have hbound : ∀ key n, HasTextKeys (.map [(.text "freight", .map [(.text key, .int n)])]) := by
    simp [HasTextKeys, Value.EntriesHaveTextKeys, Value.TextKeyed.cons_iff, Value.TextKeyed.nil]
  have hhigh : HasTextKeys (.map [(.text "city", .text "Paris"),
      (.text "freight", .map [(.text "lt", .int 5)])]) := by
    have hne : Value.text "city" ≠ .text "freight" := fun h => absurd (Value.text.inj h) (by decide)
    simp [HasTextKeys, Value.EntriesHaveTextKeys, Value.TextKeyed.cons_iff, Value.TextKeyed.nil, hne]
  obtain ⟨-, hcomm, hassoc, -⟩ := merge_laws (hbound "gt" 1) hhigh (hbound "ne" 3)
  exact ⟨hcomm _ _ rfl rfl, hassoc⟩

end RecordFilter.Json
