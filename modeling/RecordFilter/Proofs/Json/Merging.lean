import Mathlib.Algebra.BigOperators.Group.List.Basic
import Mathlib.Tactic.Abel
import RecordFilter.Json.Merge
import RecordFilter.Proofs.Filter.Shape

/-!
# Merged maps say the same

Two maps of conditions that are merged say together what they say apart. What a condition says is
taken as a weight: a value in a commutative monoid that adds up where conditions are joined by `and`
(`Json.Weighing`). Merging changes the order of conditions and joins those under one path, so it keeps
the sum of the weights (`Json.weighs_merge`).

The merge works level by level, and so does the proof. `Weighs` speaks of a list of entries and of
the condition that each entry makes, whichever level it stands at; `Weighs.merge` is the step that
all levels share, given that two entries under one key may be replaced by their merge.
-/

namespace RecordFilter.Json

open Filter (shape shapeEntries shapeEntry shapeOperators comparisonShape operatorOf conjunction
  joinShapes isWrapper)

variable {M : Type} [AddCommMonoid M]

/-! ### Weights of entries -/

/-- The entries make conditions whose weights add up to `a`. -/
def Weighs (w : Condition → M) (g : Value × Value → Except Fault Condition)
    (es : List (Value × Value)) (a : M) : Prop :=
  ∃ ts, es.mapM g = .ok ts ∧ a = (ts.map w).sum

namespace Weighs

variable {w : Condition → M} {g : Value × Value → Except Fault Condition} {e : Value × Value}
  {es es' : List (Value × Value)} {a b : M} {t : Condition}

theorem nil : Weighs w g [] 0 :=
  ⟨[], rfl, by simp⟩

theorem cons (ht : g e = .ok t) (h : Weighs w g es a) : Weighs w g (e :: es) (w t + a) := by
  obtain ⟨ts, hts, rfl⟩ := h
  refine ⟨t :: ts, ?_, by simp⟩
  rw [List.mapM_cons, ht, hts]
  rfl

theorem cons_iff :
    Weighs w g (e :: es) a ↔ ∃ t b, g e = .ok t ∧ Weighs w g es b ∧ a = w t + b := by
  constructor
  · rintro ⟨ts, hts, rfl⟩
    rw [List.mapM_cons] at hts
    obtain ⟨t, ht, hts⟩ := bind_eq_ok_iff.mp hts
    obtain ⟨us, hus, hts⟩ := bind_eq_ok_iff.mp hts
    cases hts
    exact ⟨t, _, ht, ⟨us, hus, rfl⟩, by simp⟩
  · rintro ⟨t, b, ht, h, rfl⟩
    exact cons ht h

theorem append_iff : Weighs w g (es ++ es') a ↔
    ∃ b c, Weighs w g es b ∧ Weighs w g es' c ∧ a = b + c := by
  induction es generalizing a with
  | nil =>
    constructor
    · intro h
      exact ⟨0, a, nil, h, (zero_add a).symm⟩
    · rintro ⟨b, c, ⟨ts, hts, rfl⟩, hc, rfl⟩
      cases hts
      simpa using hc
  | cons e es ih =>
    rw [List.cons_append, cons_iff]
    constructor
    · rintro ⟨t, b, ht, h, rfl⟩
      obtain ⟨b₁, c, hb₁, hc, rfl⟩ := ih.mp h
      exact ⟨_, c, cons ht hb₁, hc, (add_assoc _ _ _).symm⟩
    · rintro ⟨b, c, hb, hc, rfl⟩
      obtain ⟨t, b₁, ht, hb₁, rfl⟩ := cons_iff.mp hb
      exact ⟨t, _, ht, ih.mpr ⟨b₁, c, hb₁, hc, rfl⟩, add_assoc _ _ _⟩

end Weighs

/-! ### Putting entries into lists of entries -/

theorem insert_of_lookup?_none {k v : Value} :
    ∀ {es : List (Value × Value)}, Value.lookup? k es = none → Value.insert k v es = es ++ [(k, v)]
  | [], _ => rfl
  | (k', v') :: rest, h => by
    unfold Value.lookup? at h
    split at h
    · cases h
    · rename_i hk
      unfold Value.insert
      rw [if_neg hk, insert_of_lookup?_none h]
      rfl

/-- A known key keeps its place and its spelling. -/
theorem insert_of_lookup?_some {k known : Value} :
    ∀ {es : List (Value × Value)}, Value.lookup? k es = some known →
      ∃ front k' back, es = front ++ (k', known) :: back ∧ Value.sameKey k' k ∧
        ∀ v, Value.insert k v es = front ++ (k', v) :: back
  | [], h => by cases h
  | (k', v') :: rest, h => by
    unfold Value.lookup? at h
    split at h
    · rename_i hk
      cases h
      refine ⟨[], k', rest, rfl, hk, fun v => ?_⟩
      unfold Value.insert
      rw [if_pos hk]
      rfl
    · rename_i hk
      obtain ⟨front, k'', back, rfl, hk'', hinsert⟩ := insert_of_lookup?_some h
      refine ⟨(k', v') :: front, k'', back, rfl, hk'', fun v => ?_⟩
      show Value.insert k v ((k', v') :: (front ++ (k'', known) :: back)) = _
      unfold Value.insert
      rw [if_neg hk, hinsert v]
      rfl

/-- **A step of a merge.** An entry is put at the end, or it is merged into the entry under its key,
which keeps its place. -/
theorem merge_cons {k v : Value} {first rest merged : List (Value × Value)}
    (h : merge first ((k, v) :: rest) = some merged) :
    (Value.lookup? k first = none ∧ merge (first ++ [(k, v)]) rest = some merged) ∨
      ∃ front k' known both back, first = front ++ (k', known) :: back ∧ Value.sameKey k' k ∧
        ¬ isScoped k ∧ ¬ isWrapper known ∧ ¬ isWrapper v ∧ mergeValues known v = some both ∧
          merge (front ++ (k', both) :: back) rest = some merged := by
  unfold merge at h
  split at h
  · rename_i hlookup
    rw [insert_of_lookup?_none hlookup] at h
    exact .inl ⟨hlookup, h⟩
  · rename_i known hlookup
    split at h
    · cases h
    · rename_i hfree
      split at h
      · cases h
      · rename_i both hboth
        obtain ⟨front, k', back, rfl, hk', hinsert⟩ := insert_of_lookup?_some hlookup
        rw [hinsert both] at h
        simp only [Bool.or_eq_true, not_or] at hfree
        exact .inr ⟨front, k', known, both, back, rfl, hk', hfree.1.1, hfree.1.2, hfree.2, hboth, h⟩

/-- Induction over a merge: what holds of the first map, and is kept when an entry of the second one is put
at the end or merged into the entry under its key, holds of the merged map. -/
theorem merge_induction {P : List (Value × Value) → Prop} {second : List (Value × Value)}
    (new : ∀ {es : List (Value × Value)} {k v : Value}, (k, v) ∈ second → Value.lookup? k es = none →
      P es → P (es ++ [(k, v)]))
    (both : ∀ {front back : List (Value × Value)} {k' k known v w : Value}, (k, v) ∈ second →
      Value.sameKey k' k → ¬ isScoped k → ¬ isWrapper known → ¬ isWrapper v →
        mergeValues known v = some w → P (front ++ (k', known) :: back) →
          P (front ++ (k', w) :: back))
    {first merged : List (Value × Value)} (h : merge first second = some merged)
    (hfirst : P first) : P merged := by
  induction second generalizing first with
  | nil =>
    cases h
    exact hfirst
  | cons e rest ih =>
    obtain ⟨k, v⟩ := e
    have hrest : ∀ {es : List (Value × Value)}, merge es rest = some merged → P es → P merged :=
      ih (fun hmem => new (List.mem_cons_of_mem _ hmem))
        fun hmem => both (List.mem_cons_of_mem _ hmem)
    rcases merge_cons h with ⟨hnone, h⟩ |
        ⟨front, k', known, w, back, rfl, hk', hfree, hknown, hv, hw, h⟩
    · exact hrest h (new List.mem_cons_self hnone hfirst)
    · exact hrest h (both List.mem_cons_self hk' hfree hknown hv hw hfirst)

/-- What holds of the entries of two maps, and of two entries that are merged, holds of the entries of
their merge. -/
theorem merge_forall {P : Value × Value → Prop}
    (hP : ∀ {k' k known v both : Value}, Value.sameKey k' k → ¬ isScoped k → ¬ isWrapper known →
      ¬ isWrapper v → mergeValues known v = some both → P (k', known) → P (k, v) → P (k', both))
    {first second merged : List (Value × Value)} (h : merge first second = some merged)
    (hfirst : ∀ e ∈ first, P e) (hsecond : ∀ e ∈ second, P e) : ∀ e ∈ merged, P e := by
  refine merge_induction (P := fun es => ∀ e ∈ es, P e) ?new ?both h hfirst
  case new =>
    intro es k v hmem _ hes
    exact List.forall_mem_append.mpr ⟨hes, List.forall_mem_singleton.mpr (hsecond _ hmem)⟩
  case both =>
    intro front back k' k known v w hmem hk' hfree hknown hv hw hes
    obtain ⟨hfront, htail⟩ := List.forall_mem_append.mp hes
    obtain ⟨hentry, hback⟩ := List.forall_mem_cons.mp htail
    exact List.forall_mem_append.mpr ⟨hfront,
      List.forall_mem_cons.mpr ⟨hP hk' hfree hknown hv hw hentry (hsecond _ hmem), hback⟩⟩

theorem lookup?_eq_none_iff {key : Value} {es : List (Value × Value)} :
    Value.lookup? key es = none ↔ ∀ e ∈ es, Value.sameKey e.1 key = false := by
  induction es with
  | nil => simp [Value.lookup?]
  | cons e rest ih =>
    obtain ⟨k, v⟩ := e
    rcases hk : Value.sameKey k key <;> simp [Value.lookup?, hk, ih]

/-! ### One level of a merge -/

section

variable {w : Condition → M} {g : Value × Value → Except Fault Condition}

/-- Two entries under one key can be replaced by their merge. -/
def Replaces (w : Condition → M) (g : Value × Value → Except Fault Condition) (k v : Value) :
    Prop :=
  ∀ {k' known merged : Value} {t u : Condition}, Value.sameKey k' k → ¬ isScoped k →
    ¬ isWrapper known → ¬ isWrapper v → mergeValues known v = some merged →
    g (k', known) = .ok t → g (k, v) = .ok u →
      ∃ s, g (k', merged) = .ok s ∧ w s = w t + w u

/-- **Merged entries weigh as much as both lists of entries**, if that holds of any two entries under
one key. -/
theorem Weighs.merge {second : List (Value × Value)} (hreplace : ∀ e ∈ second, Replaces w g e.1 e.2)
    {first merged : List (Value × Value)} {a b : M} (hmerge : merge first second = some merged)
    (ha : Weighs w g first a) (hb : Weighs w g second b) : Weighs w g merged (a + b) := by
  induction second generalizing first a b with
  | nil =>
    cases hmerge
    obtain ⟨ts, hts, rfl⟩ := hb
    cases hts
    simpa using ha
  | cons e rest ih =>
    obtain ⟨k, v⟩ := e
    obtain ⟨u, c, hu, hc, rfl⟩ := Weighs.cons_iff.mp hb
    have hrest : ∀ e ∈ rest, Replaces w g e.1 e.2 :=
      fun e he => hreplace e (List.mem_cons_of_mem _ he)
    rcases merge_cons hmerge with ⟨-, hmerge⟩ |
        ⟨front, k', known, both, back, rfl, hk', hfree, hknown, hv, hboth, hmerge⟩
    · have hfirst : Weighs w g (first ++ [(k, v)]) (a + w u) := by
        refine Weighs.append_iff.mpr ⟨a, w u, ha, ?_, rfl⟩
        simpa using Weighs.cons hu (Weighs.nil (w := w))
      simpa only [add_assoc] using ih hrest hmerge hfirst hc
    · obtain ⟨a₁, a₂, hfront, htail, rfl⟩ := Weighs.append_iff.mp ha
      obtain ⟨t, a₃, ht, hback, rfl⟩ := Weighs.cons_iff.mp htail
      obtain ⟨s, hs, hweight⟩ :=
        hreplace (k, v) List.mem_cons_self hk' hfree hknown hv hboth ht hu
      have hfirst : Weighs w g (front ++ (k', both) :: back) (a₁ + (w s + a₃)) :=
        Weighs.append_iff.mpr ⟨a₁, _, hfront, Weighs.cons hs hback, rfl⟩
      have htotal : a₁ + (w s + a₃) + c = a₁ + (w t + a₃) + (w u + c) := by
        rw [hweight]
        abel
      exact htotal ▸ ih hrest hmerge hfirst hc

end

/-! ### Keys that are the same -/

theorem asText?_of_equalScalars {a b : Value} (h : Value.equalScalars a b = .ok true) :
    a.asText? = b.asText? := by
  have hnumber : ∀ {v : Value} {n : Number}, v.asNumber? = some n → v.asText? = none := by
    intro v n hn
    cases v <;> first | rfl | cases hn
  unfold Value.equalScalars at h
  split at h
  · rename_i x y hx hy
    rw [hnumber hx, hnumber hy]
  · split at h
    · rename_i s t hs ht
      rw [hs, ht, eq_of_beq (Except.ok.inj h)]
    · split at h
      all_goals
        first
        | rfl
        | cases h

theorem equalScalars_of_sameKey {a b : Value} (h : Value.sameKey a b) :
    Value.equalScalars a b = .ok true ∨
      ∃ k as f l bs g, a = .operator ⟨k, as, f⟩ ∧ b = .operator ⟨l, bs, g⟩ ∧
        Value.sameKey k l := by
  unfold Value.sameKey at h
  split at h
  · simp only [Bool.and_eq_true] at h
    exact .inr ⟨_, _, _, _, _, _, rfl, rfl, h.1.1⟩
  · split at h
    · rename_i r hr
      exact .inl (by rw [hr, h])
    · cases h

theorem asText?_of_sameKey {a b : Value} (h : Value.sameKey a b) : a.asText? = b.asText? := by
  rcases equalScalars_of_sameKey h with h | ⟨k, as, f, l, bs, g, rfl, rfl, -⟩
  · exact asText?_of_equalScalars h
  · rfl

/-- Keys that are the same name the same operators. -/
theorem spellingOf?_of_sameKey {a b : Value} (h : Value.sameKey a b) :
    Registry.spellingOf? a = Registry.spellingOf? b := by
  rcases equalScalars_of_sameKey h with h' | ⟨k, as, f, l, bs, g, rfl, rfl, hkey⟩
  · have htext := asText?_of_equalScalars h'
    have hspelling : ∀ {v : Value}, (∀ o, v ≠ .operator o) →
        Registry.spellingOf? v = v.asText?.map Text.lower := by
      intro v hv
      cases v
      case operator o => exact (hv o rfl).elim
      all_goals rfl
    have hleft : ∀ o, a ≠ .operator o := by
      rintro o rfl
      cases b <;> cases h'
    have hright : ∀ o, b ≠ .operator o := by
      rintro o rfl
      cases a <;> cases h'
    rw [hspelling hleft, hspelling hright, htext]
  · exact asText?_of_sameKey hkey

theorem find?_of_sameKey {kind : Text} {a b : Value} (h : Value.sameKey a b) :
    Registry.standard.find? kind a = Registry.standard.find? kind b := by
  unfold Registry.find?
  rw [spellingOf?_of_sameKey h]

/-! ### The two levels of entries -/

/-- The condition that an entry of a map of operators makes under a path. -/
def operatorShape (key : Value) (e : Value × Value) : Except Fault Condition := do
  if (Operator.quantified? e.1).isSome then
    let quantifier ← operatorOf "quantified" e.1
    return .quantified quantifier key (← shape e.2)
  else comparisonShape key e.1 e.2

theorem shapeEntries_eq_mapM :
    ∀ es : List (Value × Value), shapeEntries es = es.mapM fun e => shapeEntry e.1 e.2
  | [] => rfl
  | (k, v) :: rest => by
    rw [List.mapM_cons, ← shapeEntries_eq_mapM rest]
    rfl

theorem shapeOperators_eq_mapM (key : Value) :
    ∀ es : List (Value × Value), shapeOperators key es = es.mapM (operatorShape key)
  | [] => rfl
  | (op, v) :: rest => by
    rw [List.mapM_cons, ← shapeOperators_eq_mapM key rest, operatorShape, shapeOperators]
    dsimp only
    split
    · simp only [bind_assoc, pure_bind]
    · rfl

theorem isPresent_iff {t : Condition} : Filter.isPresent t ↔ t ≠ .absent := by
  cases t <;> simp [Filter.isPresent]

/-- What weighs nothing if it is absent, and as much as its parts if it joins them by `and`, adds up
where conditions are joined, of which some may be absent. -/
theorem weight_conjunction {w : Condition → M} (habsent : w .absent = 0)
    (hand : ∀ {ts}, (∀ t ∈ ts, t ≠ .absent) → w (.logical Filter.andOperator ts) = (ts.map w).sum)
    (ts : List Condition) : w (conjunction ts) = (ts.map w).sum := by
  have hfilter : ((ts.filter Filter.isPresent).map w).sum = (ts.map w).sum := by
    induction ts with
    | nil => rfl
    | cons t ts ih =>
      by_cases ht : t = .absent
      · subst ht
        rw [List.filter_cons_of_neg (by simp [Filter.isPresent]), ih, List.map_cons, List.sum_cons,
          habsent, zero_add]
      · rw [List.filter_cons_of_pos (isPresent_iff.mpr ht), List.map_cons, List.sum_cons, ih,
          List.map_cons, List.sum_cons]
  have hjoin : w (joinShapes Filter.andOperator (ts.filter Filter.isPresent)) =
      ((ts.filter Filter.isPresent).map w).sum := by
    have hpresent : ∀ t ∈ ts.filter Filter.isPresent, t ≠ .absent :=
      fun t ht => isPresent_iff.mp (List.mem_filter.mp ht).2
    rcases e : ts.filter Filter.isPresent with - | ⟨t, - | ⟨t', rest⟩⟩
    · exact habsent
    · exact (add_zero _).symm
    · rw [e] at hpresent
      exact hand hpresent
  rcases ts with - | ⟨t, - | ⟨t', ts⟩⟩
  · exact habsent
  · exact (add_zero _).symm
  · exact hjoin.trans hfilter

/-- A weight of conditions that adds up where conditions are joined by `and`, that does not tell
apart keys that are the same, and to which a comparison with a map that is no operand is so heavy
that nothing else counts beside it. -/
structure Weighing (w : Condition → M) : Prop where
  conjunction : ∀ ts, w (conjunction ts) = (ts.map w).sum
  comparison_key : ∀ {k k'} op right, Value.sameKey k' k →
    w (.comparison op k' right) = w (.comparison op k right)
  quantified_key : ∀ {k k'} op body, Value.sameKey k' k →
    w (.quantified op k' body) = w (.quantified op k body)
  malformed : ∃ z, (∀ a, z + a = z) ∧
    ∀ op k es, ¬ isWrapper (.map es) → w (.comparison op k (.map es)) = z

section

variable {w : Condition → M} (hw : Weighing w)

/-- A key that stands in neither of two maps does not stand in their merge. -/
theorem lookup?_merge_none {key : Value} {first second merged : List (Value × Value)}
    (h : merge first second = some merged) (hfirst : Value.lookup? key first = none)
    (hsecond : Value.lookup? key second = none) : Value.lookup? key merged = none := by
  rw [lookup?_eq_none_iff] at hfirst hsecond ⊢
  exact merge_forall (fun _ _ _ _ _ hknown _ => hknown) h hfirst hsecond

theorem mergeValues_eq_some {known v merged : Value} (h : mergeValues known v = some merged) :
    ∃ xs ys zs, known = .map xs ∧ v = .map ys ∧ merged = .map zs ∧ merge xs ys = some zs := by
  unfold mergeValues at h
  split at h
  · rename_i ys
    split at h
    · rename_i xs
      obtain ⟨zs, hzs, rfl⟩ := Option.map_eq_some_iff.mp h
      exact ⟨xs, ys, zs, rfl, rfl, rfl, hzs⟩
    · cases h
  · cases h

theorem not_isWrapper_merge {xs ys zs : List (Value × Value)} (hxs : ¬ isWrapper (.map xs))
    (hys : ¬ isWrapper (.map ys)) (h : merge xs ys = some zs) : ¬ isWrapper (.map zs) := by
  have hnone : ∀ {es : List (Value × Value)}, ¬ isWrapper (.map es) →
      Value.lookup? (.text "value") es = none := by
    intro es hes
    simpa [isWrapper] using hes
  simp [isWrapper, lookup?_merge_none h (hnone hxs) (hnone hys)]

/-- Under an operator of comparison a map that is no operand is compared, if it is read at all. -/
theorem operatorShape_malformed {key op : Value} {es : List (Value × Value)} {t : Condition}
    (hfree : ¬ isScoped op) (hes : ¬ isWrapper (.map es))
    (h : operatorShape key (op, .map es) = .ok t) :
    (Operator.comparison? op).isSome ∧
      ∃ op', operatorOf "comparison" op = .ok op' ∧ t = .comparison op' key (.map es) := by
  have hquantified : ¬ (Operator.quantified? op).isSome := by
    simp only [isScoped, Bool.or_eq_true, not_or] at hfree
    exact hfree.2
  unfold operatorShape at h
  rw [if_neg hquantified] at h
  obtain ⟨token, op', hop', rfl, ⟨hcomparison, rfl⟩ | ⟨hwrapper, -⟩⟩ :=
    Filter.comparisonShape_eq_ok_cases h
  · exact ⟨hcomparison, op', hop', rfl⟩
  · exact (hes hwrapper).elim

theorem isScoped_of_sameKey {a b : Value} (h : Value.sameKey a b) : isScoped a = isScoped b := by
  unfold isScoped Operator.unary? Operator.quantified?
  rw [find?_of_sameKey h, find?_of_sameKey h]

include hw

/-- Under a path, entries under one key are only merged when both are compared and malformed. -/
theorem replaces_operator (key op v : Value) : Replaces w (operatorShape key) op v := by
  intro k' known merged t u hkey hfree hknown hv hvalues ht hu
  obtain ⟨xs, ys, zs, rfl, rfl, rfl, hmerge⟩ := mergeValues_eq_some hvalues
  have hfree' : ¬ isScoped k' := by rwa [isScoped_of_sameKey hkey]
  have hzs := not_isWrapper_merge hknown hv hmerge
  obtain ⟨hcomparison, op', hop', rfl⟩ := operatorShape_malformed hfree' hknown ht
  obtain ⟨-, op'', -, rfl⟩ := operatorShape_malformed hfree hv hu
  have hquantified : ¬ (Operator.quantified? k').isSome := by
    simp only [isScoped, Bool.or_eq_true, not_or] at hfree'
    exact hfree'.2
  refine ⟨.comparison op' key (.map zs), ?_, ?_⟩
  · unfold operatorShape comparisonShape
    rw [if_neg hquantified, if_pos hcomparison, hop']
    rfl
  · obtain ⟨z, hz, hmalformed⟩ := hw.malformed
    rw [hmalformed _ _ _ hzs, hmalformed _ _ _ hknown, hz]

/-- What stands under a path weighs the same under a key that is the same. -/
theorem operatorShape_key {k k' : Value} (hkey : Value.sameKey k' k) {e : Value × Value}
    {t : Condition} (h : operatorShape k e = .ok t) :
    ∃ t', operatorShape k' e = .ok t' ∧ w t' = w t := by
  have hcomparison : ∀ {op : Value} {s : Condition},
      (do return .comparison (← operatorOf "comparison" op) k e.2 : Except Fault Condition) = .ok s →
      ∃ s', (do return .comparison (← operatorOf "comparison" op) k' e.2 :
        Except Fault Condition) = .ok s' ∧ w s' = w s := by
    intro op s hs
    obtain ⟨op', hop', hs⟩ := bind_eq_ok_iff.mp hs
    cases hs
    exact ⟨_, by rw [hop']; rfl, hw.comparison_key _ _ hkey⟩
  unfold operatorShape at h ⊢
  split at h
  · rename_i hquantified
    obtain ⟨op, hop, h⟩ := bind_eq_ok_iff.mp h
    obtain ⟨body, hbody, h⟩ := bind_eq_ok_iff.mp h
    cases h
    refine ⟨.quantified op k' body, ?_, hw.quantified_key _ _ hkey⟩
    rw [if_pos hquantified, hop, hbody]
    rfl
  · rename_i hquantified
    rw [if_neg hquantified]
    unfold comparisonShape at h ⊢
    split at h
    · rename_i hop
      rw [if_pos hop]
      exact hcomparison h
    · rename_i hop
      rw [if_neg hop]
      split at h
      · rename_i hwrapper
        rw [if_pos hwrapper]
        exact hcomparison h
      · obtain ⟨phrase, -, h⟩ := bind_eq_ok_iff.mp h
        obtain ⟨op', -, h⟩ := bind_eq_ok_iff.mp h
        obtain ⟨operand, -, h⟩ := bind_eq_ok_iff.mp h
        cases h

theorem Weighs.key {k k' : Value} (hkey : Value.sameKey k' k) {es : List (Value × Value)} {a : M}
    (h : Weighs w (operatorShape k) es a) : Weighs w (operatorShape k') es a := by
  induction es generalizing a with
  | nil => exact h
  | cons e es ih =>
    obtain ⟨t, b, ht, hb, rfl⟩ := Weighs.cons_iff.mp h
    obtain ⟨t', ht', hweight⟩ := operatorShape_key hw hkey ht
    exact hweight ▸ Weighs.cons ht' (ih hb)

/-! ### The whole merge -/

/-- The condition of an entry whose value is a map but no operand, under a key that opens no scope of
its own: the entries of the map at the level that the key leads to. -/
theorem weighs_of_mapEntry {k : Value} {es : List (Value × Value)} {t : Condition}
    (hfree : ¬ isScoped k) (hes : ¬ isWrapper (.map es)) :
    shapeEntry k (.map es) = .ok t → ((Operator.logical? k).isSome ∧
        (∃ op, operatorOf "logical" k = .ok op) ∧ Weighs w (fun e => shapeEntry e.1 e.2) es (w t)) ∨
      (¬ (Operator.logical? k).isSome ∧ Weighs w (operatorShape k) es (w t)) := by
  have hunary : ¬ (Operator.unary? k).isSome := by
    simp only [isScoped, Bool.or_eq_true, not_or] at hfree
    exact hfree.1
  intro h
  rcases Filter.mapEntry_eq_ok_cases h with ⟨hlogical, op, ts, hop, hts, rfl⟩ | ⟨-, hnegation, -⟩ |
    ⟨hlogical, -, ⟨hwrapper, -⟩ | ⟨-, ts, hts, rfl⟩⟩
  · rw [shapeEntries_eq_mapM] at hts
    exact .inl ⟨hlogical, ⟨op, hop⟩, ts, hts, hw.conjunction ts⟩
  · exact (hunary hnegation).elim
  · exact (hes hwrapper).elim
  · rw [shapeOperators_eq_mapM] at hts
    exact .inr ⟨hlogical, ts, hts, hw.conjunction ts⟩

/-- The same in the other direction. -/
theorem mapEntry_of_weighs {k : Value} {es : List (Value × Value)} {a : M}
    (hfree : ¬ isScoped k) (hes : ¬ isWrapper (.map es))
    (h : ((Operator.logical? k).isSome ∧ (∃ op, operatorOf "logical" k = .ok op) ∧
        Weighs w (fun e => shapeEntry e.1 e.2) es a) ∨
      (¬ (Operator.logical? k).isSome ∧ Weighs w (operatorShape k) es a)) :
    ∃ t, shapeEntry k (.map es) = .ok t ∧ w t = a := by
  have hunary : ¬ (Operator.unary? k).isSome := by
    simp only [isScoped, Bool.or_eq_true, not_or] at hfree
    exact hfree.1
  rcases h with ⟨hlogical, ⟨op, hop⟩, ts, hts, rfl⟩ | ⟨hlogical, ts, hts, rfl⟩
  · refine ⟨conjunction ts, ?_, hw.conjunction ts⟩
    unfold shapeEntry
    rw [if_pos hlogical, hop, shapeEntries_eq_mapM, hts]
    rfl
  · refine ⟨conjunction ts, ?_, hw.conjunction ts⟩
    unfold shapeEntry
    rw [if_neg hlogical, if_neg hunary, if_neg hes, shapeOperators_eq_mapM, hts]
    rfl

/-- **Merged maps weigh as much as both maps together.** If two maps are conditions and can be merged,
their merge is a condition as well, and it says what the two say. -/
theorem weighs_merge {first second merged : List (Value × Value)} {a b : M}
    (hmerge : merge first second = some merged)
    (ha : Weighs w (fun e => shapeEntry e.1 e.2) first a)
    (hb : Weighs w (fun e => shapeEntry e.1 e.2) second b) :
    Weighs w (fun e => shapeEntry e.1 e.2) merged (a + b) := by
  refine Weighs.merge ?_ hmerge ha hb
  intro e he k' known merged' t u hkey hfree hknown hv hvalues ht hu
  obtain ⟨xs, ys, zs, rfl, hys, rfl, hinner⟩ := mergeValues_eq_some hvalues
  have hsmaller : sizeOf ys < sizeOf second := by
    have hlt := List.sizeOf_lt_of_mem he
    have heq : sizeOf e = 1 + sizeOf e.1 + sizeOf e.2 := by
      obtain ⟨k, v⟩ := e
      rfl
    rw [heq, hys, Value.map.sizeOf_spec] at hlt
    omega
  rw [hys] at hv hu
  have hfree' : ¬ isScoped k' := by rwa [isScoped_of_sameKey hkey]
  have hlogical : Operator.logical? k' = Operator.logical? e.1 := find?_of_sameKey hkey
  have hzs := not_isWrapper_merge hknown hv hinner
  refine mapEntry_of_weighs hw hfree' hzs ?_
  rcases weighs_of_mapEntry hw hfree' hknown ht with ⟨hk', hop, hxs⟩ | ⟨hk', hxs⟩
  · rcases weighs_of_mapEntry hw hfree hv hu with ⟨-, -, hys'⟩ | ⟨hk, -⟩
    · exact .inl ⟨hk', hop, weighs_merge hinner hxs hys'⟩
    · exact (hk (hlogical ▸ hk')).elim
  · rcases weighs_of_mapEntry hw hfree hv hu with ⟨hk, -⟩ | ⟨-, hys'⟩
    · exact (hk' (hlogical ▸ hk)).elim
    · refine .inr ⟨hk', ?_⟩
      exact Weighs.merge (fun e _ => replaces_operator hw k' e.1 e.2) hinner hxs
        (hys'.key hw hkey)
termination_by sizeOf second

end

end RecordFilter.Json
