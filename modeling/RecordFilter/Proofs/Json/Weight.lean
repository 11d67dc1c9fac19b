import Mathlib.Algebra.Order.Monoid.WithTop
import Mathlib.Algebra.Order.Monoid.Unbundled.WithTop
import RecordFilter.Proofs.Json.Merging
import RecordFilter.Proofs.Predicate.Algebra
import RecordFilter.Proofs.Predicate.Checking

/-!
# The weight of a condition under a schema

A condition weighs what its resolved form says in an algebra, the absence of a condition weighs
nothing, and a condition that cannot be resolved outweighs all others (`Condition.weight`). This is a
weight in the sense of `Json.Weighing`, so merging maps keeps what they say under any schema
(`Condition.weighing_weight`).
-/

namespace RecordFilter

variable {M : Type} [AddCommMonoid M] (alg : Algebra M) (c : Catalog) (schema : Option EntityId)

/-- What a condition weighs under a schema. -/
def Condition.weight : Condition → WithTop (Nat × M)
  | .absent => 0
  | t =>
    match t.resolve c schema with
    | .ok r => ↑(r.measure alg)
    | .error _ => ⊤

namespace Condition

variable {alg c schema}

theorem weight_of_resolve {t : Condition} {r : Resolved} (h : t.resolve c schema = .ok r) :
    t.weight alg c schema = ↑(r.measure alg) := by
  cases t
  case absent => cases h
  all_goals simp only [weight, h]

theorem weight_of_error {t : Condition} {f : Fault} (ht : t ≠ .absent)
    (h : t.resolve c schema = .error f) : t.weight alg c schema = ⊤ := by
  cases t
  case absent => exact (ht rfl).elim
  all_goals simp only [weight, h]

/-- A condition of some weight can be resolved. -/
theorem resolve_of_weight {t : Condition} {a : Nat × M} (ht : t ≠ .absent)
    (h : t.weight alg c schema = ↑a) : ∃ r, t.resolve c schema = .ok r ∧ r.measure alg = a := by
  rcases e : t.resolve c schema with f | r
  · rw [weight_of_error ht e] at h
    exact (WithTop.top_ne_coe h).elim
  · rw [weight_of_resolve e] at h
    exact ⟨r, rfl, WithTop.coe_injective h⟩

/-! ### Joined conditions -/

/-- Conditions weigh together what they say together, if they can all be resolved. -/
theorem sum_weight {ts : List Condition} (hts : ∀ t ∈ ts, t ≠ .absent) :
    (ts.map (weight alg c schema)).sum =
      match resolveAll c schema ts with
      | .ok rs => ↑((rs.map (Resolved.measure alg)).sum)
      | .error _ => ⊤ := by
  induction ts with
  | nil => rfl
  | cons t ts ih =>
    have ht : t ≠ .absent := hts t List.mem_cons_self
    rw [List.map_cons, List.sum_cons, ih fun u hu => hts u (List.mem_cons_of_mem _ hu), resolveAll]
    rcases e : t.resolve c schema with f | r
    · rw [weight_of_error ht e, WithTop.top_add]
      rfl
    · rw [weight_of_resolve e]
      rcases resolveAll c schema ts with f | rs
      · rfl
      · simp only [ok_bind, pure_eq_ok, List.map_cons, List.sum_cons]
        rfl

theorem weight_and {ts : List Condition} (hts : ∀ t ∈ ts, t ≠ .absent) :
    (Condition.logical Filter.andOperator ts).weight alg c schema =
      (ts.map (weight alg c schema)).sum := by
  rw [sum_weight hts]
  have hresolve : (Condition.logical Filter.andOperator ts).resolve c schema = do
      return .logical Filter.andOperator (← resolveAll c schema ts) := rfl
  rcases e : resolveAll c schema ts with f | rs
  · rw [e] at hresolve
    exact weight_of_error (by simp) hresolve
  · rw [e] at hresolve
    rw [weight_of_resolve hresolve, Resolved.measure_logical_and alg rfl]

/-- Conditions that are resolved alike weigh the same. -/
theorem weight_congr {t u : Condition} (ht : t ≠ .absent) (hu : u ≠ .absent)
    (h : ∀ r, t.resolve c schema = .ok r ↔ u.resolve c schema = .ok r) :
    t.weight alg c schema = u.weight alg c schema := by
  rcases e : u.resolve c schema with f | r
  · rcases e' : t.resolve c schema with f' | r'
    · rw [weight_of_error ht e', weight_of_error hu e]
    · rw [(h r').mp e'] at e
      cases e
  · rw [weight_of_resolve ((h r).mpr e), weight_of_resolve e]

/-! ### Keys that are the same -/

/-- On the left, texts that are the same are read as the same. -/
theorem read?_of_asText? {k k' : Value} {s : Text} (hk : k.asText? = some s)
    (hk' : k'.asText? = some s) :
    Operand.read? c { schema := schema } k' = Operand.read? c { schema := schema } k := by
  unfold Operand.read?
  rw [hk, hk']
  rfl

theorem operandsOf_of_asText? {k k' right : Value} {s : Text} (hk : k.asText? = some s)
    (hk' : k'.asText? = some s) (x : Expr × Expr) :
    Predicate.operandsOf c schema k' right = .ok x ↔
      Predicate.operandsOf c schema k right = .ok x := by
  have hleft : ∀ e, Predicate.leftOperand c schema k' = .ok e ↔
      Predicate.leftOperand c schema k = .ok e := by
    intro e
    rw [Predicate.leftOperand_eq_ok_iff, Predicate.leftOperand_eq_ok_iff, read?_of_asText? hk hk']
  unfold Predicate.operandsOf
  rw [bind_eq_ok_iff, bind_eq_ok_iff]
  exact exists_congr fun e => and_congr_left fun _ => hleft e

theorem collectionOf_of_asText? {op : Operator} {k k' : Value} {s : Text} (hk : k.asText? = some s)
    (hk' : k'.asText? = some s) (e : Expr) :
    Predicate.collectionOf c schema op k' = .ok e ↔ Predicate.collectionOf c schema op k = .ok e := by
  rw [Predicate.collectionOf_eq_ok_iff, Predicate.collectionOf_eq_ok_iff]
  refine and_congr_left fun _ => ?_
  rw [Predicate.collectionOperand_eq_ok_iff, Predicate.collectionOperand_eq_ok_iff,
    read?_of_asText? hk hk']

/-- A value that is neither text nor map is never the left operand of a comparison. -/
theorem leftOperand_ne_ok {v : Value} (htext : v.asText? = none) (hmap : v.isMap = false)
    (e : Expr) : Predicate.leftOperand c schema v ≠ .ok e := by
  intro h
  obtain ⟨hr, hliteral⟩ := Predicate.leftOperand_eq_ok_iff.mp h
  rw [Operand.read?_of_not_text htext hmap] at hr
  obtain ⟨l, hl, hsame⟩ := map_eq_ok_iff.mp hr
  cases hsame
  obtain ⟨w, -, rfl⟩ := Expr.ofValue_eq_ok_iff.mp hl
  exact hliteral trivial

/-- A value that is neither text nor map nor list is no collection under a schema, and a literal that
is none where there is no schema. -/
theorem collectionOf_of_isNoCollection {v : Value} (hv : v.IsNoCollection)
    (htext : v.asText? = none) (hmap : v.isMap = false) :
    (c.isSchemaless schema ∧ ∃ w, w.IsNoCollection ∧
      ∀ op, Predicate.collectionOf c schema op v = .ok (.literal w none false {})) ∨
    (¬ c.isSchemaless schema ∧ ∀ op e, Predicate.collectionOf c schema op v ≠ .ok e) := by
  obtain ⟨w, hread, hw⟩ : ∃ w, (DataType.infer v).read v = .ok w ∧ w.IsNoCollection := by
    cases v
    case null => exact hv.elim
    case list => exact hv.elim
    case map => cases hmap
    case text => cases htext
    case token => cases htext
    all_goals exact ⟨_, rfl, trivial⟩
  have hliteral : Operand.read? c { schema := schema } v =
      .ok (some (.literal w (some (.data (DataType.infer v))) false {})) := by
    have h : Expr.ofValue v none false =
        .ok (.literal w (some (.data (DataType.infer v))) false {}) :=
      Expr.ofValue_eq_ok_iff.mpr ⟨w, hread, rfl⟩
    rw [Operand.read?_of_not_text htext hmap, h]
    rfl
  by_cases hs : c.isSchemaless schema
  · refine .inl ⟨hs, w, hw, fun op => Predicate.collectionOf_eq_ok_iff.mpr
      ⟨?_, Predicate.misfit?_of_isSchemaless hs⟩⟩
    exact Predicate.collectionOperand_eq_ok_iff.mpr ⟨_, hliteral, by rw [if_pos hs]; rfl⟩
  · refine .inr ⟨hs, fun op e he => ?_⟩
    obtain ⟨e₀, hread, hsame⟩ := Predicate.exists_read?_of_collectionOf he
    rw [if_neg hs] at hsame
    cases hliteral.symm.trans hread
    subst hsame
    exact Predicate.misfit?_of_data hs rfl (Predicate.collectionOf_eq_ok_iff.mp he).2

/-! ### The weight is a weight in the sense of merging -/

theorem weight_comparison_congr {op : Operator} {k k' right right' : Value}
    (h : ∀ x, Predicate.operandsOf c schema k' right' = .ok x ↔
      Predicate.operandsOf c schema k right = .ok x) :
    (Condition.comparison op k' right').weight alg c schema =
      (Condition.comparison op k right).weight alg c schema := by
  refine weight_congr (by simp) (by simp) fun r => ?_
  unfold resolve
  rw [bind_eq_ok_iff, bind_eq_ok_iff]
  exact exists_congr fun x => and_congr_left fun _ => h x

theorem weight_quantified_congr {op : Operator} {k k' : Value} {body : Condition}
    (h : ∀ e, Predicate.collectionOf c schema op k' = .ok e ↔
      Predicate.collectionOf c schema op k = .ok e) :
    (Condition.quantified op k' body).weight alg c schema =
      (Condition.quantified op k body).weight alg c schema := by
  refine weight_congr (by simp) (by simp) fun r => ?_
  unfold resolve
  rw [bind_eq_ok_iff, bind_eq_ok_iff]
  exact exists_congr fun e => and_congr_left fun _ => h e

theorem not_operandsOf_of_leftOperand {k right : Value}
    (h : ∀ e, Predicate.leftOperand c schema k ≠ .ok e) (x : Expr × Expr) :
    Predicate.operandsOf c schema k right ≠ .ok x := by
  intro hx
  obtain ⟨l, hl, -⟩ := Predicate.operandsOf_eq_ok_iff.mp hx
  exact h l hl

/-- A key that is the same as another one is no map. -/
theorem isMap_of_sameKey {a b : Value} (h : Value.sameKey a b) : a.isMap = false ∧ b.isMap = false := by
  rcases Json.equalScalars_of_sameKey h with h | ⟨k, as, f, l, bs, g, rfl, rfl, -⟩
  · constructor
    · cases a
      case map => cases b <;> cases h
      all_goals rfl
    · cases b
      case map => cases a <;> cases h
      all_goals rfl
  · exact ⟨rfl, rfl⟩

/-- Of two keys that are the same either none can be a collection or both are null. -/
theorem isNoCollection_of_sameKey {a b : Value} (h : Value.sameKey a b) :
    a = b ∨ (a.IsNoCollection ∧ b.IsNoCollection) := by
  rcases Json.equalScalars_of_sameKey h with h | ⟨k, as, f, l, bs, g, rfl, rfl, -⟩
  · cases a
    case null =>
      cases b
      case null => exact .inl rfl
      all_goals cases h
    case list => cases b <;> cases h
    all_goals
      cases b
      case null => cases h
      case list => cases h
      all_goals exact .inr ⟨trivial, trivial⟩
  · exact .inr ⟨trivial, trivial⟩

theorem weight_quantified_literal {op : Operator} {w w' k k' : Value} {body : Condition}
    (hw : w.IsNoCollection) (hw' : w'.IsNoCollection)
    (h : Predicate.collectionOf c schema op k = .ok (.literal w none false {}))
    (h' : Predicate.collectionOf c schema op k' = .ok (.literal w' none false {})) :
    (Condition.quantified op k' body).weight alg c schema =
      (Condition.quantified op k body).weight alg c schema := by
  have hentity : ∀ w, (Expr.literal w none false {}).entity? = none := fun _ => rfl
  rcases e : body.resolve c none with f | r
  · rw [weight_of_error (by simp) (f := f), weight_of_error (by simp) (f := f)]
    all_goals
      unfold resolve
      simp only [h, h', ok_bind, hentity, e, error_bind]
  · have hresolve : ∀ {k w}, Predicate.collectionOf c schema op k = .ok (.literal w none false {}) →
        (Condition.quantified op k body).resolve c schema =
          .ok (.quantified op (.literal w none false {}) r) := by
      intro k w hk
      unfold resolve
      simp only [hk, ok_bind, hentity, e, pure_eq_ok]
    rw [weight_of_resolve (hresolve h), weight_of_resolve (hresolve h')]
    simp only [Resolved.measure, Resolved.conjuncts, Resolved.fold,
      Expr.stripped, alg.quantified_literal _ _ _ hw' hw]

/-- **The weight of conditions under a schema is kept by merging.** -/
theorem weighing_weight : Json.Weighing (weight alg c schema) where
  conjunction := Json.weight_conjunction rfl weight_and
  comparison_key := by
    intro k k' op right hkey
    have htext := Json.asText?_of_sameKey hkey
    obtain ⟨hmap', hmap⟩ := isMap_of_sameKey hkey
    refine weight_comparison_congr fun x => ?_
    rcases e : k.asText? with - | s
    · rw [e] at htext
      exact iff_of_false
        (not_operandsOf_of_leftOperand (leftOperand_ne_ok htext hmap') x)
        (not_operandsOf_of_leftOperand (leftOperand_ne_ok e hmap) x)
    · exact operandsOf_of_asText? e (htext.trans e) x
  quantified_key := by
    intro k k' op body hkey
    have htext := Json.asText?_of_sameKey hkey
    obtain ⟨hmap', hmap⟩ := isMap_of_sameKey hkey
    rcases e : k.asText? with - | s
    · rw [e] at htext
      rcases isNoCollection_of_sameKey hkey with rfl | ⟨hv', hv⟩
      · rfl
      · rcases collectionOf_of_isNoCollection hv e hmap with ⟨hs, w, hw, h⟩ | ⟨hs, h⟩ <;>
          rcases collectionOf_of_isNoCollection hv' htext hmap' with ⟨hs', w', hw', h'⟩ | ⟨hs', h'⟩
        · exact weight_quantified_literal hw hw' (h op) (h' op)
        · exact (hs' hs).elim
        · exact (hs hs').elim
        · exact weight_quantified_congr fun x => iff_of_false (h' op x) (h op x)
    · exact weight_quantified_congr (collectionOf_of_asText? e (htext.trans e))
  malformed := by
    refine ⟨⊤, fun a => WithTop.top_add a, fun op k es hes => ?_⟩
    have hfault : ∀ x, Predicate.operandsOf c schema k (.map es) ≠ .ok x := by
      intro x hx
      obtain ⟨l, -, hr, -⟩ := Predicate.operandsOf_eq_ok_iff.mp hx
      obtain ⟨e, he, -⟩ := map_eq_ok_iff.mp (Predicate.rightOperand_eq_ok_iff.mp hr)
      have hvalue : Value.lookup? (.text "value") es = none := by
        simpa [Filter.isWrapper] using hes
      obtain ⟨v, hv, -⟩ := Operand.ofEntries_eq_ok_cases he
      rw [hvalue] at hv
      cases hv
    rcases e : (Condition.comparison op k (.map es)).resolve c schema with f | r
    · exact weight_of_error (by simp) e
    · obtain ⟨l, r, hx, -⟩ := resolve_comparison_eq_ok_iff.mp e
      exact (hfault (l, r) hx).elim

end Condition

end RecordFilter
