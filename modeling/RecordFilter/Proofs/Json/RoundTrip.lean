import Mathlib.Algebra.Group.PUnit
import RecordFilter.Proofs.Filter.Building
import RecordFilter.Proofs.Json.Narrow
import RecordFilter.Proofs.Json.Weight

/-!
# Reading canonical forms

The canonical form of a condition is a filter again. If each of its operands is written in a form
that is read as an operand of the same meaning (`Resolved.IsRereadable`), then the filter is read as
a condition that has the same value in every algebra (`Resolved.read_canonical`).

The proof is by induction over the condition. Its core is that the entries of the canonical form weigh
what the condition weighs (`Resolved.weighs_canonical`): where two maps are merged, this is what
merging keeps.
-/

namespace RecordFilter

open Filter (shape shapeEntry shapeEntries shapeAll shapeOperators joinShapes conjunction equalShape
  comparisonShape operatorOf isWrapper)

/-! ### Operators as keys -/

namespace Operator.IsOf

variable {op : Operator}

theorem key_eq (h : op.IsOf Operator.unary) : op.key = .text "not" := by
  obtain ⟨m, hm, rfl⟩ := h
  cases List.mem_singleton.mp hm
  rfl

/-- A negation is read under its key, which joins nothing. -/
theorem unary_key (h : op.IsOf Operator.unary) :
    op.key.isKey ∧ op.key.IsPlain ∧ operatorOf "unary" op.key = .ok op ∧
      (Operator.unary? op.key).isSome ∧ Operator.logical? op.key = none := by
  obtain ⟨m, hm, rfl⟩ := h
  cases List.mem_singleton.mp hm
  exact ⟨rfl, trivial, rfl, rfl, rfl⟩

theorem and_or_or (h : op.IsOf Operator.logical) :
    op = ⟨.text "and", ["&&"], false⟩ ∨ op = ⟨.text "or", ["||"], false⟩ := by
  obtain ⟨m, hm, rfl⟩ := h
  simp only [Operator.logical, List.mem_cons, List.not_mem_nil, or_false] at hm
  rcases hm with rfl | rfl
  · exact .inl rfl
  · exact .inr rfl

/-- A joining operator is read under its key. -/
theorem logical_key (h : op.IsOf Operator.logical) :
    op.key.isKey ∧ op.key.IsPlain ∧ operatorOf "logical" op.key = .ok op ∧
      (Operator.logical? op.key).isSome := by
  rcases h.and_or_or with rfl | rfl <;> exact ⟨rfl, trivial, rfl, rfl⟩

/-- A comparison is read under its key, and its key is neither a quantifier nor a wrapper's. -/
theorem comparison_key (h : op.IsOf Operator.comparison) :
    op.key.isKey ∧ op.key.IsPlain ∧ operatorOf "comparison" op.key = .ok op ∧
      (Operator.comparison? op.key).isSome ∧ Operator.quantified? op.key = none ∧
        Value.sameKey op.key (.text "value") = false := by
  obtain ⟨m, hm, rfl⟩ := h
  simp only [Operator.comparison, List.mem_cons, List.not_mem_nil, or_false] at hm
  rcases hm with rfl | rfl | rfl | rfl | rfl | rfl | rfl | rfl | rfl <;>
    exact ⟨rfl, trivial, rfl, rfl, rfl, rfl⟩

/-- The comparison with the key `eq` is the one that is meant where no operator is given. -/
theorem operatorOf_eq (h : op.IsOf Operator.comparison) (heq : op.key.isText "eq") :
    operatorOf "comparison" (.text "eq") = .ok op := by
  obtain ⟨m, hm, rfl⟩ := h
  simp only [Operator.comparison, List.mem_cons, List.not_mem_nil, or_false] at hm
  rcases hm with rfl | rfl | rfl | rfl | rfl | rfl | rfl | rfl | rfl
  · rfl
  all_goals cases heq

/-- A quantifier is read under its key, and its key is no wrapper's. -/
theorem quantified_key (h : op.IsOf Operator.quantified) :
    op.key.isKey ∧ op.key.IsPlain ∧ operatorOf "quantified" op.key = .ok op ∧
      (Operator.quantified? op.key).isSome ∧ Value.sameKey op.key (.text "value") = false := by
  obtain ⟨m, hm, rfl⟩ := h
  simp only [Operator.quantified, List.mem_cons, List.not_mem_nil, or_false] at hm
  rcases hm with rfl | rfl <;> exact ⟨rfl, trivial, rfl, rfl, rfl⟩

end Operator.IsOf

/-! ### Conditions that can be read again -/

/-- The value can be the key of an entry that holds what a path is compared with. -/
structure Value.IsPathForm (k : Value) : Prop where
  isKey : k.isKey
  isPlain : k.IsPlain
  isUnreserved : k.IsUnreserved

/-- The value can stand as an operand on the right, also where no operator is given: it is no list,
and if it is a map, it spells out an operand. -/
structure Value.IsRightForm (v : Value) : Prop where
  isPlain : v.IsPlain
  not_list : ∀ vs, v ≠ .list vs
  isWrapper : v.isMap → isWrapper v

mutual

/-- In a context the operands of the condition have canonical forms that are read as operands of the
same meaning, under the schema of the context. -/
def Resolved.IsRereadable (c : Catalog) (context : Context) : Resolved → Prop
  | .passthrough _ => False
  | .unary op operand => op.IsOf Operator.unary ∧ Resolved.IsRereadable c context operand
  | .logical op children =>
    op.IsOf Operator.logical ∧ 2 ≤ children.length ∧ Resolved.AllRereadable c context children
  | .comparison op left right => op.IsOf Operator.comparison ∧
    ∃ k v, left.canonical c context = .ok k ∧ right.canonicalRight c context = .ok v ∧
      k.IsPathForm ∧ v.IsRightForm ∧
        ∃ l r, Predicate.operandsOf c context.schema k v = .ok (l, r) ∧
          l.stripped = left.stripped ∧ r.stripped = right.stripped
  | .quantified op collection body => op.IsOf Operator.quantified ∧
    (∃ k, collection.canonical c context = .ok k ∧ k.IsPathForm ∧
      ∃ e, Predicate.collectionOf c context.schema op k = .ok e ∧ e.stripped = collection.stripped) ∧
    Resolved.IsRereadable c (context.withSchema collection.entity?) body

/-- In a context the conditions have operands with canonical forms that are read as operands of the
same meaning. -/
def Resolved.AllRereadable (c : Catalog) (context : Context) : List Resolved → Prop
  | [] => True
  | t :: ts => Resolved.IsRereadable c context t ∧ Resolved.AllRereadable c context ts

end

mutual

/-- Such a condition is one condition at least. -/
theorem Resolved.conjuncts_pos {c : Catalog} : ∀ (t : Resolved) {context : Context},
    t.IsRereadable c context → 1 ≤ t.conjuncts
  | .passthrough _, _, _ | .unary _ _, _, _ | .comparison .., _, _ | .quantified .., _, _ =>
    Nat.le_refl 1
  | .logical op children, context, ⟨_, hlength, hall⟩ => by
    rw [conjuncts]
    split
    · exact Nat.le_trans (by omega) (Resolved.length_le_sum children hall)
    · exact Nat.le_refl 1

theorem Resolved.length_le_sum {c : Catalog} : ∀ (ts : List Resolved) {context : Context},
    Resolved.AllRereadable c context ts → ts.length ≤ (conjunctsAll ts).sum
  | [], _, _ => Nat.le_refl 0
  | t :: ts, context, ⟨h, hall⟩ => by
    have hone := Resolved.conjuncts_pos t h
    have hmany := Resolved.length_le_sum ts hall
    rw [conjunctsAll, List.length_cons, List.sum_cons]
    omega

end

/-! ### Entries of comparisons -/

/-- What stands under the left operand of a comparison in canonical form: the right operand, which is
under the operator unless that is equality. -/
def Operator.entryOf (op : Operator) (v : Value) : Value :=
  if op.key.isText "eq" then v else .map [(op.key, v)]

theorem Operator.IsOf.isPlain_entryOf {op : Operator} {k v : Value}
    (hop : op.IsOf Operator.comparison) (hk : k.IsPathForm) (hv : v.IsPlain) :
    (Value.map [(k, op.entryOf v)]).IsPlain := by
  obtain ⟨hkey, hplain, -⟩ := hop.comparison_key
  unfold Operator.entryOf
  split <;> simp [hk.isKey, hk.isPlain, hv, hkey, hplain]

theorem Predicate.comparisonForm_eq {op : Operator} {k v : Value}
    (hop : op.IsOf Operator.comparison) (hk : k.isKey) :
    comparisonForm op k v = .ok (.map [(k, op.entryOf v)]) := by
  unfold comparisonForm Operator.entryOf
  split
  · exact entry_of_isKey hk v
  · rw [entry_of_isKey hop.comparison_key.1, ok_bind, entry_of_isKey hk]

/-! ### Single entries -/

namespace Json

variable {M : Type} [AddCommMonoid M] {w : Condition → M}
  {g : Value × Value → Except Fault Condition}

theorem Weighs.single {e : Value × Value} {t : Condition} (h : g e = .ok t) :
    Weighs w g [e] (w t) := by
  simpa using Weighs.cons h Weighs.nil

/-- A map is read as a condition that weighs what its entries weigh. -/
theorem Weighing.shape_map (hw : Weighing w) {es : List (Value × Value)} {a : M}
    (h : Weighs w (fun e => shapeEntry e.1 e.2) es a) : ∃ t, shape (.map es) = .ok t ∧ w t = a := by
  obtain ⟨ts, hts, rfl⟩ := h
  refine ⟨Filter.conjunction ts, ?_, hw.conjunction ts⟩
  rw [shape, shapeEntries_eq_mapM, hts]
  rfl

end Json

namespace Filter

theorem shapeEntry_right {k v : Value} (hk : k.IsUnreserved) (hv : v.IsRightForm) :
    shapeEntry k v = equalShape k v := by
  have hlogical : ¬ (Operator.logical? k).isSome := by simp [hk.logical]
  have hunary : ¬ (Operator.unary? k).isSome := by simp [hk.unary]
  cases v
  case list vs => exact (hv.not_list vs rfl).elim
  case node n shown => exact (Value.not_isPlain_node n shown hv.isPlain).elim
  case map es =>
    unfold shapeEntry
    rw [if_neg hlogical, if_neg hunary, if_pos (hv.isWrapper rfl)]
  all_goals
    show scalarEntryShape k _ = _
    unfold scalarEntryShape
    rw [if_neg hlogical, if_neg hunary]

theorem shapeEntry_operator {k op v : Value} {t : Condition} (hk : k.IsUnreserved)
    (hop : Value.sameKey op (.text "value") = false)
    (h : Json.operatorShape k (op, v) = .ok t) : shapeEntry k (.map [(op, v)]) = .ok t := by
  have hlogical : ¬ (Operator.logical? k).isSome := by simp [hk.logical]
  have hunary : ¬ (Operator.unary? k).isSome := by simp [hk.unary]
  have hwrapper : ¬ isWrapper (.map [(op, v)]) := by simp [isWrapper, Value.lookup?, hop]
  unfold shapeEntry
  rw [if_neg hlogical, if_neg hunary, if_neg hwrapper, Json.shapeOperators_eq_mapM, List.mapM_cons,
    h]
  rfl

/-- The entry of a comparison under its left operand is read as the comparison. -/
theorem shapeEntry_entryOf {op : Operator} {k v : Value} (hop : op.IsOf Operator.comparison)
    (hk : k.IsUnreserved) (hv : v.IsRightForm) :
    shapeEntry k (op.entryOf v) = .ok (.comparison op k v) := by
  obtain ⟨-, -, hoperator, hknown, hquantified, hvalue⟩ := hop.comparison_key
  unfold Operator.entryOf
  split
  · rename_i heq
    rw [shapeEntry_right hk hv, equalShape, hop.operatorOf_eq heq]
    rfl
  · refine shapeEntry_operator hk hvalue ?_
    rw [Json.operatorShape, hquantified, comparisonShape, if_pos hknown, hoperator]
    rfl

theorem shapeEntry_not {es : List (Value × Value)} {op : Operator} {t : Condition}
    (hop : op.IsOf Operator.unary) (h : shape (.map es) = .ok t) :
    shapeEntry op.key (.map es) = .ok (.unary op t) := by
  obtain ⟨ts, hts, rfl⟩ := Filter.shape_map_eq_ok_iff.mp h
  obtain ⟨-, -, hoperator, hunary, hlogical⟩ := hop.unary_key
  unfold shapeEntry
  rw [if_neg (by simp [hlogical]), if_pos hunary, hoperator, hts]
  rfl

theorem shapeAll_maps {ess : List (List (Value × Value))} {ts : List Condition}
    (h : List.Forall₂ (fun es t => shape (.map es) = .ok t) ess ts) :
    shapeAll (ess.map .map) = .ok ts := by
  induction h with
  | nil => rfl
  | cons ht _ ih =>
    rw [List.map_cons, shapeAll, ht, ih]
    · rfl
    · simp

/-- Two or more items under a joining operator are read one by one. -/
theorem shapeEntry_logical {op : Operator} {vs : List Value} (hop : op.IsOf Operator.logical)
    (hlength : 2 ≤ vs.length) :
    shapeEntry op.key (.list vs) = do return joinShapes op (← shapeAll vs) := by
  obtain ⟨-, -, hoperator, hlogical⟩ := hop.logical_key
  rw [shapeEntry, if_pos hlogical, hoperator]
  · rfl
  · rintro items rfl
    simp at hlength

theorem shapeEntry_list {op : Operator} {ess : List (List (Value × Value))} {ts : List Condition}
    (hop : op.IsOf Operator.logical) (hlength : 2 ≤ ess.length)
    (h : List.Forall₂ (fun es t => shape (.map es) = .ok t) ess ts) :
    shapeEntry op.key (.list (ess.map .map)) = .ok (.logical op ts) := by
  rw [shapeEntry_logical hop (by simpa using hlength), shapeAll_maps h]
  rcases h with - | ⟨-, - | ⟨-, -⟩⟩
  · simp at hlength
  · simp at hlength
  · rfl

end Filter

/-! ### Merged maps are plain -/

namespace Json

theorem insert_isPlain {k v : Value} {es : List (Value × Value)} (hk : k.isKey ∧ k.IsPlain)
    (hv : v.IsPlain) (hes : (Value.map es).IsPlain) : (Value.map (Value.insert k v es)).IsPlain := by
  rw [Value.isPlain_map] at hes ⊢
  induction es with
  | nil =>
    intro e he
    cases List.mem_singleton.mp he
    exact ⟨hk.1, hk.2, hv⟩
  | cons e rest ih =>
    obtain ⟨k', v'⟩ := e
    obtain ⟨hhead, hrest⟩ := List.forall_mem_cons.mp hes
    unfold Value.insert
    split
    · exact List.forall_mem_cons.mpr ⟨⟨hhead.1, hhead.2.1, hv⟩, hrest⟩
    · exact List.forall_mem_cons.mpr ⟨hhead, ih hrest⟩

mutual

theorem merge_isPlain : ∀ (second : List (Value × Value)) {first merged : List (Value × Value)},
    (Value.map first).IsPlain → Value.PlainEntries second → merge first second = some merged →
      (Value.map merged).IsPlain
  | [], first, merged, hfirst, _, h => by
    cases h
    exact hfirst
  | (k, v) :: rest, first, merged, hfirst, hsecond, h => by
    obtain ⟨⟨hkey, hk, hv⟩, hrest⟩ := hsecond
    unfold merge at h
    split at h
    · exact merge_isPlain rest (insert_isPlain ⟨hkey, hk⟩ hv hfirst) hrest h
    · rename_i known hknown
      split at h
      · cases h
      · split at h
        · cases h
        · rename_i both hboth
          have hplain := mergeValues_isPlain v (Operand.lookup?_isPlain hfirst hknown) hv hboth
          exact merge_isPlain rest (insert_isPlain ⟨hkey, hk⟩ hplain hfirst) hrest h
termination_by structural second => second

theorem mergeValues_isPlain : ∀ (v : Value) {known merged : Value}, known.IsPlain → v.IsPlain →
    mergeValues known v = some merged → merged.IsPlain
  | .map entries, known, merged, hknown, hv, h => by
    cases known
    case map first =>
      obtain ⟨zs, hzs, rfl⟩ := Option.map_eq_some_iff.mp h
      exact merge_isPlain entries hknown hv hzs
    all_goals cases h
  | .null, _, _, _, _, h | .bool _, _, _, _, _, h | .int _, _, _, _, _, h | .double _, _, _, _, _, h
  | .decimal _, _, _, _, _, h | .text _, _, _, _, _, h | .token _, _, _, _, _, h
  | .operator _, _, _, _, _, h | .date _, _, _, _, _, h | .time _, _, _, _, _, h
  | .moment _, _, _, _, _, h | .guid _, _, _, _, _, h | .list _, _, _, _, _, h
  | .object _, _, _, _, _, h | .member .., _, _, _, _, h | .node .., _, _, _, _, h => by cases h
termination_by structural v => v

end

end Json

/-! ### Canonical forms weigh what they mean -/

section

variable {M : Type} [AddCommMonoid M] {alg : Algebra M} {c : Catalog} {schema : Option EntityId}

/-- The entries are read as conditions that say together what a resolved condition says. -/
def Resolved.WrittenAs (alg : Algebra M) (c : Catalog) (schema : Option EntityId)
    (es : List (Value × Value)) (t : Resolved) : Prop :=
  Json.Weighs (Condition.weight alg c schema) (fun e => shapeEntry e.1 e.2) es ↑(t.measure alg)

theorem Resolved.WrittenAs.exists_shape {es : List (Value × Value)} {t : Resolved}
    (h : t.WrittenAs alg c schema es) (hpos : 1 ≤ t.conjuncts) :
    ∃ s u, shape (.map es) = .ok s ∧ s ≠ .absent ∧ s.resolve c schema = .ok u ∧
      u.measure alg = t.measure alg := by
  obtain ⟨s, hs, hweight⟩ := Condition.weighing_weight.shape_map h
  have hpresent : s ≠ .absent := by
    rintro rfl
    have hzero : (0 : Nat × M) = t.measure alg := WithTop.coe_injective hweight
    have hconjuncts : 0 = t.conjuncts := congrArg Prod.fst hzero
    omega
  obtain ⟨u, hu, hmeasure⟩ := Condition.resolve_of_weight hpresent hweight
  exact ⟨s, u, hs, hpresent, hu, hmeasure⟩

theorem Resolved.writtenAs_of_entry {k v : Value} {s : Condition} {t u : Resolved}
    (hshape : shapeEntry k v = .ok s) (hu : s.resolve c schema = .ok u)
    (hmeasure : u.measure alg = t.measure alg) : t.WrittenAs alg c schema [(k, v)] := by
  unfold WrittenAs
  rw [← hmeasure, ← Condition.weight_of_resolve hu]
  exact Json.Weighs.single hshape

/-- Maps of entries that are read one by one. -/
theorem Resolved.exists_shapes {ess : List (List (Value × Value))} {ts : List Resolved}
    (h : List.Forall₂ (fun es t => Resolved.WrittenAs alg c schema es t ∧ 1 ≤ t.conjuncts) ess ts) :
    ∃ ss us, List.Forall₂ (fun es s => shape (.map es) = .ok s) ess ss ∧
      Condition.resolveAll c schema ss = .ok us ∧
        us.map (Resolved.measure alg) = ts.map (Resolved.measure alg) := by
  induction h with
  | nil => exact ⟨[], [], .nil, rfl, rfl⟩
  | cons hhead _ ih =>
    obtain ⟨s, u, hs, -, hu, hmeasure⟩ := hhead.1.exists_shape hhead.2
    obtain ⟨ss, us, hss, hus, hmeasures⟩ := ih
    exact ⟨s :: ss, u :: us, .cons hs hss,
      Condition.resolveAll_cons_eq_ok_iff.mpr ⟨u, us, hu, hus, rfl⟩,
      by rw [List.map_cons, List.map_cons, hmeasure, hmeasures]⟩

/-- Conditions of the same measures say the same together. -/
theorem Resolved.measure_logical_congr {op : Operator} {ts us : List Resolved}
    (h : us.map (Resolved.measure alg) = ts.map (Resolved.measure alg)) :
    (Resolved.logical op us).measure alg = (Resolved.logical op ts).measure alg := by
  by_cases hop : op.key.isText "and"
  · rw [measure_logical_and alg hop, measure_logical_and alg hop, h]
  · have hfold : us.map (fold alg) = ts.map (fold alg) := by
      have hsnd := congrArg (List.map Prod.snd) h
      simpa [List.map_map, Function.comp_def, measure] using hsnd
    simp only [measure, conjuncts, fold, if_neg hop, foldAll_eq_map, hfold]

/-! #### The kinds of conditions -/

theorem Resolved.writtenAs_unary {op : Operator} {es : List (Value × Value)} {t : Resolved}
    (hop : op.IsOf Operator.unary) (h : t.WrittenAs alg c schema es) (hpos : 1 ≤ t.conjuncts) :
    (Resolved.unary op t).WrittenAs alg c schema [(op.key, .map es)] := by
  obtain ⟨s, u, hs, -, hu, hmeasure⟩ := h.exists_shape hpos
  have hresolve : (Condition.unary op s).resolve c schema = .ok (.unary op u) :=
    Condition.resolve_unary_eq_ok_iff.mpr ⟨u, hu, rfl⟩
  have hfold : u.fold alg = t.fold alg := congrArg Prod.snd hmeasure
  exact writtenAs_of_entry (Filter.shapeEntry_not hop hs) hresolve
    (by simp only [measure, conjuncts, fold, hfold])

theorem Resolved.writtenAs_list {op : Operator} {ess : List (List (Value × Value))}
    {ts : List Resolved} (hop : op.IsOf Operator.logical) (hlength : 2 ≤ ess.length)
    (h : List.Forall₂ (fun es t => Resolved.WrittenAs alg c schema es t ∧ 1 ≤ t.conjuncts) ess ts) :
    (Resolved.logical op ts).WrittenAs alg c schema [(op.key, .list (ess.map .map))] := by
  obtain ⟨ss, us, hss, hus, hmeasures⟩ := exists_shapes h
  have hresolve : (Condition.logical op ss).resolve c schema = .ok (.logical op us) :=
    Condition.resolve_logical_eq_ok_iff.mpr ⟨us, hus, rfl⟩
  exact writtenAs_of_entry (Filter.shapeEntry_list hop hlength hss) hresolve
    (measure_logical_congr hmeasures)

variable (alg) in
theorem Resolved.writtenAs_comparison {op : Operator} {k v : Value} {left right l r : Expr}
    (hop : op.IsOf Operator.comparison) (hk : k.IsPathForm) (hv : v.IsRightForm)
    (hoperands : Predicate.operandsOf c schema k v = .ok (l, r))
    (hl : l.stripped = left.stripped) (hr : r.stripped = right.stripped) :
    ∃ es, Predicate.comparisonForm op k v = .ok (.map es) ∧ (Value.map es).IsPlain ∧
      (Resolved.comparison op left right).WrittenAs alg c schema es := by
  have hresolve : (Condition.comparison op k v).resolve c schema = .ok (.comparison op l r) :=
    Condition.resolve_comparison_eq_ok_iff.mpr ⟨l, r, hoperands, rfl⟩
  have hmeasure : (Resolved.comparison op l r).measure alg =
      (Resolved.comparison op left right).measure alg := by
    simp only [measure, conjuncts, fold, hl, hr]
  exact ⟨[(k, op.entryOf v)], Predicate.comparisonForm_eq hop hk.isKey,
    hop.isPlain_entryOf hk hv.isPlain,
    writtenAs_of_entry (Filter.shapeEntry_entryOf hop hk.isUnreserved hv) hresolve hmeasure⟩

theorem Resolved.writtenAs_quantified {op : Operator} {k : Value} {collection e : Expr}
    {es : List (Value × Value)} {body : Resolved} (hop : op.IsOf Operator.quantified)
    (hk : k.IsPathForm) (hcollection : Predicate.collectionOf c schema op k = .ok e)
    (he : e.stripped = collection.stripped)
    (hbody : body.WrittenAs alg c collection.entity? es) (hpos : 1 ≤ body.conjuncts) :
    (Resolved.quantified op collection body).WrittenAs alg c schema
      [(k, .map [(op.key, .map es)])] := by
  obtain ⟨s, u, hs, -, hu, hmeasure⟩ := hbody.exists_shape hpos
  obtain ⟨-, -, hoperator, hknown, hvalue⟩ := hop.quantified_key
  have hentity : e.entity? = collection.entity? := by
    rw [← Expr.entity?_stripped e, he, Expr.entity?_stripped]
  have hresolve : (Condition.quantified op k s).resolve c schema = .ok (.quantified op e u) :=
    Condition.resolve_quantified_eq_ok_iff.mpr ⟨e, u, hcollection, hentity ▸ hu, rfl⟩
  have hfold : u.fold alg = body.fold alg := congrArg Prod.snd hmeasure
  have hshape : shapeEntry k (.map [(op.key, .map es)]) = .ok (.quantified op k s) := by
    refine Filter.shapeEntry_operator hk.isUnreserved hvalue ?_
    rw [Json.operatorShape, if_pos hknown, hoperator, ok_bind, hs]
    rfl
  exact writtenAs_of_entry hshape hresolve (by simp only [measure, conjuncts, fold, hfold, he])

/-- What is joined is written as a list under the operator, unless it is merged into one map. -/
theorem Resolved.joined_eq_ok {op : Operator} (hkey : op.key.isKey)
    (ess : List (List (Value × Value))) :
    Predicate.joined op (ess.map .map) = .ok (.map [(op.key, .list (ess.map .map))]) ∨
      ∃ xs ys zs, op.key.isText "and" ∧ ess = [xs, ys] ∧ Json.merge xs ys = some zs ∧
        Predicate.joined op (ess.map .map) = .ok (.map zs) := by
  have hclauses : ∀ v ∈ ess.map Value.map, v.IsClause := by
    intro v hv
    obtain ⟨es, -, rfl⟩ := List.mem_map.mp hv
    trivial
  rcases Predicate.joined_cases hkey hclauses with hlist | ⟨xs, ys, zs, hop, hmaps, hmerge, hmap⟩
  · exact .inl hlist
  · have hinjective : Function.Injective Value.map := fun _ _ h => Value.map.inj h
    have hess : ess = [xs, ys] := List.map_injective_iff.mpr hinjective hmaps
    exact .inr ⟨xs, ys, zs, hop, hess, hmerge, hmap⟩

variable (alg)

mutual

/-- **The canonical form of a condition that can be read again** is a map, and its entries say what the
condition says. -/
theorem Resolved.weighs_canonical : ∀ (t : Resolved) {context : Context}, t.IsRereadable c context →
    ∃ es, t.canonical c context = .ok (.map es) ∧ (Value.map es).IsPlain ∧
      t.WrittenAs alg c context.schema es
  | .passthrough _, _, h => h.elim
  | .unary op operand, context, ⟨hop, hoperand⟩ => by
    obtain ⟨es, hes, hplain, hwritten⟩ := Resolved.weighs_canonical operand hoperand
    obtain ⟨hkey, hkeyPlain, -⟩ := hop.unary_key
    refine ⟨[(op.key, .map es)], ?_, ?_, writtenAs_unary hop hwritten (conjuncts_pos operand hoperand)⟩
    · rw [canonical, hes, ok_bind, Predicate.entry_of_isKey hkey]
    · simpa [hkey, hkeyPlain] using hplain
  | .logical op children, context, ⟨hop, hlength, hall⟩ => by
    obtain ⟨ess, hess, hplain, hwritten⟩ := Resolved.weighs_canonicalAll children hall
    obtain ⟨hkey, hkeyPlain, -⟩ := hop.logical_key
    rw [canonical, hess, ok_bind]
    rcases joined_eq_ok hkey ess with hjoined | ⟨xs, ys, zs, hand, rfl, hmerge, hjoined⟩
    · refine ⟨_, hjoined, ?_, writtenAs_list hop (hwritten.length_eq ▸ hlength) hwritten⟩
      simpa [hkey, hkeyPlain] using hplain
    · refine ⟨zs, hjoined, ?_, ?_⟩
      · exact Json.merge_isPlain ys (hplain xs (by simp)) (hplain ys (by simp)) hmerge
      · obtain - | ⟨⟨hxs, -⟩, - | ⟨⟨hys, -⟩, - | -⟩⟩ := hwritten
        rename_i t u
        have hmeasure : (Resolved.logical op [t, u]).measure alg = t.measure alg + u.measure alg := by
          simp [measure_logical_and alg hand]
        rw [WrittenAs, hmeasure]
        exact Json.weighs_merge Condition.weighing_weight hmerge hxs hys
  | .comparison op left right, context, ⟨hop, k, v, hk, hv, hkey, hright, l, r, hoperands, hl, hr⟩ => by
    obtain ⟨es, hes, hplain, hwritten⟩ :=
      writtenAs_comparison alg hop hkey hright hoperands hl hr
    refine ⟨es, ?_, hplain, hwritten⟩
    rw [canonical, hk, ok_bind, hv]
    exact hes
  | .quantified op collection body, context, ⟨hop, ⟨k, hk, hform, e, he, hstripped⟩, hbody⟩ => by
    obtain ⟨es, hes, hplain, hwritten⟩ := Resolved.weighs_canonical body hbody
    obtain ⟨hkey, hkeyPlain, -, -, -⟩ := hop.quantified_key
    refine ⟨[(k, .map [(op.key, .map es)])], ?_, ?_, writtenAs_quantified hop hform he hstripped hwritten
      (conjuncts_pos body hbody)⟩
    · rw [canonical, hk, ok_bind, hes, ok_bind, Predicate.entry_of_isKey hkey, ok_bind,
        Predicate.entry_of_isKey hform.isKey]
    · simpa [hform.isKey, hform.isPlain, hkey, hkeyPlain] using hplain

theorem Resolved.weighs_canonicalAll : ∀ (ts : List Resolved) {context : Context},
    Resolved.AllRereadable c context ts →
      ∃ ess, Resolved.canonicalAll c context ts = .ok (ess.map .map) ∧
        (∀ es ∈ ess, (Value.map es).IsPlain) ∧
          List.Forall₂ (fun es t => Resolved.WrittenAs alg c context.schema es t ∧ 1 ≤ t.conjuncts)
            ess ts
  | [], _, _ => ⟨[], rfl, by simp, .nil⟩
  | t :: ts, context, ⟨h, hall⟩ => by
    obtain ⟨es, hes, hplain, hwritten⟩ := Resolved.weighs_canonical t h
    obtain ⟨ess, hess, hplains, hwrittens⟩ := Resolved.weighs_canonicalAll ts hall
    refine ⟨es :: ess, ?_, List.forall_mem_cons.mpr ⟨hplain, hplains⟩,
      .cons ⟨hwritten, conjuncts_pos t h⟩ hwrittens⟩
    rw [canonicalAll, hes, ok_bind, hess]
    rfl

end

end

/-! ### Reading canonical forms -/

/-- The algebra in which all conditions are alike. -/
def Algebra.trivial : Algebra PUnit where
  passthrough _ := .unit
  unary _ _ := .unit
  disjunction _ _ := .unit
  comparison _ _ _ := .unit
  quantified _ _ _ := .unit
  quantified_literal := fun _ _ _ _ _ _ _ => rfl

/-- **Canonical forms are read as conditions of the same meaning.** If the operands of a condition are
written in forms that are read as operands of the same meaning, the canonical form of the condition is
read as a predicate whose condition has the same value in every algebra. -/
theorem Resolved.read_canonical {c : Catalog} {context : Context} {t : Resolved}
    (h : t.IsRereadable c context) (b : Builder) :
    ∃ v q b' u, t.canonical c context = .ok v ∧ v.IsPlain ∧
      outcome (Filter.read v) b = (.ok (some q), b') ∧ q.condition.resolve c context.schema = .ok u ∧
        ∀ {M : Type} [AddCommMonoid M] (alg : Algebra M), u.fold alg = t.fold alg := by
  obtain ⟨es, hes, hplain, hwritten⟩ := Resolved.weighs_canonical Algebra.trivial t h
  obtain ⟨s, u, hs, hpresent, hu, -⟩ := hwritten.exists_shape (conjuncts_pos t h)
  obtain ⟨q, b', hread, hq⟩ := Filter.read_of_shape (fun _ hv => hv) hplain hs hpresent b
  refine ⟨.map es, q, b', u, hes, hplain, hread, hq ▸ hu, fun alg => ?_⟩
  obtain ⟨es', hes', -, hwritten'⟩ := Resolved.weighs_canonical alg t h
  obtain ⟨s', u', hs', -, hu', hmeasure⟩ := hwritten'.exists_shape (conjuncts_pos t h)
  rw [hes] at hes'
  cases hes'
  rw [hs] at hs'
  cases hs'
  rw [hu] at hu'
  cases hu'
  exact congrArg Prod.snd hmeasure

end RecordFilter
