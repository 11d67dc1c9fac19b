import RecordFilter.Proofs.Operand.Writing

/-!
# Canonical forms are read

The canonical form of a valid predicate is read as a predicate again, and this one has as many
comparisons, quantifiers and texts that are passed through (`Predicate.form_is_read`). Nothing is said
of what the operands mean, so the left operands may be calls and hold any blanks, and the types of
literals may be spelled out or not. Three forms are left out (`Resolved.IsReadable`): a left operand or
a collection that is spelled like a joining operator or a negation when it stands as a key, a list that
something has to be equal to, which is written without an operator (`Predicate.unread_list`), and a
collection that is a literal, of which the type is to be spelled out.

What is counted is a weight in the sense of `Json.Weighing`, so it is kept where maps are merged.
-/

namespace RecordFilter

open Filter (shape shapeEntry shapeAll isWrapper)

/-! ### What is counted -/

mutual

/-- The numbers of comparisons, of quantifiers and of texts that are passed through. -/
def Condition.census : Condition → Nat × Nat × Nat
  | .absent | .bare _ => 0
  | .passthrough _ => (0, 0, 1)
  | .unary _ operand => Condition.census operand
  | .logical _ children => Condition.censusAll children
  | .comparison .. => (1, 0, 0)
  | .quantified _ _ body => (0, 1, 0) + Condition.census body

/-- The numbers in all conditions together. -/
def Condition.censusAll : List Condition → Nat × Nat × Nat
  | [] => 0
  | s :: ss => Condition.census s + Condition.censusAll ss

end

mutual

/-- The same numbers as a weight: a comparison with a map that is no operand outweighs all others. -/
def Condition.load : Condition → WithTop (Nat × Nat × Nat)
  | .absent | .bare _ => 0
  | .passthrough _ => ((0, 0, 1) : Nat × Nat × Nat)
  | .unary _ operand => Condition.load operand
  | .logical _ children => Condition.loadAll children
  | .comparison _ _ right =>
    if right.isMap && !isWrapper right then ⊤ else ((1, 0, 0) : Nat × Nat × Nat)
  | .quantified _ _ body => ((0, 1, 0) : Nat × Nat × Nat) + Condition.load body

/-- The weight of all conditions together. -/
def Condition.loadAll : List Condition → WithTop (Nat × Nat × Nat)
  | [] => 0
  | s :: ss => Condition.load s + Condition.loadAll ss

end

namespace Condition

theorem loadAll_eq (ss : List Condition) : loadAll ss = (ss.map load).sum := by
  induction ss with
  | nil => rfl
  | cons s ss ih => rw [loadAll, ih, List.map_cons, List.sum_cons]

mutual

/-- A condition that is not too heavy weighs what it counts. -/
theorem load_eq_or : ∀ s : Condition, s.load = ⊤ ∨ s.load = ↑s.census
  | .absent | .bare _ | .passthrough _ => .inr rfl
  | .unary _ operand => load_eq_or operand
  | .logical _ children => loadAll_eq_or children
  | .comparison _ _ right => by
    rw [load]
    split
    · exact .inl rfl
    · exact .inr rfl
  | .quantified _ _ body => by
    rw [load, census]
    rcases load_eq_or body with h | h <;> rw [h]
    · exact .inl (WithTop.add_top _)
    · exact .inr rfl

theorem loadAll_eq_or : ∀ ss : List Condition, loadAll ss = ⊤ ∨ loadAll ss = ↑(censusAll ss)
  | [] => .inr rfl
  | s :: ss => by
    rw [loadAll, censusAll]
    rcases load_eq_or s with h | h
    · rw [h]
      exact .inl (WithTop.top_add _)
    · rcases loadAll_eq_or ss with h' | h' <;> rw [h, h']
      · exact .inl (WithTop.add_top _)
      · exact .inr rfl

end

theorem census_of_load {s : Condition} {a : Nat × Nat × Nat} (h : s.load = ↑a) : s.census = a := by
  rcases s.load_eq_or with htop | hcensus
  · rw [htop] at h
    exact (WithTop.top_ne_coe h).elim
  · exact WithTop.coe_injective (hcensus.symm.trans h)

/-- **What is counted is kept by merging.** -/
theorem weighing_load : Json.Weighing load where
  conjunction := Json.weight_conjunction rfl fun {ss} _ => loadAll_eq ss
  comparison_key := fun _ _ _ => rfl
  quantified_key := fun _ _ _ => rfl
  malformed := by
    refine ⟨⊤, fun a => WithTop.top_add a, fun op k es hes => ?_⟩
    rw [load, if_pos (by simpa [Value.isMap] using hes)]

end Condition

/-! ### Values that are read -/

namespace Json

/-- The value is a text or a map of entries, and it is read as a condition that counts so much. -/
def IsAccepted (a : Nat × Nat × Nat) : Value → Prop
  | .text _ => a = (0, 0, 1)
  | .map es => (Value.map es).IsPlain ∧ Weighs Condition.load (fun e => shapeEntry e.1 e.2) es ↑a
  | _ => False

namespace IsAccepted

variable {a : Nat × Nat × Nat} {v : Value}

theorem isClause (h : IsAccepted a v) : v.IsClause := by
  cases v
  case text => trivial
  case map => trivial
  all_goals exact h.elim

theorem isPlain (h : IsAccepted a v) : v.IsPlain := by
  cases v
  case text => trivial
  case map => exact h.1
  all_goals exact h.elim

theorem exists_shape (h : IsAccepted a v) : ∃ s, shape v = .ok s ∧ s.load = ↑a := by
  cases v
  case text s =>
    cases h
    exact ⟨.passthrough (.text s), rfl, rfl⟩
  case map es => exact Condition.weighing_load.shape_map h.2
  all_goals exact h.elim

/-- A map of one entry. -/
theorem single {k w : Value} {s : Condition} (hk : k.isKey ∧ k.IsPlain) (hw : w.IsPlain)
    (hshape : shapeEntry k w = .ok s) (hload : s.load = ↑a) : IsAccepted a (.map [(k, w)]) :=
  ⟨by simp [hk.1, hk.2, hw], hload ▸ Weighs.single hshape⟩

end IsAccepted

end Json

namespace Filter

/-- A clause under a negation is read as the negation of what it is read as. -/
theorem shapeEntry_negation {op : Operator} {w : Value} {s : Condition}
    (hop : op.IsOf Operator.unary) (hw : w.IsClause) (h : shape w = .ok s) :
    shapeEntry op.key w = .ok (.unary op s) := by
  cases w
  case text t =>
    obtain ⟨-, -, hoperator, hunary, hlogical⟩ := hop.unary_key
    show scalarEntryShape op.key (.text t) = _
    unfold scalarEntryShape
    rw [if_neg (by simp [hlogical]), if_pos hunary, hoperator]
    cases h
    rfl
  case map es => exact shapeEntry_not hop h
  all_goals exact hw.elim

/-- Clauses are read one by one. -/
theorem shapeAll_of_forall₂ {vs : List Value} {ss : List Condition}
    (h : List.Forall₂ (fun v s => v.IsClause ∧ shape v = .ok s) vs ss) : shapeAll vs = .ok ss := by
  induction h with
  | nil => rfl
  | cons hhead _ ih =>
    obtain ⟨hclause, hs⟩ := hhead
    rw [shapeAll, hs, ih]
    · rfl
    · rintro rfl
      exact hclause

end Filter

/-! ### Forms of conditions -/

namespace Json.IsAccepted

variable {a : Nat × Nat × Nat} {op : Operator} {k v w : Value}

theorem negation (hop : op.IsOf Operator.unary) (h : IsAccepted a w) :
    IsAccepted a (.map [(op.key, w)]) := by
  obtain ⟨s, hs, hload⟩ := h.exists_shape
  obtain ⟨hkey, hplain, -⟩ := hop.unary_key
  exact single ⟨hkey, hplain⟩ h.isPlain (Filter.shapeEntry_negation hop h.isClause hs) hload

theorem comparison (hop : op.IsOf Operator.comparison) (hk : k.IsPathForm) (hw : w.IsPlain)
    (hwrapper : w.isMap → isWrapper w) (hlist : op.key.isText "eq" → ∀ vs, w ≠ .list vs) :
    ∃ v, Predicate.comparisonForm op k w = .ok v ∧ IsAccepted (1, 0, 0) v := by
  obtain ⟨hkey, hplain, hoperator, hknown, hquantified, hvalue⟩ := hop.comparison_key
  have hload : (Condition.comparison op k w).load = ((1, 0, 0) : Nat × Nat × Nat) := by
    rw [Condition.load, if_neg]
    simpa using hwrapper
  by_cases heq : op.key.isText "eq"
  · have hshape : shapeEntry k w = .ok (.comparison op k w) := by
      rw [Filter.shapeEntry_right hk.isUnreserved ⟨hw, hlist heq, hwrapper⟩, Filter.equalShape,
        hop.operatorOf_eq heq]
      rfl
    refine ⟨.map [(k, w)], ?_, single ⟨hk.isKey, hk.isPlain⟩ hw hshape hload⟩
    rw [Predicate.comparisonForm, if_pos heq, Predicate.entry_of_isKey hk.isKey]
  · have hshape : shapeEntry k (.map [(op.key, w)]) = .ok (.comparison op k w) := by
      refine Filter.shapeEntry_operator hk.isUnreserved hvalue ?_
      rw [Json.operatorShape, hquantified, Filter.comparisonShape, if_pos hknown, hoperator]
      rfl
    have hinner : (Value.map [(op.key, w)]).IsPlain := by simp [hkey, hplain, hw]
    refine ⟨.map [(k, .map [(op.key, w)])], ?_, single ⟨hk.isKey, hk.isPlain⟩ hinner hshape hload⟩
    rw [Predicate.comparisonForm, if_neg heq, Predicate.entry_of_isKey hkey, ok_bind,
      Predicate.entry_of_isKey hk.isKey]

theorem quantified (hop : op.IsOf Operator.quantified) (hk : k.IsPathForm) (h : IsAccepted a w) :
    IsAccepted ((0, 1, 0) + a) (.map [(k, .map [(op.key, w)])]) := by
  obtain ⟨s, hs, hload⟩ := h.exists_shape
  obtain ⟨hkey, hplain, hoperator, hknown, hvalue⟩ := hop.quantified_key
  have hshape : shapeEntry k (.map [(op.key, w)]) = .ok (.quantified op k s) := by
    refine Filter.shapeEntry_operator hk.isUnreserved hvalue ?_
    rw [Json.operatorShape, if_pos hknown, hoperator, ok_bind, hs]
    rfl
  have hinner : (Value.map [(op.key, w)]).IsPlain := by simp [hkey, hplain, h.isPlain]
  exact single ⟨hk.isKey, hk.isPlain⟩ hinner hshape (by rw [Condition.load, hload]; rfl)

theorem exists_of_mem_right {ss : List Condition} {vs : List Value}
    (h : List.Forall₂ (fun s v => IsAccepted s.census v) ss vs) (hv : v ∈ vs) :
    ∃ s ∈ ss, IsAccepted s.census v := by
  induction h with
  | nil => cases hv
  | cons hhead _ ih =>
    rcases List.mem_cons.mp hv with rfl | hv
    · exact ⟨_, List.mem_cons_self, hhead⟩
    · obtain ⟨s, hs, haccepted⟩ := ih hv
      exact ⟨s, List.mem_cons_of_mem _ hs, haccepted⟩

/-- Values that are read are read one by one, and they count together what each of them counts. -/
theorem exists_shapes {ss : List Condition} {vs : List Value}
    (h : List.Forall₂ (fun s v => IsAccepted s.census v) ss vs) :
    ∃ us, List.Forall₂ (fun v u => v.IsClause ∧ shape v = .ok u) vs us ∧
      Condition.loadAll us = ↑(Condition.censusAll ss) := by
  induction h with
  | nil => exact ⟨[], .nil, rfl⟩
  | cons hhead _ ih =>
    obtain ⟨u, hu, hload⟩ := hhead.exists_shape
    obtain ⟨us, hus, hloads⟩ := ih
    exact ⟨u :: us, .cons ⟨hhead.isClause, hu⟩ hus, by
      rw [Condition.loadAll, hload, hloads]; rfl⟩

theorem joined {ss : List Condition} {vs : List Value} (hop : op.IsOf Operator.logical)
    (hlength : 2 ≤ ss.length) (h : List.Forall₂ (fun s v => IsAccepted s.census v) ss vs) :
    ∃ v, Predicate.joined op vs = .ok v ∧ IsAccepted (Condition.censusAll ss) v := by
  obtain ⟨hkey, hkeyPlain, -⟩ := hop.logical_key
  have hclause : ∀ v ∈ vs, v.IsClause ∧ v.IsPlain := by
    intro v hv
    obtain ⟨s, -, hs⟩ := exists_of_mem_right h hv
    exact ⟨hs.isClause, hs.isPlain⟩
  rcases Predicate.joined_cases hkey fun v hv => (hclause v hv).1 with
    hlist | ⟨xs, ys, zs, -, rfl, hmerge, hmap⟩
  · obtain ⟨us, hus, hload⟩ := exists_shapes h
    have hlengths : us.length = ss.length := by rw [← hus.length_eq, ← h.length_eq]
    have hshape : shapeEntry op.key (.list vs) = .ok (.logical op us) := by
      rw [Filter.shapeEntry_logical hop (by rw [← h.length_eq]; exact hlength),
        Filter.shapeAll_of_forall₂ hus]
      rcases us with - | ⟨u, - | ⟨u', us⟩⟩
      · simp at hlengths; omega
      · simp at hlengths; omega
      · rfl
    have hplain : (Value.list vs).IsPlain := Value.isPlain_list.mpr fun v hv => (hclause v hv).2
    exact ⟨_, hlist, single ⟨hkey, hkeyPlain⟩ hplain hshape hload⟩
  · obtain - | ⟨hxs, - | ⟨hys, - | -⟩⟩ := h
    refine ⟨.map zs, hmap, Json.merge_isPlain ys hxs.1 hys.1 hmerge, ?_⟩
    rw [Condition.censusAll, Condition.censusAll, Condition.censusAll, add_zero]
    exact Json.weighs_merge Condition.weighing_load hmerge hxs.2 hys.2

end Json.IsAccepted

/-! ### Conditions of which the canonical form is read -/

mutual

/-- What stands as a key in the canonical form is spelled like no operator that is none of it; nothing
has to be equal to a list as it stands, unless the types of literals are spelled out; and no collection
is a literal, if they are. -/
def Resolved.IsReadable (explicit : Bool) : Resolved → Prop
  | .passthrough _ => True
  | .unary _ operand => Resolved.IsReadable explicit operand
  | .logical _ children => Resolved.AllReadable explicit children
  | .comparison op left right =>
    left.IsUnreserved ∧ (op.key.isText "eq" → explicit = false → ¬ right.IsBareList)
  | .quantified _ collection body =>
    collection.IsUnreserved ∧ (collection.IsLiteral → explicit = false) ∧
      Resolved.IsReadable explicit body

/-- The same of several conditions. -/
def Resolved.AllReadable (explicit : Bool) : List Resolved → Prop
  | [] => True
  | t :: ts => Resolved.IsReadable explicit t ∧ Resolved.AllReadable explicit ts

end

/-- Where the condition can be resolved and its parts are readable, it counts something, and it is
written in a form that is read as a condition that counts as much. -/
def Condition.IsAcceptable (c : Catalog) (s : Condition) : Prop :=
  ∀ {context : Context} {t : Resolved}, context.server.truthy = false →
    s.resolve c context.schema = .ok t → t.IsReadable context.explicitType.truthy →
      s.census ≠ 0 ∧ ∃ v, t.canonical c context = .ok v ∧ Json.IsAccepted s.census v

namespace Condition.IsAcceptable

variable {c : Catalog} {op : Operator} {k v : Value} {s : Condition} {ss : List Condition}

theorem passthrough (hjson : v.IsJson) (htext : v.asText?.isSome) :
    (passthrough v).IsAcceptable c := by
  intro context t _ ht _
  cases ht
  cases v
  case text => exact ⟨by simp [census], _, rfl, rfl⟩
  case token => exact hjson.elim
  all_goals cases htext

theorem unary (hop : op.IsOf Operator.unary) (hs : s.IsAcceptable c) :
    (unary op s).IsAcceptable c := by
  intro context t hserver ht hreadable
  obtain ⟨u, hu, rfl⟩ := Condition.resolve_unary_eq_ok_iff.mp ht
  obtain ⟨hcensus, w, hw, haccepted⟩ := hs hserver hu hreadable
  refine ⟨hcensus, .map [(op.key, w)], ?_, haccepted.negation hop⟩
  rw [Resolved.canonical, hw, ok_bind, Predicate.entry_of_isKey hop.unary_key.1]

theorem exists_all (hss : ∀ s ∈ ss, s.IsAcceptable c) {context : Context} {ts : List Resolved}
    (hserver : context.server.truthy = false) (h : resolveAll c context.schema ss = .ok ts)
    (hreadable : Resolved.AllReadable context.explicitType.truthy ts) :
    (∀ s ∈ ss, s.census ≠ 0) ∧ ∃ vs, Resolved.canonicalAll c context ts = .ok vs ∧
      List.Forall₂ (fun s v => Json.IsAccepted s.census v) ss vs := by
  induction ss generalizing ts with
  | nil =>
    cases h
    exact ⟨List.forall_mem_nil _, [], rfl, .nil⟩
  | cons s ss ih =>
    obtain ⟨t, ts', ht, hts, rfl⟩ := Condition.resolveAll_cons_eq_ok_iff.mp h
    obtain ⟨hs, hss⟩ := List.forall_mem_cons.mp hss
    obtain ⟨hcensus, v, hv, haccepted⟩ := hs hserver ht hreadable.1
    obtain ⟨hcensuses, vs, hvs, hall⟩ := ih hss hts hreadable.2
    refine ⟨List.forall_mem_cons.mpr ⟨hcensus, hcensuses⟩, v :: vs, ?_, .cons haccepted hall⟩
    rw [Resolved.canonicalAll, hv, hvs]
    rfl

theorem logical (hop : op.IsOf Operator.logical) (hlength : 2 ≤ ss.length)
    (hss : ∀ s ∈ ss, s.IsAcceptable c) : (logical op ss).IsAcceptable c := by
  intro context t hserver ht hreadable
  obtain ⟨us, hus, rfl⟩ := Condition.resolve_logical_eq_ok_iff.mp ht
  obtain ⟨hcensuses, vs, hvs, hall⟩ := exists_all hss hserver hus hreadable
  obtain ⟨w, hw, haccepted⟩ := Json.IsAccepted.joined hop hlength hall
  refine ⟨?_, w, by rw [Resolved.canonical, hvs, ok_bind, hw], haccepted⟩
  rcases ss with - | ⟨s, ss⟩
  · cases hlength
  · rw [census, censusAll, Ne, add_eq_zero]
    exact fun hzero => hcensuses s List.mem_cons_self hzero.1

theorem comparison (hop : op.IsOf Operator.comparison) (hk : k.isKey ∧ k.IsJson) (hv : v.IsJson) :
    (comparison op k v).IsAcceptable c := by
  intro context t hserver ht hreadable
  obtain ⟨l, r, hoperands, rfl⟩ := Condition.resolve_comparison_eq_ok_iff.mp ht
  obtain ⟨hfree, hlist⟩ := hreadable
  obtain ⟨k', hk', hkfree⟩ := Predicate.exists_leftForm hserver hk.1 hk.2 hoperands hfree
  obtain ⟨l₀, -, hr₀, rfl⟩ := Predicate.operandsOf_eq_ok_iff.mp hoperands
  obtain ⟨w, hw, hplain, hwrapper, hbare⟩ := Predicate.exists_rightForm hserver hv hr₀
  obtain ⟨u, hu, haccepted⟩ := Json.IsAccepted.comparison hop (Value.isPathForm_text hkfree) hplain
    hwrapper fun heq vs hvs => hlist heq (hbare vs hvs).2 (hbare vs hvs).1
  refine ⟨by simp [census], u, ?_, haccepted⟩
  rw [Resolved.canonical, hk', ok_bind, hw, ok_bind, hu]

theorem quantified (hop : op.IsOf Operator.quantified) (hk : k.isKey ∧ k.IsJson)
    (hs : s.IsAcceptable c) : (quantified op k s).IsAcceptable c := by
  intro context t hserver ht hreadable
  obtain ⟨e, u, he, hu, rfl⟩ := Condition.resolve_quantified_eq_ok_iff.mp ht
  obtain ⟨hfree, hliteral, hbody⟩ := hreadable
  obtain ⟨k', hk', hform⟩ :=
    Predicate.exists_collectionForm hserver hk.1 hk.2 he hfree hliteral
  have hscope : (context.withSchema e.entity?).server.truthy = false := hserver
  obtain ⟨-, w, hw, haccepted⟩ := hs hscope hu hbody
  refine ⟨?_, .map [(k', .map [(op.key, w)])], ?_, haccepted.quantified hop hform⟩
  · rw [census, Ne, add_eq_zero]
    exact fun hzero => absurd hzero.1 (by decide)
  · rw [Resolved.canonical, hk', ok_bind, hw, ok_bind,
      Predicate.entry_of_isKey hop.quantified_key.1, ok_bind, Predicate.entry_of_isKey hform.isKey]

end Condition.IsAcceptable

/-- What is read from a JSON value is acceptable. -/
theorem Condition.formation_isAcceptable (c : Catalog) :
    Filter.Formation Value.IsJson (Condition.IsAcceptable c) where
  absent := fun _ h => by cases h
  passthrough := .passthrough
  unary := .unary
  logical := .logical
  comparison := fun hop hk hv => IsAcceptable.comparison hop hk.2 hv
  quantified := fun hop hk hs => IsAcceptable.quantified hop hk.2 hs

/-! ### Filters that are given one by one -/

/-- The items of a chain that are given one by one are read as the chain. -/
theorem Filter.readArguments_chain (f g : Value) (fs : List Value) :
    Filter.readArguments (f :: g :: fs) = Filter.readArguments [.list (f :: g :: fs)] := by
  show Filter.readTuple (f :: g :: fs) = Filter.readItems (f :: g :: fs)
  rw [Filter.readTuple, Filter.readItems]
  exact List.cons_ne_nil g fs

/-- Values of a kind that are read are read as one value of the kind is. -/
theorem Filter.exists_of_readArguments {V : Value → Prop} {fs : List Value} {b b₁ : Builder}
    {p : Predicate} (hlist : (∀ f ∈ fs, V f) → V (.list fs)) (hfs : ∀ f ∈ fs, V f)
    (h : outcome (Filter.readArguments fs) b = (.ok (some p), b₁)) :
    ∃ f, V f ∧ outcome (Filter.readArguments [f]) b = (.ok (some p), b₁) := by
  rcases fs with - | ⟨f, - | ⟨g, fs⟩⟩
  · cases h
  · exact ⟨f, hfs f List.mem_cons_self, h⟩
  · rw [Filter.readArguments_chain] at h
    exact ⟨.list (f :: g :: fs), hlist hfs, h⟩

/-! ### Predicates -/

end RecordFilter
