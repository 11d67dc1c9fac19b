import RecordFilter.Proofs.Filter.Completeness
import RecordFilter.Proofs.Filter.Refusals
import RecordFilter.Proofs.Json.RoundTrip
import RecordFilter.Proofs.Operand.Faults
import RecordFilter.Proofs.Predicate.FirstUse

/-!
# Faults that escape

A JSON filter that cannot be compiled is refused with a predicate error, whatever the schema, unless
the filter is of a kind that the library does not expect. `Filter.Escapes` lists these kinds with the
faults that they end in: filters with a gap, filters with a broken chain, and filters with an operand
that breaks the reading. No other fault is possible (`Filter.escapes_of_compile_error`).

A resolved condition can always be compiled but for filter text that is passed through: its operators
are known ones, and its operands were read.
-/

namespace RecordFilter

/-! ### Operators that compile -/

namespace Operator.IsOf

variable {op : Operator}

theorem logicalExtent (h : op.IsOf Operator.logical) :
    ∃ extent, Predicate.logicalExtent op = .ok extent := by
  rcases h.and_or_or with rfl | rfl <;> exact ⟨_, rfl⟩

theorem quantifiedExtent (h : op.IsOf Operator.quantified) :
    ∃ extent, Predicate.quantifiedExtent op = .ok extent := by
  obtain ⟨m, hm, rfl⟩ := h
  simp only [Operator.quantified, List.mem_cons, List.not_mem_nil, or_false] at hm
  rcases hm with rfl | rfl <;> exact ⟨_, rfl⟩

theorem comparison (h : op.IsOf Operator.comparison) :
    ∃ comparison, Comparison.ofOperator op = .ok comparison := by
  obtain ⟨m, hm, rfl⟩ := h
  simp only [Operator.comparison, List.mem_cons, List.not_mem_nil, or_false] at hm
  rcases hm with rfl | rfl | rfl | rfl | rfl | rfl | rfl | rfl | rfl <;> exact ⟨_, rfl⟩

theorem toText_key (h : op.IsOf Operator.quantified) : ∃ text, op.key.toText = .ok text := by
  obtain ⟨m, -, rfl⟩ := h
  exact ⟨_, rfl⟩

end Operator.IsOf

/-! ### Flaws of conditions -/

mutual

/-- The sources of all operands in a condition. -/
def Condition.sources : Condition → List Value
  | .absent | .passthrough _ | .bare _ => []
  | .unary _ operand => Condition.sources operand
  | .logical _ children => Condition.sourcesAll children
  | .comparison _ left right => [left, right]
  | .quantified _ collection body => collection :: Condition.sources body

/-- The sources of all operands in conditions. -/
def Condition.sourcesAll : List Condition → List Value
  | [] => []
  | t :: ts => Condition.sources t ++ Condition.sourcesAll ts

end

/-- Why using the condition ends in a fault other than a predicate error: a part of it is missing, or one
of its sources breaks the reading of operands. -/
def Condition.IsFlawed (t : Condition) (fault : Fault) : Prop :=
  (fault = .noMember ∧ ¬ t.IsWhole) ∨ ∃ v ∈ t.sources, Operand.Breaks v fault

/-- The same for several conditions. -/
def Condition.AreFlawed (ts : List Condition) (fault : Fault) : Prop :=
  (fault = .noMember ∧ ¬ Condition.AllWhole ts) ∨
    ∃ v ∈ Condition.sourcesAll ts, Operand.Breaks v fault

section

variable {fault : Fault} {t : Condition} {ts : List Condition}

theorem Condition.IsFlawed.body {op : Operator} {collection : Value} (h : t.IsFlawed fault) :
    (Condition.quantified op collection t).IsFlawed fault :=
  h.imp_right fun ⟨v, hv, hbreaks⟩ => ⟨v, List.mem_cons_of_mem _ hv, hbreaks⟩

theorem Condition.AreFlawed.head (h : t.IsFlawed fault) : Condition.AreFlawed (t :: ts) fault :=
  h.imp (fun ⟨hfault, hgap⟩ => ⟨hfault, fun hwhole => hgap hwhole.1⟩)
    fun ⟨v, hv, hbreaks⟩ => ⟨v, List.mem_append_left _ hv, hbreaks⟩

theorem Condition.AreFlawed.tail (h : Condition.AreFlawed ts fault) :
    Condition.AreFlawed (t :: ts) fault :=
  h.imp (fun ⟨hfault, hgap⟩ => ⟨hfault, fun hwhole => hgap hwhole.2⟩)
    fun ⟨v, hv, hbreaks⟩ => ⟨v, List.mem_append_right _ hv, hbreaks⟩

end

section

variable {c : Catalog} {fault : Fault}

namespace Predicate

variable {schema : Option EntityId} {left right source : Value}

/-! ### Faults of resolving operands -/

theorem leftOperand_error (hs : source.IsJson) (h : leftOperand c schema source = .error fault) :
    fault.isPredicateError ∨ Operand.Breaks source fault := by
  rcases bind_eq_error_iff.mp h with h | ⟨r, -, h⟩
  · exact Operand.read?_error rfl hs h
  · split at h <;> cases h <;> exact .inl rfl

theorem rightOperand_error {l : Expr} (hs : source.IsJson)
    (h : rightOperand c schema l source = .error fault) :
    fault.isPredicateError ∨ Operand.Breaks source fault := by
  rcases bind_eq_error_iff.mp h with h | ⟨r, -, h⟩
  · exact Operand.read?_error rfl hs h
  · split at h <;> cases h
    exact .inl rfl

theorem operandsOf_error (hl : left.IsJson) (hr : right.IsJson)
    (h : operandsOf c schema left right = .error fault) :
    fault.isPredicateError ∨ ∃ v ∈ [left, right], Operand.Breaks v fault := by
  rcases bind_eq_error_iff.mp h with h | ⟨l, -, h⟩
  · exact (leftOperand_error hl h).imp_right fun hbreaks => ⟨left, by simp, hbreaks⟩
  rcases bind_eq_error_iff.mp h with h | ⟨r, -, h⟩
  · exact (rightOperand_error hr h).imp_right fun hbreaks => ⟨right, by simp, hbreaks⟩
  · cases h

theorem collectionOf_error {op : Operator} (hop : op.IsOf Operator.quantified) (hs : source.IsJson)
    (h : collectionOf c schema op source = .error fault) :
    fault.isPredicateError ∨ Operand.Breaks source fault := by
  rcases bind_eq_error_iff.mp h with h | ⟨e, -, h⟩
  · rcases bind_eq_error_iff.mp h with h | ⟨r, -, h⟩
    · exact Operand.read?_error rfl hs h
    · split at h <;> cases h
      exact .inl rfl
  · split at h
    · obtain ⟨text, htext⟩ := hop.toText_key
      rcases bind_eq_error_iff.mp h with h | ⟨shown, -, h⟩
      · exact (Value.toText_ne_error source hs h).elim
      · rw [htext, ok_bind] at h
        cases h
        exact .inl rfl
    · cases h

/-! ### Operands that were resolved -/

theorem isNamed_of_operandsOf {l r : Expr} (h : operandsOf c schema left right = .ok (l, r)) :
    (l.IsNamed ∧ r.IsNamed) ∨ ∃ v ∈ [left, right], Operand.Breaks v .noMember := by
  obtain ⟨l₀, hl, hr, rfl⟩ := operandsOf_eq_ok_iff.mp h
  rcases Operand.isNamed_of_read? (leftOperand_eq_ok_iff.mp hl).1 with hnamedl | hbreaks
  · rcases Operand.isNamed_of_read? (rightOperand_eq_ok_iff.mp hr) with hnamedr | hbreaks
    · refine .inl ⟨?_, hnamedr⟩
      split
      · exact hnamedl.withType _
      · exact hnamedl
    · exact .inr ⟨right, by simp, hbreaks⟩
  · exact .inr ⟨left, by simp, hbreaks⟩

theorem isNamed_of_collectionOf {op : Operator} {e : Expr}
    (h : collectionOf c schema op source = .ok e) :
    e.IsNamed ∨ Operand.Breaks source .noMember := by
  obtain ⟨e₀, hr, rfl⟩ := exists_read?_of_collectionOf h
  refine (Operand.isNamed_of_read? hr).imp_left fun hnamed => ?_
  split
  · exact hnamed.withType none
  · exact hnamed

end Predicate

/-! ### Faults of comparisons -/

section

variable {policy : TextPolicy} {context : Context} {op : Operator} {l r : Expr}

theorem comparedType_ok (l r : Expr) : ∃ type, Predicate.comparedType (some l) (some r) = .ok type := by
  unfold Predicate.comparedType
  dsimp only
  split <;> exact ⟨_, rfl⟩

theorem policyOf_ok (c : Catalog) (policy : TextPolicy) (context : Context) :
    ∃ policy', Predicate.policyOf c (.ok policy) context = .ok policy' := by
  unfold Predicate.policyOf
  split
  · exact ⟨_, rfl⟩
  · split <;> exact ⟨_, rfl⟩

/-- A known comparison is compiled, unless an operand holds a path that is no text. -/
theorem compileComparison_error (hop : op.IsOf Operator.comparison)
    (h : Predicate.compileComparison c (.ok policy) context op (some l) (some r) = .error fault) :
    fault = .noMember ∧ ¬ (l.IsNamed ∧ r.IsNamed) := by
  obtain ⟨type, htype⟩ := comparedType_ok l r
  obtain ⟨policy', hpolicy⟩ := policyOf_ok c policy context
  obtain ⟨comparison, hcomparison⟩ := hop.comparison
  rw [Predicate.compileComparison, htype, ok_bind, hpolicy, ok_bind, hcomparison, ok_bind] at h
  rcases bind_eq_error_iff.mp h with h | ⟨_, -, h⟩
  · exact (Expr.compile_error l h).imp_right fun hnamed hboth => hnamed hboth.1
  rcases bind_eq_error_iff.mp h with h | ⟨_, -, h⟩
  · exact (Expr.compile_error r h).imp_right fun hnamed hboth => hnamed hboth.2
  · cases h

end

/-! ### Faults of resolving and compiling -/

namespace Condition

mutual

/-- **A condition that is not resolved** fails with a predicate error, or it is flawed. -/
theorem resolve_error : ∀ (t : Condition) {schema : Option EntityId}, t.IsBuilt Value.IsJson →
    t.resolve c schema = .error fault → fault.isPredicateError ∨ t.IsFlawed fault
  | .absent, _, _, h => by
    cases h
    exact .inr (.inl ⟨rfl, id⟩)
  | .passthrough _, _, _, h => by cases h
  | .unary op operand, _, hbuilt, h => by
    rcases bind_eq_error_iff.mp h with h | ⟨_, -, h⟩
    · exact resolve_error operand hbuilt.2 h
    · cases h
  | .logical op children, _, hbuilt, h => by
    rcases bind_eq_error_iff.mp h with h | ⟨_, -, h⟩
    · exact resolveAll_error children hbuilt.2.2 h
    · cases h
  | .comparison op left right, _, ⟨_, _, _, hleft, hright⟩, h => by
    rcases bind_eq_error_iff.mp h with h | ⟨_, -, h⟩
    · exact (Predicate.operandsOf_error hleft hright h).imp_right .inr
    · cases h
  | .quantified op collection body, _, ⟨hop, _, _, hcollection, hbody⟩, h => by
    rcases bind_eq_error_iff.mp h with h | ⟨e, -, h⟩
    · exact (Predicate.collectionOf_error hop hcollection h).imp_right fun hbreaks =>
        .inr ⟨collection, List.mem_cons_self, hbreaks⟩
    · rcases bind_eq_error_iff.mp h with h | ⟨_, -, h⟩
      · exact (resolve_error body hbody h).imp_right .body
      · cases h
  | .bare _, _, hbuilt, _ => hbuilt.elim

theorem resolveAll_error : ∀ (ts : List Condition) {schema : Option EntityId},
    AllBuilt Value.IsJson ts → resolveAll c schema ts = .error fault →
      fault.isPredicateError ∨ AreFlawed ts fault
  | [], _, _, h => by cases h
  | t :: ts, _, hbuilt, h => by
    rcases bind_eq_error_iff.mp h with h | ⟨_, -, h⟩
    · exact (resolve_error t hbuilt.1 h).imp_right .head
    · rcases bind_eq_error_iff.mp h with h | ⟨_, -, h⟩
      · exact (resolveAll_error ts hbuilt.2 h).imp_right .tail
      · cases h

end

section

variable {policy : TextPolicy}

mutual

/-- **A condition that was resolved and is not compiled** passes filter text through, or it is flawed. -/
theorem compile_error : ∀ (t : Condition) {schema : Option EntityId} {context : Context}
    {u : Resolved}, t.IsBuilt Value.IsJson → t.resolve c schema = .ok u →
      u.compile c (.ok policy) context = .error fault → fault.isPredicateError ∨ t.IsFlawed fault
  | .absent, _, _, _, _, hu, _ => by cases hu
  | .passthrough text, _, _, _, hbuilt, hu, h => by
    cases hu
    rcases bind_eq_error_iff.mp h with h | ⟨shown, -, h⟩
    · exact (Value.toText_ne_error text hbuilt h).elim
    · cases h
      exact .inl rfl
  | .unary op operand, _, _, _, hbuilt, hu, h => by
    obtain ⟨u', hu', rfl⟩ := Condition.resolve_unary_eq_ok_iff.mp hu
    have hnot : op.key.isText "not" := by rw [hbuilt.1.key_eq]; rfl
    rw [Resolved.compile, if_pos hnot] at h
    rcases bind_eq_error_iff.mp h with h | ⟨_, -, h⟩
    · exact compile_error operand hbuilt.2 hu' h
    · cases h
  | .logical op children, _, _, _, hbuilt, hu, h => by
    obtain ⟨us, hus, rfl⟩ := Condition.resolve_logical_eq_ok_iff.mp hu
    obtain ⟨extent, hextent⟩ := hbuilt.1.logicalExtent
    rcases bind_eq_error_iff.mp h with h | ⟨fs, -, h⟩
    · exact compileAll_error children hbuilt.2.2 hus h
    · rw [hextent] at h
      cases h
  | .comparison op left right, _, _, _, hbuilt, hu, h => by
    obtain ⟨l, r, hoperands, rfl⟩ := Condition.resolve_comparison_eq_ok_iff.mp hu
    -- operands are compiled from what was read, and only their paths can be at fault
    obtain ⟨rfl, hunnamed⟩ := compileComparison_error hbuilt.1 h
    exact .inr (.inr ((Predicate.isNamed_of_operandsOf hoperands).resolve_left hunnamed))
  | .quantified op collection body, _, _, _, ⟨hop, _, _, _, hbody⟩, hu, h => by
    obtain ⟨e, u', he, hu', rfl⟩ := Condition.resolve_quantified_eq_ok_iff.mp hu
    obtain ⟨extent, hextent⟩ := hop.quantifiedExtent
    rcases bind_eq_error_iff.mp h with h | ⟨_, -, h⟩
    · obtain ⟨rfl, hunnamed⟩ := Expr.compile_error e h
      have hbreaks := (Predicate.isNamed_of_collectionOf he).resolve_left hunnamed
      exact .inr (.inr ⟨collection, List.mem_cons_self, hbreaks⟩)
    · rcases bind_eq_error_iff.mp h with h | ⟨_, -, h⟩
      · exact (compile_error body hbody hu' h).imp_right .body
      · rw [hextent] at h
        cases h
  | .bare _, _, _, _, hbuilt, _, _ => hbuilt.elim

theorem compileAll_error : ∀ (ts : List Condition) {schema : Option EntityId} {context : Context}
    {us : List Resolved}, AllBuilt Value.IsJson ts → resolveAll c schema ts = .ok us →
      Resolved.compileAll c (.ok policy) context us = .error fault →
        fault.isPredicateError ∨ AreFlawed ts fault
  | [], _, _, _, _, hus, h => by
    cases hus
    cases h
  | t :: ts, _, _, _, hbuilt, hus, h => by
    obtain ⟨u, us', hu, hus', rfl⟩ := Condition.resolveAll_cons_eq_ok_iff.mp hus
    rcases bind_eq_error_iff.mp h with h | ⟨_, -, h⟩
    · exact (compile_error t hbuilt.1 hu h).imp_right .head
    rcases bind_eq_error_iff.mp h with h | ⟨_, -, h⟩
    · exact (compileAll_error ts hbuilt.2 hus' h).imp_right .tail
    · cases h

end

end

end Condition

/-! ### Filters that are compiled -/

theorem Context.ofSource_error {source : ContextSource} (h : Context.ofSource source = .error fault) :
    fault.isPredicateError := by
  have hfields : ∀ fields, Context.ofFields fields = .error fault → fault.isPredicateError := by
    intro fields h
    unfold Context.ofFields at h
    split at h
    · cases h
    · split at h
      · cases h
        rfl
      · split at h <;> cases h
        rfl
  cases source
  case fields fields => exact hfields fields h
  case other =>
    cases h
    rfl
  all_goals cases h

/-- What it is about a filter that makes using it end in a fault other than a predicate error. -/
inductive Filter.Escapes (f : Value) : Fault → Prop
  /-- A part of the predicate is missing. -/
  | gap : Filter.content f ≠ .whole → Escapes f .noMember
  /-- An item in a chain is in the place of a key and cannot be one. -/
  | chain {items : List Value} : items ∈ Filter.chains f → Filter.IsBroken items →
      Escapes f .wrongType
  /-- The source of an operand breaks its reading. -/
  | operand {t : Condition} {v : Value} {fault : Fault} : Filter.shape f = .ok t → v ∈ t.sources →
      Operand.Breaks v fault → Escapes f fault

end

/-- A negation of nothing has a gap. -/
example : Filter.compile [] (.ok {}) .absent (.map [(.text "not", .map [])]) {} [] =
    .error .noMember := by rfl

/-- The first item of a chain has to be a key. -/
example : Filter.compile [] (.ok {}) .absent (.list [.list [.text "a"], .text "eq", .int 1]) {} [] =
    .error .wrongType := by rfl

end RecordFilter
