import RecordFilter.CommandLine.Run
import RecordFilter.Proofs.Json.Values
import RecordFilter.Proofs.Predicate.Comparisons
import RecordFilter.Proofs.Predicate.FirstUse

/-!
# The records that a filter selects

What `evaluate` prints is a selection: the records, in their order, on which a filter holds in a context
(`Filter.selection`). The policy for comparing texts may come from the context or from elsewhere, and two
sources that tell no comparison of the filter apart select the same records, or fail alike
(`Filter.selection_eq_of_isSame`).

In a filter without quantifiers all comparisons stand in the scope of the schema
(`Predicate.scope_eq_of_isUnquantified`), so there one policy counts, wherever it comes from
(`Filter.selection_eq_of_isUnquantified`).
-/

namespace RecordFilter

/-! ### Selecting -/

namespace CommandLine

/-- Records are selected in their order. -/
theorem sublist_of_select {test : Value → Except Fault Bool} :
    ∀ {records selected : List Value}, select test records = .ok selected → selected.Sublist records
  | [], _, h => by
    cases h
    exact .slnil
  | r :: rs, selected, h => by
    rw [select] at h
    obtain ⟨x, -, h⟩ := bind_eq_ok_iff.mp h
    cases x with
    | false => exact (sublist_of_select h).cons r
    | true =>
      obtain ⟨more, hmore, h⟩ := bind_eq_ok_iff.mp h
      cases h
      exact (sublist_of_select hmore).cons_cons r

end CommandLine

namespace Filter

/-- The records that a filter selects in a context. -/
def selection (c : Catalog) (default : Except Fault TextPolicy) (context : Context) (f : Value)
    (records : List Value) : Except Fault (List Value) := do
  let program ← compile c default (.ready context) f {} []
  CommandLine.select (fun r => (program.result r).map Value.truthy) records

/-- The comparisons of a filter under a schema: none, if it is not valid there. -/
def comparisons (c : Catalog) (schema : Option EntityId) (f : Value) : List ScopedComparison :=
  match (outcome (readArguments [f]) {}).1 with
  | .ok (some p) =>
    match outcome ((Node.predicate p).validate c schema) [] with
    | (.ok (), notes) => p.comparisons notes schema
    | _ => []
  | _ => []

end Filter

/-- **A node whose comparisons are the same selects the same records**, or fails alike. -/
theorem Node.select_eq_of_isSame {s s' : PolicySources}
    (hcatalogs : s.catalog.SameButPolicies s'.catalog) {context : Context} {n : Node} {notes : Notes}
    (hsame : ∀ notes', outcome (n.validate s.catalog context.schema) notes = (.ok (), notes') →
      ∀ x ∈ n.comparisons notes' context.schema, x.IsSame s s') (records : List Value) :
    (do
      let program ← (outcome (n.compile s.catalog s.default (.ready (s.under context))) notes).1
      CommandLine.select (fun r => (program.result r).map Value.truthy) records) =
    (do
      let program ← (outcome (n.compile s'.catalog s'.default (.ready (s'.under context))) notes).1
      CommandLine.select (fun r => (program.result r).map Value.truthy) records) := by
  have hsource : Context.ofSource (.ready (s.under context)) = .ok (s.under context) := rfl
  have hsource' : Context.ofSource (.ready (s'.under context)) = .ok (s'.under context) := rfl
  obtain ⟨halike, hnotes⟩ := Node.compile_of_isSame hcatalogs hsource hsource' hsame
  rcases h : outcome (n.compile s.catalog s.default (.ready (s.under context))) notes with
    ⟨fault | program, notes'⟩ <;>
  rcases h' : outcome (n.compile s'.catalog s'.default (.ready (s'.under context))) notes with
    ⟨fault' | program', notes''⟩
  all_goals rw [h, h'] at halike hnotes
  · cases halike with
    | error hfault => rw [hfault]
  · cases halike
  · cases halike
  · obtain rfl : notes' = notes'' := hnotes
    obtain ⟨_, _, ⟨⟩, hvalidate, -, rfl⟩ := Node.compile_ok_iff.mp h
    obtain ⟨_, _, ⟨⟩, -, -, rfl⟩ := Node.compile_ok_iff.mp h'
    -- both programs are that of the node with the notes of one and the same check
    have hfunction := Node.function_eq notes' n context (hsame notes' hvalidate)
    have hresult : ∀ r, (s.program n context notes').result r = (s'.program n context notes').result r :=
      fun r => congrArg (fun f : Except Fault Node.Result => do (← f) r) hfunction
    exact congrArg (CommandLine.select · records)
      (funext fun r => congrArg (Except.map Value.truthy) (hresult r))

namespace Filter

/-- **Policies that tell no comparison apart select the same records.** The schema and the settings are
the same; only the context gives one policy or another, or none. -/
theorem selection_eq_of_isSame {c : Catalog} {default : Except Fault TextPolicy}
    {schema : Option EntityId} {f : Value} {given given' : Option TextPolicy}
    (h : ∀ x ∈ comparisons c schema f, x.IsSame ⟨given, c, default⟩ ⟨given', c, default⟩)
    (records : List Value) :
    selection c default { schema, policy := given } f records =
      selection c default { schema, policy := given' } f records := by
  rw [selection, selection, compile, compile, use, use]
  rcases hread : (outcome (readArguments [f]) {}).1 with fault | - | p
  · rfl
  · rfl
  let s : PolicySources := ⟨given, c, default⟩
  let s' : PolicySources := ⟨given', c, default⟩
  refine @Node.select_eq_of_isSame s s' rfl { schema } (.predicate p) []
    (fun notes' hvalidate => ?_) records
  have hvalidate : outcome ((Node.predicate p).validate c schema) [] = (.ok (), notes') := hvalidate
  rw [comparisons, hread] at h
  dsimp only at h
  rw [hvalidate] at h
  exact h

end Filter

/-! ### Filters without quantifiers -/

mutual

/-- No quantifier stands in the predicate. -/
def Predicate.IsUnquantified : Predicate → Prop
  | .passthrough .. | .comparison .. => True
  | .unary _ _ operand => Predicate.UnquantifiedOption operand
  | .logical _ _ children => Predicate.UnquantifiedAll children
  | .quantified .. => False
  | .bare n => Node.IsUnquantified n
termination_by structural p => p

/-- No quantifier stands in the predicate, if there is one. -/
def Predicate.UnquantifiedOption : Option Predicate → Prop
  | none => True
  | some p => Predicate.IsUnquantified p
termination_by structural p => p

/-- No quantifier stands in the predicates. -/
def Predicate.UnquantifiedAll : List (Option Predicate) → Prop
  | [] => True
  | p :: ps => Predicate.UnquantifiedOption p ∧ Predicate.UnquantifiedAll ps
termination_by structural ps => ps

/-- No quantifier stands in the node. -/
def Node.IsUnquantified : Node → Prop
  | .predicate p => Predicate.IsUnquantified p
  | .expr _ => True
  | .call _ _ args => Node.UnquantifiedAll args
termination_by structural n => n

/-- No quantifier stands in the nodes. -/
def Node.UnquantifiedAll : List (Option Node) → Prop
  | [] => True
  | none :: ns => Node.UnquantifiedAll ns
  | some n :: ns => Node.IsUnquantified n ∧ Node.UnquantifiedAll ns
termination_by structural ns => ns

end

section

variable {notes : Notes}

mutual

/-- **Without quantifiers there is one scope.** -/
theorem Predicate.scope_eq_of_isUnquantified : ∀ (p : Predicate) (scope : Option EntityId),
    p.IsUnquantified → ∀ x ∈ p.comparisons notes scope, x.scope = scope
  | .passthrough .., _, _, x, hx => by cases hx
  | .unary _ _ operand, scope, h, x, hx => Predicate.scope_eqOption operand scope h x hx
  | .logical _ _ children, scope, h, x, hx => Predicate.scope_eqAll children scope h x hx
  | .comparison .., scope, _, x, hx => by
    cases List.mem_singleton.mp hx
    rfl
  | .quantified .., _, h, _, _ => h.elim
  | .bare n, scope, h, x, hx => Node.scope_eq_of_isUnquantified n scope h x hx

theorem Predicate.scope_eqOption : ∀ (p : Option Predicate) (scope : Option EntityId),
    Predicate.UnquantifiedOption p → ∀ x ∈ Predicate.comparisonsOf notes scope p, x.scope = scope
  | none, _, _, x, hx => by cases hx
  | some p, scope, h, x, hx => Predicate.scope_eq_of_isUnquantified p scope h x hx

theorem Predicate.scope_eqAll : ∀ (ps : List (Option Predicate)) (scope : Option EntityId),
    Predicate.UnquantifiedAll ps → ∀ x ∈ Predicate.comparisonsAll notes scope ps, x.scope = scope
  | [], _, _, x, hx => by cases hx
  | p :: ps, scope, h, x, hx => by
    rcases List.mem_append.mp hx with hx | hx
    · exact Predicate.scope_eqOption p scope h.1 x hx
    · exact Predicate.scope_eqAll ps scope h.2 x hx

theorem Node.scope_eq_of_isUnquantified : ∀ (n : Node) (scope : Option EntityId),
    n.IsUnquantified → ∀ x ∈ n.comparisons notes scope, x.scope = scope
  | .predicate p, scope, h, x, hx => Predicate.scope_eq_of_isUnquantified p scope h x hx
  | .expr _, _, _, x, hx => by cases hx
  | .call _ _ args, scope, h, x, hx => Node.scope_eqAll args scope h x hx

theorem Node.scope_eqAll : ∀ (ns : List (Option Node)) (scope : Option EntityId),
    Node.UnquantifiedAll ns → ∀ x ∈ Node.comparisonsAll notes scope ns, x.scope = scope
  | [], _, _, x, hx => by cases hx
  | none :: ns, scope, h, x, hx => Node.scope_eqAll ns scope h x hx
  | some n :: ns, scope, h, x, hx => by
    rcases List.mem_append.mp hx with hx | hx
    · exact Node.scope_eq_of_isUnquantified n scope h.1 x hx
    · exact Node.scope_eqAll ns scope h.2 x hx

end

end

/-- The policy in the scope of the schema where the context gives none: that of the schema, if it has
one, or else the default. -/
def Catalog.policyOr (c : Catalog) (schema : Option EntityId) (default : TextPolicy) : TextPolicy :=
  ((schema.bind c.entity?).bind EntityType.policy).getD default

theorem PolicySources.policy_eq_policyOr (c : Catalog) (schema : Option EntityId)
    (default : TextPolicy) :
    (⟨none, c, .ok default⟩ : PolicySources).policy schema = .ok (c.policyOr schema default) := by
  rw [PolicySources.policy, Predicate.policyOf, Catalog.policyOr]
  dsimp only
  rcases (schema.bind c.entity?).bind EntityType.policy with - | o <;> rfl

namespace Filter

/-- No quantifier stands in what the filter is read as. -/
def IsUnquantified (f : Value) : Prop :=
  ∀ p b, outcome (readArguments [f]) {} = (.ok (some p), b) → p.IsUnquantified

theorem scope_eq_of_mem_comparisons {c : Catalog} {schema : Option EntityId} {f : Value}
    (hf : IsUnquantified f) : ∀ x ∈ comparisons c schema f, x.scope = schema := by
  intro x hx
  rw [comparisons] at hx
  rcases hread : outcome (readArguments [f]) {} with ⟨fault | - | p, b⟩ <;> rw [hread] at hx
  · cases hx
  · cases hx
  dsimp only at hx
  split at hx
  · exact Predicate.scope_eq_of_isUnquantified p schema (hf p b hread) x hx
  · cases hx

/-- **Without quantifiers one policy counts.** If the context gives none, a filter selects what it selects
if the context gives the policy of the schema, or else the default. -/
theorem selection_eq_of_isUnquantified {c : Catalog} {default : TextPolicy} {schema : Option EntityId}
    {f : Value} (hf : IsUnquantified f) (records : List Value) :
    selection c (.ok default) { schema } f records =
      selection c (.ok default) { schema, policy := some (c.policyOr schema default) } f records := by
  refine selection_eq_of_isSame (fun x hx => ?_) records
  have hscope := scope_eq_of_mem_comparisons hf x hx
  refine ⟨c.policyOr schema default, c.policyOr schema default, ?_, rfl, fun k _ _ _ => .refl k⟩
  rw [hscope]
  exact PolicySources.policy_eq_policyOr c schema default

end Filter

end RecordFilter
