import Mathlib
import RecordFilter.Proofs.Predicate.Comparisons
import RecordFilter.Proofs.Predicate.Scopes

/-!
# Which policy counts

A policy that the context gives counts for all comparisons of a node, whatever the entity types and the
default say (`Node.explicit_policy_overrides`), and no policy counts for comparisons of types that compare
by value (`Node.by_value_ignores_policies`).

Without a policy of the context, that of the schema counts in the scope of the schema only. The bodies of
quantifiers stand in the scopes of other entity types, or in none (`Predicate.within_of_isValidated`), so
where the schema is the only entity type with a policy, comparisons in bodies are left to the default
(`Predicate.schema_policy`).
-/

namespace RecordFilter

/-! ### Scopes within a scope -/

namespace Catalog

variable {c : Catalog}

/-- Navigation properties lead from one entity type to the other. -/
def LeadsTo (c : Catalog) : EntityId → EntityId → Prop :=
  Relation.ReflTransGen fun a b => b ∈ c.neighbours a

/-- A navigation property leads to the entity type that it points at. -/
theorem LeadsTo.of_find? {a target : EntityId} {name found : Text} {isScalar : Bool}
    (h : ((c.entity? a).bind fun e => e.find? name) = some ⟨found, .navigation target isScalar⟩) :
    c.LeadsTo a target := by
  obtain ⟨e, he, hproperty⟩ := Option.bind_eq_some_iff.mp h
  refine .single ?_
  rw [neighbours, he]
  exact List.mem_filterMap.mpr ⟨_, List.mem_of_find?_eq_some hproperty, rfl⟩

/-- A path of names to a navigation property leads to the entity type that it points at. -/
theorem LeadsTo.of_walk? {target : EntityId} {found : Text} {isScalar : Bool} :
    ∀ (path : List Text) {a : EntityId}, c.walk? a path = some ⟨found, .navigation target isScalar⟩ →
      c.LeadsTo a target
  | [], _, h => by cases h
  | [name], a, h => .of_find? h
  | name :: next :: path, a, h => by
    rw [walk?] at h
    · split at h
      · rename_i target' _ hfirst
        exact (LeadsTo.of_find? hfirst).trans (LeadsTo.of_walk? (next :: path) h)
      · cases h
    · simp

/-- A scope that the body of a quantifier may have: none, or one that the outer scope leads to. -/
def IsWithin (c : Catalog) (scope inner : Option EntityId) : Prop :=
  ∀ b, inner = some b → ∃ a, scope = some a ∧ c.LeadsTo a b

theorem IsWithin.refl (scope : Option EntityId) : c.IsWithin scope scope :=
  fun b hb => ⟨b, hb, .refl⟩

theorem IsWithin.trans {scope middle inner : Option EntityId} (h : c.IsWithin scope middle)
    (h' : c.IsWithin middle inner) : c.IsWithin scope inner := by
  intro b hb
  obtain ⟨m, hm, hmb⟩ := h' b hb
  obtain ⟨a, ha, ham⟩ := h m hm
  exact ⟨a, ha, ham.trans hmb⟩

end Catalog

namespace Predicate

section

variable {c : Catalog} {notes : Notes}

/-- The elements of a collection have a scope within that of the collection. -/
theorem isWithin_of_collectionOf {scope : Option EntityId} {op : Operator} {collection : Value}
    {e : Expr} (h : collectionOf c scope op collection = .ok e) : c.IsWithin scope e.entity? := by
  intro b hb
  rcases scope with - | a
  · rw [entity?_of_isSchemaless rfl h] at hb
    cases hb
  · by_cases hs : c.isSchemaless (some a)
    · rw [entity?_of_isSchemaless hs h] at hb
      cases hb
    · obtain ⟨p, s, name, target, mark, rfl, -, hproperty⟩ := collectionOf_isCollection hs h
      cases hb
      exact ⟨a, rfl, .of_walk? _ hproperty⟩

mutual

/-- **The comparisons of a validated predicate stand in scopes within its own.** -/
theorem within_of_isValidated : ∀ (p : Predicate) (scope : Option EntityId),
    p.IsValidated c scope notes → ∀ x ∈ p.comparisons notes scope, c.IsWithin scope x.scope
  | .passthrough .., _, _, x, hx => by cases hx
  | .unary _ op operand, scope, h, x, hx =>
    withinOption_of_isValidated operand scope (isValidated_unary_iff.mp h).2 x hx
  | .logical _ op children, scope, h, x, hx =>
    withinAll_of_isValidated children scope (isValidated_logical_iff.mp h).2 x hx
  | .comparison id op left right, scope, _, x, hx => by
    cases List.mem_singleton.mp hx
    exact .refl scope
  | .quantified id op collection body, scope, h, x, hx => by
    obtain ⟨e, he, hnote, hbody⟩ := isValidated_quantified_iff.mp h
    rw [comparisons, hnote] at hx
    exact (isWithin_of_collectionOf he).trans (withinOption_of_isValidated body e.entity? hbody x hx)
  | .bare _, _, h, _, _ => by
    -- a bare node has no resolved condition
    obtain ⟨t, ht, -⟩ := h
    cases ht

theorem withinOption_of_isValidated : ∀ (p : Option Predicate) (scope : Option EntityId),
    IsValidatedOption c scope notes p → ∀ x ∈ comparisonsOf notes scope p, c.IsWithin scope x.scope
  | none, _, _, x, hx => by cases hx
  | some p, scope, h, x, hx => within_of_isValidated p scope h x hx

theorem withinAll_of_isValidated : ∀ (ps : List (Option Predicate)) (scope : Option EntityId),
    IsValidatedAll c scope notes ps → ∀ x ∈ comparisonsAll notes scope ps, c.IsWithin scope x.scope
  | [], _, _, x, hx => by cases hx
  | p :: ps, scope, h, x, hx => by
    obtain ⟨hp, hps⟩ := isValidatedAll_cons_iff.mp h
    rcases List.mem_append.mp hx with hx | hx
    · exact withinOption_of_isValidated p scope hp x hx
    · exact withinAll_of_isValidated ps scope hps x hx

end

end

end Predicate

/-! ### Policies of the context -/

namespace Node

/-- **A policy that the context gives overrides all others.** Two catalogs differ in the policies of
their entity types only, and the defaults are whatever they are, even faults. In a context that gives a
policy every node is compiled alike under both: to the same fault, or to programs that come to the same
on every record, in their results, faults and notes. -/
theorem explicit_policy_overrides {c c' : Catalog} (hcatalogs : c.SameButPolicies c')
    (default default' : Except Fault TextPolicy) {source : ContextSource} {context : Context}
    {o : TextPolicy} (hsource : Context.ofSource source = .ok context)
    (hgiven : context.policy = some o) (n : Node) (notes : Notes) :
    EndAlike Eq Program.SameRuns (outcome (n.compile c default source) notes).1
        (outcome (n.compile c' default' source) notes).1 ∧
      (outcome (n.compile c default source) notes).2 =
        (outcome (n.compile c' default' source) notes).2 := by
  let s : PolicySources := ⟨context.policy, c, default⟩
  let s' : PolicySources := ⟨context.policy, c', default'⟩
  have hcatalogs : s.catalog.SameButPolicies s'.catalog := hcatalogs
  refine compile_of_isSame hcatalogs hsource hsource fun notes' _ x _ => ?_
  exact ⟨o, o, PolicySources.policy_of_given hgiven x.scope,
    PolicySources.policy_of_given hgiven x.scope, fun k type _ _ => .refl k⟩

/-- Items are compared by a policy of the context, where the settings are invalid and where the entity
types have policies of their own. -/
theorem explicit_policy_overrides_of_quantifier :
    let entities (policy : Option TextPolicy) : Catalog :=
      [⟨.text "Order", [⟨"items", .navigation 1 false⟩], false, policy, .same⟩,
        ⟨.text "Item", [⟨"name", .data .string⟩], false, policy, .same⟩]
    let source : ContextSource := .ready { schema := some 0, policy := some ⟨true, true⟩ }
    let n : Node := .predicate (.quantified 1 ⟨.text "any", ["some"], false⟩ (.text "items")
      (some (.comparison 0 ⟨.text "eq", ["==", "=", "equals"], false⟩ (.text "name") (.text "a"))))
    (outcome (n.compile (entities none) (.error .invalidSettings) source) []).1.isOk ∧
      EndAlike Eq Program.SameRuns
        (outcome (n.compile (entities none) (.error .invalidSettings) source) []).1
        (outcome (n.compile (entities (some ⟨false, false⟩)) (.ok {}) source) []).1 := by
  intro entities source n
  have hcatalogs : (entities none).SameButPolicies (entities (some ⟨false, false⟩)) := rfl
  have hsource : Context.ofSource source = .ok { schema := some 0, policy := some ⟨true, true⟩ } := rfl
  exact ⟨by decide +kernel,
    (explicit_policy_overrides hcatalogs (.error .invalidSettings) (.ok {}) hsource rfl n []).1⟩

/-- **Types that compare by value ignore policies.** Every comparison that validating the node finds is
one for equality or order of values of a type that compares by value, and two sources of policies have
a policy for it, each its own. Then the node is compiled alike under both: to the same fault, or to
programs that come to the same on every record. Moreover identifiers are compared for equality and
order as if every text were given in small letters and every identifier as its text. -/
theorem by_value_ignores_policies {s s' : PolicySources}
    (hcatalogs : s.catalog.SameButPolicies s'.catalog) {source source' : ContextSource}
    {context : Context} (hsource : Context.ofSource source = .ok (s.under context))
    (hsource' : Context.ofSource source' = .ok (s'.under context)) {n : Node} {notes : Notes}
    (hvalues : ∀ notes', outcome (n.validate s.catalog context.schema) notes = (.ok (), notes') →
      ∀ x ∈ n.comparisons notes' context.schema, x.IsByValue ∧ (∃ q, s.policy x.scope = .ok q) ∧
        ∃ o, s'.policy x.scope = .ok o) :
    (EndAlike Eq Program.SameRuns (outcome (n.compile s.catalog s.default source) notes).1
        (outcome (n.compile s'.catalog s'.default source') notes).1 ∧
      (outcome (n.compile s.catalog s.default source) notes).2 =
        (outcome (n.compile s'.catalog s'.default source') notes).2) ∧
    ∀ {k : Comparison}, (k = .eq ∨ k = .ne ∨ ∃ r, k = .order r) → ∀ (q o : TextPolicy)
      {a a' b b' : Value}, a.Respelled a' → b.Respelled b' →
        k.holds (some (.data .guid)) q a b = k.holds (some (.data .guid)) o a' b' := by
  refine ⟨compile_of_isSame hcatalogs hsource hsource' fun notes' hvalidate x hx => ?_,
    fun hk q o _ _ _ _ ha hb => Comparison.holds_respelled hk q o ha hb⟩
  obtain ⟨hvalue, ⟨q, hq⟩, o, ho⟩ := hvalues notes' hvalidate x hx
  exact ⟨q, o, hq, ho, hvalue.isSameUnder q o⟩

theorem by_value_ignores_policies_of_identifiers :
    let entities (policy : Option TextPolicy) : Catalog :=
      [⟨.text "Order", [⟨"id", .data .guid⟩, ⟨"ref", .data .guid⟩], false, policy, .same⟩]
    let right : Value := .map [(.text "value", .text "ref"), (.text "isProperty", .bool true)]
    let n : Node := .predicate (.comparison 0 ⟨.text "ne", ["!=", "~=", "notequals"], false⟩
      (.text "id") right)
    let context : Context := { schema := some 0 }
    let explicit : Context := { schema := some 0, policy := some ⟨true, false⟩ }
    (outcome (n.compile (entities none) (.ok {}) (.ready context)) []).1.isOk ∧
      EndAlike Eq Program.SameRuns
        (outcome (n.compile (entities none) (.ok {}) (.ready context)) []).1
        (outcome (n.compile (entities (some {})) (.error .invalidSettings) (.ready explicit)) []).1 ∧
      ∀ s : Text, Comparison.eq.holds (some (.data .guid)) {} (.text "AB") (.text s) =
        Comparison.eq.holds (some (.data .guid)) ⟨true, false⟩ (.text "aB") (.text s) := by
  intro entities right n context explicit
  let s : PolicySources := ⟨none, entities none, .ok {}⟩
  let s' : PolicySources := ⟨some ⟨true, false⟩, entities (some {}), .error .invalidSettings⟩
  have hboth := @by_value_ignores_policies s s' rfl (.ready context) (.ready explicit) context rfl rfl n [] ?_
  · refine ⟨by decide +kernel, hboth.1.1, fun t => ?_⟩
    exact hboth.2 (.inl rfl) {} ⟨true, false⟩ (.cased rfl rfl rfl) (.same _)
  · intro notes' h
    obtain rfl : (outcome (n.validate (entities none) (some 0)) []).2 = notes' := congrArg Prod.snd h
    have hcomparisons : n.comparisons (outcome (n.validate (entities none) (some 0)) []).2 (some 0) =
        [⟨some 0, some .ne, some (some (.data .guid))⟩] := by decide +kernel
    intro x hx
    cases List.mem_singleton.mp (hcomparisons ▸ hx)
    exact ⟨⟨.ne, .guid, rfl, .inr (.inl rfl), rfl, rfl⟩, ⟨{}, rfl⟩, ⟨true, false⟩, rfl⟩

end Node

/-! ### Policies of the schema -/

/-- The entity type has a policy, and no other one that it leads to has one. -/
structure Catalog.HasPolicyOnlyAt (c : Catalog) (a : EntityId) (o : TextPolicy) : Prop where
  policy : (c.entity? a).bind EntityType.policy = some o
  others : ∀ b, c.LeadsTo a b → b ≠ a → (c.entity? b).bind EntityType.policy = none

/-- Of two entity types only the first one has a policy. -/
theorem Catalog.hasPolicyOnlyAt_pair {e e' : EntityType} {o : TextPolicy} (h : e.policy = some o)
    (h' : e'.policy = none) : Catalog.HasPolicyOnlyAt [e, e'] 0 o := by
  refine ⟨h, fun b _ hb => ?_⟩
  rcases b with - | - | b
  · exact absurd rfl hb
  · exact h'
  · rfl

/-- The policy of the schema counts in its own scope, and the default in all others that it leads
to. -/
theorem Catalog.HasPolicyOnlyAt.policy_eq {c : Catalog} {a : EntityId} {o : TextPolicy}
    (h : c.HasPolicyOnlyAt a o) (default : Except Fault TextPolicy) {scope : Option EntityId}
    (hscope : c.IsWithin (some a) scope) :
    (⟨none, c, default⟩ : PolicySources).policy scope = if scope = some a then .ok o else default := by
  by_cases hsame : scope = some a
  · rw [if_pos hsame, hsame, PolicySources.policy, Predicate.policyOf]
    dsimp only
    rw [Option.bind_some, h.policy]
  · rw [if_neg hsame, PolicySources.policy, Predicate.policyOf]
    rcases scope with - | b
    · rfl
    · obtain ⟨_, ⟨⟩, hleads⟩ := hscope b rfl
      dsimp only
      rw [Option.bind_some, h.others b hleads fun hba => hsame (congrArg some hba)]

/-- A comparison that has one policy in one scope and another one elsewhere is as under the first exactly
if it stands in that scope or the other policy makes no difference to it. -/
theorem ScopedComparison.exists_test_iff {x : ScopedComparison} {a : EntityId} {q o : TextPolicy} :
    (∃ policy, (if x.scope = some a then Except.ok o else .ok q : Except Fault TextPolicy) = .ok policy ∧
      x.test policy = x.test o) ↔ x.scope = some a ∨ x.IsSameUnder q o := by
  by_cases hscope : x.scope = some a
  · rw [if_pos hscope]
    exact iff_of_true ⟨o, rfl, rfl⟩ (.inl hscope)
  · rw [if_neg hscope]
    constructor
    · rintro ⟨_, ⟨⟩, hsame⟩
      exact .inr (test_eq_iff.mp hsame)
    · rintro (hsame | hsame)
      · exact (hscope hsame).elim
      · exact ⟨q, rfl, test_eq_iff.mpr hsame⟩

namespace Predicate

/-- Of a predicate that is validated against the schema the comparisons in the scope of the schema have
its policy, and all others have the default. -/
theorem policy_of_validate {c : Catalog} {a : EntityId} {o : TextPolicy} (honly : c.HasPolicyOnlyAt a o)
    (default : Except Fault TextPolicy) {p : Predicate} {notes notes' : Notes} (hp : p.IsPlain)
    (hnodup : p.labels.Nodup) (hunknown : IsUnknown p.labels notes)
    (hvalid : outcome ((Node.predicate p).validate c (some a)) notes = (.ok (), notes')) :
    ∀ x ∈ p.comparisons notes' (some a), (⟨none, c, default⟩ : PolicySources).policy x.scope =
      if x.scope = some a then .ok o else default := by
  intro x hx
  have hvalidated : p.IsValidated c (some a) notes' :=
    isValidated_of_validateBy hp hnodup (.inl hunknown) ((validate_ok_iff_validateBy hp).mp hvalid)
  exact honly.policy_eq default (within_of_isValidated p (some a) hvalidated x hx)

/-- **The policy of the schema counts in the scope of the schema.** The schema is the only entity type
with a policy among those that it leads to, and the context gives none. Of a predicate that is validated
against the schema the comparisons in the scope of the schema itself have the policy of the schema, and
all others have the default. So comparisons are as if the context gave the policy of the schema exactly
if each one stands in the scope of the schema or is the same under the default, and if they are, the
predicate is compiled as if the context did. -/
theorem schema_policy {c : Catalog} {a : EntityId} {o : TextPolicy} (honly : c.HasPolicyOnlyAt a o)
    {default : Except Fault TextPolicy} {context : Context} (hschema : context.schema = some a)
    (hgiven : context.policy = none) {p : Predicate} {notes notes' : Notes} (hp : p.IsPlain)
    (hnodup : p.labels.Nodup) (hunknown : IsUnknown p.labels notes)
    (hvalid : outcome ((Node.predicate p).validate c (some a)) notes = (.ok (), notes')) :
    let s : PolicySources := ⟨none, c, default⟩
    let AsUnderSchema : Prop := ∀ x ∈ p.comparisons notes' (some a),
      ∃ q, s.policy x.scope = .ok q ∧ x.test q = x.test o
    (∀ x ∈ p.comparisons notes' (some a),
        s.policy x.scope = if x.scope = some a then .ok o else default) ∧
      (∀ q, default = .ok q → (AsUnderSchema ↔
        ∀ x ∈ p.comparisons notes' (some a), x.scope = some a ∨ x.IsSameUnder q o)) ∧
      (AsUnderSchema → EndAlike Eq Program.SameRuns
        (outcome ((Node.predicate p).compile c default (.ready context)) notes).1
        (outcome ((Node.predicate p).compile c default
          (.ready { context with policy := some o })) notes).1) := by
  intro s AsUnderSchema
  have hpolicy := policy_of_validate honly default hp hnodup hunknown hvalid
  refine ⟨hpolicy, fun q hq => forall₂_congr fun x hx => ?_, fun hunder => ?_⟩
  · rw [hpolicy x hx, hq]
    exact ScopedComparison.exists_test_iff
  · -- giving no policy is what the context does already
    have hsource : s.under context = context := by
      cases context
      cases hgiven
      rfl
    have hsources : Context.ofSource (.ready context) = .ok (s.under context) :=
      congrArg Except.ok hsource.symm
    let s' : PolicySources := ⟨some o, c, default⟩
    have hcatalogs : s.catalog.SameButPolicies s'.catalog := rfl
    refine (Node.compile_of_isSame hcatalogs hsources rfl fun notes'' hvalid' x hx => ?_).1
    obtain rfl : notes' = notes'' := by
      rw [hschema, hvalid] at hvalid'
      exact congrArg Prod.snd hvalid'
    rw [hschema] at hx
    obtain ⟨q, hq, hsame⟩ := hunder x hx
    exact ⟨q, o, hq, rfl, ScopedComparison.test_eq_iff.mp hsame⟩

/-- Orders whose lines lead back to them: the policy of orders counts for the order of a line, and the
quantity of a line is compared without regard to policies. -/
theorem schema_policy_of_back_reference :
    let o : TextPolicy := ⟨true, true⟩
    let c : Catalog := [⟨.text "Order", [⟨"name", .data .string⟩, ⟨"lines", .navigation 1 false⟩], false,
        some o, .same⟩,
      ⟨.text "Line", [⟨"qty", .data .int32⟩, ⟨"orders", .navigation 0 false⟩], false, none, .same⟩]
    let any : Operator := ⟨.text "any", ["some"], false⟩
    let p : Predicate := .quantified 4 any (.text "lines") (some (.logical 3 ⟨.text "and", ["&&"], false⟩
      [some (.comparison 0 ⟨.text "gt", [">", "greaterthan"], false⟩ (.text "qty") (.int 5)),
        some (.quantified 2 any (.text "orders") (some (.comparison 1
          ⟨.text "eq", ["==", "=", "equals"], false⟩ (.text "name") (.text "a"))))]))
    let context : Context := { schema := some 0 }
    c.HasPolicyOnlyAt 0 o ∧
      (outcome ((Node.predicate p).compile c (.ok {}) (.ready context)) []).1.isOk ∧
      EndAlike Eq Program.SameRuns
        (outcome ((Node.predicate p).compile c (.ok {}) (.ready context)) []).1
        (outcome ((Node.predicate p).compile c (.ok {})
          (.ready { context with policy := some o })) []).1 := by
  intro o c any p context
  have hp : p.IsPlain := by
    simp [p, any, IsPlain, PlainOption, PlainAll, Operator.IsPlain, Value.isPlain_int]
  have honly : c.HasPolicyOnlyAt 0 o := Catalog.hasPolicyOnlyAt_pair rfl rfl
  let notes' := (outcome ((Node.predicate p).validate c (some 0)) []).2
  have hok : (outcome ((Node.predicate p).validate c (some 0)) []).1.isOk := by decide +kernel
  obtain ⟨⟨⟩, hvalid⟩ := exists_outcome_of_isOk hok
  have hcomparisons : p.comparisons notes' (some 0) =
      [⟨some 1, some (.order .gt), some (some (.data .int32))⟩,
        ⟨some 0, some .eq, some (some (.data .string))⟩] := by decide +kernel
  obtain ⟨-, hiff, hcompile⟩ := @schema_policy c 0 o honly (.ok {}) context rfl rfl p [] notes' hp
    (by decide) (fun _ _ => Notes.note_nil _) hvalid
  refine ⟨honly, by decide +kernel, hcompile ((hiff {} rfl).mpr ?_)⟩
  rw [hcomparisons]
  intro x hx
  rcases List.mem_cons.mp hx with rfl | hx
  · refine .inr ?_
    rintro _ _ ⟨⟩ ⟨⟩
    exact trivial
  · exact .inl (congrArg ScopedComparison.scope (List.mem_singleton.mp hx))

end Predicate

namespace Filter

/-- Running a filter whose shape is known. -/
theorem returns_of_shape {c : Catalog} {default : Except Fault TextPolicy} {source : ContextSource}
    {context : Context} {f record : Value} {b : Builder} {notes : Notes} {t : Condition} {r : Resolved}
    {test : Predicate.Test} {x : Bool} (hf : f.IsPlain) (hblank : notes.Blank b.next)
    (hshape : shape f = .ok t) (hsource : Context.ofSource source = .ok context)
    (hresolve : t.resolve c context.schema = .ok r) (hcompile : r.compile c default context = .ok test)
    (htest : test record = .ok x) :
    ∃ program, compile c default source f b notes = .ok program ∧ program.Returns record (.bool x) := by
  have halike : EndAlike Eq Predicate.RunsAs (compile c default source f b notes) (.ok test) := by
    have h := @endAlike_compile c default source f b notes hf hblank
    rwa [hshape, ok_bind, Predicate.testOf, hsource, ok_bind, hresolve, ok_bind, hcompile] at h
  rcases hprogram : compile c default source f b notes with fault | program
  · rw [hprogram] at halike
    cases halike
  · rw [hprogram] at halike
    cases halike with
    | ok hruns =>
      refine ⟨program, rfl, fun current now => ?_⟩
      rw [hruns, htest]
      rfl

/-- **The policy of the schema is lost in the body of a quantifier.** Orders say that letter case counts,
and nothing else says how texts are compared. A line in London is found by its city in small letters, and
is not when the context gives the policy of orders. -/
theorem schema_policy_lost_in_body :
    let o : TextPolicy := ⟨true, true⟩
    let c : Catalog := [⟨.text "Order", [⟨"lines", .navigation 1 false⟩], false, some o, .same⟩,
      ⟨.text "Line", [⟨"city", .data .string⟩], false, none, .same⟩]
    let f : Value := .map [(.text "lines", .map [(.text "any", .map [(.text "city", .text "london")])])]
    let record : Value := .map [(.text "lines", .list [.map [(.text "city", .text "London")]])]
    let context : Context := { schema := some 0 }
    c.HasPolicyOnlyAt 0 o ∧
      (∃ program, compile c (.ok {}) (.ready context) f {} [] = .ok program ∧
        program.Returns record (.bool true)) ∧
      ∃ program, compile c (.ok {}) (.ready { context with policy := some o }) f {} [] = .ok program ∧
        program.Returns record (.bool false) := by
  intro o c f record context
  have hf : f.IsPlain := by
    simp [f, Value.IsPlain, Value.PlainEntries, Value.isKey]
  have hblank : Notes.Blank [] ({} : Builder).next := fun _ _ => rfl
  have honly : c.HasPolicyOnlyAt 0 o := Catalog.hasPolicyOnlyAt_pair rfl rfl
  let eq : Operator := ⟨.text "eq", ["==", "=", "equals"], false⟩
  let any : Operator := ⟨.text "any", ["some"], false⟩
  have hshape : shape f =
      .ok (.quantified any (.text "lines") (.comparison eq (.text "city") (.text "london"))) := by rfl
  let r : Resolved := .quantified any (.path (.text "lines") (some (.entity 1)) (Mark.after (some 0) {}))
    (.comparison eq (.path (.text "city") (some (.data .string)) (Mark.after (some 1) {}))
      (.literal (.text "london") (some (.data .string)) false (Mark.after (some 1) {})))
  have hresolve : Condition.resolve c (some 0)
      (.quantified any (.text "lines") (.comparison eq (.text "city") (.text "london"))) = .ok r := by rfl
  exact ⟨honly, returns_of_shape hf hblank hshape rfl hresolve rfl (by cbv),
    returns_of_shape hf hblank hshape rfl hresolve rfl (by cbv)⟩

end Filter

end RecordFilter
