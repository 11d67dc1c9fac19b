import RecordFilter.Proofs.Predicate.Marks
import RecordFilter.Proofs.Predicate.Unmarked

/-!
# Stale notes

A place in a predicate has a schema of its own: that under which the predicate is used or, in the
body of a quantifier, that of the elements. The node that stands there may have been checked last
against another schema, which its note then holds. The operands in the notes are those that a
predicate without sharing has exactly when at every place the two schemas give the same operands
(`Predicate.IsCurrent`, `Predicate.resolve_iff_isCurrent`). Where there is no schema this is always
so, since then every check takes place (`Predicate.isCurrent_of_unbound`).
-/

namespace RecordFilter

namespace Predicate

/-! ### Places -/

/-- The operands of a comparison under a schema, without their marks. -/
def bareOperandsOf (c : Catalog) (schema : Option EntityId) (left right : Value) :
    Except Fault (Expr × Expr) :=
  (operandsOf c schema left right).map fun (l, r) => (l.unmarked, r.unmarked)

/-- The collection of a quantifier under a schema, without its marks. -/
def bareCollectionOf (c : Catalog) (schema : Option EntityId) (op : Operator) (collection : Value) :
    Except Fault Expr :=
  (collectionOf c schema op collection).map Expr.unmarked

section

variable (c : Catalog) (notes : Notes)

mutual

/-- At every place in the predicate, the schema in the note on the node that stands there gives the
same operands as the schema of the place. -/
def IsCurrent (schema : Option EntityId) : Predicate → Prop
  | .passthrough .. => True
  | .unary _ _ operand => IsCurrentOption schema operand
  | .logical _ _ children => IsCurrentAll schema children
  | .comparison id _ left right =>
    bareOperandsOf c (notes.note id).checked left right = bareOperandsOf c schema left right
  | .quantified id op collection body =>
    bareCollectionOf c (notes.note id).checked op collection =
        bareCollectionOf c schema op collection ∧
      ∀ e, collectionOf c schema op collection = .ok e → IsCurrentOption e.entity? body
  | .bare _ => False

/-- The same of a predicate that may be absent. -/
def IsCurrentOption (schema : Option EntityId) : Option Predicate → Prop
  | none => True
  | some p => IsCurrent schema p

/-- The same of several predicates. -/
def IsCurrentAll (schema : Option EntityId) : List (Option Predicate) → Prop
  | [] => True
  | p :: ps => IsCurrentOption schema p ∧ IsCurrentAll schema ps

end

end

/-- The condition is resolved under the schema to `t`, but for marks. -/
def ResolvesTo (c : Catalog) (schema : Option EntityId) (s : Condition) (t : Resolved) : Prop :=
  ∃ u, s.resolve c schema = .ok u ∧ u.unmarked = t.unmarked

theorem map_eq_map_iff {α β : Type} {f : α → β} {x y : Except Fault α} {a : α} (hx : x = .ok a) :
    x.map f = y.map f ↔ ∃ b, y = .ok b ∧ f b = f a := by
  subst hx
  rcases y with fault | b
  · simp [Except.map]
  · simp [Except.map, eq_comm]

section

variable {c : Catalog} {notes : Notes}

mutual

/-- **Stale notes.** A predicate whose nodes are all in step has a resolved condition in the notes,
and it is the one that the predicate has under a schema exactly when the predicate is current. -/
theorem resolve_iff_isCurrent :
    ∀ p : Predicate, p.IsPlain → (∀ id q, (id, q) ∈ p.nodes → q.Settled c notes) →
      ∃ t, p.resolvedIn notes = some t ∧
        ∀ schema, ResolvesTo c schema p.condition t ↔ p.IsCurrent c notes schema
  | .passthrough id text, _, _ => by
    refine ⟨.passthrough text, rfl, fun schema => ?_⟩
    exact ⟨fun _ => trivial, fun _ => ⟨_, rfl, rfl⟩⟩
  | .unary id op operand, hp, hs => by
    obtain ⟨t, ht, hiff⟩ := resolveOf_iff_isCurrentOption operand hp.2
      (fun i q hq => hs i q (List.mem_cons_of_mem _ hq)) (hs _ _ List.mem_cons_self).2
    refine ⟨.unary op t, ?_, fun schema => ?_⟩
    · rw [resolvedIn, ht]
      rfl
    · rw [IsCurrent, ← hiff schema]
      constructor
      · rintro ⟨u, hu, hsame⟩
        obtain ⟨v, hv, rfl⟩ := Condition.resolve_unary_eq_ok_iff.mp hu
        exact ⟨v, hv, (Resolved.unary.inj hsame).2⟩
      · rintro ⟨v, hv, hsame⟩
        exact ⟨.unary op v, Condition.resolve_unary_eq_ok_iff.mpr ⟨v, hv, rfl⟩,
          congrArg (Resolved.unary op) hsame⟩
  | .logical id op children, hp, hs => by
    obtain ⟨ts, hts, hiff⟩ := resolveAll_iff_isCurrentAll children hp.2
      (fun i q hq => hs i q (List.mem_cons_of_mem _ hq)) (hs _ _ List.mem_cons_self).2
    refine ⟨.logical op ts, ?_, fun schema => ?_⟩
    · rw [resolvedIn, hts]
      rfl
    · rw [IsCurrent, ← hiff schema]
      constructor
      · rintro ⟨u, hu, hsame⟩
        obtain ⟨us, hus, rfl⟩ := Condition.resolve_logical_eq_ok_iff.mp hu
        exact ⟨us, hus, (Resolved.logical.inj hsame).2⟩
      · rintro ⟨us, hus, hsame⟩
        exact ⟨.logical op us, Condition.resolve_logical_eq_ok_iff.mpr ⟨us, hus, rfl⟩,
          congrArg (Resolved.logical op) hsame⟩
  | .comparison id op left right, hp, hs => by
    -- What a comparison holds depends on the schema its own note names, and on nothing around it.
    obtain ⟨-, l, r, hlr, hl, hr⟩ := hs _ _ List.mem_cons_self
    refine ⟨.comparison op l r, ?_, fun schema => ?_⟩
    · rw [resolvedIn, hl, hr]
      rfl
    · rw [IsCurrent, bareOperandsOf, bareOperandsOf, map_eq_map_iff hlr]
      constructor
      · rintro ⟨u, hu, hsame⟩
        obtain ⟨l', r', hlr', rfl⟩ := Condition.resolve_comparison_eq_ok_iff.mp hu
        obtain ⟨-, hl', hr'⟩ := Resolved.comparison.inj hsame
        exact ⟨(l', r'), hlr', Prod.ext hl' hr'⟩
      · rintro ⟨⟨l', r'⟩, hlr', hsame⟩
        obtain ⟨hl', hr'⟩ := Prod.mk.inj hsame
        refine ⟨.comparison op l' r',
          Condition.resolve_comparison_eq_ok_iff.mpr ⟨l', r', hlr', rfl⟩, ?_⟩
        rw [Resolved.unmarked, Resolved.unmarked, hl', hr']
  | .quantified id op collection body, hp, hs => by
    obtain ⟨-, ⟨e, he, hcollection⟩, hmarked⟩ := hs _ _ List.mem_cons_self
    obtain ⟨t, ht, hiff⟩ := resolveOf_iff_isCurrentOption body hp.2.2
      (fun i q hq => hs i q (List.mem_cons_of_mem _ hq)) hmarked
    refine ⟨.quantified op e t, ?_, fun schema => ?_⟩
    · rw [resolvedIn, hcollection, ht]
      rfl
    · rw [IsCurrent, bareCollectionOf, bareCollectionOf, map_eq_map_iff he]
      constructor
      · rintro ⟨u, hu, hsame⟩
        obtain ⟨e', v, he', hv, rfl⟩ := Condition.resolve_quantified_eq_ok_iff.mp hu
        obtain ⟨-, hsame', hbody⟩ := Resolved.quantified.inj hsame
        -- The body is resolved against the elements of this very collection.
        refine ⟨⟨e', he', hsame'⟩, fun e'' he'' => ?_⟩
        cases he'.symm.trans he''
        exact (hiff _).mp ⟨v, hv, hbody⟩
      · rintro ⟨⟨e', he', hsame'⟩, hbody⟩
        obtain ⟨v, hv, hsame⟩ := (hiff _).mpr (hbody e' he')
        refine ⟨.quantified op e' v,
          Condition.resolve_quantified_eq_ok_iff.mpr ⟨e', v, he', hv, rfl⟩, ?_⟩
        rw [Resolved.unmarked, Resolved.unmarked, hsame', hsame]
  | .bare _, hp, _ => hp.elim

theorem resolveOf_iff_isCurrentOption :
    ∀ p : Option Predicate, PlainOption p → (∀ id q, (id, q) ∈ nodesOf p → q.Settled c notes) →
      AllMarked notes [p] → ∃ t, resolvedOption notes p = some t ∧
        ∀ schema, ResolvesTo c schema (conditionOf p) t ↔ IsCurrentOption c notes schema p
  | none, _, _, hm => by
    obtain ⟨q, hq, -⟩ := hm none List.mem_cons_self
    cases hq
  | some p, hp, hs, _ => resolve_iff_isCurrent p hp hs

theorem resolveAll_iff_isCurrentAll :
    ∀ ps : List (Option Predicate), PlainAll ps →
      (∀ id q, (id, q) ∈ nodesAll ps → q.Settled c notes) → AllMarked notes ps →
        ∃ ts, resolvedAll notes ps = some ts ∧
          ∀ schema, (∃ us, Condition.resolveAll c schema (conditions ps) = .ok us ∧
            Resolved.unmarkedAll us = Resolved.unmarkedAll ts) ↔ IsCurrentAll c notes schema ps
  | [], _, _, _ => ⟨[], rfl, fun _ => ⟨fun _ => trivial, fun _ => ⟨[], rfl, rfl⟩⟩⟩
  | p :: ps, hp, hs, hm => by
    have hfirst : AllMarked notes [p] := fun q hq =>
      hm q (List.mem_singleton.mp hq ▸ List.mem_cons_self)
    obtain ⟨t, ht, hiff⟩ := resolveOf_iff_isCurrentOption p hp.1
      (fun i q hq => hs i q (List.mem_append_left _ hq)) hfirst
    obtain ⟨ts, hts, hiffs⟩ := resolveAll_iff_isCurrentAll ps hp.2
      (fun i q hq => hs i q (List.mem_append_right _ hq))
      (fun q hq => hm q (List.mem_cons_of_mem _ hq))
    refine ⟨t :: ts, ?_, fun schema => ?_⟩
    · rw [resolvedAll, ht, hts]
      rfl
    · rw [IsCurrentAll, ← hiff schema, ← hiffs schema]
      constructor
      · rintro ⟨us, hus, hsame⟩
        obtain ⟨u, us', hu, hus', rfl⟩ := Condition.resolveAll_cons_eq_ok_iff.mp hus
        obtain ⟨hsame, hsame'⟩ := List.cons.inj hsame
        exact ⟨⟨u, hu, hsame⟩, us', hus', hsame'⟩
      · rintro ⟨⟨u, hu, hsame⟩, us, hus, hsame'⟩
        refine ⟨u :: us, Condition.resolveAll_cons_eq_ok_iff.mpr ⟨u, us, hu, hus, rfl⟩, ?_⟩
        rw [Resolved.unmarkedAll, Resolved.unmarkedAll, hsame, hsame']

end

end

/-! ### Copies -/

mutual

/-- Being plain is a matter of the condition. -/
theorem isPlain_of_condition :
    ∀ q p : Predicate, q.condition = p.condition → p.IsPlain → q.IsPlain
  | .passthrough .., p, h, hp => by
    cases p <;> cases h
    exact hp
  | .unary _ _ operand, p, h, hp => by
    cases p <;> try cases h
    obtain ⟨rfl, hoperand⟩ := Condition.unary.inj h
    exact ⟨hp.1, plainOption_of_conditionOf operand _ hoperand hp.2⟩
  | .logical _ _ children, p, h, hp => by
    cases p <;> try cases h
    obtain ⟨rfl, hchildren⟩ := Condition.logical.inj h
    exact ⟨hp.1, plainAll_of_conditions children _ hchildren hp.2⟩
  | .comparison .., p, h, hp => by
    cases p <;> cases h
    exact hp
  | .quantified _ _ _ body, p, h, hp => by
    cases p <;> try cases h
    obtain ⟨rfl, rfl, hbody⟩ := Condition.quantified.inj h
    exact ⟨hp.1, hp.2.1, plainOption_of_conditionOf body _ hbody hp.2.2⟩
  | .bare _, p, h, hp => by
    cases p <;> cases h
    exact hp

theorem plainOption_of_conditionOf :
    ∀ q p : Option Predicate, conditionOf q = conditionOf p → PlainOption p → PlainOption q
  | none, _, _, _ => trivial
  | some q, none, h, _ => by cases q <;> cases h
  | some q, some p, h, hp => isPlain_of_condition q p h hp

theorem plainAll_of_conditions :
    ∀ qs ps : List (Option Predicate), conditions qs = conditions ps → PlainAll ps → PlainAll qs
  | [], _, _, _ => trivial
  | _ :: _, [], h, _ => by cases h
  | q :: qs, p :: ps, h, hp => by
    obtain ⟨hq, hqs⟩ := List.cons.inj h
    exact ⟨plainOption_of_conditionOf q p hq hp.1, plainAll_of_conditions qs ps hqs hp.2⟩

end

/-- A copy of a predicate that shares no nodes, and about whose nodes nothing is known. -/
structure IsFreshCopy (q p : Predicate) (notes : Notes) : Prop where
  condition : q.condition = p.condition
  nodup : q.labels.Nodup
  unmarked : notes.On Note.Unmarked q.labels

/-- The fresh copy is valid under a schema, and ready with the operands of `t` but for marks. -/
def CopyResolvesTo (c : Catalog) (schema : Option EntityId) (q : Predicate) (start : Notes)
    (t : Resolved) : Prop :=
  ∃ notes u, outcome ((Node.predicate q).validate c schema) start = (.ok (), notes) ∧
    q.HeldBy notes u ∧ u.unmarked = t.unmarked

/-- What a fresh copy resolves to is what the condition does. -/
theorem IsFreshCopy.copyResolvesTo_iff {c : Catalog} {schema : Option EntityId} {p q : Predicate}
    {start : Notes} {t : Resolved} (h : q.IsFreshCopy p start) (hp : p.IsPlain) :
    CopyResolvesTo c schema q start t ↔ ResolvesTo c schema p.condition t := by
  have hq : q.IsPlain := isPlain_of_condition q p h.condition hp
  constructor
  · rintro ⟨notes, u, hvalidate, hheld, hsame⟩
    obtain ⟨v, hready⟩ := ready_of_validate hq h.nodup h.unmarked hvalidate
    have huv : u = v := Option.some.inj (hheld.resolvedIn.symm.trans hready.held.resolvedIn)
    subst huv
    exact ⟨u, h.condition ▸ hready.resolve, hsame⟩
  · rintro ⟨u, hu, hsame⟩
    obtain ⟨notes, hvalidate, hready⟩ :=
      validate_of_resolve start hq h.nodup h.unmarked (h.condition.symm ▸ hu)
    exact ⟨notes, u, hvalidate, hready.held, hsame⟩

/-- Uses of a predicate that succeed do so for another one as well. They give the same canonical
form, and programs that give the same on all records, at whatever times they run. -/
structure SameUse (c : Catalog) (source : ContextSource) (p q : Predicate) (notes start : Notes) :
    Prop where
  compile : ∀ {default program notes'},
    outcome ((Node.predicate p).compile c default source) notes = (.ok program, notes') →
      ∃ other start', outcome ((Node.predicate q).compile c default source) start =
          (.ok other, start') ∧
        ∀ record current now current' now', (outcome (program.run current record) now).1 =
          (outcome (other.run current' record) now').1
  toCanonical : ∀ {v notes'},
    outcome ((Node.predicate p).toCanonical c source) notes = (.ok v, notes') →
      ∃ start', outcome ((Node.predicate q).toCanonical c source) start = (.ok v, start')

/-- Predicates with the same operands but for marks are used alike. -/
theorem sameUse_of_unmarked {c : Catalog} {source : ContextSource} {context : Context}
    {p q : Predicate} {notes notes' start start' : Notes} {t u : Resolved} (hp : p.IsPlain)
    (hq : q.IsPlain) (hsource : Context.ofSource source = .ok context)
    (hvalidate : outcome ((Node.predicate p).validate c context.schema) notes = (.ok (), notes'))
    (hvalidate' : outcome ((Node.predicate q).validate c context.schema) start = (.ok (), start'))
    (ht : p.HeldBy notes' t) (hu : q.HeldBy start' u) (hsame : u.unmarked = t.unmarked) :
    SameUse c source p q notes start where
  compile {default program notes''} h := by
    obtain ⟨context', hcontext, hvalidate'', rfl, hcompiles⟩ := compile_ok h
    cases hsource.symm.trans hcontext
    cases hvalidate.symm.trans hvalidate''
    have hfunction : u.compile c default context = t.compile c default context := by
      rw [← Resolved.compile_unmarked, hsame, Resolved.compile_unmarked]
    obtain ⟨f, hf⟩ := hcompiles t ht
    refine ⟨_, start', compile_of_ready hsource hvalidate' hu (hfunction.trans hf), ?_⟩
    intro record current now current' now'
    rw [Program.outcome_run hp ht, Program.outcome_run hq hu, Resolved.run, Resolved.run, hfunction]
  toCanonical {v notes''} h := by
    obtain ⟨context', hcontext, hvalidate'', hv⟩ := Node.toCanonical_ok_iff.mp h
    cases hsource.symm.trans hcontext
    cases hvalidate.symm.trans hvalidate''
    refine ⟨start', Node.toCanonical_ok_iff.mpr ⟨context, hsource, hvalidate', ?_⟩⟩
    rw [canonical_of_resolvedIn c start' context q hu.resolvedIn, ← Resolved.canonical_unmarked,
      hsame, Resolved.canonical_unmarked,
      ← canonical_of_resolvedIn c notes' context p ht.resolvedIn, hv]

/-! ### Checks without a schema -/

/-- No check of the node was against a schema since one without. -/
def Unbound (notes : Notes) (id : Label) : Prop :=
  (notes.note id).checked = none

theorem unbound_change {notes : Notes} {id other : Label} {f : Note → Note}
    (hf : (f (notes.note id)).checked = (notes.note id).checked) (h : Unbound notes other) :
    Unbound (notes.change id f) other := by
  by_cases hother : other = id
  · subst hother
    rwa [Unbound, Notes.note_change_self, hf]
  · rwa [Unbound, Notes.note_change_ne notes f hother]

theorem unbound_markedFor {notes : Notes} {id other : Label} (h : other ≠ id → Unbound notes other) :
    Unbound (notes.change id (Note.markedFor none)) other := by
  by_cases hother : other = id
  · subst hother
    rw [Unbound, Notes.note_change_self]
    rfl
  · rw [Unbound, Notes.note_change_ne notes _ hother]
    exact h hother

section

variable {c : Catalog}

theorem not_skips_none {notes : Notes} {id : Label} : ¬ Check.Skips none id notes := by
  rintro ⟨h, -⟩
  cases h

mutual

/-- A check without a schema takes place at all nodes, and no mark of a schema is left there. -/
theorem unbound_of_check {notes notes' : Notes} {id : Label} :
    ∀ p : Predicate, p.IsPlain → outcome (Predicate.check c none p) notes = (.ok (), notes') →
      Unbound notes id ∨ id ∈ p.labels → Unbound notes' id
  | .passthrough i text, _, h, hid => by
    rcases check_passthrough_ok_iff.mp h with ⟨hskip, -⟩ | ⟨-, rfl⟩
    · exact (not_skips_none hskip).elim
    · refine unbound_markedFor fun hne => hid.resolve_right fun hmem => ?_
      exact hne (List.mem_singleton.mp hmem)
  | .unary i op operand, hp, h, hid => by
    rcases check_unary_ok_iff.mp h with ⟨hskip, -⟩ | ⟨-, middle, hoperand, rfl⟩
    · exact (not_skips_none hskip).elim
    · refine unbound_markedFor fun hne => unbound_of_checkPresent operand hp.2 hoperand ?_
      exact hid.imp_right fun hmem => (List.mem_cons.mp hmem).resolve_left hne
  | .logical i op children, hp, h, hid => by
    rcases check_logical_ok_iff.mp h with ⟨hskip, -⟩ | ⟨-, middle, hchildren, rfl⟩
    · exact (not_skips_none hskip).elim
    · refine unbound_markedFor fun hne => unbound_of_checkAll children hp.2 hchildren ?_
      exact hid.imp_right fun hmem => (List.mem_cons.mp hmem).resolve_left hne
  | .comparison i op left right, hp, h, hid => by
    rcases (check_comparison_ok_iff hp.2.1 hp.2.2).mp h with ⟨hskip, -⟩ | ⟨-, l, r, -, rfl⟩
    · exact (not_skips_none hskip).elim
    · refine unbound_markedFor fun hne => unbound_change rfl (hid.resolve_right fun hmem => ?_)
      exact hne (List.mem_singleton.mp hmem)
  | .quantified i op collection body, hp, h, hid => by
    rcases (check_quantified_ok_iff hp.2.1 hp.1).mp h with
      ⟨hskip, -⟩ | ⟨-, e, middle, he, hbody, rfl⟩
    · exact (not_skips_none hskip).elim
    · rw [entity?_of_isSchemaless rfl he] at hbody
      refine unbound_markedFor fun hne => unbound_of_checkPresent body hp.2.2 hbody ?_
      exact hid.imp (unbound_change rfl) fun hmem => (List.mem_cons.mp hmem).resolve_left hne
  | .bare _, hp, _, _ => hp.elim

theorem unbound_of_checkPresent {notes notes' : Notes} {id : Label} :
    ∀ p : Option Predicate, PlainOption p →
      outcome (checkPresent c none p) notes = (.ok (), notes') →
        Unbound notes id ∨ id ∈ labelsOf p → Unbound notes' id
  | none, _, h, _ => by cases h
  | some p, hp, h, hid => unbound_of_check p hp h hid

theorem unbound_of_checkAll {notes notes' : Notes} {id : Label} :
    ∀ ps : List (Option Predicate), PlainAll ps →
      outcome (checkAll c none ps) notes = (.ok (), notes') →
        Unbound notes id ∨ id ∈ labelsAll ps → Unbound notes' id
  | [], _, h, hid => by
    cases h
    exact hid.resolve_right List.not_mem_nil
  | p :: ps, hp, h, hid => by
    obtain ⟨middle, hfirst, hrest⟩ := checkAll_cons_ok_iff.mp h
    refine unbound_of_checkAll ps hp.2 hrest ?_
    rcases hid with hid | hid
    · exact .inl (unbound_of_checkPresent p hp.1 hfirst (.inl hid))
    · rcases List.mem_append.mp hid with hid | hid
      · exact .inl (unbound_of_checkPresent p hp.1 hfirst (.inr hid))
      · exact .inr hid

end

mutual

/-- A predicate without marks of schemas is current where there is no schema. -/
theorem isCurrent_of_unbound {notes : Notes} :
    ∀ p : Predicate, p.IsPlain → (∀ id ∈ p.labels, Unbound notes id) → p.IsCurrent c notes none
  | .passthrough .., _, _ => trivial
  | .unary _ _ operand, hp, h =>
    isCurrentOption_of_unbound operand hp.2 fun i hi => h i (List.mem_cons_of_mem _ hi)
  | .logical _ _ children, hp, h =>
    isCurrentAll_of_unbound children hp.2 fun i hi => h i (List.mem_cons_of_mem _ hi)
  | .comparison id _ _ _, _, h => by
    rw [IsCurrent, h id List.mem_cons_self]
  | .quantified id _ _ body, hp, h => by
    rw [IsCurrent, h id List.mem_cons_self]
    refine ⟨rfl, fun e he => ?_⟩
    rw [entity?_of_isSchemaless rfl he]
    exact isCurrentOption_of_unbound body hp.2.2 fun i hi => h i (List.mem_cons_of_mem _ hi)
  | .bare _, hp, _ => hp.elim

theorem isCurrentOption_of_unbound {notes : Notes} :
    ∀ p : Option Predicate, PlainOption p → (∀ id ∈ labelsOf p, Unbound notes id) →
      IsCurrentOption c notes none p
  | none, _, _ => trivial
  | some p, hp, h => isCurrent_of_unbound p hp h

theorem isCurrentAll_of_unbound {notes : Notes} :
    ∀ ps : List (Option Predicate), PlainAll ps → (∀ id ∈ labelsAll ps, Unbound notes id) →
      IsCurrentAll c notes none ps
  | [], _, _ => trivial
  | p :: ps, hp, h =>
    ⟨isCurrentOption_of_unbound p hp.1 fun i hi => h i (List.mem_append_left _ hi),
      isCurrentAll_of_unbound ps hp.2 fun i hi => h i (List.mem_append_right _ hi)⟩

end

end

end Predicate

end RecordFilter
