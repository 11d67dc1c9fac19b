import RecordFilter.Proofs.Predicate.Revalidation
import RecordFilter.Proofs.Predicate.SameOperands

/-!
# Failed validations

A validation that fails stops in the midst of a predicate. The operands that it has noted before the
fault stay in the notes, while the topmost node keeps the mark of the schema that the predicate was
validated against before. A use under that schema then skips the whole predicate and takes the
operands that it finds.

These are the operands from before exactly when every node that the failed check got to has the same
operands under the new schema (`Predicate.Keeps`, `Predicate.alikeOn_iff_keeps`). In that case, and
always without a schema, the failed validation has no effect on later uses
(`Predicate.failed_validation_iff`). Otherwise a function may change: that of `code = "5"` and
`qty = 1` does when `code` has another type under the new schema and `qty` is no property there
(`Predicate.failed_validation_changes_use`).
-/

namespace RecordFilter

/-! ### How far a check gets -/

namespace Predicate

variable (c : Catalog)

mutual

/-- As far as a check under the schema gets from these notes, the operands that it finds are those
that are noted already, but for marks. -/
def Keeps (notes : Notes) (schema : Option EntityId) : Predicate → Prop
  | .passthrough .. => True
  | .unary id _ operand =>
    ¬ Check.Skips schema id notes → KeepsOption notes schema operand
  | .logical id _ children =>
    ¬ Check.Skips schema id notes → KeepsAll notes schema children
  | .comparison id _ left right =>
    ¬ Check.Skips schema id notes → ∀ l r, operandsOf c schema left right = .ok (l, r) →
      (notes.note id).left.map Expr.unmarked = some l.unmarked ∧
        (notes.note id).right.map Expr.unmarked = some r.unmarked
  | .quantified id op collection body =>
    ¬ Check.Skips schema id notes → ∀ e, collectionOf c schema op collection = .ok e →
      (notes.note id).collection.map Expr.unmarked = some e.unmarked ∧
        KeepsOption (notes.change id (Note.withCollection e)) e.entity? body
  | .bare _ => True

/-- The same of a predicate that must be there. -/
def KeepsOption (notes : Notes) (schema : Option EntityId) : Option Predicate → Prop
  | none => True
  | some p => Keeps notes schema p

/-- The same of predicates one after the other: those behind one that does not pass are not reached. -/
def KeepsAll (notes : Notes) (schema : Option EntityId) : List (Option Predicate) → Prop
  | [] => True
  | p :: ps => KeepsOption notes schema p ∧
    ∀ middle, outcome (checkPresent c schema p) notes = (.ok (), middle) → KeepsAll middle schema ps

end

section

variable {c : Catalog}

mutual

/-- **What a check keeps.** Whatever its end, a check leaves the same operands in the notes exactly
when those that it finds are noted already. -/
theorem alikeOn_iff_keeps {schema : Option EntityId} {notes notes' : Notes}
    {r : Except Fault Unit} : ∀ p : Predicate, p.IsPlain → p.labels.Nodup →
      outcome (checkBy c true schema p) notes = (r, notes') →
        (Notes.AlikeOn p.nodes notes notes' ↔ p.Keeps c notes schema)
  | .passthrough id text, _, _, _ => by
    refine ⟨fun _ => trivial, fun _ i q hq => ?_⟩
    cases List.mem_singleton.mp hq
    rfl
  | .unary id op operand, hp, hnodup, h => by
    obtain ⟨-, hnodup⟩ := List.nodup_cons.mp hnodup
    rcases Check.gate_cases h with ⟨⟨-, hskip⟩, rfl⟩ | ⟨hskip, middle, hoperand, hafter⟩
    · exact ⟨fun _ hnot => (hnot hskip).elim, fun _ => .refl _ _⟩
    · have ih := alikeOn_iff_keepsOption operand hp.2 hnodup hoperand
      have hskip : ¬ Check.Skips schema id notes := fun hs => hskip ⟨rfl, hs⟩
      rw [Notes.AlikeOn.marked_iff hafter, nodes, Notes.AlikeOn.cons_iff, ih, Keeps]
      -- a negation has no operands in its own note
      exact ⟨fun hkeeps _ => hkeeps.2, fun hkeeps => ⟨rfl, hkeeps hskip⟩⟩
  | .logical id op children, hp, hnodup, h => by
    obtain ⟨-, hnodup⟩ := List.nodup_cons.mp hnodup
    rcases Check.gate_cases h with ⟨⟨-, hskip⟩, rfl⟩ | ⟨hskip, middle, hchildren, hafter⟩
    · exact ⟨fun _ hnot => (hnot hskip).elim, fun _ => .refl _ _⟩
    · have ih := alikeOn_iff_keepsAll children hp.2 hnodup hchildren
      have hskip : ¬ Check.Skips schema id notes := fun hs => hskip ⟨rfl, hs⟩
      rw [Notes.AlikeOn.marked_iff hafter, nodes, Notes.AlikeOn.cons_iff, ih, Keeps]
      exact ⟨fun hkeeps _ => hkeeps.2, fun hkeeps => ⟨rfl, hkeeps hskip⟩⟩
  | .comparison id op left right, _, _, h => by
    rcases checkBy_comparison_cases h with ⟨hnothing, rfl⟩ | ⟨hskip, -, l, r, hlr, rfl⟩
    · -- nothing was written: the node was skipped, or one of its operands could not be read
      refine ⟨fun _ hnot l r hlr => ?_, fun _ => .refl _ _⟩
      rcases hnothing with ⟨-, hskip⟩ | ⟨f, hf⟩
      · exact (hnot hskip).elim
      · cases hf.symm.trans hlr
    · have hskip : ¬ Check.Skips schema id notes := fun hs => hskip ⟨rfl, hs⟩
      rw [nodes, Notes.AlikeOn.cons_iff, Notes.note_change_self, Note.operandsAt_markedFor,
        Notes.note_change_self, Keeps]
      constructor
      · rintro ⟨hsame, -⟩ - l' r' hlr'
        cases hlr.symm.trans hlr'
        obtain ⟨hl, hr⟩ := List.cons.inj hsame
        exact ⟨hl.symm, (List.cons.inj hr).1.symm⟩
      · intro hkeeps
        obtain ⟨hl, hr⟩ := hkeeps hskip l r hlr
        refine ⟨?_, fun _ _ hq => by cases hq⟩
        rw [Note.operandsAt, Note.operandsAt, hl, hr]
        rfl
  | .quantified id op collection body, hp, hnodup, h => by
    obtain ⟨hid, hnodup⟩ := List.nodup_cons.mp hnodup
    rcases checkBy_quantified_cases h with ⟨hnothing, rfl⟩ | ⟨hskip, e, middle, he, hbody, hafter⟩
    · refine ⟨fun _ hnot e he => ?_, fun _ => .refl _ _⟩
      rcases hnothing with ⟨-, hskip⟩ | ⟨f, hf⟩
      · exact (hnot hskip).elim
      · cases hf.symm.trans he
    · have hskip : ¬ Check.Skips schema id notes := fun hs => hskip ⟨rfl, hs⟩
      have ih := alikeOn_iff_keepsOption body hp.2.2 hnodup hbody
      -- the collection is noted before the body is checked, and the check of the body leaves it alone
      have hnote : middle.note id = (notes.note id).withCollection e := by
        rw [checkPresentBy_frame body hbody id hid, Notes.note_change_self]
      have hbefore : ∀ i ∈ (nodesOf body).map Prod.fst,
          (notes.change id (Note.withCollection e)).note i = notes.note i := by
        rw [map_fst_nodesOf]
        exact Notes.frame_others notes (Note.withCollection e) hid
      rw [Notes.AlikeOn.marked_iff hafter, nodes, Notes.AlikeOn.cons_iff, hnote,
        Notes.AlikeOn.congr hbefore (fun _ _ => rfl), ih, Keeps]
      constructor
      · rintro ⟨hsame, hkeeps⟩ - e' he'
        cases he.symm.trans he'
        exact ⟨(List.cons.inj hsame).1.symm, hkeeps⟩
      · intro hkeeps
        obtain ⟨hcollection, hkeeps⟩ := hkeeps hskip e he
        refine ⟨?_, hkeeps⟩
        rw [Note.operandsAt, Note.operandsAt, hcollection]
        rfl
  | .bare _, hp, _, _ => hp.elim

theorem alikeOn_iff_keepsOption {schema : Option EntityId} {notes notes' : Notes}
    {r : Except Fault Unit} : ∀ p : Option Predicate, PlainOption p → (labelsOf p).Nodup →
      outcome (checkPresentBy c true schema p) notes = (r, notes') →
        (Notes.AlikeOn (nodesOf p) notes notes' ↔ KeepsOption c notes schema p)
  | none, _, _, _ => ⟨fun _ => trivial, fun _ _ _ hq => by cases hq⟩
  | some p, hp, hnodup, h => alikeOn_iff_keeps p hp hnodup h

theorem alikeOn_iff_keepsAll {schema : Option EntityId} {notes notes' : Notes}
    {r : Except Fault Unit} : ∀ ps : List (Option Predicate), PlainAll ps → (labelsAll ps).Nodup →
      outcome (checkAllBy c true schema ps) notes = (r, notes') →
        (Notes.AlikeOn (nodesAll ps) notes notes' ↔ KeepsAll c notes schema ps)
  | [], _, _, _ => ⟨fun _ => trivial, fun _ _ _ hq => by cases hq⟩
  | p :: ps, hp, hnodup, h => by
    obtain ⟨hnodupP, hnodupPs, hdisjoint⟩ := List.nodup_append'.mp hnodup
    rw [nodesAll, Notes.AlikeOn.append_iff, KeepsAll, outcome_checkPresent p notes hp.1]
    rcases checkAllBy_cons_cases h with ⟨⟨f, rfl⟩, hfirst⟩ | ⟨middle, hfirst, hrest⟩
    · -- the others were not reached
      rw [alikeOn_iff_keepsOption p hp.1 hnodupP hfirst, hfirst]
      have hothers : Notes.AlikeOn (nodesAll ps) notes notes' := by
        apply Notes.AlikeOn.of_note_eq
        rw [map_fst_nodesAll]
        exact fun i hi => checkPresentBy_frame p hfirst i fun hi' => hdisjoint hi' hi
      refine and_congr_right fun _ => ⟨fun _ middle hmiddle => ?_, fun _ => hothers⟩
      cases hmiddle
    · -- the check of the first one and that of the others do not touch each other's notes
      have hframe : ∀ i ∈ (nodesOf p).map Prod.fst, middle.note i = notes'.note i := by
        rw [map_fst_nodesOf]
        exact fun i hi => (checkAllBy_frame ps hrest i fun hi' => hdisjoint hi hi').symm
      have hframe' : ∀ i ∈ (nodesAll ps).map Prod.fst, middle.note i = notes.note i := by
        rw [map_fst_nodesAll]
        exact fun i hi => checkPresentBy_frame p hfirst i fun hi' => hdisjoint hi' hi
      rw [Notes.AlikeOn.congr (fun _ _ => rfl) hframe,
        alikeOn_iff_keepsOption p hp.1 hnodupP hfirst,
        Notes.AlikeOn.congr hframe' (fun _ _ => rfl),
        alikeOn_iff_keepsAll ps hp.2 hnodupPs hrest, hfirst]
      refine and_congr_right fun _ => ⟨fun hkeeps m hm => ?_, fun hkeeps => hkeeps middle rfl⟩
      cases hm
      exact hkeeps

end

/-! ### What a fault leaves alone -/

/-- Notes on plain operands stay so. -/
def PlainLe (before after : Notes) : Prop :=
  ∀ id, (before.note id).IsPlain → (after.note id).IsPlain

theorem PlainLe.trans {a b d : Notes} (hab : PlainLe a b) (hbd : PlainLe b d) : PlainLe a d :=
  fun id h => hbd id (hab id h)

theorem plainLe_change {notes : Notes} {id : Label} {f : Note → Note}
    (hf : ∀ note : Note, note.IsPlain → (f note).IsPlain) : PlainLe notes (notes.change id f) := by
  intro i hi
  by_cases hsame : i = id
  · subst hsame
    rw [Notes.note_change_self]
    exact hf _ hi
  · rwa [Notes.note_change_ne notes f hsame]

theorem PlainLe.marked {schema : Option EntityId} {id : Label} {r : Except Fault Unit}
    {before middle after : Notes} (h : PlainLe before middle)
    (hafter : after = middle ∨ r = .ok () ∧ after = middle.change id (Note.markedFor schema)) :
    PlainLe before after := by
  rcases hafter with rfl | ⟨-, rfl⟩
  · exact h
  · exact h.trans (plainLe_change fun _ hn => (hn.markedFor schema).plain)

mutual

/-- A check of a plain predicate keeps notes plain, whatever its end. -/
theorem plainLe_of_checkBy {schema : Option EntityId} {notes notes' : Notes}
    {r : Except Fault Unit} : ∀ p : Predicate, p.IsPlain →
      outcome (checkBy c true schema p) notes = (r, notes') → PlainLe notes notes'
  | .passthrough id text, _, h => by
    rcases Check.gate_cases h with ⟨-, rfl⟩ | ⟨-, middle, hstep, hafter⟩
    · exact fun _ hi => hi
    · cases hstep
      exact PlainLe.marked (fun _ hi => hi) hafter
  | .unary id op operand, hp, h => by
    rcases Check.gate_cases h with ⟨-, rfl⟩ | ⟨-, middle, hoperand, hafter⟩
    · exact fun _ hi => hi
    · exact (plainLe_of_checkPresentBy operand hp.2 hoperand).marked hafter
  | .logical id op children, hp, h => by
    rcases Check.gate_cases h with ⟨-, rfl⟩ | ⟨-, middle, hchildren, hafter⟩
    · exact fun _ hi => hi
    · exact (plainLe_of_checkAllBy children hp.2 hchildren).marked hafter
  | .comparison id op left right, hp, h => by
    rcases checkBy_comparison_cases h with ⟨-, rfl⟩ | ⟨-, -, l, r, hlr, rfl⟩
    · exact fun _ hi => hi
    · obtain ⟨hl, hr⟩ := operandsOf_isPlain hp.2.1 hp.2.2 hlr
      apply PlainLe.trans (plainLe_change fun _ hn => hn.withOperands hl hr)
      exact plainLe_change fun _ hn => (hn.markedFor schema).plain
  | .quantified id op collection body, hp, h => by
    rcases checkBy_quantified_cases h with ⟨-, rfl⟩ | ⟨-, e, middle, he, hbody, hafter⟩
    · exact fun _ hi => hi
    · have hcollection := collectionOf_isPlain hp.2.1 he
      have hnoted : PlainLe notes (notes.change id (Note.withCollection e)) :=
        plainLe_change fun _ hn => hn.withCollection hcollection
      exact (hnoted.trans (plainLe_of_checkPresentBy body hp.2.2 hbody)).marked hafter
  | .bare _, hp, _ => hp.elim

theorem plainLe_of_checkPresentBy {schema : Option EntityId} {notes notes' : Notes}
    {r : Except Fault Unit} : ∀ p : Option Predicate, PlainOption p →
      outcome (checkPresentBy c true schema p) notes = (r, notes') → PlainLe notes notes'
  | none, _, h => by
    cases h
    exact fun _ hi => hi
  | some p, hp, h => plainLe_of_checkBy p hp h

theorem plainLe_of_checkAllBy {schema : Option EntityId} {notes notes' : Notes}
    {r : Except Fault Unit} : ∀ ps : List (Option Predicate), PlainAll ps →
      outcome (checkAllBy c true schema ps) notes = (r, notes') → PlainLe notes notes'
  | [], _, h => by
    cases h
    exact fun _ hi => hi
  | p :: ps, hp, h => by
    rcases checkAllBy_cons_cases h with ⟨-, hfirst⟩ | ⟨middle, hfirst, hrest⟩
    · exact plainLe_of_checkPresentBy p hp.1 hfirst
    · exact (plainLe_of_checkPresentBy p hp.1 hfirst).trans (plainLe_of_checkAllBy ps hp.2 hrest)

end

/-- A check that fails leaves the mark of the topmost node as it was. -/
theorem checked_of_check_error {schema : Option EntityId} {notes notes' : Notes} {fault : Fault}
    {p : Predicate} {id : Label} (hp : p.IsPlain) (hnodup : p.labels.Nodup) (hid : p.label = some id)
    (h : outcome (checkBy c true schema p) notes = (.error fault, notes')) :
    (notes'.note id).checked = (notes.note id).checked := by
  cases p
  case passthrough =>
    cases hid
    rcases Check.gate_cases h with ⟨-, rfl⟩ | ⟨-, middle, hstep, -⟩
    · rfl
    · cases hstep
  case unary operand =>
    cases hid
    rcases Check.gate_cases h with ⟨-, rfl⟩ | ⟨-, middle, hoperand, rfl | ⟨⟨⟩, -⟩⟩
    · rfl
    · rw [checkPresentBy_frame operand hoperand id (List.nodup_cons.mp hnodup).1]
  case logical children =>
    cases hid
    rcases Check.gate_cases h with ⟨-, rfl⟩ | ⟨-, middle, hchildren, rfl | ⟨⟨⟩, -⟩⟩
    · rfl
    · rw [checkAllBy_frame children hchildren id (List.nodup_cons.mp hnodup).1]
  case comparison =>
    cases hid
    rcases checkBy_comparison_cases h with ⟨-, rfl⟩ | ⟨-, ⟨⟩, -⟩
    rfl
  case quantified body =>
    cases hid
    rcases checkBy_quantified_cases h with ⟨-, rfl⟩ | ⟨-, e, middle, -, hbody, rfl | ⟨⟨⟩, -⟩⟩
    · rfl
    · rw [checkPresentBy_frame body hbody id (List.nodup_cons.mp hnodup).1, Notes.note_change_self]
      rfl
  case bare => exact hp.elim

/-! ### Without a schema -/

mutual

/-- Without a schema every node is checked each time, so what a check finds does not depend on what
was noted before. -/
theorem check_none_again {a a' : Notes} : ∀ p : Predicate, p.IsPlain → p.labels.Nodup →
    outcome (Predicate.check c none p) a = (.ok (), a') → ∀ b : Notes,
      ∃ b', outcome (Predicate.check c none p) b = (.ok (), b') ∧ Notes.AlikeOn p.nodes a' b'
  | .passthrough id text, _, _, _, b => by
    refine ⟨_, check_passthrough_ok_iff.mpr (.inr ⟨not_skips_none, rfl⟩), fun i q hq => ?_⟩
    cases List.mem_singleton.mp hq
    rfl
  | .unary id op operand, hp, hnodup, h, b => by
    obtain ⟨-, hnodup⟩ := List.nodup_cons.mp hnodup
    rcases check_unary_ok_iff.mp h with ⟨hskip, -⟩ | ⟨-, middle, hoperand, rfl⟩
    · exact (not_skips_none hskip).elim
    · obtain ⟨middle', hoperand', hsame⟩ := checkPresent_none_again operand hp.2 hnodup hoperand b
      refine ⟨_, check_unary_ok_iff.mpr (.inr ⟨not_skips_none, middle', hoperand', rfl⟩), ?_⟩
      apply ((Notes.AlikeOn.markedFor _ middle id none).symm.trans _).trans
        (Notes.AlikeOn.markedFor _ middle' id none)
      exact Notes.AlikeOn.cons_iff.mpr ⟨rfl, hsame⟩
  | .logical id op children, hp, hnodup, h, b => by
    obtain ⟨-, hnodup⟩ := List.nodup_cons.mp hnodup
    rcases check_logical_ok_iff.mp h with ⟨hskip, -⟩ | ⟨-, middle, hchildren, rfl⟩
    · exact (not_skips_none hskip).elim
    · obtain ⟨middle', hchildren', hsame⟩ := checkAll_none_again children hp.2 hnodup hchildren b
      refine ⟨_, check_logical_ok_iff.mpr (.inr ⟨not_skips_none, middle', hchildren', rfl⟩), ?_⟩
      apply ((Notes.AlikeOn.markedFor _ middle id none).symm.trans _).trans
        (Notes.AlikeOn.markedFor _ middle' id none)
      exact Notes.AlikeOn.cons_iff.mpr ⟨rfl, hsame⟩
  | .comparison id op left right, hp, _, h, b => by
    rcases (check_comparison_ok_iff hp.2.1 hp.2.2).mp h with ⟨hskip, -⟩ | ⟨-, l, r, hlr, rfl⟩
    · exact (not_skips_none hskip).elim
    · refine ⟨_, (check_comparison_ok_iff hp.2.1 hp.2.2).mpr
        (.inr ⟨not_skips_none, l, r, hlr, rfl⟩), fun i q hq => ?_⟩
      cases List.mem_singleton.mp hq
      rw [Notes.note_change_self, Notes.note_change_self, Notes.note_change_self,
        Notes.note_change_self]
      rfl
  | .quantified id op collection body, hp, hnodup, h, b => by
    obtain ⟨hid, hnodup⟩ := List.nodup_cons.mp hnodup
    rcases (check_quantified_ok_iff hp.2.1 hp.1).mp h with
      ⟨hskip, -⟩ | ⟨-, e, middle, he, hbody, rfl⟩
    · exact (not_skips_none hskip).elim
    · have hnone : e.entity? = none := entity?_of_isSchemaless rfl he
      have hnote := checkPresent_frame body hp.2.2 hbody id hid
      rw [hnone] at hbody
      obtain ⟨middle', hbody', hsame⟩ := checkPresent_none_again body hp.2.2 hnodup hbody
        (b.change id (Note.withCollection e))
      have hnote' := checkPresent_frame body hp.2.2 hbody' id hid
      rw [← hnone] at hbody'
      refine ⟨_, (check_quantified_ok_iff hp.2.1 hp.1).mpr
        (.inr ⟨not_skips_none, e, middle', he, hbody', rfl⟩), ?_⟩
      apply ((Notes.AlikeOn.markedFor _ middle id none).symm.trans _).trans
        (Notes.AlikeOn.markedFor _ middle' id none)
      refine Notes.AlikeOn.cons_iff.mpr ⟨?_, hsame⟩
      -- both notes hold the collection that was found
      rw [hnote, hnote', Notes.note_change_self, Notes.note_change_self]
      rfl
  | .bare _, hp, _, _, _ => hp.elim

theorem checkPresent_none_again {a a' : Notes} : ∀ p : Option Predicate, PlainOption p →
    (labelsOf p).Nodup → outcome (checkPresent c none p) a = (.ok (), a') → ∀ b : Notes,
      ∃ b', outcome (checkPresent c none p) b = (.ok (), b') ∧ Notes.AlikeOn (nodesOf p) a' b'
  | none, _, _, h, _ => by cases h
  | some p, hp, hnodup, h, b => check_none_again p hp hnodup h b

theorem checkAll_none_again {a a' : Notes} : ∀ ps : List (Option Predicate), PlainAll ps →
    (labelsAll ps).Nodup → outcome (checkAll c none ps) a = (.ok (), a') → ∀ b : Notes,
      ∃ b', outcome (checkAll c none ps) b = (.ok (), b') ∧ Notes.AlikeOn (nodesAll ps) a' b'
  | [], _, _, h, b => by
    cases h
    exact ⟨b, rfl, fun _ _ hq => by cases hq⟩
  | p :: ps, hp, hnodup, h, b => by
    obtain ⟨hnodupP, hnodupPs, hdisjoint⟩ := List.nodup_append'.mp hnodup
    obtain ⟨middle, hfirst, hrest⟩ := checkAll_cons_ok_iff.mp h
    obtain ⟨middle', hfirst', hsame⟩ := checkPresent_none_again p hp.1 hnodupP hfirst b
    obtain ⟨b', hrest', hsame'⟩ := checkAll_none_again ps hp.2 hnodupPs hrest middle'
    refine ⟨b', checkAll_cons_ok_iff.mpr ⟨middle', hfirst', hrest'⟩,
      Notes.AlikeOn.append_iff.mpr ⟨?_, hsame'⟩⟩
    -- the others do not touch what was found for the first one
    refine (Notes.AlikeOn.congr ?_ ?_).mp hsame
    · rw [map_fst_nodesOf]
      exact fun i hi => checkAll_frame ps hp.2 hrest i fun hi' => hdisjoint hi hi'
    · rw [map_fst_nodesOf]
      exact fun i hi => checkAll_frame ps hp.2 hrest' i fun hi' => hdisjoint hi hi'

end

end

end Predicate

/-! ### Validating and using again -/

section

variable {c : Catalog} {default : Except Fault TextPolicy} {source : ContextSource} {p : Predicate}
  {notes notes' start start' : Notes}

theorem Node.outcome_validate {schema : Option EntityId} (hp : p.IsPlain) :
    outcome ((Node.predicate p).validate c schema) notes =
      ((outcome (Predicate.checkBy c true schema p) notes).1,
        (outcome (Predicate.checkBy c true schema p) notes).2.refreshed c) := by
  rw [Node.validate, Check.outcome_settled, ← Predicate.outcome_check p notes hp]
  rfl

/-- A validation is a check after which the notes are brought up to date. They are so already when
they are plain. -/
theorem Node.validate_cases {schema : Option EntityId} {r : Except Fault Unit} (hp : p.IsPlain)
    (hplain : notes.On Note.IsPlain p.labels)
    (h : outcome ((Node.predicate p).validate c schema) notes = (r, notes')) :
    notes'.On Note.IsPlain p.labels ∧
      ∃ middle, outcome (Predicate.checkBy c true schema p) notes = (r, middle) ∧
        ∀ id ∈ p.labels, notes'.note id = middle.note id := by
  rw [Node.outcome_validate hp] at h
  rcases e : outcome (Predicate.checkBy c true schema p) notes with ⟨r', middle⟩
  rw [e] at h
  cases h
  have hmiddle : middle.On Note.IsPlain p.labels := fun id hid =>
    Predicate.plainLe_of_checkBy p hp e id (hplain id hid)
  have hsame : ∀ id ∈ p.labels, (middle.refreshed c).note id = middle.note id := fun id hid =>
    Notes.note_refreshed c middle (hmiddle id hid)
  exact ⟨hmiddle.congr hsame, middle, rfl, hsame⟩

namespace Predicate

/-- A predicate that was validated stays valid as long as the topmost node keeps its mark. Under a
schema the operands are then those that are noted now, and without one they are those that were
found before. -/
theorem validate_again {schema : Option EntityId} {held now : Notes} (hp : p.IsPlain)
    (hnodup : p.labels.Nodup) (hplain : start.On Note.IsPlain p.labels)
    (hvalidate : outcome ((Node.predicate p).validate c schema) start = (.ok (), held))
    (hnow : now.On Note.IsPlain p.labels)
    (hmark : ∀ id, p.label = some id → (now.note id).checked = (held.note id).checked) :
    ∃ again, outcome ((Node.predicate p).validate c schema) now = (.ok (), again) ∧
      again.On Note.IsPlain p.labels ∧
      Notes.AlikeOn p.nodes (if schema = none then held else now) again := by
  obtain ⟨-, middle, hmiddle, hheld⟩ := Node.validate_cases hp hplain hvalidate
  have hcheck : outcome (Predicate.check c schema p) start = (.ok (), middle) :=
    (check_iff_checkBy p hp).mpr hmiddle
  -- the check that takes place now
  obtain ⟨final, hfinal, hsame⟩ : ∃ final, outcome (Predicate.check c schema p) now = (.ok (), final) ∧
      Notes.AlikeOn p.nodes (if schema = none then held else now) final := by
    rcases schema with - | entity
    · obtain ⟨final, hfinal, hsame⟩ := check_none_again p hp hnodup hcheck now
      have hheld' : Notes.AlikeOn p.nodes held middle :=
        alikeOn_of_note_eq fun id hid => (hheld id hid).symm
      exact ⟨final, hfinal, hheld'.trans hsame⟩
    · obtain ⟨id, hmem, hid⟩ := exists_label hp
      have hskip : Check.Skips (some entity) id now := by
        refine ⟨rfl, ?_⟩
        rw [hmark id hid, hheld id hmem, checked_of_check hp hid hcheck]
      exact ⟨now, check_of_skips hp hid hskip, .refl _ _⟩
  have hagain : outcome ((Node.predicate p).validate c schema) now = (.ok (), final.refreshed c) :=
    Node.validate_ok_iff.mpr ⟨final, hfinal, rfl⟩
  obtain ⟨hplain', final', hfinal', hsame'⟩ := Node.validate_cases hp hnow hagain
  cases ((check_iff_checkBy p hp).mp hfinal).symm.trans hfinal'
  exact ⟨_, hagain, hplain', hsame.trans (alikeOn_of_note_eq hsame')⟩

/-! ### A fault in the second of two parts -/

/-- A predicate about which nothing is known is valid when its condition can be resolved, and then
its notes are those that one check leaves. -/
theorem validate_unknown {schema : Option EntityId} {t : Resolved} (hp : p.IsPlain)
    (hnodup : p.labels.Nodup) (hunknown : IsUnknown p.labels notes)
    (ht : p.condition.resolve c schema = .ok t) :
    ∃ held, outcome ((Node.predicate p).validate c schema) notes = (.ok (), held) ∧
      p.labels.map held.note = t.notes schema := by
  obtain ⟨held, hheld⟩ := validateBy_ok_of_resolve true notes ht
  obtain ⟨u, hu, hnotes⟩ := isValidated_of_validateBy hp hnodup (.inl hunknown) hheld
  cases ht.symm.trans hu
  exact ⟨held, (validate_ok_iff_validateBy hp).mpr hheld, hnotes⟩

/-- The parts of a joined predicate are checked in turn. When the second one has no operands under
the schema, those of the first one are noted already. -/
theorem check_of_second_fault {schema : Option EntityId} {i j k : Label} {op op₁ op₂ : Operator}
    {left right left' right' : Value} {l r : Expr} {fault : Fault}
    (hi : ¬ Check.Skips schema i notes) (hj : ¬ Check.Skips schema j notes)
    (hk : ¬ Check.Skips schema k notes) (hij : j ≠ i)
    (hlr : operandsOf c schema left right = .ok (l, r))
    (hfault : operandsOf c schema left' right' = .error fault) :
    outcome (checkBy c true schema (.logical k op
        [some (.comparison i op₁ left right), some (.comparison j op₂ left' right')])) notes =
      (.error fault, (notes.change i (Note.withOperands l r)).change i (Note.markedFor schema)) := by
  have hfirst : outcome (checkBy c true schema (.comparison i op₁ left right)) notes =
      (.ok (), (notes.change i (Note.withOperands l r)).change i (Note.markedFor schema)) :=
    checkBy_comparison_ok_iff.mpr (.inr ⟨fun h => hi h.2, l, r, hlr, rfl⟩)
  generalize (notes.change i (Note.withOperands l r)).change i (Note.markedFor schema) = middle
    at hfirst
  -- the second part is not skipped either, so its operands are looked for
  have hj' : ¬ Check.Skips schema j middle := by
    rwa [Check.Skips, checkBy_frame _ hfirst j fun h => hij (List.mem_singleton.mp h)]
  have hnone : outcome (liftM (operandsOf c schema left' right') : Check (Expr × Expr)) middle =
      (.error fault, middle) := by
    rw [hfault]
    exact outcome_lift _
  have hsecond : outcome (checkBy c true schema (.comparison j op₂ left' right')) middle =
      (.error fault, middle) :=
    (Check.outcome_once_of_not_skips hj').trans (outcome_bind_of_error (outcome_bind_of_error hnone))
  have hall : outcome (checkAllBy c true schema
      [some (.comparison i op₁ left right), some (.comparison j op₂ left' right')]) notes =
        (.error fault, middle) :=
    (outcome_bind_of_ok hfirst).trans (outcome_bind_of_error hsecond)
  exact (Check.outcome_once_of_not_skips hk).trans (outcome_bind_of_error hall)

theorem not_skips_of_note {schema other : Option EntityId} {id : Label} {note : Note} (hne : other ≠ schema)
    (h : notes.note id = Note.markedFor other note) : ¬ Check.Skips schema id notes := by
  rintro ⟨-, hchecked⟩
  rw [h] at hchecked
  exact hne hchecked

/-- The failed validation of such a predicate changes the note of the first part and no other one. -/
theorem notes_after_second_fault {schema : Option EntityId} {i j k : Label} {op op₁ op₂ : Operator}
    {left right left' right' : Value} {l r : Expr} {fault : Fault} {p : Predicate}
    (hshape : p = .logical k op
      [some (.comparison i op₁ left right), some (.comparison j op₂ left' right')])
    (hp : p.IsPlain) (hik : i ≠ k) (hji : j ≠ i) (hplain : notes.On Note.IsPlain p.labels)
    (hi : ¬ Check.Skips schema i notes) (hj : ¬ Check.Skips schema j notes)
    (hk : ¬ Check.Skips schema k notes)
    (hlr : operandsOf c schema left right = .ok (l, r))
    (hfault : operandsOf c schema left' right' = .error fault) :
    ∃ after, outcome ((Node.predicate p).validate c schema) notes = (.error fault, after) ∧
      after.On Note.IsPlain p.labels ∧ after.note k = notes.note k ∧ after.note j = notes.note j ∧
      after.note i = ((notes.note i).withOperands l r).markedFor schema := by
  have hcheck : outcome (checkBy c true schema p) notes = (.error fault,
      (notes.change i (Note.withOperands l r)).change i (Note.markedFor schema)) := by
    rw [hshape]
    exact check_of_second_fault hi hj hk hji hlr hfault
  have hvalidate : outcome ((Node.predicate p).validate c schema) notes = _ :=
    Node.outcome_validate hp
  rw [hcheck] at hvalidate
  subst hshape
  obtain ⟨hplain', middle, hmiddle, hsame⟩ := Node.validate_cases hp hplain hvalidate
  cases hcheck.symm.trans hmiddle
  refine ⟨_, hvalidate, hplain', ?_, ?_, ?_⟩
  · rw [hsame k List.mem_cons_self, Notes.note_change_ne _ _ hik.symm,
      Notes.note_change_ne _ _ hik.symm]
  · rw [hsame j (by simp [labels, labelsAll, labelsOf]), Notes.note_change_ne _ _ hji,
      Notes.note_change_ne _ _ hji]
  · rw [hsame i (by simp [labels, labelsAll, labelsOf]), Notes.note_change_self,
      Notes.note_change_self]

/-- A predicate whose root is marked for the schema is valid under it and stays what it is. -/
theorem HeldBy.validate_of_skips {schema : Option EntityId} {id : Label} {t : Resolved}
    (ht : p.HeldBy notes t) (hp : p.IsPlain) (hid : p.label = some id)
    (hskip : Check.Skips schema id notes) :
    ∃ again, outcome ((Node.predicate p).validate c schema) notes = (.ok (), again) ∧
      p.HeldBy again t :=
  ⟨_, Node.validate_ok_iff.mpr ⟨_, check_of_skips hp hid hskip, rfl⟩, ht.refreshed c⟩

/-- **A stale part after a failed validation.** A predicate that joins two comparisons is valid under
one schema. Under another one the second comparison has no operands, so the validation fails. When
the predicate is then used under the first schema, the first comparison has the operands that it has
under the other one. -/
theorem validations_of_second_fault {first second : EntityId} {i j k : Label}
    {op op₁ op₂ : Operator} {left right left' right' : Value} {l₁ r₁ l₂ r₂ l r : Expr} {fault : Fault}
    (hp : IsPlain (.logical k op
      [some (.comparison i op₁ left right), some (.comparison j op₂ left' right')]))
    (hik : i ≠ k) (hjk : j ≠ k) (hji : j ≠ i) (hne : some first ≠ some second)
    (h₁ : operandsOf c (some first) left right = .ok (l₁, r₁))
    (h₂ : operandsOf c (some first) left' right' = .ok (l₂, r₂))
    (hlr : operandsOf c (some second) left right = .ok (l, r))
    (hfault : operandsOf c (some second) left' right' = .error fault) :
    let p : Predicate := .logical k op
      [some (.comparison i op₁ left right), some (.comparison j op₂ left' right')]
    ∃ held after, outcome ((Node.predicate p).validate c (some first)) [] = (.ok (), held) ∧
      outcome ((Node.predicate p).validate c (some second)) held = (.error fault, after) ∧
      (l₁.unmarked = l.unmarked → r₁.unmarked = r.unmarked → p.Keeps c held (some second)) ∧
      (∃ usual, outcome ((Node.predicate p).validate c (some first)) held = (.ok (), usual) ∧
        p.HeldBy usual (.logical op [.comparison op₁ l₁ r₁, .comparison op₂ l₂ r₂])) ∧
      ∃ again, outcome ((Node.predicate p).validate c (some first)) after = (.ok (), again) ∧
        p.HeldBy again (.logical op [.comparison op₁ l r, .comparison op₂ l₂ r₂]) := by
  intro p
  have hnodup : p.labels.Nodup := by simp [p, labels, labelsAll, labelsOf, hik.symm, hjk.symm, hji.symm]
  have hresolve : p.condition.resolve c (some first) =
      .ok (.logical op [.comparison op₁ l₁ r₁, .comparison op₂ l₂ r₂]) := by
    simp only [p, condition, conditions, conditionOf, Condition.resolve, Condition.resolveAll, h₁, h₂,
      ok_bind, pure_eq_ok]
  have hblank : Notes.On Note.IsPlain p.labels [] := fun _ _ => Note.isPlain_default
  obtain ⟨held, hheld, hnotes⟩ := validate_unknown hp hnodup (fun _ _ => Notes.note_nil _) hresolve
  obtain ⟨hplain, -⟩ := Node.validate_cases hp hblank hheld
  -- the notes that the first validation leaves
  obtain ⟨hk, hnotes⟩ := List.cons.inj hnotes
  obtain ⟨hi, hnotes⟩ := List.cons.inj hnotes
  have hj := (List.cons.inj hnotes).1
  -- what is noted after the failed validation
  obtain ⟨after, hsecond, hplain', hk', hj', hi'⟩ := notes_after_second_fault rfl hp hik hji hplain
    (not_skips_of_note hne hi) (not_skips_of_note hne hj) (not_skips_of_note hne hk) hlr hfault
  have hskip : ∀ {notes : Notes}, notes.note k = held.note k → Check.Skips (some first) k notes := by
    intro notes hnote
    rw [Check.Skips, hnote, hk]
    exact ⟨rfl, rfl⟩
  have husual : p.HeldBy held (.logical op [.comparison op₁ l₁ r₁, .comparison op₂ l₂ r₂]) := by
    refine ⟨?_, hplain⟩
    simp only [p, resolvedIn, resolvedAll, resolvedOption, hi, hj]
    rfl
  have hstale : p.HeldBy after (.logical op [.comparison op₁ l r, .comparison op₂ l₂ r₂]) := by
    refine ⟨?_, hplain'⟩
    simp only [p, resolvedIn, resolvedAll, resolvedOption, hi', hj', hj]
    rfl
  refine ⟨held, after, hheld, hsecond, fun hl hr => ?_, husual.validate_of_skips hp rfl (hskip rfl),
    hstale.validate_of_skips hp rfl (hskip hk')⟩
  -- the second comparison has no operands that could differ
  rintro -
  refine ⟨fun _ l' r' hlr' => ?_, fun middle hfirst => ⟨fun _ l' r' hlr' => ?_, fun _ _ => trivial⟩⟩
  · cases hlr.symm.trans hlr'
    rw [hi]
    exact ⟨congrArg some hl, congrArg some hr⟩
  · cases hfault.symm.trans hlr'

/-! ### Uses after a failed validation -/

/-- **Failed validations.** A predicate in which no node occurs twice is validated against one
schema with success, and then against another one without. It is still valid under the first one.
Its operands are the same as without the failed call exactly when there is no first schema, or when
the failed check has kept them as far as it got, and then all uses under the first schema are the
same as well. -/
theorem failed_validation_iff {held after : Notes} {first second : Option EntityId} {fault : Fault}
    (hp : p.IsPlain) (hnodup : p.labels.Nodup) (hplain : start.On Note.IsPlain p.labels)
    (hfirst : outcome ((Node.predicate p).validate c first) start = (.ok (), held))
    (hsecond : outcome ((Node.predicate p).validate c second) held = (.error fault, after)) :
    ∃ usual again, outcome ((Node.predicate p).validate c first) held = (.ok (), usual) ∧
      outcome ((Node.predicate p).validate c first) after = (.ok (), again) ∧
      (Notes.AlikeOn p.nodes usual again ↔ first = none ∨ p.Keeps c held second) ∧
      (first = none ∨ p.Keeps c held second → ∀ source context,
        Context.ofSource source = .ok context → context.schema = first →
          SameUse c source p p held after ∧ SameUse c source p p after held) := by
  obtain ⟨hheld, -⟩ := Node.validate_cases hp hplain hfirst
  obtain ⟨hafter, middle, hcheck, hmiddle⟩ := Node.validate_cases hp hheld hsecond
  have hmark : ∀ id, p.label = some id → (after.note id).checked = (held.note id).checked := by
    intro id hid
    obtain ⟨id', hmem, hid'⟩ := exists_label hp
    cases hid.symm.trans hid'
    rw [hmiddle id hmem]
    exact checked_of_check_error hp hnodup hid hcheck
  obtain ⟨usual, husual, husualPlain, hkept⟩ :=
    validate_again hp hnodup hplain hfirst hheld fun _ _ => rfl
  obtain ⟨again, hagain, hagainPlain, hkept'⟩ :=
    validate_again hp hnodup hplain hfirst hafter hmark
  rw [ite_self] at hkept
  -- what the failed check has changed is what it did not keep
  have hkeeps : Notes.AlikeOn p.nodes held after ↔ p.Keeps c held second := by
    rw [← alikeOn_iff_keeps p hp hnodup hcheck]
    apply Notes.AlikeOn.congr (fun _ _ => rfl)
    rw [map_fst_nodes]
    exact fun id hid => (hmiddle id hid).symm
  have hiff : Notes.AlikeOn p.nodes usual again ↔ first = none ∨ p.Keeps c held second := by
    rcases first with - | entity
    · exact ⟨fun _ => .inl rfl, fun _ => hkept.symm.trans hkept'⟩
    · rw [← hkeeps, eq_false (Option.some_ne_none entity), false_or]
      exact ⟨fun h => hkept.trans (h.trans hkept'.symm), fun h => hkept.symm.trans (h.trans hkept')⟩
  refine ⟨usual, again, husual, hagain, hiff, ?_⟩
  rintro h source context hsource rfl
  have hsame := hiff.mpr h
  exact ⟨sameUse_of_alikeOn hp hsource husual hagain husualPlain hagainPlain hsame,
    sameUse_of_alikeOn hp hsource hagain husual hagainPlain husualPlain hsame.symm⟩

theorem failed_validation_harmless :
    let c : Catalog := [⟨.text "Item", [⟨"code", .data .string⟩, ⟨"qty", .data .int32⟩], false, none,
      .same⟩, ⟨.text "Entry", [⟨"code", .data .string⟩], false, none, .same⟩]
    let eq : Operator := ⟨.text "eq", ["==", "=", "equals"], false⟩
    let p : Predicate := .logical 2 ⟨.text "and", ["&&"], false⟩
      [some (.comparison 0 eq (.text "code") (.text "5")),
        some (.comparison 1 eq (.text "qty") (.int 1))]
    ∃ held after fault, outcome ((Node.predicate p).validate c (some 0)) [] = (.ok (), held) ∧
      outcome ((Node.predicate p).validate c (some 1)) held = (.error fault, after) ∧
      p.Keeps c held (some 1) ∧
      SameUse c (.entity 0) p p held after ∧ SameUse c (.entity 0) p p after held := by
  intro c eq p
  have hp : p.IsPlain := by
    simp [p, eq, IsPlain, PlainAll, PlainOption, Operator.IsPlain, Value.IsPlain]
  have hblank : Notes.On Note.IsPlain p.labels [] := fun _ _ => Note.isPlain_default
  let code (schema : EntityId) : Expr × Expr :=
    (.path (.text "code") (some (.data .string)) (Mark.after (some schema) {}),
      .literal (.text "5") (some (.data .string)) false (Mark.after (some schema) {}))
  -- under both schemas the first comparison has the same operands, but for their marks
  have hcode : operandsOf c (some 0) (.text "code") (.text "5") = .ok (code 0) := by rfl
  have hcode' : operandsOf c (some 1) (.text "code") (.text "5") = .ok (code 1) := by rfl
  obtain ⟨held, after, hfirst, hsecond, hkeeps, -⟩ :=
    validations_of_second_fault hp (by decide) (by decide) (by decide) (by decide)
      hcode rfl hcode' rfl
  obtain ⟨-, -, -, -, -, hsame⟩ := failed_validation_iff hp (by decide) hblank hfirst hsecond
  obtain ⟨hsame, hsame'⟩ := hsame (.inr (hkeeps rfl rfl)) (.entity 0) _ rfl rfl
  exact ⟨held, after, _, hfirst, hsecond, hkeeps rfl rfl, hsame, hsame'⟩

theorem failed_validation_changes_use :
    let c : Catalog := [⟨.text "Item", [⟨"code", .data .string⟩, ⟨"qty", .data .int32⟩], false, none,
      .same⟩, ⟨.text "Entry", [⟨"code", .data .int32⟩], false, none, .same⟩]
    let eq : Operator := ⟨.text "eq", ["==", "=", "equals"], false⟩
    let p : Predicate := .logical 2 ⟨.text "and", ["&&"], false⟩
      [some (.comparison 0 eq (.text "code") (.text "5")),
        some (.comparison 1 eq (.text "qty") (.int 1))]
    let record : Value := .map [(.text "code", .int 5), (.text "qty", .int 1)]
    outcome (Filter.readArguments [.map [(.text "code", .text "5"), (.text "qty", .int 1)]]) {} =
        (.ok (some p), ⟨3, []⟩) ∧
      ∃ held after fault, outcome ((Node.predicate p).validate c (some 0)) [] = (.ok (), held) ∧
        outcome ((Node.predicate p).validate c (some 1)) held = (.error fault, after) ∧
        ∃ program notes₁ other notes₂,
          outcome ((Node.predicate p).compile c (.ok {}) (.entity 0)) held = (.ok program, notes₁) ∧
            outcome ((Node.predicate p).compile c (.ok {}) (.entity 0)) after = (.ok other, notes₂) ∧
              program.Returns record (.bool false) ∧ other.Returns record (.bool true) := by
  intro c eq p record
  have hp : p.IsPlain := by
    simp [p, eq, IsPlain, PlainAll, PlainOption, Operator.IsPlain, Value.IsPlain]
  let code (schema : EntityId) (type : DataType) (v : Value) : Expr × Expr :=
    (.path (.text "code") (some (.data type)) (Mark.after (some schema) {}),
      .literal v (some (.data type)) false (Mark.after (some schema) {}))
  let qty : Expr × Expr :=
    (.path (.text "qty") (some (.data .int32)) (Mark.after (some 0) {}),
      .literal (.int 1) (some (.data .int32)) false {})
  have hcode : operandsOf c (some 0) (.text "code") (.text "5") =
      .ok (code 0 .string (.text "5")) := by rfl
  have hqty : operandsOf c (some 0) (.text "qty") (.int 1) = .ok qty := by rfl
  have hcode' : operandsOf c (some 1) (.text "code") (.text "5") = .ok (code 1 .int32 (.int 5)) := by
    rfl
  obtain ⟨held, after, hfirst, hsecond, -, ⟨usual, husual, hheld⟩, again, hagain, hheld'⟩ :=
    validations_of_second_fault hp (by decide) (by decide) (by decide) (by decide) hcode hqty hcode' rfl
  have hsource : Context.ofSource (.entity 0) = .ok { schema := some 0 } := rfl
  refine ⟨rfl, held, after, _, hfirst, hsecond, _, _, _, _,
    compile_of_ready hsource husual hheld rfl, compile_of_ready hsource hagain hheld' rfl, ?_, ?_⟩
  · intro current now
    rw [Program.outcome_run hp hheld]
    change Except.map Value.bool (do
      if (← Value.equal (.int 5) (.text "5")) == true then
        if (← Value.equal (.int 1) (.int 1)) == true then .ok true else .ok false
      else .ok false) = _
    simp only [Value.equal]
    rfl
  · intro current now
    rw [Program.outcome_run hp hheld']
    change Except.map Value.bool (do
      if (← Value.equal (.int 5) (.int 5)) == true then
        if (← Value.equal (.int 1) (.int 1)) == true then .ok true else .ok false
      else .ok false) = _
    simp only [Value.equal]
    rfl

end Predicate

end

end RecordFilter
