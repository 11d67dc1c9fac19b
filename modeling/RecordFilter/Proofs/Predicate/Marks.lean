import RecordFilter.Proofs.Predicate.Nodes
import RecordFilter.Proofs.Predicate.Using

/-!
# Marks on nodes that stand at several places

A node may stand at several places, of one predicate or of many, and is then checked more than once.
Its note holds what the last check has found: the schema of that check and the operands under it.
Whatever the order of checks, a note is never out of step with itself: the operands in it are those
under the schema in it, and what the node is made of bears marks as well (`Predicate.Settled`). A
check moves notes from one such state to another one (`Predicate.advances_of_check`).
-/

namespace RecordFilter

/-! ### Notes in step -/

/-- The operands of the note are plain, and a note with a schema was written by a check. -/
structure Note.IsProper (note : Note) : Prop where
  plain : note.IsPlain
  marked : note.checked.isSome → note.wasChecked

/-- All notes are proper ones. -/
def Notes.IsProper (notes : Notes) : Prop :=
  ∀ id, (notes.note id).IsProper

/-- The node was checked. -/
def Predicate.IsMarked (notes : Notes) (p : Predicate) : Prop :=
  ∃ id, p.label = some id ∧ (notes.note id).wasChecked

/-- The nodes are there and were checked. -/
def Predicate.AllMarked (notes : Notes) (ps : List (Option Predicate)) : Prop :=
  ∀ p ∈ ps, ∃ q, p = some q ∧ q.IsMarked notes

/-- The note on a node is in step with itself: the node was checked, the operands in the note are
those under the schema in the note, and what the node is made of was checked as well. -/
def Predicate.Settled (c : Catalog) (notes : Notes) : Predicate → Prop
  | .passthrough id _ => (notes.note id).wasChecked
  | .unary id _ operand => (notes.note id).wasChecked ∧ AllMarked notes [operand]
  | .logical id _ children => (notes.note id).wasChecked ∧ AllMarked notes children
  | .comparison id _ left right => (notes.note id).wasChecked ∧
    ∃ l r, operandsOf c (notes.note id).checked left right = .ok (l, r) ∧
      (notes.note id).left = some l ∧ (notes.note id).right = some r
  | .quantified id op collection body => (notes.note id).wasChecked ∧
    (∃ e, collectionOf c (notes.note id).checked op collection = .ok e ∧
      (notes.note id).collection = some e) ∧ AllMarked notes [body]
  | .bare _ => False

/-- What was checked stays so. -/
def Notes.MarksLe (before after : Notes) : Prop :=
  ∀ id, (before.note id).wasChecked → (after.note id).wasChecked

theorem Predicate.AllMarked.le {before after : Notes} {ps : List (Option Predicate)}
    (h : AllMarked before ps) (hle : before.MarksLe after) : AllMarked after ps := by
  intro p hp
  obtain ⟨q, hq, id, hid, hmark⟩ := h p hp
  exact ⟨q, hq, id, hid, hle id hmark⟩

/-- A node stays in step as long as its note is the same. -/
theorem Predicate.Settled.le {c : Catalog} {before after : Notes} {q : Predicate} {id : Label}
    (h : q.Settled c before) (hid : q.label = some id) (hsame : after.note id = before.note id)
    (hle : before.MarksLe after) : q.Settled c after := by
  cases q
  case passthrough =>
    cases hid
    simpa only [Settled, hsame] using h
  case unary | logical =>
    cases hid
    simp only [Settled, hsame] at h ⊢
    exact ⟨h.1, h.2.le hle⟩
  case comparison =>
    cases hid
    simpa only [Settled, hsame] using h
  case quantified =>
    cases hid
    simp only [Settled, hsame] at h ⊢
    exact ⟨h.1, h.2.1, h.2.2.le hle⟩
  case bare => exact h.elim

/-- **How notes move.** What was checked stays so, and every note either is the same or is that of
one of the nodes and in step. -/
structure Notes.Advances (c : Catalog) (nodes : List (Label × Predicate)) (before after : Notes) :
    Prop where
  marks : before.MarksLe after
  settled : ∀ id, after.note id = before.note id ∨
    ∃ q, (id, q) ∈ nodes ∧ q.label = some id ∧ q.Settled c after

namespace Notes.Advances

variable {c : Catalog} {nodes more : List (Label × Predicate)} {a b d : Notes}

theorem refl (c : Catalog) (nodes : List (Label × Predicate)) (notes : Notes) :
    Notes.Advances c nodes notes notes where
  marks _ h := h
  settled _ := .inl rfl

theorem mono (h : Notes.Advances c nodes a b) (hsub : nodes ⊆ more) :
    Notes.Advances c more a b where
  marks := h.marks
  settled id := (h.settled id).imp_right fun ⟨q, hq, hsettled⟩ => ⟨q, hsub hq, hsettled⟩

theorem trans (hab : Notes.Advances c nodes a b) (hbd : Notes.Advances c nodes b d) :
    Notes.Advances c nodes a d where
  marks id h := hbd.marks id (hab.marks id h)
  settled id := by
    rcases hbd.settled id with hsame | hsettled
    · rcases hab.settled id with hsame' | ⟨q, hq, hid, hsettled⟩
      · exact .inl (hsame.trans hsame')
      · exact .inr ⟨q, hq, hid, hsettled.le hid hsame hbd.marks⟩
    · exact .inr hsettled

/-- Notes with the same notes on all nodes move alike. -/
theorem congr (h : Notes.Advances c nodes a b) (hsame : ∀ id, d.note id = b.note id) :
    Notes.Advances c nodes a d where
  marks id hmark := by
    rw [hsame id]
    exact h.marks id hmark
  settled id := by
    refine (h.settled id).imp (hsame id).trans fun ⟨q, hq, hid, hsettled⟩ => ?_
    refine ⟨q, hq, hid, hsettled.le hid (hsame id) fun i hi => ?_⟩
    rw [hsame i]
    exact hi

theorem marks_change {notes : Notes} {id : Label} {f : Note → Note}
    (hf : (notes.note id).wasChecked → (f (notes.note id)).wasChecked) :
    notes.MarksLe (notes.change id f) := by
  intro other h
  by_cases hother : other = id
  · subst hother
    rw [Notes.note_change_self]
    exact hf h
  · rwa [Notes.note_change_ne notes f hother]

/-- The end of the check of a node that is not skipped: from `start`, where at most the note on the
node differs from what it was before, its parts are checked, and then the node gets its mark. -/
theorem finish {schema : Option EntityId} {id : Label} {q : Predicate} {before start middle : Notes}
    (hstart : ∀ other, other ≠ id → start.note other = before.note other)
    (hmarks : before.MarksLe start) (h : Notes.Advances c nodes start middle)
    (hsub : nodes ⊆ more) (hq : (id, q) ∈ more) (hid : q.label = some id)
    (hsettled : q.Settled c (middle.change id (Note.markedFor schema))) :
    Notes.Advances c more before (middle.change id (Note.markedFor schema)) := by
  have hlast : middle.MarksLe (middle.change id (Note.markedFor schema)) := marks_change fun _ => rfl
  refine ⟨fun i hi => hlast i (h.marks i (hmarks i hi)), fun i => ?_⟩
  by_cases hi : i = id
  · subst hi
    exact .inr ⟨q, hq, hid, hsettled⟩
  · have hsame := Notes.note_change_ne middle (Note.markedFor schema) hi
    rcases h.settled i with hsame' | ⟨q', hq', hid', hsettled'⟩
    · exact .inl (hsame.trans (hsame'.trans (hstart i hi)))
    · exact .inr ⟨q', hsub hq', hid', hsettled'.le hid' hsame hlast⟩

end Notes.Advances

theorem Notes.IsProper.change {notes : Notes} {id : Label} {f : Note → Note} (h : notes.IsProper)
    (hf : (f (notes.note id)).IsProper) : (notes.change id f).IsProper := by
  intro other
  by_cases hother : other = id
  · subst hother
    rwa [Notes.note_change_self]
  · rw [Notes.note_change_ne notes f hother]
    exact h other

theorem Notes.IsProper.change_markedFor {notes : Notes} {id : Label} (h : notes.IsProper)
    (schema : Option EntityId) : (notes.change id (Note.markedFor schema)).IsProper :=
  h.change ⟨((h id).plain.markedFor schema).plain, fun _ => rfl⟩

theorem Predicate.isMarked_markedFor {notes : Notes} {id : Label} {schema : Option EntityId}
    {q : Predicate} (hid : q.label = some id) :
    q.IsMarked (notes.change id (Note.markedFor schema)) := by
  refine ⟨id, hid, ?_⟩
  rw [Notes.note_change_self]
  rfl

theorem Predicate.isMarked_of_skips {notes : Notes} {id : Label} {schema : Option EntityId}
    {q : Predicate} (h : notes.IsProper) (hid : q.label = some id)
    (hskip : Check.Skips schema id notes) : q.IsMarked notes := by
  refine ⟨id, hid, (h id).marked ?_⟩
  rw [hskip.2]
  exact hskip.1

/-! ### Checks move notes -/

namespace Predicate

section

variable {c : Catalog}

mutual

/-- **A check moves notes in step**, and the predicate is marked afterwards. -/
theorem advances_of_check {schema : Option EntityId} {notes notes' : Notes} :
    ∀ p : Predicate, p.IsPlain → Identified p.nodes → notes.IsProper →
      outcome (Predicate.check c schema p) notes = (.ok (), notes') →
        Notes.Advances c p.nodes notes notes' ∧ notes'.IsProper ∧ p.IsMarked notes'
  | .passthrough id text, _, _, hproper, h => by
    rcases check_passthrough_ok_iff.mp h with ⟨hskip, rfl⟩ | ⟨-, rfl⟩
    · exact ⟨.refl _ _ _, hproper, isMarked_of_skips hproper rfl hskip⟩
    · refine ⟨.finish (fun _ _ => rfl) (fun _ hi => hi) (.refl _ [] _) (List.nil_subset _)
        List.mem_cons_self rfl ?_, hproper.change_markedFor schema, isMarked_markedFor rfl⟩
      simp only [Settled, Notes.note_change_self]
      rfl
  | .unary id op operand, hp, hid, hproper, h => by
    rcases check_unary_ok_iff.mp h with ⟨hskip, rfl⟩ | ⟨-, middle, hoperand, rfl⟩
    · exact ⟨.refl _ _ _, hproper, isMarked_of_skips hproper rfl hskip⟩
    · obtain ⟨hadvances, hmiddle, hmarked⟩ :=
        advances_of_checkPresent operand hp.2 (hid.mono (List.subset_cons_self _ _)) hproper hoperand
      refine ⟨.finish (fun _ _ => rfl) (fun _ hi => hi) hadvances (List.subset_cons_self _ _)
        List.mem_cons_self rfl ⟨?_, hmarked.le (Notes.Advances.marks_change fun _ => rfl)⟩,
        hmiddle.change_markedFor schema, isMarked_markedFor rfl⟩
      rw [Notes.note_change_self]
      rfl
  | .logical id op children, hp, hid, hproper, h => by
    rcases check_logical_ok_iff.mp h with ⟨hskip, rfl⟩ | ⟨-, middle, hchildren, rfl⟩
    · exact ⟨.refl _ _ _, hproper, isMarked_of_skips hproper rfl hskip⟩
    · obtain ⟨hadvances, hmiddle, hmarked⟩ :=
        advances_of_checkAll children hp.2 (hid.mono (List.subset_cons_self _ _)) hproper hchildren
      refine ⟨.finish (fun _ _ => rfl) (fun _ hi => hi) hadvances (List.subset_cons_self _ _)
        List.mem_cons_self rfl ⟨?_, hmarked.le (Notes.Advances.marks_change fun _ => rfl)⟩,
        hmiddle.change_markedFor schema, isMarked_markedFor rfl⟩
      rw [Notes.note_change_self]
      rfl
  | .comparison id op left right, hp, _, hproper, h => by
    rcases (check_comparison_ok_iff hp.2.1 hp.2.2).mp h with ⟨hskip, rfl⟩ | ⟨-, l, r, hlr, rfl⟩
    · exact ⟨.refl _ _ _, hproper, isMarked_of_skips hproper rfl hskip⟩
    · obtain ⟨hl, hr⟩ := operandsOf_isPlain hp.2.1 hp.2.2 hlr
      have hstart : (notes.change id (Note.withOperands l r)).IsProper :=
        hproper.change ⟨(hproper id).plain.withOperands hl hr, (hproper id).marked⟩
      refine ⟨.finish (fun _ hi => Notes.note_change_ne _ _ hi)
        (Notes.Advances.marks_change fun hi => hi) (.refl _ [] _) (List.nil_subset _)
        List.mem_cons_self rfl ?_, hstart.change_markedFor schema, isMarked_markedFor rfl⟩
      simp only [Settled, Notes.note_change_self]
      exact ⟨rfl, l, r, hlr, rfl, rfl⟩
  | .quantified id op collection body, hp, hid, hproper, h => by
    rcases (check_quantified_ok_iff hp.2.1 hp.1).mp h with
      ⟨hskip, rfl⟩ | ⟨-, e, middle, he, hbody, rfl⟩
    · exact ⟨.refl _ _ _, hproper, isMarked_of_skips hproper rfl hskip⟩
    · have hstart : (notes.change id (Note.withCollection e)).IsProper :=
        hproper.change ⟨(hproper id).plain.withCollection (collectionOf_isPlain hp.2.1 he),
          (hproper id).marked⟩
      obtain ⟨hadvances, hmiddle, hmarked⟩ :=
        advances_of_checkPresent body hp.2.2 (hid.mono (List.subset_cons_self _ _)) hstart hbody
      -- the check of the body leaves the note on the quantifier alone
      have hnote : (middle.note id).collection = some e := by
        rw [checkPresent_frame body hp.2.2 hbody id (hid.not_mem_body hp.2.2), Notes.note_change_self]
        rfl
      refine ⟨.finish (fun _ hi => Notes.note_change_ne _ _ hi)
        (Notes.Advances.marks_change fun hi => hi) hadvances (List.subset_cons_self _ _)
        List.mem_cons_self rfl ?_, hmiddle.change_markedFor schema, isMarked_markedFor rfl⟩
      simp only [Settled, Notes.note_change_self]
      exact ⟨rfl, ⟨e, he, hnote⟩, hmarked.le (Notes.Advances.marks_change fun _ => rfl)⟩
  | .bare _, hp, _, _, _ => hp.elim

theorem advances_of_checkPresent {schema : Option EntityId} {notes notes' : Notes} :
    ∀ p : Option Predicate, PlainOption p → Identified (nodesOf p) → notes.IsProper →
      outcome (checkPresent c schema p) notes = (.ok (), notes') →
        Notes.Advances c (nodesOf p) notes notes' ∧ notes'.IsProper ∧ AllMarked notes' [p]
  | none, _, _, _, h => by cases h
  | some p, hp, hid, hproper, h => by
    obtain ⟨hadvances, hproper', hmarked⟩ := advances_of_check p hp hid hproper h
    refine ⟨hadvances, hproper', fun q hq => ?_⟩
    rw [List.mem_singleton.mp hq]
    exact ⟨p, rfl, hmarked⟩

theorem advances_of_checkAll {schema : Option EntityId} {notes notes' : Notes} :
    ∀ ps : List (Option Predicate), PlainAll ps → Identified (nodesAll ps) → notes.IsProper →
      outcome (checkAll c schema ps) notes = (.ok (), notes') →
        Notes.Advances c (nodesAll ps) notes notes' ∧ notes'.IsProper ∧ AllMarked notes' ps
  | [], _, _, hproper, h => by
    cases h
    refine ⟨.refl _ _ _, hproper, fun q hq => ?_⟩
    cases hq
  | p :: ps, hp, hid, hproper, h => by
    obtain ⟨middle, hfirst, hrest⟩ := checkAll_cons_ok_iff.mp h
    obtain ⟨hadvances, hmiddle, hmarked⟩ := advances_of_checkPresent p hp.1
      (hid.mono (List.subset_append_left _ _)) hproper hfirst
    obtain ⟨hadvances', hproper', hmarked'⟩ := advances_of_checkAll ps hp.2
      (hid.mono (List.subset_append_right _ _)) hmiddle hrest
    refine ⟨(hadvances.mono (List.subset_append_left _ _)).trans
      (hadvances'.mono (List.subset_append_right _ _)), hproper', fun q hq => ?_⟩
    rcases List.mem_cons.mp hq with rfl | hq
    · exact hmarked.le hadvances'.marks q List.mem_cons_self
    · exact hmarked' q hq

end

/-- The parts of a node in step were checked. -/
theorem Settled.isMarked_part {notes : Notes} {p r : Predicate} (h : p.Settled c notes)
    (hr : some r ∈ p.parts) : r.IsMarked notes := by
  have hall : ∀ {ps : List (Option Predicate)}, AllMarked notes ps → some r ∈ ps → r.IsMarked notes := by
    intro ps hps hmem
    obtain ⟨q, hq, hmarked⟩ := hps (some r) hmem
    cases hq
    exact hmarked
  cases p
  case unary | logical => exact hall h.2 hr
  case quantified => exact hall h.2.2 hr
  all_goals cases hr

/-- All nodes of a predicate are in step if all nodes that were checked are, and the predicate was
checked. -/
theorem settled_of_isMarked {notes : Notes} {p q : Predicate} {id : Label} (hp : p.IsPlain)
    (hs : ∀ id q, (id, q) ∈ p.nodes → (notes.note id).wasChecked → q.Settled c notes)
    (hmarked : p.IsMarked notes) (hq : (id, q) ∈ p.nodes) : q.Settled c notes := by
  have hroot : ∀ p : Predicate, p.IsPlain →
      (∀ id q, (id, q) ∈ p.nodes → (notes.note id).wasChecked → q.Settled c notes) →
        p.IsMarked notes → p.Settled c notes := by
    rintro p hp hs ⟨i, hi, hmark⟩
    exact hs i p (mem_nodes_self hp hi) hmark
  refine Predicate.byNodes (motive := fun p _ q =>
    (∀ id q, (id, q) ∈ p.nodes → (notes.note id).wasChecked → q.Settled c notes) →
      p.IsMarked notes → q.Settled c notes)
    (fun p _ hp _ => hroot p hp) (fun p r i q hp hr ih hs hmarked => ?_) p hp hq hs hmarked
  refine ih (fun i s hsr => hs i s ?_) ((hroot p hp hs hmarked).isMarked_part hr)
  exact (mem_nodes_iff hp).mpr (.inr ⟨r, hr, hsr⟩)

end

end Predicate

end RecordFilter
