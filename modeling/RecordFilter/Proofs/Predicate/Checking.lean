import Mathlib.Data.List.Nodup
import RecordFilter.Node.Use
import RecordFilter.Proofs.Predicate.Condition

/-!
# Checking plain predicates

What a successful check of a plain predicate does, one lemma for each kind of node: a node that was
already checked against the schema is skipped, and any other node gets the operands that its sources
stand for and the mark of the schema (`check_comparison_ok_iff` and its siblings). The same is
written down once more with the skipping as a choice (`Predicate.checkBy`); the two have the same end
and leave the same notes, whether they succeed or fail (`Predicate.outcome_check`). From these follow,
by induction over the predicate, the three facts that everything else rests on:

* the check, whatever its end, changes notes on nodes of the predicate only (`Predicate.check_frame`);
* it succeeds, whatever the notes are, when the condition of the predicate can be resolved
  (`Predicate.check_ok_of_resolve`);
* on a predicate in which no node occurs twice and none bears a mark, it leaves the resolved
  condition in the notes (`Predicate.resolvedIn_of_check`).
-/

namespace RecordFilter

/-! ### Notes that stay the same -/

namespace Notes

@[simp] theorem note_change_self (notes : Notes) (id : Label) (f : Note → Note) :
    (notes.change id f).note id = f (notes.note id) :=
  note_put_self _ _ _

theorem note_change_ne (notes : Notes) {id other : Label} (f : Note → Note) (h : other ≠ id) :
    (notes.change id f).note other = notes.note other :=
  note_put_ne _ _ h

/-- Only notes on these labels differ. -/
def Frame (ids : List Label) (before after : Notes) : Prop :=
  ∀ id, id ∉ ids → after.note id = before.note id

theorem Frame.refl (ids : List Label) (notes : Notes) : Frame ids notes notes :=
  fun _ _ => rfl

theorem Frame.trans {ids : List Label} {a b d : Notes} (hab : Frame ids a b)
    (hbd : Frame ids b d) : Frame ids a d :=
  fun id h => (hbd id h).trans (hab id h)

theorem Frame.mono {ids more : List Label} {a b : Notes} (h : Frame ids a b) (hsub : ids ⊆ more) :
    Frame more a b :=
  fun id hid => h id fun hmem => hid (hsub hmem)

theorem frame_change {ids : List Label} (notes : Notes) {id : Label} (f : Note → Note)
    (h : id ∈ ids) : Frame ids notes (notes.change id f) := by
  intro other hother
  refine note_change_ne notes f ?_
  rintro rfl
  exact hother h

end Notes

/-- The note with the mark of a schema. -/
def Note.markedFor (schema : Option EntityId) (note : Note) : Note :=
  { note with checked := schema, wasChecked := true }

/-- A node was already checked against this very entity type. -/
def Check.Skips (schema : Option EntityId) (id : Label) (notes : Notes) : Prop :=
  schema.isSome ∧ (notes.note id).checked = schema

/-! ### Steps of checking -/

section

variable {c : Catalog} {schema : Option EntityId} {notes notes' : Notes} {id : Label}

mutual

/-- Taking the plain text of a plain value leaves no trace. -/
theorem Value.outcome_tell (wrapped : Bool) :
    ∀ {v : Value}, v.IsPlain → outcome (Value.tell c wrapped v) notes = (.ok v, notes)
  | .map entries, h => by
    unfold Value.tell
    split
    · rw [outcome_bind_of_ok (Value.outcome_tellEntries h)]
      rfl
    · rfl
  | .node .., h => h.elim
  | .list _, _ | .object _, _ | .operator _, _ | .null, _ | .bool _, _ | .int _, _ | .double _, _
  | .decimal _, _ | .text _, _ | .token _, _ | .date _, _ | .time _, _ | .moment _, _
  | .guid _, _ | .member .., _ => rfl

theorem Value.outcome_tellEntries :
    ∀ {es : List (Value × Value)}, Value.PlainEntries es →
      outcome (Value.tellEntries c es) notes = (.ok es, notes)
  | [], _ => rfl
  | (k, v) :: rest, h => by
    have hrest : outcome (do return (k, v) :: (← Value.tellEntries c rest)) notes =
        (.ok ((k, v) :: rest), notes) := by
      rw [outcome_bind_of_ok (Value.outcome_tellEntries h.2)]
      rfl
    unfold Value.tellEntries
    dsimp only
    split
    · rw [outcome_bind_of_ok (Value.outcome_tell false h.1.2.2)]
      exact hrest
    · exact hrest

end

theorem Check.outcome_source {place : Operand.Place} {given : Value} (h : given.IsPlain) :
    outcome (Check.source c place given (Value.tell c true given)) notes = (.ok given, notes) := by
  have hrest : outcome (do return given.refreshed c (← get) : Check Value) notes =
      (.ok given, notes) := by
    rw [outcome_bind_of_ok outcome_get, outcome_pure, Value.refreshed_of_isPlain c notes given h]
  unfold Check.source
  dsimp only
  split
  · rw [outcome_bind_of_ok (Value.outcome_tell true h)]
    exact hrest
  · exact hrest

theorem Check.outcome_change (f : Note → Note) :
    outcome (Check.change id f) notes = (.ok (), notes.change id f) := rfl

theorem Check.outcome_once_of_skips {step : Check Unit} (h : Check.Skips schema id notes) :
    outcome (Check.once schema id step) notes = (.ok (), notes) := by
  have htest : (schema.isSome && (notes.note id).checked == schema) = true := by
    simp [h.1, h.2]
  have hnote : outcome (Check.note id) notes = (.ok (notes.note id), notes) := rfl
  rw [Check.once, outcome_bind_of_ok hnote, if_pos htest]
  rfl

theorem Check.outcome_once_of_not_skips {step : Check Unit} (h : ¬ Check.Skips schema id notes) :
    outcome (Check.once schema id step) notes =
      outcome (do step; Check.change id (Note.markedFor schema)) notes := by
  have htest : ¬ (schema.isSome && (notes.note id).checked == schema) = true := by
    rwa [Bool.and_eq_true, beq_iff_eq]
  have hnote : outcome (Check.note id) notes = (.ok (notes.note id), notes) := rfl
  rw [Check.once, outcome_bind_of_ok hnote, if_neg htest]
  rfl

/-- Steps that come to the same do so when they are taken once. -/
theorem Check.outcome_once_congr {step step' : Check Unit}
    (h : outcome step notes = outcome step' notes) :
    outcome (Check.once schema id step) notes = outcome (Check.once schema id step') notes := by
  by_cases hskip : Check.Skips schema id notes
  · rw [Check.outcome_once_of_skips hskip, Check.outcome_once_of_skips hskip]
  · rw [Check.outcome_once_of_not_skips hskip, Check.outcome_once_of_not_skips hskip]
    rcases e : outcome step notes with ⟨f | ⟨⟩, middle⟩
    · rw [outcome_bind_of_error e, outcome_bind_of_error (h.symm.trans e)]
    · rw [outcome_bind_of_ok e, outcome_bind_of_ok (h.symm.trans e)]

/-- A node is skipped, or the step is taken and the node gets the mark. -/
theorem Check.once_ok_iff {step : Check Unit} :
    outcome (Check.once schema id step) notes = (.ok (), notes') ↔
      Check.Skips schema id notes ∧ notes' = notes ∨
      ¬ Check.Skips schema id notes ∧ ∃ middle, outcome step notes = (.ok (), middle) ∧
        notes' = middle.change id (Note.markedFor schema) := by
  by_cases h : Check.Skips schema id notes
  · rw [Check.outcome_once_of_skips h]
    simp [h, eq_comm]
  · rw [Check.outcome_once_of_not_skips h, outcome_seq_eq_ok_iff]
    simp only [Check.outcome_change, h, false_and, not_false_eq_true, true_and, false_or,
      Prod.mk.injEq, eq_comm]

end

/-! ### Checking a node -/

/-- The note with the operands of a comparison. -/
def Note.withOperands (l r : Expr) (note : Note) : Note :=
  { note with left := some l, right := some r }

/-- The note with the collection of a quantifier. -/
def Note.withCollection (e : Expr) (note : Note) : Note :=
  { note with collection := some e }

namespace Predicate

section

variable {c : Catalog} {schema : Option EntityId} {notes notes' : Notes} {id : Label}
  {op : Operator}

theorem check_unary_ok_iff {operand : Option Predicate} :
    outcome (Predicate.check c schema (.unary id op operand)) notes = (.ok (), notes') ↔
      Check.Skips schema id notes ∧ notes' = notes ∨
      ¬ Check.Skips schema id notes ∧ ∃ middle,
        outcome (checkPresent c schema operand) notes = (.ok (), middle) ∧
        notes' = middle.change id (Note.markedFor schema) :=
  Check.once_ok_iff

theorem check_logical_ok_iff {children : List (Option Predicate)} :
    outcome (Predicate.check c schema (.logical id op children)) notes = (.ok (), notes') ↔
      Check.Skips schema id notes ∧ notes' = notes ∨
      ¬ Check.Skips schema id notes ∧ ∃ middle,
        outcome (checkAll c schema children) notes = (.ok (), middle) ∧
        notes' = middle.change id (Note.markedFor schema) :=
  Check.once_ok_iff

/-- What the check of a comparison over plain values does. -/
theorem outcome_check_comparison {left right : Value} (hl : left.IsPlain) (hr : right.IsPlain) :
    outcome (Predicate.check c schema (.comparison id op left right)) notes =
      outcome (Check.once schema id do
        let (l, r) ← operandsOf c schema left right
        Check.change id (Note.withOperands l r)) notes := by
  refine Check.outcome_once_congr ?_
  dsimp only
  rw [outcome_bind_of_ok (Check.outcome_source hl)]
  rcases el : leftOperand c schema left with f | l
  · rw [outcome_bind_of_error (outcome_lift _), operandsOf, el, error_bind,
      outcome_bind_of_error (outcome_lift _)]
  · rw [outcome_bind_of_ok (outcome_lift _), outcome_bind_of_ok (Check.outcome_source hr)]
    rcases er : rightOperand c schema l right with f | r
    · rw [outcome_bind_of_error (outcome_lift _), operandsOf, el, ok_bind, er, error_bind,
        outcome_bind_of_error (outcome_lift _)]
    · rw [outcome_bind_of_ok (outcome_lift _), operandsOf, el, ok_bind, er, ok_bind, pure_eq_ok,
        outcome_bind_of_ok (outcome_lift _)]
      rfl

/-- What the check of a quantifier over plain values does. -/
theorem outcome_check_quantified {collection : Value} {body : Option Predicate}
    (hc : collection.IsPlain) (hop : op.IsPlain) :
    outcome (Predicate.check c schema (.quantified id op collection body)) notes =
      outcome (Check.once schema id do
        let e ← collectionOf c schema op collection
        Check.change id (Note.withCollection e)
        checkPresent c e.entity? body) notes := by
  obtain ⟨key, aliases, isFunction⟩ := op
  refine Check.outcome_once_congr ?_
  rw [outcome_bind_of_ok (Check.outcome_source hc)]
  rcases ec : collectionOperand c schema collection with f | e
  · rw [outcome_bind_of_error (outcome_lift _), collectionOf, ec, error_bind,
      outcome_bind_of_error (outcome_lift _)]
  · rw [outcome_bind_of_ok (outcome_lift _), collectionOf, ec, ok_bind]
    rcases misfit? c schema e with - | error
    · dsimp only
      rw [outcome_bind_of_ok (Check.outcome_change _), pure_eq_ok,
        outcome_bind_of_ok (outcome_lift _), outcome_bind_of_ok (Check.outcome_change _)]
      rfl
    · -- the fault quotes the collection and the key, which may both have no text
      dsimp only
      rw [outcome_bind_of_ok (Value.outcome_tell false hc)]
      rcases collection.toText with f | text
      · rw [outcome_bind_of_error (outcome_lift _), error_bind,
          outcome_bind_of_error (outcome_lift _)]
      · have hkey : outcome (Value.tell c false key) notes = (.ok key, notes) :=
          Value.outcome_tell false hop
        rw [outcome_bind_of_ok (outcome_lift _), outcome_bind_of_ok hkey, ok_bind]
        rcases key.toText with f | keyText
        · rw [outcome_bind_of_error (outcome_lift _), error_bind,
            outcome_bind_of_error (outcome_lift _)]
        · rw [outcome_bind_of_ok (outcome_lift _), ok_bind, throw_eq_error,
            outcome_bind_of_error (outcome_lift _)]
          rfl

/-- Noting the operands of a comparison succeeds when they can be read, and the comparison is marked
then. -/
theorem noteOperands_ok_iff {left right : Value} :
    (∃ middle, outcome (do
        let (l, r) ← operandsOf c schema left right
        Check.change id (Note.withOperands l r) : Check Unit) notes = (.ok (), middle) ∧
          notes' = middle.change id (Note.markedFor schema)) ↔
      ∃ l r, operandsOf c schema left right = .ok (l, r) ∧
        notes' = (notes.change id (Note.withOperands l r)).change id (Note.markedFor schema) := by
  rcases operandsOf c schema left right with f | ⟨l, r⟩
  · rw [outcome_bind_of_error (outcome_lift _)]
    simp
  · rw [outcome_bind_of_ok (outcome_lift _), Check.outcome_change]
    constructor
    · rintro ⟨_, ⟨⟩, rfl⟩
      exact ⟨l, r, rfl, rfl⟩
    · rintro ⟨_, _, ⟨⟩, rfl⟩
      exact ⟨_, rfl, rfl⟩

/-- Noting the collection of a quantifier and checking its body succeeds when both do, and the quantifier
is marked then. -/
theorem noteCollection_ok_iff {collection : Value} {inner : Expr → Check Unit} :
    (∃ middle, outcome (do
        let e ← collectionOf c schema op collection
        Check.change id (Note.withCollection e)
        inner e : Check Unit) notes = (.ok (), middle) ∧
          notes' = middle.change id (Note.markedFor schema)) ↔
      ∃ e middle, collectionOf c schema op collection = .ok e ∧
        outcome (inner e) (notes.change id (Note.withCollection e)) = (.ok (), middle) ∧
          notes' = middle.change id (Note.markedFor schema) := by
  rcases collectionOf c schema op collection with f | e
  · rw [outcome_bind_of_error (outcome_lift _)]
    simp
  · rw [outcome_bind_of_ok (outcome_lift _), outcome_bind_of_ok (Check.outcome_change _)]
    simp

theorem check_comparison_ok_iff {left right : Value} (hl : left.IsPlain) (hr : right.IsPlain) :
    outcome (Predicate.check c schema (.comparison id op left right)) notes = (.ok (), notes') ↔
      Check.Skips schema id notes ∧ notes' = notes ∨
      ¬ Check.Skips schema id notes ∧ ∃ l r, operandsOf c schema left right = .ok (l, r) ∧
        notes' = (notes.change id (Note.withOperands l r)).change id (Note.markedFor schema) := by
  rw [outcome_check_comparison hl hr, Check.once_ok_iff]
  exact or_congr_right (and_congr_right fun _ => noteOperands_ok_iff)

theorem check_quantified_ok_iff {collection : Value} {body : Option Predicate}
    (hc : collection.IsPlain) (hop : op.IsPlain) :
    outcome (Predicate.check c schema (.quantified id op collection body)) notes =
        (.ok (), notes') ↔
      Check.Skips schema id notes ∧ notes' = notes ∨
      ¬ Check.Skips schema id notes ∧ ∃ e middle, collectionOf c schema op collection = .ok e ∧
        outcome (checkPresent c e.entity? body) (notes.change id (Note.withCollection e)) =
          (.ok (), middle) ∧
        notes' = middle.change id (Note.markedFor schema) := by
  rw [outcome_check_quantified hc hop, Check.once_ok_iff]
  exact or_congr_right (and_congr_right fun _ => noteCollection_ok_iff)

theorem check_passthrough_ok_iff {text : Value} :
    outcome (Predicate.check c schema (.passthrough id text)) notes = (.ok (), notes') ↔
      Check.Skips schema id notes ∧ notes' = notes ∨
      ¬ Check.Skips schema id notes ∧ notes' = notes.change id (Note.markedFor schema) := by
  refine Check.once_ok_iff.trans (or_congr_right (and_congr_right fun _ => ?_))
  constructor
  · rintro ⟨middle, hstep, rfl⟩
    cases hstep
    rfl
  · rintro rfl
    exact ⟨notes, rfl, rfl⟩

theorem checkAll_cons_ok_iff {p : Option Predicate} {ps : List (Option Predicate)} :
    outcome (checkAll c schema (p :: ps)) notes = (.ok (), notes') ↔
      ∃ middle, outcome (checkPresent c schema p) notes = (.ok (), middle) ∧
        outcome (checkAll c schema ps) middle = (.ok (), notes') :=
  outcome_seq_eq_ok_iff

end

end Predicate

/-! ### Checking with and without the shortcut -/

/-- Checks a node with `step` and marks it, unless it may be skipped and was already checked against
this very entity type. -/
def Check.gate (skipping : Bool) (schema : Option EntityId) (id : Label) (step : Check Unit) :
    Check Unit :=
  if skipping then Check.once schema id step
  else do
    step
    Check.change id (Note.markedFor schema)

theorem Check.gate_ok_iff {skipping : Bool} {schema : Option EntityId} {notes notes' : Notes}
    {id : Label} {step : Check Unit} :
    outcome (Check.gate skipping schema id step) notes = (.ok (), notes') ↔
      (skipping ∧ Check.Skips schema id notes) ∧ notes' = notes ∨
      ¬ (skipping ∧ Check.Skips schema id notes) ∧ ∃ middle,
        outcome step notes = (.ok (), middle) ∧
        notes' = middle.change id (Note.markedFor schema) := by
  cases skipping
  · have hgate : Check.gate false schema id step =
        (do step; Check.change id (Note.markedFor schema)) := rfl
    rw [hgate, outcome_seq_eq_ok_iff]
    simp only [Check.outcome_change, Bool.false_eq_true, false_and, not_false_eq_true, true_and,
      false_or, Prod.mk.injEq, eq_comm]
  · have hgate : Check.gate true schema id step = Check.once schema id step := rfl
    rw [hgate]
    simpa only [true_and] using Check.once_ok_iff

/-- What steps behind a gate come to, whatever their end: they are skipped, or they are taken, and the
node gets the mark when they succeed. -/
theorem Check.gate_cases {skipping : Bool} {schema : Option EntityId} {notes notes' : Notes}
    {id : Label} {step : Check Unit} {r : Except Fault Unit}
    (h : outcome (Check.gate skipping schema id step) notes = (r, notes')) :
    (skipping ∧ Check.Skips schema id notes) ∧ notes' = notes ∨
      ¬ (skipping ∧ Check.Skips schema id notes) ∧ ∃ middle, outcome step notes = (r, middle) ∧
        (notes' = middle ∨ r = .ok () ∧ notes' = middle.change id (Note.markedFor schema)) := by
  rcases r with fault | ⟨⟩
  · by_cases hskip : skipping ∧ Check.Skips schema id notes
    · rw [Check.gate, if_pos hskip.1, Check.outcome_once_of_skips hskip.2] at h
      cases h
    · refine .inr ⟨hskip, ?_⟩
      have hsteps : outcome (do step; Check.change id (Note.markedFor schema)) notes =
          (.error fault, notes') := by
        cases skipping
        · exact h
        · rwa [← Check.outcome_once_of_not_skips fun hs => hskip ⟨rfl, hs⟩]
      -- marking the node does not fail, so the fault is that of the step
      rcases e : outcome step notes with ⟨fault' | ⟨⟩, middle⟩
      · rw [outcome_bind_of_error e] at hsteps
        cases hsteps
        exact ⟨notes', rfl, .inl rfl⟩
      · rw [outcome_bind_of_ok e] at hsteps
        cases hsteps
  · exact (Check.gate_ok_iff.mp h).imp_right fun ⟨hskip, middle, hstep, hnotes⟩ =>
      ⟨hskip, middle, hstep, .inr ⟨rfl, hnotes⟩⟩

/-- A step that always succeeds can be taken behind a gate. -/
theorem Check.exists_gate_ok {skipping : Bool} {schema : Option EntityId} (notes : Notes) (id : Label)
    {step : Check Unit} (h : ∃ middle, outcome step notes = (.ok (), middle)) :
    ∃ notes', outcome (Check.gate skipping schema id step) notes = (.ok (), notes') := by
  by_cases hskip : skipping ∧ Check.Skips schema id notes
  · exact ⟨notes, Check.gate_ok_iff.mpr (.inl ⟨hskip, rfl⟩)⟩
  · obtain ⟨middle, hmiddle⟩ := h
    exact ⟨_, Check.gate_ok_iff.mpr (.inr ⟨hskip, middle, hmiddle, rfl⟩)⟩

theorem Notes.Frame.marked {ids : List Label} {schema : Option EntityId} {id : Label}
    {r : Except Fault Unit} {before middle after : Notes} (h : Notes.Frame ids before middle)
    (hafter : after = middle ∨ r = .ok () ∧ after = middle.change id (Note.markedFor schema))
    (hid : id ∈ ids) : Notes.Frame ids before after := by
  rcases hafter with rfl | ⟨-, rfl⟩
  · exact h
  · exact h.trans (Notes.frame_change _ _ hid)

namespace Predicate

section

variable (c : Catalog) (skipping : Bool)

mutual

/-- The check of a predicate over plain values, at which nodes are skipped or every node is checked
again. -/
def checkBy (schema : Option EntityId) : Predicate → Check Unit
  | .passthrough id _ => Check.gate skipping schema id (return ())
  | .unary id _ operand => Check.gate skipping schema id (checkPresentBy schema operand)
  | .logical id _ children => Check.gate skipping schema id (checkAllBy schema children)
  | .comparison id _ left right => Check.gate skipping schema id do
    let (l, r) ← operandsOf c schema left right
    Check.change id (Note.withOperands l r)
  | .quantified id op collection body => Check.gate skipping schema id do
    let e ← collectionOf c schema op collection
    Check.change id (Note.withCollection e)
    checkPresentBy e.entity? body
  | .bare _ => throw .noMember

/-- The same of a predicate that must be there. -/
def checkPresentBy (schema : Option EntityId) : Option Predicate → Check Unit
  | none => throw .noMember
  | some p => checkBy schema p

/-- The same of predicates one after the other. -/
def checkAllBy (schema : Option EntityId) : List (Option Predicate) → Check Unit
  | [] => return ()
  | p :: ps => do
    checkPresentBy schema p
    checkAllBy schema ps

end

end

section

variable {c : Catalog} {skipping : Bool} {schema : Option EntityId} {notes notes' : Notes}
  {id : Label} {op : Operator}

theorem checkBy_comparison_ok_iff {left right : Value} :
    outcome (checkBy c skipping schema (.comparison id op left right)) notes = (.ok (), notes') ↔
      (skipping ∧ Check.Skips schema id notes) ∧ notes' = notes ∨
      ¬ (skipping ∧ Check.Skips schema id notes) ∧
        ∃ l r, operandsOf c schema left right = .ok (l, r) ∧
          notes' = (notes.change id (Note.withOperands l r)).change id (Note.markedFor schema) :=
  Check.gate_ok_iff.trans (or_congr_right (and_congr_right fun _ => noteOperands_ok_iff))

theorem checkBy_quantified_ok_iff {collection : Value} {body : Option Predicate} :
    outcome (checkBy c skipping schema (.quantified id op collection body)) notes =
        (.ok (), notes') ↔
      (skipping ∧ Check.Skips schema id notes) ∧ notes' = notes ∨
      ¬ (skipping ∧ Check.Skips schema id notes) ∧
        ∃ e middle, collectionOf c schema op collection = .ok e ∧
          outcome (checkPresentBy c skipping e.entity? body)
            (notes.change id (Note.withCollection e)) = (.ok (), middle) ∧
          notes' = middle.change id (Note.markedFor schema) :=
  Check.gate_ok_iff.trans (or_congr_right (and_congr_right fun _ => noteCollection_ok_iff))

theorem checkAllBy_cons_ok_iff {p : Option Predicate} {ps : List (Option Predicate)} :
    outcome (checkAllBy c skipping schema (p :: ps)) notes = (.ok (), notes') ↔
      ∃ middle, outcome (checkPresentBy c skipping schema p) notes = (.ok (), middle) ∧
        outcome (checkAllBy c skipping schema ps) middle = (.ok (), notes') :=
  outcome_seq_eq_ok_iff

theorem checkBy_comparison_cases {left right : Value} {r : Except Fault Unit}
    (h : outcome (checkBy c skipping schema (.comparison id op left right)) notes = (r, notes')) :
    ((skipping ∧ Check.Skips schema id notes) ∨ ∃ f, operandsOf c schema left right = .error f) ∧
        notes' = notes ∨
      ¬ (skipping ∧ Check.Skips schema id notes) ∧ r = .ok () ∧
        ∃ l r, operandsOf c schema left right = .ok (l, r) ∧
          notes' = (notes.change id (Note.withOperands l r)).change id (Note.markedFor schema) := by
  rcases r with fault | ⟨⟩
  · rcases Check.gate_cases h with ⟨hskip, hsame⟩ | ⟨-, middle, hstep, hsame | ⟨⟨⟩, -⟩⟩
    · exact .inl ⟨.inl hskip, hsame⟩
    · subst hsame
      rcases e : operandsOf c schema left right with f | ⟨l, r⟩
      · rw [e, outcome_bind_of_error (outcome_lift _)] at hstep
        cases hstep
        exact .inl ⟨.inr ⟨_, rfl⟩, rfl⟩
      · rw [e, outcome_bind_of_ok (outcome_lift _)] at hstep
        cases hstep
  · refine (checkBy_comparison_ok_iff.mp h).imp (fun ⟨hskip, hsame⟩ => ⟨.inl hskip, hsame⟩) ?_
    exact fun ⟨hskip, hnotes⟩ => ⟨hskip, rfl, hnotes⟩

theorem checkBy_quantified_cases {collection : Value} {body : Option Predicate}
    {r : Except Fault Unit}
    (h : outcome (checkBy c skipping schema (.quantified id op collection body)) notes =
      (r, notes')) :
    ((skipping ∧ Check.Skips schema id notes) ∨
        ∃ f, collectionOf c schema op collection = .error f) ∧ notes' = notes ∨
      ¬ (skipping ∧ Check.Skips schema id notes) ∧
        ∃ e middle, collectionOf c schema op collection = .ok e ∧
          outcome (checkPresentBy c skipping e.entity? body)
            (notes.change id (Note.withCollection e)) = (r, middle) ∧
          (notes' = middle ∨ r = .ok () ∧ notes' = middle.change id (Note.markedFor schema)) := by
  rcases Check.gate_cases h with ⟨hskip, hsame⟩ | ⟨hskip, middle, hstep, hnotes⟩
  · exact .inl ⟨.inl hskip, hsame⟩
  · rcases ec : collectionOf c schema op collection with f | e
    · rw [ec, outcome_bind_of_error (outcome_lift _)] at hstep
      cases hstep
      refine .inl ⟨.inr ⟨f, rfl⟩, ?_⟩
      rcases hnotes with hsame | ⟨⟨⟩, -⟩
      exact hsame
    · rw [ec, outcome_bind_of_ok (outcome_lift _), outcome_bind_of_ok (Check.outcome_change _)]
        at hstep
      exact .inr ⟨hskip, e, middle, rfl, hstep, hnotes⟩

theorem checkAllBy_cons_cases {p : Option Predicate} {ps : List (Option Predicate)}
    {r : Except Fault Unit}
    (h : outcome (checkAllBy c skipping schema (p :: ps)) notes = (r, notes')) :
    (∃ f, r = .error f) ∧ outcome (checkPresentBy c skipping schema p) notes = (r, notes') ∨
      ∃ middle, outcome (checkPresentBy c skipping schema p) notes = (.ok (), middle) ∧
        outcome (checkAllBy c skipping schema ps) middle = (r, notes') := by
  rcases e : outcome (checkPresentBy c skipping schema p) notes with ⟨f | ⟨⟩, middle⟩
  · rw [checkAllBy, outcome_bind_of_error e] at h
    cases h
    exact .inl ⟨⟨f, rfl⟩, rfl⟩
  · rw [checkAllBy, outcome_bind_of_ok e] at h
    exact .inr ⟨middle, rfl, h⟩

end

section

variable {c : Catalog}

mutual

/-- **The check of a plain predicate is the one at which nodes are skipped**, whatever its end. -/
theorem outcome_check {schema : Option EntityId} :
    ∀ (p : Predicate) (notes : Notes), p.IsPlain →
      outcome (Predicate.check c schema p) notes = outcome (checkBy c true schema p) notes
  | .passthrough _ _, _, _ => rfl
  | .unary id op operand, notes, hp =>
    Check.outcome_once_congr (outcome_checkPresent operand notes hp.2)
  | .logical id op children, notes, hp =>
    Check.outcome_once_congr (outcome_checkAll children notes hp.2)
  | .comparison id op left right, notes, hp => outcome_check_comparison hp.2.1 hp.2.2
  | .quantified id op collection body, notes, hp => by
    rw [outcome_check_quantified hp.2.1 hp.1]
    refine Check.outcome_once_congr ?_
    rcases collectionOf c schema op collection with f | e
    · rfl
    · rw [outcome_bind_of_ok (outcome_lift _), outcome_bind_of_ok (outcome_lift _),
        outcome_bind_of_ok (Check.outcome_change _), outcome_bind_of_ok (Check.outcome_change _)]
      exact outcome_checkPresent body _ hp.2.2
  | .bare _, _, hp => hp.elim

theorem outcome_checkPresent {schema : Option EntityId} :
    ∀ (p : Option Predicate) (notes : Notes), PlainOption p →
      outcome (checkPresent c schema p) notes = outcome (checkPresentBy c true schema p) notes
  | none, _, _ => rfl
  | some p, notes, hp => outcome_check p notes hp

theorem outcome_checkAll {schema : Option EntityId} :
    ∀ (ps : List (Option Predicate)) (notes : Notes), PlainAll ps →
      outcome (checkAll c schema ps) notes = outcome (checkAllBy c true schema ps) notes
  | [], _, _ => rfl
  | p :: ps, notes, hp => by
    have hfirst : outcome (checkPresent c schema p) notes = _ := outcome_checkPresent p notes hp.1
    rcases e : outcome (checkPresent c schema p) notes with ⟨f | ⟨⟩, middle⟩
    · rw [checkAll, checkAllBy, outcome_bind_of_error e, outcome_bind_of_error (hfirst.symm.trans e)]
    · rw [checkAll, checkAllBy, outcome_bind_of_ok e, outcome_bind_of_ok (hfirst.symm.trans e)]
      exact outcome_checkAll ps middle hp.2

end

/-- The successful checks of a plain predicate are those at which nodes are skipped. -/
theorem check_iff_checkBy {schema : Option EntityId} (p : Predicate) {notes notes' : Notes}
    (hp : p.IsPlain) :
    outcome (Predicate.check c schema p) notes = (.ok (), notes') ↔
      outcome (checkBy c true schema p) notes = (.ok (), notes') := by
  rw [outcome_check p notes hp]

/-! ### Frames -/

mutual

/-- A check changes notes on the nodes of the predicate only, whatever its end. -/
theorem checkBy_frame {skipping : Bool} {schema : Option EntityId} {notes notes' : Notes}
    {r : Except Fault Unit} :
    ∀ p : Predicate, outcome (checkBy c skipping schema p) notes = (r, notes') →
      Notes.Frame p.labels notes notes'
  | .passthrough id text, h => by
    rcases Check.gate_cases h with ⟨-, rfl⟩ | ⟨-, middle, hstep, hafter⟩
    · exact Notes.Frame.refl _ _
    · cases hstep
      exact (Notes.Frame.refl _ _).marked hafter List.mem_cons_self
  | .unary id op operand, h => by
    rcases Check.gate_cases h with ⟨-, rfl⟩ | ⟨-, middle, hoperand, hafter⟩
    · exact Notes.Frame.refl _ _
    · have ih := checkPresentBy_frame operand hoperand
      exact (ih.mono (List.subset_cons_self _ _)).marked hafter List.mem_cons_self
  | .logical id op children, h => by
    rcases Check.gate_cases h with ⟨-, rfl⟩ | ⟨-, middle, hchildren, hafter⟩
    · exact Notes.Frame.refl _ _
    · have ih := checkAllBy_frame children hchildren
      exact (ih.mono (List.subset_cons_self _ _)).marked hafter List.mem_cons_self
  | .comparison id op left right, h => by
    rcases checkBy_comparison_cases h with ⟨-, rfl⟩ | ⟨-, -, l, r, -, rfl⟩
    · exact Notes.Frame.refl _ _
    · exact (Notes.frame_change _ _ List.mem_cons_self).trans
        (Notes.frame_change _ _ List.mem_cons_self)
  | .quantified id op collection body, h => by
    rcases checkBy_quantified_cases h with ⟨-, rfl⟩ | ⟨-, e, middle, -, hbody, hafter⟩
    · exact Notes.Frame.refl _ _
    · have ih := checkPresentBy_frame body hbody
      exact ((Notes.frame_change _ _ List.mem_cons_self).trans
        (ih.mono (List.subset_cons_self _ _))).marked hafter List.mem_cons_self
  | .bare _, h => by
    cases h
    exact Notes.Frame.refl _ _

theorem checkPresentBy_frame {skipping : Bool} {schema : Option EntityId} {notes notes' : Notes}
    {r : Except Fault Unit} :
    ∀ p : Option Predicate,
      outcome (checkPresentBy c skipping schema p) notes = (r, notes') →
        Notes.Frame (labelsOf p) notes notes'
  | none, h => by
    cases h
    exact Notes.Frame.refl _ _
  | some p, h => checkBy_frame p h

theorem checkAllBy_frame {skipping : Bool} {schema : Option EntityId} {notes notes' : Notes}
    {r : Except Fault Unit} :
    ∀ ps : List (Option Predicate),
      outcome (checkAllBy c skipping schema ps) notes = (r, notes') →
        Notes.Frame (labelsAll ps) notes notes'
  | [], h => by
    cases h
    exact Notes.Frame.refl _ _
  | p :: ps, h => by
    rcases checkAllBy_cons_cases h with ⟨-, hfirst⟩ | ⟨middle, hfirst, hrest⟩
    · exact (checkPresentBy_frame p hfirst).mono (List.subset_append_left _ _)
    · exact ((checkPresentBy_frame p hfirst).mono (List.subset_append_left _ _)).trans
        ((checkAllBy_frame ps hrest).mono (List.subset_append_right _ _))

end

/-- **A check changes notes on the nodes of the predicate only**, whatever its end. -/
theorem check_frame {schema : Option EntityId} {notes notes' : Notes} {r : Except Fault Unit}
    (p : Predicate) (hp : p.IsPlain) (h : outcome (Predicate.check c schema p) notes = (r, notes')) :
    Notes.Frame p.labels notes notes' :=
  checkBy_frame p ((outcome_check p notes hp).symm.trans h)

theorem checkPresent_frame {schema : Option EntityId} {notes notes' : Notes}
    {r : Except Fault Unit} (p : Option Predicate) (hp : PlainOption p)
    (h : outcome (checkPresent c schema p) notes = (r, notes')) :
    Notes.Frame (labelsOf p) notes notes' :=
  checkPresentBy_frame p ((outcome_checkPresent p notes hp).symm.trans h)

theorem checkAll_frame {schema : Option EntityId} {notes notes' : Notes} {r : Except Fault Unit}
    (ps : List (Option Predicate)) (hp : PlainAll ps)
    (h : outcome (checkAll c schema ps) notes = (r, notes')) :
    Notes.Frame (labelsAll ps) notes notes' :=
  checkAllBy_frame ps ((outcome_checkAll ps notes hp).symm.trans h)

/-! ### Success -/

mutual

/-- A predicate whose condition can be resolved passes the check, whatever the notes are. -/
theorem checkBy_ok_of_resolve {skipping : Bool} {schema : Option EntityId} :
    ∀ (p : Predicate) {t : Resolved} (notes : Notes), p.condition.resolve c schema = .ok t →
      ∃ notes', outcome (checkBy c skipping schema p) notes = (.ok (), notes')
  | .passthrough id text, t, notes, _ => Check.exists_gate_ok notes id ⟨notes, rfl⟩
  | .unary id op operand, t, notes, h => by
    obtain ⟨u, hu, -⟩ := Condition.resolve_unary_eq_ok_iff.mp h
    exact Check.exists_gate_ok notes id (checkPresentBy_ok_of_resolve operand notes hu)
  | .logical id op children, t, notes, h => by
    obtain ⟨us, hus, -⟩ := Condition.resolve_logical_eq_ok_iff.mp h
    exact Check.exists_gate_ok notes id (checkAllBy_ok_of_resolve children notes hus)
  | .comparison id op left right, t, notes, h => by
    obtain ⟨l, r, hlr, -⟩ := Condition.resolve_comparison_eq_ok_iff.mp h
    refine Check.exists_gate_ok notes id ⟨notes.change id (Note.withOperands l r), ?_⟩
    rw [hlr, outcome_bind_of_ok (outcome_lift _)]
    rfl
  | .quantified id op collection body, t, notes, h => by
    obtain ⟨e, u, he, hu, -⟩ := Condition.resolve_quantified_eq_ok_iff.mp h
    refine Check.exists_gate_ok notes id ?_
    rw [he, outcome_bind_of_ok (outcome_lift _), outcome_bind_of_ok (Check.outcome_change _)]
    exact checkPresentBy_ok_of_resolve body _ hu
  | .bare _, _, _, h => by cases h

theorem checkPresentBy_ok_of_resolve {skipping : Bool} {schema : Option EntityId} :
    ∀ (p : Option Predicate) {t : Resolved} (notes : Notes),
      (conditionOf p).resolve c schema = .ok t →
        ∃ notes', outcome (checkPresentBy c skipping schema p) notes = (.ok (), notes')
  | none, _, _, h => by cases h
  | some p, _, notes, h => checkBy_ok_of_resolve p notes h

theorem checkAllBy_ok_of_resolve {skipping : Bool} {schema : Option EntityId} :
    ∀ (ps : List (Option Predicate)) {ts : List Resolved} (notes : Notes),
      Condition.resolveAll c schema (conditions ps) = .ok ts →
        ∃ notes', outcome (checkAllBy c skipping schema ps) notes = (.ok (), notes')
  | [], _, notes, _ => ⟨notes, rfl⟩
  | p :: ps, _, notes, h => by
    obtain ⟨u, us, hu, hus, -⟩ := Condition.resolveAll_cons_eq_ok_iff.mp h
    obtain ⟨middle, hmiddle⟩ := checkPresentBy_ok_of_resolve p notes hu
    obtain ⟨notes', hnotes'⟩ := checkAllBy_ok_of_resolve ps middle hus
    exact ⟨notes', checkAllBy_cons_ok_iff.mpr ⟨middle, hmiddle, hnotes'⟩⟩

end

/-- **A predicate whose condition can be resolved passes the check**, whatever the notes are. -/
theorem check_ok_of_resolve {schema : Option EntityId} (p : Predicate) {t : Resolved}
    (notes : Notes) (hp : p.IsPlain) (h : p.condition.resolve c schema = .ok t) :
    ∃ notes', outcome (Predicate.check c schema p) notes = (.ok (), notes') := by
  obtain ⟨notes', hcheck⟩ := checkBy_ok_of_resolve p notes h
  exact ⟨notes', (check_iff_checkBy p hp).mpr hcheck⟩

end

end Predicate

/-! ### Notes on plain operands -/

/-- The notes on these nodes have a property. -/
def Notes.On (P : Note → Prop) (ids : List Label) (notes : Notes) : Prop :=
  ∀ id ∈ ids, P (notes.note id)

namespace Notes.On

variable {P Q : Note → Prop} {ids others : List Label} {notes notes' : Notes} {id : Label}

theorem nil : Notes.On P [] notes := by
  intro id hid
  cases hid

theorem cons (hid : P (notes.note id)) (hids : notes.On P ids) : notes.On P (id :: ids) := by
  intro i hi
  rcases List.mem_cons.mp hi with rfl | hi
  · exact hid
  · exact hids i hi

theorem mono (h : notes.On P ids) (hsub : others ⊆ ids) : notes.On P others :=
  fun id hid => h id (hsub hid)

theorem imp (h : notes.On P ids) (hPQ : ∀ note, P note → Q note) : notes.On Q ids :=
  fun id hid => hPQ _ (h id hid)

theorem congr (h : notes.On P ids) (hsame : ∀ id ∈ ids, notes'.note id = notes.note id) :
    notes'.On P ids := by
  intro id hid
  rw [hsame id hid]
  exact h id hid

theorem frame (h : notes.On P ids) (hframe : Notes.Frame others notes notes')
    (hdisjoint : List.Disjoint others ids) : notes'.On P ids :=
  h.congr fun id hid => hframe id fun hother => hdisjoint hother hid

end Notes.On

/-- The operands of the note are plain, and where there is no schema the node bears no mark of
one. -/
structure Note.Fits (schema : Option EntityId) (note : Note) : Prop where
  plain : note.IsPlain
  unmarked : schema = none → note.checked = none

/-- The operands of the note are plain, and the node bears no mark of a schema. -/
abbrev Note.Unmarked : Note → Prop :=
  Note.Fits none

theorem Note.unmarked_default : Note.Unmarked {} where
  plain := Note.isPlain_default
  unmarked := fun _ => rfl

namespace Note

variable {note : Note} {schema inner : Option EntityId} {l r e : Expr}

theorem IsPlain.withOperands (h : note.IsPlain) (hl : l.IsPlain) (hr : r.IsPlain) :
    (note.withOperands l r).IsPlain where
  left := by simpa [Note.withOperands] using hl
  right := by simpa [Note.withOperands] using hr
  collection := h.collection

theorem IsPlain.withCollection (h : note.IsPlain) (he : e.IsPlain) :
    (note.withCollection e).IsPlain where
  left := h.left
  right := h.right
  collection := by simpa [Note.withCollection] using he

theorem IsPlain.markedFor (h : note.IsPlain) (schema : Option EntityId) :
    (note.markedFor schema).Fits schema where
  plain := ⟨h.left, h.right, h.collection⟩
  unmarked := fun hnone => hnone

theorem Fits.outer (h : note.Fits inner) (hnone : schema = none → inner = none) :
    note.Fits schema where
  plain := h.plain
  unmarked := fun hs => h.unmarked (hnone hs)

end Note

theorem Notes.On.not_skips {ids : List Label} {id : Label} {notes : Notes}
    (h : notes.On Note.Unmarked ids) (schema : Option EntityId) (hid : id ∈ ids) :
    ¬ Check.Skips schema id notes := by
  rintro ⟨hsome, hchecked⟩
  rw [(h id hid).unmarked rfl] at hchecked
  rw [← hchecked] at hsome
  cases hsome

/-- Changing the note on a node whose label stands nowhere else leaves the others as they are. -/
theorem Notes.frame_others {ids : List Label} {id : Label} (notes : Notes) (f : Note → Note)
    (hid : id ∉ ids) : ∀ i ∈ ids, (notes.change id f).note i = notes.note i := by
  intro i hi
  refine Notes.note_change_ne notes f ?_
  rintro rfl
  exact hid hi

/-! ### Operands that are resolved -/

namespace Predicate

variable {c : Catalog} {schema : Option EntityId}

theorem operandsOf_isPlain {left right : Value} {l r : Expr} (hl : left.IsPlain)
    (hr : right.IsPlain) (h : operandsOf c schema left right = .ok (l, r)) :
    l.IsPlain ∧ r.IsPlain := by
  obtain ⟨l', hl', hr', rfl⟩ := operandsOf_eq_ok_iff.mp h
  refine ⟨?_, rightOperand_isPlain hr hr'⟩
  split
  · exact (leftOperand_isPlain hl hl').withType _
  · exact leftOperand_isPlain hl hl'

theorem collectionOf_eq_ok_iff {op : Operator} {collection : Value} {e : Expr} :
    collectionOf c schema op collection = .ok e ↔
      collectionOperand c schema collection = .ok e ∧ misfit? c schema e = none := by
  rw [collectionOf]
  rcases ec : collectionOperand c schema collection with f | e'
  · simp
  · rw [ok_bind]
    split
    · rename_i error em
      constructor
      · intro h
        obtain ⟨text, -, h⟩ := bind_eq_ok_iff.mp h
        obtain ⟨key, -, h⟩ := bind_eq_ok_iff.mp h
        cases h
      · rintro ⟨h, hm⟩
        cases h
        rw [em] at hm
        cases hm
    · rename_i em
      constructor
      · intro h
        cases h
        exact ⟨rfl, em⟩
      · rintro ⟨h, -⟩
        cases h
        rfl

theorem exists_read?_of_collectionOf {op : Operator} {collection : Value} {e : Expr}
    (h : collectionOf c schema op collection = .ok e) :
    ∃ e₀, Operand.read? c { schema := schema } collection = .ok (some e₀) ∧
      e = if c.isSchemaless schema then e₀.withType none else e₀ :=
  collectionOperand_eq_ok_iff.mp (collectionOf_eq_ok_iff.mp h).1

/-- Where there is no schema every operand can be a collection. -/
theorem misfit?_of_isSchemaless {e : Expr} (hs : c.isSchemaless schema) :
    misfit? c schema e = none := by
  unfold misfit?
  cases schema
  case none => rfl
  case some => exact if_pos hs

/-- Under a schema no operand of a data type is a collection. -/
theorem misfit?_of_data {e : Expr} {type : DataType} (hs : ¬ c.isSchemaless schema)
    (he : e.type = some (.data type)) : misfit? c schema e ≠ none := by
  unfold misfit?
  cases schema
  case none => exact (hs rfl).elim
  case some =>
    simp only [hs, he]
    simp

theorem collectionOf_isPlain {op : Operator} {collection : Value} {e : Expr}
    (hc : collection.IsPlain) (h : collectionOf c schema op collection = .ok e) : e.IsPlain :=
  collectionOperand_isPlain hc (collectionOf_eq_ok_iff.mp h).1

/-- Where there is no schema the elements of a collection have none either. -/
theorem entity?_of_isSchemaless {op : Operator} {collection : Value} {e : Expr}
    (hs : c.isSchemaless schema) (h : collectionOf c schema op collection = .ok e) :
    e.entity? = none := by
  obtain ⟨e₀, -, rfl⟩ := exists_read?_of_collectionOf h
  rw [if_pos hs]
  cases e₀ <;> rfl

end Predicate

/-! ### Predicates without marks -/

namespace Predicate

section

variable {c : Catalog}

mutual

/-- **A check leaves the resolved condition of a predicate in the notes**, provided that no label
occurs twice in it and no node was checked against an entity type before. -/
theorem resolvedIn_of_check {schema : Option EntityId} {notes notes' : Notes} :
    ∀ p : Predicate, p.IsPlain → p.labels.Nodup → notes.On Note.Unmarked p.labels →
      outcome (Predicate.check c schema p) notes = (.ok (), notes') →
        notes'.On (Note.Fits schema) p.labels ∧
          ∃ t, p.condition.resolve c schema = .ok t ∧ p.resolvedIn notes' = some t
  | .passthrough id text, _, _, hon, h => by
    have hskip := hon.not_skips schema List.mem_cons_self
    obtain ⟨hs, -⟩ | ⟨-, rfl⟩ := check_passthrough_ok_iff.mp h
    · exact (hskip hs).elim
    · refine ⟨Notes.On.cons ?_ Notes.On.nil, _, rfl, rfl⟩
      rw [Notes.note_change_self]
      exact (hon id List.mem_cons_self).plain.markedFor schema
  | .unary id op operand, hp, hnodup, hon, h => by
    have hskip := hon.not_skips schema List.mem_cons_self
    obtain ⟨hid, hnodup⟩ := List.nodup_cons.mp hnodup
    obtain ⟨hs, -⟩ | ⟨-, middle, hoperand, rfl⟩ := check_unary_ok_iff.mp h
    · exact (hskip hs).elim
    · obtain ⟨hfits, t, ht, hin⟩ := resolvedOption_of_checkPresent operand hp.2 hnodup
        (hon.mono (List.subset_cons_self _ _)) hoperand
      have hothers := Notes.frame_others middle (Note.markedFor schema) hid
      refine ⟨Notes.On.cons ?_ (hfits.congr hothers), .unary op t, ?_, ?_⟩
      · rw [Notes.note_change_self, checkPresent_frame operand hp.2 hoperand id hid]
        exact (hon id List.mem_cons_self).plain.markedFor schema
      · simp only [condition, Condition.resolve, ht, ok_bind, pure_eq_ok]
      · rw [← resolvedOption_congr operand hothers] at hin
        simp only [resolvedIn, hin, Option.bind_eq_bind, Option.bind_some, Option.pure_def]
  | .logical id op children, hp, hnodup, hon, h => by
    have hskip := hon.not_skips schema List.mem_cons_self
    obtain ⟨hid, hnodup⟩ := List.nodup_cons.mp hnodup
    obtain ⟨hs, -⟩ | ⟨-, middle, hchildren, rfl⟩ := check_logical_ok_iff.mp h
    · exact (hskip hs).elim
    · obtain ⟨hfits, ts, ht, hin⟩ := resolvedAll_of_checkAll children hp.2 hnodup
        (hon.mono (List.subset_cons_self _ _)) hchildren
      have hothers := Notes.frame_others middle (Note.markedFor schema) hid
      refine ⟨Notes.On.cons ?_ (hfits.congr hothers), .logical op ts, ?_, ?_⟩
      · rw [Notes.note_change_self, checkAll_frame children hp.2 hchildren id hid]
        exact (hon id List.mem_cons_self).plain.markedFor schema
      · simp only [condition, Condition.resolve, ht, ok_bind, pure_eq_ok]
      · rw [← resolvedAll_congr children hothers] at hin
        simp only [resolvedIn, hin, Option.bind_eq_bind, Option.bind_some, Option.pure_def]
  | .comparison id op left right, hp, _, hon, h => by
    have hskip := hon.not_skips schema List.mem_cons_self
    obtain ⟨hs, -⟩ | ⟨-, l, r, hlr, rfl⟩ := (check_comparison_ok_iff hp.2.1 hp.2.2).mp h
    · exact (hskip hs).elim
    · obtain ⟨hl, hr⟩ := operandsOf_isPlain hp.2.1 hp.2.2 hlr
      refine ⟨Notes.On.cons ?_ Notes.On.nil, .comparison op l r, ?_, ?_⟩
      · rw [Notes.note_change_self, Notes.note_change_self]
        exact ((hon id List.mem_cons_self).plain.withOperands hl hr).markedFor schema
      · simp only [condition, Condition.resolve, hlr, ok_bind, pure_eq_ok]
      · simp only [resolvedIn, Notes.note_change_self]
        rfl
  | .quantified id op collection body, hp, hnodup, hon, h => by
    have hskip := hon.not_skips schema List.mem_cons_self
    obtain ⟨hid, hnodup⟩ := List.nodup_cons.mp hnodup
    obtain ⟨hs, -⟩ | ⟨-, e, middle, he, hbody, rfl⟩ :=
      (check_quantified_ok_iff hp.2.1 hp.1).mp h
    · exact (hskip hs).elim
    · -- the collection is noted before the body is checked
      have hbefore := Notes.frame_others notes (Note.withCollection e) hid
      obtain ⟨hfits, t, ht, hin⟩ := resolvedOption_of_checkPresent body hp.2.2 hnodup
        ((hon.mono (List.subset_cons_self _ _)).congr hbefore) hbody
      have hothers := Notes.frame_others middle (Note.markedFor schema) hid
      have hnote : middle.note id = (notes.note id).withCollection e := by
        rw [checkPresent_frame body hp.2.2 hbody id hid, Notes.note_change_self]
      -- Without a schema no element has a type either, so the marks in the body fit out here too.
      have hnone : schema = none → e.entity? = none := by
        rintro rfl
        exact entity?_of_isSchemaless rfl he
      refine ⟨Notes.On.cons ?_ ((hfits.imp fun _ hn => hn.outer hnone).congr hothers),
        .quantified op e t, ?_, ?_⟩
      · rw [Notes.note_change_self, hnote]
        exact ((hon id List.mem_cons_self).plain.withCollection
          (collectionOf_isPlain hp.2.1 he)).markedFor schema
      · simp only [condition, Condition.resolve, he, ht, ok_bind, pure_eq_ok]
      · rw [← resolvedOption_congr body hothers] at hin
        simp only [resolvedIn, Notes.note_change_self, hnote, hin]
        rfl
  | .bare _, hp, _, _, _ => hp.elim

theorem resolvedOption_of_checkPresent {schema : Option EntityId} {notes notes' : Notes} :
    ∀ p : Option Predicate, PlainOption p → (labelsOf p).Nodup →
      notes.On Note.Unmarked (labelsOf p) →
      outcome (checkPresent c schema p) notes = (.ok (), notes') →
        notes'.On (Note.Fits schema) (labelsOf p) ∧
          ∃ t, (conditionOf p).resolve c schema = .ok t ∧ resolvedOption notes' p = some t
  | none, _, _, _, h => by cases h
  | some p, hp, hnodup, hon, h => resolvedIn_of_check p hp hnodup hon h

theorem resolvedAll_of_checkAll {schema : Option EntityId} {notes notes' : Notes} :
    ∀ ps : List (Option Predicate), PlainAll ps → (labelsAll ps).Nodup →
      notes.On Note.Unmarked (labelsAll ps) →
      outcome (checkAll c schema ps) notes = (.ok (), notes') →
        notes'.On (Note.Fits schema) (labelsAll ps) ∧
          ∃ ts, Condition.resolveAll c schema (conditions ps) = .ok ts ∧
            resolvedAll notes' ps = some ts
  | [], _, _, _, h => ⟨Notes.On.nil, [], rfl, rfl⟩
  | p :: ps, hp, hnodup, hon, h => by
    obtain ⟨hnodupP, hnodupPs, hdisjoint⟩ := List.nodup_append'.mp hnodup
    obtain ⟨middle, hfirst, hrest⟩ := checkAll_cons_ok_iff.mp h
    have hframe := checkPresent_frame p hp.1 hfirst
    have hframe' := checkAll_frame ps hp.2 hrest
    obtain ⟨hfits, t, ht, hin⟩ := resolvedOption_of_checkPresent p hp.1 hnodupP
      (hon.mono (List.subset_append_left _ _)) hfirst
    obtain ⟨hfitsAll, ts, hts, hins⟩ := resolvedAll_of_checkAll ps hp.2 hnodupPs
      ((hon.mono (List.subset_append_right _ _)).frame hframe hdisjoint) hrest
    refine ⟨?_, t :: ts, ?_, ?_⟩
    · intro i hi
      rcases List.mem_append.mp hi with hi | hi
      · exact hfits.frame hframe' (List.disjoint_comm.mp hdisjoint) i hi
      · exact hfitsAll i hi
    · simp only [conditions, Condition.resolveAll, ht, hts, ok_bind, pure_eq_ok]
    · -- checking the others has left the notes on the first one alone
      have hsame := resolvedOption_congr p fun i hi => hframe' i fun hi' => hdisjoint hi hi'
      simp only [resolvedAll, hsame, hin, hins]
      rfl

end

end

end Predicate

end RecordFilter
