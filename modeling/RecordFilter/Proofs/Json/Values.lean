import RecordFilter.Json.Read
import RecordFilter.Proofs.Json.Encoding

/-!
# What JSON texts denote

A value that was read from a JSON text is written as one again, whatever else the text holds
(`Json.hasJsonText_of_ofText`): the keys in it are texts, and its scalars are truth values, numbers,
texts and null.

`Gives` says what a step of reading gives if it comes to an end, so that steps are put together without
looking at the place that the reader has reached.
-/

namespace RecordFilter

/-! ### Entries of maps that are read -/

/-- An entry that is put among others keeps the keys texts. -/
theorem Value.haveJsonEntries_insert (s : Text) {v : Value} (hv : v.HasJsonText)
    (es : List (Value × Value)) (h : Value.HaveJsonEntries es) :
    Value.HaveJsonEntries (Value.insert (.text s) v es) := by
  induction es with
  | nil => exact ⟨⟨⟨s, rfl⟩, hv⟩, trivial⟩
  | cons e es ih =>
    obtain ⟨k, w⟩ := e
    rw [Value.insert]
    split
    · exact ⟨⟨h.1.1, hv⟩, h.2⟩
    · exact ⟨h.1, ih h.2⟩

theorem Value.haveJsonTexts_iff {vs : List Value} :
    Value.HaveJsonTexts vs ↔ ∀ v ∈ vs, v.HasJsonText := by
  induction vs with
  | nil => exact iff_of_true trivial fun _ h => absurd h List.not_mem_nil
  | cons v vs ih =>
    rw [List.forall_mem_cons, ← ih]
    rfl

namespace Json

/-! ### What steps give -/

/-- Whatever a step of reading gives fulfils a condition. -/
def Gives {α : Type} (P : α → Prop) (m : Reader α) : Prop :=
  ∀ s a s', m.run s = .ok (a, s') → P a

namespace Gives

variable {α β : Type} {P : α → Prop} {Q : β → Prop}

theorem pure {a : α} (h : P a) : Gives P (Pure.pure a : Reader α) := by
  rintro s _ _ ⟨⟩
  exact h

theorem anything (m : Reader α) : Gives (fun _ => True) m :=
  fun _ _ _ _ => trivial

theorem refuse (reason : Reason) (position : Nat) : Gives P (Json.refuse reason position) := by
  rintro s a s' ⟨⟩

theorem fail (e : Failure) : Gives P (throw e : Reader α) := by
  rintro s a s' ⟨⟩

theorem bind {m : Reader α} {f : α → Reader β} (hm : Gives P m) (hf : ∀ a, P a → Gives Q (f a)) :
    Gives Q (m >>= f) := by
  intro s b s' h
  rw [StateT.run_bind, bind_eq_ok_iff] at h
  obtain ⟨⟨a, middle⟩, hfirst, hrest⟩ := h
  exact hf a (hm s a middle hfirst) middle b s' hrest

/-- What comes next does not depend on what a step gives. -/
theorem after {m : Reader α} {f : α → Reader β} (hf : ∀ a, Gives Q (f a)) : Gives Q (m >>= f) :=
  (anything m).bind fun a _ => hf a

theorem ite {p : Prop} [Decidable p] {m m' : Reader α} (h : Gives P m) (h' : Gives P m') :
    Gives P (if p then m else m') := by
  split
  · exact h
  · exact h'

theorem refuseHere (reason : Reason) : Gives P (Json.refuseHere reason) :=
  after fun s => refuse reason s.position

end Gives

/-! ### Values -/

theorem gives_number : Gives Value.HasJsonText number := by
  refine .after fun s => .ite (.refuse _ _) (.after fun _ => .ite ?_ (.pure trivial))
  split
  · exact .pure trivial
  · exact .fail _

theorem hasJsonText_of_mem_words : ∀ w ∈ words, w.2.HasJsonText := by
  simp [words, Value.HasJsonText]

theorem gives_scalar : Gives Value.HasJsonText scalar := by
  refine .after fun s => ?_
  dsimp only
  split
  · rename_i word v hfind
    exact .after fun _ => .pure (hasJsonText_of_mem_words (word, v) (List.mem_of_find?_eq_some hfind))
  · exact gives_number

/-- **Values that are read have JSON texts.** Nested values are read with less fuel. -/
theorem gives_value (fuel : Nat) :
    Gives Value.HasJsonText (value fuel) ∧ Gives Value.HaveJsonTexts (items fuel) ∧
      ∀ known, Value.HaveJsonEntries known → Gives Value.HaveJsonEntries (entries fuel known) := by
  induction fuel with
  | zero => exact ⟨.refuseHere _, .refuseHere _, fun _ _ => .refuseHere _⟩
  | succ fuel ih =>
    obtain ⟨hvalue, hitems, hentries⟩ := ih
    refine ⟨?_, ?_, fun known hknown => ?_⟩
    · rw [value]
      refine .after fun _ => .ite (.after fun _ => .pure trivial) (.after fun _ => .ite ?_ ?_)
      · refine .after fun _ => .after fun _ => .ite (.pure trivial) ?_
        exact (hentries [] trivial).bind fun _ hes => .pure hes
      · refine .after fun _ => .ite (.after fun _ => .after fun _ => .ite (.pure trivial) ?_) gives_scalar
        exact hitems.bind fun _ hvs => .pure hvs
    · rw [items]
      refine hvalue.bind fun v hv => .after fun _ => .after fun _ => .ite (.pure ⟨hv, trivial⟩) ?_
      refine .after fun _ => .ite (.after fun _ => ?_) (.refuseHere _)
      exact hitems.bind fun vs hvs => .pure ⟨hv, hvs⟩
    · rw [entries]
      refine .after fun _ => .ite (.after fun name => .after fun _ => .after fun _ => ?_) (.refuseHere _)
      refine .ite (.after fun _ => hvalue.bind fun v hv => ?_) (.refuseHere _)
      have hmore := Value.haveJsonEntries_insert name hv known hknown
      refine .after fun _ => .after fun _ => .ite (.pure hmore) (.after fun _ => .ite ?_ (.refuseHere _))
      exact .after fun _ => hentries _ hmore

theorem gives_document (fuel : Nat) : Gives Value.HasJsonText (document fuel) := by
  refine .after fun _ => .ite (.refuse _ _) (.after fun _ => (gives_value fuel).1.bind fun v hv => ?_)
  exact .after fun _ => .after fun _ => .ite (.pure hv) (.refuseHere _)

/-- **What a JSON text denotes has a JSON text again.** -/
theorem hasJsonText_of_ofText {cs : List CodePoint} {v : Value} (h : ofText cs = .ok v) :
    v.HasJsonText := by
  rw [ofText, StateT.run'_eq] at h
  rcases hrun : (document (2 * cs.length + 2)).run ⟨cs, 0⟩ with e | ⟨w, s⟩
  · rw [hrun] at h
    cases h
  · rw [hrun] at h
    cases h
    exact gives_document _ _ _ _ hrun

end Json

end RecordFilter
