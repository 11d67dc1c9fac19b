import RecordFilter.Fault

/-!
# Outcomes of steps

What a sequence of steps comes to, in terms of what its parts come to: for plain outcomes, and for
steps that keep a state which survives a fault. `Agrees` compares the two: steps agree with a plain
outcome when they end in the same fault, or in a result that is related to it.
-/

namespace RecordFilter

variable {α β ε σ : Type}

/-! ### Plain outcomes -/

@[simp] theorem ok_bind (a : α) (f : α → Except ε β) : (Except.ok a >>= f) = f a := rfl

@[simp] theorem error_bind (e : ε) (f : α → Except ε β) :
    ((Except.error e : Except ε α) >>= f) = .error e := rfl

theorem bind_eq_ok_iff {x : Except ε α} {f : α → Except ε β} {b : β} :
    (x >>= f) = .ok b ↔ ∃ a, x = .ok a ∧ f a = .ok b := by
  rcases x with e | a <;> simp

theorem bind_eq_error_iff {x : Except ε α} {f : α → Except ε β} {e : ε} :
    (x >>= f) = .error e ↔ x = .error e ∨ ∃ a, x = .ok a ∧ f a = .error e := by
  rcases x with e | a <;> simp

theorem map_eq_ok_iff {x : Except ε α} {f : α → β} {b : β} :
    x.map f = .ok b ↔ ∃ a, x = .ok a ∧ f a = b := by
  cases x <;> simp [Except.map]

@[simp] theorem pure_eq_ok (a : α) : (pure a : Except ε α) = .ok a := rfl

theorem pure_eq_ok_iff {a b : α} : (pure a : Except ε α) = .ok b ↔ b = a :=
  ⟨fun h => (Except.ok.inj h).symm, fun h => congrArg Except.ok h.symm⟩

@[simp] theorem throw_eq_error (e : ε) : (throw e : Except ε α) = .error e := rfl

/-! ### Steps that keep a state -/

/-- What steps come to from a state: their result or fault, and the state afterwards. -/
def outcome (m : ExceptT ε (StateM σ) α) (s : σ) : Except ε α × σ :=
  m.run.run s

variable {s s' : σ} {m : ExceptT ε (StateM σ) α} {f : α → ExceptT ε (StateM σ) β}

@[simp] theorem outcome_pure (a : α) : outcome (pure a : ExceptT ε (StateM σ) α) s = (.ok a, s) := rfl

@[simp] theorem outcome_throw (e : ε) :
    outcome (throw e : ExceptT ε (StateM σ) α) s = (.error e, s) := rfl

@[simp] theorem outcome_get : outcome (get : ExceptT ε (StateM σ) σ) s = (.ok s, s) := rfl

@[simp] theorem outcome_modify (g : σ → σ) :
    outcome (modify g : ExceptT ε (StateM σ) PUnit) s = (.ok ⟨⟩, g s) := rfl

@[simp] theorem outcome_lift (x : Except ε α) :
    outcome (liftM x : ExceptT ε (StateM σ) α) s = (x, s) := by
  rcases x with e | a <;> rfl

theorem exists_outcome_of_isOk (h : (outcome m s).1.isOk) : ∃ a, outcome m s = (.ok a, (outcome m s).2) := by
  rcases hm : outcome m s with ⟨e | a, s'⟩
  · rw [hm] at h
    cases h
  · exact ⟨a, rfl⟩

theorem outcome_bind_of_ok {a : α} (h : outcome m s = (.ok a, s')) :
    outcome (m >>= f) s = outcome (f a) s' := by
  have h' : (m.run.run s : Except ε α × σ) = (.ok a, s') := h
  change (ExceptT.run (m >>= f)).run s = _
  rw [ExceptT.run_bind, StateT.run_bind]
  change (match (m.run.run s : Except ε α × σ) with | (a, s) => _ : Except ε β × σ) = _
  rw [h']
  rfl

theorem outcome_bind_of_error {e : ε} (h : outcome m s = (.error e, s')) :
    outcome (m >>= f) s = (.error e, s') := by
  have h' : (m.run.run s : Except ε α × σ) = (.error e, s') := h
  change (ExceptT.run (m >>= f)).run s = _
  rw [ExceptT.run_bind, StateT.run_bind]
  change (match (m.run.run s : Except ε α × σ) with | (a, s) => _ : Except ε β × σ) = _
  rw [h']
  rfl

theorem outcome_bind_eq_ok_iff {b : β} {s'' : σ} :
    outcome (m >>= f) s = (.ok b, s'') ↔
      ∃ a s', outcome m s = (.ok a, s') ∧ outcome (f a) s' = (.ok b, s'') := by
  rcases h : outcome m s with ⟨e | a, s'⟩
  · simp [outcome_bind_of_error h]
  · rw [outcome_bind_of_ok h]
    constructor
    · exact fun hf => ⟨a, s', rfl, hf⟩
    · rintro ⟨_, _, heq, hf⟩
      cases heq
      exact hf

theorem outcome_bind_eq_error_iff {e : ε} {s'' : σ} :
    outcome (m >>= f) s = (.error e, s'') ↔
      outcome m s = (.error e, s'') ∨
        ∃ a s', outcome m s = (.ok a, s') ∧ outcome (f a) s' = (.error e, s'') := by
  rcases h : outcome m s with ⟨e' | a, s'⟩
  · simp [outcome_bind_of_error h]
  · rw [outcome_bind_of_ok h]
    constructor
    · exact fun hf => .inr ⟨a, s', rfl, hf⟩
    · rintro (heq | ⟨_, _, heq, hf⟩)
      · cases heq
      · cases heq
        exact hf

/-- Two steps one after the other, of which the first one has no result. -/
theorem outcome_seq_eq_ok_iff {first : ExceptT ε (StateM σ) PUnit} {next : ExceptT ε (StateM σ) β}
    {b : β} {s'' : σ} :
    outcome (do first; next) s = (.ok b, s'') ↔
      ∃ s', outcome first s = (.ok ⟨⟩, s') ∧ outcome next s' = (.ok b, s'') := by
  refine outcome_bind_eq_ok_iff.trans ⟨?_, ?_⟩
  · rintro ⟨⟨⟩, s', hfirst, hnext⟩
    exact ⟨s', hfirst, hnext⟩
  · rintro ⟨s', hfirst, hnext⟩
    exact ⟨⟨⟩, s', hfirst, hnext⟩

/-! ### Steps and plain outcomes -/

/-- From a state the steps end in the fault that a plain outcome is, or else in a result and a state
that are related to it. -/
def Agrees (Q : α → β → σ → Prop) (m : ExceptT ε (StateM σ) α) (s : σ) : Except ε β → Prop
  | .error e => ∃ s', outcome m s = (.error e, s')
  | .ok b => ∃ a s', outcome m s = (.ok a, s') ∧ Q a b s'

namespace Agrees

variable {γ δ : Type} {Q : α → β → σ → Prop} {Q' : γ → δ → σ → Prop} {x : Except ε β}

theorem pure {a : α} {b : β} (h : Q a b s) : Agrees Q (Pure.pure a) s (Except.ok b : Except ε β) :=
  ⟨a, s, rfl, h⟩

theorem throw (e : ε) : Agrees Q (MonadExcept.throw e) s (Except.error e : Except ε β) :=
  ⟨s, rfl⟩

theorem bind {k : α → ExceptT ε (StateM σ) γ} {g : β → Except ε δ} (h : Agrees Q m s x)
    (hk : ∀ a b s', Q a b s' → Agrees Q' (k a) s' (g b)) : Agrees Q' (m >>= k) s (x >>= g) := by
  rcases x with e | b
  · obtain ⟨s', hm⟩ := h
    exact ⟨s', outcome_bind_of_error hm⟩
  · obtain ⟨a, s', hm, hQ⟩ := h
    have hrest := hk a b s' hQ
    rw [ok_bind]
    rcases e : g b with e' | d
    · rw [e] at hrest
      obtain ⟨s'', hs''⟩ := hrest
      exact ⟨s'', (outcome_bind_of_ok hm).trans hs''⟩
    · rw [e] at hrest
      obtain ⟨c, s'', hs'', hQ'⟩ := hrest
      exact ⟨c, s'', (outcome_bind_of_ok hm).trans hs'', hQ'⟩

theorem lift (x : Except ε α) : Agrees (fun a b s' => a = b ∧ s' = s) (liftM x) s x := by
  rcases x with e | a
  · exact ⟨s, rfl⟩
  · exact ⟨a, s, rfl, rfl, rfl⟩

theorem map {f : α → γ} {R : γ → β → σ → Prop} (h : Agrees Q m s x)
    (hf : ∀ a b s', Q a b s' → R (f a) b s') : Agrees R (do return f (← m)) s x := by
  rcases x with e | b
  · obtain ⟨s', hm⟩ := h
    exact ⟨s', outcome_bind_of_error hm⟩
  · obtain ⟨a, s', hm, hQ⟩ := h
    exact ⟨f a, s', outcome_bind_of_ok hm, hf a b s' hQ⟩

theorem imp {R : α → β → σ → Prop} (h : Agrees Q m s x) (hQR : ∀ a b s', Q a b s' → R a b s') :
    Agrees R m s x := by
  rcases x with e | b
  · exact h
  · obtain ⟨a, s', hm, hQ⟩ := h
    exact ⟨a, s', hm, hQR a b s' hQ⟩

end Agrees

end RecordFilter
