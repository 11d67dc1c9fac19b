import RecordFilter.Proofs.Outcome

/-!
# Outcomes that are alike

Two outcomes end alike when both are faults that are related, or both are results that are related.
The relation between faults is equality, or being of one kind (`Fault.SameKind`): a caller tells
faults apart by their kind, and messages are for people.
-/

namespace RecordFilter

/-- The kinds of faults that a caller can tell apart. -/
inductive FaultKind where
  | construction | validation | evaluation | context
  | wrongType | noMember | badValue | outOfRange | badIndex | undefinedComparison
  | invalidSettings | endlessOperand
deriving DecidableEq, Repr

/-- The kind of a fault. A bad document and an incomplete backend are told by nothing but a value that
cannot be used. -/
def Fault.kind : Fault → FaultKind
  | construction _ => .construction
  | validation _ => .validation
  | evaluation _ => .evaluation
  | context _ => .context
  | document _ => .badValue
  | incompleteBackend .. => .wrongType
  | wrongType => .wrongType
  | noMember => .noMember
  | badValue => .badValue
  | outOfRange => .outOfRange
  | badIndex => .badIndex
  | undefinedComparison => .undefinedComparison
  | invalidSettings => .invalidSettings
  | endlessOperand => .endlessOperand

/-- Two faults are of one kind. -/
def Fault.SameKind (f g : Fault) : Prop :=
  f.kind = g.kind

variable {α β γ δ : Type} {S T : Fault → Fault → Prop} {R : α → β → Prop}

/-- Both outcomes are faults that are related by `S`, or both are results that are related by `R`. -/
inductive EndAlike (S : Fault → Fault → Prop) (R : α → β → Prop) :
    Except Fault α → Except Fault β → Prop
  | error {f g : Fault} : S f g → EndAlike S R (.error f) (.error g)
  | ok {a : α} {b : β} : R a b → EndAlike S R (.ok a) (.ok b)

namespace EndAlike

variable {x : Except Fault α} {y : Except Fault β}

theorem refl {Q : α → α → Prop} {x : Except Fault α} (hS : ∀ f, S f f) (hQ : ∀ a, Q a a) :
    EndAlike S Q x x := by
  rcases x with f | a
  · exact .error (hS f)
  · exact .ok (hQ a)

theorem of_eq {x y : Except Fault α} (hS : ∀ f, S f f) (h : x = y) : EndAlike S Eq x y := by
  subst h
  exact refl hS fun _ => rfl

theorem imp {Q : α → β → Prop} (h : EndAlike S R x y) (hST : ∀ f g, S f g → T f g)
    (hRQ : ∀ a b, R a b → Q a b) : EndAlike T Q x y := by
  cases h with
  | error hfault => exact .error (hST _ _ hfault)
  | ok hresult => exact .ok (hRQ _ _ hresult)

theorem bind {Q : γ → δ → Prop} {k : α → Except Fault γ} {l : β → Except Fault δ}
    (h : EndAlike S R x y) (hkl : ∀ a b, R a b → EndAlike S Q (k a) (l b)) :
    EndAlike S Q (x >>= k) (y >>= l) := by
  cases h with
  | error hfault => exact .error hfault
  | ok hresult => exact hkl _ _ hresult

theorem map_left {Q : γ → β → Prop} {f : α → γ} (h : EndAlike S R x y)
    (hQ : ∀ a b, R a b → Q (f a) b) : EndAlike S Q (do return f (← x)) y := by
  cases h with
  | error hfault => exact .error hfault
  | ok hresult => exact .ok (hQ _ _ hresult)

/-- Outcomes that are alike in turn: faults are the same at first and at last. -/
theorem trans {P : α → γ → Prop} {Q : γ → δ → Prop} {z : Except Fault γ} {w : Except Fault δ}
    {R' : β → δ → Prop} {E : α → β → Prop} (hxz : EndAlike Eq P x z) (hzw : EndAlike S Q z w)
    (hyw : EndAlike Eq R' y w) (hE : ∀ a c d b, P a c → Q c d → R' b d → E a b) :
    EndAlike S E x y := by
  cases hzw with
  | error hfault =>
    cases hxz with
    | error hsame =>
      cases hyw with
      | error hsame' =>
        subst hsame hsame'
        exact .error hfault
  | ok hresult =>
    cases hxz with
    | ok hP =>
      cases hyw with
      | ok hR' => exact .ok (hE _ _ _ _ hP hresult hR')

theorem symm {Q : β → α → Prop} (h : EndAlike S R x y) (hS : ∀ f g, S f g → S g f)
    (hQ : ∀ a b, R a b → Q b a) : EndAlike S Q y x := by
  cases h with
  | error hfault => exact .error (hS _ _ hfault)
  | ok hresult => exact .ok (hQ _ _ hresult)

/-- Three outcomes that are alike in turn, if the relation between faults carries over. -/
theorem comp {P : α → γ → Prop} {Q : β → γ → Prop} {z : Except Fault γ} (h : EndAlike S R x y)
    (h' : EndAlike S Q y z) (hS : ∀ f g e, S f g → S g e → S f e)
    (hP : ∀ a b c, R a b → Q b c → P a c) : EndAlike S P x z := by
  cases h with
  | error hfault =>
    cases h' with
    | error hfault' => exact .error (hS _ _ _ hfault hfault')
  | ok hresult =>
    cases h' with
    | ok hresult' => exact .ok (hP _ _ _ hresult hresult')

theorem exists_ok_iff (h : EndAlike S R x y) : (∃ a, x = .ok a) ↔ ∃ b, y = .ok b := by
  cases h with
  | error =>
    constructor
    · rintro ⟨a, ha⟩
      cases ha
    · rintro ⟨b, hb⟩
      cases hb
  | ok => exact ⟨fun _ => ⟨_, rfl⟩, fun _ => ⟨_, rfl⟩⟩

theorem bind_eq {k : α → Except Fault γ} {l : β → Except Fault γ} (h : EndAlike Eq R x y)
    (hkl : ∀ a b, R a b → k a = l b) : (x >>= k) = (y >>= l) := by
  cases h with
  | error hsame => exact congrArg Except.error hsame
  | ok hresult => exact hkl _ _ hresult

theorem eq_error {f : Fault} (h : EndAlike Eq R x y) (hx : x = .error f) : y = .error f := by
  cases h with
  | error hsame =>
    cases hx
    exact congrArg Except.error hsame.symm
  | ok hresult => cases hx

end EndAlike

end RecordFilter
