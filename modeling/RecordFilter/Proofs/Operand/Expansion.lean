import RecordFilter.Proofs.Operand.Layout

/-!
# Groups put back into their places

Cutting the groups out of an operand text loses nothing: each reference in the linear form stands for the
group with its number, in parentheses, and with all of them put back the text is as it was
(`Operand.expands_source`). This is so for texts without quotes and marks in which no closing parenthesis
stands right in front of a digit or an underscore.

`Expands` puts groups back. `LeadsTo` says the same of a text that is still being read, and
`Cutting.Spells` of a state of the cutting with all its open parentheses.
-/

namespace RecordFilter.Operand

/-- Every parenthesis in the text is closed or was opened, and the characters outside of all parentheses
fulfil a condition. -/
inductive Balanced : (CodePoint → Prop) → List CodePoint → Prop
  | nil {outside : CodePoint → Prop} : Balanced outside []
  | char {outside : CodePoint → Prop} {c : CodePoint} {u : List CodePoint} :
    c ≠ '(' → c ≠ ')' → outside c → Balanced outside u → Balanced outside (c :: u)
  | group {outside : CodePoint → Prop} {inner u : List CodePoint} :
    Balanced (fun _ => True) inner → Balanced outside u →
      Balanced outside (.char '(' :: (inner ++ .char ')' :: u))

namespace Balanced

variable {outside : CodePoint → Prop} {u v : List CodePoint}

theorem append (hu : Balanced outside u) (hv : Balanced outside v) : Balanced outside (u ++ v) := by
  induction hu with
  | nil => exact hv
  | char hopen hclose hc _ ih => exact .char hopen hclose hc (ih hv)
  | @group outside inner u hinner _ _ ih =>
    rw [List.cons_append, List.append_assoc, List.cons_append]
    exact .group hinner (ih hv)

theorem weaken (hu : Balanced outside u) : Balanced (fun _ => True) u := by
  induction hu with
  | nil => exact .nil
  | char hopen hclose _ _ ih => exact .char hopen hclose trivial ih
  | group hinner _ _ ih => exact .group hinner ih

/-- Balanced texts with commas between them are balanced. -/
theorem intercalate {ts : List (List CodePoint)} (h : ∀ t ∈ ts, Balanced outside t) :
    Balanced (fun _ => True) ([CodePoint.char ','].intercalate ts) := by
  induction ts with
  | nil => exact .nil
  | cons t ts ih =>
    have ht := (h t List.mem_cons_self).weaken
    cases ts with
    | nil =>
      rw [List.intercalate_singleton]
      exact ht
    | cons t' ts =>
      rw [List.intercalate_cons_cons, List.append_assoc]
      apply ht.append
      exact .char (by decide) (by decide) trivial (ih fun t ht => h t (List.mem_cons_of_mem _ ht))

end Balanced

/-! ### Putting groups back -/

/-- Digits are neither quotes nor parentheses. -/
theorem plain_of_mem_digits {n : Nat} {c : CodePoint} (h : c ∈ (Text.digits n).map CodePoint.char) :
    isQuote c = false ∧ c ≠ '(' ∧ c ≠ ')' := by
  obtain ⟨d, hd, rfl⟩ := List.mem_map.mp h
  have hdigit : Numeral.IsNumeralChar d := .inl (Numeral.isDigit_of_mem_digits hd)
  have hopen : CodePoint.char d ≠ '(' := Numeral.ne_of_isNumeralChar hdigit (by decide)
  have hclose : CodePoint.char d ≠ ')' := Numeral.ne_of_isNumeralChar hdigit (by decide)
  exact ⟨Numeral.isQuote_of_isNumeralChar hdigit, hopen, hclose⟩

/-- A text in linear form with the group in the place of each reference, in parentheses and with its own
references replaced in the same way. -/
inductive Expands (groups : List (List CodePoint)) : List CodePoint → List CodePoint → Prop
  | nil : Expands groups [] []
  | char {c : CodePoint} {x u : List CodePoint} : c ≠ groupMark → Expands groups x u →
      Expands groups (c :: x) (c :: u)
  | group {k : Nat} {inner v x u : List CodePoint} :
    groups[k]? = some (.char '(' :: (inner ++ [.char ')'])) → (∀ c ∈ inner, c ≠ '(' ∧ c ≠ ')') →
      Expands groups inner v → Stops x → Expands groups x u →
        Expands groups (groupMark :: ((Text.digits k).map .char ++ x))
          (.char '(' :: (v ++ .char ')' :: u))

namespace Expands

variable {groups : List (List CodePoint)} {x u : List CodePoint}

/-- More groups change nothing about the references that are there. -/
theorem mono (h : Expands groups x u) (more : List (List CodePoint)) :
    Expands (groups ++ more) x u := by
  induction h with
  | nil => exact .nil
  | char hc _ ih => exact .char hc ih
  | group hk hinner _ hstops _ ihInner ih =>
    have hlt := (List.getElem?_eq_some_iff.mp hk).1
    rw [← List.getElem?_append_left hlt] at hk
    exact .group hk hinner ihInner hstops ih

theorem of_unmarked (hx : groupMark ∉ x) : Expands groups x x := by
  induction x with
  | nil => exact .nil
  | cons c x ih =>
    rw [List.mem_cons, not_or] at hx
    exact .char (Ne.symm hx.1) (ih hx.2)

theorem eq_of_unmarked (h : Expands groups x u) (hx : groupMark ∉ x) : u = x := by
  induction h with
  | nil => rfl
  | char _ _ ih => rw [ih fun hmem => hx (List.mem_cons_of_mem _ hmem)]
  | group => exact (hx List.mem_cons_self).elim

/-- What holds of the whole text, of the mark of a group and of digits holds of the linear form. -/
theorem forall_of_forall {P : CodePoint → Prop} (hmark : P groupMark)
    (hdigits : ∀ k, ∀ c ∈ (Text.digits k).map CodePoint.char, P c) (h : Expands groups x u)
    (hu : ∀ c ∈ u, P c) : ∀ c ∈ x, P c := by
  induction h with
  | nil => exact hu
  | char _ _ ih =>
    intro d hd
    rcases List.mem_cons.mp hd with rfl | hd
    · exact hu d List.mem_cons_self
    · exact ih (fun c hc => hu c (List.mem_cons_of_mem _ hc)) d hd
  | group _ _ _ _ _ _ ih =>
    intro d hd
    rcases List.mem_cons.mp hd with rfl | hd
    · exact hmark
    · rcases List.mem_append.mp hd with hd | hd
      · exact hdigits _ d hd
      · refine ih (fun c hc => hu c ?_) d hd
        exact List.mem_cons_of_mem _ (List.mem_append_right _ (List.mem_cons_of_mem _ hc))

/-- A text in linear form without parentheses has all of them in its groups, where they are balanced. -/
theorem balanced (h : Expands groups x u) (hx : ∀ c ∈ x, c ≠ '(' ∧ c ≠ ')')
    {outside : CodePoint → Prop} (houtside : ∀ c ∈ x, outside c) : Balanced outside u := by
  induction h generalizing outside with
  | nil => exact .nil
  | char _ _ ih =>
    obtain ⟨hopen, hclose⟩ := hx _ List.mem_cons_self
    refine .char hopen hclose (houtside _ List.mem_cons_self) (ih ?_ ?_)
    · exact fun c hc => hx c (List.mem_cons_of_mem _ hc)
    · exact fun c hc => houtside c (List.mem_cons_of_mem _ hc)
  | group _ hinner _ _ _ ihInner ih =>
    refine .group (ihInner hinner fun _ _ => trivial) (ih ?_ ?_)
    · exact fun c hc => hx c (List.mem_cons_of_mem _ (List.mem_append_right _ hc))
    · exact fun c hc => houtside c (List.mem_cons_of_mem _ (List.mem_append_right _ hc))

/-- What stands at the first reference. -/
theorem after_mark {a s : List CodePoint} (ha : groupMark ∉ a)
    (h : Expands groups (a ++ groupMark :: s) u) :
    ∃ (k : Nat) (inner v y w : List CodePoint), s = (Text.digits k).map .char ++ y ∧
      groups[k]? = some (.char '(' :: (inner ++ [.char ')'])) ∧ (∀ c ∈ inner, c ≠ '(' ∧ c ≠ ')') ∧
      Expands groups inner v ∧ Stops y ∧ Expands groups y w ∧
      u = a ++ .char '(' :: (v ++ .char ')' :: w) := by
  induction a generalizing u with
  | nil =>
    generalize hshape : [] ++ groupMark :: s = x at h
    cases h with
    | nil => cases hshape
    | char hc => exact (hc (List.cons.inj hshape).1.symm).elim
    | group hk hinner hv hstops hw =>
      exact ⟨_, _, _, _, _, (List.cons.inj hshape).2, hk, hinner, hv, hstops, hw, rfl⟩
  | cons c a ih =>
    rw [List.mem_cons, not_or] at ha
    generalize hshape : c :: a ++ groupMark :: s = x at h
    cases h with
    | nil => cases hshape
    | char hc hrest =>
      obtain ⟨rfl, rfl⟩ := List.cons.inj hshape
      obtain ⟨k, inner, v, y, w, hs, hk, hinner, hv, hstops, hw, rfl⟩ := ih ha.2 hrest
      exact ⟨k, inner, v, y, w, hs, hk, hinner, hv, hstops, hw, rfl⟩
    | group => exact (ha.1 (List.cons.inj hshape).1.symm).elim

end Expands

/-! ### Texts that are still being read -/

/-- Whatever the text in linear form goes on with, the whole text goes on with what that stands for; if
the flag is set it may not continue a number. -/
def LeadsTo (groups : List (List CodePoint)) (numbered : Bool) (x u : List CodePoint) : Prop :=
  ∀ more y w, Expands (groups ++ more) y w → (numbered = true → Stops y) →
    Expands (groups ++ more) (x ++ y) (u ++ w)

namespace LeadsTo

variable {groups : List (List CodePoint)} {numbered : Bool} {x y u v : List CodePoint}

theorem nil : LeadsTo groups false [] [] := fun _ _ _ h _ => h

theorem expands (h : LeadsTo groups numbered x u) : Expands groups x u := by
  simpa using h [] [] [] .nil fun _ => stops_nil

theorem weaken (h : LeadsTo groups numbered x u) : LeadsTo groups true x u :=
  fun more y w hy hstops => h more y w hy fun _ => hstops rfl

theorem mono (h : LeadsTo groups numbered x u) (more : List (List CodePoint)) :
    LeadsTo (groups ++ more) numbered x u := by
  intro more' y w hy hstops
  rw [List.append_assoc] at hy ⊢
  exact h (more ++ more') y w hy hstops

theorem char {c : CodePoint} (h : LeadsTo groups numbered x u) (hc : c ≠ groupMark)
    (hstops : numbered = true → endsNumber c) : LeadsTo groups false (x ++ [c]) (u ++ [c]) := by
  intro more y w hy _
  rw [List.append_assoc, List.append_assoc]
  exact h more (c :: y) (c :: w) (.char hc hy) fun hn => stops_cons.mpr (hstops hn)

theorem group {k : Nat} {inner : List CodePoint} (h : LeadsTo groups numbered x u)
    (hk : groups[k]? = some (.char '(' :: (inner ++ [.char ')'])))
    (hinner : ∀ c ∈ inner, c ≠ '(' ∧ c ≠ ')') (hv : Expands groups inner v) :
    LeadsTo groups true (x ++ groupMark :: (Text.digits k).map .char)
      (u ++ .char '(' :: (v ++ [.char ')'])) := by
  intro more y w hy hstops
  have hlt := (List.getElem?_eq_some_iff.mp hk).1
  have hmore : (groups ++ more)[k]? = some (.char '(' :: (inner ++ [.char ')'])) :=
    (List.getElem?_append_left hlt).trans hk
  have hgroup := Expands.group hmore hinner (hv.mono more) (hstops rfl) hy
  simpa using h more _ _ hgroup fun _ => stops_cons.mpr endsNumber_groupMark

/-- Two texts with a parenthesis between them that was never closed. -/
theorem parenthesis (hx : LeadsTo groups true x u) (hy : LeadsTo groups true y v) :
    LeadsTo groups true (x ++ .char '(' :: y) (u ++ .char '(' :: v) := by
  intro more z w hz hstops
  have hinner := Expands.char (c := .char '(') (by decide) (hy more z w hz hstops)
  simpa using hx more _ _ hinner fun _ => stops_cons.mpr (by decide)

end LeadsTo

/-- The texts outside of open parentheses stand for a text, which ends with the innermost of these
parentheses. Only outside of all of them a text can hold parentheses. -/
inductive Standing (groups : List (List CodePoint)) : List (List CodePoint) → List CodePoint → Prop
  | nil : Standing groups [] []
  | cons {below u t : List CodePoint} {outer : List (List CodePoint)} :
    LeadsTo groups true below.reverse u → (outer ≠ [] → ∀ c ∈ below, c ≠ '(' ∧ c ≠ ')') →
      Standing groups outer t → Standing groups (below :: outer) (t ++ u ++ [.char '('])

namespace Standing

variable {groups outer : List (List CodePoint)} {t : List CodePoint}

theorem mono (h : Standing groups outer t) (more : List (List CodePoint)) :
    Standing (groups ++ more) outer t := by
  induction h with
  | nil => exact .nil
  | cons hbelow hparens _ ih => exact .cons (hbelow.mono more) hparens ih

/-- The text that is left when parentheses are never closed. -/
theorem expands_rest (h : Standing groups outer t) {current u : List CodePoint}
    (hcurrent : LeadsTo groups true current.reverse u) :
    Expands groups (Cutting.rest outer current) (t ++ u) := by
  induction h generalizing current u with
  | nil => exact hcurrent.expands
  | @cons below v t outer hbelow _ _ ih =>
    have hjoined : LeadsTo groups true (current ++ [CodePoint.char '('] ++ below).reverse
        (v ++ .char '(' :: u) := by
      simpa using hbelow.parenthesis hcurrent
    have htext : t ++ v ++ [CodePoint.char '('] ++ u = t ++ (v ++ .char '(' :: u) := by simp
    rw [htext]
    exact ih hjoined

end Standing

/-! ### Cutting -/

/-- **What is kept while groups are cut out.** What was read is the text that the open levels stand for,
and what is still to be read does not continue the last number. -/
inductive Cutting.Spells : Cutting → List CodePoint → List CodePoint → Prop
  | intro {outer groups : List (List CodePoint)} {current t u rest : List CodePoint} {numbered : Bool} :
    Standing groups.reverse outer t → LeadsTo groups.reverse numbered current.reverse u →
      (numbered = true → Stops rest) → (outer ≠ [] → ∀ c ∈ current, c ≠ '(' ∧ c ≠ ')') →
        Spells ⟨outer, current, groups⟩ (t ++ u) rest

theorem Cutting.Spells.step {s : Cutting} {c : CodePoint} {read rest : List CodePoint}
    (h : s.Spells read (c :: rest)) (hcs : IsUnambiguous (c :: rest)) :
    (s.step c).Spells (read ++ [c]) rest := by
  have hmark : c ≠ groupMark := by
    rintro rfl
    exact hcs.unmarked List.mem_cons_self
  obtain @⟨outer, groups, current, t, u, _, numbered, hstanding, hcurrent, hstops, hparens⟩ := h
  have hpush : LeadsTo groups.reverse false (c :: current).reverse (u ++ [c]) := by
    rw [List.reverse_cons]
    exact hcurrent.char hmark fun hn => stops_cons.mp (hstops hn)
  unfold Cutting.step
  split
  · -- An opening parenthesis begins a new level.
    rename_i hopen
    have hlevel := Standing.cons hcurrent.weaken hparens hstanding
    subst hopen
    simpa using Cutting.Spells.intro hlevel .nil (by simp) (by simp)
  · rename_i hopen
    split
    · rename_i hclose
      cases hstanding with
      | nil =>
        show Cutting.Spells ⟨[], c :: current, groups⟩ ([] ++ (u ++ [c])) rest
        exact .intro .nil hpush (by simp) (by simp)
      | @cons below v t outer hbelow hbelowParens hstanding =>
        -- A closing parenthesis ends the level; the level below goes on with a reference.
        let cut : List CodePoint := .char '(' :: (current.reverse ++ [.char ')'])
        have hcut : (groups.reverse ++ [cut])[groups.length]? = some cut := by
          rw [List.getElem?_append_right (by simp)]
          simp
        have hinner : ∀ d ∈ current.reverse, d ≠ '(' ∧ d ≠ ')' :=
          fun d hd => hparens (List.cons_ne_nil _ _) d (List.mem_reverse.mp hd)
        have hreference := (hbelow.mono [cut]).group hcut hinner (hcurrent.expands.mono [cut])
        have hrest : Stops rest := fun d hd => (List.isChain_cons.mp hcs.apart).1 d hd hclose
        have hdigits : (Text.digits groups.length).reverse.map CodePoint.char ++ [groupMark] ++ below =
            (below.reverse ++ groupMark :: (Text.digits groups.length).map .char).reverse := by
          simp
        have hread : t ++ v ++ [CodePoint.char '('] ++ u ++ [c] =
            t ++ (v ++ .char '(' :: (u ++ [.char ')'])) := by
          simp [hclose]
        have hgroups : (cut :: groups).reverse = groups.reverse ++ [cut] := List.reverse_cons
        rw [← hgroups] at hreference
        show Cutting.Spells ⟨outer, _, cut :: groups⟩ _ rest
        rw [hdigits, hread]
        have hlevel : Standing (cut :: groups).reverse outer t := by
          rw [hgroups]
          exact hstanding.mono [cut]
        rw [← List.reverse_reverse (below.reverse ++ _)] at hreference
        refine .intro hlevel hreference (fun _ => hrest) ?_
        intro houter d hd
        rcases List.mem_append.mp (List.mem_reverse.mp hd) with hd | hd
        · exact hbelowParens houter d (List.mem_reverse.mp hd)
        · rcases List.mem_cons.mp hd with rfl | hd
          · decide
          · exact (plain_of_mem_digits hd).2
    · rename_i hclose
      show Cutting.Spells ⟨outer, c :: current, groups⟩ _ rest
      rw [List.append_assoc]
      refine .intro hstanding hpush (by simp) fun houter d hd => ?_
      rcases List.mem_cons.mp hd with rfl | hd
      · exact ⟨hopen, hclose⟩
      · exact hparens houter d hd

/-- Cutting the groups out of a whole text keeps what it stands for. -/
theorem Cutting.Spells.foldl {cs : List CodePoint} (hcs : IsUnambiguous cs) :
    ∀ {s : Cutting} {read : List CodePoint}, s.Spells read cs →
      (cs.foldl Cutting.step s).Spells (read ++ cs) [] := by
  induction cs with
  | nil =>
    intro s read h
    rw [List.append_nil]
    exact h
  | cons c cs ih =>
    intro s read h
    have hrest := ih hcs.tail (h.step hcs)
    rw [List.append_assoc] at hrest
    exact hrest

theorem Cutting.Spells.expands {s : Cutting} {read : List CodePoint} (h : s.Spells read []) :
    Expands s.groups.reverse (Cutting.rest s.outer s.current) read := by
  obtain ⟨hstanding, hcurrent, -, -⟩ := h
  exact hstanding.expands_rest hcurrent.weaken

/-- **Nothing is lost when groups are cut out** of an unambiguous text without quotes. -/
theorem expands_source {cs : List CodePoint} (hquotes : ∀ c ∈ cs, isQuote c = false)
    (hcs : IsUnambiguous cs) : Expands (Linear.ofText cs).groups (Linear.ofText cs).source cs := by
  have hmask : maskFrom 0 (pieces cs) = cs := by
    rw [pieces, piecesFrom_of_no_quote hquotes, maskFrom_plain]
  have hstart : Cutting.Spells ⟨[], [], []⟩ [] cs := .intro .nil .nil (by simp) (by simp)
  have hend := (hstart.foldl hcs).expands
  unfold Linear.ofText
  dsimp only
  rw [hmask]
  exact hend

end RecordFilter.Operand
