import RecordFilter.Proofs.Function.Texts
import RecordFilter.Proofs.Operand.Faults

/-!
# The innermost group first

Groups are cut out of a text in one pass that keeps the open parentheses on a stack. This does the same
as a loop that, as long as it finds a group without parentheses inside, takes the leftmost one and puts
its placeholder where its text first occurs: `Turns` is that loop, and `Cutting.turns_foldl` says that
the pass performs it.

The pass has read a text in which no parenthesis that was opened is closed again (`Unclosed`), so
the next closing parenthesis is the end of the leftmost group.
-/

namespace RecordFilter.Operand

/-! ### The loop -/

/-- The text is a group that holds no other group. -/
def IsInnermost (g : List CodePoint) : Prop :=
  ∃ w, g = .char '(' :: (w ++ [.char ')']) ∧ .char '(' ∉ w ∧ .char ')' ∉ w

/-- The text of a placeholder. -/
def placeholder (n : Nat) : List CodePoint :=
  groupMark :: (Text.digits n).map .char

/-- A group in a text that starts before all others. -/
structure IsLeftmost (cs before g after : List CodePoint) : Prop where
  eq : cs = before ++ g ++ after
  innermost : IsInnermost g
  first : ∀ before' g' after', IsInnermost g' → cs = before' ++ g' ++ after' →
    before.length ≤ before'.length

/-- Groups are replaced by placeholders with numbers from `n` on until none is left. Each turn takes the
leftmost group and replaces the first occurrence of its text. -/
inductive Turns : Nat → List CodePoint → List (List CodePoint) → List CodePoint → Prop
  | done {n : Nat} {cs : List CodePoint} : (∀ g, IsInnermost g → ¬ g <:+: cs) → Turns n cs [] cs
  | turn {n : Nat} {cs before g after rest : List CodePoint} {groups : List (List CodePoint)} :
    IsLeftmost cs before g after → Turns (n + 1) (Text.replaceFirst g (placeholder n) cs) groups rest →
      Turns n cs (g :: groups) rest

/-- The first occurrence of the text of the leftmost group is that group. -/
theorem IsLeftmost.replaceFirst {cs before g after : List CodePoint} (h : IsLeftmost cs before g after)
    (new : List CodePoint) : Text.replaceFirst g new cs = before ++ new ++ after := by
  have hprefix : g <+: cs.drop before.length := by
    rw [h.eq, List.append_assoc, List.drop_left]
    exact List.prefix_append g after
  rcases hindex : Text.indexOf? g cs with - | i
  · exact absurd ⟨before, after, h.eq.symm⟩ (Text.indexOf?_eq_none hindex)
  obtain ⟨hle, ⟨after', hi⟩, hfirst⟩ := Text.indexOf?_eq_some hindex
  have hcs : cs = cs.take i ++ g ++ after' := by
    rw [List.append_assoc, hi, List.take_append_drop]
  have hge := h.first _ _ _ h.innermost hcs
  have hlength : i = before.length := by
    refine Nat.le_antisymm (Nat.le_of_not_lt fun hlt => hfirst _ hlt hprefix) ?_
    rwa [List.length_take_of_le hle] at hge
  rw [Text.replaceFirst, hindex, hlength, h.eq]
  simp

/-! ### Parentheses that stay open -/

/-- No closing parenthesis stands behind an opening one. -/
def Unclosed (cs : List CodePoint) : Prop :=
  cs.Pairwise fun a b => a = .char '(' → b ≠ .char ')'

namespace Unclosed

variable {x y : List CodePoint}

theorem of_not_mem_open (h : .char '(' ∉ x) : Unclosed x :=
  List.pairwise_of_forall_mem_list fun _ ha _ _ ho => absurd (ho ▸ ha) h

theorem of_not_mem_close (h : .char ')' ∉ x) : Unclosed x :=
  List.pairwise_of_forall_mem_list fun _ _ _ hb _ hc => h (hc ▸ hb)

theorem append (hx : Unclosed x) (hy : .char ')' ∉ y) : Unclosed (x ++ y) :=
  List.pairwise_append.mpr ⟨hx, of_not_mem_close hy, fun _ _ _ hb _ hc => hy (hc ▸ hb)⟩

theorem left (h : Unclosed (x ++ y)) : Unclosed x :=
  (List.pairwise_append.mp h).1

/-- Nothing is closed behind an opening parenthesis. -/
theorem not_mem_close (h : Unclosed (x ++ .char '(' :: y)) : .char ')' ∉ y := fun hmem =>
  (List.pairwise_cons.mp (List.pairwise_append.mp h).2.1).1 _ hmem rfl rfl

/-- A text in which nothing is closed holds no group. -/
theorem not_isInfix (h : Unclosed x) {g : List CodePoint} (hg : IsInnermost g) : ¬ g <:+: x := by
  rintro ⟨before, after, rfl⟩
  obtain ⟨w, rfl, -, -⟩ := hg
  rw [List.append_assoc] at h
  exact h.not_mem_close (by simp)

/-- Behind a text in which nothing is closed, the next group is the leftmost one. -/
theorem isLeftmost (hx : Unclosed x) {g : List CodePoint} (hg : IsInnermost g) (after : List CodePoint) :
    IsLeftmost (x ++ g ++ after) x g after where
  eq := rfl
  innermost := hg
  first before' g' after' hg' heq := by
    obtain ⟨w, rfl, hopen, hclose⟩ := hg
    obtain ⟨w', rfl, hopen', hclose'⟩ := hg'
    by_contra hlt
    -- The other group starts inside `x`, where its parenthesis stays open.
    rw [List.append_assoc, List.append_assoc, List.append_eq_append_iff] at heq
    obtain ⟨r, rfl, -⟩ | ⟨r, rfl, hr⟩ := heq
    · exact hlt (by simp)
    rcases r with - | ⟨c, r⟩
    · exact hlt (by simp)
    obtain ⟨rfl, hr⟩ := List.cons.inj hr
    have hr : w' ++ CodePoint.char ')' :: after' = r ++ .char '(' :: (w ++ .char ')' :: after) := by
      simpa using hr
    obtain ⟨z, rfl, hz⟩ | ⟨z, rfl, hz⟩ := List.append_eq_append_iff.mp hr
    · -- Its end would have to be in `x`, or be an opening parenthesis.
      rcases z with - | ⟨d, z⟩
      · exact absurd (List.cons.inj hz).1 (by decide)
      · obtain ⟨rfl, -⟩ := List.cons.inj hz
        exact hx.not_mem_close (by simp)
    · rcases z with - | ⟨d, z⟩
      · exact absurd (List.cons.inj hz).1 (by decide)
      · obtain ⟨rfl, -⟩ := List.cons.inj hz
        exact hopen' (by simp)

end Unclosed

/-! ### The pass -/

theorem not_mem_placeholder {c : CodePoint} (hc : c = .char '(' ∨ c = .char ')') (n : Nat) :
    c ∉ placeholder n := by
  intro hmem
  obtain rfl | hmem := List.mem_cons.mp hmem
  · exact absurd hc (by decide)
  · obtain ⟨d, hd, rfl⟩ := List.mem_map.mp hmem
    have hdigit : d.isDigit := Nat.isDigit_of_mem_toDigits (by decide) (by decide) hd
    obtain hc | hc := hc <;>
    · cases hc
      exact absurd hdigit (by decide)

namespace Cutting

/-- The text that has been read, with placeholders for the groups that were cut out. -/
def front (s : Cutting) : List CodePoint :=
  rest s.outer s.current

theorem rest_append (outer : List (List CodePoint)) (x current : List CodePoint) :
    rest outer (x ++ current) = rest outer current ++ x.reverse := by
  induction x with
  | nil => simp
  | cons c x ih =>
    rw [List.cons_append, rest_cons, ih, List.reverse_cons, List.append_assoc]

theorem rest_open (below : List CodePoint) (outer : List (List CodePoint)) (current : List CodePoint) :
    rest (below :: outer) current = rest outer below ++ .char '(' :: current.reverse := by
  rw [rest, List.append_assoc, rest_append, List.singleton_append, rest_cons, List.append_assoc]
  rfl

/-- The state after the innermost open group was closed, of which `below` is in front. -/
def cut (below : List CodePoint) (outer : List (List CodePoint)) (s : Cutting) : Cutting :=
  { outer
    current := (placeholder s.groups.length).reverse ++ below
    groups := (.char '(' :: (s.current.reverse ++ [.char ')'])) :: s.groups }

/-- A character is added to what has been read, or it closes the innermost open group. -/
theorem step_cases (s : Cutting) (c : CodePoint) :
    ((s.step c).front = s.front ++ [c] ∧ (s.step c).groups = s.groups ∧
        (c = .char ')' → s.outer = []) ∧
        (∀ x ∈ (s.step c).current :: (s.step c).outer, .char '(' ∈ x →
          ∃ y ∈ s.current :: s.outer, .char '(' ∈ y)) ∨
      ∃ below outer, c = .char ')' ∧ s.outer = below :: outer ∧ s.step c = s.cut below outer := by
  unfold step
  split
  · rename_i hc
    subst hc
    refine .inl ⟨rest_open s.current s.outer [], rfl, fun h => absurd h (by decide), fun x hx hmem => ?_⟩
    obtain rfl | hx := List.mem_cons.mp hx
    · cases hmem
    · exact ⟨x, hx, hmem⟩
  · rename_i hopen
    have hpush : ∀ x ∈ (c :: s.current) :: s.outer, .char '(' ∈ x →
        ∃ y ∈ s.current :: s.outer, .char '(' ∈ y := by
      intro x hx hmem
      obtain rfl | hx := List.mem_cons.mp hx
      · obtain hc | hmem := List.mem_cons.mp hmem
        · exact absurd hc.symm hopen
        · exact ⟨_, List.mem_cons_self, hmem⟩
      · exact ⟨x, List.mem_cons_of_mem _ hx, hmem⟩
    split
    · rename_i hc
      split
      · rename_i houter
        exact .inl ⟨rest_cons _ _ _, rfl, fun _ => houter, hpush⟩
      · rename_i below outer houter
        refine .inr ⟨below, outer, hc, houter, ?_⟩
        simp [cut, placeholder]
    · rename_i hclose
      exact .inl ⟨rest_cons _ _ _, rfl, fun h => absurd h hclose, hpush⟩

/-- **What is kept while groups are cut out.** The text that has been read holds no parenthesis that was
opened and closed; the stack has the open ones, one for each level. -/
structure IsOpen (s : Cutting) : Prop where
  levels : ∀ x ∈ s.current :: s.outer, .char '(' ∉ x
  unclosed : Unclosed s.front

theorem IsOpen.cut {s : Cutting} (h : s.IsOpen) {below : List CodePoint}
    {outer : List (List CodePoint)} (houter : s.outer = below :: outer) :
    (s.cut below outer).IsOpen ∧
      (s.cut below outer).front = rest outer below ++ placeholder s.groups.length ∧
      s.front = rest outer below ++ .char '(' :: s.current.reverse := by
  have hfront : (s.cut below outer).front = rest outer below ++ placeholder s.groups.length := by
    rw [front, Cutting.cut, rest_append, List.reverse_reverse]
  have hbefore : s.front = rest outer below ++ .char '(' :: s.current.reverse := by
    rw [front, houter, rest_open]
  have hunclosed := h.unclosed
  rw [hbefore] at hunclosed
  refine ⟨⟨fun x hx => ?_, ?_⟩, hfront, hbefore⟩
  · obtain rfl | hx := List.mem_cons.mp hx
    · rw [Cutting.cut, List.mem_append, List.mem_reverse, not_or]
      exact ⟨not_mem_placeholder (.inl rfl) _, h.levels below (by simp [houter])⟩
    · exact h.levels x (by rw [houter]; exact List.mem_cons_of_mem _ (List.mem_cons_of_mem _ hx))
  · rw [hfront]
    exact hunclosed.left.append (not_mem_placeholder (.inr rfl) _)

/-- **One pass performs the loop.** Reading on from a state makes the turns that are left for the text
that was read, together with the one that was not. -/
theorem turns_foldl (cs : List CodePoint) {s : Cutting} (h : s.IsOpen) :
    ∃ groups, (cs.foldl step s).groups.reverse = s.groups.reverse ++ groups ∧
      Turns s.groups.length (s.front ++ cs) groups (cs.foldl step s).front := by
  induction cs generalizing s with
  | nil =>
    rw [List.foldl_nil, List.append_nil]
    exact ⟨[], (List.append_nil _).symm, .done fun _ => h.unclosed.not_isInfix⟩
  | cons c cs ih =>
    rw [List.foldl_cons]
    obtain ⟨hfront, hgroups, hclose, hlevels⟩ | ⟨below, outer, rfl, houter, hstep⟩ := s.step_cases c
    · have hopen : (s.step c).IsOpen := by
        refine ⟨fun x hx hmem => ?_, ?_⟩
        · obtain ⟨y, hy, hmem⟩ := hlevels x hx hmem
          exact h.levels y hy hmem
        · rw [hfront]
          by_cases hc : c = .char ')'
          · -- Outside of all groups there is no opening parenthesis.
            have hcurrent : s.front = s.current.reverse := by rw [front, hclose hc, rest]
            have hnone := h.levels _ List.mem_cons_self
            exact .of_not_mem_open (by simp [hcurrent, hnone, hc])
          · exact h.unclosed.append (by simpa using Ne.symm hc)
      obtain ⟨groups, hall, hturns⟩ := ih hopen
      rw [hgroups, hfront, List.append_assoc] at hturns
      exact ⟨groups, by rw [hall, hgroups], hturns⟩
    · obtain ⟨hopen, hfront, hbefore⟩ := h.cut houter
      obtain ⟨groups, hall, hturns⟩ := ih hopen
      have hunclosed := h.unclosed
      rw [hbefore] at hunclosed
      have hinnermost : IsInnermost (.char '(' :: (s.current.reverse ++ [.char ')'])) :=
        ⟨_, rfl, by simpa using h.levels _ List.mem_cons_self, hunclosed.not_mem_close⟩
      have hleftmost := hunclosed.left.isLeftmost hinnermost cs
      have htext : rest outer below ++ (.char '(' :: (s.current.reverse ++ [.char ')'])) ++ cs =
          s.front ++ .char ')' :: cs := by
        rw [hbefore]
        simp
      rw [htext] at hleftmost
      rw [hfront, ← hleftmost.replaceFirst] at hturns
      rw [hstep]
      exact ⟨_ :: groups, by rw [hall, Cutting.cut, List.reverse_cons, List.append_assoc]; rfl,
        .turn hleftmost hturns⟩

end Cutting

/-- **How the groups of an operand text are found.** The linear form is what the loop leaves of the
masked text, with the groups in the order of the turns. -/
theorem Linear.ofText_turns (cs : List CodePoint) :
    Turns 0 (maskFrom 0 (pieces cs)) (Linear.ofText cs).groups (Linear.ofText cs).source := by
  have hstart : Cutting.IsOpen ⟨[], [], []⟩ := ⟨by simp, List.Pairwise.nil⟩
  obtain ⟨groups, hgroups, hturns⟩ := Cutting.turns_foldl (maskFrom 0 (pieces cs)) hstart
  rw [Linear.ofText]
  rw [List.reverse_nil, List.nil_append] at hgroups
  rw [hgroups]
  exact hturns

end RecordFilter.Operand
