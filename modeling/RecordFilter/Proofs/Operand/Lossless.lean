import RecordFilter.Proofs.Operand.InnermostFirst

/-!
# Nothing is lost in the linear form

Masking the quoted parts of an operand text and cutting out its groups can be undone, if the text holds
none of the marks that are put into it. The quoted parts are put back in place of their numbers
(`unmask_maskFrom`). The groups are put back one by one, the last one first (`restoreFrom`): a group
holds only placeholders of groups in front of it, so that the placeholders of the group that comes next
are those it left behind (`Turns.refers`, `Turns.restoreFrom_eq`).

A placeholder is a mark and all the digits that follow it. With a digit behind a closing parenthesis the
number of the group would be another one, so this is excluded; which characters count as digits makes
no difference, as long as the decimal digits that numbers are written with are among them.
-/

namespace RecordFilter.Operand

/-! ### The quoted parts of a text -/

/-- The pieces of a text, from the left: a quote that comes again opens a quoted part, which ends where
it comes again first; every other character is a piece of its own. -/
inductive PiecesOf : List CodePoint → List Piece → Prop
  | nil : PiecesOf [] []
  | plain {c : CodePoint} {cs : List CodePoint} {ps : List Piece} :
    (isQuote c → c ∉ cs) → PiecesOf cs ps → PiecesOf (c :: cs) (.plain c :: ps)
  | quoted {q : CodePoint} {inside cs : List CodePoint} {ps : List Piece} :
    isQuote q → q ∉ inside → PiecesOf cs ps →
      PiecesOf (q :: (inside ++ q :: cs)) (.quoted q inside :: ps)

theorem PiecesOf.pieces_eq {cs : List CodePoint} {ps : List Piece} (h : PiecesOf cs ps) :
    pieces cs = ps := by
  induction h with
  | nil => rfl
  | @plain c cs ps hc _ ih =>
    have hplain : ¬ (isQuote c && cs.contains c) = true := by simpa using hc
    rw [pieces, piecesFrom, if_neg hplain, ← pieces, ih]
  | @quoted q inside cs ps hq hinside _ ih =>
    have hagain : (isQuote q && (inside ++ q :: cs).contains q) = true := by simp [hq]
    rw [pieces, piecesFrom, if_pos hagain, piecesFrom_quoted hinside, ← pieces, ih]
    rfl

theorem piecesOf_pieces (cs : List CodePoint) : PiecesOf cs (pieces cs) := by
  suffices h : ∃ ps, PiecesOf cs ps by
    obtain ⟨ps, hps⟩ := h
    rwa [hps.pieces_eq]
  induction hlength : cs.length using Nat.strong_induction_on generalizing cs with
  | _ n ih =>
    rcases cs with - | ⟨c, cs⟩
    · exact ⟨[], .nil⟩
    by_cases hc : isQuote c ∧ c ∈ cs
    · obtain ⟨hquote, hmem⟩ := hc
      obtain ⟨inside, rest, rfl, hinside⟩ := List.eq_append_cons_of_mem hmem
      obtain ⟨ps, hps⟩ := ih rest.length (by simp [← hlength]; omega) rest rfl
      exact ⟨_, .quoted hquote hinside hps⟩
    · obtain ⟨ps, hps⟩ := ih cs.length (by simp [← hlength]) cs rfl
      exact ⟨_, .plain (fun hquote hmem => hc ⟨hquote, hmem⟩) hps⟩

/-! ### Placeholders -/

/-- A class of decimal digits: those that numbers are written with, and any others of other scripts. -/
structure IsDigitClass (isDigit : CodePoint → Bool) : Prop where
  of_isDigit : ∀ c : Char, c.isDigit → isDigit (.char c)
  isDecimalDigit : ∀ c, isDigit c → Text.isDecimalDigit c.toChar

section

variable (isDigit : CodePoint → Bool)

/-- The numbers of the placeholders in a text: behind each mark, as many digits as there are. -/
def placeholders : List CodePoint → List (List CodePoint)
  | [] => []
  | c :: cs => if c = groupMark then cs.takeWhile isDigit :: placeholders cs else placeholders cs

/-- The text with a group in place of its placeholders. -/
def expand (k : Nat) (group : List CodePoint) : List CodePoint → List CodePoint
  | [] => []
  | c :: cs =>
    if c = groupMark ∧ cs.takeWhile isDigit = (Text.digits k).map .char then
      group ++ expand k group (cs.dropWhile isDigit)
    else c :: expand k group cs
termination_by cs => cs.length
decreasing_by
  · exact Nat.lt_succ_of_le (List.length_dropWhile_le isDigit cs)
  · exact Nat.lt_succ_self _

/-- The text with groups, numbered from `n` on, in place of their placeholders: the last group is put
back first. -/
def restoreFrom : Nat → List (List CodePoint) → List CodePoint → List CodePoint
  | _, [], cs => cs
  | n, group :: groups, cs => expand isDigit n group (restoreFrom (n + 1) groups cs)

/-- All placeholders in the text have numbers below `n`, written in full. -/
def Refers (n : Nat) (cs : List CodePoint) : Prop :=
  ∀ ds ∈ placeholders isDigit cs, ∃ j < n, ds = (Text.digits j).map .char

/-- No digit stands right behind a closing parenthesis. -/
def Apart (cs : List CodePoint) : Prop :=
  cs.IsChain fun a b => a = .char ')' → ¬ isDigit b

/-- The text does not start with a digit. -/
def StartsApart (cs : List CodePoint) : Prop :=
  ∀ c ∈ cs.head?, ¬ isDigit c

end

variable {isDigit : CodePoint → Bool}

namespace IsDigitClass

variable (hclass : IsDigitClass isDigit)
include hclass

theorem startsApart_cons {c : CodePoint} (h : Text.isDecimalDigit c.toChar = false)
    (cs : List CodePoint) : StartsApart isDigit (c :: cs) := by
  rintro _ ⟨⟩ hc
  exact absurd (hclass.isDecimalDigit c hc) (by simp [h])

theorem all_digits (n : Nat) : ∀ c ∈ (Text.digits n).map CodePoint.char, isDigit c := by
  intro c hc
  obtain ⟨d, hd, rfl⟩ := List.mem_map.mp hc
  exact hclass.of_isDigit d (Nat.isDigit_of_mem_toDigits (by decide) (by decide) hd)

end IsDigitClass

theorem takeWhile_append_of_startsApart {y : List CodePoint} (hy : StartsApart isDigit y)
    (x : List CodePoint) :
    (x ++ y).takeWhile isDigit = x.takeWhile isDigit ∧
      (x ++ y).dropWhile isDigit = x.dropWhile isDigit ++ y := by
  induction x with
  | nil =>
    rcases y with - | ⟨c, y⟩
    · exact ⟨rfl, rfl⟩
    · have hc : ¬ isDigit c = true := hy c rfl
      simp [hc]
  | cons c x ih =>
    by_cases hc : isDigit c
    · simp [hc, ih]
    · simp [hc]

theorem digits_inj {j k : Nat} (h : (Text.digits j).map CodePoint.char = (Text.digits k).map .char) :
    j = k := by
  have hdigits := congrArg (List.map CodePoint.toChar) h
  rw [chars_digits, chars_digits] at hdigits
  have hvalue := congrArg Numeral.valueOf hdigits
  rwa [Numeral.valueOf_digits, Numeral.valueOf_digits] at hvalue

theorem placeholders_append {y : List CodePoint} (hy : StartsApart isDigit y) (x : List CodePoint) :
    placeholders isDigit (x ++ y) = placeholders isDigit x ++ placeholders isDigit y := by
  induction x with
  | nil => rfl
  | cons c x ih =>
    rw [List.cons_append, placeholders, placeholders, ih, (takeWhile_append_of_startsApart hy x).1]
    split <;> rfl

theorem placeholders_of_not_mem {x : List CodePoint} (hx : groupMark ∉ x) (y : List CodePoint) :
    placeholders isDigit (x ++ y) = placeholders isDigit y := by
  induction x with
  | nil => rfl
  | cons c x ih =>
    rw [List.mem_cons, not_or] at hx
    rw [List.cons_append, placeholders, if_neg (Ne.symm hx.1), ih hx.2]

theorem expand_append {k : Nat} {group y : List CodePoint} (hy : StartsApart isDigit y)
    (x : List CodePoint) :
    expand isDigit k group (x ++ y) = expand isDigit k group x ++ expand isDigit k group y := by
  fun_induction expand isDigit k group x with
  | case1 => rfl
  | case2 c x hc ih =>
    obtain ⟨htake, hdrop⟩ := takeWhile_append_of_startsApart hy x
    rw [List.cons_append, expand, htake, hdrop, if_pos hc, ih, List.append_assoc]
  | case3 c x hc ih =>
    rw [List.cons_append, expand, (takeWhile_append_of_startsApart hy x).1, if_neg hc, ih]
    rfl

/-- A text without placeholders of a group stays as it is. -/
theorem expand_of_refers {k : Nat} {group cs : List CodePoint} (h : Refers isDigit k cs) :
    expand isDigit k group cs = cs := by
  induction cs with
  | nil => rw [expand]
  | cons c cs ih =>
    rw [Refers, placeholders] at h
    by_cases hc : c = groupMark
    · rw [if_pos hc] at h
      have hother : ¬ cs.takeWhile isDigit = (Text.digits k).map .char := by
        intro heq
        obtain ⟨j, hj, hdigits⟩ := h _ List.mem_cons_self
        exact absurd (digits_inj (heq.symm.trans hdigits)) (Nat.ne_of_gt hj)
      rw [expand, if_neg fun hboth => hother hboth.2, ih fun ds hds => h ds (List.mem_cons_of_mem _ hds)]
    · rw [if_neg hc] at h
      rw [expand, if_neg fun hboth => hc hboth.1, ih h]

section

variable (hclass : IsDigitClass isDigit) {n : Nat} {after : List CodePoint}
include hclass

theorem takeWhile_digits (hafter : StartsApart isDigit after) :
    ((Text.digits n).map CodePoint.char ++ after).takeWhile isDigit =
        (Text.digits n).map CodePoint.char ∧
      ((Text.digits n).map CodePoint.char ++ after).dropWhile isDigit = after := by
  obtain ⟨htake, hdrop⟩ := takeWhile_append_of_startsApart hafter ((Text.digits n).map .char)
  have hall := hclass.all_digits n
  rw [List.takeWhile_eq_self_iff.mpr hall] at htake
  rw [List.dropWhile_eq_nil_iff.mpr hall] at hdrop
  exact ⟨htake, hdrop⟩

theorem placeholders_placeholder (hafter : StartsApart isDigit after) :
    placeholders isDigit (placeholder n ++ after) =
      (Text.digits n).map .char :: placeholders isDigit after := by
  have hdigits : groupMark ∉ (Text.digits n).map CodePoint.char :=
    fun hmem => (groupMark_ne_of_mem_digits hmem).1 rfl
  rw [placeholder, List.cons_append, placeholders, if_pos rfl, (takeWhile_digits hclass hafter).1,
    placeholders_of_not_mem hdigits]

theorem expand_placeholder {group : List CodePoint} (hafter : StartsApart isDigit after) :
    expand isDigit n group (placeholder n ++ after) = group ++ expand isDigit n group after := by
  obtain ⟨htake, hdrop⟩ := takeWhile_digits hclass (n := n) hafter
  rw [placeholder, List.cons_append, expand, htake, hdrop, if_pos ⟨rfl, rfl⟩]

/-! ### The loop -/

variable {cs before g : List CodePoint}

/-- What stands behind a group does not continue a number. -/
theorem IsLeftmost.startsApart (h : IsLeftmost cs before g after) (hcs : Apart isDigit cs) :
    StartsApart isDigit after ∧ StartsApart isDigit (g ++ after) := by
  obtain ⟨w, rfl, -, -⟩ := h.innermost
  refine ⟨fun c hc => ?_, ?_⟩
  · have hlast : CodePoint.char ')' ∈
        (before ++ CodePoint.char '(' :: (w ++ [CodePoint.char ')'])).getLast? := by
      rw [← List.cons_append, ← List.append_assoc]
      exact List.getLast?_concat
    rw [h.eq] at hcs
    exact (List.isChain_append.mp hcs).2.2 _ hlast c hc rfl
  · exact hclass.startsApart_cons (by decide) _

end

/-- **One turn.** The new text refers to the group that was cut out, and otherwise, as this group does,
only to groups before it; and it becomes the old text when the group is put back. -/
theorem IsLeftmost.turn (hclass : IsDigitClass isDigit) {n : Nat} {cs before g after : List CodePoint}
    (h : IsLeftmost cs before g after) (hrefers : Refers isDigit n cs) (hapart : Apart isDigit cs) :
    let next := Text.replaceFirst g (placeholder n) cs
    Refers isDigit n g ∧ Refers isDigit (n + 1) next ∧ Apart isDigit next ∧
      expand isDigit n g next = cs := by
  obtain ⟨hafter, hgroup⟩ := h.startsApart hclass hapart
  have hnext : Text.replaceFirst g (placeholder n) cs = before ++ (placeholder n ++ after) := by
    rw [h.replaceFirst, List.append_assoc]
  have hstart : StartsApart isDigit (placeholder n ++ after) := hclass.startsApart_cons (by decide) _
  have hcs : cs = before ++ (g ++ after) := by rw [h.eq, List.append_assoc]
  have hall : placeholders isDigit cs = placeholders isDigit before ++
      (placeholders isDigit g ++ placeholders isDigit after) := by
    rw [hcs, placeholders_append hgroup, placeholders_append hafter]
  have hbefore : Refers isDigit n before := fun ds hds => hrefers ds (by simp [hall, hds])
  have hbehind : Refers isDigit n after := fun ds hds => hrefers ds (by simp [hall, hds])
  intro next
  refine ⟨fun ds hds => hrefers ds (by simp [hall, hds]), fun ds hds => ?_, ?_, ?_⟩
  · rw [show next = _ from hnext, placeholders_append hstart, placeholders_placeholder hclass hafter,
      List.mem_append, List.mem_cons] at hds
    obtain hds | rfl | hds := hds
    · obtain ⟨j, hj, hdigits⟩ := hbefore ds hds
      exact ⟨j, Nat.lt_succ_of_lt hj, hdigits⟩
    · exact ⟨n, Nat.lt_succ_self n, rfl⟩
    · obtain ⟨j, hj, hdigits⟩ := hbehind ds hds
      exact ⟨j, Nat.lt_succ_of_lt hj, hdigits⟩
  · rw [hcs] at hapart
    have hparts := List.isChain_append.mp hapart
    have hplaceholder : ∀ c ∈ placeholder n, c ≠ .char ')' :=
      fun c hc he => not_mem_placeholder (.inr rfl) n (he ▸ hc)
    rw [show next = _ from hnext]
    refine List.isChain_append.mpr ⟨hparts.1, List.isChain_append.mpr ⟨?_, ?_, ?_⟩, ?_⟩
    · refine List.Pairwise.isChain (List.pairwise_of_forall_mem_list fun a ha b _ he => ?_)
      exact absurd he (hplaceholder a ha)
    · exact (List.isChain_append.mp hparts.2.1).2.1
    · exact fun a ha b _ he => absurd he (hplaceholder a (List.mem_of_getLast? ha))
    · exact fun a _ b hb _ => hstart b hb
  · rw [show next = _ from hnext, expand_append hstart, expand_placeholder hclass hafter,
      expand_of_refers hbefore, expand_of_refers hbehind, ← hcs]

/-- **All turns.** Each group refers to groups before it, and the text is restored from what is left when
the groups are put back, the last one first. -/
theorem Turns.restoreFrom_eq (hclass : IsDigitClass isDigit) {n : Nat} {cs rest : List CodePoint}
    {groups : List (List CodePoint)} (h : Turns n cs groups rest) (hrefers : Refers isDigit n cs)
    (hapart : Apart isDigit cs) :
    (∀ i group, groups[i]? = some group → Refers isDigit (n + i) group) ∧
      restoreFrom isDigit n groups rest = cs := by
  induction h with
  | done => exact ⟨fun i group hi => by simp at hi, rfl⟩
  | @turn n cs before g after rest groups hleftmost _ ih =>
    obtain ⟨hgroup, hnext, hnextApart, hback⟩ := hleftmost.turn hclass hrefers hapart
    obtain ⟨hgroups, hrestore⟩ := ih hnext hnextApart
    refine ⟨fun i group hi => ?_, by rw [restoreFrom, hrestore, hback]⟩
    rcases i with - | i
    · cases hi
      exact hgroup
    · have hlater := hgroups i group hi
      rwa [Nat.add_assoc, Nat.add_comm 1 i] at hlater

theorem Turns.not_isInfix {n : Nat} {cs rest : List CodePoint} {groups : List (List CodePoint)}
    (h : Turns n cs groups rest) : ∀ g, IsInnermost g → ¬ g <:+: rest := by
  induction h with
  | done hnone => exact hnone
  | turn _ _ ih => exact ih

/-! ### Linear forms -/

theorem isDigitClass_isDecimalDigit : IsDigitClass fun c => Text.isDecimalDigit c.toChar where
  of_isDigit c hc := by
    have hvalue := (Numeral.digitValue?_of_isDigit hc).1
    show (Text.digitValue? c).isSome = true
    rw [hvalue]
    rfl
  isDecimalDigit _ hc := hc

theorem groupMark_not_mem_maskFrom {ps : List Piece} (h : groupMark ∉ ps.flatMap Piece.chars)
    (n : Nat) : groupMark ∉ maskFrom n ps := by
  induction ps generalizing n with
  | nil => exact List.not_mem_nil
  | cons p ps ih =>
    rw [List.flatMap_cons, List.mem_append, not_or] at h
    cases p with
    | plain c =>
      rw [maskFrom, List.mem_cons, not_or]
      exact ⟨fun hc => h.1 (by simp [Piece.chars, hc]), ih h.2 n⟩
    | quoted q inside =>
      have hdigits : groupMark ∉ (Text.digits n).map CodePoint.char :=
        fun hmem => (groupMark_ne_of_mem_digits hmem).1 rfl
      have hmark : groupMark ≠ quoteMark := by decide
      simp [maskFrom, ih h.2 (n + 1), hmark, hdigits]

/-- **The linear form of an operand text loses nothing.** The quoted parts are the texts between a quote
and its next occurrence, from the left, and putting them back in place of their numbers undoes the
masking; the text must be shorter than `10 ^ 4300`, as every text in a memory is, since the numbers are
read with the digits of an integer. When no closing parenthesis stands in front of a digit in the masked
text, its groups are cut out until none is left; each of them holds only placeholders of groups in front
of it, and putting all of them back, the last one first, gives the masked text. -/
theorem Linear.ofText_lossless {cs : List CodePoint} (hgroup : groupMark ∉ cs)
    (hquote : quoteMark ∉ cs) :
    let l := Linear.ofText cs
    let masked := maskFrom 0 (pieces cs)
    (∀ ps, PiecesOf cs ps ↔ ps = pieces cs) ∧ l.quoted = quotedParts (pieces cs) ∧
      (cs.length < 10 ^ Numeral.maxIntDigits → unmask l.quoted masked = .ok cs) ∧
      ∀ isDigit, IsDigitClass isDigit → Apart isDigit masked →
        (∀ g, IsInnermost g → ¬ g <:+: l.source) ∧
        (∀ i group, l.groups[i]? = some group → Refers isDigit i group) ∧
        restoreFrom isDigit 0 l.groups l.source = masked := by
  intro l masked
  have hturns : Turns 0 masked l.groups l.source := Linear.ofText_turns cs
  refine ⟨fun ps => ⟨fun h => h.pieces_eq.symm, fun h => h ▸ piecesOf_pieces cs⟩, rfl,
    fun hshort => unmask_maskFrom ⟨hquote, hshort⟩, fun isDigit hclass hapart => ?_⟩
  have hunmarked : groupMark ∉ masked := by
    refine groupMark_not_mem_maskFrom ?_ 0
    rwa [pieces, piecesFrom_chars]
  have hnone : placeholders isDigit masked = [] := by
    have hskip : placeholders isDigit (masked ++ []) = [] := placeholders_of_not_mem hunmarked []
    rwa [List.append_nil] at hskip
  have hrefers : Refers isDigit 0 masked := fun ds hds => by simp [hnone] at hds
  obtain ⟨hgroups, hrestore⟩ := hturns.restoreFrom_eq hclass hrefers hapart
  exact ⟨hturns.not_isInfix, fun i group hi => Nat.zero_add i ▸ hgroups i group hi, hrestore⟩

/-- A quoted parenthesis, and a group that holds two others. -/
theorem Linear.ofText_lossless_of_nested :
    let cs := (Text.ofString "concat(trim(x), concat('(', y))").points
    let isDigit := fun c : CodePoint => Text.isDecimalDigit c.toChar
    groupMark ∉ cs ∧ quoteMark ∉ cs ∧ Apart isDigit (maskFrom 0 (pieces cs)) ∧
      (Linear.ofText cs).groups.length = 3 ∧
      unmask (Linear.ofText cs).quoted (maskFrom 0 (pieces cs)) = .ok cs ∧
      restoreFrom isDigit 0 (Linear.ofText cs).groups (Linear.ofText cs).source =
        maskFrom 0 (pieces cs) := by
  intro cs isDigit
  have hgroup : groupMark ∉ cs := by decide
  have hquote : quoteMark ∉ cs := by decide
  have hapart : Apart isDigit (maskFrom 0 (pieces cs)) := by
    unfold Apart
    decide
  obtain ⟨-, -, hunmask, hgroups⟩ := Linear.ofText_lossless hgroup hquote
  have hshort : cs.length < 10 ^ Numeral.maxIntDigits :=
    Nat.lt_of_lt_of_le (show cs.length < 10 ^ 2 by decide) (Nat.pow_le_pow_right (by decide) (by decide))
  exact ⟨hgroup, hquote, hapart, by decide, hunmask hshort,
    (hgroups isDigit isDigitClass_isDecimalDigit hapart).2.2⟩

end RecordFilter.Operand
