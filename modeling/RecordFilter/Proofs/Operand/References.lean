import Mathlib.Data.List.Chain
import RecordFilter.Proofs.Number.Numeral
import RecordFilter.Proofs.Operand.Ending

/-!
# References between groups

A group is cut out of an operand text before the groups around it, so a text refers to groups with
smaller numbers only, as long as the number of a group is read back from the text as it was written.
This is so when the text holds no mark of a group itself and no closing parenthesis stands right in
front of a digit or an underscore (`IsUnambiguous`). Then every chain of calls goes down through the
numbers of the groups (`Linear.ofText_descends`) and ends (`Linear.Descends.ends`).

In `toupper(toupper(x)1)` the digit after the parenthesis is read together with the number of the
group in front of it. `toupper¿0` becomes `toupper¿01`, which the group number 1 consists of, and
reading the text does not end.
-/

namespace RecordFilter.Operand

/-! ### Texts with references -/

/-- The character can neither continue a number nor separate its digits. -/
def endsNumber (c : CodePoint) : Bool :=
  !Text.isDecimalDigit c.toChar && c != '_'

/-- Nothing at the start of the text can continue a number in front of it. -/
def Stops (cs : List CodePoint) : Prop :=
  ∀ c ∈ cs.head?, endsNumber c

/-- Every mark of a group in the text is followed by a number below `k`, written in full, and by
nothing that continues it. -/
inductive RefersBelow (k : Nat) : List CodePoint → Prop
  | nil : RefersBelow k []
  | char {c : CodePoint} {cs : List CodePoint} : c ≠ groupMark → RefersBelow k cs →
      RefersBelow k (c :: cs)
  | reference {j : Nat} {cs : List CodePoint} : j < k → Stops cs → RefersBelow k cs →
      RefersBelow k (groupMark :: ((Text.digits j).map .char ++ cs))

theorem stops_nil : Stops [] := by
  rintro c ⟨⟩

theorem stops_cons {c : CodePoint} {cs : List CodePoint} : Stops (c :: cs) ↔ endsNumber c := by
  simp [Stops]

theorem Stops.append {x y : List CodePoint} (hx : Stops x) (hy : Stops y) : Stops (x ++ y) := by
  cases x with
  | nil => exact hy
  | cons c x => exact stops_cons.mpr (stops_cons.mp hx)

theorem Stops.of_append {x y : List CodePoint} (h : Stops (x ++ y)) : Stops x := by
  intro c hc
  apply h c
  rw [List.head?_append, Option.mem_def.mp hc]
  rfl

theorem endsNumber_groupMark : endsNumber groupMark := by
  decide

theorem groupMark_ne_of_mem_digits {n : Nat} {c : CodePoint}
    (h : c ∈ (Text.digits n).map CodePoint.char) : c ≠ groupMark ∧ c ≠ quoteMark ∧ c ≠ ')' := by
  obtain ⟨d, hd, rfl⟩ := List.mem_map.mp h
  have hdigit : d.isDigit := Nat.isDigit_of_mem_toDigits (by decide) (by decide) hd
  refine ⟨?_, ?_, ?_⟩ <;>
  · intro e
    cases e
    exact absurd hdigit (by decide)

namespace RefersBelow

variable {j k : Nat} {x y cs : List CodePoint}

theorem mono (h : RefersBelow j cs) (hle : j ≤ k) : RefersBelow k cs := by
  induction h with
  | nil => exact .nil
  | char hc _ ih => exact .char hc ih
  | reference hi hstops _ ih => exact .reference (Nat.lt_of_lt_of_le hi hle) hstops ih

theorem append_of_unmarked (hx : groupMark ∉ x) (hy : RefersBelow k y) : RefersBelow k (x ++ y) := by
  induction x with
  | nil => exact hy
  | cons c x ih =>
    rw [List.mem_cons, not_or] at hx
    exact .char (Ne.symm hx.1) (ih hx.2)

theorem of_unmarked (hx : groupMark ∉ x) : RefersBelow k x := by
  simpa using append_of_unmarked hx (.nil (k := k))

theorem append (hx : RefersBelow k x) (hy : RefersBelow k y) (hstops : Stops y) :
    RefersBelow k (x ++ y) := by
  induction hx with
  | nil => exact hy
  | char hc _ ih => exact .char hc ih
  | reference hj hcs _ ih =>
    rw [List.cons_append, List.append_assoc]
    exact .reference hj (hcs.append hstops) ih

/-- What follows a mark. -/
theorem after_mark {a s : List CodePoint} (h : RefersBelow k (a ++ groupMark :: s)) :
    ∃ j < k, ∃ t, s = (Text.digits j).map .char ++ t ∧ Stops t := by
  generalize hcs : a ++ groupMark :: s = cs at h
  induction h generalizing a with
  | nil => simp at hcs
  | char hc _ ih =>
    cases a with
    | nil => exact absurd (List.cons.inj hcs).1.symm hc
    | cons d a => exact ih (List.cons.inj hcs).2
  | @reference j cs hj hstops _ ih =>
    cases a with
    | nil => exact ⟨j, hj, cs, (List.cons.inj hcs).2, hstops⟩
    | cons d a =>
      have htail := (List.cons.inj hcs).2
      rcases List.append_eq_append_iff.mp htail with ⟨b, hb, hs⟩ | ⟨b, rfl, hs⟩
      · cases b with
        | nil => exact ih (a := []) hs
        | cons e b =>
          obtain ⟨rfl, -⟩ := List.cons.inj hs
          exact absurd rfl (groupMark_ne_of_mem_digits (n := j) (by simp [hb])).1
      · exact ih hs.symm

end RefersBelow

/-! ### Reading the number of a reference -/

theorem exists_of_split {mark : CodePoint} {cs p : List CodePoint} {ps : List (List CodePoint)}
    (h : Text.split mark cs = p :: ps) : ∃ rest, cs = p ++ rest ∧ (ps ≠ [] → rest.head? = some mark ∧
      Text.split mark rest.tail = ps) := by
  induction cs generalizing p with
  | nil =>
    obtain ⟨rfl, rfl⟩ := List.cons.inj h
    exact ⟨[], rfl, fun hne => (hne rfl).elim⟩
  | cons c cs ih =>
    unfold Text.split at h
    split at h
    · rename_i hc
      obtain ⟨rfl, rfl⟩ := List.cons.inj h
      exact ⟨c :: cs, rfl, fun _ => ⟨congrArg some hc, rfl⟩⟩
    · rcases e : Text.split mark cs with - | ⟨piece, pieces⟩
      · exact absurd e (Text.split_ne_nil _ _)
      · rw [e] at h
        obtain ⟨rfl, rfl⟩ := List.cons.inj h
        obtain ⟨rest, hrest, hmore⟩ := ih e
        exact ⟨rest, congrArg (c :: ·) hrest, hmore⟩

theorem chars_digits (j : Nat) :
    ((Text.digits j).map CodePoint.char).map CodePoint.toChar = Text.digits j := by
  rw [List.map_map]
  exact List.map_id _

/-- A number that was written in full and is read together with what follows it is read as it is, and
what follows it is blank. -/
theorem int?_digits_append {j : Nat} {b : List CodePoint} {n : Int} (hb : Stops b)
    (hn : Numeral.int? (((Text.digits j).map CodePoint.char ++ b).map CodePoint.toChar) = some n) :
    n = j ∧ ∀ c ∈ b, Text.isBlank c = true := by
  rw [List.map_append, chars_digits] at hn
  have hstops : Numeral.Stops (b.map CodePoint.toChar) := by
    intro c hc
    cases b with
    | nil => cases hc
    | cons d b =>
      cases hc
      have hd : endsNumber d := stops_cons.mp hb
      simp only [endsNumber, Bool.and_eq_true, Bool.not_eq_true', bne_iff_ne] at hd
      refine ⟨hd.1, fun e => hd.2 ?_⟩
      rcases d with d | s
      · exact congrArg CodePoint.char e
      · exact absurd (show '\ufffd' = '_' from e) (by decide)
  have hdigits : ∀ c ∈ Text.digits j, c.isDigit := fun c hc =>
    Nat.isDigit_of_mem_toDigits (by decide) (by decide) hc
  obtain ⟨hvalue, hblank⟩ :=
    Numeral.int?_append hdigits hstops (fun e => absurd e Nat.toDigits_ne_nil) hn
  rw [Numeral.valueOf_digits] at hvalue
  refine ⟨hvalue, fun c hc => ?_⟩
  have hchar := hblank c.toChar (List.mem_map_of_mem hc)
  rcases c with c | s
  · exact hchar
  · exact absurd (show Text.isBlank (CodePoint.char '\ufffd') = true from hchar) (by decide)

/-- A number that is read after a mark is the one that was written there, or the start of it. -/
theorem int?_le {j : Nat} {index t rest : List CodePoint} {n : Int}
    (h : index ++ rest = (Text.digits j).map .char ++ t) (ht : Stops t)
    (hn : Numeral.int? (index.map CodePoint.toChar) = some n) : 0 ≤ n ∧ n ≤ j := by
  rcases List.append_eq_append_iff.mp h with ⟨b, hb, -⟩ | ⟨b, rfl, hb⟩
  · -- The number ends in the middle of the digits.
    have hsplit : Text.digits j = index.map CodePoint.toChar ++ b.map CodePoint.toChar := by
      rw [← chars_digits, hb, List.map_append]
    have hvalue : n = Numeral.valueOf (index.map CodePoint.toChar) := by
      refine (Numeral.int?_append (t := []) (fun c hc => ?_) ?_ (fun _ => rfl) (by simpa using hn)).1
      · refine Nat.isDigit_of_mem_toDigits (b := 10) (n := j) (by decide) (by decide) ?_
        show c ∈ Text.digits j
        rw [hsplit]
        exact List.mem_append_left _ hc
      · rintro c ⟨⟩
    have hle := Numeral.valueOf_le_append (index.map CodePoint.toChar) (b.map CodePoint.toChar)
    rw [← hsplit, Numeral.valueOf_digits] at hle
    omega
  · have hstops : Stops (b ++ rest) := hb ▸ ht
    have hvalue := (int?_digits_append hstops.of_append hn).1
    omega

/-- A part of a text with references below `k` refers to a group below `k`. -/
theorem RefersBelow.reference?_lt {l : Linear} {k i : Nat} {u arg : List CodePoint}
    (h : RefersBelow k u) (hpart : arg <:+: u) (href : l.reference? arg = some i) : i < k := by
  unfold Linear.reference? at href
  split at href
  · rename_i name index more e
    obtain ⟨n, hn, hposition⟩ := Option.bind_eq_some_iff.mp href
    obtain ⟨rest, rfl, hrest⟩ := exists_of_split e
    obtain ⟨hhead, hindex⟩ := hrest (by simp)
    obtain ⟨rest', hrest', -⟩ := exists_of_split hindex
    obtain ⟨before, after, rfl⟩ := hpart
    have hshape : before ++ (name ++ rest) ++ after =
        (before ++ name) ++ groupMark :: (index ++ (rest' ++ after)) := by
      rw [show rest = groupMark :: (index ++ rest') by
        rw [← hrest', List.cons_head?_tail (by simpa using hhead)]]
      simp
    rw [hshape] at h
    obtain ⟨j, hj, t, hdigits, hstops⟩ := h.after_mark
    obtain ⟨hnonneg, hle⟩ := int?_le hdigits hstops hn
    rw [Linear.position?, if_neg (by omega)] at hposition
    cases hposition
    omega
  · cases href

/-! ### Arguments -/

theorem dropBothEnds_isInfix {α : Type} (p : α → Bool) (cs : List α) : Text.dropBothEnds p cs <:+: cs := by
  have hback : Text.dropBothEnds p cs <+: cs.dropWhile p := by
    simpa [Text.dropBothEnds] using
      List.reverse_prefix.mpr (List.dropWhile_suffix p (l := (cs.dropWhile p).reverse))
  exact hback.isInfix.trans (List.dropWhile_suffix p).isInfix

/-- What has been read of an argument. -/
def Splitting.read : Splitting → List CodePoint
  | .between => []
  | .plain read => read.reverse
  | .quoted _ read => read.reverse

theorem infix_of_mem_splitFrom {quote : CodePoint} {s : Splitting} {cs arg : List CodePoint}
    (h : arg ∈ splitFrom quote s cs) : arg <:+: s.read ++ cs := by
  have hlater : ∀ {read cs : List CodePoint} {c : CodePoint}, arg <:+: Splitting.between.read ++ cs →
      arg <:+: read ++ c :: cs := by
    intro read cs c h
    exact h.trans ((List.suffix_cons c cs).trans (List.suffix_append read _)).isInfix
  fun_induction splitFrom quote s cs with
  | case1 => cases h
  | case2 read | case3 opened read =>
    rw [List.mem_singleton.mp h]
    simp [Splitting.read]
  | case4 c cs hquoted ih => simpa [Splitting.read] using ih h
  | case5 cs hquoted ih => exact hlater (ih h)
  | case6 c cs hquoted hc ih => simpa [Splitting.read] using ih h
  | case7 read cs ih =>
    rcases List.mem_cons.mp h with rfl | h
    · exact (List.prefix_append _ _).isInfix
    · exact hlater (ih h)
  | case8 read c cs hc ih => simpa [Splitting.read] using ih h
  | case9 read cs ih =>
    rcases List.mem_cons.mp h with rfl | h
    · simpa [Splitting.read] using (List.prefix_append (read.reverse ++ [quote]) cs).isInfix
    · exact hlater (ih h)
  | case10 read opened cs ho ih => simpa [Splitting.read] using ih h
  | case11 opened read c cs hc ih => simpa [Splitting.read] using ih h

theorem infix_of_mem_arguments {u arg : List CodePoint}
    (h : arg ∈ arguments ((Text.trimPoints u).drop 1).dropLast) : arg <:+: u := by
  have hinside : arg <:+: ((Text.trimPoints u).drop 1).dropLast := infix_of_mem_splitFrom h
  exact hinside.trans ((List.dropLast_prefix _).isInfix.trans
    ((List.drop_suffix 1 _).isInfix.trans (dropBothEnds_isInfix _ u)))

/-! ### Putting quoted parts back -/

theorem endsNumber_of_isQuote {c : CodePoint} (h : isQuote c) : endsNumber c := by
  simp only [isQuote, Bool.or_eq_true, beq_iff_eq] at h
  rcases h with rfl | rfl <;> decide

/-- The text is a quoted part without marks. -/
def IsQuotation (part : List CodePoint) : Prop :=
  groupMark ∉ part ∧ ∃ q rest, part = q :: rest ∧ isQuote q

theorem unmaskFrom_append {quoted : List (List CodePoint)} {x cs : List CodePoint}
    (h : ∀ c ∈ x, c ≠ quoteMark) :
    unmaskFrom quoted none (x ++ cs) = (unmaskFrom quoted none cs).map (x ++ ·) := by
  induction x with
  | nil =>
    rw [List.nil_append]
    rcases unmaskFrom quoted none cs with f | u <;> rfl
  | cons c x ih =>
    rw [List.cons_append, unmaskFrom, if_neg (h c List.mem_cons_self),
      ih fun d hd => h d (List.mem_cons_of_mem _ hd)]
    rcases unmaskFrom quoted none cs with f | u <;> rfl

theorem mem_of_quotedPart {quoted : List (List CodePoint)} {ds part : List CodePoint}
    (h : quotedPart quoted ds = .ok part) : part ∈ quoted := by
  obtain ⟨n, -, h⟩ := bind_eq_ok_iff.mp h
  split at h
  · rename_i e
    cases h
    exact List.mem_of_getElem? e
  · cases h

/-- What was read since a quote mark is put out as it was. -/
theorem RefersBelow.quoteMark_append {k : Nat} {ds u : List CodePoint} (hds : groupMark ∉ ds)
    (hu : RefersBelow k u) : RefersBelow k (quoteMark :: (ds.reverse ++ u)) :=
  .char (by decide) (.append_of_unmarked (by simpa using hds) hu)

/-- Putting quoted parts back in their places leaves references what they are. -/
theorem RefersBelow.unmaskFrom {k : Nat} {quoted : List (List CodePoint)}
    (hquoted : ∀ part ∈ quoted, IsQuotation part) {cs : List CodePoint} (h : RefersBelow k cs) :
    ∀ {open? : Option (List CodePoint)} {u : List CodePoint},
      (∀ ds, open? = some ds → groupMark ∉ ds) → Operand.unmaskFrom quoted open? cs = .ok u →
        RefersBelow k u ∧ ((open? = none → Stops cs) → Stops u) := by
  have hquote : endsNumber quoteMark := by decide
  -- By induction on the text; the cases are whether the number of a quoted part is being read.
  induction h with
  | nil =>
    rintro (- | ds) u hopen hu <;> cases hu
    · exact ⟨.nil, fun _ => stops_nil⟩
    · exact ⟨by simpa using quoteMark_append (hopen ds rfl) .nil, fun _ => stops_cons.mpr hquote⟩
  | @char c cs hc _ ih =>
    rintro (- | ds) u hopen hu
    · rw [Operand.unmaskFrom] at hu
      split at hu
      · obtain ⟨hbelow, hstops⟩ := ih (by rintro ds ⟨⟩; simp) hu
        exact ⟨hbelow, fun _ => hstops (by simp)⟩
      · obtain ⟨u', hu', hu⟩ := bind_eq_ok_iff.mp hu
        cases hu
        exact ⟨.char hc (ih (by simp) hu').1, fun h => stops_cons.mpr (stops_cons.mp (h rfl))⟩
    · have hds := hopen ds rfl
      rw [Operand.unmaskFrom] at hu
      split at hu
      · have hmore : ∀ ds', some (c :: ds) = some ds' → groupMark ∉ ds' := by
          rintro _ ⟨⟩
          rw [List.mem_cons, not_or]
          exact ⟨Ne.symm hc, hds⟩
        obtain ⟨hbelow, hstops⟩ := ih hmore hu
        exact ⟨hbelow, fun _ => hstops (by simp)⟩
      · split at hu
        · split at hu
          · obtain ⟨u', hu', hu⟩ := bind_eq_ok_iff.mp hu
            cases hu
            exact ⟨.char (by decide) (ih (by rintro ds ⟨⟩; simp) hu').1,
              fun _ => stops_cons.mpr hquote⟩
          · obtain ⟨part, hpart, hu⟩ := bind_eq_ok_iff.mp hu
            obtain ⟨u', hu', hu⟩ := bind_eq_ok_iff.mp hu
            cases hu
            obtain ⟨hunmarked, q, rest, rfl, hq⟩ := hquoted part (mem_of_quotedPart hpart)
            exact ⟨.append_of_unmarked hunmarked (ih (by simp) hu').1,
              fun _ => stops_cons.mpr (endsNumber_of_isQuote hq)⟩
        · obtain ⟨u', hu', hu⟩ := bind_eq_ok_iff.mp hu
          cases hu
          have hbelow := quoteMark_append hds (.char hc (ih (by simp) hu').1)
          exact ⟨by simpa using hbelow, fun _ => stops_cons.mpr hquote⟩
  | @reference j cs hj hcs _ ih =>
    -- The digits of a reference are copied, and what follows them still ends the number.
    have hdigits : ∀ {u}, Operand.unmaskFrom quoted none ((Text.digits j).map .char ++ cs) = .ok u →
        RefersBelow k (groupMark :: u) := by
      intro u hu
      rw [unmaskFrom_append fun c hc => (groupMark_ne_of_mem_digits hc).2.1] at hu
      obtain ⟨u', hu', rfl⟩ := map_eq_ok_iff.mp hu
      obtain ⟨hbelow, hstops⟩ := ih (by simp) hu'
      exact .reference hj (hstops fun _ => hcs) hbelow
    rintro (- | ds) u hopen hu
    · rw [Operand.unmaskFrom, if_neg (by decide)] at hu
      obtain ⟨u', hu', hu⟩ := bind_eq_ok_iff.mp hu
      cases hu
      exact ⟨hdigits hu', fun _ => stops_cons.mpr endsNumber_groupMark⟩
    · rw [Operand.unmaskFrom, if_neg (by decide), if_neg (by decide)] at hu
      obtain ⟨u', hu', hu⟩ := bind_eq_ok_iff.mp hu
      cases hu
      have hbelow := quoteMark_append (hopen ds rfl) (hdigits hu')
      exact ⟨by simpa using hbelow, fun _ => stops_cons.mpr hquote⟩

/-! ### Cutting groups out -/

/-- The text can be continued by any text with references, or by any that does not continue a number
if the flag is set. -/
def Leads (k : Nat) (numbered : Bool) (x : List CodePoint) : Prop :=
  ∀ y, RefersBelow k y → (numbered = true → Stops y) → RefersBelow k (x ++ y)

namespace Leads

variable {j k : Nat} {numbered : Bool} {x : List CodePoint}

theorem nil : Leads k false [] := fun _ hy _ => hy

theorem refersBelow (h : Leads k numbered x) : RefersBelow k x := by
  simpa using h [] .nil fun _ => stops_nil

theorem weaken (h : Leads k numbered x) : Leads k true x :=
  fun y hy hstops => h y hy fun _ => hstops rfl

theorem char {c : CodePoint} (h : Leads k numbered x) (hc : c ≠ groupMark)
    (hstops : numbered = true → endsNumber c) : Leads k false (x ++ [c]) := by
  intro y hy _
  rw [List.append_assoc]
  exact h (c :: y) (.char hc hy) fun hn => stops_cons.mpr (hstops hn)

theorem reference (h : Leads k numbered x) (hj : j < k) :
    Leads k true (x ++ groupMark :: (Text.digits j).map .char) := by
  intro y hy hstops
  rw [List.append_assoc]
  exact h _ (.reference hj (hstops rfl) hy) fun _ => stops_cons.mpr endsNumber_groupMark

end Leads

/-- **What is kept while groups are cut out.** Each group refers to groups in front of it, and so
does the text outside; what is still to be read does not continue the last number. -/
structure Cutting.IsOrdered (s : Cutting) (rest : List CodePoint) : Prop where
  current : ∃ numbered, (∀ k, s.groups.length ≤ k → Leads k numbered s.current.reverse) ∧
    (numbered = true → Stops rest)
  outer : ∀ below ∈ s.outer, ∀ k, s.groups.length ≤ k → Leads k true below.reverse
  groups : ∀ i group, s.groups.reverse[i]? = some group → RefersBelow i group

/-- A text in which all references come from the groups that are cut out of it: it holds no mark of
a group, and no closing parenthesis stands right in front of a digit or an underscore. -/
structure IsUnambiguous (cs : List CodePoint) : Prop where
  unmarked : groupMark ∉ cs
  apart : cs.IsChain fun a b => a = .char ')' → endsNumber b

theorem Cutting.IsOrdered.step {s : Cutting} {c : CodePoint} {rest : List CodePoint}
    (h : s.IsOrdered (c :: rest)) (hcs : IsUnambiguous (c :: rest)) : (s.step c).IsOrdered rest := by
  have hc : c ≠ groupMark := by
    rintro rfl
    exact hcs.unmarked List.mem_cons_self
  obtain ⟨numbered, hcurrent, hstops⟩ := h.current
  have hends : numbered = true → endsNumber c := fun hn => stops_cons.mp (hstops hn)
  have hpush : ∀ k, s.groups.length ≤ k → Leads k false (c :: s.current).reverse := by
    intro k hk
    rw [List.reverse_cons]
    exact (hcurrent k hk).char hc hends
  unfold Cutting.step
  split
  · refine ⟨⟨false, fun _ _ => .nil, by simp⟩, fun below hbelow k hk => ?_, h.groups⟩
    rcases List.mem_cons.mp hbelow with rfl | hbelow
    · exact (hcurrent k hk).weaken
    · exact h.outer below hbelow k hk
  · split
    · rename_i hclose
      split
      · exact ⟨⟨false, hpush, by simp⟩, h.outer, h.groups⟩
      · rename_i below outer e
        have hrest : Stops rest := fun d hd => (List.isChain_cons.mp hcs.apart).1 d hd hclose
        have houter := h.outer
        rw [e] at houter
        refine ⟨⟨true, fun k hk => ?_, fun _ => hrest⟩, fun b hb k hk => ?_, fun i group hi => ?_⟩
        · have hk : s.groups.length < k := hk
          have hlead := (houter below List.mem_cons_self k (Nat.le_of_lt hk)).reference hk
          simpa using hlead
        · exact houter b (List.mem_cons_of_mem _ hb) k (Nat.le_of_lt hk)
        · rw [List.reverse_cons] at hi
          rcases Nat.lt_or_ge i s.groups.reverse.length with hlt | hge
          · rw [List.getElem?_append_left hlt] at hi
            exact h.groups i group hi
          · rw [List.getElem?_append_right hge, List.getElem?_singleton] at hi
            split at hi
            · rename_i hzero
              cases hi
              have hle : s.groups.length ≤ i := by simpa using hge
              refine .char (by decide) ?_
              exact (hcurrent i hle).weaken _ (.of_unmarked (by decide))
                fun _ => stops_cons.mpr (by decide)
            · cases hi
    · exact ⟨⟨false, hpush, by simp⟩, h.outer, h.groups⟩

theorem IsUnambiguous.tail {c : CodePoint} {cs : List CodePoint} (h : IsUnambiguous (c :: cs)) :
    IsUnambiguous cs where
  unmarked hmem := h.unmarked (List.mem_cons_of_mem _ hmem)
  apart := h.apart.tail

/-- Cutting the groups out of a whole text keeps them in order. -/
theorem Cutting.IsOrdered.foldl {cs : List CodePoint} (hcs : IsUnambiguous cs) :
    ∀ {s : Cutting}, s.IsOrdered cs → (cs.foldl Cutting.step s).IsOrdered [] := by
  induction cs with
  | nil => exact id
  | cons c cs ih => exact fun h => ih hcs.tail (h.step hcs)

theorem Cutting.refersBelow_rest {k : Nat} {outer : List (List CodePoint)}
    (houter : ∀ below ∈ outer, Leads k true below.reverse) {current : List CodePoint}
    (hcurrent : Leads k true current.reverse) : RefersBelow k (Cutting.rest outer current) := by
  induction outer generalizing current with
  | nil => exact hcurrent.refersBelow
  | cons below outer ih =>
    refine ih (fun b hb => houter b (List.mem_cons_of_mem _ hb)) ?_
    intro y hy hstops
    have hinner := RefersBelow.char (c := .char '(') (by decide) (hcurrent y hy hstops)
    have hjoined := houter below List.mem_cons_self _ hinner fun _ => stops_cons.mpr (by decide)
    simpa using hjoined

/-! ### Masking quoted parts -/

theorem piecesFrom_chars (open? : Option (CodePoint × List CodePoint)) (cs : List CodePoint) :
    (piecesFrom open? cs).flatMap Piece.chars =
      (open?.elim [] fun o => o.1 :: o.2.reverse) ++ cs := by
  fun_induction piecesFrom open? cs with
  | case1 => rfl
  | case2 q inside =>
    have hplain : ∀ xs : List CodePoint, (xs.map Piece.plain).flatMap Piece.chars = xs := by
      intro xs
      simp [List.flatMap_map, Piece.chars]
    rw [List.flatMap_cons, hplain]
    simp [Piece.chars]
  | case3 c cs hc ih => simpa using ih
  | case4 c cs hc ih => simpa [Piece.chars] using ih
  | case5 inside c cs ih => simpa [Piece.chars] using ih
  | case6 q inside c cs hc ih => simpa using ih

theorem isQuote_of_mem_piecesFrom {open? : Option (CodePoint × List CodePoint)} {cs : List CodePoint}
    {q : CodePoint} {inside : List CodePoint} (hopen : ∀ o, open? = some o → isQuote o.1)
    (h : Piece.quoted q inside ∈ piecesFrom open? cs) : isQuote q := by
  fun_induction piecesFrom open? cs with
  | case1 => cases h
  | case2 => simp at h
  | case3 c cs hc ih =>
    refine ih ?_ h
    rintro _ ⟨⟩
    exact (Bool.and_eq_true_iff.mp hc).1
  | case4 c cs hc ih => exact ih hopen (by simpa using h)
  | case5 inside c cs ih =>
    rcases List.mem_cons.mp h with h | h
    · cases h
      exact hopen _ rfl
    · exact ih (by simp) h
  | case6 q' inside' c cs hc ih =>
    refine ih ?_ h
    rintro _ ⟨⟩
    exact hopen (q', inside') rfl

theorem exists_of_mem_quotedParts {ps : List Piece} {part : List CodePoint}
    (h : part ∈ quotedParts ps) :
    ∃ q inside, Piece.quoted q inside ∈ ps ∧ part = (Piece.quoted q inside).chars := by
  fun_induction quotedParts ps with
  | case1 => cases h
  | case2 c ps ih =>
    obtain ⟨q, inside, hmem, hpart⟩ := ih h
    exact ⟨q, inside, List.mem_cons_of_mem _ hmem, hpart⟩
  | case3 p ps hp ih =>
    rcases List.mem_cons.mp h with rfl | h
    · cases p with
      | plain c => exact (hp c rfl).elim
      | quoted q inside => exact ⟨q, inside, List.mem_cons_self, rfl⟩
    · obtain ⟨q, inside, hmem, hpart⟩ := ih h
      exact ⟨q, inside, List.mem_cons_of_mem _ hmem, hpart⟩

theorem isQuotation_of_mem_quotedParts {cs part : List CodePoint} (hcs : groupMark ∉ cs)
    (h : part ∈ quotedParts (pieces cs)) : IsQuotation part := by
  obtain ⟨q, inside, hmem, rfl⟩ := exists_of_mem_quotedParts h
  refine ⟨fun hmark => hcs ?_, q, inside ++ [q], rfl,
    isQuote_of_mem_piecesFrom (by simp) hmem⟩
  have hchars : groupMark ∈ (piecesFrom none cs).flatMap Piece.chars :=
    List.mem_flatMap.mpr ⟨_, hmem, hmark⟩
  rwa [piecesFrom_chars] at hchars

/-- Characters other than a closing parenthesis can stand in front of anything. -/
theorem isChain_append_of_ne {x y : List CodePoint} (hx : ∀ c ∈ x, c ≠ .char ')')
    (hy : y.IsChain fun a b => a = .char ')' → endsNumber b) :
    (x ++ y).IsChain fun a b => a = .char ')' → endsNumber b := by
  induction x with
  | nil => exact hy
  | cons c x ih =>
    refine List.isChain_cons.mpr ⟨fun d _ hc => absurd hc (hx c List.mem_cons_self), ?_⟩
    exact ih fun d hd => hx d (List.mem_cons_of_mem _ hd)

/-- Masking the quoted parts of a text leaves it without ambiguities. -/
theorem isUnambiguous_maskFrom {ps : List Piece} (h : IsUnambiguous (ps.flatMap Piece.chars)) :
    ∀ n, IsUnambiguous (maskFrom n ps) ∧
      (Stops (ps.flatMap Piece.chars) → Stops (maskFrom n ps)) := by
  induction ps with
  | nil => exact fun n => ⟨⟨by simp [maskFrom], .nil⟩, fun _ => stops_nil⟩
  | cons p ps ih =>
    intro n
    cases p with
    | plain c =>
      rw [List.flatMap_cons, Piece.chars, List.singleton_append] at h
      obtain ⟨hrest, hstops⟩ := ih h.tail n
      have hunmarked := h.unmarked
      rw [List.mem_cons, not_or] at hunmarked
      refine ⟨⟨?_, ?_⟩, fun hends => stops_cons.mpr (stops_cons.mp hends)⟩
      · rw [maskFrom, List.mem_cons, not_or]
        exact ⟨hunmarked.1, hrest.unmarked⟩
      · refine List.isChain_cons.mpr ⟨fun d hd hc => hstops ?_ d hd, hrest.apart⟩
        exact fun e he => (List.isChain_cons.mp h.apart).1 e he hc
    | quoted q inside =>
      rw [List.flatMap_cons] at h
      have htail : IsUnambiguous (ps.flatMap Piece.chars) :=
        ⟨fun hmem => h.unmarked (List.mem_append_right _ hmem), h.apart.right_of_append⟩
      obtain ⟨hrest, -⟩ := ih htail (n + 1)
      have hmask : ∀ c ∈ [quoteMark] ++ (Text.digits n).map CodePoint.char ++ [quoteMark],
          c ≠ groupMark ∧ c ≠ .char ')' := by
        intro c hc
        simp only [List.mem_append, List.mem_singleton] at hc
        rcases hc with (rfl | hc) | rfl
        · decide
        · exact ⟨(groupMark_ne_of_mem_digits hc).1, (groupMark_ne_of_mem_digits hc).2.2⟩
        · decide
      refine ⟨⟨?_, isChain_append_of_ne (fun c hc => (hmask c hc).2) hrest.apart⟩,
        fun _ => stops_cons.mpr (by decide)⟩
      rw [maskFrom, List.mem_append, not_or]
      exact ⟨fun hmem => (hmask _ hmem).1 rfl, hrest.unmarked⟩

/-! ### Descending references -/

/-- The text refers to a group, and each group refers to groups that were cut out before it. -/
structure Linear.Descends (l : Linear) : Prop where
  source : ∀ j, l.reference? l.source = some j → j < l.groups.length
  groups : ∀ i group, l.groups[i]? = some group → ∀ arg ∈ l.argumentsIn group,
    ∀ j, l.reference? arg = some j → j < i

/-- **References in an unambiguous text descend.** -/
theorem Linear.ofText_descends {cs : List CodePoint} (h : IsUnambiguous cs) :
    (Linear.ofText cs).Descends := by
  have hmasked : IsUnambiguous (maskFrom 0 (pieces cs)) := by
    refine (isUnambiguous_maskFrom ?_ 0).1
    rwa [pieces, piecesFrom_chars]
  have hordered : ((maskFrom 0 (pieces cs)).foldl Cutting.step ⟨[], [], []⟩).IsOrdered [] :=
    .foldl hmasked
      ⟨⟨false, fun _ _ => .nil, by simp⟩, by simp, by simp⟩
  obtain ⟨numbered, hcurrent, -⟩ := hordered.current
  constructor
  · intro j hj
    have hsource := Cutting.refersBelow_rest
      (fun below hbelow => hordered.outer below hbelow _ (Nat.le_refl _))
      (hcurrent _ (Nat.le_refl _)).weaken
    have hlt := hsource.reference?_lt (List.infix_refl _) hj
    simpa [Linear.ofText] using hlt
  · intro i group hgroup arg harg j hj
    have hbelow := hordered.groups i group hgroup
    unfold Linear.argumentsIn at harg
    rcases e : unmask (Linear.ofText cs).quoted group with f | u
    · simp [e, Except.toOption] at harg
    · rw [e] at harg
      have hu := (hbelow.unmaskFrom (fun part hpart => isQuotation_of_mem_quotedParts h.unmarked hpart)
        (by simp) e).1
      exact hu.reference?_lt (infix_of_mem_arguments harg) hj

theorem Calls.mem_argumentsIn {c : Catalog} {l : Linear} {place : Place} {a arg : List CodePoint}
    {i : Nat} (h : Calls c l place a arg) (ha : l.reference? a = some i) :
    ∃ group, l.groups[i]? = some group ∧ arg ∈ l.argumentsIn group := by
  obtain ⟨heq, -⟩ := h
  rw [callees_eq, ha, Option.bind_some] at heq
  rcases e : l.groups[i]? with - | group
  · simp [e] at heq
  · refine ⟨group, rfl, ?_⟩
    rw [e] at heq
    change l.argumentsIn group = _ at heq
    rw [heq]
    simp

theorem ends_of_reference?_eq_none {c : Catalog} {l : Linear} {place : Place} {a : List CodePoint}
    (h : l.reference? a = none) : Ends c l place a := by
  refine Acc.intro a fun arg hcall => ?_
  obtain ⟨i, -, hi⟩ := hcall.reference_lt
  rw [h] at hi
  cases hi

/-- Every chain of calls ends when references descend. -/
theorem Linear.Descends.ends {c : Catalog} {l : Linear} {place : Place} (h : l.Descends) :
    Ends c l place l.source := by
  have hgroups : ∀ i a, l.reference? a = some i → Ends c l place a := by
    intro i
    induction i using Nat.strong_induction_on with
    | _ i ih =>
      intro a ha
      refine Acc.intro a fun arg hcall => ?_
      obtain ⟨group, hgroup, harg⟩ := hcall.mem_argumentsIn ha
      rcases e : l.reference? arg with - | j
      · exact ends_of_reference?_eq_none e
      · exact ih j (h.groups i group hgroup arg harg j e) arg e
  rcases e : l.reference? l.source with - | i
  · exact ends_of_reference?_eq_none e
  · exact hgroups i l.source e

end RecordFilter.Operand
