import Mathlib.Data.List.TakeWhile
import RecordFilter.Number.Numeral

/-!
# Numbers in front of other characters

An integer is read from a text as a whole, with blanks around it and underscores between its digits.
When the text begins with digits and goes on with a character that is neither a digit of any script
nor an underscore, then the number that is read consists of these digits, and the rest of the text is
blank (`Numeral.int?_append`).
-/

namespace RecordFilter

namespace Numeral

theorem dropBothEnds_append {α : Type} {p : α → Bool} {d : α} {ds t : List α}
    (h : ∀ c ∈ d :: ds, p c = false) :
    Text.dropBothEnds p (d :: ds ++ t) = d :: ds ++ (t.reverse.dropWhile p).reverse := by
  have hfront : (d :: ds ++ t).dropWhile p = d :: ds ++ t := by
    rw [List.cons_append, List.dropWhile_cons_of_neg (by simp [h d])]
  have hback : (d :: ds).reverse.dropWhile p = (d :: ds).reverse := by
    rcases e : (d :: ds).reverse with - | ⟨x, xs⟩
    · rfl
    · have hx : x ∈ d :: ds := List.mem_reverse.mp (e ▸ List.mem_cons_self)
      rw [List.dropWhile_cons_of_neg (by simp [h x hx])]
  rw [Text.dropBothEnds, hfront, List.reverse_append, List.dropWhile_append]
  split
  · rename_i hempty
    rw [hback, List.isEmpty_iff.mp hempty]
    simp
  · simp

theorem digitValue?_of_isDigit {c : Char} (h : c.isDigit) :
    Text.digitValue? c = some (c.toNat - 48) ∧ 48 ≤ c.toNat ∧ c.toNat ≤ 57 := by
  have hrange : 48 ≤ c.toNat ∧ c.toNat ≤ 57 := by
    simpa [Char.isDigit, UInt32.le_iff_toNat_le] using h
  refine ⟨?_, hrange⟩
  unfold Text.digitValue?
  dsimp only
  rw [if_pos (by omega), if_pos h]

theorem plainDigit_of_isDigit {c : Char} (h : c.isDigit) : plainDigit c = c := by
  obtain ⟨hvalue, hlow, -⟩ := digitValue?_of_isDigit h
  unfold plainDigit
  rw [hvalue]
  show Char.ofNat (48 + (c.toNat - 48)) = c
  rw [show 48 + (c.toNat - 48) = c.toNat by omega, Char.ofNat_toNat]

theorem isBlank_of_isDigit {c : Char} (h : c.isDigit) :
    isAsciiBlank c = false ∧ Text.isBlank (CodePoint.char c) = false := by
  obtain ⟨-, hlow, hhigh⟩ := digitValue?_of_isDigit h
  have hnumber : (CodePoint.char c).number = c.toNat := rfl
  have hspace : c ≠ ' ' := by
    rintro rfl
    exact absurd h (by decide)
  constructor
  · simp [isAsciiBlank, hspace]
    omega
  · unfold Text.isBlank
    simp [hnumber]
    omega

/-- A list of characters that no digit of a number can be at the start of. -/
def Stops (t : List Char) : Prop :=
  ∀ c ∈ t.head?, Text.isDecimalDigit c = false ∧ c ≠ '_'

theorem digitValue?_lt {c : Char} {v : Nat} (h : Text.digitValue? c = some v) : v < 10 := by
  unfold Text.digitValue? at h
  dsimp only at h
  split at h
  · split at h
    · rename_i hdigit
      obtain ⟨-, -, hhigh⟩ := digitValue?_of_isDigit hdigit
      cases h
      omega
    · cases h
  · obtain ⟨first, hfirst, rfl⟩ := Option.map_eq_some_iff.mp h
    have hrange := List.find?_some hfirst
    simp only [Bool.and_eq_true, decide_eq_true_eq] at hrange
    omega

theorem isBlank_of_isAsciiBlank {c : Char} (h : isAsciiBlank c = true) :
    Text.isBlank (CodePoint.char c) = true := by
  have hnumber : (CodePoint.char c).number = c.toNat := rfl
  unfold Text.isBlank
  rw [hnumber]
  simp only [isAsciiBlank, Bool.or_eq_true, beq_iff_eq, Bool.and_eq_true, decide_eq_true_eq] at h
  rcases h with rfl | ⟨hlow, hhigh⟩
  · decide
  · simp [hlow, hhigh]

/-- A digit of another script is not taken for a blank. -/
theorem isBlank_of_plainDigit {c : Char} (h : Text.isBlank (CodePoint.char (plainDigit c)) = true) :
    Text.isBlank (CodePoint.char c) = true := by
  unfold plainDigit at h
  split at h
  · rename_i v hv
    have hdigits : ∀ v < 10, Text.isBlank (CodePoint.char (Text.digitChar v)) = false := by decide
    rw [hdigits v (digitValue?_lt hv)] at h
    cases h
  · exact h

theorem forall_of_dropWhile_reverse {α : Type} {p : α → Bool} {t : List α}
    (h : (t.reverse.dropWhile p).reverse = []) : ∀ c ∈ t, p c = true := by
  intro c hc
  exact List.dropWhile_eq_nil_iff.mp (List.reverse_eq_nil_iff.mp h) c (List.mem_reverse.mpr hc)

/-- Digits in front of something else keep standing in front of it when blanks are dropped. Only if the
rest is blank nothing else is left. -/
theorem plain_append {d : Char} {ds t : List Char} (hds : ∀ c ∈ d :: ds, c.isDigit)
    (ht : Stops t) :
    ∃ t', plain (d :: ds ++ t) = d :: ds ++ t' ∧ (∀ c ∈ t'.head?, c.isDigit = false ∧ c ≠ '_') ∧
      (t' = [] → ∀ c ∈ t, Text.isBlank (CodePoint.char c) = true) := by
  have hdigit : ∀ c : Char, Text.isDecimalDigit c = false → c.isDigit = false := by
    intro c hc
    cases hd : c.isDigit
    · rfl
    · rw [Text.isDecimalDigit, (digitValue?_of_isDigit hd).1] at hc
      cases hc
  have hhead : ∀ (p : Char → Bool) (s : List Char) c, c ∈ (s.reverse.dropWhile p).reverse.head? →
      c ∈ s.head? := by
    intro p s c hc
    have hprefix : (s.reverse.dropWhile p).reverse <+: s := by
      simpa using List.reverse_prefix.mpr (List.dropWhile_suffix p (l := s.reverse))
    obtain ⟨r, hr⟩ := hprefix
    rw [← hr, List.head?_append, Option.mem_def.mp hc]
    rfl
  unfold plain
  split
  · refine ⟨_, dropBothEnds_append fun c hc => (isBlank_of_isDigit (hds c hc)).1, fun c hc => ?_,
      fun hnil c hc => isBlank_of_isAsciiBlank (forall_of_dropWhile_reverse hnil c hc)⟩
    obtain ⟨hc, hne⟩ := ht c (hhead _ _ c hc)
    exact ⟨hdigit c hc, hne⟩
  · have hmap : (d :: ds).map plainDigit = d :: ds :=
      (List.map_congr_left fun c hc => plainDigit_of_isDigit (hds c hc)).trans (List.map_id _)
    rw [List.map_append, hmap]
    refine ⟨_, dropBothEnds_append fun c hc => (isBlank_of_isDigit (hds c hc)).2, fun c hc => ?_,
      fun hnil c hc => isBlank_of_plainDigit
        (forall_of_dropWhile_reverse hnil _ (List.mem_map_of_mem hc))⟩
    have hc := hhead _ _ c hc
    rw [List.head?_map] at hc
    obtain ⟨c', hc', rfl⟩ := Option.map_eq_some_iff.mp hc
    obtain ⟨hnone, hne⟩ := ht c' hc'
    have hvalue : Text.digitValue? c' = none := by
      simpa [Text.isDecimalDigit] using hnone
    have hsame : plainDigit c' = c' := by
      unfold plainDigit
      rw [hvalue]
    rw [hsame]
    exact ⟨hdigit c' hnone, hne⟩

/-- Underscores between digits can be dropped, but all that is left is digits only when there was
nothing else. -/
theorem dropUnderscores_append {before : Option Char} {ds t es : List Char}
    (hbefore : before ≠ some '_') (hds : ∀ c ∈ ds, c.isDigit)
    (ht : ∀ c ∈ t.head?, c.isDigit = false ∧ c ≠ '_')
    (h : dropUnderscores before (ds ++ t) = some es) (hes : es.all Char.isDigit) :
    es = ds ∧ t = [] := by
  induction ds generalizing before es with
  | nil =>
    cases t with
    | nil => simpa [dropUnderscores, hbefore] using h.symm
    | cons c t =>
      obtain ⟨hc, hne⟩ := ht c rfl
      rw [List.nil_append, dropUnderscores, if_neg hne, if_neg (by simp [hbefore])] at h
      obtain ⟨es', -, rfl⟩ := Option.map_eq_some_iff.mp h
      simp [hc] at hes
  | cons d ds ih =>
    have hd := hds d List.mem_cons_self
    have hne : d ≠ '_' := by
      rintro rfl
      exact absurd hd (by decide)
    rw [List.cons_append, dropUnderscores, if_neg hne, if_neg (by simp [hbefore])] at h
    obtain ⟨es', hes', rfl⟩ := Option.map_eq_some_iff.mp h
    rw [List.all_cons, Bool.and_eq_true] at hes
    obtain ⟨rfl, hnil⟩ := ih (by simp [hne]) (fun c hc => hds c (List.mem_cons_of_mem _ hc)) hes' hes.2
    exact ⟨rfl, hnil⟩

/-- A number that begins with digits and goes on with something else consists of these digits, and what
it goes on with is blank. -/
theorem int?_append {ds t : List Char} {n : Int} (hds : ∀ c ∈ ds, c.isDigit) (ht : Stops t)
    (hempty : ds = [] → t = []) (h : int? (ds ++ t) = some n) :
    n = valueOf ds ∧ ∀ c ∈ t, Text.isBlank (CodePoint.char c) = true := by
  cases ds with
  | nil =>
    rw [hempty rfl, List.append_nil, show int? [] = none by decide] at h
    cases h
  | cons d ds =>
    obtain ⟨t', hplain, ht', hblank⟩ := plain_append hds ht
    have hsign : sign (d :: ds ++ t') = (false, d :: ds ++ t') := by
      have hd := hds d List.mem_cons_self
      unfold sign
      split
      · rename_i heq
        obtain ⟨rfl, -⟩ := List.cons.inj heq
        exact absurd hd (by decide)
      · rename_i heq
        obtain ⟨rfl, -⟩ := List.cons.inj heq
        exact absurd hd (by decide)
      · rfl
    unfold int? at h
    rw [hplain, hsign] at h
    obtain ⟨es, hes, h⟩ := Option.bind_eq_some_iff.mp h
    split at h
    · cases h
    · rename_i hgood
      simp only [Bool.or_eq_true, decide_eq_true_eq, not_or, Bool.not_eq_true', Bool.not_eq_false]
        at hgood
      obtain ⟨rfl, hnil⟩ := dropUnderscores_append (by simp) hds ht' hes hgood.1.2
      cases h
      exact ⟨rfl, hblank hnil⟩

theorem valueOf_eq (ds : List Char) : valueOf ds = Nat.ofDigitChars 10 ds 0 := by
  rw [Nat.ofDigitChars_eq_foldl]
  rfl

theorem valueOf_digits (n : Nat) : valueOf (Text.digits n) = n := by
  rw [valueOf_eq, Text.digits, Nat.ofDigitChars_ten_toDigits]

/-- The first digits of a number denote no more than all of them. -/
theorem valueOf_le_append (ds rest : List Char) : valueOf ds ≤ valueOf (ds ++ rest) := by
  have hsum : Nat.ofDigitChars 10 rest (valueOf ds) =
      10 ^ rest.length * valueOf ds + Nat.ofDigitChars 10 rest 0 :=
    Nat.ofDigitChars_eq_ofDigitChars_zero
  rw [valueOf_eq (ds ++ rest), Nat.ofDigitChars_append, ← valueOf_eq, hsum]
  have hpos : 0 < 10 ^ rest.length := Nat.pow_pos (by decide)
  have hle := Nat.le_mul_of_pos_left (valueOf ds) hpos
  omega

end Numeral

end RecordFilter
