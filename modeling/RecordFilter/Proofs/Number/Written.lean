import Mathlib.Data.List.TakeWhile
import RecordFilter.Number.Shortest
import RecordFilter.Proofs.Number.Numeral

/-!
# Numbers as they are written

Integers are written with a sign and digits, and finite doubles with a point or an exponent besides
(`Double.mem_text`). No blanks and no underscores occur in them, so an integer is read back from its
text (`Numeral.int?_ofInt`), and the text of a double is not taken for an integer
(`Numeral.int?_of_mark`).
-/

namespace RecordFilter

namespace Numeral

/-- A character that integers and finite doubles are written with. -/
def IsNumeralChar (c : Char) : Prop :=
  c.isDigit ∨ c = '.' ∨ c = 'e' ∨ c = '+' ∨ c = '-'

instance (c : Char) : Decidable (IsNumeralChar c) :=
  inferInstanceAs (Decidable (_ ∨ _ ∨ _ ∨ _ ∨ _))

theorem isDigit_of_mem_digits {n : Nat} {c : Char} (h : c ∈ Text.digits n) : c.isDigit :=
  Nat.isDigit_of_mem_toDigits (by decide) (by decide) h

theorem plainDigit_of_isNumeralChar {c : Char} (h : IsNumeralChar c) : plainDigit c = c := by
  rcases h with h | rfl | rfl | rfl | rfl
  · exact plainDigit_of_isDigit h
  all_goals decide

theorem isAsciiBlank_of_isNumeralChar {c : Char} (h : IsNumeralChar c) : isAsciiBlank c = false := by
  rcases h with h | rfl | rfl | rfl | rfl
  · exact (isBlank_of_isDigit h).1
  all_goals decide

theorem ne_underscore_of_isNumeralChar {c : Char} (h : IsNumeralChar c) : c ≠ '_' := by
  rintro rfl
  exact absurd h (by decide)

theorem toNat_lt_of_isNumeralChar {c : Char} (h : IsNumeralChar c) : c.toNat < 128 := by
  rcases h with h | rfl | rfl | rfl | rfl
  · have := (digitValue?_of_isDigit h).2.2
    omega
  all_goals decide

theorem toLower_of_isNumeralChar {c : Char} (h : IsNumeralChar c) : c.toLower = c := by
  rcases h with h | rfl | rfl | rfl | rfl
  · obtain ⟨-, hlow, hhigh⟩ := digitValue?_of_isDigit h
    have hupper : ¬ (c.val ≥ 'A'.val ∧ c.val ≤ 'Z'.val) := by
      rw [ge_iff_le, UInt32.le_iff_toNat_le, UInt32.le_iff_toNat_le]
      show ¬ (65 ≤ c.toNat ∧ c.toNat ≤ 90)
      omega
    unfold Char.toLower
    rw [dif_neg hupper]
  all_goals decide

theorem isBlank_of_isNumeralChar {c : Char} (hc : IsNumeralChar c) :
    Text.isBlank (.char c) = false := by
  rcases hc with h | rfl | rfl | rfl | rfl
  · exact (isBlank_of_isDigit h).2
  all_goals decide

theorem ne_of_isNumeralChar {c d : Char} (hc : IsNumeralChar c) (hd : ¬ IsNumeralChar d) :
    CodePoint.char c ≠ .char d := by
  rintro ⟨⟩
  exact hd hc

section

variable {cs : List Char} (h : ∀ c ∈ cs, IsNumeralChar c)

include h

theorem plain_of_isNumeralChar : plain cs = cs := by
  have hascii : (cs.all fun c => c.toNat < 128) = true := by
    simpa using fun c hc => toNat_lt_of_isNumeralChar (h c hc)
  unfold plain
  rw [if_pos hascii]
  cases cs with
  | nil => rfl
  | cons c cs =>
    simpa using dropBothEnds_append (t := []) fun d hd => isAsciiBlank_of_isNumeralChar (h d hd)

theorem map_plainDigit_of_isNumeralChar : cs.map plainDigit = cs :=
  (List.map_congr_left fun c hc => plainDigit_of_isNumeralChar (h c hc)).trans (List.map_id _)

theorem dropUnderscores_of_isNumeralChar {before : Option Char} (hbefore : before ≠ some '_') :
    dropUnderscores before cs = some cs := by
  induction cs generalizing before with
  | nil => rw [dropUnderscores, if_neg hbefore]
  | cons c cs ih =>
    have hc := ne_underscore_of_isNumeralChar (h c List.mem_cons_self)
    have hrest : dropUnderscores (some c) cs = some cs :=
      ih (fun d hd => h d (List.mem_cons_of_mem _ hd)) (by simpa using hc)
    rw [dropUnderscores, if_neg hc, if_neg (by simp [hbefore]), hrest]
    rfl

theorem mem_sign {c : Char} (hc : c ∈ (sign cs).2) : c ∈ cs := by
  unfold sign at hc
  split at hc
  · exact List.mem_cons_of_mem _ hc
  · exact List.mem_cons_of_mem _ hc
  · exact hc

/-- A point or an exponent is no part of an integer. -/
theorem int?_of_mark (hmark : '.' ∈ cs ∨ 'e' ∈ cs) : int? cs = none := by
  have hmem : ∃ c ∈ (sign cs).2, c.isDigit = false := by
    unfold sign
    split
    · rcases hmark with h | h <;> exact ⟨_, (List.mem_cons.mp h).resolve_left (by decide), rfl⟩
    · rcases hmark with h | h <;> exact ⟨_, (List.mem_cons.mp h).resolve_left (by decide), rfl⟩
    · rcases hmark with h | h <;> exact ⟨_, h, rfl⟩
  obtain ⟨c, hc, hdigit⟩ := hmem
  have hall : (sign cs).2.all Char.isDigit = false :=
    List.all_eq_false.mpr ⟨c, hc, by simp [hdigit]⟩
  have hdrop : dropUnderscores none (sign cs).2 = some (sign cs).2 :=
    dropUnderscores_of_isNumeralChar (fun c hc => h c (mem_sign h hc)) (by simp)
  unfold int?
  rw [plain_of_isNumeralChar h]
  dsimp only
  rw [hdrop]
  show (if (_ || !(sign cs).2.all Char.isDigit || _) then _ else _) = _
  rw [hall]
  simp

theorem map_toLower_of_isNumeralChar : cs.map Char.toLower = cs :=
  (List.map_congr_left fun c hc => toLower_of_isNumeralChar (h c hc)).trans (List.map_id _)

/-- The names of infinity and of what is no number have letters besides the exponent. -/
theorem ne_name_of_isNumeralChar {name : String} {c : Char} (hc : c ∈ name.toList)
    (hno : ¬ IsNumeralChar c) : (String.ofList cs == name) = false := by
  refine beq_eq_false_iff_ne.mpr fun heq => hno (h c ?_)
  rw [← heq, String.toList_ofList] at hc
  exact hc

/-- A double that is written with the characters of numerals is read from its parts. -/
theorem double?_of_isNumeralChar : double? cs = (parts? (sign cs).2).bind fun p =>
    some (Decimal.finite (sign cs).1 p.scaled.1 p.scaled.2).toDouble := by
  have hsign : ∀ c ∈ (sign cs).2, IsNumeralChar c := fun c hc => h c (mem_sign h hc)
  unfold double?
  rw [plain_of_isNumeralChar h]
  dsimp only
  rw [map_toLower_of_isNumeralChar hsign,
    ne_name_of_isNumeralChar hsign (c := 'i') (by decide) (by decide),
    ne_name_of_isNumeralChar hsign (c := 'i') (by decide) (by decide),
    ne_name_of_isNumeralChar hsign (c := 'n') (by decide) (by decide),
    dropUnderscores_of_isNumeralChar hsign (by simp)]
  rfl

/-- So is a decimal number, within the limits of the exponent. -/
theorem decimal?_of_isNumeralChar : decimal? cs = (parts? (sign cs).2).bind fun p =>
    if Decimal.isRepresentable p.scaled.1 p.scaled.2 then
      some (.finite (sign cs).1 p.scaled.1 p.scaled.2) else none := by
  have hsign : ∀ c ∈ (sign cs).2, IsNumeralChar c := fun c hc => h c (mem_sign h hc)
  have hblank : Text.dropBothEnds (fun c : Char => Text.isBlank c) cs = cs := by
    cases cs with
    | nil => rfl
    | cons c cs =>
      simpa using dropBothEnds_append (t := []) fun d hd => isBlank_of_isNumeralChar (h d hd)
  have hfilter : cs.filter (· != '_') = cs :=
    List.filter_eq_self.mpr fun c hc => by simpa using ne_underscore_of_isNumeralChar (h c hc)
  have hprefix : ∀ {name : List Char}, 'n' ∈ name →
      decimal?.startsWith (sign cs).2 name = false := by
    intro name hc
    refine Bool.eq_false_iff.mpr fun hstarts => absurd (hsign 'n' ?_) (by decide)
    exact (List.isPrefixOf_iff_prefix.mp hstarts).subset hc
  unfold decimal?
  dsimp only
  rw [hblank, hfilter, map_plainDigit_of_isNumeralChar h, map_toLower_of_isNumeralChar hsign,
    ne_name_of_isNumeralChar hsign (c := 'i') (by decide) (by decide),
    ne_name_of_isNumeralChar hsign (c := 'i') (by decide) (by decide),
    hprefix (by decide), hprefix (by decide)]
  rfl

/-- A numeral that is read as a double has the parts of one. -/
theorem parts?_of_double? {d : Double} (hd : double? cs = some d) :
    (parts? (sign cs).2).isSome := by
  rw [double?_of_isNumeralChar h] at hd
  obtain ⟨p, hp, -⟩ := Option.bind_eq_some_iff.mp hd
  exact Option.isSome_iff_exists.mpr ⟨p, hp⟩

/-- A numeral that is read as a decimal number is read as the double of that number, too. -/
theorem double?_of_decimal? {d : Decimal} (hd : decimal? cs = some d) :
    double? cs = some d.toDouble := by
  rw [decimal?_of_isNumeralChar h] at hd
  obtain ⟨p, hp, hd⟩ := Option.bind_eq_some_iff.mp hd
  rw [double?_of_isNumeralChar h, hp]
  split at hd
  · cases hd
    rfl
  · cases hd

end

/-! ### Integers -/

theorem sign_digits (n : Nat) : sign (Text.digits n) = (false, Text.digits n) := by
  unfold sign
  split
  · rename_i heq
    exact absurd (isDigit_of_mem_digits (heq ▸ List.mem_cons_self)) (by decide)
  · rename_i heq
    exact absurd (isDigit_of_mem_digits (heq ▸ List.mem_cons_self)) (by decide)
  · rfl

theorem toList_ofInt (n : Int) :
    (Text.ofInt n).toList = if n < 0 then '-' :: Text.digits n.natAbs else Text.digits n.natAbs := by
  unfold Text.ofInt Text.ofNat
  split
  · rw [String.toList_append, String.toList_ofList, String.toList_ofList]
    exact List.singleton_append
  · exact String.toList_ofList

theorem isNumeralChar_of_mem_ofInt {n : Int} {c : Char} (h : c ∈ (Text.ofInt n).toList) :
    IsNumeralChar c := by
  rw [toList_ofInt] at h
  split at h
  · rcases List.mem_cons.mp h with rfl | h
    · exact .inr (.inr (.inr (.inr rfl)))
    · exact .inl (isDigit_of_mem_digits h)
  · exact .inl (isDigit_of_mem_digits h)

theorem sign_ofInt (n : Int) :
    sign (Text.ofInt n).toList = (decide (n < 0), Text.digits n.natAbs) := by
  rw [toList_ofInt]
  split
  · rename_i hn
    rw [decide_eq_true hn]
    rfl
  · rename_i hn
    rw [decide_eq_false hn, sign_digits]

/-- **An integer is read back from its text**, unless it is too long. -/
theorem int?_ofInt {n : Int} (hn : (Text.digits n.natAbs).length ≤ maxIntDigits) :
    int? (Text.ofInt n).toList = some n := by
  have hdigits : ∀ c ∈ Text.digits n.natAbs, c.isDigit := fun c hc => isDigit_of_mem_digits hc
  have hdrop : dropUnderscores none (Text.digits n.natAbs) = some (Text.digits n.natAbs) :=
    dropUnderscores_of_isNumeralChar (fun c hc => .inl (hdigits c hc)) (by simp)
  have hempty : (Text.digits n.natAbs).isEmpty = false := by
    rw [List.isEmpty_eq_false_iff]
    exact Nat.toDigits_ne_nil
  have hgood : ((Text.digits n.natAbs).isEmpty || !(Text.digits n.natAbs).all Char.isDigit ||
      decide (maxIntDigits < (Text.digits n.natAbs).length)) = false := by
    rw [hempty, List.all_eq_true.mpr hdigits, decide_eq_false (by omega)]
    rfl
  unfold int?
  rw [plain_of_isNumeralChar fun c hc => isNumeralChar_of_mem_ofInt hc, sign_ofInt]
  dsimp only
  rw [hdrop]
  show (if _ then _ else _) = _
  rw [hgood, valueOf_digits]
  split
  · rename_i h
    cases h
  · refine congrArg some ?_
    split
    · rename_i hneg
      have := of_decide_eq_true hneg
      omega
    · rename_i hneg
      have := of_decide_eq_false (Bool.not_eq_true _ ▸ hneg)
      omega

theorem ofInt_natCast (n : Nat) : (Text.ofInt n).toList = Text.digits n := by
  rw [toList_ofInt, if_neg (by omega), Int.natAbs_natCast]

/-- A natural number is read back from its digits, unless they are too many. -/
theorem int?_digits {n : Nat} (hn : (Text.digits n).length ≤ maxIntDigits) :
    int? (Text.digits n) = some (n : Int) := by
  rw [← ofInt_natCast]
  exact int?_ofInt (by simpa using hn)

/-- The digits of an integer are the parts of a numeral. -/
theorem parts?_digits (n : Nat) : (parts? (Text.digits n)).isSome := by
  have hdigits : ∀ c ∈ Text.digits n, c.isDigit := fun c hc => isDigit_of_mem_digits hc
  have htake : (Text.digits n).takeWhile Char.isDigit = Text.digits n :=
    List.takeWhile_eq_self_iff.mpr hdigits
  have hdrop : (Text.digits n).dropWhile Char.isDigit = [] :=
    List.dropWhile_eq_nil_iff.mpr hdigits
  have hempty : (Text.digits n).isEmpty = false := by
    rw [List.isEmpty_eq_false_iff]
    exact Nat.toDigits_ne_nil
  unfold parts?
  dsimp only
  rw [htake, hdrop, hempty]
  rfl

end Numeral

/-! ### Doubles -/

namespace Double

open Numeral

/-- The double is a number. -/
def IsFinite : Double → Prop
  | .finite .. => True
  | _ => False

/-- If the double is a number, it is read back from its text. -/
def IsLegible (d : Double) : Prop :=
  d.IsFinite → double? d.text.toList = some d

theorem mem_text_positional {ds : List Char} (hds : ∀ c ∈ ds, c.isDigit) (whole : Int) :
    (∀ c ∈ (positional ds whole).toList, IsNumeralChar c) ∧ '.' ∈ (positional ds whole).toList := by
  have hzero : ∀ {k : Nat} {c : Char}, c ∈ List.replicate k '0' → IsNumeralChar c := by
    intro k c hc
    rw [List.eq_of_mem_replicate hc]
    exact .inl rfl
  unfold positional
  split
  · rw [String.toList_ofList]
    refine ⟨fun c hc => ?_, by simp⟩
    simp only [List.mem_append] at hc
    rcases hc with (hc | hc) | hc
    · rcases List.mem_cons.mp hc with rfl | hc
      · exact .inl rfl
      · exact .inr (.inl (List.mem_singleton.mp hc))
    · exact hzero hc
    · exact .inl (hds c hc)
  · dsimp only
    rw [String.toList_ofList]
    refine ⟨fun c hc => ?_, by simp⟩
    simp only [List.mem_append] at hc
    rcases hc with ((hc | hc) | hc) | hc
    · exact .inl (hds c (List.mem_of_mem_take hc))
    · exact hzero hc
    · exact .inr (.inl (List.mem_singleton.mp hc))
    · split at hc
      · rw [List.mem_singleton.mp hc]
        exact .inl rfl
      · exact .inl (hds c (List.mem_of_mem_drop hc))

theorem mem_text_scientific {ds : List Char} (hds : ∀ c ∈ ds, c.isDigit) (e : Int) :
    (∀ c ∈ (scientific ds e).toList, IsNumeralChar c) ∧ 'e' ∈ (scientific ds e).toList := by
  have hexponent : ∀ {n : Nat} {c : Char}, c ∈ (Text.padded 2 n).toList → IsNumeralChar c := by
    intro n c hc
    unfold Text.padded at hc
    rw [String.toList_ofList] at hc
    rcases List.mem_append.mp hc with hc | hc
    · rw [List.eq_of_mem_replicate hc]
      exact .inl rfl
    · exact .inl (isDigit_of_mem_digits hc)
  unfold scientific
  dsimp only
  simp only [String.toList_append, String.toList_ofList, List.mem_append]
  refine ⟨?_, .inl (.inl (.inr (List.mem_singleton.mpr rfl)))⟩
  rintro c (((((hc | hc) | hc) | hc) | hc) | hc)
  · exact .inl (hds c (List.mem_of_mem_take hc))
  · split at hc
    · cases hc
    · exact .inr (.inl (List.mem_singleton.mp hc))
  · exact .inl (hds c (List.mem_of_mem_drop hc))
  · exact .inr (.inr (.inl (List.mem_singleton.mp hc)))
  · split at hc
    · exact .inr (.inr (.inr (.inr (List.mem_singleton.mp hc))))
    · exact .inr (.inr (.inr (.inl (List.mem_singleton.mp hc))))
  · exact hexponent hc

/-- **A finite double is written with the characters of numerals**, and with a point or an exponent. -/
theorem mem_text {d : Double} (hd : d.IsFinite) :
    (∀ c ∈ d.text.toList, IsNumeralChar c) ∧ ('.' ∈ d.text.toList ∨ 'e' ∈ d.text.toList) := by
  have hnegative : ∀ {s : String} {negative : Bool},
      (∀ c ∈ s.toList, IsNumeralChar c) ∧ ('.' ∈ s.toList ∨ 'e' ∈ s.toList) →
        (∀ c ∈ (if negative then "-" ++ s else s).toList, IsNumeralChar c) ∧
          ('.' ∈ (if negative then "-" ++ s else s).toList ∨
            'e' ∈ (if negative then "-" ++ s else s).toList) := by
    rintro s (- | -) ⟨hs, hmark⟩
    · exact ⟨hs, hmark⟩
    · rw [if_pos rfl, String.toList_append]
      refine ⟨fun c hc => ?_, hmark.imp (List.mem_append_right _) (List.mem_append_right _)⟩
      rcases List.mem_append.mp hc with hc | hc
      · exact .inr (.inr (.inr (.inr (List.mem_singleton.mp hc))))
      · exact hs c hc
  cases d with
  | finite negative m e =>
    unfold text
    dsimp only
    refine hnegative ?_
    split
    · have hzero : "0.0".toList = ['0', '.', '0'] := by decide
      rw [hzero]
      refine ⟨fun c hc => ?_, .inl (by decide)⟩
      rcases hc with - | ⟨_, - | ⟨_, - | ⟨_, hc⟩⟩⟩
      · exact .inl rfl
      · exact .inr (.inl rfl)
      · exact .inl rfl
      · cases hc
    · have hds : ∀ c ∈ Text.digits (shortest m e).1, c.isDigit := fun c hc => isDigit_of_mem_digits hc
      split
      · obtain ⟨hchars, hmark⟩ := mem_text_positional hds _
        exact ⟨hchars, .inl hmark⟩
      · obtain ⟨hchars, hmark⟩ := mem_text_scientific hds _
        exact ⟨hchars, .inr hmark⟩
  | nan => exact hd.elim
  | infinite => exact hd.elim

/-! The doubles that are written in other ways, as decimal numbers. -/

theorem decimal?_text_nan (origin : Nat) :
    decimal? (nan origin).text.toList = some (.nan false false 0 0) := by
  have htext : (nan origin).text = "nan" := rfl
  rw [htext]
  decide

theorem decimal?_text_infinite (negative : Bool) :
    decimal? (infinite negative).text.toList = some (.infinite negative) := by
  cases negative <;> decide

theorem decimal?_text_zero (negative : Bool) (e : Int) :
    decimal? (finite negative 0 e).text.toList = some (.finite negative 0 (-1)) := by
  have htext : (finite negative 0 e).text = if negative then "-0.0" else "0.0" := by
    cases negative <;> rfl
  rw [htext]
  cases negative <;> decide

/-- The decimal number of the text of a double takes part in comparisons. -/
theorem not_isSignalling_of_decimal? {x : Double} {d : Decimal}
    (h : decimal? x.text.toList = some d) : d.isSignalling = false := by
  cases x with
  | nan origin =>
    cases Option.some.inj (h.symm.trans (decimal?_text_nan origin))
    rfl
  | infinite negative =>
    cases Option.some.inj (h.symm.trans (decimal?_text_infinite negative))
    rfl
  | finite negative m e =>
    rw [decimal?_of_isNumeralChar (mem_text (d := .finite negative m e) trivial).1] at h
    obtain ⟨p, -, h⟩ := Option.bind_eq_some_iff.mp h
    split at h
    · cases h
      rfl
    · cases h

end Double

end RecordFilter
