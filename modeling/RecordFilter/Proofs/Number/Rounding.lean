import Mathlib.Algebra.Order.Floor.Semifield
import Mathlib.Data.Int.Log
import Mathlib.Data.Rat.Floor
import Mathlib.Tactic.FieldSimp
import Mathlib.Tactic.Linarith
import Mathlib.Tactic.Ring
import RecordFilter.Proofs.Number.Order
import RecordFilter.Proofs.Number.Written

/-!
# Rounding depends on values alone

The double nearest to a fraction is a function of the value of the fraction (`Double.ofRatio_eq`), and
it has the largest mantissa that its value admits (`Double.isNormal_ofRatio`). So decimal numbers of one
value become doubles of one value (`Decimal.value?_toDouble_congr`), and doubles of one value that come
from decimal numbers are one and the same, but for the sign of zero (`Double.IsNormal.eq_of_value?`).

A double is therefore equal to a decimal number that is a double as well if and only if the decimal
number of its text is (`Double.value?_eq_iff_of_decimal?`).
-/

namespace RecordFilter

namespace Double

/-! ### Places -/

/-- The whole part of a number, and whether the rest is below, at or above one half. -/
def cut (x : ℚ) : Nat × Ordering :=
  (⌊x⌋₊, compare (2 * (x - ⌊x⌋₊)) 1)

theorem cut_div (n : Nat) {d : Nat} (hd : d ≠ 0) :
    cut ((n : ℚ) / d) = (n / d, compare (2 * (n % d)) d) := by
  have hpos : (0 : ℚ) < d := Nat.cast_pos.mpr (Nat.pos_of_ne_zero hd)
  have hrest : (2 * ((n : ℚ) / d - (n / d : Nat))) * d = (2 * (n % d) : Nat) := by
    have hsum : ((d * (n / d) + n % d : Nat) : ℚ) = n := by rw [Nat.div_add_mod]
    push_cast at hsum ⊢
    field_simp
    linarith
  rw [cut, Nat.floor_div_eq_div, ← compare_mul_right hpos, hrest, one_mul, compare_natCast]

theorem cutAt_eq (num : Nat) {den : Nat} (hden : den ≠ 0) (e : Int) :
    cutAt num den e = cut ((num : ℚ) / den / 2 ^ e) := by
  unfold cutAt
  split
  case isTrue hneg =>
    have hexp : e = -(e.natAbs : Int) := by omega
    have hvalue : (num : ℚ) / den / 2 ^ e = (num * Nat.pow 2 e.natAbs : Nat) / den := by
      generalize e.natAbs = k at hexp
      subst hexp
      rw [zpow_neg, zpow_natCast, div_inv_eq_mul, Nat.pow_eq]
      push_cast
      ring
    rw [hvalue, cut_div _ hden]
  case isFalse hnonneg =>
    have hexp : e = (e.natAbs : Int) := by omega
    have hvalue : (num : ℚ) / den / 2 ^ e = num / (den * Nat.pow 2 e.natAbs : Nat) := by
      generalize e.natAbs = k at hexp
      subst hexp
      rw [zpow_natCast, div_div, Nat.pow_eq]
      push_cast
      rfl
    have hne : den * Nat.pow 2 e.natAbs ≠ 0 := Nat.mul_ne_zero hden (by simp)
    rw [hvalue, cut_div _ hne]

theorem cut_lt_iff {x : ℚ} (hx : 0 ≤ x) (n : Nat) : (cut x).1 < n ↔ x < n :=
  Nat.floor_lt hx

theorem div_zpow_lt_iff (q : ℚ) (e k : Int) : q / 2 ^ e < 2 ^ k ↔ q < 2 ^ (k + e) := by
  rw [div_lt_iff₀ (zpow_pos (by norm_num) e), zpow_add₀ (by norm_num)]

/-- The place at which a number is cut off: its mantissa has 53 bits there, unless it is too small. -/
def place (q : ℚ) : Int :=
  max (Int.log 2 q - 52) minExponent

theorem log_div_bounds {num den : Nat} (hnum : num ≠ 0) (hden : den ≠ 0) :
    (num.log2 : Int) - den.log2 - 1 ≤ Int.log 2 ((num : ℚ) / den) ∧
      Int.log 2 ((num : ℚ) / den) < (num.log2 : Int) - den.log2 + 1 := by
  have hnumPos : (0 : ℚ) < num := Nat.cast_pos.mpr (Nat.pos_of_ne_zero hnum)
  have hdenPos : (0 : ℚ) < den := Nat.cast_pos.mpr (Nat.pos_of_ne_zero hden)
  have hlow : ∀ {n : Nat}, n ≠ 0 → (2 : ℚ) ^ (n.log2 : Int) ≤ n := by
    intro n hn
    rw [zpow_natCast]
    exact_mod_cast Nat.log2_self_le hn
  have hhigh : ∀ n : Nat, (n : ℚ) < 2 ^ ((n.log2 : Int) + 1) := by
    intro n
    have h : n < 2 ^ (n.log2 + 1) := Nat.lt_log2_self
    exact_mod_cast h
  constructor
  · rw [← Int.zpow_le_iff_le_log (by decide) (div_pos hnumPos hdenPos), le_div_iff₀ hdenPos]
    calc (2 : ℚ) ^ ((num.log2 : Int) - den.log2 - 1) * den
        ≤ 2 ^ ((num.log2 : Int) - den.log2 - 1) * 2 ^ ((den.log2 : Int) + 1) :=
          mul_le_mul_of_nonneg_left (hhigh den).le (zpow_pos (by norm_num) _).le
      _ = 2 ^ (num.log2 : Int) := by rw [← zpow_add₀ (by norm_num)]; congr 1; omega
      _ ≤ num := hlow hnum
  · rw [← Int.lt_zpow_iff_log_lt (by decide) (div_pos hnumPos hdenPos), div_lt_iff₀ hdenPos]
    calc (num : ℚ) < 2 ^ ((num.log2 : Int) + 1) := hhigh num
      _ = 2 ^ ((num.log2 : Int) - den.log2 + 1) * 2 ^ (den.log2 : Int) := by
          rw [← zpow_add₀ (by norm_num)]; congr 1; omega
      _ ≤ 2 ^ ((num.log2 : Int) - den.log2 + 1) * den :=
          mul_le_mul_of_nonneg_left (hlow hden) (zpow_pos (by norm_num) _).le

theorem placeOf_eq {num den : Nat} (hnum : num ≠ 0) (hden : den ≠ 0) :
    placeOf num den = place ((num : ℚ) / den) := by
  have hpos : (0 : ℚ) < num / den :=
    div_pos (Nat.cast_pos.mpr (Nat.pos_of_ne_zero hnum)) (Nat.cast_pos.mpr (Nat.pos_of_ne_zero hden))
  obtain ⟨hlow, hhigh⟩ := log_div_bounds hnum hden
  have hsmall : (cutAt num den ((num.log2 : Int) - den.log2 - 52)).1 < Nat.pow 2 52 ↔
      Int.log 2 ((num : ℚ) / den) < (num.log2 : Int) - den.log2 := by
    rw [cutAt_eq num hden, cut_lt_iff (div_nonneg hpos.le (zpow_pos (by norm_num) _).le),
      ← Int.lt_zpow_iff_log_lt (by decide) hpos]
    have hlimit : ((Nat.pow 2 52 : Nat) : ℚ) = 2 ^ (52 : Int) := by norm_num
    have hplace : 52 + ((num.log2 : Int) - den.log2 - 52) = (num.log2 : Int) - den.log2 := by omega
    rw [hlimit, div_zpow_lt_iff, hplace, Nat.cast_ofNat]
  unfold placeOf place
  dsimp only
  split
  · rename_i h
    rw [hsmall] at h
    congr 1
    omega
  · rename_i h
    rw [hsmall] at h
    congr 1
    omega

/-! ### Rounding -/

/-- The double nearest to a positive number, with a sign. -/
def rounded (negative : Bool) (x : ℚ) : Double :=
  let (n, rest) := cut (x / 2 ^ place x)
  let n := if rest = .gt || (rest = .eq && n % 2 = 1) then n + 1 else n
  let (n, e) := if n = Nat.pow 2 53 then (Nat.pow 2 52, place x + 1) else (n, place x)
  if maxExponent < e then .infinite negative else .finite negative n e

theorem ofRatio_eq {num den : Nat} (hnum : num ≠ 0) (hden : den ≠ 0) (negative : Bool) :
    ofRatio negative num den = rounded negative ((num : ℚ) / den) := by
  unfold ofRatio
  rw [if_neg hnum, placeOf_eq hnum hden]
  dsimp only
  rw [cutAt_eq num hden]
  rfl

/-- The mantissa of a finite number is the largest one that its value admits. -/
def IsNormal : Double → Prop
  | .finite _ m e => m < 2 ^ 53 ∧ minExponent ≤ e ∧ (2 ^ 52 ≤ m ∨ e = minExponent)
  | _ => True

theorem isNormal_zero (negative : Bool) : (zero negative).IsNormal :=
  ⟨by decide, Int.le_refl _, .inr rfl⟩

theorem isNormal_rounded (negative : Bool) {x : ℚ} (hx : 0 < x) : (rounded negative x).IsNormal := by
  have hnonneg : 0 ≤ x / 2 ^ place x := div_nonneg hx.le (zpow_pos (by norm_num) _).le
  have hlog : Int.log 2 x ≤ place x + 52 := by
    have := le_max_left (Int.log 2 x - 52) minExponent
    unfold place
    omega
  -- The number that is cut off is below `2 ^ 53`, and it is not below `2 ^ 52` at a place of its own.
  have hcut : (cut (x / 2 ^ place x)).1 < 2 ^ 53 := by
    have hlimit : ((2 ^ 53 : Nat) : ℚ) = 2 ^ (53 : Int) := by norm_num
    rw [cut_lt_iff hnonneg, hlimit, div_zpow_lt_iff]
    have h := (Int.lt_zpow_iff_log_lt (b := 2) (by decide) (x := 53 + place x) hx).mpr (by omega)
    exact_mod_cast h
  have hlarge : 2 ^ 52 ≤ (cut (x / 2 ^ place x)).1 ∨ place x = minExponent := by
    rcases max_choice (Int.log 2 x - 52) minExponent with hown | hleast
    · refine .inl (Nat.le_of_not_lt fun hlt => ?_)
      have hlimit : ((2 ^ 52 : Nat) : ℚ) = 2 ^ (52 : Int) := by norm_num
      rw [cut_lt_iff hnonneg, hlimit, div_zpow_lt_iff] at hlt
      have h := (Int.lt_zpow_iff_log_lt (b := 2) (by decide) (x := 52 + place x) hx).mp
        (by exact_mod_cast hlt)
      unfold place at h
      omega
    · exact .inr hleast
  have hplace : minExponent ≤ place x := le_max_right _ _
  unfold rounded
  rcases h : cut (x / 2 ^ place x) with ⟨n, rest⟩
  rw [h] at hcut hlarge
  dsimp only at hcut hlarge ⊢
  generalize hup : (if rest = .gt || (rest = .eq && n % 2 = 1) then n + 1 else n) = k
  have hk : n ≤ k ∧ k ≤ n + 1 := by
    rw [← hup]
    split <;> omega
  have hpow : Nat.pow 2 53 = 2 ^ 53 ∧ Nat.pow 2 52 = 2 ^ 52 := ⟨rfl, rfl⟩
  rw [hpow.1, hpow.2]
  by_cases hfull : k = 2 ^ 53
  · rw [if_pos hfull]
    dsimp only
    split
    · trivial
    · exact ⟨by decide, by omega, .inl (Nat.le_refl _)⟩
  · rw [if_neg hfull]
    dsimp only
    split
    · trivial
    · exact ⟨by omega, hplace, hlarge.imp_left fun h => Nat.le_trans h hk.1⟩

theorem isNormal_ofRatio (negative : Bool) (num : Nat) {den : Nat} (hden : den ≠ 0) :
    (ofRatio negative num den).IsNormal := by
  by_cases hnum : num = 0
  · subst hnum
    exact isNormal_zero negative
  · rw [ofRatio_eq hnum hden]
    exact isNormal_rounded negative (div_pos (Nat.cast_pos.mpr (Nat.pos_of_ne_zero hnum))
      (Nat.cast_pos.mpr (Nat.pos_of_ne_zero hden)))

end Double

/-! ### Values with a sign -/

theorem Extended.signed_inj {n n' : Bool} {q q' : ℚ} (hq : 0 ≤ q) (hq' : 0 ≤ q')
    (h : signed n q = signed n' q') : q = q' ∧ (n = n' ∨ q = 0) := by
  have hsame : (if n then -q else q) = if n' then -q' else q' := by
    simpa [signed, ofRat] using h
  cases n <;> cases n'
  · exact ⟨hsame, .inl rfl⟩
  · have hsum : q = -q' := hsame
    have hzero : q = 0 := by linarith
    exact ⟨by linarith, .inr hzero⟩
  · have hsum : -q = q' := hsame
    have hzero : q = 0 := by linarith
    exact ⟨by linarith, .inr hzero⟩
  · exact ⟨neg_injective hsame, .inl rfl⟩

theorem Extended.signed_ne_infinite (n n' : Bool) (q : ℚ) : signed n q ≠ infinite n' := by
  intro h
  cases n'
  · exact (ofRat_lt_top _).ne h
  · exact (bot_lt_ofRat _).ne' h

theorem Double.value?_zero (negative : Bool) :
    (Number.double (zero negative)).value? = some (.ofRat 0) := by
  have hvalue : (Number.double (zero negative)).value? =
      some (.signed negative (((0 : Nat) : ℚ) * 2 ^ minExponent)) := rfl
  rw [hvalue, Nat.cast_zero, zero_mul, Extended.signed, neg_zero, ite_self]

/-- A normal number of one value with another one has no smaller exponent. -/
theorem Double.IsNormal.exponent_le {n n' : Bool} {m m' : Nat} {e e' : Int}
    (hx : (Double.finite n m e).IsNormal) (hy : (Double.finite n' m' e').IsNormal)
    (h : (m : ℚ) * 2 ^ e = m' * 2 ^ e') : e' ≤ e := by
  by_contra hlt
  have hlarge : 2 ^ 52 ≤ m' := hy.2.2.resolve_right (by have := hx.2.1; omega)
  have hexp : e' = ((e' - e).toNat : Int) + e := by omega
  rw [hexp, zpow_add₀ (by norm_num), zpow_natCast, ← mul_assoc] at h
  have hmantissa : m = m' * 2 ^ (e' - e).toNat := by
    exact_mod_cast mul_right_cancel₀ (zpow_ne_zero e (by norm_num)) h
  have hdouble : 2 * m' ≤ m :=
    calc 2 * m' = m' * 2 ^ 1 := by omega
      _ ≤ m' * 2 ^ (e' - e).toNat :=
          Nat.mul_le_mul_left m' (Nat.pow_le_pow_right (by decide) (by omega))
      _ = m := hmantissa.symm
  have := hx.1
  omega

/-- **Doubles of one value are the same**, but for the sign of zero. -/
theorem Double.IsNormal.eq_of_value? {n n' : Bool} {m m' : Nat} {e e' : Int}
    (hx : (Double.finite n m e).IsNormal) (hy : (Double.finite n' m' e').IsNormal)
    (h : (Number.double (.finite n m e)).value? = (Number.double (.finite n' m' e')).value?) :
    m = m' ∧ e = e' ∧ (n = n' ∨ m = 0) := by
  have hpow : ∀ e : Int, (2 : ℚ) ^ e ≠ 0 := fun e => zpow_ne_zero e (by norm_num)
  have hnonneg : ∀ (m : Nat) (e : Int), (0 : ℚ) ≤ m * 2 ^ e := fun m e =>
    mul_nonneg (Nat.cast_nonneg m) (zpow_pos (by norm_num) e).le
  obtain ⟨hvalue, hsign⟩ := Extended.signed_inj (hnonneg m e) (hnonneg m' e') (Option.some.inj h)
  have hexp : e = e' := Int.le_antisymm (hy.exponent_le hx hvalue.symm) (hx.exponent_le hy hvalue)
  subst hexp
  refine ⟨?_, rfl, hsign.imp_right fun hzero => ?_⟩
  · exact_mod_cast mul_right_cancel₀ (hpow e) hvalue
  · exact_mod_cast (mul_eq_zero.mp hzero).resolve_right (hpow e)

/-! ### Decimal numbers -/

namespace Decimal

/-- The absolute value of a decimal number that is not zero tells which double it becomes. -/
theorem toDouble_finite {c : Nat} (hc : c ≠ 0) (negative : Bool) (e : Int) :
    (finite negative c e).toDouble =
      if 400 < Int.log 10 ((c : ℚ) * 10 ^ e) then .infinite negative
      else if Int.log 10 ((c : ℚ) * 10 ^ e) < -400 then Double.zero negative
      else Double.rounded negative (c * 10 ^ e) := by
  have hpos : (0 : ℚ) < c * 10 ^ e :=
    mul_pos (Nat.cast_pos.mpr (Nat.pos_of_ne_zero hc)) (ten_zpow_pos e)
  have hleading : leading c e = Int.log 10 ((c : ℚ) * 10 ^ e) := by
    refine Int.le_antisymm ?_ (Int.lt_add_one_iff.mp ?_)
    · rw [← Int.zpow_le_iff_le_log (by decide) hpos]
      exact_mod_cast pow_leading_le hc e
    · rw [← Int.lt_zpow_iff_log_lt (by decide) hpos]
      exact_mod_cast lt_pow_leading c e
  have hrounded : (if e < 0 then Double.ofRatio negative c (Nat.pow 10 e.natAbs)
      else Double.ofRatio negative (c * Nat.pow 10 e.natAbs) 1) =
        Double.rounded negative (c * 10 ^ e) := by
    split
    case isTrue hneg =>
      have hexp : e = -(e.natAbs : Int) := by omega
      rw [Double.ofRatio_eq hc (by simp)]
      generalize e.natAbs = k at hexp
      subst hexp
      rw [zpow_neg, zpow_natCast, Nat.pow_eq, div_eq_mul_inv]
      push_cast
      rfl
    case isFalse hnonneg =>
      have hexp : e = (e.natAbs : Int) := by omega
      rw [Double.ofRatio_eq (Nat.mul_ne_zero hc (by simp)) one_ne_zero]
      generalize e.natAbs = k at hexp
      subst hexp
      rw [zpow_natCast, Nat.pow_eq, Nat.cast_one, div_one]
      push_cast
      rfl
  unfold toDouble
  dsimp only
  rw [if_neg hc, hleading]
  split
  · rfl
  · split
    · rfl
    · exact hrounded

theorem isNormal_toDouble (d : Decimal) : d.toDouble.IsNormal := by
  rcases d with ⟨n, c, e⟩ | n | -
  · by_cases hc : c = 0
    · subst hc
      exact Double.isNormal_zero n
    · rw [toDouble_finite hc]
      split
      · trivial
      · split
        · exact Double.isNormal_zero n
        · exact Double.isNormal_rounded n
            (mul_pos (Nat.cast_pos.mpr (Nat.pos_of_ne_zero hc)) (ten_zpow_pos e))
  · trivial
  · trivial

/-- **Decimal numbers of one value become doubles of one value.** -/
theorem value?_toDouble_congr {d e : Decimal} (h : d.value? = e.value?) :
    (Number.double d.toDouble).value? = (Number.double e.toDouble).value? := by
  rcases d with ⟨n, c, k⟩ | n | ⟨⟩ <;> rcases e with ⟨n', c', k'⟩ | n' | ⟨⟩
  · have hnonneg : ∀ (c : Nat) (k : Int), (0 : ℚ) ≤ c * 10 ^ k := fun c k =>
      mul_nonneg (Nat.cast_nonneg c) (ten_zpow_pos k).le
    have hzero : ∀ {c : Nat} {k : Int}, (c : ℚ) * 10 ^ k = 0 ↔ c = 0 := fun {c k} => by
      rw [mul_eq_zero, Nat.cast_eq_zero, or_iff_left (ten_zpow_pos k).ne']
    obtain ⟨hvalue, hsign⟩ := Extended.signed_inj (hnonneg c k) (hnonneg c' k') (Option.some.inj h)
    by_cases hc : c = 0
    · have hc' : c' = 0 := hzero.mp (hvalue.symm.trans (hzero.mpr hc))
      subst hc hc'
      exact (Double.value?_zero n).trans (Double.value?_zero n').symm
    · have hc' : c' ≠ 0 := fun h' => hc (hzero.mp (hvalue.trans (hzero.mpr h')))
      have hn : n = n' := hsign.resolve_right fun h' => hc (hzero.mp h')
      rw [toDouble_finite hc, toDouble_finite hc', hvalue, hn]
  · exact absurd (Option.some.inj h) (Extended.signed_ne_infinite n n' _)
  · cases h
  · exact absurd (Option.some.inj h).symm (Extended.signed_ne_infinite n' n _)
  · exact h
  · cases h
  · cases h
  · cases h
  · rfl

end Decimal

/-! ### Decimal numbers of the texts of doubles -/

/-- **A double equals a decimal number if the decimal number of its text does**, where the other decimal
number is the one of the text of a double, and of its value. -/
theorem Double.value?_eq_iff_of_decimal? {x : Double} (hx : x.IsLegible) {d e : Decimal}
    (he : Numeral.decimal? x.text.toList = some e)
    (hd : Numeral.decimal? d.toDouble.text.toList = some d)
    (hvalue : (Number.double d.toDouble).value? = d.value?) :
    e.value? = d.value? ↔ (Number.double x).value? = d.value? := by
  cases x with
  | nan origin =>
    cases Option.some.inj (he.symm.trans (decimal?_text_nan origin))
    exact Iff.rfl
  | infinite n =>
    cases Option.some.inj (he.symm.trans (decimal?_text_infinite n))
    exact Iff.rfl
  | finite n m k =>
    have hdouble : Double.finite n m k = e.toDouble :=
      Option.some.inj ((hx trivial).symm.trans
        (Numeral.double?_of_decimal? (mem_text (d := .finite n m k) trivial).1 he))
    constructor
    · intro h
      rw [hdouble, Decimal.value?_toDouble_congr h, hvalue]
    · intro h
      rw [← hvalue] at h
      have hnormal := Decimal.isNormal_toDouble e
      have hnormal' := Decimal.isNormal_toDouble d
      rw [← hdouble] at hnormal
      rcases hdouble' : d.toDouble with ⟨origin⟩ | n' | ⟨n', m', k'⟩
      all_goals rw [hdouble'] at h hd hnormal'
      · cases h
      · exact absurd (Option.some.inj h) (Extended.signed_ne_infinite n n' _)
      · obtain ⟨rfl, rfl, rfl | rfl⟩ := hnormal.eq_of_value? hnormal' h
        · rw [Option.some.inj (he.symm.trans hd)]
        · -- The two zeros have texts of their own, and one value.
          cases Option.some.inj (he.symm.trans (decimal?_text_zero n k))
          cases Option.some.inj (hd.symm.trans (decimal?_text_zero n' k))
          have hvalue : ∀ n, (Decimal.finite n 0 (-1)).value? = some (.ofRat 0) := by
            intro n
            have hsigned : (Decimal.finite n 0 (-1)).value? =
                some (.signed n (((0 : Nat) : ℚ) * 10 ^ (-1 : Int))) := rfl
            rw [hsigned, Nat.cast_zero, zero_mul, Extended.signed, neg_zero, ite_self]
          rw [hvalue, hvalue]

end RecordFilter
