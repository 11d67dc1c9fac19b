import Mathlib.Algebra.Order.Field.Rat
import Mathlib.Algebra.Order.Field.Power
import Mathlib.Data.Option.NAry
import Mathlib.Order.WithBot
import RecordFilter.Number.Compare

/-!
# The order of numbers is that of their values

A number that is a number has a value: a rational number, or one of the two infinities
(`Number.value?`). Numbers of all kinds are compared by these values (`Number.order?_eq`), although
no value is ever computed: two decimal numbers are compared by the place of their leading digits
first, and only numbers of like size are brought to one exponent (`Decimal.compareMagnitude_eq`).
Two numbers have no order exactly when one of them is not a number.
-/

namespace RecordFilter

/-- The values of numbers: the rational numbers, between the two infinities. -/
abbrev Extended := WithBot (WithTop ℚ)

namespace Extended

/-- A rational number as the value of a number. -/
def ofRat (q : ℚ) : Extended := ((q : WithTop ℚ) : WithBot (WithTop ℚ))

/-- An infinity with a sign. -/
def infinite (negative : Bool) : Extended := if negative then ⊥ else ⊤

/-- A rational number with a sign. -/
def signed (negative : Bool) (magnitude : ℚ) : Extended :=
  ofRat (if negative then -magnitude else magnitude)

theorem compare_ofRat (p q : ℚ) : compare (ofRat p) (ofRat q) = compare p q := by
  have hmono : StrictMono ofRat := fun p q h => by
    simpa [ofRat] using h
  rw [← cmp_eq_compare, ← cmp_eq_compare]
  exact hmono.cmp_map_eq p q

theorem bot_lt_ofRat (q : ℚ) : (⊥ : Extended) < ofRat q :=
  WithBot.bot_lt_coe _

theorem ofRat_lt_top (q : ℚ) : ofRat q < (⊤ : Extended) :=
  WithBot.coe_lt_coe.mpr (WithTop.coe_lt_top q)

end Extended

/-- The value of a number that is one. -/
def Decimal.value? : Decimal → Option Extended
  | .finite negative c e => some (.signed negative (c * 10 ^ e))
  | .infinite negative => some (.infinite negative)
  | .nan .. => none

/-- The value of a number that is one. -/
def Number.value? : Number → Option Extended
  | .int n => some (.ofRat n)
  | .double (.finite negative m e) => some (.signed negative (m * 2 ^ e))
  | .double (.infinite negative) => some (.infinite negative)
  | .double (.nan _) => none
  | .decimal d => d.value?

/-! ### Rational numbers -/

theorem compare_natCast (m n : Nat) : compare (m : ℚ) (n : ℚ) = compare m n := by
  rw [← cmp_eq_compare, ← cmp_eq_compare]
  exact Nat.strictMono_cast.cmp_map_eq m n

theorem compare_mul_right {k : ℚ} (hk : 0 < k) (p q : ℚ) :
    compare (p * k) (q * k) = compare p q := by
  rw [← cmp_eq_compare, ← cmp_eq_compare]
  exact StrictMono.cmp_map_eq (fun _ _ h => mul_lt_mul_of_pos_right h hk) p q

theorem compare_neg_neg (p q : ℚ) : compare (-p) (-q) = compare q p := by
  rw [← cmp_eq_compare, ← cmp_eq_compare, ← cmp_swap p q, ← cmp_swap (-q) (-p)]
  have hmono : StrictMono fun r : ℚᵒᵈ => (-OrderDual.ofDual r : ℚ) := fun _ _ h => neg_lt_neg h
  exact congrArg Ordering.swap (hmono.cmp_map_eq (OrderDual.toDual q) (OrderDual.toDual p))

namespace Decimal

/-! ### Sizes -/

theorem ten_zpow_pos (e : Int) : (0 : ℚ) < 10 ^ e :=
  zpow_pos (by norm_num) e

theorem pow_leading_le {c : Nat} (hc : c ≠ 0) (e : Int) : (10 : ℚ) ^ leading c e ≤ c * 10 ^ e := by
  have hpos : 0 < (Text.digits c).length := Nat.length_toDigits_pos
  -- A coefficient of more digits than `k` is not below `10 ^ k`.
  have hdigits : 10 ^ ((Text.digits c).length - 1) ≤ c := by
    rcases Nat.eq_zero_or_pos ((Text.digits c).length - 1) with hone | hmore
    · rw [hone]
      exact Nat.one_le_iff_ne_zero.mpr hc
    · by_contra hlt
      have hle := (Nat.length_toDigits_le_iff (by decide) hmore).mpr (Nat.lt_of_not_le hlt)
      exact absurd hle (Nat.not_le.mpr (Nat.sub_lt hpos (by decide)))
  have hplace : leading c e = ((Text.digits c).length - 1 : Nat) + e := by
    unfold leading
    omega
  rw [hplace, zpow_add₀ (by decide), zpow_natCast]
  exact mul_le_mul_of_nonneg_right (by exact_mod_cast hdigits) (ten_zpow_pos e).le

theorem lt_pow_leading (c : Nat) (e : Int) : (c : ℚ) * 10 ^ e < 10 ^ (leading c e + 1) := by
  have hdigits : c < 10 ^ (Text.digits c).length :=
    (Nat.length_toDigits_le_iff (by decide) Nat.length_toDigits_pos).mp (Nat.le_refl _)
  have hplace : leading c e + 1 = ((Text.digits c).length : Nat) + e := by
    unfold leading
    omega
  rw [hplace, zpow_add₀ (by decide), zpow_natCast]
  exact mul_lt_mul_of_pos_right (by exact_mod_cast hdigits) (ten_zpow_pos e)

/-- A number of which the leading digit stands further to the right is the smaller one. -/
theorem lt_of_leading_lt {c₁ c₂ : Nat} {e₁ e₂ : Int} (hc : c₂ ≠ 0)
    (h : leading c₁ e₁ < leading c₂ e₂) : (c₁ : ℚ) * 10 ^ e₁ < c₂ * 10 ^ e₂ :=
  calc (c₁ : ℚ) * 10 ^ e₁ < 10 ^ (leading c₁ e₁ + 1) := lt_pow_leading c₁ e₁
    _ ≤ 10 ^ leading c₂ e₂ := zpow_le_zpow_right₀ (by decide) h
    _ ≤ c₂ * 10 ^ e₂ := pow_leading_le hc e₂

/-- A coefficient brought to a smaller exponent. -/
theorem cast_mul_pow {e₁ e₂ : Int} (h : e₁ ≤ e₂) (c : Nat) :
    ((c * 10 ^ (e₂ - e₁).toNat : Nat) : ℚ) * 10 ^ e₁ = c * 10 ^ e₂ := by
  have hexp : e₂ = ((e₂ - e₁).toNat : Int) + e₁ := by omega
  conv_rhs => rw [hexp, zpow_add₀ (by decide), zpow_natCast, ← mul_assoc]
  push_cast
  rfl

/-! ### The order of decimal numbers -/

theorem compareMagnitude_eq (c₁ : Nat) (e₁ : Int) (c₂ : Nat) (e₂ : Int) :
    compareMagnitude c₁ e₁ c₂ e₂ = compare ((c₁ : ℚ) * 10 ^ e₁) (c₂ * 10 ^ e₂) := by
  unfold compareMagnitude
  split
  case isTrue hzero =>
    rcases Nat.eq_zero_or_pos c₁ with rfl | h₁
    · rcases Nat.eq_zero_or_pos c₂ with rfl | h₂
      · simp
      · have hpos : (0 : ℚ) < c₂ * 10 ^ e₂ := mul_pos (by exact_mod_cast h₂) (ten_zpow_pos e₂)
        rw [compare_lt_iff_lt.mpr h₂, compare_lt_iff_lt.mpr (by simpa using hpos)]
    · obtain rfl : c₂ = 0 := by simpa [Nat.ne_of_gt h₁] using hzero
      have hpos : (0 : ℚ) < c₁ * 10 ^ e₁ := mul_pos (by exact_mod_cast h₁) (ten_zpow_pos e₁)
      rw [compare_gt_iff_gt.mpr h₁, compare_gt_iff_gt.mpr (by simpa using hpos)]
  case isFalse hzero =>
    obtain ⟨h₁, h₂⟩ : c₁ ≠ 0 ∧ c₂ ≠ 0 := by simpa using hzero
    split
    case h_1 heq =>
      split
      case isTrue hle =>
        rw [← cast_mul_pow hle, compare_mul_right (ten_zpow_pos e₁), compare_natCast]
        rfl
      case isFalse hle =>
        rw [← cast_mul_pow (Int.le_of_lt (Int.not_le.mp hle)), compare_mul_right (ten_zpow_pos e₂),
          compare_natCast]
        rfl
    case h_2 hne =>
      rcases lt_trichotomy (leading c₁ e₁) (leading c₂ e₂) with h | h | h
      · rw [compare_lt_iff_lt.mpr h, compare_lt_iff_lt.mpr (lt_of_leading_lt h₂ h)]
      · exact absurd (compare_eq_iff_eq.mpr h) hne
      · rw [compare_gt_iff_gt.mpr h, compare_gt_iff_gt.mpr (lt_of_leading_lt h₁ h)]

theorem compareFinite_eq (n₁ : Bool) (c₁ : Nat) (e₁ : Int) (n₂ : Bool) (c₂ : Nat) (e₂ : Int) :
    compareFinite n₁ c₁ e₁ n₂ c₂ e₂ =
      compare (Extended.signed n₁ (c₁ * 10 ^ e₁)) (.signed n₂ (c₂ * 10 ^ e₂)) := by
  -- A zero counts as positive, whatever its sign is.
  have hsign : ∀ (n : Bool) (c : Nat) (e : Int),
      (if n then -((c : ℚ) * 10 ^ e) else c * 10 ^ e) =
        if n && c != 0 then -((c : ℚ) * 10 ^ e) else c * 10 ^ e := by
    intro n c e
    rcases Nat.eq_zero_or_pos c with rfl | hc
    · simp
    · simp [Nat.ne_of_gt hc]
  have hnonneg : ∀ (c : Nat) (e : Int), 0 ≤ (c : ℚ) * 10 ^ e := fun c e =>
    mul_nonneg c.cast_nonneg (ten_zpow_pos e).le
  have hpos : ∀ {n : Bool} {c : Nat} (e : Int), (n && c != 0) = true → 0 < (c : ℚ) * 10 ^ e := by
    intro n c e h
    have hc : c ≠ 0 := bne_iff_ne.mp (Bool.and_eq_true_iff.mp h).2
    exact mul_pos (by exact_mod_cast Nat.pos_of_ne_zero hc) (ten_zpow_pos e)
  rw [Extended.signed, Extended.signed, Extended.compare_ofRat, hsign n₁, hsign n₂, compareFinite]
  rcases h₁ : n₁ && c₁ != 0 <;> rcases h₂ : n₂ && c₂ != 0
  · exact compareMagnitude_eq c₁ e₁ c₂ e₂
  · refine (compare_gt_iff_gt.mpr ?_).symm
    exact (neg_neg_of_pos (hpos e₂ h₂)).trans_le (hnonneg c₁ e₁)
  · refine (compare_lt_iff_lt.mpr ?_).symm
    exact (neg_neg_of_pos (hpos e₁ h₁)).trans_le (hnonneg c₂ e₂)
  · exact (compareMagnitude_eq c₂ e₂ c₁ e₁).trans (compare_neg_neg _ _).symm

/-- **Decimal numbers are compared by their values.** -/
theorem compare?_eq (a b : Decimal) : a.compare? b = Option.map₂ compare a.value? b.value? := by
  rcases a with ⟨n₁, c₁, e₁⟩ | n₁ | - <;> rcases b with ⟨n₂, c₂, e₂⟩ | n₂ | -
  · exact congrArg some (compareFinite_eq n₁ c₁ e₁ n₂ c₂ e₂)
  · cases n₂
    · exact congrArg some (compare_lt_iff_lt.mpr (Extended.ofRat_lt_top _)).symm
    · exact congrArg some (compare_gt_iff_gt.mpr (Extended.bot_lt_ofRat _)).symm
  · rfl
  · cases n₁
    · exact congrArg some (compare_gt_iff_gt.mpr (Extended.ofRat_lt_top _)).symm
    · exact congrArg some (compare_lt_iff_lt.mpr (Extended.bot_lt_ofRat _)).symm
  · cases n₁ <;> cases n₂ <;> decide
  all_goals rfl

end Decimal

namespace Number

theorem value?_ofDouble (d : Double) : (Decimal.ofDouble d).value? = (Number.double d).value? := by
  rcases d with - | n | ⟨n, m, e⟩
  · rfl
  · rfl
  · rw [Decimal.ofDouble]
    split
    case isTrue hneg =>
      have hexp : e = -(e.natAbs : Int) := by omega
      have hvalue : ((m * Nat.pow 5 e.natAbs : Nat) : ℚ) * 10 ^ e = m * 2 ^ e := by
        generalize e.natAbs = k at hexp
        subst hexp
        have hten : (10 : ℚ) = 5 * 2 := by norm_num
        rw [zpow_neg, zpow_neg, zpow_natCast, zpow_natCast, hten, mul_pow, mul_inv, Nat.pow_eq,
          Nat.cast_mul, Nat.cast_pow, mul_assoc, ← mul_assoc ((5 : ℕ) ^ k : ℚ)]
        rw [Nat.cast_ofNat, mul_inv_cancel₀ (pow_ne_zero k (by norm_num)), one_mul]
      exact congrArg (fun q => some (Extended.signed n q)) hvalue
    case isFalse hnonneg =>
      have hexp : e = (e.natAbs : Int) := by omega
      have hvalue : ((m * Nat.pow 2 e.natAbs : Nat) : ℚ) * 10 ^ (0 : Int) = m * 2 ^ e := by
        generalize e.natAbs = k at hexp
        subst hexp
        simp
      exact congrArg (fun q => some (Extended.signed n q)) hvalue

/-- A number has the value of its exact decimal form. -/
theorem value?_exact (n : Number) : n.exact.value? = n.value? := by
  cases n with
  | int n =>
    have hvalue : (if decide (n < 0) then -((n.natAbs : ℚ) * 10 ^ (0 : Int))
        else (n.natAbs : ℚ) * 10 ^ (0 : Int)) = n := by
      rw [zpow_zero, mul_one, Nat.cast_natAbs]
      rcases Int.lt_or_le n 0 with hneg | hnonneg
      · rw [if_pos (by simpa using hneg), abs_of_neg hneg, Int.cast_neg, neg_neg]
      · rw [if_neg (by simpa using hnonneg), abs_of_nonneg hnonneg]
    exact congrArg (fun q => some (Extended.ofRat q)) hvalue
  | double d => exact value?_ofDouble d
  | decimal => rfl

/-- **Numbers of all kinds are compared by their values.** -/
theorem order?_eq (a b : Number) : order? a b = Option.map₂ compare a.value? b.value? := by
  unfold order?
  split
  case h_1 m n =>
    rw [value?, value?, Option.map₂_some_some, Extended.compare_ofRat, ← cmp_eq_compare,
      ← cmp_eq_compare, Int.cast_strictMono.cmp_map_eq]
  case h_2 => rw [Decimal.compare?_eq, value?_exact, value?_exact]

theorem order?_of_value? {a b : Number} {x y : Extended} (hx : a.value? = some x)
    (hy : b.value? = some y) : order? a b = some (compare x y) := by
  rw [order?_eq, hx, hy, Option.map₂_some_some]

end Number

end RecordFilter
