import RecordFilter.Proofs.Number.Rounding

/-!
# Numbers that are too large for a double

The doubles end at `(2 ^ 53 - 1) * 2 ^ 971`. A number is rounded to infinity from the middle between this
one and the next power of two on (`Double.rounded_eq_infinite_iff`), and a decimal number becomes the
infinite double at the same place (`Decimal.toDouble_eq_infinite_iff`), although most of the large ones
never get to be rounded. So a text is read as an infinite double if and only if it names infinity or
denotes such a number (`Numeral.double?_eq_infinite_iff`).
-/

namespace RecordFilter

namespace Double

/-- The least number that is rounded to infinity: half a place above the greatest double. -/
def overflow : ℚ := (2 ^ 53 - 1 / 2) * 2 ^ maxExponent

/-- The whole number next to a number; of two next ones the even one. -/
def nearest (x : ℚ) : Nat :=
  let (n, rest) := cut x
  if rest = .gt || (rest = .eq && n % 2 = 1) then n + 1 else n

theorem nearest_eq (x : ℚ) : nearest x =
    if 1 < 2 * (x - ⌊x⌋₊) ∨ (2 * (x - ⌊x⌋₊) = 1 ∧ ⌊x⌋₊ % 2 = 1) then ⌊x⌋₊ + 1 else ⌊x⌋₊ := by
  unfold nearest cut
  simp [compare_gt_iff_gt]

/-- A number is rounded up to an even one from the middle on. -/
theorem nearest_eq_succ_iff {x : ℚ} {n : Nat} (hn : n % 2 = 1) (hnonneg : 0 ≤ x) (hx : x < n + 1) :
    nearest x = n + 1 ↔ n + 1 / 2 ≤ x := by
  have hle : ⌊x⌋₊ ≤ n := Nat.lt_succ_iff.mp ((Nat.floor_lt hnonneg).mpr (by exact_mod_cast hx))
  have hlow : (⌊x⌋₊ : ℚ) ≤ x := Nat.floor_le hnonneg
  have hhigh : x < ⌊x⌋₊ + 1 := Nat.lt_floor_add_one x
  rw [nearest_eq]
  rcases Nat.lt_or_eq_of_le hle with hlt | heq
  · have hcast : (⌊x⌋₊ : ℚ) + 1 ≤ n := by exact_mod_cast hlt
    refine iff_of_false ?_ (by linarith)
    split <;> omega
  · rw [heq] at hlow hhigh ⊢
    constructor
    · intro h
      split at h
      · rename_i hup
        rcases hup with hup | ⟨hup, -⟩ <;> linarith
      · omega
    · intro h
      rw [if_pos]
      rcases lt_or_eq_of_le h with h | h
      · exact .inl (by linarith)
      · exact .inr ⟨by linarith, hn⟩

theorem rounded_eq (negative : Bool) (x : ℚ) : rounded negative x =
    let n := nearest (x / 2 ^ place x)
    let (n, e) := if n = Nat.pow 2 53 then (Nat.pow 2 52, place x + 1) else (n, place x)
    if maxExponent < e then .infinite negative else .finite negative n e := rfl

/-- A number is rounded to infinity if its place is too high, also when it gets there by rounding. -/
theorem rounded_eq_infinite_iff_place (negative : Bool) (x : ℚ) :
    rounded negative x = .infinite negative ↔ maxExponent < place x ∨
      (maxExponent = place x ∧ nearest (x / 2 ^ place x) = 2 ^ 53) := by
  rw [rounded_eq]
  have hpow : Nat.pow 2 53 = 2 ^ 53 := rfl
  dsimp only
  rw [hpow]
  by_cases hfull : nearest (x / 2 ^ place x) = 2 ^ 53
  · rw [if_pos hfull]
    dsimp only
    split
    · exact iff_of_true rfl (by omega)
    · exact iff_of_false nofun (by omega)
  · rw [if_neg hfull]
    dsimp only
    split
    · exact iff_of_true rfl (by omega)
    · exact iff_of_false nofun (by omega)

theorem zpow_maxExponent_pos : (0 : ℚ) < 2 ^ maxExponent := zpow_pos (by norm_num) _

theorem overflow_bounds : (2 : ℚ) ^ (52 + maxExponent) < overflow ∧
    overflow < 2 ^ (53 + maxExponent) := by
  have hpos := zpow_maxExponent_pos
  unfold overflow
  rw [zpow_add₀ (by norm_num), zpow_add₀ (by norm_num)]
  constructor
  · exact mul_lt_mul_of_pos_right (by norm_num) hpos
  · exact mul_lt_mul_of_pos_right (by norm_num) hpos

/-- **A number is rounded to infinity from the middle between the greatest double and the next power of
two on.** -/
theorem rounded_eq_infinite_iff (negative : Bool) {x : ℚ} (hx : 0 < x) :
    rounded negative x = .infinite negative ↔ overflow ≤ x := by
  have hlog : ∀ k : Int, Int.log 2 x < k ↔ x < 2 ^ k := fun k => by
    exact_mod_cast (Int.lt_zpow_iff_log_lt (b := 2) (by decide) hx).symm
  have hleast : minExponent < maxExponent := by decide
  have hplace : place x = max (Int.log 2 x - 52) minExponent := rfl
  obtain ⟨hlow, hhigh⟩ := overflow_bounds
  rw [rounded_eq_infinite_iff_place]
  rcases lt_or_ge x (2 ^ (53 + maxExponent)) with hhuge | hhuge
  · rcases lt_or_ge x (2 ^ (52 + maxExponent)) with hsmall | hlarge
    · have := (hlog _).mpr hsmall
      exact iff_of_false (by omega) (not_le.mpr (hsmall.trans hlow))
    · -- The numbers with the greatest place are rounded as whole numbers below `2 ^ 53` are.
      have hown : place x = maxExponent := by
        have h₁ := (hlog _).mpr hhuge
        have h₂ := (hlog _).not.mpr (not_lt.mpr hlarge)
        omega
      have hlimit : x / 2 ^ maxExponent < ((2 ^ 53 - 1 : Nat) : ℚ) + 1 := by
        rw [show ((2 ^ 53 - 1 : Nat) : ℚ) + 1 = 2 ^ (53 : Int) by norm_num, div_zpow_lt_iff]
        exact hhuge
      have hmiddle : ((2 ^ 53 - 1 : Nat) : ℚ) + 1 / 2 = 2 ^ 53 - 1 / 2 := by norm_num
      rw [hown, show (2 : Nat) ^ 53 = 2 ^ 53 - 1 + 1 by decide,
        nearest_eq_succ_iff (by decide) (div_nonneg hx.le zpow_maxExponent_pos.le) hlimit, hmiddle,
        le_div_iff₀ zpow_maxExponent_pos]
      simp [overflow]
  · have := (hlog _).not.mpr (not_lt.mpr hhuge)
    exact iff_of_true (by omega) (hhigh.le.trans hhuge)

end Double

namespace Decimal

/-- **A decimal number is too large for a double from the same number on.** -/
theorem toDouble_eq_infinite_iff (negative : Bool) (c : Nat) (e : Int) :
    (finite negative c e).toDouble = .infinite negative ↔ Double.overflow ≤ c * 10 ^ e := by
  obtain ⟨hlow, hhigh⟩ := Double.overflow_bounds
  have hone : (1 : ℚ) < Double.overflow :=
    (one_le_zpow₀ (by norm_num) (by decide)).trans_lt hlow
  have hten : Double.overflow ≤ (10 : ℚ) ^ (401 : Int) :=
    calc Double.overflow ≤ 2 ^ (53 + Double.maxExponent) := hhigh.le
      _ ≤ 2 ^ (3 * (401 : Int)) := zpow_le_zpow_right₀ (by norm_num) (by decide)
      _ = (2 ^ (3 : Int)) ^ (401 : Int) := zpow_mul _ _ _
      _ ≤ 10 ^ (401 : Int) := zpow_le_zpow_left₀ (by norm_num) (by norm_num) (by norm_num)
  by_cases hc : c = 0
  · subst hc
    refine iff_of_false nofun ?_
    rw [Nat.cast_zero, zero_mul]
    linarith
  · have hpos : (0 : ℚ) < c * 10 ^ e :=
      mul_pos (Nat.cast_pos.mpr (Nat.pos_of_ne_zero hc)) (ten_zpow_pos e)
    have hlog : ∀ k : Int, Int.log 10 ((c : ℚ) * 10 ^ e) < k ↔ (c : ℚ) * 10 ^ e < 10 ^ k := fun k => by
      exact_mod_cast (Int.lt_zpow_iff_log_lt (b := 10) (by decide) hpos).symm
    rw [toDouble_finite hc]
    split
    case isTrue hlarge =>
      have h := (hlog 401).not.mp (by omega)
      exact iff_of_true rfl (by linarith)
    case isFalse =>
      split
      case isTrue hsmall =>
        have h : (c : ℚ) * 10 ^ e < 10 ^ (0 : Int) := (hlog 0).mp (by omega)
        rw [zpow_zero] at h
        exact iff_of_false nofun (by linarith)
      case isFalse => exact Double.rounded_eq_infinite_iff negative hpos

/-- The infinite double has the sign of the number. -/
theorem eq_of_toDouble_eq_infinite {negative n : Bool} {c : Nat} {e : Int}
    (h : (finite negative c e).toDouble = .infinite n) : n = negative := by
  by_cases hc : c = 0
  · subst hc
    cases h
  · rw [toDouble_finite hc] at h
    repeat' split at h
    · cases h
      rfl
    · cases h
    · rw [Double.rounded_eq] at h
      dsimp only at h
      repeat' split at h
      all_goals cases h
      all_goals rfl

end Decimal

/-! ### Numerals -/

namespace Numeral

/-- The number that a numeral denotes, without its sign. -/
def Parts.value (p : Parts) : ℚ :=
  p.scaled.1 * 10 ^ p.scaled.2

/-- What a numeral consists of without blanks and sign, in small letters. -/
def nameOf (cs : List Char) : String :=
  String.ofList ((sign (plain cs)).2.map Char.toLower)

/-- The text names infinity, or it is a numeral that is rounded to infinity. -/
inductive IsTooLarge (cs : List Char) : Prop
  | infinity (h : nameOf cs = "inf" ∨ nameOf cs = "infinity")
  | numeral {ds : List Char} {p : Parts} (hds : dropUnderscores none (sign (plain cs)).2 = some ds)
      (hp : parts? ds = some p) (h : Double.overflow ≤ p.value)

theorem head?_of_dropUnderscores {cs ds : List Char} (h : dropUnderscores none cs = some ds) :
    ds.head? = cs.head? := by
  cases cs with
  | nil =>
    cases h
    rfl
  | cons c cs =>
    rw [dropUnderscores] at h
    split at h
    · cases h
    · split at h
      · cases h
      · obtain ⟨es, -, rfl⟩ := Option.map_eq_some_iff.mp h
        rfl

/-- A numeral begins with a digit or with the point. -/
theorem head?_of_parts? {cs : List Char} {p : Parts} (h : parts? cs = some p) :
    ∃ c, cs.head? = some c ∧ IsNumeralChar c := by
  rcases cs with - | ⟨c, cs⟩
  · cases h
  · refine ⟨c, rfl, or_iff_not_imp_left.mpr fun hdigit => ?_⟩
    unfold parts? at h
    rw [List.takeWhile_cons_of_neg hdigit, List.dropWhile_cons_of_neg hdigit] at h
    dsimp only at h
    split at h
    · rename_i heq
      exact .inl (List.cons.inj heq).1
    · cases h

/-- A numeral is none of the names that stand for doubles. -/
theorem nameOf_ne {cs ds : List Char} {p : Parts}
    (hds : dropUnderscores none (sign (plain cs)).2 = some ds) (hp : parts? ds = some p)
    {name : String} {c : Char} (hc : name.toList.head? = some c) (hno : ¬ IsNumeralChar c) :
    nameOf cs ≠ name := by
  rintro rfl
  obtain ⟨d, hd, hfirst⟩ := head?_of_parts? hp
  rw [nameOf, String.toList_ofList, List.head?_map, ← head?_of_dropUnderscores hds, hd,
    Option.map_some, toLower_of_isNumeralChar hfirst] at hc
  cases hc
  exact hno hfirst

/-- **A text is read as an infinite double if and only if it is too large.** -/
theorem double?_eq_infinite_iff {cs : List Char} :
    (∃ negative, double? cs = some (.infinite negative)) ↔ IsTooLarge cs := by
  have hname : String.ofList ((sign (plain cs)).2.map Char.toLower) = nameOf cs := rfl
  unfold double?
  dsimp only
  rw [hname]
  by_cases hinf : nameOf cs = "inf" ∨ nameOf cs = "infinity"
  · rw [if_pos (by simpa using hinf)]
    exact iff_of_true ⟨_, rfl⟩ (.infinity hinf)
  rw [if_neg (by simpa using hinf)]
  by_cases hnan : nameOf cs = "nan"
  · rw [if_pos (by simpa using hnan)]
    refine iff_of_false nofun ?_
    rintro (h | ⟨hds, hp, -⟩)
    · exact hinf h
    · exact nameOf_ne hds hp (c := 'n') rfl (by decide) hnan
  rw [if_neg (by simpa using hnan)]
  constructor
  · rintro ⟨negative, h⟩
    obtain ⟨ds, hds, h⟩ := Option.bind_eq_some_iff.mp h
    obtain ⟨p, hp, h⟩ := Option.bind_eq_some_iff.mp h
    have hnumber := Option.some.inj h
    cases Decimal.eq_of_toDouble_eq_infinite hnumber
    exact .numeral hds hp ((Decimal.toDouble_eq_infinite_iff _ _ _).mp hnumber)
  · rintro (h | ⟨hds, hp, h⟩)
    · exact absurd h hinf
    · have hnumber := (Decimal.toDouble_eq_infinite_iff (sign (plain cs)).1 _ _).mpr h
      exact ⟨_, Option.bind_eq_some_iff.mpr ⟨_, hds,
        Option.bind_eq_some_iff.mpr ⟨_, hp, congrArg some hnumber⟩⟩⟩

end Numeral

end RecordFilter
