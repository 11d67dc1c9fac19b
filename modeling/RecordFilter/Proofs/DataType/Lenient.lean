import RecordFilter.Proofs.DataType.Reading
import RecordFilter.Proofs.Number.Overflow

/-!
# Reading is lenient

A text that spells a value of a data type (`DataType.Spells`) is read as this value, and a text that
spells none is left as it is, but for the blanks around identifiers. There is one exception. A text that is
no integer is read into an integer type as a double and cut off at the point, and an infinite double has no
whole part: reading fails for the texts that overflow (`Text.Overflows`), which are the names of infinity
and the numerals that are too large for a double (`DataType.read_text`).
-/

namespace RecordFilter

open Text (trim lower)

/-- The text is no integer, and read as a double it is infinite: it names infinity, or it is a numeral
beyond all doubles. -/
def Text.Overflows (s : Text) : Prop :=
  Numeral.int? (Text.trim s).chars = none ∧
    ∃ negative, Numeral.double? (Text.trim s).chars = some (.infinite negative)

theorem Text.isEmpty_chars (s : Text) : s.chars.isEmpty = s.isEmpty := by
  rw [chars, List.isEmpty_map, isEmpty]

namespace DataType

/-- Texts are read into the type as integers. -/
def isInteger : DataType → Bool
  | int16 | int32 | int64 | byte => true
  | _ => false

/-- The text spells a value of a data type. An integer is also spelled by a finite double, of which it is
the whole part. -/
inductive Spells (s : Text) : DataType → Value → Prop
  | integer {t : DataType} {n : Int} (ht : t.isInteger) (h : Numeral.int? (trim s).chars = some n) :
      Spells s t (.int n)
  | whole {t : DataType} {negative : Bool} {m : Nat} {e : Int} (ht : t.isInteger)
      (hno : Numeral.int? (trim s).chars = none)
      (h : Numeral.double? (trim s).chars = some (.finite negative m e)) :
      Spells s t (.int (Double.truncate negative m e))
  | double {t : DataType} {d : Double} (ht : t = double ∨ t = single)
      (h : Numeral.double? (trim s).chars = some d) : Spells s t (.double d)
  | decimal {d : Decimal} (h : Numeral.decimal? (trim s).chars = some d) : Spells s decimal (.decimal d)
  | truth {b : Bool} (h : lower (trim s) = if b then "true" else "false") : Spells s boolean (.bool b)
  | moment {t : DataType} {m : Moment} (ht : t = dateTime ∨ t = dateTimeOffset)
      (h : Iso.moment? (withPlainZone (trim s)) = some m) : Spells s t (.moment m)
  | time {c : TimeOfDay} (h : Iso.timeOfDay? (trim s) = some c) : Spells s time (.time c)

/-- What becomes of a text that spells no value of the type. -/
def unread (t : DataType) (s : Text) : Value :=
  .text (if t = guid then trim s else s)

/-! ### Integers -/

theorem read_of_isInteger {t : DataType} (ht : t.isInteger) (s : Text) :
    t.read (.text s) = readInt s (.text s) := by
  cases t
  case int16 | int32 | int64 | byte => rfl
  all_goals cases ht

theorem readInt_error {s : Text} {given : Value} {fault : Fault}
    (h : readInt s given = .error fault) : fault = .outOfRange ∧ s.Overflows := by
  unfold readInt at h
  dsimp only at h
  split at h
  · cases h
  split at h
  · cases h
  · rename_i hint
    split at h
    · cases h
    · rename_i negative hdouble
      cases h
      exact ⟨rfl, hint, negative, hdouble⟩
    · cases h

theorem readInt_of_overflows {s : Text} (h : s.Overflows) (given : Value) :
    readInt s given = .error .outOfRange := by
  obtain ⟨hint, negative, hdouble⟩ := h
  have hne : (trim s).chars.isEmpty = false := by
    rw [List.isEmpty_eq_false_iff]
    intro hnil
    rw [hnil] at hdouble
    cases hdouble
  rw [readInt, hne, hint, hdouble]
  rfl

/-- A text spells no integer if it is neither an integer nor a finite double. -/
theorem not_spells_of_isInteger {t : DataType} {s : Text} (ht : t.isInteger)
    (hint : Numeral.int? (trim s).chars = none)
    (hfinite : ∀ negative m e, Numeral.double? (trim s).chars ≠ some (.finite negative m e))
    (w : Value) : ¬ Spells s t w := by
  intro h
  cases h with
  | integer _ h => cases hint.symm.trans h
  | whole _ _ h => exact hfinite _ _ _ h
  | double htype _ => rcases htype with rfl | rfl <;> cases ht
  | moment htype _ => rcases htype with rfl | rfl <;> cases ht
  | decimal | truth | time => cases ht

/-! ### Texts that spell a value, and texts that spell none -/

theorem read_of_spells {t : DataType} {s : Text} {w : Value} (h : Spells s t w) :
    t.read (.text s) = .ok w := by
  have hne : ∀ {α : Type} {reader : List Char → Option α} {a : α}, reader [] = none →
      reader (trim s).chars = some a → (trim s).chars.isEmpty = false := by
    intro α reader a hnil hsome
    rw [List.isEmpty_eq_false_iff]
    intro hempty
    rw [hempty, hnil] at hsome
    cases hsome
  cases h with
  | integer ht h =>
    rw [read_of_isInteger ht, readInt, hne rfl h, h]
    rfl
  | whole ht hno h =>
    rw [read_of_isInteger ht, readInt, hne rfl h, hno, h]
    rfl
  | @double _ d ht h =>
    have hread : readDouble s (.text s) = .double d := by
      rw [readDouble, hne rfl h, h]
      rfl
    rcases ht with rfl | rfl <;> exact congrArg Except.ok hread
  | @decimal d h =>
    have hread : readDecimalText s (.text s) = .decimal d := by
      rw [readDecimalText, hne rfl h, h]
      rfl
    exact congrArg Except.ok hread
  | @truth b h =>
    have hread : readBool s (.text s) = .bool b := by
      rw [readBool, h]
      cases b <;> rfl
    exact congrArg Except.ok hread
  | @moment _ m ht h =>
    have hread : readMomentText s (.text s) = .moment m := by
      rw [readMomentText, h]
      rfl
    rcases ht with rfl | rfl <;> exact congrArg Except.ok hread
  | @time c h =>
    have hread : readTime (.text s) = .time c := by
      rw [readTime, h]
      rfl
    exact congrArg Except.ok hread

/-- A text that spells no value is left as it is, if there is anything in it and it does not overflow. -/
theorem read_of_not_spells {t : DataType} {s : Text} (hblank : (trim s).isEmpty = false)
    (hfits : t.isInteger → ¬ s.Overflows) (hno : ∀ w, ¬ Spells s t w) :
    t.read (.text s) = .ok (t.unread s) := by
  have hne : (trim s).chars.isEmpty = false := (Text.isEmpty_chars _).trans hblank
  have hnone : ∀ {α : Type} {f : α → Value} {o : Option α}, (∀ a, o = some a → Spells s t (f a)) →
      o = none := fun h => Option.eq_none_iff_forall_ne_some.mpr fun a ha => hno _ (h a ha)
  have hinteger : t.isInteger → t.read (.text s) = .ok (.text s) := fun ht => by
    have hint : Numeral.int? (trim s).chars = none := hnone fun n => .integer ht
    rw [read_of_isInteger ht, readInt, hne, hint]
    rcases hdouble : Numeral.double? (trim s).chars with - | d
    · rfl
    · cases d with
      | nan => rfl
      | infinite negative => exact absurd ⟨hint, negative, hdouble⟩ (hfits ht)
      | finite => exact absurd (.whole ht hint hdouble) (hno _)
  have hdouble : t = double ∨ t = single → readDouble s (.text s) = .text s := fun ht => by
    rw [readDouble, hne, hnone fun d => Spells.double ht]
    rfl
  have hmoment : t = dateTime ∨ t = dateTimeOffset → readMomentText s (.text s) = .text s :=
    fun ht => by
      rw [readMomentText, hnone fun m => Spells.moment ht]
      rfl
  cases t
  case int16 | int32 | int64 | byte => exact hinteger rfl
  case double | single => exact congrArg Except.ok (hdouble (by simp))
  case dateTime | dateTimeOffset => exact congrArg Except.ok (hmoment (by simp))
  case decimal =>
    have hread : readDecimalText s (.text s) = .text s := by
      rw [readDecimalText, hne, hnone fun d => Spells.decimal]
      rfl
    exact congrArg Except.ok hread
  case boolean =>
    have htrue : (lower (trim s) == "true") = false :=
      beq_eq_false_iff_ne.mpr fun h => hno _ (.truth (b := true) h)
    have hfalse : (lower (trim s) == "false") = false :=
      beq_eq_false_iff_ne.mpr fun h => hno _ (.truth (b := false) h)
    have hread : readBool s (.text s) = .text s := by
      rw [readBool, htrue, hfalse]
      rfl
    exact congrArg Except.ok hread
  case time =>
    have hread : readTime (.text s) = .text s := by
      rw [readTime, hnone fun c => Spells.time]
      rfl
    exact congrArg Except.ok hread
  all_goals rfl

/-- **A text that spells a value is read as this value, and one that spells none is left as it is**, but
for the blanks around an identifier. Reading fails exactly for the texts that overflow an integer type. -/
theorem read_text (t : DataType) (s : Text) :
    ((∃ w, t.read (.text s) = .ok w) ↔ ¬ (t.isInteger ∧ s.Overflows)) ∧
      (t.isInteger → s.Overflows → t.read (.text s) = .error .outOfRange) ∧
      (s.Overflows ↔
        Numeral.int? (trim s).chars = none ∧ Numeral.IsTooLarge (trim s).chars) ∧
      (∀ w, Spells s t w → t.read (.text s) = .ok w) ∧
      ((trim s).isEmpty = false → (t.isInteger → ¬ s.Overflows) → (∀ w, ¬ Spells s t w) →
        t.read (.text s) = .ok (t.unread s)) := by
  have hfails : t.isInteger → s.Overflows → t.read (.text s) = .error .outOfRange := fun ht h => by
    rw [read_of_isInteger ht, readInt_of_overflows h]
  refine ⟨⟨?_, ?_⟩, hfails, ?_, fun w => read_of_spells, read_of_not_spells⟩
  · rintro ⟨w, hw⟩ ⟨ht, h⟩
    rw [hfails ht h] at hw
    cases hw
  · intro hfits
    by_cases ht : t.isInteger
    · rw [read_of_isInteger ht]
      rcases hread : readInt s (.text s) with fault | w
      · exact absurd ⟨ht, (readInt_error hread).2⟩ hfits
      · exact ⟨w, rfl⟩
    · cases t
      case int16 | int32 | int64 | byte => exact absurd rfl ht
      all_goals exact ⟨_, rfl⟩
  · rw [Text.Overflows, Numeral.double?_eq_infinite_iff]

/-- A word is no integer, and it stays as it is. -/
theorem read_text_of_word : ¬ Text.Overflows "soon" ∧ (∀ w, ¬ Spells "soon" int32 w) ∧
    int32.read (.text "soon") = .ok (.text "soon") := by
  have hint : Numeral.int? (trim "soon").chars = none := by decide
  have hdouble : Numeral.double? (trim "soon").chars = none := by decide
  have hfits : ¬ Text.Overflows "soon" := by
    rintro ⟨-, negative, h⟩
    rw [hdouble] at h
    cases h
  have hno : ∀ w, ¬ Spells "soon" int32 w :=
    not_spells_of_isInteger rfl hint fun negative m e => by simp [hdouble]
  exact ⟨hfits, hno, (read_text int32 "soon").2.2.2.2 (by decide) (fun _ => hfits) hno⟩

/-- Infinity spells no integer, and yet it does not stay as it is. -/
theorem read_infinity : (trim "Infinity").isEmpty = false ∧ (∀ w, ¬ Spells "Infinity" int32 w) ∧
    int32.read (.text "Infinity") = .error .outOfRange := by
  have hint : Numeral.int? (trim "Infinity").chars = none := by decide
  have hdouble : Numeral.double? (trim "Infinity").chars = some (.infinite false) := by decide
  refine ⟨by decide, not_spells_of_isInteger rfl hint fun negative m e => ?_, ?_⟩
  · simp [hdouble]
  · rw [read_of_isInteger rfl, readInt_of_overflows ⟨hint, false, hdouble⟩]

end DataType

end RecordFilter
