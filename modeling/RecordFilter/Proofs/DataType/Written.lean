import RecordFilter.Proofs.Calendar.Written
import RecordFilter.Proofs.DataType.Reading
import RecordFilter.Proofs.Json.Encoding

/-!
# Values that are read from their encodings

A moment that is written as a text is inferred to be one and is read into its type again; a time of
day is read again as well, but the type that is inferred from its text is that of texts. A decimal
number is read again if it is the one that its double is written as.
-/

namespace RecordFilter

/-! ### Texts of dates and times -/

namespace Iso

theorem printed_of_isStampChar {c : Char} (h : IsStampChar c) :
    0x20 < (CodePoint.char c).number ∧ (CodePoint.char c).number < 0x80 := by
  have hnumber : (CodePoint.char c).number = c.toNat := rfl
  rcases h with (h | rfl | rfl) | rfl | rfl | rfl
  · obtain ⟨-, hlow, hhigh⟩ := Numeral.digitValue?_of_isDigit h
    omega
  all_goals decide

theorem ne_of_isStampChar {c d : Char} (h : IsStampChar c) (hdigit : d.isDigit = false)
    (hd : d ∉ [':', '.', '-', 'T', '+']) : c ≠ d := by
  rintro rfl
  rcases h with (h | rfl | rfl) | rfl | rfl | rfl
  · rw [h] at hdigit
    cases hdigit
  all_goals exact hd (by decide)

section

variable {s : String} (hs : ∀ c ∈ s.toList, IsStampChar c)

include hs

theorem trim_of_isStampChar : Text.trim s = (s : Text) := by
  have hpoints : Text.trimPoints (s.toList.map CodePoint.char) = s.toList.map CodePoint.char := by
    refine Text.trimPoints_of_forall fun p hp => ?_
    obtain ⟨c, hc, rfl⟩ := List.mem_map.mp hp
    exact Text.isBlank_of_printed (printed_of_isStampChar (hs c hc))
  exact congrArg Text.mk hpoints

/-- There is no `Z` at the end. -/
theorem withPlainZone_of_isStampChar : DataType.withPlainZone s = (s : Text) := by
  have hlast : (s.toList.map CodePoint.char).getLast? ≠ some (.char 'Z') := by
    intro h
    obtain ⟨c, hc, hz⟩ := List.mem_map.mp (List.mem_of_getLast? h)
    exact ne_of_isStampChar (hs c hc) (by decide) (by decide) (CodePoint.char.inj hz)
  unfold DataType.withPlainZone
  rw [Text.points_ofString, if_neg fun h => hlast (beq_iff_eq.mp h)]

end

end Iso

namespace DataType

open Iso

theorem readMoment_isoText {m : Moment} (hm : m.IsLegible) :
    readMoment (.text m.isoText) = .moment m := by
  have hchars : ∀ c ∈ m.isoText.toList, IsStampChar c := fun _ => isStampChar_of_mem_isoText
  rw [readMoment, readMomentText, trim_of_isStampChar hchars, withPlainZone_of_isStampChar hchars,
    moment?_isoText hm]
  rfl

theorem readTime_text {t : TimeOfDay} (ht : t.IsLegible) : readTime (.text t.text) = .time t := by
  rw [readTime, trim_of_isStampChar fun _ => isStampChar_of_mem_time, timeOfDay?_text ht]
  rfl

/-! ### Inferred types -/

/-- No identifier holds a character that is neither a hyphen nor a hexadecimal digit. -/
theorem isWritten_eq_false {front rest : List Char} {c : Char} (hfront : front.length < 36)
    (hne : c ≠ '-') (hhex : Text.hexValue? c = none) :
    Guid.isWritten (front ++ c :: rest) = false := by
  have hc : c ∈ (front ++ c :: rest).take 36 := by
    obtain ⟨k, hk⟩ : ∃ k, 36 - front.length = k + 1 := ⟨35 - front.length, by omega⟩
    rw [List.take_append, hk, List.take_succ_cons]
    exact List.mem_append_right _ List.mem_cons_self
  generalize front ++ c :: rest = cs at hc ⊢
  have hall : ((cs.take 36).filter (· != '-')).all (fun c => (Text.hexValue? c).isSome) = false := by
    refine List.all_eq_false.mpr ⟨c, List.mem_filter.mpr ⟨hc, by simpa using hne⟩, ?_⟩
    rw [hhex]
    exact Bool.false_ne_true
  unfold Guid.isWritten
  dsimp only
  rw [hall]
  rfl

/-- Digits look like the digits of a moment. -/
theorem looksLikeMoment_go_append {ds : List Char} (hds : ∀ c ∈ ds, c.isDigit) (ps cs : List Char) :
    looksLikeMoment.go (List.replicate ds.length 'd' ++ ps) (ds ++ cs) =
      looksLikeMoment.go ps cs := by
  induction ds with
  | nil => rfl
  | cons d ds ih =>
    have hdigit : Text.isDecimalDigit d = true := by
      rw [Text.isDecimalDigit, (Numeral.digitValue?_of_isDigit (hds d List.mem_cons_self)).1]
      rfl
    rw [List.length_cons, List.replicate_succ, List.cons_append, List.cons_append,
      looksLikeMoment.go, if_pos rfl, hdigit, Bool.true_and]
    exact ih fun c hc => hds c (List.mem_cons_of_mem d hc)

theorem looksLikeMoment_go_zeros {w n : Nat} (hw : 0 < w) (hn : n < 10 ^ w) (ps cs : List Char) :
    looksLikeMoment.go (List.replicate w 'd' ++ ps) (zeros w n ++ cs) = looksLikeMoment.go ps cs := by
  have h := looksLikeMoment_go_append (fun _ => isDigit_of_mem_zeros (w := w) (n := n)) ps cs
  rwa [length_zeros hw hn] at h

theorem inferText_isoText {m : Moment} (hm : m.IsLegible) : inferText m.isoText = .dateTime := by
  obtain ⟨hyear, hmonth, hday⟩ := bounds_of_isValid hm.date
  have hclock := hm.time.clock
  simp only [Clock.isValid, Bool.and_eq_true, decide_eq_true_eq] at hclock
  have hwritten : Guid.isWritten m.isoText.toList = false := by
    rw [toList_isoText]
    exact isWritten_eq_false (by rw [length_date hm.date]; decide) (by decide) (by decide)
  have hlooks : looksLikeMoment m.isoText = true := by
    have hpattern : "dddd-dd-ddTdd:dd".toList = List.replicate 4 'd' ++ '-' ::
        (List.replicate 2 'd' ++ '-' :: (List.replicate 2 'd' ++ 'T' ::
          (List.replicate 2 'd' ++ ':' :: (List.replicate 2 'd' ++ [])))) := by decide
    have hstep : ∀ p ∈ ['-', 'T', ':'], ∀ ps cs,
        looksLikeMoment.go (p :: ps) (p :: cs) = looksLikeMoment.go ps cs := by
      simp [looksLikeMoment.go]
    obtain ⟨rest, htext⟩ : ∃ rest, m.isoText.toList = zeros 4 m.date.year ++ '-' ::
        (zeros 2 m.date.month ++ '-' :: (zeros 2 m.date.day ++ 'T' ::
          (zeros 2 m.time.clock.hour ++ ':' :: (zeros 2 m.time.clock.minute ++ rest)))) := by
      refine ⟨secondsText m.time.clock.second m.time.clock.microsecond ++
        ((m.time.offset.map Offset.text).getD "").toList, ?_⟩
      simp [toList_isoText, toList_date, TimeOfDay.text, toList_clock]
    unfold looksLikeMoment
    rw [Text.chars_ofString, hpattern, htext, looksLikeMoment_go_zeros (by decide) hyear,
      hstep _ (by decide), looksLikeMoment_go_zeros (by decide) hmonth, hstep _ (by decide),
      looksLikeMoment_go_zeros (by decide) hday, hstep _ (by decide),
      looksLikeMoment_go_zeros (by decide) (by omega), hstep _ (by decide),
      looksLikeMoment_go_zeros (by decide) (by omega)]
    exact looksLikeMoment.go.eq_1 rest
  unfold inferText
  rw [Text.chars_ofString, hwritten, hlooks]
  rfl

/-- The text of a time of day alone is inferred to be a text. -/
theorem inferText_time {t : TimeOfDay} (ht : t.clock.isValid) : inferText t.text = .string := by
  simp only [Clock.isValid, Bool.and_eq_true, decide_eq_true_eq] at ht
  have hhour : t.clock.hour < 10 ^ 2 := by omega
  obtain ⟨rest, htext⟩ : ∃ rest, t.text.toList = zeros 2 t.clock.hour ++ ':' :: rest := by
    rw [TimeOfDay.text, String.toList_append, toList_clock, List.append_assoc]
    exact ⟨_, rfl⟩
  have hwritten : Guid.isWritten t.text.toList = false := by
    rw [htext]
    exact isWritten_eq_false (by rw [length_zeros (by decide) hhour]; decide) (by decide) (by decide)
  have hlooks : looksLikeMoment t.text = false := by
    have hpattern : "dddd-dd-ddTdd:dd".toList =
        List.replicate 2 'd' ++ 'd' :: "d-dd-ddTdd:dd".toList := by decide
    unfold looksLikeMoment
    rw [Text.chars_ofString, hpattern, htext, looksLikeMoment_go_zeros (by decide) hhour]
    rfl
  unfold inferText
  rw [Text.chars_ofString, hwritten, hlooks]
  rfl

end DataType

end RecordFilter
