import Mathlib.Algebra.Group.Nat.Defs
import RecordFilter.Calendar.Iso
import RecordFilter.Proofs.Number.Written

/-!
# Dates and times as they are written

Every time of day and every moment is read back from its text (`Iso.timeOfDay?_text`,
`Iso.moment?_isoText`), with one exception: a distance from universal time of less than a second is
written in full and read as none at all. `TimeOfDay.IsLegible` leaves it out.

The proofs follow the text from left to right. Each number has leading zeros, so it is read to its end
and no further (`Iso.digits?_padded`).
-/

namespace RecordFilter

/-! ### Times that can be read again -/

/-- The distance from universal time is less than a day, and it is none at all or a second at least. -/
def Offset.IsLegible (o : Int) : Prop :=
  Offset.isValid o ∧ (o = 0 ∨ 1000000 ≤ o.natAbs)

/-- A time of the day whose distance from universal time, if it has one, is not less than a second. -/
structure TimeOfDay.IsLegible (t : TimeOfDay) : Prop where
  clock : t.clock.isValid
  offset : ∀ o, t.offset = some o → Offset.IsLegible o

/-- A moment of an existing day, at such a time of the day. -/
structure Moment.IsLegible (m : Moment) : Prop where
  date : m.date.isValid
  time : m.time.IsLegible

namespace Iso

/-! ### Numbers with leading zeros -/

/-- The characters of a number with leading zeros. -/
def zeros (w n : Nat) : List Char :=
  (Text.padded w n).toList

variable {w n : Nat}

theorem zeros_eq (w n : Nat) :
    zeros w n = List.replicate (w - (Text.digits n).length) '0' ++ Text.digits n :=
  String.toList_ofList

theorem length_zeros (hw : 0 < w) (hn : n < 10 ^ w) : (zeros w n).length = w := by
  have hle : (Text.digits n).length ≤ w := (Nat.length_toDigits_le_iff (by decide) hw).mpr hn
  rw [zeros_eq, List.length_append, List.length_replicate]
  omega

theorem isDigit_of_mem_zeros {c : Char} (h : c ∈ zeros w n) : c.isDigit := by
  rw [zeros_eq, List.mem_append] at h
  rcases h with h | h
  · rw [List.eq_of_mem_replicate h]
    decide
  · exact Numeral.isDigit_of_mem_digits h

/-- Zeros in front do not change what a number is. -/
theorem ofDigitChars_zeros (w n : Nat) : Nat.ofDigitChars 10 (zeros w n) 0 = n := by
  have hzero : ∀ k, Nat.ofDigitChars 10 (List.replicate k '0') 0 = 0 := by
    intro k
    induction k with
    | zero => rfl
    | succ k ih => rw [List.replicate_succ, Nat.ofDigitChars_cons]; exact ih
  rw [zeros_eq, Nat.ofDigitChars_append, hzero, Text.digits, Nat.ofDigitChars_ten_toDigits]

/-- **A number with leading zeros is read to its end.** -/
theorem digits?_zeros (hw : 0 < w) (hn : n < 10 ^ w) (rest : List Char) :
    digits? w (zeros w n ++ rest) = some (n, rest) := by
  have hlength := length_zeros hw hn
  have hall : (zeros w n).all Char.isDigit = true :=
    List.all_eq_true.mpr fun c hc => isDigit_of_mem_zeros hc
  have hvalue : (zeros w n).foldl (fun n c => 10 * n + (c.toNat - 48)) 0 = n :=
    (Numeral.valueOf_eq _).trans (ofDigitChars_zeros w n)
  unfold digits?
  rw [List.take_left' hlength, List.drop_left' hlength]
  dsimp only
  rw [hlength, hall, hvalue]
  simp

/-- A number with leading zeros begins with a digit. -/
theorem exists_zeros_eq_cons (hw : 0 < w) (hn : n < 10 ^ w) :
    ∃ d ds, zeros w n = d :: ds ∧ d.isDigit := by
  have hlength := length_zeros hw hn
  rcases e : zeros w n with - | ⟨d, ds⟩
  · rw [e] at hlength
    exact absurd hlength (by rw [List.length_nil]; omega)
  · exact ⟨d, ds, rfl, isDigit_of_mem_zeros (e ▸ List.mem_cons_self)⟩

theorem zeros_ne_nil (hw : 0 < w) (hn : n < 10 ^ w) : zeros w n ≠ [] := by
  obtain ⟨d, ds, h, -⟩ := exists_zeros_eq_cons hw hn
  rw [h]
  exact List.cons_ne_nil d ds

/-! ### Dates -/

theorem toList_date (d : Date) :
    d.text.toList = zeros 4 d.year ++ '-' :: (zeros 2 d.month ++ '-' :: zeros 2 d.day) := by
  simp [Date.text, zeros]

theorem bounds_of_isValid {d : Date} (hd : d.isValid) :
    d.year < 10 ^ 4 ∧ d.month < 10 ^ 2 ∧ d.day < 10 ^ 2 := by
  simp only [Date.isValid, Bool.and_eq_true, decide_eq_true_eq] at hd
  have hdays : Date.daysIn d.year d.month ≤ 31 := by
    unfold Date.daysIn
    split_ifs <;> omega
  omega

theorem length_date {d : Date} (hd : d.isValid) : d.text.toList.length = 10 := by
  obtain ⟨hyear, hmonth, hday⟩ := bounds_of_isValid hd
  have hfour : (zeros 4 d.year).length = 4 := length_zeros (by decide) hyear
  have htwo : (zeros 2 d.month).length = 2 := length_zeros (by decide) hmonth
  have htwo' : (zeros 2 d.day).length = 2 := length_zeros (by decide) hday
  rw [toList_date, List.length_append, List.length_cons, List.length_append, List.length_cons,
    hfour, htwo, htwo']

/-- **The text of a date is read as this date**, whatever follows it. -/
theorem date?_text {d : Date} (hd : d.isValid) (rest : List Char) :
    date? 10 (d.text.toList ++ rest) = some d := by
  have hbounds := bounds_of_isValid hd
  have hparts : Date.ofParts? d.year d.month d.day = some d := if_pos hd
  obtain ⟨m, ms, hm, hdigit⟩ := exists_zeros_eq_cons (by decide) hbounds.2.1
  obtain ⟨tail, hdate, hmonth⟩ : ∃ tail,
      d.text.toList ++ rest = zeros 4 d.year ++ '-' :: m :: tail ∧
        digits? 2 (m :: tail) = some (d.month, '-' :: (zeros 2 d.day ++ rest)) := by
    refine ⟨ms ++ '-' :: (zeros 2 d.day ++ rest), by rw [toList_date, hm]; simp, ?_⟩
    rw [← List.cons_append, ← hm]
    exact digits?_zeros (by decide) hbounds.2.1 _
  have hextended : hasAt ('-' :: m :: tail) 0 '-' = true := rfl
  unfold date?
  rw [hdate, digits?_zeros (by decide) hbounds.1]
  dsimp only [Option.bind_eq_bind, Option.bind_some]
  rw [hextended, if_pos rfl, List.drop_one, List.tail_cons]
  split
  · rename_i hweek
    obtain ⟨rfl, -⟩ := List.cons.inj hweek
    exact absurd hdigit (by decide)
  · have hhyphen : ∀ cs, hyphen? true ('-' :: cs) = some cs := fun _ => rfl
    rw [hmonth, Option.bind_some, hhyphen, Option.bind_some,
      digits?_zeros (by decide) hbounds.2.2, Option.bind_some]
    exact hparts

/-- What stands behind other characters. -/
theorem hasAt_append {place : Nat} {cs : List Char} (hcs : cs.length = place) (c d : Char)
    (rest : List Char) : hasAt (cs ++ c :: rest) place d = (some c == some d) := by
  subst hcs
  simp [hasAt]

/-- The date of a moment is ten characters long. -/
theorem dateLength_text {d : Date} (hd : d.isValid) (rest : List Char) :
    dateLength (d.text.toList ++ rest) = 10 := by
  obtain ⟨hyear, hmonth, hday⟩ := bounds_of_isValid hd
  have hlength : (d.text.toList ++ rest).length = 10 + rest.length := by
    rw [List.length_append, length_date hd]
  obtain ⟨m, ms, hm, hdigit⟩ := exists_zeros_eq_cons (by decide) hmonth
  have hne : m ≠ 'W' := by
    rintro rfl
    exact absurd hdigit (by decide)
  have hfour : (zeros 4 d.year).length = 4 := length_zeros (by decide) hyear
  have hhyphen : hasAt (d.text.toList ++ rest) 4 '-' = true := by
    rw [toList_date, List.append_assoc, List.cons_append, hasAt_append hfour]
    rfl
  have hweek : hasAt (d.text.toList ++ rest) 5 'W' = false := by
    have hfive : (zeros 4 d.year ++ ['-']).length = 5 := by
      rw [List.length_append, hfour]
      rfl
    have htext : d.text.toList ++ rest =
        zeros 4 d.year ++ ['-'] ++ m :: (ms ++ '-' :: zeros 2 d.day ++ rest) := by
      rw [toList_date, hm]
      simp
    rw [htext, hasAt_append hfive]
    simpa using hne
  unfold dateLength
  rw [if_neg (by omega), if_pos hhyphen, hweek]
  rfl

/-! ### Clock readings -/

/-- The seconds of a clock reading with its fraction, as they follow hours and minutes. -/
def secondsText (s micro : Nat) : List Char :=
  ':' :: (zeros 2 s ++ if micro = 0 then [] else '.' :: zeros 6 micro)

theorem fraction?_zeros {micro : Nat} (h : micro < 1000000) :
    fraction? (zeros 6 micro) = some (micro, false) := by
  have hlength : (zeros 6 micro).length = 6 := length_zeros (by decide) h
  have hdigits : digits? 6 (zeros 6 micro) = some (micro, []) := by
    simpa using digits?_zeros (by decide) h []
  unfold fraction?
  rw [hlength]
  dsimp only
  rw [show min 6 6 = 6 from rfl, hdigits]
  simp [isEnd]

section

variable {todo n : Nat} {read : List Nat} (hn : n < 100)

include hn

theorem clockParts?_last : clockParts? true read (todo + 1) (zeros 2 n) =
    some ((n :: read).reverse, 0, false) := by
  have hdigits : digits? 2 (zeros 2 n) = some (n, []) := by
    simpa using digits?_zeros (by decide) hn []
  rw [clockParts?, hdigits]
  rfl

theorem clockParts?_colon {cs : List Char} (hcs : cs ≠ []) :
    clockParts? true read (todo + 1) (zeros 2 n ++ ':' :: cs) =
      clockParts? true (n :: read) todo cs := by
  obtain ⟨c, cs, rfl⟩ := List.exists_cons_of_ne_nil hcs
  rw [clockParts?, digits?_zeros (by decide) hn]
  simp

theorem clockParts?_point {cs : List Char} (hcs : cs ≠ []) :
    clockParts? true read (todo + 1) (zeros 2 n ++ '.' :: cs) =
      (fraction? cs).map fun (micro, extra) => ((n :: read).reverse, micro, extra) := by
  obtain ⟨c, cs, rfl⟩ := List.exists_cons_of_ne_nil hcs
  rw [clockParts?, digits?_zeros (by decide) hn]
  simp

end

/-- Hours and minutes are a clock reading. -/
theorem reading?_minutes {h m : Nat} (hh : h < 100) (hm : m < 100) :
    reading? (zeros 2 h ++ ':' :: zeros 2 m) = some (⟨h, m, 0, 0⟩, false) := by
  rw [reading?, clockParts?_colon hh (zeros_ne_nil (by decide) hm), clockParts?_last hm]
  rfl

/-- So are hours, minutes and seconds, with a fraction if there is any. -/
theorem reading?_seconds {h m s micro : Nat} (hh : h < 100) (hm : m < 100) (hs : s < 100)
    (hmicro : micro < 1000000) :
    reading? (zeros 2 h ++ ':' :: (zeros 2 m ++ secondsText s micro)) =
      some (⟨h, m, s, micro⟩, false) := by
  have hseconds : clockParts? true [m, h] 1
      (zeros 2 s ++ if micro = 0 then [] else '.' :: zeros 6 micro) =
        some ([h, m, s], micro, false) := by
    split
    · rename_i hzero
      rw [List.append_nil, clockParts?_last hs, hzero]
      rfl
    · rw [clockParts?_point hs (zeros_ne_nil (by decide) hmicro), fraction?_zeros hmicro]
      rfl
  have hne : zeros 2 s ++ (if micro = 0 then [] else '.' :: zeros 6 micro) ≠ [] := by
    simp [zeros_ne_nil (w := 2) (by decide) hs]
  have hrest : zeros 2 m ++ secondsText s micro ≠ [] := by
    simp [secondsText]
  rw [reading?, clockParts?_colon hh hrest, secondsText, clockParts?_colon hm hne, hseconds]
  rfl

/-! ### Characters of clock readings -/

/-- A character that clock readings and distances from universal time are written with. -/
def IsClockChar (c : Char) : Prop :=
  c.isDigit ∨ c = ':' ∨ c = '.'

theorem startsOffset_of_isClockChar {c : Char} (h : IsClockChar c) : startsOffset c = false := by
  rcases h with h | rfl | rfl
  · unfold startsOffset
    simp only [Bool.or_eq_false_iff, beq_eq_false_iff_ne]
    refine ⟨⟨?_, ?_⟩, ?_⟩
    all_goals
      rintro rfl
      exact absurd h (by decide)
  all_goals rfl

theorem isClockChar_of_mem_secondsText {s micro : Nat} {c : Char} (h : c ∈ secondsText s micro) :
    IsClockChar c := by
  unfold secondsText at h
  simp only [List.mem_cons, List.mem_append] at h
  rcases h with rfl | h | h
  · exact .inr (.inl rfl)
  · exact .inl (isDigit_of_mem_zeros h)
  · split at h
    · cases h
    · rcases List.mem_cons.mp h with rfl | h
      · exact .inr (.inr rfl)
      · exact .inl (isDigit_of_mem_zeros h)

theorem toList_clock (c : Clock) : c.text.toList =
    zeros 2 c.hour ++ ':' :: (zeros 2 c.minute ++ secondsText c.second c.microsecond) := by
  unfold Clock.text secondsText zeros
  split <;> simp

theorem isClockChar_of_mem_clock {k : Clock} {c : Char} (h : c ∈ k.text.toList) : IsClockChar c := by
  rw [toList_clock] at h
  simp only [List.mem_append, List.mem_cons] at h
  rcases h with h | rfl | h | h
  · exact .inl (isDigit_of_mem_zeros h)
  · exact .inr (.inl rfl)
  · exact .inl (isDigit_of_mem_zeros h)
  · exact isClockChar_of_mem_secondsText h

theorem reading?_clock {k : Clock} (hk : k.isValid) : reading? k.text.toList = some (k, false) := by
  simp only [Clock.isValid, Bool.and_eq_true, decide_eq_true_eq] at hk
  rw [toList_clock]
  exact reading?_seconds (by omega) (by omega) (by omega) hk.2

/-! ### Distances from universal time -/

/-- The clock reading that a number of microseconds amounts to. -/
def spanOf (n : Nat) : Clock :=
  ⟨n / 1000000 / 3600, n / 1000000 / 60 % 60, n / 1000000 % 60, n % 1000000⟩

theorem seconds_spanOf (n : Nat) : (spanOf n).seconds = n / 1000000 := by
  unfold Clock.seconds spanOf
  dsimp only
  omega

theorem microseconds_spanOf (n : Nat) : (spanOf n).microseconds = n := by
  rw [Clock.microseconds, seconds_spanOf]
  unfold spanOf
  dsimp only
  omega

/-- A distance from universal time is written as its sign and the clock reading that it amounts to, of
which the seconds are left out if there are none. -/
theorem exists_span (o : Int) :
    ∃ span, (Offset.text o).toList = (if o < 0 then '-' else '+') :: span ∧
      (∀ c ∈ span, IsClockChar c) ∧
        (Offset.isValid o → reading? span = some (spanOf o.natAbs, false)) := by
  have hsign : (if o < 0 then "-" else "+").toList = [if o < 0 then '-' else '+'] := by
    split <;> rfl
  have hbound : Offset.isValid o → o.natAbs / 1000000 / 3600 < 100 := by
    intro h
    obtain ⟨hlow, hhigh⟩ := (Bool.and_eq_true _ _).mp h
    have hlow : -Offset.perDay < o := of_decide_eq_true hlow
    have hhigh : o < Offset.perDay := of_decide_eq_true hhigh
    have hday : Offset.perDay = 86400000000 := rfl
    omega
  have hminutes : o.natAbs / 1000000 / 60 % 60 < 100 := by omega
  have hdigits : ∀ {w n : Nat}, ∀ c ∈ zeros w n, IsClockChar c :=
    fun c hc => .inl (isDigit_of_mem_zeros hc)
  by_cases hwhole : o.natAbs / 1000000 % 60 = 0 ∧ o.natAbs % 1000000 = 0
  · refine ⟨zeros 2 (o.natAbs / 1000000 / 3600) ++ ':' :: zeros 2 (o.natAbs / 1000000 / 60 % 60),
      ?_, ?_, fun h => ?_⟩
    · simp [Offset.text, hsign, hwhole, zeros]
    · simp only [List.mem_append, List.mem_cons]
      rintro c (hc | rfl | hc)
      · exact hdigits c hc
      · exact .inr (.inl rfl)
      · exact hdigits c hc
    · rw [reading?_minutes (hbound h) hminutes, spanOf, hwhole.1, hwhole.2]
  · refine ⟨zeros 2 (o.natAbs / 1000000 / 3600) ++ ':' ::
      (zeros 2 (o.natAbs / 1000000 / 60 % 60) ++
        secondsText (o.natAbs / 1000000 % 60) (o.natAbs % 1000000)), ?_, ?_, fun h => ?_⟩
    · have hparts : (decide (o.natAbs / 1000000 % 60 = 0) && decide (o.natAbs % 1000000 = 0)) =
          false := by
        rw [← Bool.decide_and]
        exact decide_eq_false hwhole
      unfold Offset.text secondsText zeros
      dsimp only
      rw [hparts, if_neg Bool.false_ne_true]
      by_cases hmicro : o.natAbs % 1000000 = 0 <;> simp [hsign, hmicro]
    · simp only [List.mem_append, List.mem_cons]
      rintro c (hc | rfl | hc | hc)
      · exact hdigits c hc
      · exact .inr (.inl rfl)
      · exact hdigits c hc
      · exact isClockChar_of_mem_secondsText hc
    · exact reading?_seconds (hbound h) hminutes (by omega) (by omega)

/-- **A distance from universal time is read as this distance**, unless it is less than a second. -/
theorem offset?_text {o : Int} (ho : Offset.IsLegible o) :
    offset? (Offset.text o).toList = some (some o) := by
  obtain ⟨hvalid, hsize⟩ := ho
  obtain ⟨span, htext, -, hspan⟩ := exists_span o
  have hsign : (if o < 0 then '-' else '+') ≠ 'Z' := by
    split <;> decide
  have hn : (if (spanOf o.natAbs).seconds = 0 then 0 else (spanOf o.natAbs).microseconds) =
      o.natAbs := by
    rw [seconds_spanOf, microseconds_spanOf]
    split <;> omega
  have hvalue : (if (if o < 0 then '-' else '+') = '-' then -(o.natAbs : Int) else o.natAbs) = o := by
    by_cases h : o < 0
    · rw [if_pos h, if_pos rfl]
      omega
    · rw [if_neg h, if_neg (by decide)]
      omega
  rw [htext, offset?, if_neg hsign, hspan hvalid]
  dsimp only [Option.bind_eq_bind, Option.bind_some]
  rw [hn, hvalue, hvalid]
  rfl

/-! ### Times of day and moments -/

/-- **A time of day is read from its text.** -/
theorem timeParts?_text {t : TimeOfDay} (ht : t.IsLegible) : timeParts? t.text.toList = some t := by
  obtain ⟨k, offset⟩ := t
  obtain ⟨hk, hoffset⟩ := ht
  have hclock : ∀ c ∈ k.text.toList, (!startsOffset c) = true := by
    intro c hc
    rw [startsOffset_of_isClockChar (isClockChar_of_mem_clock hc)]
    rfl
  -- the distance from universal time begins with its sign, at which the clock reading ends
  obtain ⟨zone, htext, htake, hdrop, hzone⟩ : ∃ zone,
      (TimeOfDay.text ⟨k, offset⟩).toList = k.text.toList ++ zone ∧
        (zone.takeWhile fun c => !startsOffset c) = [] ∧
          (zone.dropWhile fun c => !startsOffset c) = zone ∧ offset? zone = some offset := by
    rcases offset with - | o
    · exact ⟨[], by simp [TimeOfDay.text], rfl, rfl, rfl⟩
    · obtain ⟨span, hspan, -⟩ := exists_span o
      refine ⟨(Offset.text o).toList, by simp [TimeOfDay.text], ?_, ?_, offset?_text (hoffset o rfl)⟩
      all_goals
        rw [hspan]
        split <;> rfl
  unfold timeParts?
  rw [htext, List.takeWhile_append_of_pos hclock, List.dropWhile_append_of_pos hclock, htake, hdrop,
    List.append_nil, reading?_clock hk]
  dsimp only [Option.bind_eq_bind, Option.bind_some]
  rw [hzone]
  dsimp only [Option.bind_some]
  rw [if_pos hk]
  rfl

/-- A clock reading begins with a digit. -/
theorem exists_toList_time {t : TimeOfDay} (ht : t.IsLegible) :
    ∃ d cs, t.text.toList = d :: cs ∧ d.isDigit := by
  have hhour : t.clock.hour < 10 ^ 2 := by
    have hk := ht.clock
    simp only [Clock.isValid, Bool.and_eq_true, decide_eq_true_eq] at hk
    omega
  obtain ⟨d, ds, hd, hdigit⟩ := exists_zeros_eq_cons (by decide) hhour
  rw [TimeOfDay.text, String.toList_append, toList_clock, hd]
  exact ⟨d, _, rfl, hdigit⟩

theorem chars?_ofString (s : String) : (Text.ofString s).chars? = some s.toList := by
  show (s.toList.map CodePoint.char).mapM CodePoint.char? = _
  induction s.toList with
  | nil => rfl
  | cons c cs ih =>
    rw [List.map_cons, List.mapM_cons, ih]
    rfl

theorem timeOfDay?_text {t : TimeOfDay} (ht : t.IsLegible) : timeOfDay? t.text = some t := by
  obtain ⟨d, cs, hcs, hdigit⟩ := exists_toList_time ht
  have hparts := timeParts?_text ht
  rw [hcs] at hparts
  unfold timeOfDay?
  rw [chars?_ofString, hcs]
  dsimp only [Option.bind_eq_bind, Option.bind_some]
  split
  · rename_i hT
    obtain ⟨rfl, -⟩ := List.cons.inj hT
    exact absurd hdigit (by decide)
  · exact hparts

/-- No surrogate separates the date from the time of day in a text of characters. -/
theorem withPlainSeparator_ofString (s : String) : withPlainSeparator s = s := by
  have hnone : ∀ place : Nat, ((Text.ofString s).points[place]?.any CodePoint.isSurrogate) = false := by
    intro place
    show ((s.toList.map CodePoint.char)[place]?.any CodePoint.isSurrogate) = false
    rw [List.getElem?_map, Option.any_map]
    rcases s.toList[place]? with - | c <;> rfl
  unfold withPlainSeparator
  simp only [List.find?, hnone]

theorem toList_isoText (m : Moment) :
    m.isoText.toList = m.date.text.toList ++ 'T' :: m.time.text.toList := by
  simp [Moment.isoText, Moment.textWith]

/-- **A moment is read from its text.** -/
theorem moment?_isoText {m : Moment} (hm : m.IsLegible) : moment? m.isoText = some m := by
  have hlength := length_date hm.date
  have hlong : ¬ (m.date.text.toList ++ 'T' :: m.time.text.toList).length < 7 := by
    rw [List.length_append, hlength]
    omega
  unfold moment?
  rw [withPlainSeparator_ofString, chars?_ofString, toList_isoText]
  dsimp only [Option.bind_eq_bind, Option.bind_some]
  rw [if_neg hlong, dateLength_text hm.date, date?_text hm.date]
  dsimp only [Option.bind_some]
  rw [List.drop_left' hlength]
  dsimp only
  rw [timeParts?_text hm.time]
  rfl

/-! ### Characters of dates and times -/

/-- A character that dates and times are written with. -/
def IsStampChar (c : Char) : Prop :=
  IsClockChar c ∨ c = '-' ∨ c = 'T' ∨ c = '+'

theorem isStampChar_of_mem_date {d : Date} {c : Char} (h : c ∈ d.text.toList) : IsStampChar c := by
  rw [toList_date] at h
  simp only [List.mem_append, List.mem_cons] at h
  rcases h with h | rfl | h | rfl | h
  · exact .inl (.inl (isDigit_of_mem_zeros h))
  · exact .inr (.inl rfl)
  · exact .inl (.inl (isDigit_of_mem_zeros h))
  · exact .inr (.inl rfl)
  · exact .inl (.inl (isDigit_of_mem_zeros h))

theorem isStampChar_of_mem_time {t : TimeOfDay} {c : Char} (h : c ∈ t.text.toList) :
    IsStampChar c := by
  obtain ⟨k, offset⟩ := t
  rw [TimeOfDay.text, String.toList_append, List.mem_append] at h
  rcases h with h | h
  · exact .inl (isClockChar_of_mem_clock h)
  · rcases offset with - | o
    · cases h
    · obtain ⟨span, hspan, hclock, -⟩ := exists_span o
      have h : c ∈ (Offset.text o).toList := h
      rw [hspan] at h
      rcases List.mem_cons.mp h with rfl | h
      · split
        · exact .inr (.inl rfl)
        · exact .inr (.inr (.inr rfl))
      · exact .inl (hclock c h)

theorem isStampChar_of_mem_isoText {m : Moment} {c : Char} (h : c ∈ m.isoText.toList) :
    IsStampChar c := by
  rw [toList_isoText, List.mem_append, List.mem_cons] at h
  rcases h with h | rfl | h
  · exact isStampChar_of_mem_date h
  · exact .inr (.inr (.inl rfl))
  · exact isStampChar_of_mem_time h

/-- The text of a moment begins with a digit. -/
theorem exists_toList_isoText {m : Moment} (hm : m.IsLegible) :
    ∃ d cs, m.isoText.toList = d :: cs ∧ d.isDigit := by
  obtain ⟨d, ds, hd, hdigit⟩ := exists_zeros_eq_cons (by decide) (bounds_of_isValid hm.date).1
  rw [toList_isoText, toList_date, hd]
  exact ⟨d, _, rfl, hdigit⟩

end Iso

end RecordFilter
