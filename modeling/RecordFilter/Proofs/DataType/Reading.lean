import RecordFilter.DataType.Coercion
import RecordFilter.Proofs.Outcome

/-!
# Reading values twice

Reading gives the value as it was, or one of a kind that a data type stands for
(`DataType.isReading_of_read`), and this one needs no further reading: a value that was read into a data
type is read into the same type once more without a change (`DataType.read_of_read`). What was read into
its inferred type has this type again (`DataType.infer_of_read`). Both are needed because canonical forms
hold values that were read before.
-/

namespace RecordFilter

/-! ### Texts without blanks -/

namespace Text

theorem isBlank_of_printed {c : CodePoint} (h : 0x20 < c.number ∧ c.number < 0x80) :
    isBlank c = false := by
  unfold isBlank
  simp
  omega

theorem printed_of_hexValue? {c : CodePoint} (h : (hexValue? c.toChar).isSome) :
    0x20 < c.number ∧ c.number < 0x80 := by
  rcases c with c | n
  · have hc : (CodePoint.char c).toChar = c := rfl
    rw [hc] at h
    unfold hexValue? at h
    simp only [Char.isDigit] at h
    show 0x20 < c.toNat ∧ c.toNat < 0x80
    split at h
    · rename_i hd
      simp only [Bool.and_eq_true, decide_eq_true_eq, ge_iff_le, UInt32.le_iff_toNat_le] at hd
      change 48 ≤ c.toNat ∧ c.toNat ≤ 57 at hd
      omega
    · split at h
      · rename_i hd
        simp only [Bool.and_eq_true, decide_eq_true_eq, Char.le_def, UInt32.le_iff_toNat_le] at hd
        change 97 ≤ c.toNat ∧ c.toNat ≤ 102 at hd
        omega
      · split at h
        · rename_i hd
          simp only [Bool.and_eq_true, decide_eq_true_eq, Char.le_def, UInt32.le_iff_toNat_le] at hd
          change 65 ≤ c.toNat ∧ c.toNat ≤ 70 at hd
          omega
        · cases h
  · have hc : hexValue? (CodePoint.surrogate n).toChar = none := rfl
    rw [hc] at h
    cases h

theorem hexValue?_hexChar {d : Nat} (h : d < 16) : (hexValue? (hexChar d)).isSome := by
  revert d
  decide

theorem dropWhile_of_forall {cs : List CodePoint} (h : ∀ c ∈ cs, isBlank c = false) :
    cs.dropWhile isBlank = cs := by
  cases cs with
  | nil => rfl
  | cons c cs => rw [List.dropWhile_cons_of_neg (by simp [h c])]

theorem trimPoints_of_forall {cs : List CodePoint} (h : ∀ c ∈ cs, isBlank c = false) :
    trimPoints cs = cs := by
  rw [trimPoints, dropBothEnds, dropWhile_of_forall h,
    dropWhile_of_forall fun c hc => h c (List.mem_reverse.mp hc), List.reverse_reverse]

/-- A blank at the end is dropped. -/
theorem trimPoints_append_blank {cs : List CodePoint} {c : CodePoint}
    (h : ∀ d ∈ cs, isBlank d = false) (hne : cs ≠ []) (hc : isBlank c) :
    trimPoints (cs ++ [c]) = cs := by
  have hfront : (cs ++ [c]).dropWhile isBlank = cs ++ [c] := by
    cases cs with
    | nil => exact (hne rfl).elim
    | cons d ds => rw [List.cons_append, List.dropWhile_cons_of_neg (by simp [h d])]
  rw [trimPoints, dropBothEnds, hfront, List.reverse_append, List.reverse_singleton,
    List.singleton_append, List.dropWhile_cons_of_pos hc,
    dropWhile_of_forall fun d hd => h d (List.mem_reverse.mp hd), List.reverse_reverse]

theorem points_ofString (s : String) : (ofString s).points = s.toList.map .char := rfl

theorem mem_intercalate {c : Char} {s : String} :
    ∀ {ts : List String}, c ∈ (s.intercalate ts).toList →
      c ∈ s.toList ∨ ∃ t ∈ ts, c ∈ t.toList
  | [], h => by
    rw [String.intercalate_nil] at h
    cases h
  | [t], h => by
    rw [String.intercalate_singleton] at h
    exact .inr ⟨t, List.mem_singleton_self t, h⟩
  | t :: u :: ts, h => by
    rw [String.intercalate_cons_cons, String.toList_append, String.toList_append] at h
    rcases List.mem_append.mp h with h | h
    · rcases List.mem_append.mp h with h | h
      · exact .inr ⟨t, List.mem_cons_self, h⟩
      · exact .inl h
    · rcases mem_intercalate h with h | ⟨v, hv, h⟩
      · exact .inl h
      · exact .inr ⟨v, List.mem_cons_of_mem _ hv, h⟩

end Text

/-! ### Texts of identifiers -/

namespace Guid

theorem mem_hexDigits {c : Char} : ∀ {width n : Nat}, c ∈ Text.hexDigits width n →
    ∃ d < 16, c = Text.hexChar d
  | 0, n, h => by cases h
  | width + 1, n, h => by
    rcases List.mem_append.mp h with h | h
    · exact mem_hexDigits h
    · exact ⟨n % 16, Nat.mod_lt _ (by omega), List.mem_singleton.mp h⟩

theorem mem_cut {c : Char} {s : String} : ∀ {ns : List Nat} {cs : List Char}, s ∈ cut ns cs →
    c ∈ s.toList → c ∈ cs
  | [], cs, h, _ => by cases h
  | n :: ns, cs, h, hc => by
    rcases List.mem_cons.mp h with rfl | h
    · rw [String.toList_ofList] at hc
      exact List.mem_of_mem_take hc
    · exact List.mem_of_mem_drop (mem_cut h hc)

/-- Digits in groups with hyphens between them hold no blanks. -/
theorem printed_of_mem_groups {c : CodePoint} {ds : List Char}
    (hds : ∀ d ∈ ds, (Text.hexValue? d).isSome)
    (h : c.toChar ∈ ("-".intercalate (cut groups ds)).toList) : 0x20 < c.number ∧ c.number < 0x80 := by
  rcases Text.mem_intercalate h with h | ⟨t, ht, h⟩
  · have hhyphen : c.toChar = '-' := by simpa using h
    cases c
    case char c => cases hhyphen; decide
    case surrogate n =>
      have hmark : '\ufffd' = '-' := hhyphen
      exact absurd hmark (by decide)
  · exact Text.printed_of_hexValue? (hds _ (mem_cut ht h))

theorem trim_text (g : Guid) : Text.trim g.text = (g.text : Text) := by
  have hblank : ∀ c ∈ (g.text : Text).points, Text.isBlank c = false := by
    intro c hc
    rw [Text.points_ofString] at hc
    obtain ⟨d, hd, rfl⟩ := List.mem_map.mp hc
    rw [Guid.text] at hd
    refine Text.isBlank_of_printed (printed_of_mem_groups ?_ hd)
    intro d hd
    obtain ⟨n, hn, rfl⟩ := mem_hexDigits hd
    exact Text.hexValue?_hexChar hn
  rw [Text.trim, Text.trimPoints_of_forall hblank]

/-- A text that has the form of an identifier keeps it when blanks are dropped. -/
theorem isWritten_trim {s : Text} (h : isWritten s.chars) : isWritten (Text.trim s).chars := by
  unfold isWritten at h
  simp only [Bool.and_eq_true, Bool.or_eq_true, beq_iff_eq, List.all_eq_true] at h
  obtain ⟨⟨⟨hdigits, hlength⟩, hgroups⟩, hrest⟩ := h
  have hfront : ∀ c ∈ s.points.take 36, Text.isBlank c = false := by
    intro c hc
    refine Text.isBlank_of_printed (printed_of_mem_groups hdigits ?_)
    rw [hgroups, String.toList_ofList, Text.chars, ← List.map_take]
    exact List.mem_map_of_mem hc
  have htrim : Text.trimPoints s.points = s.points.take 36 := by
    rcases hrest with hrest | hrest
    · have hdrop : s.points.drop 36 = [] := by
        simpa [Text.chars, ← List.map_drop] using hrest
      have hall : s.points.take 36 = s.points := by
        have := List.take_append_drop 36 s.points
        rwa [hdrop, List.append_nil] at this
      rw [hall] at hfront ⊢
      exact Text.trimPoints_of_forall hfront
    · obtain ⟨c, hdrop, hc⟩ : ∃ c, s.points.drop 36 = [c] ∧ c.toChar = '\n' := by
        rw [Text.chars, ← List.map_drop] at hrest
        rcases e : s.points.drop 36 with - | ⟨c, - | ⟨d, ds⟩⟩
        · rw [e] at hrest
          cases hrest
        · rw [e] at hrest
          exact ⟨c, rfl, by simpa using hrest⟩
        · rw [e] at hrest
          simp at hrest
      have hblank : Text.isBlank c := by
        cases c
        case char c => cases hc; rfl
        case surrogate n =>
          have hmark : '\ufffd' = '\n' := hc
          exact absurd hmark (by decide)
      have hne : s.points.take 36 ≠ [] := by
        intro hnil
        rw [Text.chars, ← List.map_take, hnil] at hlength
        cases hlength
      have hsplit := List.take_append_drop 36 s.points
      rw [hdrop] at hsplit
      have htrim := Text.trimPoints_append_blank hfront hne hblank
      rwa [hsplit] at htrim
  have hchars : (Text.trim s).chars = s.chars.take 36 := by
    rw [Text.chars, Text.points_trim, htrim, List.map_take, Text.chars]
  have hlong : (s.chars.take 36).length ≤ 36 := List.length_take_le 36 s.chars
  have hdone : (s.chars.take 36).take 36 = s.chars.take 36 := List.take_of_length_le hlong
  have hempty : (s.chars.take 36).drop 36 = [] := List.drop_of_length_le hlong
  unfold isWritten
  rw [hchars]
  simp only [hdone, hempty, Bool.and_eq_true, List.all_eq_true, beq_iff_eq, List.isEmpty_nil,
    Bool.true_or, and_true]
  exact ⟨⟨hdigits, hlength⟩, hgroups⟩

theorem length_hexDigits (width n : Nat) : (Text.hexDigits width n).length = width := by
  induction width generalizing n with
  | zero => rfl
  | succ width ih => rw [Text.hexDigits, List.length_append, ih, List.length_singleton]

/-- Digits in groups with hyphens between them. -/
theorem toList_groups (ds : List Char) : ("-".intercalate (cut groups ds)).toList =
    ds.take 8 ++ '-' :: ((ds.drop 8).take 4 ++ '-' :: ((ds.drop 12).take 4 ++ '-' ::
      ((ds.drop 16).take 4 ++ '-' :: (ds.drop 20).take 12))) := by
  have hhyphen : "-".toList = ['-'] := rfl
  simp [groups, cut, String.intercalate_cons_cons, String.intercalate_singleton, hhyphen,
    List.append_assoc]

theorem ne_hyphen_of_hexValue? {c : Char} (h : (Text.hexValue? c).isSome) : (c != '-') = true := by
  refine bne_iff_ne.mpr ?_
  rintro rfl
  exact absurd h (by decide)

/-- The hyphens are taken out again, and nothing else. -/
theorem filter_groups {ds : List Char} (hds : ∀ d ∈ ds, (Text.hexValue? d).isSome)
    (hlength : ds.length = 32) :
    ("-".intercalate (cut groups ds)).toList.filter (· != '-') = ds := by
  have hkeep : ∀ es : List Char, es ⊆ ds → es.filter (· != '-') = es := fun es hes =>
    List.filter_eq_self.mpr fun d hd => ne_hyphen_of_hexValue? (hds d (hes hd))
  have hpart : ∀ n k, (ds.drop n).take k ⊆ ds := fun n k d hd =>
    List.mem_of_mem_drop (List.mem_of_mem_take hd)
  have hlast : (ds.drop 20).take 12 = ds.drop 20 :=
    List.take_of_length_le (by simp [hlength])
  have hsplit : ∀ n k, (ds.drop n).take k ++ ds.drop (n + k) = ds.drop n := fun n k => by
    rw [← List.drop_drop, List.take_append_drop]
  rw [toList_groups, hlast]
  simp only [List.filter_append, List.filter_cons, hkeep _ (hpart _ _),
    hkeep _ (List.take_subset 8 ds), hkeep _ (List.drop_subset 20 ds), bne_self_eq_false,
    Bool.false_eq_true, if_false]
  rw [hsplit 16 4, hsplit 12 4, hsplit 8 4, List.take_append_drop]

/-- **The canonical text of an identifier has the form of one.** -/
theorem isWritten_text (g : Guid) : isWritten g.text.toList := by
  have hds : ∀ d ∈ Text.hexDigits 32 g.bits, (Text.hexValue? d).isSome := fun d hd => by
    obtain ⟨n, hn, rfl⟩ := mem_hexDigits hd
    exact Text.hexValue?_hexChar hn
  have hlength := length_hexDigits 32 g.bits
  have hlong : g.text.toList.length = 36 := by
    rw [text, toList_groups]
    simp [hlength]
  have hfront : g.text.toList.take 36 = g.text.toList := List.take_of_length_le (Nat.le_of_eq hlong)
  have hrest : g.text.toList.drop 36 = [] := List.drop_of_length_le (Nat.le_of_eq hlong)
  have hfilter : g.text.toList.filter (· != '-') = Text.hexDigits 32 g.bits :=
    filter_groups hds hlength
  have htext : "-".intercalate (cut groups (Text.hexDigits 32 g.bits)) = g.text := rfl
  unfold isWritten
  dsimp only
  rw [hfront, hrest, hfilter, htext, String.ofList_toList]
  simp only [Bool.and_eq_true, List.all_eq_true, beq_iff_eq, List.isEmpty_nil, Bool.true_or,
    and_true]
  exact ⟨hds, hlength⟩

end Guid

/-! ### Names of data types -/

namespace DataType

theorem ofValue_name (t : DataType) : ofValue (.text t.name) = .ok (some t) := by
  cases t <;> rfl

/-! ### Reading twice -/

/-- Whether an optional result is found or not, reading gives it or the value as it was. -/
theorem getD_map_eq_or {α : Type} (f : α → Value) (o : Option α) (v : Value) :
    (o.map f).getD v = v ∨ ∃ a, (o.map f).getD v = f a := by
  rcases o with - | a
  · exact .inl rfl
  · exact .inr ⟨a, rfl⟩

theorem readInt_eq_or {s : Text} {v w : Value} (h : readInt s v = .ok w) :
    w = v ∨ w = .null ∨ ∃ n, w = .int n := by
  unfold readInt at h
  dsimp only at h
  repeat' split at h
  all_goals cases h
  · exact .inr (.inl rfl)
  · exact .inr (.inr ⟨_, rfl⟩)
  · exact .inr (.inr ⟨_, rfl⟩)
  · exact .inl rfl

theorem readDouble_eq_or (s : Text) (v : Value) :
    readDouble s v = v ∨ readDouble s v = .null ∨ ∃ d, readDouble s v = .double d := by
  unfold readDouble
  dsimp only
  split
  · exact .inr (.inl rfl)
  · rcases getD_map_eq_or Value.double (Numeral.double? (Text.trim s).chars) v with h | h
    · exact .inl h
    · exact .inr (.inr h)

theorem readDecimalText_eq_or (s : Text) (v : Value) : readDecimalText s v = v ∨
    readDecimalText s v = .null ∨ ∃ d, readDecimalText s v = .decimal d := by
  unfold readDecimalText
  dsimp only
  split
  · exact .inr (.inl rfl)
  · rcases getD_map_eq_or Value.decimal (Numeral.decimal? (Text.trim s).chars) v with h | h
    · exact .inl h
    · exact .inr (.inr h)

theorem readBool_eq_or (s : Text) (v : Value) :
    readBool s v = v ∨ ∃ b, readBool s v = .bool b := by
  unfold readBool
  dsimp only
  repeat' split
  · exact .inr ⟨_, rfl⟩
  · exact .inr ⟨_, rfl⟩
  · exact .inl rfl

theorem readDecimal_eq_or (v : Value) :
    readDecimal v = v ∨ readDecimal v = .null ∨ ∃ d, readDecimal v = .decimal d := by
  cases v
  case double d =>
    rcases getD_map_eq_or Value.decimal (Numeral.decimal? d.text.toList) (.double d) with h | h
    · exact .inl h
    · exact .inr (.inr h)
  case int n => exact .inr (.inr ⟨_, rfl⟩)
  case text s => exact readDecimalText_eq_or s _
  case token t => exact readDecimalText_eq_or t.key _
  all_goals exact .inl rfl

theorem readDecimal_readDecimal (v : Value) : readDecimal (readDecimal v) = readDecimal v := by
  rcases readDecimal_eq_or v with h | h | ⟨d, h⟩
  · rw [h, h]
  · rw [h]
    rfl
  · rw [h]
    rfl

theorem readMoment_eq_or (v : Value) : readMoment v = v ∨ ∃ m, readMoment v = .moment m := by
  cases v
  case date d => exact .inr ⟨_, rfl⟩
  case text s => exact getD_map_eq_or Value.moment _ _
  case token t => exact getD_map_eq_or Value.moment _ _
  all_goals exact .inl rfl

theorem readMoment_readMoment (v : Value) : readMoment (readMoment v) = readMoment v := by
  rcases readMoment_eq_or v with h | ⟨m, h⟩
  · rw [h, h]
  · rw [h]
    rfl

theorem readTime_eq_or (v : Value) : readTime v = v ∨ ∃ t, readTime v = .time t := by
  cases v
  case text s => exact getD_map_eq_or Value.time _ _
  case token t => exact getD_map_eq_or Value.time _ _
  all_goals exact .inl rfl

theorem readTime_readTime (v : Value) : readTime (readTime v) = readTime v := by
  rcases readTime_eq_or v with h | ⟨t, h⟩
  · rw [h, h]
  · rw [h]
    rfl

theorem readGuid_readGuid (v : Value) : readGuid (readGuid v) = readGuid v := by
  cases v
  case guid g => exact congrArg Value.text (Guid.trim_text g)
  case text s => exact congrArg Value.text (Text.trim_trim s)
  case token t => 
    have htrim : ∀ t : Token, Text.trim t.key = t.key := by
      intro t
      cases t
      case kind k => cases k <;> rfl
      all_goals rfl
    exact congrArg Value.text (htrim t)
  all_goals rfl

theorem readString_eq_or {v w : Value} (h : readString v = .ok w) : w = v ∨ ∃ s, w = .text s := by
  unfold readString at h
  split at h
  case h_5 =>
    obtain ⟨s, -, rfl⟩ := map_eq_ok_iff.mp h
    exact .inr ⟨s, rfl⟩
  all_goals cases h
  · exact .inl rfl
  · exact .inl rfl
  · exact .inl rfl
  · exact .inr ⟨_, rfl⟩

theorem readString_readString {v w : Value} (h : readString v = .ok w) :
    readString w = .ok w := by
  rcases readString_eq_or h with rfl | ⟨s, rfl⟩
  · exact h
  · rfl

theorem onText_eq_or {reader : Text → Value → Except Fault Value} {v w : Value}
    (h : onText reader v = .ok w) : w = v ∨ ∃ s, reader s v = .ok w := by
  unfold onText at h
  split at h
  · exact .inr ⟨_, h⟩
  · cases h
    exact .inl rfl

theorem onText_of_onText {reader : Text → Value → Except Fault Value} {v w : Value}
    (hreader : ∀ s, reader s v = .ok w → w = v ∨ w.asText? = none) (h : onText reader v = .ok w) :
    onText reader w = .ok w := by
  have hdone : w = v ∨ w.asText? = none := by
    rcases onText_eq_or h with hw | ⟨s, hs⟩
    · exact .inl hw
    · exact hreader s hs
  rcases hdone with rfl | hnone
  · exact h
  · unfold onText
    rw [hnone]

theorem read_null (t : DataType) : t.read .null = .ok .null := by
  cases t <;> rfl

/-- What a value is read as: itself, nothing, or a value of a kind that some type stands for. Decimal
numbers come from reading into their own type only. -/
inductive IsReading (t : DataType) (v : Value) : Value → Prop
  | same : IsReading t v v
  | null : IsReading t v .null
  | bool (b : Bool) : IsReading t v (.bool b)
  | int (n : Int) : IsReading t v (.int n)
  | double (d : Double) : IsReading t v (.double d)
  | decimal (d : Decimal) : t = .decimal → IsReading t v (.decimal d)
  | text (s : Text) : IsReading t v (.text s)
  | moment (m : Moment) : IsReading t v (.moment m)
  | time (o : TimeOfDay) : IsReading t v (.time o)

/-- **What reading a value can give.** -/
theorem isReading_of_read {t : DataType} {v w : Value} (h : t.read v = .ok w) : IsReading t v w := by
  by_cases hnull : v = .null
  · rw [hnull, read_null] at h
    cases h
    exact .null
  cases t <;> simp only [read] at h
  case string =>
    rcases readString_eq_or h with rfl | ⟨s, rfl⟩
    · exact .same
    · exact .text s
  case int16 | int32 | int64 | byte =>
    rcases onText_eq_or h with rfl | ⟨s, hs⟩
    · exact .same
    rcases readInt_eq_or hs with rfl | rfl | ⟨n, rfl⟩
    · exact .same
    · exact .null
    · exact .int n
  case double | single =>
    rcases onText_eq_or h with rfl | ⟨s, hs⟩
    · exact .same
    cases hs
    rcases readDouble_eq_or s v with hs | hs | ⟨d, hs⟩ <;> rw [hs]
    · exact .same
    · exact .null
    · exact .double d
  case boolean =>
    rcases onText_eq_or h with rfl | ⟨s, hs⟩
    · exact .same
    cases hs
    rcases readBool_eq_or s v with hs | ⟨b, hs⟩ <;> rw [hs]
    · exact .same
    · exact .bool b
  case decimal =>
    cases h
    rcases readDecimal_eq_or v with hw | hw | ⟨d, hw⟩ <;> rw [hw]
    · exact .same
    · exact .null
    · exact .decimal d rfl
  case dateTime | dateTimeOffset =>
    cases h
    rcases readMoment_eq_or v with hw | ⟨m, hw⟩ <;> rw [hw]
    · exact .same
    · exact .moment m
  case time =>
    cases h
    rcases readTime_eq_or v with hw | ⟨o, hw⟩ <;> rw [hw]
    · exact .same
    · exact .time o
  case guid =>
    cases h
    cases v
    case guid | text | token => exact .text _
    all_goals exact .same
  case undefined =>
    cases h
    exact .same

/-- **Reading a value a second time into the same type changes nothing.** -/
theorem read_of_read {t : DataType} {v w : Value} (h : t.read v = .ok w) : t.read w = .ok w := by
  by_cases hnull : v = .null
  · rw [hnull, read_null] at h
    cases h
    exact read_null t
  by_cases hw : w = .null
  · rw [hw]
    exact read_null t
  cases t <;> simp only [read] at h ⊢
  case string => exact readString_readString h
  case int16 | int32 | int64 | byte =>
    refine onText_of_onText (fun s hs => ?_) h
    rcases readInt_eq_or hs with rfl | rfl | ⟨n, rfl⟩
    · exact .inl rfl
    · exact .inr rfl
    · exact .inr rfl
  case double | single =>
    refine onText_of_onText (fun s hs => ?_) h
    cases hs
    rcases readDouble_eq_or s v with hs | hs | ⟨d, hs⟩
    · exact .inl hs
    · exact .inr (by rw [hs]; rfl)
    · exact .inr (by rw [hs]; rfl)
  case boolean =>
    refine onText_of_onText (fun s hs => ?_) h
    cases hs
    rcases readBool_eq_or s v with hs | ⟨b, hs⟩
    · exact .inl hs
    · exact .inr (by rw [hs]; rfl)
  case decimal => cases h; rw [readDecimal_readDecimal]
  case dateTime | dateTimeOffset => cases h; rw [readMoment_readMoment]
  case time => cases h; rw [readTime_readTime]
  case guid => cases h; rw [readGuid_readGuid]

/-- **What was read into its inferred type has this type again.** -/
theorem infer_of_read {v w : Value} (h : (infer v).read v = .ok w) : infer w = infer v := by
  have htext : ∀ {s : Text}, (inferText s).read (.text s) = .ok w → infer w = inferText s := by
    intro s h
    unfold inferText at h ⊢
    split at h
    · rename_i hguid
      cases h
      rw [if_pos hguid]
      show inferText (Text.trim s) = guid
      rw [inferText, if_pos (Guid.isWritten_trim hguid)]
    · rename_i hguid
      rw [if_neg hguid]
      split at h
      · rename_i hmoment
        rw [if_pos hmoment]
        cases h
        rcases getD_map_eq_or Value.moment (Iso.moment? (withPlainZone (Text.trim s))) (.text s)
          with h | ⟨m, h⟩
        · show infer ((_ : Option Value).getD _) = _
          rw [h]
          show inferText s = _
          rw [inferText, if_neg hguid, if_pos hmoment]
        · show infer ((_ : Option Value).getD _) = _
          rw [h]
          rfl
      · rename_i hmoment
        cases h
        show inferText s = _
        rw [inferText, if_neg hguid]
  cases v
  case guid g =>
    cases h
    show inferText (g.text : Text) = guid
    rw [inferText, Text.chars_ofString, if_pos g.isWritten_text]
  case text s => exact htext h
  case token t =>
    have hkey : ∀ t : Token, inferText t.key = string := by
      intro t
      cases t
      case kind k => cases k <;> rfl
      all_goals rfl
    have hinfer : infer (.token t) = string := hkey t
    rw [hinfer] at h
    cases h
    rfl
  all_goals
    cases h
    rfl

end DataType

end RecordFilter
