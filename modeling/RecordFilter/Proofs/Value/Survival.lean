import RecordFilter.Proofs.DataType.Written
import RecordFilter.Proofs.Number.Rounding
import RecordFilter.Proofs.Value.Order
import RecordFilter.Proofs.Value.Ordinary

/-!
# Literals that survive in a JSON text

A JSON text holds a plain value in the place of a decimal number, a date or a time. What is read from
that value need not be the literal that was written. A literal survives under an operator if the
operator holds of the same values with the one as with the other. Where the type of the literal is
known, that is so of all moments and times of day, and of the decimal numbers that come back from
doubles (`Value.SurvivesTyped`). Where the type has to be inferred, only moments survive under every
operator. Times of day and decimal numbers become texts and doubles, which make no difference to the
operators that look at texts alone, and doubles are equal to the same values if they are written as the
decimal numbers are (`Value.SurvivesBare`).
-/

namespace RecordFilter

namespace Comparison

/-- The comparison is one of the texts of values. -/
def IsOnTexts : Comparison → Prop
  | startsWith | endsWith | contains => True
  | _ => False

/-- A comparison of texts does not depend on types and on anything of a value but its text. -/
theorem IsOnTexts.holds_congr {cmp : Comparison} (hcmp : cmp.IsOnTexts) {v w : Value}
    (h : w.pointsOrNone = v.pointsOrNone) (type type' : Option TypeRef) (policy : TextPolicy)
    (a : Value) : cmp.holds type' policy a w = cmp.holds type policy a v := by
  have htests : ∀ test : List CodePoint → List CodePoint → Bool,
      onTexts policy test a w = onTexts policy test a v := by
    intro test
    unfold onTexts
    rw [h]
  cases cmp
  case startsWith | endsWith | contains => exact htests _
  all_goals exact hcmp.elim

end Comparison

/-! ### The order of decimal numbers -/

theorem TypeRef.comparable_decimal (type : Option TypeRef) (d : Decimal) :
    TypeRef.comparable type (.decimal d) = .decimal d := by
  rcases type with - | t | -
  · rfl
  · cases t <;> rfl
  · rfl

/-- Decimal numbers of one value stand in the same relations. -/
theorem Value.relate_decimal {d e : Decimal} (h : e.value? = d.value?) (r : Relation) (a : Value) :
    relate r a (.decimal e) = relate r a (.decimal d) := by
  have hnumbers : ∀ n, relateNumbers r n (.decimal e) = relateNumbers r n (.decimal d) := by
    intro n
    have horder : Number.order? n (.decimal e) = Number.order? n (.decimal d) := by
      rw [Number.order?_eq, Number.order?_eq]
      exact congrArg (Option.map₂ compare n.value?) h
    unfold relateNumbers Number.orderUndefined
    rw [horder]
    rfl
  cases a
  case bool | int | double | decimal => exact hnumbers _
  all_goals rfl

theorem Comparison.ordered_decimal {d e : Decimal} (h : e.value? = d.value?) (type : Option TypeRef)
    (r : Relation) (a : Value) : ordered type r a (.decimal e) = ordered type r a (.decimal d) := by
  unfold ordered
  rw [TypeRef.comparable_decimal, TypeRef.comparable_decimal, Value.relate_decimal h]

/-! ### The equality of decimal numbers and doubles -/

/-- If the value is a double, it is read back from its text. -/
def Value.IsLegible : Value → Prop
  | double x => x.IsLegible
  | _ => True

/-- Numbers are equal if they have one value. -/
theorem Number.equal_iff {a b : Number} :
    a.equal b = true ↔ ∃ q, a.value? = some q ∧ b.value? = some q := by
  unfold equal
  rw [order?_eq, beq_iff_eq, Option.map₂_eq_some_iff]
  constructor
  · rintro ⟨p, q, hp, hq, hpq⟩
    exact ⟨p, hp, compare_eq_iff_eq.mp hpq ▸ hq⟩
  · rintro ⟨q, hp, hq⟩
    exact ⟨q, q, hp, hq, compare_eq_iff_eq.mpr rfl⟩

/-- Whether numbers are equal depends on their values, if they can be compared at all. -/
theorem Value.equalNumbers_congr {a a' b b' : Number}
    (ha : a.exact.isSignalling = a'.exact.isSignalling)
    (hb : b.exact.isSignalling = b'.exact.isSignalling)
    (h : ∀ q, a.value? = some q ∧ b.value? = some q ↔ a'.value? = some q ∧ b'.value? = some q) :
    equalNumbers a b = equalNumbers a' b' := by
  have hequal : a.equal b = a'.equal b' := by
    rw [Bool.eq_iff_iff, Number.equal_iff, Number.equal_iff]
    exact exists_congr h
  unfold equalNumbers Number.equalUndefined
  rw [ha, hb, hequal]

/-- A number is equal to numbers only. -/
theorem Value.equal_of_asNumber? {b : Value} {n : Number} (hb : b.asNumber? = some n) (a : Value) :
    equal a b = (a.asNumber?.map (equalNumbers · n)).getD (.ok false) := by
  cases b
  case bool | int | double | decimal =>
    cases hb
    unfold equal
    cases a with
    | operator op => cases op; rfl
    | _ => rfl
  all_goals cases hb

theorem Value.pointsOrNone_toDouble {d : Decimal} (h : d.text = d.toDouble.text) :
    (Value.double d.toDouble).pointsOrNone = (Value.decimal d).pointsOrNone := by
  show Except.ok (Text.ofString d.toDouble.text).points = Except.ok (Text.ofString d.text).points
  rw [h]

/-- **A decimal number is equal to the same values as its double**, if the double has its value and its
text, and is read as the number. -/
theorem Comparison.equal_toDouble {d : Decimal} (htext : d.text = d.toDouble.text)
    (hd : Numeral.decimal? d.toDouble.text.toList = some d)
    (hvalue : (Number.double d.toDouble).value? = d.value?) (policy : TextPolicy) {a : Value}
    (ha : a.IsLegible) :
    equal (some (.data .double)) policy a (.double d.toDouble) =
      equal (some (.data .decimal)) policy a (.decimal d) := by
  have hquiet : (Number.double d.toDouble).exact.isSignalling = d.isSignalling :=
    (Value.isSignalling_ofDouble _).trans (Double.not_isSignalling_of_decimal? hd).symm
  have hsame : ∀ n : Number, Value.equalNumbers n (.double d.toDouble) =
      Value.equalNumbers n (.decimal d) := fun n =>
    Value.equalNumbers_congr rfl hquiet fun q => by
      rw [hvalue]
      exact Iff.rfl
  unfold equal
  by_cases hnonempty : a.isNonemptyText
  · rw [hnonempty]
    show textEqual policy a (.double d.toDouble) = textEqual policy a (.decimal d)
    dsimp only [textEqual]
    rw [Value.pointsOrNone_toDouble htext]
  · have hempty : ∀ {s : Text}, a.asText? = some s → s = ⟨[]⟩ := by
      rintro ⟨ps⟩ hs
      rw [Value.isNonemptyText, hs] at hnonempty
      simpa [Text.isEmpty] using hnonempty
    rw [eq_false_of_ne_true hnonempty]
    show Value.equal a (.double d.toDouble) = Value.equal (DataType.readDecimal a) (.decimal d)
    rw [Value.equal_of_asNumber? rfl, Value.equal_of_asNumber? rfl]
    cases a with
    | int n => exact hsame _
    | bool b => exact hsame _
    | decimal e => exact hsame _
    | double x =>
      have hread : DataType.readDecimal (.double x) =
          ((Numeral.decimal? x.text.toList).map Value.decimal).getD (.double x) := rfl
      rw [hread]
      rcases he : Numeral.decimal? x.text.toList with - | e
      · exact hsame _
      · refine Value.equalNumbers_congr ?_ hquiet fun q => ?_
        · exact (Value.isSignalling_ofDouble x).trans (Double.not_isSignalling_of_decimal? he).symm
        · have hiff := Double.value?_eq_iff_of_decimal? ha he hd hvalue
          rw [hvalue]
          constructor
          · rintro ⟨hx, hq⟩
            exact ⟨(hiff.mpr (hx.trans hq.symm)).trans hq, hq⟩
          · rintro ⟨hx, hq⟩
            exact ⟨(hiff.mp (hx.trans hq.symm)).trans hq, hq⟩
    -- A text that has no characters is absent as a decimal number.
    | text s =>
      have hs : s = ⟨[]⟩ := hempty rfl
      rw [hs]
      rfl
    | token t =>
      have hread : DataType.readDecimal (.token t) = DataType.readDecimalText t.key (.token t) := rfl
      have ht : t.key = ⟨[]⟩ := hempty rfl
      rw [hread, ht]
      rfl
    | _ => rfl

/-! ### Literals -/

/-- Under the operator a literal survives in a JSON text next to its data type. -/
inductive Value.SurvivesTyped (cmp : Comparison) : DataType → Value → Prop
  | moment {t m} (ht : t = .dateTime ∨ t = .dateTimeOffset) (hm : m.IsLegible) :
      SurvivesTyped cmp t (.moment m)
  | time {t} (ht : t.IsLegible) : SurvivesTyped cmp .time (.time t)
  | decimal {d} (hd : Numeral.decimal? d.toDouble.text.toList = some d) :
      SurvivesTyped cmp .decimal (.decimal d)
  /-- A decimal number that comes back with other digits has the same order, if its value is the
  same. -/
  | ordered {d e r} (hcmp : cmp = .order r) (hd : d.isSignalling = false)
      (he : Numeral.decimal? d.toDouble.text.toList = some e) (hvalue : e.value? = d.value?) :
      SurvivesTyped cmp .decimal (.decimal d)

/-- Under the operator a literal survives in a JSON text alone, its type being inferred from what
stands there. -/
inductive Value.SurvivesBare (cmp : Comparison) : DataType → Value → Prop
  | moment {m} (hm : m.IsLegible) : SurvivesBare cmp .dateTime (.moment m)
  | time {t} (hcmp : cmp.IsOnTexts) (ht : t.clock.isValid) : SurvivesBare cmp .time (.time t)
  | decimal {d} (hcmp : cmp.IsOnTexts) (hd : d.text = d.toDouble.text) :
      SurvivesBare cmp .decimal (.decimal d)
  /-- A decimal number is equal to the same values as the double that has its value and its text. -/
  | equal {d} (hcmp : cmp = .eq ∨ cmp = .ne) (htext : d.text = d.toDouble.text)
      (hd : Numeral.decimal? d.toDouble.text.toList = some d)
      (hvalue : (Number.double d.toDouble).value? = d.value?) : SurvivesBare cmp .decimal (.decimal d)

section

variable {cmp : Comparison} {t : DataType} {v : Value}

/-- The double in the place of a decimal number is read as the decimal number of its text. -/
theorem DataType.read_decimal {d e : Decimal}
    (h : Numeral.decimal? d.toDouble.text.toList = some e) :
    DataType.decimal.read (Value.decimal d).encoded = .ok (.decimal e) := by
  have hread : readDecimal (.double d.toDouble) =
      ((Numeral.decimal? d.toDouble.text.toList).map Value.decimal).getD (.double d.toDouble) := rfl
  rw [h] at hread
  exact congrArg Except.ok hread

/-- **What is read into the type of such a literal compares as the literal did.** -/
theorem Value.SurvivesTyped.exists_read (h : v.SurvivesTyped cmp t) :
    ∃ w, t.read v.encoded = .ok w ∧
      ∀ type policy a, cmp.holds type policy a w = cmp.holds type policy a v := by
  cases h with
  | @moment _ m ht hm =>
    refine ⟨.moment m, ?_, fun _ _ _ => rfl⟩
    rcases ht with rfl | rfl
    all_goals exact congrArg Except.ok (DataType.readMoment_isoText hm)
  | @time t ht => exact ⟨.time t, congrArg Except.ok (DataType.readTime_text ht), fun _ _ _ => rfl⟩
  | @decimal d hd => exact ⟨.decimal d, DataType.read_decimal hd, fun _ _ _ => rfl⟩
  | @ordered d e r hcmp hd he hvalue =>
    subst hcmp
    exact ⟨.decimal e, DataType.read_decimal he,
      fun type _ a => Comparison.ordered_decimal hvalue type r a⟩

/-- **What is read into the inferred type compares as the literal did**, with doubles that are read
back from their texts. -/
theorem Value.SurvivesBare.exists_read (h : v.SurvivesBare cmp t) :
    ∃ w, (DataType.infer v.encoded).read v.encoded = .ok w ∧ ∀ policy {a : Value}, a.IsLegible →
      cmp.holds (some (.data (DataType.infer v.encoded))) policy a w =
        cmp.holds (some (.data t)) policy a v := by
  cases h with
  | @moment m hm =>
    have hinfer : DataType.infer (Value.moment m).encoded = .dateTime :=
      DataType.inferText_isoText hm
    rw [hinfer]
    exact ⟨_, congrArg Except.ok (DataType.readMoment_isoText hm), fun _ _ _ => rfl⟩
  | @time t hcmp ht =>
    have hinfer : DataType.infer (Value.time t).encoded = .string := DataType.inferText_time ht
    rw [hinfer]
    have hpoints : (Value.text t.text).pointsOrNone = (Value.time t).pointsOrNone := rfl
    exact ⟨.text t.text, rfl, fun policy a _ => hcmp.holds_congr hpoints _ _ policy a⟩
  | @decimal d hcmp hd =>
    exact ⟨.double d.toDouble, rfl, fun policy a _ =>
      hcmp.holds_congr (Value.pointsOrNone_toDouble hd) _ _ policy a⟩
  | @equal d hcmp htext hd hvalue =>
    refine ⟨.double d.toDouble, rfl, fun policy a ha => ?_⟩
    have hequal := Comparison.equal_toDouble htext hd hvalue policy ha
    rcases hcmp with rfl | rfl
    · exact hequal
    · exact congrArg (Except.map not) hequal

/-- One half is a double, and is written as one. -/
example : Value.SurvivesBare .eq .decimal (.decimal (.finite false 5 (-1))) := by
  have hdouble : (Decimal.finite false 5 (-1)).toDouble = .finite false (2 ^ 52) (-53) := by
    decide +kernel
  refine .equal (.inl rfl) (by decide +kernel) (by decide +kernel) ?_
  rw [hdouble]
  refine congrArg (fun q => some (Extended.signed false q)) ?_
  norm_num

theorem Value.SurvivesTyped.hasJsonText (h : v.SurvivesTyped cmp t) : v.HasJsonText := by
  cases h with
  | moment => trivial
  | time => trivial
  | decimal hd => exact Double.not_isSignalling_of_decimal? hd
  | ordered _ hd => exact hd

theorem Value.SurvivesBare.hasJsonText (h : v.SurvivesBare cmp t) : v.HasJsonText := by
  cases h with
  | moment => trivial
  | time => trivial
  | @decimal d _ hd =>
    rcases d with ⟨_, _, _⟩ | _ | ⟨negative, signalling, payload, origin⟩
    · rfl
    · rfl
    · have htext := congrArg String.toList hd
      cases signalling
      · rfl
      · cases negative <;> simp [Decimal.text, Decimal.toDouble, Double.text] at htext
  | equal _ _ hd => exact Double.not_isSignalling_of_decimal? hd

end

end RecordFilter
