import RecordFilter.Comparison
import RecordFilter.Proofs.DataType.Reading

/-!
# What comparisons make of policies

Comparisons of order do not look at the policy, the tests of equality look at all of it unless the type
compares by value, and the tests of parts of texts look at the letter case alone. This is what tells
whether values of a type are compared alike under two policies (`Comparison.holds_eq_iff`).

Of the types that compare by value, identifiers are compared by their texts in small letters, so it
does not matter in which letter case a text is given, and whether an identifier is given as such or as
its text (`Comparison.holds_respelled`).
-/

namespace RecordFilter

/-! ### Two policies -/

namespace TextPolicy

theorem cased_congr {q o : TextPolicy} (h : q.caseSensitive = o.caseSensitive)
    (cs : List CodePoint) : q.cased cs = o.cased cs := by
  rw [cased, cased, h]

/-- A letter and its capital form tell whether a policy looks at letter case. -/
theorem normal_capital (q : TextPolicy) :
    (q.normal ("a" : Text).points == q.normal ("A" : Text).points) = !q.caseSensitive := by
  rcases q with ⟨- | -, - | -⟩ <;> rfl

/-- A letter with and without a blank behind it tells whether a policy looks at the ends of texts. -/
theorem normal_padded (q : TextPolicy) :
    (q.normal ("a" : Text).points == q.normal ("a " : Text).points) = q.trimmed := by
  rcases q with ⟨- | -, - | -⟩ <;> rfl

end TextPolicy

namespace Comparison

variable {type : Option TypeRef} {q o : TextPolicy}

/-- What two policies must have in common so that a comparison of values of a type is the same. -/
def IsSameUnder (type : Option TypeRef) (q o : TextPolicy) : Comparison → Prop
  | eq | ne => isByValue type ∨ q = o
  | order _ => True
  | startsWith | endsWith | contains => q.caseSensitive = o.caseSensitive

theorem IsSameUnder.refl (k : Comparison) : k.IsSameUnder type q q := by
  cases k
  case eq | ne => exact .inr rfl
  case order => exact trivial
  all_goals exact rfl

theorem equal_congr (h : isByValue type ∨ q = o) (a b : Value) :
    equal type q a b = equal type o a b := by
  rcases h with htype | rfl
  · simp only [equal, htype, Bool.not_true, Bool.and_false, Bool.false_eq_true, if_false]
  · rfl

theorem onTexts_congr (h : q.caseSensitive = o.caseSensitive)
    (test : List CodePoint → List CodePoint → Bool) (a b : Value) :
    onTexts q test a b = onTexts o test a b := by
  simp only [onTexts, TextPolicy.cased_congr h]

/-- Policies that a test of equality does not tell apart are the same, unless the type compares by
value. -/
theorem eq_of_equal (htype : ¬ isByValue type) (h : ∀ a b, equal type q a b = equal type o a b) :
    q = o := by
  have htexts : ∀ (p : TextPolicy) (s : Text), equal type p (.text "a") (.text s) =
      .ok (p.normal ("a" : Text).points == p.normal s.points) := by
    intro p s
    have hnonempty : ((Value.text "a").isNonemptyText && !isByValue type) = true := by
      rw [(Bool.not_eq_true _).mp htype]
      rfl
    rw [equal, if_pos hnonempty]
    rfl
  have hcapital := h (.text "a") (.text "A")
  have hpadded := h (.text "a") (.text "a ")
  rw [htexts, htexts, TextPolicy.normal_capital, TextPolicy.normal_capital] at hcapital
  rw [htexts, htexts, TextPolicy.normal_padded, TextPolicy.normal_padded] at hpadded
  rcases q with ⟨case, trimmed⟩
  rcases o with ⟨case', trimmed'⟩
  cases Bool.not_inj (Except.ok.inj hcapital)
  cases Except.ok.inj hpadded
  rfl

/-- Policies that a test of parts of texts does not tell apart agree on letter case. -/
theorem caseSensitive_eq_of_onTexts {test : List CodePoint → List CodePoint → Bool}
    (htest : ∀ p : TextPolicy,
      test (p.cased ("a" : Text).points) (p.cased ("A" : Text).points) = !p.caseSensitive)
    (h : ∀ a b, onTexts q test a b = onTexts o test a b) : q.caseSensitive = o.caseSensitive := by
  have hcapital := h (.text "a") (.text "A")
  have htexts : ∀ p : TextPolicy, onTexts p test (.text "a") (.text "A") = .ok (!p.caseSensitive) :=
    fun p => congrArg Except.ok (htest p)
  rw [htexts, htexts] at hcapital
  exact Bool.not_inj (Except.ok.inj hcapital)

theorem eq_of_map_not {x y : Except Fault Bool} (h : x.map not = y.map not) : x = y := by
  rcases x with f | a <;> rcases y with g | b
  · exact h
  · cases h
  · cases h
  · exact congrArg Except.ok (Bool.not_inj (Except.ok.inj h))

/-- **Two policies make no difference to a comparison exactly if they agree on what it looks at**:
comparisons of order look at nothing, tests of equality at everything unless the type compares by
value, and tests of parts of texts at the letter case. -/
theorem holds_eq_iff (k : Comparison) :
    (∀ a b, k.holds type q a b = k.holds type o a b) ↔ k.IsSameUnder type q o := by
  cases k
  case eq =>
    constructor
    · intro h
      exact Decidable.or_iff_not_imp_left.mpr fun htype => eq_of_equal htype h
    · exact fun h a b => equal_congr h a b
  case ne =>
    constructor
    · intro h
      exact Decidable.or_iff_not_imp_left.mpr fun htype =>
        eq_of_equal htype fun a b => eq_of_map_not (h a b)
    · exact fun h a b => congrArg (Except.map not) (equal_congr h a b)
  case order => exact iff_of_true (fun _ _ => rfl) trivial
  case startsWith | endsWith | contains =>
    constructor
    · refine caseSensitive_eq_of_onTexts fun p => ?_
      rcases p with ⟨- | -, - | -⟩ <;> rfl
    · exact fun h a b => onTexts_congr h _ a b

end Comparison

/-! ### Letter case of ASCII -/

namespace Text

/-- The capital letters of ASCII. -/
def capitals : List CodePoint :=
  (List.range 26).map fun n => .char (.ofNat (65 + n))

/-- Capital letters are all that has a small form in ASCII. -/
theorem lowerAscii_eq_or_mem (c : CodePoint) : lowerAscii c = c ∨ c ∈ capitals := by
  cases c with
  | surrogate n => exact .inl rfl
  | char c =>
    by_cases hc : 65 ≤ c.toNat ∧ c.toNat ≤ 90
    · refine .inr (List.mem_map.mpr ⟨c.toNat - 65, List.mem_range.mpr (by omega), ?_⟩)
      rw [Nat.add_sub_cancel' hc.1, Char.ofNat_toNat]
    · refine .inl (congrArg CodePoint.char (dif_neg fun h => hc ?_))
      exact ⟨UInt32.le_iff_toNat_le.mp h.1, UInt32.le_iff_toNat_le.mp h.2⟩

/-- What letter case in ASCII leaves as it is: the small form, whether it is a sigma, and what the
character does to a sigma next to it. -/
theorem lowerAscii_spec (c : CodePoint) :
    lowerPoint (lowerAscii c) = lowerPoint c ∧ (lowerAscii c = 'Σ' ↔ c = 'Σ') ∧
      inRanges CaseTable.ignorable (lowerAscii c).number = inRanges CaseTable.ignorable c.number ∧
      inRanges CaseTable.cased (lowerAscii c).number = inRanges CaseTable.cased c.number := by
  rcases lowerAscii_eq_or_mem c with h | h
  · rw [h]
    exact ⟨rfl, Iff.rfl, rfl, rfl⟩
  · -- the tables are looked at for the 26 capital letters only
    revert c
    decide +kernel

theorem nextIsCased_map_lowerAscii (cs : List CodePoint) :
    nextIsCased (cs.map lowerAscii) = nextIsCased cs := by
  induction cs with
  | nil => rfl
  | cons c cs ih =>
    obtain ⟨-, -, hignorable, hcased⟩ := lowerAscii_spec c
    unfold nextIsCased at ih ⊢
    rw [List.map_cons, List.dropWhile_cons, List.dropWhile_cons, hignorable]
    cases inRanges CaseTable.ignorable c.number
    · exact hcased
    · exact ih

theorem lowerAfter_map_lowerAscii (before cs : List CodePoint) :
    lowerAfter (before.map lowerAscii) (cs.map lowerAscii) = lowerAfter before cs := by
  induction cs generalizing before with
  | nil => rfl
  | cons c cs ih =>
    obtain ⟨hpoint, hsigma, -, -⟩ := lowerAscii_spec c
    rw [List.map_cons, lowerAfter, lowerAfter, ← List.map_cons, ih, hpoint,
      nextIsCased_map_lowerAscii, nextIsCased_map_lowerAscii]
    simp only [hsigma]

/-- Two texts are the same but for the letter case of letters of ASCII. -/
def SameButCase (s t : Text) : Prop :=
  s.points.map lowerAscii = t.points.map lowerAscii

/-- Texts that are the same but for letter case have one small form. -/
theorem SameButCase.lower_eq {s t : Text} (h : s.SameButCase t) : lower s = lower t := by
  have hpoints : ∀ cs, lowerPoints (cs.map lowerAscii) = lowerPoints cs := lowerAfter_map_lowerAscii []
  rw [lower, lower, ← hpoints s.points, h, hpoints]

/-- A text all of whose characters are small stays as it is. -/
theorem lowerAfter_of_forall {cs : List CodePoint} (h : ∀ c ∈ cs, lowerPoint c = [c] ∧ c ≠ 'Σ')
    (before : List CodePoint) : lowerAfter before cs = cs := by
  induction cs generalizing before with
  | nil => rfl
  | cons c cs ih =>
    obtain ⟨⟨hsmall, hsigma⟩, hrest⟩ := List.forall_mem_cons.mp h
    rw [lowerAfter, if_neg hsigma, hsmall, ih hrest, List.singleton_append]

end Text

/-! ### Identifiers -/

/-- The text of an identifier is written in small letters. -/
theorem Guid.lower_text (g : Guid) : Text.lower g.text = (g.text : Text) := by
  have hsmall : ∀ c ∈ (g.text : Text).points, Text.lowerPoint c = [c] ∧ c ≠ 'Σ' := by
    intro c hc
    rw [Text.points_ofString] at hc
    obtain ⟨d, hd, rfl⟩ := List.mem_map.mp hc
    rw [Guid.text] at hd
    rcases Text.mem_intercalate hd with hd | ⟨s, hs, hd⟩
    · cases List.mem_singleton.mp hd
      exact ⟨rfl, by decide⟩
    · have hdigit : ∀ n < 16, Text.lowerPoint (Text.hexChar n) = [CodePoint.char (Text.hexChar n)] ∧
          CodePoint.char (Text.hexChar n) ≠ 'Σ' := by decide
      obtain ⟨n, hn, rfl⟩ := Guid.mem_hexDigits (Guid.mem_cut hs hd)
      exact hdigit n hn
  rw [Text.lower, Text.lowerPoints, Text.lowerAfter_of_forall hsmall]

/-- A value in place of another one in a comparison of identifiers: the value itself, a text in which
letters of ASCII have another case, or the text of an identifier. -/
inductive Value.Respelled : Value → Value → Prop
  | same (v : Value) : Respelled v v
  | cased {v w : Value} {s t : Text} :
      v.asText? = some s → w.asText? = some t → s.SameButCase t → Respelled v w
  | written (g : Guid) : Respelled (.guid g) (.text g.text)

theorem DataType.comparable_guid_of_asText? {v : Value} {s : Text} (h : v.asText? = some s) :
    DataType.guid.comparable v = .text (Text.lower s) := by
  cases v
  case text | token =>
    cases h
    rfl
  all_goals cases h

/-- Identifiers are compared in a form that does not depend on how they are spelled. -/
theorem Value.Respelled.comparable {v w : Value} (h : v.Respelled w) :
    DataType.guid.comparable v = DataType.guid.comparable w := by
  cases h with
  | same => rfl
  | cased hv hw hcase =>
    rw [DataType.comparable_guid_of_asText? hv, DataType.comparable_guid_of_asText? hw,
      hcase.lower_eq]
  | written g =>
    have htext : DataType.guid.comparable (.text g.text) = .text (Text.lower g.text) := rfl
    rw [htext, Guid.lower_text]
    rfl

/-- **Identifiers are compared alike however they are spelled**: for equality and for order, under
whatever policies. -/
theorem Comparison.holds_respelled {k : Comparison} (hk : k = eq ∨ k = ne ∨ ∃ r, k = order r)
    (q o : TextPolicy) {a a' b b' : Value} (ha : a.Respelled a') (hb : b.Respelled b') :
    k.holds (some (.data .guid)) q a b = k.holds (some (.data .guid)) o a' b' := by
  have hequal : equal (some (.data .guid)) q a b = equal (some (.data .guid)) o a' b' := by
    have hvalue : isByValue (some (.data .guid)) = true := rfl
    simp only [equal, hvalue, Bool.not_true, Bool.and_false, Bool.false_eq_true, if_false,
      TypeRef.comparable, ha.comparable, hb.comparable]
  rcases hk with rfl | rfl | ⟨r, rfl⟩
  · exact hequal
  · exact congrArg (Except.map not) hequal
  · simp only [holds, ordered, TypeRef.comparable, ha.comparable, hb.comparable]

end RecordFilter
