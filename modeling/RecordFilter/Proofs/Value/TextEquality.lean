import RecordFilter.Proofs.DataType.Lenient
import RecordFilter.Proofs.Value.Order

/-!
# Equality of texts

Under a policy two texts are equal if their normal forms are (`TextPolicy.normal`). For types that do not
compare by value the operators of equality test just that, with one exception. The policy is asked only if
the first text is not empty; an empty text is compared as a value of the type. So the policy is overlooked
when the other text is blank (`Comparison.Overlooks`): the two are different although the policy drops
blanks, and as decimal numbers, where a blank text is no value at all, they are equal although it keeps
them.

`Comparison.text_equality` says that there are no other exceptions. Equality of texts is reflexive and
transitive under every policy, and symmetric but for these pairs.
-/

namespace RecordFilter

namespace Text

/-! ### Blank texts -/

theorem trimPoints_eq_nil_iff {cs : List CodePoint} :
    trimPoints cs = [] ↔ ∀ c ∈ cs, isBlank c = true := by
  rw [trimPoints, dropBothEnds, List.reverse_eq_nil_iff, List.dropWhile_eq_nil_iff]
  constructor
  · intro h
    refine List.dropWhile_eq_nil_iff.mp ?_
    rw [← dropWhile_dropWhile, List.dropWhile_eq_nil_iff]
    exact fun c hc => h c (List.mem_reverse.mpr hc)
  · intro h c hc
    exact h c ((List.dropWhile_suffix _).subset (List.mem_reverse.mp hc))

theorem isEmpty_trim (s : Text) : (trim s).isEmpty = s.points.all isBlank := by
  rw [Bool.eq_iff_iff, isEmpty, List.isEmpty_iff, points_trim, trimPoints_eq_nil_iff, List.all_eq_true]

theorem isEmpty_trim_of_isEmpty {s : Text} (h : s.isEmpty = true) : (trim s).isEmpty = true := by
  rcases s with ⟨- | ⟨c, cs⟩⟩
  · rfl
  · cases h

/-- The numbers of the blanks. -/
def blanks : List Nat :=
  List.range' 0x09 5 ++ List.range' 0x1c 5 ++ [0x85, 0xa0, 0x1680] ++ List.range' 0x2000 11 ++
    [0x2028, 0x2029, 0x202f, 0x205f, 0x3000]

theorem isBlank_iff_mem {c : CodePoint} : isBlank c = true ↔ c.number ∈ blanks := by
  simp only [isBlank, blanks, Bool.or_eq_true, Bool.and_eq_true, decide_eq_true_eq, beq_iff_eq,
    List.mem_append, List.mem_range'_1, List.mem_cons, List.not_mem_nil, or_false]
  omega

/-! ### Small letters -/

/-- No letter becomes a blank. -/
theorem isBlank_of_shifted? {n m : Nat} (h : shifted? CaseTable.lower n = some m) :
    isBlank (.ofNumber m) = false := by
  have htable : ∀ r ∈ CaseTable.lower, (r.last : Int) + r.shift < 0x110000 ∧
      ∀ b ∈ blanks, ¬ ((r.first : Int) + r.shift ≤ b ∧ b ≤ (r.last : Int) + r.shift) := by
    decide +kernel
  obtain ⟨r, hr, rfl⟩ := Option.map_eq_some_iff.mp h
  have hrange := List.find?_some hr
  simp only [Bool.and_eq_true, decide_eq_true_eq] at hrange
  obtain ⟨hsmall, hfree⟩ := htable r (List.mem_of_find?_eq_some hr)
  refine Bool.eq_false_iff.mpr fun hblank => ?_
  rw [isBlank_iff_mem, CodePoint.number_ofNumber (by omega)] at hblank
  have := hfree _ hblank
  have hzero : 0 ∉ blanks := by decide
  rcases lt_or_ge ((n : Int) + r.shift) 0 with hneg | hnonneg
  · rw [Int.toNat_of_nonpos (by omega)] at hblank
    exact hzero hblank
  · omega

/-- A character has a small form, and this is blank if the character is. -/
theorem lowerPoint_spec (c : CodePoint) :
    lowerPoint c ≠ [] ∧ (lowerPoint c).all isBlank = isBlank c := by
  -- The tables are looked through once: no blank is in them, and nothing in them becomes blank.
  have hascii : ∀ n < 128, isBlank (CodePoint.ofNumber n).toChar.toLower = isBlank (.ofNumber n) := by
    decide +kernel
  have hruns : ∀ n ∈ blanks, shifted? CaseTable.lower n = none := by decide +kernel
  have hlong : ∀ e ∈ CaseTable.lowerLong, e.2 ≠ [] ∧
      (e.2.map CodePoint.ofNumber).all isBlank = false ∧ e.1 ∉ blanks := by
    decide +kernel
  unfold lowerPoint mapCase
  split
  · rename_i hsmall
    have hsame := hascii c.number hsmall
    rw [CodePoint.ofNumber_number] at hsame
    simp [hsame]
  · split
    · rename_i n hn
      have hc : isBlank c = false := Bool.eq_false_iff.mpr fun h => by
        rw [hruns _ (isBlank_iff_mem.mp h)] at hn
        cases hn
      refine ⟨List.cons_ne_nil _ _, ?_⟩
      rw [hc, List.all_cons, isBlank_of_shifted? hn, Bool.false_and]
    · split
      · rename_i ns hns
        obtain ⟨l₁, l₂, heq, -⟩ := List.lookup_eq_some_iff.mp hns
        obtain ⟨hne, hall, hno⟩ := hlong (c.number, ns) (by simp [heq])
        refine ⟨by simpa using hne, ?_⟩
        rw [hall, Bool.eq_false_iff.mpr fun h => hno (isBlank_iff_mem.mp h)]
      · simp

/-- The small form of a text is blank if the text is. -/
theorem all_isBlank_lowerPoints (cs : List CodePoint) :
    (lowerPoints cs).all isBlank = cs.all isBlank := by
  have hafter : ∀ before, (lowerAfter before cs).all isBlank = cs.all isBlank := by
    induction cs with
    | nil => exact fun _ => rfl
    | cons c cs ih =>
      intro before
      rw [lowerAfter, List.all_append, List.all_cons, ih (c :: before)]
      congr 1
      -- The capital sigma has small forms of its own.
      split
      · rename_i hc
        subst hc
        split <;> decide
      · exact (lowerPoint_spec c).2
  exact hafter []

theorem lowerPoints_eq_nil_iff {cs : List CodePoint} : lowerPoints cs = [] ↔ cs = [] := by
  cases cs with
  | nil => exact iff_of_true rfl rfl
  | cons c cs =>
    refine iff_of_false ?_ (List.cons_ne_nil c cs)
    rw [lowerPoints, lowerAfter, List.append_eq_nil_iff]
    rintro ⟨h, -⟩
    repeat' split at h
    · cases h
    · cases h
    · exact (lowerPoint_spec c).1 h

end Text

/-- The normal form of a text is empty if nothing is left of it without blanks that do not count. -/
theorem TextPolicy.normal_eq_nil_iff (policy : TextPolicy) (s : Text) :
    policy.normal s.points = [] ↔
      (if policy.trimmed then (Text.trim s).isEmpty else s.isEmpty) = true := by
  have hcased : ∀ cs, policy.cased cs = [] ↔ cs = [] := by
    intro cs
    rw [cased]
    split
    · exact Iff.rfl
    · exact Text.lowerPoints_eq_nil_iff
  rw [normal, hcased]
  split <;> exact List.isEmpty_iff.symm

/-- A normal form is blank if the text is. -/
theorem TextPolicy.all_isBlank_normal (policy : TextPolicy) (s : Text) :
    (policy.normal s.points).all Text.isBlank = (Text.trim s).isEmpty := by
  have hcased : ∀ cs, (policy.cased cs).all Text.isBlank = cs.all Text.isBlank := by
    intro cs
    rw [cased]
    split
    · rfl
    · exact Text.all_isBlank_lowerPoints cs
  rw [normal, hcased]
  split
  · rw [← Text.isEmpty_trim, ← Text.points_trim, Text.trim_trim]
  · exact (Text.isEmpty_trim s).symm

namespace Comparison

section

variable (type : Option TypeRef) (policy : TextPolicy)

/-- The first text is empty and the second one is blank, and whether they are equal is not decided by the
policy: it drops blanks and the type does not, or the other way round. -/
def Overlooks (a b : Text) : Prop :=
  a.isEmpty = true ∧ b.isEmpty = false ∧ (Text.trim b).isEmpty = true ∧
    policy.trimmed ≠ decide (type = some (.data .decimal))

/-- What the operators of equality test for two texts. -/
def textsEqual (a b : Text) : Bool :=
  if a.isEmpty then (if type = some (.data .decimal) then (Text.trim b).isEmpty else b.isEmpty)
  else policy.normal a.points == policy.normal b.points

end

section

variable {type : Option TypeRef} (htype : isByValue type = false) (policy : TextPolicy)

include htype

/-- An empty text is compared as a value of the type. -/
theorem equal_comparable_empty (b : Text) :
    Value.equal (TypeRef.comparable type (.text "")) (TypeRef.comparable type (.text b)) =
      .ok (if type = some (.data .decimal) then (Text.trim b).isEmpty else b.isEmpty) := by
  have hempty : (Text.ofString "" == b) = b.isEmpty := by
    rcases b with ⟨- | ⟨c, cs⟩⟩ <;> rfl
  have hplain : Value.equal (.text "") (.text b) = .ok b.isEmpty :=
    (Value.equal_of_isScalar (a := .text "") trivial _).trans (congrArg Except.ok hempty)
  have hdecimal : Value.equal .null (DataType.readDecimalText b (.text b)) =
      .ok (Text.trim b).isEmpty := by
    rw [Value.equal_of_isScalar (a := .null) trivial, DataType.readDecimalText, Text.isEmpty_chars]
    cases (Text.trim b).isEmpty
    · rcases DataType.getD_map_eq_or Value.decimal (Numeral.decimal? (Text.trim b).chars) (.text b)
        with h | ⟨d, h⟩
      · exact congrArg (Value.equalScalars .null) h
      · exact congrArg (Value.equalScalars .null) h
    · rfl
  rcases type with - | ⟨t⟩ | e
  · exact hplain
  · cases t
    case decimal => exact hdecimal
    case dateTime | dateTimeOffset | time | guid => cases htype
    all_goals exact hplain
  · exact hplain

/-- A text that is not empty is compared under the policy. -/
theorem equal_of_nonempty {a : Text} (ha : a.isEmpty = false) (b : Text) :
    equal type policy (.text a) (.text b) = .ok (policy.normal a.points == policy.normal b.points) := by
  have hnonempty : (Value.text a).isNonemptyText = true := by
    simp [Value.isNonemptyText, Value.asText?, ha]
  rw [equal, hnonempty, htype]
  rfl

theorem equal_texts (a b : Text) :
    equal type policy (.text a) (.text b) = .ok (textsEqual type policy a b) := by
  unfold textsEqual
  cases ha : a.isEmpty
  · exact equal_of_nonempty htype policy ha b
  · obtain rfl : a = "" := by
      rcases a with ⟨- | ⟨c, cs⟩⟩
      · rfl
      · cases ha
    rw [equal, htype]
    exact equal_comparable_empty htype b

end

/-- The policy decides unless it is overlooked. -/
theorem textsEqual_iff (type : Option TypeRef) (policy : TextPolicy) (a b : Text) :
    (textsEqual type policy a b = true ↔ policy.normal a.points = policy.normal b.points) ↔
      ¬ Overlooks type policy a b := by
  -- An empty text is equal to what is empty with blanks or without them, as the type or the policy says.
  have hcases : ∀ decimal trimmed empty blank : Bool, (empty = true → blank = true) →
      (((if decimal then blank else empty) = true ↔ (if trimmed then blank else empty) = true) ↔
        ¬ (empty = false ∧ blank = true ∧ trimmed ≠ decimal)) := by decide
  unfold textsEqual Overlooks
  cases hempty : a.isEmpty
  · simp
  · have hnil : policy.normal a.points = [] := by
      rw [TextPolicy.normal_eq_nil_iff, hempty, Text.isEmpty_trim_of_isEmpty hempty, ite_self]
    rw [hnil, eq_comm (a := []), TextPolicy.normal_eq_nil_iff, if_pos rfl]
    have h := hcases (decide (type = some (.data .decimal))) policy.trimmed b.isEmpty
      (Text.trim b).isEmpty Text.isEmpty_trim_of_isEmpty
    simpa using h

/-- Equality of texts is transitive, also where the policy is overlooked. -/
theorem textsEqual_trans {type : Option TypeRef} {policy : TextPolicy} {a b c : Text}
    (hab : textsEqual type policy a b = true) (hbc : textsEqual type policy b c = true) :
    textsEqual type policy a c = true := by
  unfold textsEqual at hab hbc ⊢
  cases ha : a.isEmpty <;> cases hb : b.isEmpty <;>
    simp only [ha, hb, Bool.false_eq_true, if_true, if_false, beq_iff_eq] at hab hbc ⊢
  · exact hab.trans hbc
  · -- There are only blanks in `a`, which the policy drops, and so there are in `c`.
    have hnil : policy.normal b.points = [] := by
      rw [TextPolicy.normal_eq_nil_iff, hb, Text.isEmpty_trim_of_isEmpty hb, ite_self]
    have hc : (Text.trim c).isEmpty = true := by
      split at hbc
      · exact hbc
      · exact Text.isEmpty_trim_of_isEmpty hbc
    rw [hnil] at hab
    rw [hab, eq_comm, TextPolicy.normal_eq_nil_iff]
    rw [TextPolicy.normal_eq_nil_iff, ha] at hab
    split at hab
    · rename_i htrimmed
      rw [if_pos htrimmed, hc]
    · cases hab
  · -- As a decimal number `b` is blank, and `c` has the normal form of `b`.
    split at hab
    · rename_i hdecimal
      rw [if_pos hdecimal, ← policy.all_isBlank_normal, ← hbc, policy.all_isBlank_normal, hab]
    · cases hab
  · exact hbc

/-- **Texts are equal if and only if their normal forms are**, and different otherwise, unless the policy
is overlooked: that is so when the first text is empty, the second one is blank, and the policy drops
blanks, or for decimal numbers keeps them. Equality of texts is reflexive and transitive under every
policy, and it is symmetric for all pairs for which the policy is not overlooked. -/
theorem text_equality {type : Option TypeRef} (htype : isByValue type = false) (policy : TextPolicy) :
    let eq (a b : Text) := answer (.ofKey (.text "eq")) type policy (.text a) (.text b)
    let ne (a b : Text) := answer (.ofKey (.text "ne")) type policy (.text a) (.text b)
    (∀ a b, ∃ holds, eq a b = .ok holds ∧ ne a b = .ok (!holds) ∧
      ((holds = true ↔ policy.normal a.points = policy.normal b.points) ↔
        ¬ Overlooks type policy a b)) ∧
    (∀ a, eq a a = .ok true) ∧
    (∀ a b c, eq a b = .ok true → eq b c = .ok true → eq a c = .ok true) ∧
    (∀ a b, eq a b = eq b a ↔ ¬ Overlooks type policy a b ∧ ¬ Overlooks type policy b a) := by
  intro eq ne
  have heq : ∀ a b, eq a b = .ok (textsEqual type policy a b) := fun a b =>
    (answer_ofKey .eq type policy (.text a) (.text b)).trans (equal_texts htype policy a b)
  have hne : ∀ a b, ne a b = .ok (!textsEqual type policy a b) := fun a b =>
    (answer_ofKey .ne type policy (.text a) (.text b)).trans
      (congrArg (Except.map not) (equal_texts htype policy a b))
  simp only [heq, hne, Except.ok.injEq]
  refine ⟨fun a b => ⟨_, rfl, rfl, textsEqual_iff type policy a b⟩, fun a => ?_,
    fun a b c => textsEqual_trans, fun a b => ?_⟩
  · have hself : ¬ Overlooks type policy a a := fun ⟨h, h', _⟩ => by simp [h] at h'
    exact ((textsEqual_iff type policy a a).mpr hself).mpr rfl
  · have hab := textsEqual_iff type policy a b
    have hba := textsEqual_iff type policy b a
    have hswap : Overlooks type policy a b → ¬ Overlooks type policy b a :=
      fun ⟨_, h, _⟩ ⟨h', _⟩ => by simp [h] at h'
    have hnormal : policy.normal a.points = policy.normal b.points ↔
        policy.normal b.points = policy.normal a.points := eq_comm
    rw [Bool.eq_iff_iff]
    tauto

/-- Texts in different letter case, one of them padded, are equal under a policy that sets both aside. -/
theorem text_equality_of_padded_text :
    answer (.ofKey (.text "eq")) (some (.data .string)) ⟨false, true⟩ (.text "London")
      (.text " LONDON ") = .ok true := by
  obtain ⟨holds, heq, -, hiff⟩ :=
    (@text_equality (some (.data .string)) rfl ⟨false, true⟩).1 "London" " LONDON "
  have hno : ¬ Overlooks (some (.data .string)) ⟨false, true⟩ "London" " LONDON " :=
    fun h => absurd h.1 (by decide)
  exact heq.trans (congrArg Except.ok ((hiff.mpr hno).mpr (by decide)))

/-- **An empty text differs from a blank one although blanks are dropped**, and the blank one equals it. -/
theorem empty_text_differs_from_blank :
    let policy : TextPolicy := ⟨false, true⟩
    policy.normal (Text.points "") = policy.normal (Text.points "  ") ∧
      answer (.ofKey (.text "eq")) (some (.data .string)) policy (.text "") (.text "  ") = .ok false ∧
      answer (.ofKey (.text "eq")) (some (.data .string)) policy (.text "  ") (.text "") = .ok true := by
  intro policy
  have heq : ∀ a b : Text, answer (.ofKey (.text "eq")) (some (.data .string)) policy (.text a)
      (.text b) = .ok (textsEqual (some (.data .string)) policy a b) := fun a b =>
    (answer_ofKey .eq _ policy (.text a) (.text b)).trans (equal_texts rfl policy a b)
  rw [heq, heq]
  exact ⟨by decide, congrArg Except.ok (by decide), congrArg Except.ok (by decide)⟩

end Comparison

end RecordFilter
