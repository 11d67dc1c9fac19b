import Mathlib.Data.List.Infix
import RecordFilter.Function.Apply
import RecordFilter.Proofs.Outcome

/-!
# Functions of texts

Cutting a text, searching in it and replacing a part of it are tied to each other: all of them speak of
places, and the places of a text are the integers from zero to its length. Other integers stand for its
start or its end (`Text.clamp`), so the functions have a value for all of them. The main statement is
`Function.text_functions_agree`.
-/

namespace RecordFilter

namespace Text

/-! ### Places in a text -/

/-- The place in a text that an integer stands for. -/
def clamp (s : Text) (n : Int) : Nat :=
  (max 0 (min n s.length)).toNat

/-- The part of a text between two of its places, given in either order. -/
def between (s : Text) (i j : Nat) : Text :=
  ⟨s.points.extract (min i j) (max i j)⟩

theorem between_comm (s : Text) (i j : Nat) : s.between i j = s.between j i := by
  rw [between, between, min_comm, max_comm]

/-! ### The first occurrence of a text -/

variable {find cs : List CodePoint} {i : Nat}

theorem startsWith_iff : startsWith cs find ↔ find <+: cs :=
  List.isPrefixOf_iff_prefix

/-- The first occurrence is one, and there is none before it. -/
theorem indexOf?_eq_some (h : indexOf? find cs = some i) :
    i ≤ cs.length ∧ find <+: cs.drop i ∧ ∀ j < i, ¬ find <+: cs.drop j := by
  induction cs generalizing i with
  | nil =>
    unfold indexOf? at h
    split at h
    · rename_i hempty
      cases h
      rw [List.isEmpty_iff.mp hempty]
      exact ⟨le_rfl, List.nil_prefix, fun j hj => absurd hj (Nat.not_lt_zero j)⟩
    · cases h
  | cons c cs ih =>
    unfold indexOf? at h
    split at h
    · rename_i hstart
      cases h
      exact ⟨Nat.zero_le _, startsWith_iff.mp hstart, fun j hj => absurd hj (Nat.not_lt_zero j)⟩
    · rename_i hstart
      obtain ⟨n, hn, rfl⟩ := Option.map_eq_some_iff.mp h
      obtain ⟨hle, hprefix, hfirst⟩ := ih hn
      refine ⟨Nat.succ_le_succ hle, hprefix, fun j hj => ?_⟩
      rcases j with - | j
      · exact fun hzero => hstart (startsWith_iff.mpr hzero)
      · exact hfirst j (Nat.lt_of_succ_lt_succ hj)

theorem indexOf?_eq_none (h : indexOf? find cs = none) : ¬ find <:+: cs := by
  induction cs with
  | nil =>
    unfold indexOf? at h
    split at h
    · cases h
    · rename_i hempty
      intro hinfix
      exact hempty (List.isEmpty_iff.mpr (List.infix_nil.mp hinfix))
  | cons c cs ih =>
    unfold indexOf? at h
    split at h
    · cases h
    · rename_i hstart
      intro hinfix
      rcases List.infix_cons_iff.mp hinfix with hprefix | hinfix
      · exact hstart (startsWith_iff.mpr hprefix)
      · exact ih (Option.map_eq_none_iff.mp h) hinfix

/-- A text contains another one exactly if that is a run of its code points. -/
theorem contains_iff : contains cs find ↔ find <:+: cs := by
  unfold contains
  rcases h : indexOf? find cs with - | i
  · simpa using indexOf?_eq_none h
  · have hprefix := (indexOf?_eq_some h).2.1
    simpa using hprefix.isInfix.trans (List.drop_suffix i cs).isInfix

theorem startsWith_eq : startsWith cs find = decide (indexOf? find cs = some 0) := by
  rcases cs with - | ⟨c, cs⟩
  · cases find <;> rfl
  · unfold indexOf?
    split
    · simp_all
    · simp_all

/-! ### Cutting a text -/

section

variable {s : Text}

theorem clamp_eq (s : Text) (n : Int) : s.clamp n = min n.toNat s.length := by
  unfold clamp
  omega

theorem slice_eq_drop_take (cs : List CodePoint) (m n : Nat) :
    Function.slice cs m n = (cs.take (max m n)).drop (min m n) := by
  unfold Function.slice
  by_cases h : n < m
  · rw [if_pos h, max_eq_left h.le, min_eq_right h.le]
  · rw [if_neg h, max_eq_right (Nat.le_of_not_lt h), min_eq_left (Nat.le_of_not_lt h)]

/-- What a text is cut to does not depend on how far the places lie outside of it. -/
theorem slice_eq (m n : Nat) :
    Function.slice s.points m n = (s.between (min m s.length) (min n s.length)).points := by
  have hlength : s.length = s.points.length := rfl
  rw [slice_eq_drop_take, List.drop_take, between]
  apply List.ext_getElem?
  intro i
  rw [List.getElem?_take, List.getElem?_drop, List.getElem?_take, List.getElem?_drop]
  by_cases hi : min m n + i < s.points.length
  · have hlow : min (min m s.length) (min n s.length) = min m n := by omega
    rw [hlow]
    exact if_congr (by omega) rfl rfl
  · rw [List.getElem?_eq_none (by omega), List.getElem?_eq_none (by omega), ite_self, ite_self]

/-- The text before a place and the text from there on. -/
theorem between_append {n : Nat} (h : n ≤ s.length) :
    s.between 0 n ++ s.between n s.length = s := by
  have hlow : s.between 0 n = ⟨s.points.take n⟩ := by
    simp [between]
  have hhigh : s.between n s.length = ⟨s.points.drop n⟩ := by
    rw [between, min_eq_left h, max_eq_right h, List.extract_eq_take_drop,
      List.take_of_length_le (by simp [length])]
  rw [hlow, hhigh]
  exact congrArg Text.mk (List.take_append_drop n s.points)

end

end Text

namespace Function

/-! ### Values of the functions -/

variable (s f r : Text) (a b k : Int)

theorem apply_substring :
    apply substring [.text s, .int a, .int b] = .ok (.text (s.between (s.clamp a) (s.clamp b))) := by
  change Except.ok (Value.ofPoints (slice s.points a.toNat b.toNat)) = _
  rw [Text.slice_eq, ← Text.clamp_eq, ← Text.clamp_eq]
  rfl

theorem apply_substring_rest :
    apply substring [.text s, .int k] = .ok (.text (s.between (s.clamp k) s.length)) := by
  change Except.ok (Value.ofPoints (slice s.points k.toNat s.length)) = _
  rw [Text.slice_eq, ← Text.clamp_eq, min_self]
  rfl

/-- A run of `n` code points from a place on, as far as the text goes. -/
theorem apply_substring_run (j n : Nat) :
    apply substring [.text s, .int j, .int (j + n)] = .ok (.text ⟨(s.points.drop j).take n⟩) := by
  change Except.ok (Value.ofPoints (slice s.points (j : Int).toNat (j + n : Int).toNat)) = _
  rw [Text.slice_eq_drop_take, List.drop_take]
  have hhigh : max (j : Int).toNat (j + n : Int).toNat = j + n := by omega
  have hlow : min (j : Int).toNat (j + n : Int).toNat = j := by omega
  rw [hhigh, hlow, Nat.add_sub_cancel_left]
  rfl

/-- The run as long as `f` from a place on is `f` exactly if `f` occurs there. -/
theorem apply_substring_eq_iff (j : Nat) :
    apply substring [.text s, .int j, .int (j + f.length)] = .ok (.text f) ↔
      f.points <+: s.points.drop j := by
  rw [apply_substring_run, List.prefix_iff_eq_take]
  constructor
  · intro h
    exact congrArg Text.points (Value.text.inj (Except.ok.inj h)).symm
  · intro h
    exact congrArg (fun cs => Except.ok (Value.text ⟨cs⟩)) h.symm

/-- Cutting a text in two and putting both parts together again. -/
theorem concat_substring :
    (do
      let front ← apply substring [.text s, .int 0, .int k]
      let back ← apply substring [.text s, .int k]
      apply concat [front, back]) = .ok (.text s) := by
  rw [apply_substring, apply_substring_rest]
  have hzero : s.clamp 0 = 0 := by
    rw [Text.clamp_eq, Int.toNat_zero, Nat.zero_min]
  have hle : s.clamp k ≤ s.length := by
    rw [Text.clamp_eq]
    exact min_le_right _ _
  have hwhole := Text.between_append hle
  rw [hzero]
  exact congrArg (fun t => Except.ok (Value.text t)) hwhole

variable {s f}

/-- Where `f` occurs first, the text is cut around it to put `r` in its place. -/
theorem apply_replace_of_indexOf? {i : Nat} (h : Text.indexOf? f.points s.points = some i) :
    apply replace [.text s, .text f, .text r] = (do
      let front ← apply substring [.text s, .int 0, .int i]
      let back ← apply substring [.text s, .int (i + f.length)]
      apply concat [← apply concat [front, .text r], back]) := by
  obtain ⟨hle, hprefix, -⟩ := Text.indexOf?_eq_some h
  have hend : i + f.length ≤ s.length := by
    have hshort := hprefix.length_le
    rw [List.length_drop] at hshort
    simp only [Text.length]
    omega
  have hfront := apply_substring_run s 0 i
  rw [List.drop_zero, Int.ofNat_zero, Int.zero_add] at hfront
  have hback : apply substring [.text s, .int (i + f.length)] =
      .ok (.text ⟨s.points.drop (i + f.length)⟩) := by
    change Except.ok (Value.ofPoints (slice s.points (i + f.length : Int).toNat s.length)) = _
    rw [Text.slice_eq_drop_take]
    have hhigh : max (i + f.length : Int).toNat s.length = s.length := by omega
    have hlow : min (i + f.length : Int).toNat s.length = i + f.length := by omega
    rw [hhigh, hlow, List.take_of_length_le (show s.points.length ≤ s.length from le_rfl)]
    rfl
  rw [hfront, hback]
  change Except.ok (Value.ofPoints (Text.replaceFirst f.points r.points s.points)) = _
  rw [Text.replaceFirst, h]
  rfl

theorem apply_replace_of_none (h : Text.indexOf? f.points s.points = none) :
    apply replace [.text s, .text f, .text r] = .ok (.text s) := by
  change Except.ok (Value.ofPoints (Text.replaceFirst f.points r.points s.points)) = _
  rw [Text.replaceFirst, h]
  rfl

variable (s f)

/-- **The functions of texts agree with each other.** Cutting a text at two places in either order gives
what lies between them, and a text that is cut in two is put together from its parts. A text is found at the
first place where it can be cut out, which is there exactly if the text is contained, and which is the
start exactly if the text starts with it; there it is replaced, and nothing is if it is not found. -/
theorem text_functions_agree :
    apply substring [.text s, .int a, .int b] = apply substring [.text s, .int b, .int a] ∧
    apply substring [.text s, .int a, .int b] = .ok (.text (s.between (s.clamp a) (s.clamp b))) ∧
    (do
      let front ← apply substring [.text s, .int 0, .int k]
      let back ← apply substring [.text s, .int k]
      apply concat [front, back]) = .ok (.text s) ∧
    ∃ i n : Int, apply indexof [.text s, .text f] = .ok (.int i) ∧
      apply length [.text f] = .ok (.int n) ∧
      (0 ≤ i ↔ f.points <:+: s.points) ∧
      apply substringof [.text f, .text s] = .ok (.bool (decide (0 ≤ i))) ∧
      apply startswith [.text s, .text f] = .ok (.bool (decide (i = 0))) ∧
      (0 ≤ i → apply substring [.text s, .int i, .int (i + n)] = .ok (.text f) ∧
        (∀ j, 0 ≤ j → j < i → apply substring [.text s, .int j, .int (j + n)] ≠ .ok (.text f)) ∧
        apply replace [.text s, .text f, .text r] = (do
          let front ← apply substring [.text s, .int 0, .int i]
          let back ← apply substring [.text s, .int (i + n)]
          apply concat [← apply concat [front, .text r], back])) ∧
      (i < 0 → apply replace [.text s, .text f, .text r] = .ok (.text s)) := by
  refine ⟨?_, apply_substring s a b, concat_substring s k, ?_⟩
  · rw [apply_substring, apply_substring, Text.between_comm]
  have hindexof : apply indexof [.text s, .text f] =
      .ok (.int (((Text.indexOf? f.points s.points).map Int.ofNat).getD (-1))) := rfl
  have hsubstringof : apply substringof [.text f, .text s] =
      .ok (.bool (Text.contains s.points f.points)) := rfl
  have hstartswith : apply startswith [.text s, .text f] =
      .ok (.bool (Text.startsWith s.points f.points)) := rfl
  rw [hindexof, hsubstringof, hstartswith, Text.startsWith_eq, ← Text.contains_iff, Text.contains]
  refine ⟨_, f.length, rfl, rfl, ?_⟩
  rcases h : Text.indexOf? f.points s.points with - | i
  · simp [apply_replace_of_none r h]
  · obtain ⟨-, hprefix, hfirst⟩ := Text.indexOf?_eq_some h
    refine ⟨by simp, by simp, by simp, fun _ => ?_,
      fun hneg => absurd hneg (Int.not_lt.mpr (Int.natCast_nonneg i))⟩
    refine ⟨(apply_substring_eq_iff s f i).mpr hprefix, fun j hj hlt heq => ?_,
      apply_replace_of_indexOf? r h⟩
    lift j to Nat using hj
    exact hfirst j (Int.ofNat_lt.mp hlt) ((apply_substring_eq_iff s f j).mp heq)

/-- Places beyond the text, and the first of two occurrences. -/
example : apply substring [.text "abcab", .int 9, .int 3] = .ok (.text "ab") ∧
    apply replace [.text "abcab", .text "ab", .text "x"] = .ok (.text "xcab") :=
  ⟨rfl, rfl⟩

end Function

end RecordFilter
