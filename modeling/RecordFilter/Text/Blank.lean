import RecordFilter.Text.Basic

/-!
# Blank characters

The characters that count as white space when texts are trimmed and numerals are read: the 29
characters that the Unicode standard gives a white space or separating property. `trim` drops them
from both ends of a text; `trim_trim` says that doing so twice changes nothing more.
-/

namespace RecordFilter.Text

/-- White space: the separators of ASCII, the next-line and no-break characters, and the spaces
and line separators of the general punctuation and ideographic blocks. -/
def isBlank (c : CodePoint) : Bool :=
  let n := c.number
  (0x09 ≤ n && n ≤ 0x0d) || (0x1c ≤ n && n ≤ 0x20) || n == 0x85 || n == 0xa0 || n == 0x1680 ||
    (0x2000 ≤ n && n ≤ 0x200a) || n == 0x2028 || n == 0x2029 || n == 0x202f || n == 0x205f ||
    n == 0x3000

variable {α : Type}

/-- Drops the items that satisfy `p` from both ends. -/
def dropBothEnds (p : α → Bool) (cs : List α) : List α :=
  ((cs.dropWhile p).reverse.dropWhile p).reverse

/-- A list of code points without the blanks at its ends. -/
def trimPoints (cs : List CodePoint) : List CodePoint :=
  dropBothEnds isBlank cs

/-- A text without the blanks at its ends. -/
def trim (s : Text) : Text :=
  ⟨trimPoints s.points⟩

theorem dropWhile_dropWhile (p : α → Bool) (cs : List α) :
    (cs.dropWhile p).dropWhile p = cs.dropWhile p := by
  induction cs with
  | nil => rfl
  | cons c cs ih => by_cases h : p c <;> simp [h, ih]

/-- Dropping items from the end leaves those at the start in place. -/
theorem dropWhile_reverse_dropWhile (p : α → Bool) (cs : List α)
    (h : cs.dropWhile p = cs) :
    ((cs.reverse.dropWhile p).reverse).dropWhile p = (cs.reverse.dropWhile p).reverse := by
  cases cs with
  | nil => rfl
  | cons c cs =>
    have hc : p c = false := by
      by_cases hc : p c = true
      · have hlen := congrArg List.length h
        have hle := (List.dropWhile_sublist p (l := cs)).length_le
        simp only [List.dropWhile_cons, hc, if_true, List.length_cons] at hlen
        omega
      · simpa using hc
    rw [List.reverse_cons, List.dropWhile_append]
    split <;> simp [hc]

/-- Nothing more is dropped the second time. -/
theorem dropBothEnds_dropBothEnds (p : α → Bool) (cs : List α) :
    dropBothEnds p (dropBothEnds p cs) = dropBothEnds p cs := by
  have h := dropWhile_reverse_dropWhile p (cs.dropWhile p) (dropWhile_dropWhile p cs)
  unfold dropBothEnds
  rw [h, List.reverse_reverse, dropWhile_dropWhile]

@[simp] theorem trimPoints_nil : trimPoints [] = [] := rfl

@[simp] theorem points_trim (s : Text) : (trim s).points = trimPoints s.points := rfl

theorem trim_trim (s : Text) : trim (trim s) = trim s := by
  have h := dropBothEnds_dropBothEnds isBlank s.points
  simp only [trim, trimPoints, h]

end RecordFilter.Text
