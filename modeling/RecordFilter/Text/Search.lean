import RecordFilter.Text.Basic

/-!
# Searching in texts

Plain searching over lists of code points: a list at the start, at the end or anywhere inside
another, the first place where it occurs, replacing that one occurrence, and cutting a text at
every occurrence of one of them. `split_ne_nil` records that cutting always yields a piece.
-/

namespace RecordFilter.Text

/-- `find` stands at the start of `cs`. -/
def startsWith (cs find : List CodePoint) : Bool :=
  find.isPrefixOf cs

/-- `find` stands at the end of `cs`. -/
def endsWith (cs find : List CodePoint) : Bool :=
  find.isSuffixOf cs

/-- The number of code points before the first occurrence of `find`, if there is one. -/
def indexOf? (find : List CodePoint) : List CodePoint → Option Nat
  | [] => if find.isEmpty then some 0 else none
  | c :: cs => if startsWith (c :: cs) find then some 0 else (indexOf? find cs).map (· + 1)

/-- `find` occurs somewhere in `cs`. -/
def contains (cs find : List CodePoint) : Bool :=
  (indexOf? find cs).isSome

/-- `cs` with the first occurrence of `find` replaced; unchanged when there is none. -/
def replaceFirst (find replacement cs : List CodePoint) : List CodePoint :=
  match indexOf? find cs with
  | some i => cs.take i ++ replacement ++ cs.drop (i + find.length)
  | none => cs

/-- The pieces of a list between the occurrences of `mark`; never the empty list of pieces. -/
def split (mark : CodePoint) : List CodePoint → List (List CodePoint)
  | [] => [[]]
  | c :: cs =>
    if c = mark then [] :: split mark cs
    else
      match split mark cs with
      | piece :: pieces => (c :: piece) :: pieces
      | [] => [[c]]

theorem split_ne_nil (mark : CodePoint) (cs : List CodePoint) : split mark cs ≠ [] := by
  cases cs with
  | nil => simp [split]
  | cons c cs =>
    by_cases h : c = mark
    · simp [split, h]
    · rw [split, if_neg h]
      split <;> simp

/-- The segments of a dotted path. -/
def segments (path : Text) : List Text :=
  (split '.' path.points).map Text.mk

end RecordFilter.Text
