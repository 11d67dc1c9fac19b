import RecordFilter.Value

/-!
# Notes on predicates

What checking finds out about a predicate is kept apart from the predicate, under the label of each
node: the entity type it was last checked against and the operands that its sources stand for there.
A predicate that occurs at several places has one note. Operands that occur at several places have
notes of their own, which hold their type.
-/

namespace RecordFilter

/-- What is known about a node of a predicate. -/
structure Note where
  /-- The entity type that the node was last checked against. -/
  checked : Option EntityId := none
  /-- The node was checked at least once. -/
  wasChecked : Bool := false
  /-- The type of an operand. -/
  type : Option TypeRef := none
  left : Option Expr := none
  right : Option Expr := none
  collection : Option Expr := none

/-- What is known about all nodes; the newest note on a node stands first. -/
abbrev Notes := List (Label × Note)

namespace Notes

/-- The note on a node; nothing is known at first. -/
def note (notes : Notes) (id : Label) : Note :=
  (notes.lookup id).getD {}

/-- Replaces the note on a node. -/
def put (notes : Notes) (id : Label) (note : Note) : Notes :=
  (id, note) :: notes.filter fun e => e.1 != id

/-- Changes the note on a node. -/
def change (notes : Notes) (id : Label) (f : Note → Note) : Notes :=
  notes.put id (f (notes.note id))

@[simp] theorem note_nil (id : Label) : note [] id = {} := rfl

@[simp] theorem note_put_self (notes : Notes) (id : Label) (n : Note) :
    (notes.put id n).note id = n := by
  simp [note, put]

theorem lookup_filter_ne (notes : Notes) {id other : Label} (h : other ≠ id) :
    List.lookup other (notes.filter fun e => e.1 != id) = List.lookup other notes := by
  induction notes with
  | nil => rfl
  | cons e es ih =>
    obtain ⟨key, n⟩ := e
    by_cases hk : key = id
    · subst hk
      have hb : (other == key) = false := by simp [h]
      simp [List.lookup_cons, ih, hb]
    · simp [hk, List.lookup_cons, ih]

theorem note_put_ne (notes : Notes) {id other : Label} (n : Note) (h : other ≠ id) :
    (notes.put id n).note other = notes.note other := by
  have hb : (other == id) = false := by simp [h]
  simp only [note, put, List.lookup_cons, hb]
  rw [lookup_filter_ne notes h]

end Notes

end RecordFilter
