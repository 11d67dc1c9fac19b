import RecordFilter.Node.Display

/-!
# Plain values

A value is plain when no node stands in it and every key in it can be used as one. What notes say
about nodes does not change how a plain value is shown, so bringing it up to date leaves it as it is
(`Value.refreshed_of_isPlain`). The same holds for an operand that is built from plain values and
has no labels: it belongs to one place only, and no note is about it (`Notes.operand_of_isPlain`).
-/

namespace RecordFilter

/-! ### Plain values and operands -/

mutual

/-- No node stands in the value, and all keys in it can be keys of maps. -/
def Value.IsPlain : Value → Prop
  | .list items => Value.PlainItems items
  | .map entries => Value.PlainEntries entries
  | .object fields => Value.PlainFields fields
  | .operator o => Operator.IsPlain o
  | .node .. => False
  | _ => True

/-- The key of the operator is plain. -/
def Operator.IsPlain : Operator → Prop
  | ⟨key, _, _⟩ => Value.IsPlain key

/-- The items of a list are plain. -/
def Value.PlainItems : List Value → Prop
  | [] => True
  | v :: vs => Value.IsPlain v ∧ Value.PlainItems vs

/-- The entries of a map are plain. -/
def Value.PlainEntries : List (Value × Value) → Prop
  | [] => True
  | (k, v) :: rest => (k.isKey ∧ Value.IsPlain k ∧ Value.IsPlain v) ∧ Value.PlainEntries rest

/-- The fields of an object are plain. -/
def Value.PlainFields : List (Text × Value) → Prop
  | [] => True
  | (_, v) :: rest => Value.IsPlain v ∧ Value.PlainFields rest

end

mutual

/-- The operand is built from plain values and has no labels. -/
def Expr.IsPlain : Expr → Prop
  | .literal v _ _ mark => v.IsPlain ∧ mark.label = none
  | .path p _ mark => p.IsPlain ∧ mark.label = none
  | .call _ args _ mark => Expr.PlainAll args ∧ mark.label = none

/-- The operands are built from plain values and have no labels. -/
def Expr.PlainAll : List Expr → Prop
  | [] => True
  | e :: es => Expr.IsPlain e ∧ Expr.PlainAll es

end

namespace Value

theorem plainItems_iff {vs : List Value} : PlainItems vs ↔ ∀ v ∈ vs, v.IsPlain := by
  induction vs with
  | nil => simp [PlainItems]
  | cons v vs ih => simp [PlainItems, ih]

theorem plainEntries_iff {es : List (Value × Value)} :
    PlainEntries es ↔ ∀ e ∈ es, e.1.isKey ∧ e.1.IsPlain ∧ e.2.IsPlain := by
  induction es with
  | nil => simp [PlainEntries]
  | cons e es ih => simp [PlainEntries, ih]

@[simp] theorem isPlain_list {vs : List Value} : (list vs).IsPlain ↔ ∀ v ∈ vs, v.IsPlain :=
  plainItems_iff

@[simp] theorem isPlain_map {es : List (Value × Value)} :
    (map es).IsPlain ↔ ∀ e ∈ es, e.1.isKey ∧ e.1.IsPlain ∧ e.2.IsPlain :=
  plainEntries_iff

@[simp] theorem isPlain_bool (b : Bool) : (bool b).IsPlain := trivial

@[simp] theorem isPlain_int (n : Int) : (int n).IsPlain := trivial

@[simp] theorem isPlain_text (s : Text) : (text s).IsPlain := trivial

@[simp] theorem isPlain_ofPoints (cs : List CodePoint) : (ofPoints cs).IsPlain := trivial

@[simp] theorem not_isPlain_node (n : Node) (shown : Shown Value) : ¬ (node n shown).IsPlain :=
  id

end Value

@[simp] theorem Expr.plainAll_iff {es : List Expr} : PlainAll es ↔ ∀ e ∈ es, e.IsPlain := by
  induction es with
  | nil => simp [PlainAll]
  | cons e es ih => simp [PlainAll, ih]

theorem Expr.IsPlain.withType {e : Expr} (h : e.IsPlain) (type : Option TypeRef) :
    (e.withType type).IsPlain := by
  cases e <;> exact h

/-! ### Plain values stay as they are -/

section

variable (c : Catalog) (notes : Notes)

mutual

/-- **Plain values are always up to date.** -/
theorem Value.refreshed_of_isPlain : ∀ v : Value, v.IsPlain → v.refreshed c notes = v
  | .list items, h => congrArg Value.list (Value.refreshedItems_of_plain items h)
  | .map entries, h => congrArg Value.map (Value.refreshedEntries_of_plain entries h)
  | .object fields, h => congrArg Value.object (Value.refreshedFields_of_plain fields h)
  | .operator o, h => congrArg Value.operator (Operator.refreshed_of_isPlain o h)
  | .node .., h => h.elim
  | .null, _ | .bool _, _ | .int _, _ | .double _, _ | .decimal _, _ | .text _, _ | .token _, _
  | .date _, _ | .time _, _ | .moment _, _ | .guid _, _ | .member .., _ => rfl

theorem Operator.refreshed_of_isPlain : ∀ o : Operator, o.IsPlain → o.refreshed c notes = o
  | ⟨key, aliases, isFunction⟩, h => by
    show (⟨key.refreshed c notes, aliases, isFunction⟩ : Operator) = _
    rw [Value.refreshed_of_isPlain key h]

theorem Value.refreshedItems_of_plain :
    ∀ vs : List Value, Value.PlainItems vs → Value.refreshedItems c notes vs = vs
  | [], _ => rfl
  | v :: vs, h => by
    show v.refreshed c notes :: Value.refreshedItems c notes vs = _
    rw [Value.refreshed_of_isPlain v h.1, Value.refreshedItems_of_plain vs h.2]

theorem Value.refreshedEntries_of_plain :
    ∀ es : List (Value × Value), Value.PlainEntries es → Value.refreshedEntries c notes es = es
  | [], _ => rfl
  | (k, v) :: rest, h => by
    show (k.refreshed c notes, v.refreshed c notes) :: Value.refreshedEntries c notes rest = _
    rw [Value.refreshed_of_isPlain k h.1.2.1, Value.refreshed_of_isPlain v h.1.2.2,
      Value.refreshedEntries_of_plain rest h.2]

theorem Value.refreshedFields_of_plain :
    ∀ fs : List (Text × Value), Value.PlainFields fs → Value.refreshedFields c notes fs = fs
  | [], _ => rfl
  | (name, v) :: rest, h => by
    show (name, v.refreshed c notes) :: Value.refreshedFields c notes rest = _
    rw [Value.refreshed_of_isPlain v h.1, Value.refreshedFields_of_plain rest h.2]

end

theorem Notes.known_of_label_none (type : Option TypeRef) {mark : Mark} (h : mark.label = none) :
    notes.known type mark = (type, mark) := by
  simp [Notes.known, h]

mutual

theorem Expr.current_of_isPlain : ∀ e : Expr, e.IsPlain → e.current notes = e
  | .literal v type explicit mark, h => by
    simp [Expr.current, Notes.known_of_label_none notes type h.2]
  | .path p type mark, h => by simp [Expr.current, Notes.known_of_label_none notes type h.2]
  | .call function args type mark, h => by
    simp [Expr.current, Notes.known_of_label_none notes type h.2,
      Expr.currentAll_of_plain args h.1]

theorem Expr.currentAll_of_plain :
    ∀ es : List Expr, Expr.PlainAll es → Expr.currentAll notes es = es
  | [], _ => rfl
  | e :: es, h => by
    show e.current notes :: Expr.currentAll notes es = _
    rw [Expr.current_of_isPlain e h.1, Expr.currentAll_of_plain es h.2]

end

mutual

theorem Expr.refreshed_of_isPlain : ∀ e : Expr, e.IsPlain → e.refreshed c notes = e
  | .literal v type explicit mark, h => by
    simp [Expr.refreshed, Value.refreshed_of_isPlain c notes v h.1]
  | .path p type mark, h => by simp [Expr.refreshed, Value.refreshed_of_isPlain c notes p h.1]
  | .call function args type mark, h => by
    simp [Expr.refreshed, Expr.refreshedAll_of_plain args h.1]

theorem Expr.refreshedAll_of_plain :
    ∀ es : List Expr, Expr.PlainAll es → Expr.refreshedAll c notes es = es
  | [], _ => rfl
  | e :: es, h => by
    show e.refreshed c notes :: Expr.refreshedAll c notes es = _
    rw [Expr.refreshed_of_isPlain e h.1, Expr.refreshedAll_of_plain es h.2]

end

/-- **Plain operands are always up to date.** -/
theorem Notes.operand_of_isPlain {e : Expr} (h : e.IsPlain) : notes.operand c e = e := by
  rw [Notes.operand, Expr.current_of_isPlain notes e h, Expr.refreshed_of_isPlain c notes e h]

end

/-! ### Notes on plain operands -/

/-- All operands of a note are plain. -/
structure Note.IsPlain (note : Note) : Prop where
  left : ∀ e ∈ note.left, e.IsPlain
  right : ∀ e ∈ note.right, e.IsPlain
  collection : ∀ e ∈ note.collection, e.IsPlain

theorem Note.isPlain_default : ({} : Note).IsPlain where
  left := by simp
  right := by simp
  collection := by simp

/-- The note with all its operands changed. -/
def Note.mapOperands (f : Expr → Expr) (note : Note) : Note :=
  { note with
    left := note.left.map f
    right := note.right.map f
    collection := note.collection.map f }

theorem Note.mapOperands_of_isPlain {f : Expr → Expr} (hf : ∀ e : Expr, e.IsPlain → f e = e)
    {note : Note} (h : note.IsPlain) : note.mapOperands f = note := by
  have hid : ∀ o : Option Expr, (∀ e ∈ o, e.IsPlain) → o.map f = o := by
    rintro (- | e) he
    · rfl
    · exact congrArg some (hf e (he e rfl))
  simp only [Note.mapOperands, hid _ h.left, hid _ h.right, hid _ h.collection]

theorem Notes.lookup_map (f : Note → Note) (notes : Notes) (id : Label) :
    List.lookup id (notes.map fun (i, n) => (i, f n)) = (notes.lookup id).map f := by
  induction notes with
  | nil => rfl
  | cons e es ih =>
    obtain ⟨i, n⟩ := e
    simp only [List.map_cons, List.lookup_cons, ih]
    split <;> rfl

theorem Notes.note_map (f : Note → Note) (notes : Notes) (id : Label) (hf : f {} = {}) :
    Notes.note (notes.map fun (i, n) => (i, f n)) id = f (notes.note id) := by
  rw [Notes.note, Notes.lookup_map, Notes.note]
  rcases notes.lookup id with - | n
  · exact hf.symm
  · rfl

section

variable (c : Catalog) (notes : Notes)

/-- A note on plain operands is always up to date. -/
theorem Notes.note_refreshed {id : Label} (h : (notes.note id).IsPlain) :
    (notes.refreshed c).note id = notes.note id := by
  have hmap : (notes.refreshed c).note id = (notes.note id).mapOperands (notes.operand c) :=
    Notes.note_map (Note.mapOperands (notes.operand c)) notes id rfl
  rw [hmap, Note.mapOperands_of_isPlain (fun e he => Notes.operand_of_isPlain c notes he) h]

theorem Notes.note_shownBy (current : Notes) {id : Label} (h : (notes.note id).IsPlain) :
    (current.shownBy c notes).note id = notes.note id := by
  have hmap : (current.shownBy c notes).note id =
      (notes.note id).mapOperands (Expr.refreshed c current) :=
    Notes.note_map (Note.mapOperands (Expr.refreshed c current)) notes id rfl
  rw [hmap, Note.mapOperands_of_isPlain (fun e he => Expr.refreshed_of_isPlain c current e he) h]

end

end RecordFilter
