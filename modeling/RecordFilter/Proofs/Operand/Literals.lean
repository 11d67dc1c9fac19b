import RecordFilter.Proofs.Operand.Rereading

/-!
# Literals are fixpoints

A literal holds a value that was read into a data type. The type is given as such, by its name in any
letter case, or not at all, in which case it is inferred from the value (`TypeHint`).

Making a literal again from what it holds gives the same literal (`Expr.literal_again`): with the hint
that it was made with, with its data type, and with the name of that. Where the type was inferred, the
value that was read has it once more, although reading may have turned the value into one of another
kind: identifiers become texts, texts become moments, and dates become the moments at which they begin.
-/

namespace RecordFilter

/-- How the data type of a literal is given. -/
inductive TypeHint where
  | inferred
  | type (t : DataType)
  | name (s : Text)

namespace Expr

/-- The literal of a value under a hint. -/
def literalAs (explicit : Bool) (hint : TypeHint) (v : Value) : Except Fault Expr :=
  match hint with
  | .inferred => ofValue v none explicit
  | .type t => ofValue v (some t) explicit
  | .name s => literalOf v (.text s) explicit

/-- The data type of the literal of a value under a hint; not every text is the name of one. -/
def hintedType? (v : Value) : TypeHint → Option DataType
  | .inferred => some (DataType.infer v)
  | .type t => some t
  | .name s => DataType.ofName? s

theorem literalOf_name (v : Value) {s : Text} {t : DataType} (h : DataType.ofName? s = some t)
    (explicit : Bool) : literalOf v (.text s) explicit = ofValue v (some t) explicit := by
  have htype : DataType.ofValue (.text s) = .ok (some t) := by
    simp [DataType.ofValue, Value.asText?, h]
  rw [literalOf, htype]

theorem literalOf_unknown (v : Value) {s : Text} (h : DataType.ofName? s = none) (explicit : Bool) :
    literalOf v (.text s) explicit = .error (.construction (.dataType (.unknown s))) := by
  have htype : DataType.ofValue (.text s) = .error (.unknown s) := by
    simp [DataType.ofValue, Value.asText?, h, Except.toOption]
  rw [literalOf, htype]

/-- A literal holds its value as it is read into its data type, and nothing else. -/
theorem literalAs_eq_ok_iff {v : Value} {hint : TypeHint} {explicit : Bool} {l : Expr} :
    literalAs explicit hint v = .ok l ↔ ∃ t w, hintedType? v hint = some t ∧ t.read v = .ok w ∧
      l = .literal w (some (.data t)) explicit {} := by
  cases hint with
  | inferred =>
    rw [literalAs, ofValue_eq_ok_iff]
    simp [hintedType?]
  | type t =>
    rw [literalAs, ofValue_eq_ok_iff]
    simp [hintedType?]
  | name s =>
    rw [literalAs, hintedType?]
    rcases hname : DataType.ofName? s with - | t
    · rw [literalOf_unknown v hname]
      simp
    · rw [literalOf_name v hname, ofValue_eq_ok_iff]
      simp

/-- What was read under a hint has the same data type under it. -/
theorem hintedType?_of_read {v w : Value} {hint : TypeHint} {t : DataType}
    (ht : hintedType? v hint = some t) (hw : t.read v = .ok w) : hintedType? w hint = some t := by
  cases hint with
  | inferred =>
    cases ht
    exact congrArg some (DataType.infer_of_read hw)
  | type => exact ht
  | name => exact ht

theorem ofName?_name (t : DataType) : DataType.ofName? t.name = some t := by
  cases t <;> decide

/-- **Making a literal again from its value gives the same literal**, with the hint that it was made
with, with its data type and with the name of its data type. So reading a value into a type twice is
reading it once, and a value that was read into its inferred type is inferred to be of this type. -/
theorem literal_again {v : Value} {hint : TypeHint} {explicit : Bool} {l : Expr}
    (h : literalAs explicit hint v = .ok l) :
    ∃ w t, l = .literal w (some (.data t)) explicit {} ∧
      literalAs explicit hint w = .ok l ∧
      literalAs explicit (.type t) w = .ok l ∧
      literalAs explicit (.name t.name) w = .ok l ∧
      t.read w = .ok w ∧ (hint = .inferred → DataType.infer w = t) := by
  obtain ⟨t, w, ht, hw, rfl⟩ := literalAs_eq_ok_iff.mp h
  have hagain : t.read w = .ok w := DataType.read_of_read hw
  have htype : hintedType? w hint = some t := hintedType?_of_read ht hw
  refine ⟨w, t, rfl, ?_, ?_, ?_, hagain, ?_⟩
  · exact literalAs_eq_ok_iff.mpr ⟨t, w, htype, hagain, rfl⟩
  · exact literalAs_eq_ok_iff.mpr ⟨t, w, rfl, hagain, rfl⟩
  · exact literalAs_eq_ok_iff.mpr ⟨t, w, ofName?_name t, hagain, rfl⟩
  · rintro rfl
    exact Option.some.inj htype

/-- An identifier becomes a text, and the text is that of an identifier again. -/
theorem literal_again_of_identifier :
    let g : Guid := ⟨5⟩
    let l : Expr := .literal (.text g.text) (some (.data .guid)) false {}
    literalAs false .inferred (.guid g) = .ok l ∧ literalAs false .inferred (.text g.text) = .ok l ∧
      literalAs false (.name "Guid") (.text g.text) = .ok l := by
  intro g l
  have hmade : literalAs false .inferred (.guid g) = .ok l := rfl
  obtain ⟨w, t, hl, hhint, -, hname, -⟩ := literal_again hmade
  injection hl with hw ht
  cases hw
  cases ht
  exact ⟨hmade, hhint, hname⟩

end Expr

end RecordFilter
