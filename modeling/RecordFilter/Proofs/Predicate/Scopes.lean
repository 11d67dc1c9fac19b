import RecordFilter.Proofs.Operand.Typing
import RecordFilter.Proofs.Predicate.Revalidation

/-!
# Scopes

The schema that a predicate is validated against is the scope of its nodes, and in the body of a
quantifier the scope is the entity type of the collection. Validation is sound
(`Predicate.isScoped_of_validate`): in every scope with an entity type of its own the operands are
typed, left operands are no literals, and collections lead to many entities. Where a scope has no
entity type, or an anonymous one, nothing is promised about operands, and the bodies of quantifiers
have no scope either.
-/

namespace RecordFilter

/-- The operand is a path that leads from the entity type to many entities, of which it has the
type. -/
def Expr.IsCollection (c : Catalog) (entity : EntityId) (e : Expr) : Prop :=
  ∃ p s name target mark, e = .path p (some (.entity target)) mark ∧ p.asText? = some s ∧
    c.property? entity s = some ⟨name, .navigation target false⟩

namespace Predicate

section

variable (c : Catalog) (notes : Notes)

mutual

/-- Every node bears the mark of its scope. The operands that the notes hold fit the scope, if there
is an entity type there. -/
def IsScoped (scope : Option EntityId) : Predicate → Prop
  | .passthrough id _ => (notes.note id).checked = scope
  | .unary id _ operand => (notes.note id).checked = scope ∧ IsScopedOption scope operand
  | .logical id _ children => (notes.note id).checked = scope ∧ IsScopedAll scope children
  | .comparison id _ _ _ => (notes.note id).checked = scope ∧
    ∃ l r, (notes.note id).left = some l ∧ (notes.note id).right = some r ∧
      ∀ entity, scope = some entity → ¬ c.isSchemaless scope →
        ¬ l.IsLiteral ∧ l.IsTyped c entity ∧ r.IsTyped c entity
  | .quantified id _ _ body => (notes.note id).checked = scope ∧
    ∃ e, (notes.note id).collection = some e ∧
      (∀ entity, scope = some entity → ¬ c.isSchemaless scope → e.IsCollection c entity) ∧
      IsScopedOption e.entity? body
  | .bare _ => False

/-- The same of a predicate that must be there. -/
def IsScopedOption (scope : Option EntityId) : Option Predicate → Prop
  | none => False
  | some p => IsScoped scope p

/-- The same of several predicates. -/
def IsScopedAll (scope : Option EntityId) : List (Option Predicate) → Prop
  | [] => True
  | p :: ps => IsScopedOption scope p ∧ IsScopedAll scope ps

end

end

/-! ### Operands in a scope -/

variable {c : Catalog} {entity : EntityId}

theorem leftOperand_isTyped {source : Value} {e : Expr} (hreal : ¬ c.isSchemaless (some entity))
    (h : leftOperand c (some entity) source = .ok e) : ¬ e.IsLiteral ∧ e.IsTyped c entity := by
  obtain ⟨hr, hliteral⟩ := leftOperand_eq_ok_iff.mp h
  exact ⟨hliteral, Operand.isTyped_of_read? hreal rfl hr⟩

theorem rightOperand_isTyped {left : Expr} {source : Value} {e : Expr}
    (hreal : ¬ c.isSchemaless (some entity)) (h : rightOperand c (some entity) left source = .ok e) :
    e.IsTyped c entity :=
  Operand.isTyped_of_read? hreal rfl (rightOperand_eq_ok_iff.mp h)

/-- The operands of a comparison are typed. The left one has its type from the schema, so it takes
none from the right one. -/
theorem operandsOf_isTyped {left right : Value} {l r : Expr} (hreal : ¬ c.isSchemaless (some entity))
    (h : operandsOf c (some entity) left right = .ok (l, r)) :
    ¬ l.IsLiteral ∧ l.IsTyped c entity ∧ r.IsTyped c entity := by
  obtain ⟨l', hl, hr, rfl⟩ := operandsOf_eq_ok_iff.mp h
  obtain ⟨hliteral, htyped⟩ := leftOperand_isTyped hreal hl
  have htype : ¬ l'.type.isNone := by
    rw [Option.isNone_iff_eq_none]
    exact htyped.type_ne_none
  rw [if_neg htype]
  exact ⟨hliteral, htyped, rightOperand_isTyped hreal hr⟩

/-- What is no misfit under a schema is a path to many entities: literals and calls have data types,
and so have paths to data, while paths to one entity are singled out. -/
theorem isCollection_of_misfit? {e : Expr} (hreal : ¬ c.isSchemaless (some entity))
    (htyped : e.IsTyped c entity) (h : misfit? c (some entity) e = none) :
    e.IsCollection c entity := by
  have hdata : ∀ t : DataType, e.type ≠ some (.data t) := fun t ht => misfit?_of_data hreal ht h
  cases e
  case literal =>
    obtain ⟨t, ht⟩ := htyped
    exact (hdata t ht).elim
  case call => exact (hdata _ htyped.1).elim
  case path p type mark =>
    obtain ⟨s, ⟨name, target⟩, hs, hproperty, rfl⟩ := htyped
    rcases target with t | ⟨target, isScalar⟩
    · exact (hdata t rfl).elim
    · cases isScalar
      · exact ⟨p, s, name, target, mark, rfl, hs, hproperty⟩
      · have hsingle : isSingle c entity (.path p (some (.entity target)) mark) = true := by
          simp only [isSingle, hs, Option.bind_some, hproperty]
        simp [misfit?, hreal, Expr.type, PropertyTarget.type, hsingle] at h

theorem collectionOf_isCollection {op : Operator} {collection : Value} {e : Expr}
    (hreal : ¬ c.isSchemaless (some entity))
    (h : collectionOf c (some entity) op collection = .ok e) : e.IsCollection c entity := by
  obtain ⟨e₀, hr, he⟩ := exists_read?_of_collectionOf h
  rw [if_neg hreal] at he
  subst he
  exact isCollection_of_misfit? hreal (Operand.isTyped_of_read? hreal rfl hr)
    (collectionOf_eq_ok_iff.mp h).2

/-! ### Validated predicates -/

section

variable {notes notes' : Notes}

mutual

/-- The notes that one check leaves hold operands that fit their scopes. -/
theorem isScoped_of_isValidated {scope : Option EntityId} :
    ∀ p : Predicate, p.IsValidated c scope notes → p.IsScoped c notes scope
  | .passthrough id text, h => h.checked rfl
  | .unary id op operand, h =>
    ⟨h.checked rfl, isScopedOption_of_isValidated operand (isValidated_unary_iff.mp h).2⟩
  | .logical id op children, h =>
    ⟨h.checked rfl, isScopedAll_of_isValidated children (isValidated_logical_iff.mp h).2⟩
  | .comparison id op left right, h => by
    obtain ⟨l, r, hlr, hnote⟩ := isValidated_comparison_iff.mp h
    refine ⟨h.checked rfl, l, r, by rw [hnote]; rfl, by rw [hnote]; rfl, ?_⟩
    rintro entity rfl hreal
    exact operandsOf_isTyped hreal hlr
  | .quantified id op collection body, h => by
    obtain ⟨e, he, hnote, hbody⟩ := isValidated_quantified_iff.mp h
    refine ⟨h.checked rfl, e, by rw [hnote]; rfl, ?_, isScopedOption_of_isValidated body hbody⟩
    rintro entity rfl hreal
    exact collectionOf_isCollection hreal he
  | .bare _, h => by
    obtain ⟨t, ht, -⟩ := h
    cases ht

theorem isScopedOption_of_isValidated {scope : Option EntityId} :
    ∀ p : Option Predicate, IsValidatedOption c scope notes p → IsScopedOption c notes scope p
  | none, h => by
    obtain ⟨t, ht, -⟩ := h
    cases ht
  | some p, h => isScoped_of_isValidated p h

theorem isScopedAll_of_isValidated {scope : Option EntityId} :
    ∀ ps : List (Option Predicate), IsValidatedAll c scope notes ps → IsScopedAll c notes scope ps
  | [], _ => trivial
  | p :: ps, h => by
    obtain ⟨hp, hps⟩ := isValidatedAll_cons_iff.mp h
    exact ⟨isScopedOption_of_isValidated p hp, isScopedAll_of_isValidated ps hps⟩

end

/-- **Validation is sound.** A predicate in which no node occurs twice, and about which nothing is
known, is validated with success. Then in every scope in it that has an entity type of its own, left
operands are paths or calls, all paths lead to properties and have their types, and collections are
paths to many entities, of which the body of the quantifier has the type as its scope. -/
theorem isScoped_of_validate {p : Predicate} {scope : Option EntityId} (hp : p.IsPlain)
    (hnodup : p.labels.Nodup) (hunknown : IsUnknown p.labels notes)
    (h : outcome ((Node.predicate p).validate c scope) notes = (.ok (), notes')) :
    p.IsScoped c notes' scope := by
  rw [validate_ok_iff_validateBy hp] at h
  exact isScoped_of_isValidated p (isValidated_of_validateBy hp hnodup (.inl hunknown) h)

theorem isScoped_of_validate_quantifier :
    let c : Catalog := [⟨.text "Order", [⟨"items", .navigation 1 false⟩], false, none, .same⟩,
      ⟨.text "Item", [⟨"name", .data .string⟩, ⟨"code", .data .string⟩], false, none, .same⟩]
    let right : Value := .map [(.text "value", .text "code"), (.text "isProperty", .bool true)]
    let f : Value := .map [(.text "items", .map [(.text "any", .map [(.text "name",
      .map [(.text "eq", right)])])])]
    let p : Predicate := .quantified 1 ⟨.text "any", ["some"], false⟩ (.text "items")
      (some (.comparison 0 ⟨.text "eq", ["==", "=", "equals"], false⟩ (.text "name") right))
    outcome (Filter.readArguments [f]) {} = (.ok (some p), ⟨2, []⟩) ∧
      ∃ notes, outcome ((Node.predicate p).validate c (some 0)) [] = (.ok (), notes) ∧
        p.IsScoped c notes (some 0) := by
  intro c right f p
  have hp : p.IsPlain := by
    simp [p, right, IsPlain, PlainOption, Operator.IsPlain, Value.IsPlain, Value.PlainEntries,
      Value.isKey]
  let t : Resolved := .quantified ⟨.text "any", ["some"], false⟩
    (.path (.text "items") (some (.entity 1)) (Mark.after (some 0) {}))
    (.comparison ⟨.text "eq", ["==", "=", "equals"], false⟩
      (.path (.text "name") (some (.data .string)) (Mark.after (some 1) {}))
      (.path (.text "code") (some (.data .string)) (Mark.after (some 1) {})))
  have hresolve : p.condition.resolve c (some 0) = .ok t := by rfl
  obtain ⟨notes, hnotes⟩ := validateBy_ok_of_resolve true [] hresolve
  have hvalidate := (validate_ok_iff_validateBy hp).mpr hnotes
  exact ⟨rfl, notes, hvalidate,
    isScoped_of_validate hp (by decide) (fun _ _ => Notes.note_nil _) hvalidate⟩

end

end Predicate

end RecordFilter
