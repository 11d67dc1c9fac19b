import RecordFilter.Predicate.Check
import RecordFilter.Proofs.Operand.Plain

/-!
# Typed operands

A path comes into an operand in three ways: as a text of its own, as the value of a map that spells
out a property, and as an argument of a call, at any depth. In each case it is checked against the
schema before the operand is used. So every operand that is read under a schema is typed there: each
path in it leads to a property and has the type of what the property leads to
(`Operand.isTyped_of_read?`).
-/

namespace RecordFilter

mutual

/-- The types in an operand are those under a schema: a literal has a data type, a path the type of
what its property leads to, and a call the type of its results. -/
def Expr.IsTyped (c : Catalog) (entity : EntityId) : Expr → Prop
  | .literal _ type _ _ => ∃ t : DataType, type = some (.data t)
  | .path p type _ => ∃ s property, p.asText? = some s ∧ c.property? entity s = some property ∧
      type = some property.target.type
  | .call function args type _ =>
    type = some (.data function.resultType) ∧ Expr.AllTyped c entity args

/-- The same of several operands. -/
def Expr.AllTyped (c : Catalog) (entity : EntityId) : List Expr → Prop
  | [] => True
  | e :: es => Expr.IsTyped c entity e ∧ Expr.AllTyped c entity es

end

mutual

/-- Nothing in the operand was checked yet. Its literals and calls have their types already. -/
def Expr.IsUnchecked : Expr → Prop
  | .literal _ type _ mark => mark = {} ∧ ∃ t : DataType, type = some (.data t)
  | .path _ _ mark => mark = {}
  | .call function args type mark =>
    mark = {} ∧ type = some (.data function.resultType) ∧ Expr.AllUnchecked args

/-- The same of several operands. -/
def Expr.AllUnchecked : List Expr → Prop
  | [] => True
  | e :: es => Expr.IsUnchecked e ∧ Expr.AllUnchecked es

end

theorem Expr.allUnchecked_iff {es : List Expr} :
    Expr.AllUnchecked es ↔ ∀ e ∈ es, e.IsUnchecked := by
  induction es with
  | nil => simp [Expr.AllUnchecked]
  | cons e es ih => simp [Expr.AllUnchecked, ih]

theorem Expr.IsTyped.type_ne_none {c : Catalog} {entity : EntityId} {e : Expr}
    (h : e.IsTyped c entity) : e.type ≠ none := by
  cases e
  case literal =>
    obtain ⟨t, rfl⟩ := h
    exact Option.some_ne_none _
  case path =>
    obtain ⟨s, property, -, -, rfl⟩ := h
    exact Option.some_ne_none _
  case call =>
    obtain ⟨rfl, -⟩ := h
    exact Option.some_ne_none _

/-! ### Checking gives types -/

theorem Mark.not_isFor_blank (entity : EntityId) : ¬ Mark.isFor (some entity) {} := by
  simp [Mark.isFor]

theorem Expr.checkPath_eq_ok {c : Catalog} {entity : EntityId} {p : Value}
    {type type' : Option TypeRef} (hreal : ¬ c.isSchemaless (some entity))
    (h : Expr.checkPath c (some entity) p type = .ok type') :
    ∃ s property, p.asText? = some s ∧ c.property? entity s = some property ∧
      type' = some property.target.type := by
  unfold Expr.checkPath at h
  simp only [hreal] at h
  obtain ⟨t, ht, rfl⟩ := map_eq_ok_iff.mp h
  unfold Expr.pathType at ht
  split at ht
  · cases ht
  · rename_i s hs
    split at ht
    · rename_i property hproperty
      cases ht
      exact ⟨s, property, hs, hproperty, rfl⟩
    · obtain ⟨text, -, ht⟩ := bind_eq_ok_iff.mp ht
      cases ht

mutual

/-- **An operand that passes the check is typed.** -/
theorem Expr.isTyped_of_check {c : Catalog} {entity : EntityId}
    (hreal : ¬ c.isSchemaless (some entity)) : ∀ (e : Expr) {e' : Expr}, e.IsUnchecked →
      e.check c (some entity) = (e', none) → e'.IsTyped c entity
  | .literal value type explicit mark, e', hu, h => by
    obtain ⟨rfl, ht⟩ := hu
    rw [Expr.check, if_neg (Mark.not_isFor_blank entity)] at h
    cases h
    exact ht
  | .path p type mark, e', hu, h => by
    cases hu
    rw [Expr.check, if_neg (Mark.not_isFor_blank entity)] at h
    rcases hpath : Expr.checkPath c (some entity) p type with fault | type'
    · rw [hpath] at h
      cases h
    · rw [hpath] at h
      cases h
      exact Expr.checkPath_eq_ok hreal hpath
  | .call function args type mark, e', hu, h => by
    obtain ⟨rfl, htype, hargs⟩ := hu
    rw [Expr.check, if_neg (Mark.not_isFor_blank entity)] at h
    rcases hall : Expr.checkAll c (some entity) args with ⟨args', - | fault⟩
    · rw [hall] at h
      cases h
      exact ⟨htype, Expr.allTyped_of_checkAll hreal args hargs hall⟩
    · rw [hall] at h
      cases h

theorem Expr.allTyped_of_checkAll {c : Catalog} {entity : EntityId}
    (hreal : ¬ c.isSchemaless (some entity)) : ∀ (es : List Expr) {es' : List Expr},
      Expr.AllUnchecked es → Expr.checkAll c (some entity) es = (es', none) →
        Expr.AllTyped c entity es'
  | [], es', _, h => by
    cases h
    trivial
  | e :: es, es', hu, h => by
    rw [Expr.checkAll] at h
    rcases hfirst : e.check c (some entity) with ⟨e', - | fault⟩
    · rcases hrest : Expr.checkAll c (some entity) es with ⟨es'', fault⟩
      rw [hfirst, hrest] at h
      cases h
      exact ⟨Expr.isTyped_of_check hreal e hu.1 hfirst, Expr.allTyped_of_checkAll hreal es hu.2 hrest⟩
    · rw [hfirst] at h
      cases h

end

theorem Expr.isTyped_of_fit {c : Catalog} {entity : EntityId} {e e' : Expr}
    (hreal : ¬ c.isSchemaless (some entity)) (hu : e.IsUnchecked)
    (h : e.fit c (some entity) = .ok e') : e'.IsTyped c entity :=
  Expr.isTyped_of_check hreal e hu (Expr.fit_eq_ok_iff.mp h)

/-! ### What is read -/

theorem Expr.isUnchecked_of_ofValue {v : Value} {type : Option DataType} {explicit : Bool} {e : Expr}
    (h : Expr.ofValue v type explicit = .ok e) : e.IsUnchecked := by
  obtain ⟨w, -, rfl⟩ := Expr.ofValue_eq_ok_iff.mp h
  exact ⟨rfl, _, rfl⟩

theorem Expr.isTyped_of_ofValue {c : Catalog} {entity : EntityId} {v : Value}
    {type : Option DataType} {explicit : Bool} {e : Expr}
    (h : Expr.ofValue v type explicit = .ok e) : e.IsTyped c entity := by
  obtain ⟨w, -, rfl⟩ := Expr.ofValue_eq_ok_iff.mp h
  exact ⟨_, rfl⟩

namespace Operand

variable {c : Catalog} {place : Place}

theorem isUnchecked_of_bare {cs : List CodePoint} {e : Expr} (h : bare c place cs = .ok e) :
    e.IsUnchecked := by
  rcases bare_eq_ok_cases h with rfl | ⟨v, type, -, he, -⟩
  · exact rfl
  · exact Expr.isUnchecked_of_ofValue he

/-- What is read from a text is yet to be checked, at whatever depth calls are nested. -/
theorem isUnchecked_of_expression {l : Linear} {fuel : Nat} {cs : List CodePoint} {e : Expr}
    (h : expression c l fuel place cs = .ok (some e)) : e.IsUnchecked := by
  refine expression_byCalls isUnchecked_of_bare (fun f args hargs => ?_) h
  exact ⟨rfl, rfl, Expr.allUnchecked_iff.mpr hargs⟩

theorem isTyped_of_ofEntries {entity : EntityId} {entries : List (Value × Value)} {e : Expr}
    (hreal : ¬ c.isSchemaless (some entity)) (hplace : place.schema = some entity)
    (h : ofEntries c place entries = .ok e) : e.IsTyped c entity := by
  obtain ⟨value, -, ⟨-, hfit⟩ | ⟨type, he⟩⟩ := ofEntries_eq_ok_cases h
  · -- a property that is spelled out is checked at once
    have hpath : (Expr.path value none {}).IsUnchecked := rfl
    rw [hplace] at hfit
    exact Expr.isTyped_of_fit hreal hpath hfit
  · exact Expr.isTyped_of_ofValue he

/-- **Every operand that is read under a schema is typed there.** -/
theorem isTyped_of_read? {entity : EntityId} {source : Value} {e : Expr}
    (hreal : ¬ c.isSchemaless (some entity)) (hplace : place.schema = some entity)
    (h : read? c place source = .ok (some e)) : e.IsTyped c entity := by
  rcases read?_eq_some_cases h with ⟨entries, rfl, he⟩ | ⟨-, he⟩ | ⟨s, e₀, -, he₀, hfit⟩
  · exact isTyped_of_ofEntries hreal hplace he
  · exact Expr.isTyped_of_ofValue he
  · rw [hplace] at hfit
    exact Expr.isTyped_of_fit hreal (isUnchecked_of_expression he₀) hfit

end Operand

end RecordFilter
