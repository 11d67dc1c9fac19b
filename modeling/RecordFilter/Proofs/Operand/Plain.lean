import RecordFilter.Predicate.Check
import RecordFilter.Proofs.DataType.Reading
import RecordFilter.Proofs.Operand.Origin
import RecordFilter.Proofs.Value.Plain

/-!
# Operands of plain values

An operand that is read from a plain value is plain: reading adds no node and gives no label. Hence
the operands that checking finds for a predicate over plain values depend on nothing but the values
and the schema (`leftOperand_isPlain`, `rightOperand_isPlain`, `collectionOperand_isPlain`). What
stands on the left is no literal, whatever it was read from (`leftOperand_eq_ok_iff`).
-/

namespace RecordFilter

/-! ### Literals -/

/-- What a plain value is read as is plain. -/
theorem DataType.read_isPlain {t : DataType} {v w : Value} (hv : v.IsPlain)
    (h : t.read v = .ok w) : w.IsPlain := by
  cases isReading_of_read h with
  | same => exact hv
  | _ => trivial

theorem Expr.ofValue_isPlain {v : Value} {type : Option DataType} {explicit : Bool} {e : Expr}
    (hv : v.IsPlain) (h : Expr.ofValue v type explicit = .ok e) : e.IsPlain := by
  obtain ⟨w, hw, rfl⟩ := Expr.ofValue_eq_ok_iff.mp h
  exact ⟨DataType.read_isPlain hv hw, rfl⟩

/-! ### Checked operands -/

mutual

theorem Expr.check_isPlain (c : Catalog) (schema : Option EntityId) :
    ∀ e : Expr, e.IsPlain → (e.check c schema).1.IsPlain
  | .literal v type explicit mark, h => by
    unfold Expr.check
    split <;> exact h
  | .path p type mark, h => by
    unfold Expr.check
    split
    · exact h
    · split <;> exact h
  | .call function args type mark, h => by
    have hargs := Expr.checkAll_isPlain c schema args h.1
    unfold Expr.check
    split
    · exact h
    · split
      · rename_i as heq
        rw [heq] at hargs
        exact ⟨hargs, h.2⟩
      · rename_i as f heq
        rw [heq] at hargs
        exact ⟨hargs, h.2⟩

theorem Expr.checkAll_isPlain (c : Catalog) (schema : Option EntityId) :
    ∀ es : List Expr, Expr.PlainAll es → Expr.PlainAll (Expr.checkAll c schema es).1
  | [], _ => trivial
  | e :: es, h => by
    have he := Expr.check_isPlain c schema e h.1
    have hes := Expr.checkAll_isPlain c schema es h.2
    unfold Expr.checkAll
    split
    · rename_i e' f heq
      rw [heq] at he
      exact ⟨he, h.2⟩
    · rename_i e' heq
      rw [heq] at he
      exact ⟨he, hes⟩

end

theorem Expr.fit_isPlain {c : Catalog} {schema : Option EntityId} {e e' : Expr} (he : e.IsPlain)
    (h : e.fit c schema = .ok e') : e'.IsPlain :=
  Expr.eq_of_fit h ▸ Expr.check_isPlain c schema e he

/-! ### Operand texts -/

namespace Operand

theorem bare_isPlain {c : Catalog} {place : Place} {cs : List CodePoint} {e : Expr}
    (h : bare c place cs = .ok e) : e.IsPlain := by
  rcases bare_eq_ok_cases h with rfl | ⟨v, type, hv, he, -⟩
  · exact ⟨Value.isPlain_ofPoints _, rfl⟩
  · have hplain : v.IsPlain := by cases hv <;> trivial
    exact Expr.ofValue_isPlain hplain he

theorem expression_isPlain {c : Catalog} {l : Linear} {fuel : Nat} {place : Place}
    {cs : List CodePoint} {e : Expr} (h : expression c l fuel place cs = .ok (some e)) :
    e.IsPlain := by
  refine expression_byCalls bare_isPlain (fun f args hargs => ?_) h
  exact ⟨Expr.plainAll_iff.mpr hargs, rfl⟩

/-! ### Operands -/

theorem lookup?_isPlain {key v : Value} {es : List (Value × Value)}
    (hes : (Value.map es).IsPlain) (h : Value.lookup? key es = some v) : v.IsPlain := by
  rw [Value.isPlain_map] at hes
  induction es with
  | nil => cases h
  | cons e es ih =>
    obtain ⟨k, w⟩ := e
    unfold Value.lookup? at h
    split at h
    · cases h
      exact (hes _ List.mem_cons_self).2.2
    · exact ih (fun e he => hes e (List.mem_cons_of_mem _ he)) h

theorem ofEntries_isPlain {c : Catalog} {place : Place} {es : List (Value × Value)} {e : Expr}
    (hes : (Value.map es).IsPlain) (h : ofEntries c place es = .ok e) : e.IsPlain := by
  obtain ⟨v, hv, ⟨-, hfit⟩ | ⟨type, he⟩⟩ := ofEntries_eq_ok_cases h
  all_goals have hplain : v.IsPlain := lookup?_isPlain hes hv
  · have hpath : (Expr.path v none {}).IsPlain := ⟨hplain, rfl⟩
    exact Expr.fit_isPlain hpath hfit
  · exact Expr.ofValue_isPlain hplain he

/-- **Operands of plain values are plain.** -/
theorem read?_isPlain {c : Catalog} {place : Place} {source : Value} {e : Expr}
    (hs : source.IsPlain) (h : read? c place source = .ok (some e)) : e.IsPlain := by
  rcases read?_eq_some_cases h with ⟨entries, rfl, he⟩ | ⟨-, he⟩ | ⟨s, e₀, -, he₀, hfit⟩
  · exact ofEntries_isPlain hs he
  · exact Expr.ofValue_isPlain hs he
  · exact Expr.fit_isPlain (expression_isPlain he₀) hfit

end Operand

/-- The operand is a literal. -/
def Expr.IsLiteral : Expr → Prop
  | .literal .. => True
  | _ => False

namespace Predicate

variable {c : Catalog} {schema : Option EntityId} {source : Value} {e l : Expr}

theorem leftOperand_eq_ok_iff :
    leftOperand c schema source = .ok e ↔
      Operand.read? c { schema := schema } source = .ok (some e) ∧ ¬ e.IsLiteral := by
  unfold leftOperand
  rcases Operand.read? c { schema := schema } source with f | - | e'
  · simp
  · refine iff_of_false (fun h => ?_) fun h => ?_
    · cases h
    · cases h.1
  · cases e'
    case literal =>
      refine iff_of_false (fun h => ?_) fun h => ?_
      · cases h
      · cases h.1
        exact h.2 trivial
    all_goals
      constructor
      · intro h
        cases h
        exact ⟨rfl, id⟩
      · rintro ⟨h, -⟩
        cases h
        rfl

theorem rightOperand_eq_ok_iff :
    rightOperand c schema l source = .ok e ↔
      Operand.read? c { schema, isRight := true, hint := hintOf l } source = .ok (some e) := by
  unfold rightOperand
  rcases Operand.read? c { schema, isRight := true, hint := hintOf l } source with f | - | e'
  · simp
  · constructor <;> intro h <;> cases h
  · constructor <;> intro h <;> cases h <;> rfl

/-- A collection is what its source is read as, but for its type where there is no schema. -/
theorem collectionOperand_eq_ok_iff :
    collectionOperand c schema source = .ok e ↔
      ∃ e₀, Operand.read? c { schema := schema } source = .ok (some e₀) ∧
        e = if c.isSchemaless schema then e₀.withType none else e₀ := by
  unfold collectionOperand
  rcases Operand.read? c { schema := schema } source with f | - | e₀
  · simp
  · refine iff_of_false (fun h => ?_) fun h => ?_
    · cases h
    · obtain ⟨_, h, -⟩ := h
      cases h
  · constructor
    · intro h
      cases h
      exact ⟨e₀, rfl, rfl⟩
    · rintro ⟨_, h, rfl⟩
      cases h
      rfl

theorem leftOperand_isPlain (hs : source.IsPlain) (h : leftOperand c schema source = .ok e) :
    e.IsPlain :=
  Operand.read?_isPlain hs (leftOperand_eq_ok_iff.mp h).1

theorem rightOperand_isPlain (hs : source.IsPlain) (h : rightOperand c schema l source = .ok e) :
    e.IsPlain :=
  Operand.read?_isPlain hs (rightOperand_eq_ok_iff.mp h)

theorem collectionOperand_isPlain (hs : source.IsPlain)
    (h : collectionOperand c schema source = .ok e) : e.IsPlain := by
  obtain ⟨e₀, hr, rfl⟩ := collectionOperand_eq_ok_iff.mp h
  have he := Operand.read?_isPlain hs hr
  split
  · exact he.withType none
  · exact he

end Predicate

end RecordFilter
