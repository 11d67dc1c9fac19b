import RecordFilter.Comparison
import RecordFilter.Proofs.Number.Order
import RecordFilter.Proofs.Outcome

/-!
# When a comparison of order has an answer

Two values stand in an order (`Value.Ordered`) when they are of one kind and the kind is ordered:
numbers by their values, texts, dates, times and moments that both have a distance from universal
time or both have none, and identifiers. Between all other values that are not both lists there is no
order.

`Comparison.order_outcome` says what the four operators of order come to, for every type, every
policy and all values but lists. There is an answer as a rule: the operator holds when the values, in
the form in which values of the type are compared, stand in an order of which it holds, and does not
hold where there is no order. The one exception are two numbers of which one is a decimal number and
one is not a number (`Value.HasNoAnswer`): comparing them ends in a fault, and in the same one
always. A text may be read as such a number, as the operand `"NaN"` of a decimal property is
(`Comparison.order_of_text_without_answer`).
-/

namespace RecordFilter

/-- The key of the operator that stands for a relation. -/
def Relation.key : Relation → Text
  | lt => "lt"
  | le => "le"
  | gt => "gt"
  | ge => "ge"

namespace Value

/-! ### Values that stand in an order -/

/-- Two values of one ordered kind, and their order. -/
inductive Ordered : Value → Value → Ordering → Prop
  | numbers {a b m n x y} : a.asNumber? = some m → b.asNumber? = some n →
      m.value? = some x → n.value? = some y → Ordered a b (compare x y)
  | texts {a b s t} : a.asText? = some s → b.asText? = some t → Ordered a b (s.order t)
  | dates (d e) : Ordered (date d) (date e) (d.order e)
  | times {s t o} : TimeOfDay.order? s t = some o → Ordered (time s) (time t) o
  | moments {m n o} : Moment.order? m n = some o → Ordered (moment m) (moment n) o
  | guids (g h) : Ordered (guid g) (guid h) (compare g.bits h.bits)

/-- Two numbers of which one is a decimal number and one is not a number. -/
def HasNoAnswer (a b : Value) : Prop :=
  ∃ m n, a.asNumber? = some m ∧ b.asNumber? = some n ∧
    (m.isDecimal ∨ n.isDecimal) ∧ (m.value? = none ∨ n.value? = none)

theorem asNumber?_of_asText? {a : Value} {s : Text} (h : a.asText? = some s) :
    a.asNumber? = none := by
  cases a <;> first | rfl | cases h

/-! ### What comparing scalars comes to -/

section

variable {a b : Value} {m n : Number} (r : Relation)

theorem relateScalars_numbers (hm : a.asNumber? = some m) (hn : b.asNumber? = some n) :
    relateScalars r a b = relateNumbers r m n := by
  unfold relateScalars
  rw [hm, hn]

/-- Values that stand in an order are related by it. -/
theorem Ordered.relateScalars_eq {o : Ordering} (h : Ordered a b o) :
    relateScalars r a b = .ok (r.holds o) := by
  cases h with
  | @numbers _ _ m n x y hm hn hx hy =>
    rw [relateScalars_numbers r hm hn, relateNumbers, Number.orderUndefined,
      Number.order?_of_value? hx hy, Option.isNone_some, Bool.and_false]
    rfl
  | texts hs ht =>
    unfold relateScalars
    rw [asNumber?_of_asText? hs, hs, ht]
  | dates => rfl
  | times ho => exact congrArg (relateOrdered r) ho
  | moments ho => exact congrArg (relateOrdered r) ho
  | guids => rfl

/-- Values stand in one order at most. -/
theorem Ordered.unique {o o' : Ordering} (h : Ordered a b o) (h' : Ordered a b o') : o = o' := by
  -- The two orders satisfy the same relations.
  have hrelations : ∀ r : Relation, r.holds o = r.holds o' := fun r =>
    Except.ok.inj ((h.relateScalars_eq r).symm.trans (h'.relateScalars_eq r))
  have hlt := hrelations .lt
  have hgt := hrelations .gt
  cases o <;> cases o' <;> first | rfl | exact absurd hlt (by decide) | exact absurd hgt (by decide)

theorem HasNoAnswer.relateScalars_eq (h : HasNoAnswer a b) :
    relateScalars r a b = .error .undefinedComparison := by
  obtain ⟨m, n, hm, hn, hdecimal, hvalue⟩ := h
  have horder : Number.order? m n = none := by
    rw [Number.order?_eq]
    rcases hvalue with hx | hy
    · rw [hx, Option.map₂_none_left]
    · rw [hy, Option.map₂_none_right]
  have hundefined : Number.orderUndefined m n = true := by
    rw [Number.orderUndefined, horder]
    simpa using hdecimal
  rw [relateScalars_numbers r hm hn, relateNumbers, if_pos hundefined]

/-- Numbers that stand in no order, while comparing them has an answer, are not related. -/
theorem relateScalars_of_numbers (hm : a.asNumber? = some m) (hn : b.asNumber? = some n)
    (hordered : ∀ o, ¬ Ordered a b o) (hanswer : ¬ HasNoAnswer a b) :
    relateScalars r a b = .ok false := by
  have hvalue : m.value? = none ∨ n.value? = none := by
    rcases hx : m.value? with - | x
    · exact .inl rfl
    · rcases hy : n.value? with - | y
      · exact .inr rfl
      · exact absurd (.numbers hm hn hx hy) (hordered (compare x y))
  have horder : Number.order? m n = none := by
    rw [Number.order?_eq, Option.map₂_eq_none_iff]
    exact hvalue
  have hdefined : Number.orderUndefined m n = false := by
    have hdecimal : ¬ (m.isDecimal ∨ n.isDecimal) := fun hdecimal =>
      hanswer ⟨m, n, hm, hn, hdecimal, hvalue⟩
    rw [Number.orderUndefined, horder]
    simpa using hdecimal
  rw [relateScalars_numbers r hm hn, relateNumbers, hdefined, horder]
  rfl

/-- Values that stand in no order, while comparing them has an answer, are not related. -/
theorem relateScalars_of_not_ordered (hordered : ∀ o, ¬ Ordered a b o)
    (hanswer : ¬ HasNoAnswer a b) :
    relateScalars r a b = .ok false ∨ relateScalars r a b = .error .wrongType := by
  unfold relateScalars
  split
  case h_1 hm hn =>
    rw [← relateScalars_numbers r hm hn]
    exact .inl (relateScalars_of_numbers r hm hn hordered hanswer)
  case h_2 =>
    split
    case h_1 hs ht => exact absurd (.texts hs ht) (hordered _)
    case h_2 =>
      split
      case h_1 d e _ _ => exact absurd (.dates d e) (hordered _)
      case h_2 s t _ _ =>
        rcases ho : TimeOfDay.order? s t with - | o
        · exact .inr rfl
        · exact absurd (.times ho) (hordered o)
      case h_3 m n _ _ =>
        rcases ho : Moment.order? m n with - | o
        · exact .inr rfl
        · exact absurd (.moments ho) (hordered o)
      case h_4 g h _ _ => exact absurd (.guids g h) (hordered _)
      case h_5 => exact .inr rfl

/-- What is not a list is compared as a scalar. -/
theorem relate_of_asList? (ha : a.asList? = none) : relate r a b = relateScalars r a b := by
  refine relate.eq_2 r a b ?_
  rintro xs ys rfl
  cases ha

end

/-- A value whose equality does not depend on that of others. -/
def IsScalar : Value → Prop
  | list _ | map _ | object _ | operator _ => False
  | _ => True

theorem equal_of_isScalar {a : Value} (ha : a.IsScalar) (b : Value) :
    equal a b = equalScalars a b := by
  refine equal.eq_5 a b ?_ ?_ ?_ ?_
  all_goals
    intros
    subst_vars
    exact ha.elim

end Value

/-! ### The four operators -/

/-- What is read from a text, or else a text that is left as it is, is no list. -/
theorem Value.asList?_getD {α : Type} {f : α → Value} {x : Option α} {v : Value}
    (hf : ∀ a, (f a).asList? = none) (h : v.asList? = none) : ((x.map f).getD v).asList? = none := by
  rcases x with - | a
  · exact h
  · exact hf a

theorem DataType.asList?_comparable (t : DataType) {v : Value} (h : v.asList? = none) :
    (t.comparable v).asList? = none := by
  cases t
  case decimal =>
    show (readDecimal v).asList? = none
    unfold readDecimal readDecimalText
    split
    case h_3 | h_4 =>
      dsimp only
      split
      · rfl
      · exact Value.asList?_getD (fun _ => rfl) rfl
    case h_2 => rfl
    case h_1 => exact Value.asList?_getD (fun _ => rfl) rfl
    case h_5 => exact h
  case dateTime | dateTimeOffset =>
    show (readMoment v).asList? = none
    unfold readMoment readMomentText
    split
    case h_1 => rfl
    case h_2 | h_3 => exact Value.asList?_getD (fun _ => rfl) rfl
    case h_4 => exact h
  case time =>
    show (readTime v).asList? = none
    unfold readTime
    split
    case h_1 | h_2 => exact Value.asList?_getD (fun _ => rfl) rfl
    case h_3 => exact h
  case guid =>
    show (comparableGuid v).asList? = none
    unfold comparableGuid
    split
    case h_1 | h_2 | h_3 => rfl
    case h_4 => exact h
  all_goals exact h

/-- What is not a list is not compared as one. -/
theorem TypeRef.asList?_comparable (type : Option TypeRef) {v : Value} (h : v.asList? = none) :
    (comparable type v).asList? = none := by
  rcases type with - | ⟨t⟩ | -
  · exact h
  · exact t.asList?_comparable h
  · exact h

namespace Comparison

/-- The operators of order are known. -/
theorem ofOperator_order {op : Operator} {r : Relation} (hop : op.key.asText? = some r.key) :
    ofOperator op = .ok (.order r) := by
  have htable : table.lookup r.key = some (.order r) := by
    cases r <;> decide
  rw [ofOperator, ofOperator?, hop, Option.bind_some, htable]

section

variable {type : Option TypeRef} {r : Relation} {a b : Value}

theorem ordered_of_hasNoAnswer (ha : a.asList? = none)
    (h : (TypeRef.comparable type a).HasNoAnswer (TypeRef.comparable type b)) :
    ordered type r a b = .error .undefinedComparison := by
  rw [ordered, Value.relate_of_asList? r (TypeRef.asList?_comparable type ha), h.relateScalars_eq]

theorem ordered_of_ordered {o : Ordering} (ha : a.asList? = none)
    (h : (TypeRef.comparable type a).Ordered (TypeRef.comparable type b) o) :
    ordered type r a b = .ok (r.holds o) := by
  rw [ordered, Value.relate_of_asList? r (TypeRef.asList?_comparable type ha), h.relateScalars_eq]

theorem ordered_of_not_ordered (ha : a.asList? = none)
    (hordered : ∀ o, ¬ (TypeRef.comparable type a).Ordered (TypeRef.comparable type b) o)
    (hanswer : ¬ (TypeRef.comparable type a).HasNoAnswer (TypeRef.comparable type b)) :
    ordered type r a b = .ok false := by
  rw [ordered, Value.relate_of_asList? r (TypeRef.asList?_comparable type ha)]
  rcases Value.relateScalars_of_not_ordered r hordered hanswer with h | h <;> rw [h]

end

/-- What an operator comes to on two values of a type. -/
def answer (op : Operator) (type : Option TypeRef) (policy : TextPolicy) (a b : Value) :
    Except Fault Bool := do
  (← ofOperator op).holds type policy a b

/-- The key of the operator that stands for a comparison. -/
def key : Comparison → Text
  | eq => "eq"
  | ne => "ne"
  | order r => r.key
  | startsWith => "startswith"
  | endsWith => "endswith"
  | contains => "contains"

/-- Every comparison is that of the operator with its key. -/
theorem answer_ofKey (cmp : Comparison) (type : Option TypeRef) (policy : TextPolicy) (a b : Value) :
    answer (.ofKey (.text cmp.key)) type policy a b = cmp.holds type policy a b := by
  have htable : table.lookup cmp.key = some cmp := by
    rcases cmp with - | - | (- | - | - | -) | - | - | - <;> decide
  have hfound : ofOperator? (.ofKey (.text cmp.key)) = some cmp := htable
  have hop : ofOperator (.ofKey (.text cmp.key)) = .ok cmp := by
    rw [ofOperator, hfound]
  rw [answer, hop, ok_bind]

/-- **Comparisons of order have an answer**, unless a decimal number is compared with what is not a
number, or the other way round: the operator holds exactly when the values, in the form in which
values of the type are compared, stand in an order of which it holds. -/
theorem order_answer {op : Operator} {r : Relation} (hop : op.key.asText? = some r.key)
    (type : Option TypeRef) (policy : TextPolicy) {a : Value} (ha : a.asList? = none) (b : Value) :
    let x := TypeRef.comparable type a
    let y := TypeRef.comparable type b
    (x.HasNoAnswer y → answer op type policy a b = .error .undefinedComparison) ∧
      (¬ x.HasNoAnswer y →
        ∃ holds, answer op type policy a b = .ok holds ∧
          (holds = true ↔ ∃ o, x.Ordered y o ∧ r.holds o = true)) := by
  intro x y
  have hanswer : answer op type policy a b = ordered type r a b := by
    rw [answer, ofOperator_order hop, ok_bind, holds]
  rw [hanswer]
  refine ⟨ordered_of_hasNoAnswer ha, fun hdefined => ?_⟩
  by_cases hordered : ∃ o, x.Ordered y o
  · obtain ⟨o, ho⟩ := hordered
    refine ⟨r.holds o, ordered_of_ordered ha ho, fun h => ⟨o, ho, h⟩, ?_⟩
    rintro ⟨o', ho', h⟩
    rwa [ho.unique ho']
  · refine ⟨false, ordered_of_not_ordered ha (not_exists.mp hordered) hdefined, nofun, ?_⟩
    rintro ⟨o, ho, -⟩
    exact absurd ⟨o, ho⟩ hordered

/-- A text of a moment property against a date: the text is read as the later moment. -/
theorem order_answer_of_moments :
    answer (.ofKey (.text "gt")) (some (.data .dateTime)) ⟨true, false⟩ (.text "2024-01-02")
      (.date ⟨2024, 1, 1⟩) = .ok true := by
  have hmoments : Value.Ordered (.moment (.ofDate ⟨2024, 1, 2⟩)) (.moment (.ofDate ⟨2024, 1, 1⟩))
      .gt := .moments (by decide)
  have hnumbers : ¬ Value.HasNoAnswer (.moment (.ofDate ⟨2024, 1, 2⟩))
      (.moment (.ofDate ⟨2024, 1, 1⟩)) := fun ⟨_, _, h, _⟩ => nomatch h
  obtain ⟨holds, hanswer, hiff⟩ := (@order_answer (.ofKey (.text "gt")) .gt rfl
    (some (.data .dateTime)) ⟨true, false⟩ (.text "2024-01-02") rfl (.date ⟨2024, 1, 1⟩)).2 hnumbers
  rw [hanswer, hiff.mpr ⟨.gt, hmoments, rfl⟩]

/-- **The operand `"NaN"` of a decimal property has no answer**: the comparison ends in a fault. -/
theorem order_of_text_without_answer :
    answer (.ofKey (.text "gt")) (some (.data .decimal)) ⟨true, false⟩ (.int 5) (.text "NaN") =
      .error .undefinedComparison := by
  rfl

end Comparison

end RecordFilter
