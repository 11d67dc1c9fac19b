import RecordFilter.Proofs.Value.TextEquality

/-!
# Equality agrees with order

Two values can be ordered (`Value.InOrder`) if they are of one ordered kind, or if they are lists of which
the first two items that differ can be ordered, if any do. Such values are equal if their order says so
(`Value.InOrder.equal_eq`), they stand in the relations that the order says (`Value.InOrder.relate_eq`), and
they can be ordered the other way round (`Value.InOrder.swap`).

The operators compare values in the form in which values of the type are compared. The operators of order
do so always. The operators of equality do so unless the first value is a text that is not empty; it is
compared as a text, under the policy, except for types that compare by value: dates, times and identifiers.
Decimal numbers are no such type, and different texts may stand for one decimal number
(`Comparison.decimal_texts_differ`). Where the test on texts says what the order says, and wherever it is
not made, the six operators agree (`Comparison.equality_agrees_with_order`).
-/

namespace RecordFilter

/-! ### Orders the other way round -/

theorem Text.order_swap (s t : Text) : (order s t).swap = order t s := by
  rw [order, order, ← Std.OrientedCmp.eq_swap]

theorem Text.order_eq_iff {s t : Text} : order s t = .eq ↔ s = t := by
  have hnumber : ∀ c d : CodePoint, c.number = d.number → c = d := fun c d h => by
    rw [← CodePoint.ofNumber_number c, h, CodePoint.ofNumber_number]
  rw [order, Std.LawfulEqCmp.compare_eq_iff_eq, List.map_inj_right hnumber]
  rcases s with ⟨cs⟩
  rcases t with ⟨ds⟩
  simp

theorem Date.order_swap (d e : Date) : (d.order e).swap = e.order d := by
  have hswap : ∀ m n : Nat, (compare m n).swap = compare n m := fun m n =>
    Std.OrientedCmp.eq_swap.symm
  rw [order, order, Ordering.swap_then, Ordering.swap_then, hswap, hswap, hswap]

theorem Date.order_eq_iff {d e : Date} : d.order e = .eq ↔ d = e := by
  rw [order, Ordering.then_eq_eq, Ordering.then_eq_eq]
  simp only [compare_eq_iff_eq]
  rcases d with ⟨y, m, d⟩
  rcases e with ⟨y', m', d'⟩
  simp

theorem TimeOfDay.order?_swap {s t : TimeOfDay} {o : Ordering} (h : order? s t = some o) :
    order? t s = some o.swap := by
  unfold order? at h ⊢
  split at h
  · rename_i hs ht
    cases h
    rw [hs, ht]
    exact congrArg some Std.OrientedCmp.eq_swap
  · rename_i p q hs ht
    cases h
    rw [hs, ht, Ordering.swap_then]
    exact congrArg some (congrArg₂ Ordering.then Std.OrientedCmp.eq_swap Std.OrientedCmp.eq_swap)
  · cases h

theorem Moment.order?_swap {m n : Moment} {o : Ordering} (h : order? m n = some o) :
    order? n m = some o.swap := by
  unfold order? at h ⊢
  split at h
  · rename_i hm hn
    cases h
    rw [hm, hn]
    exact congrArg some Std.OrientedCmp.eq_swap
  · rename_i p q hm hn
    cases h
    rw [hm, hn]
    exact congrArg some Std.OrientedCmp.eq_swap
  · cases h

/-- A number that has a value can be tested for equality. -/
theorem Number.isSignalling_of_value? {n : Number} {x : Extended} (h : n.value? = some x) :
    n.exact.isSignalling = false := by
  rw [← value?_exact] at h
  cases hexact : n.exact with
  | nan => rw [hexact] at h; cases h
  | finite | infinite => rfl

namespace Value

/-! ### Values that can be ordered -/

/-- Two items that are equal either way round. A list is compared past them. -/
def Matches (x y : Value) : Prop :=
  orSame x y (equal x y) = .ok true ∧ orSame y x (equal y x) = .ok true

/-- Two values that can be ordered, and their order. The order of two lists is that of the first two
items that differ, or else of their lengths. -/
inductive InOrder : Value → Value → Ordering → Prop
  | scalars {a b o} (h : Ordered a b o) : InOrder a b o
  | nil : InOrder (list []) (list []) .eq
  | shorter (y ys) : InOrder (list []) (list (y :: ys)) .lt
  | longer (x xs) : InOrder (list (x :: xs)) (list []) .gt
  | differ {x y o} (xs ys) (h : InOrder x y o) (ho : o ≠ .eq) :
      InOrder (list (x :: xs)) (list (y :: ys)) o
  | later {x y xs ys o} (h : Matches x y) (hrest : InOrder (list xs) (list ys) o) :
      InOrder (list (x :: xs)) (list (y :: ys)) o

section

variable {a b : Value} {o : Ordering}

theorem Ordered.swap (h : Ordered a b o) : Ordered b a o.swap := by
  cases h with
  | numbers hm hn hx hy =>
    rw [← Std.OrientedCmp.eq_swap]
    exact .numbers hn hm hy hx
  | texts hs ht =>
    rw [Text.order_swap]
    exact .texts ht hs
  | dates d e =>
    rw [Date.order_swap]
    exact .dates e d
  | times ho => exact .times (TimeOfDay.order?_swap ho)
  | moments ho => exact .moments (Moment.order?_swap ho)
  | guids g h =>
    rw [← Std.OrientedCmp.eq_swap]
    exact .guids h g

theorem Ordered.equalScalars_eq (h : Ordered a b o) : equalScalars a b = .ok (o == .eq) := by
  cases h with
  | @numbers _ _ m n x y hm hn hx hy =>
    unfold equalScalars
    rw [hm, hn]
    dsimp only
    rw [equalNumbers, Number.equalUndefined, Number.isSignalling_of_value? hx,
      Number.isSignalling_of_value? hy, Number.equal, Number.order?_of_value? hx hy]
    cases compare x y <;> rfl
  | @texts _ _ s t hs ht =>
    unfold equalScalars
    rw [asNumber?_of_asText? hs, hs, ht]
    refine congrArg Except.ok (Bool.eq_iff_iff.mpr ?_)
    rw [beq_iff_eq, beq_iff_eq, Text.order_eq_iff]
  | dates d e =>
    refine congrArg Except.ok (Bool.eq_iff_iff.mpr ?_)
    rw [beq_iff_eq, beq_iff_eq, Date.order_eq_iff]
  | @times s t o ho =>
    have hequal : equalScalars (time s) (time t) = .ok (TimeOfDay.order? s t == some .eq) := rfl
    rw [hequal, ho]
    cases o <;> rfl
  | @moments m n o ho =>
    have hequal : equalScalars (moment m) (moment n) = .ok (Moment.order? m n == some .eq) := rfl
    rw [hequal, ho]
    cases o <;> rfl
  | guids g h =>
    refine congrArg Except.ok (Bool.eq_iff_iff.mpr ?_)
    rw [beq_iff_eq, beq_iff_eq, compare_eq_iff_eq]
    rcases g with ⟨m⟩
    rcases h with ⟨n⟩
    simp

theorem Ordered.isScalar (h : Ordered a b o) : a.IsScalar := by
  cases h with
  | numbers hm => cases a <;> trivial
  | texts hs => cases a <;> trivial
  | _ => trivial

/-- Values that stand in an order are not one and the same value that is no number. -/
theorem Ordered.isSame_eq (h : Ordered a b o) : isSame a b = false := by
  unfold isSame
  split
  · cases h with
    | numbers hm hn hx hy => cases hm; cases hx
    | texts hs => cases hs
  · cases h with
    | numbers hm hn hx hy => cases hm; cases hx
    | texts hs => cases hs
  · rfl

theorem InOrder.swap (h : InOrder a b o) : InOrder b a o.swap := by
  induction h with
  | scalars h => exact .scalars h.swap
  | nil => exact .nil
  | shorter y ys => exact .longer y ys
  | longer x xs => exact .shorter x xs
  | differ xs ys _ ho ih => exact .differ ys xs ih (by simpa using ho)
  | later h _ ih => exact .later h.symm ih

/-- Nothing is ordered that may have no plain text. -/
theorem InOrder.ne (h : InOrder a b o) :
    (∀ op, b ≠ operator op) ∧ ∀ n shown, b ≠ node n shown := by
  constructor
  all_goals
    intros
    rintro rfl
    cases h with
    | scalars h =>
      cases h with
      | numbers _ hn => cases hn
      | texts _ ht => cases ht

theorem InOrder.isSame_eq (h : InOrder a b o) : isSame a b = false := by
  cases h with
  | scalars h => exact h.isSame_eq
  | _ => rfl

/-- **Values that can be ordered are equal if their order says so.** -/
theorem InOrder.equal_eq (h : InOrder a b o) : equal a b = .ok (o == .eq) := by
  induction h with
  | scalars h => rw [equal_of_isScalar h.isScalar, h.equalScalars_eq]
  | nil =>
    rw [equal, if_pos rfl, equalItems]
    · rfl
    · intro _ _ _ _ h
      cases h
  | shorter y ys =>
    rw [equal, if_neg (by simp)]
    rfl
  | longer x xs =>
    rw [equal, if_neg (by simp)]
    rfl
  | @differ x y o xs ys h ho ih =>
    have hno : (o == .eq) = false := by simpa using ho
    have hitem : orSame x y (equal x y) = .ok false := by
      rw [orSame, h.isSame_eq, ih, hno]
      rfl
    rw [equal, equalItems, hitem, hno]
    split <;> rfl
  | @later x y xs ys o h hrest ih =>
    rw [equal] at ih
    rw [equal, equalItems, h.1, ← ih]
    simp only [List.length_cons, Nat.add_right_cancel_iff]
    rfl

/-- Two items that can be ordered are compared by their order, also where an item would be itself. -/
theorem InOrder.orSame_eq (h : InOrder a b o) : orSame a b (equal a b) = .ok (o == .eq) := by
  rw [orSame, h.isSame_eq, h.equal_eq]
  rfl

/-- **Values that can be ordered are related as their order says.** -/
theorem InOrder.relate_eq (h : InOrder a b o) (r : Relation) : relate r a b = .ok (r.holds o) := by
  induction h with
  | @scalars a _ _ h =>
    have ha : a.asList? = none := by
      cases a with
      | list => exact h.isScalar.elim
      | _ => rfl
    rw [relate_of_asList? r ha, h.relateScalars_eq]
  | nil => rw [relate, relateItems]
  | shorter y ys => rw [relate, relateItems]
  | longer x xs => rw [relate, relateItems]
  | @differ x y o xs ys h ho ih =>
    have hno : (o == .eq) = false := by simpa using ho
    rw [relate, relateItems, h.orSame_eq, hno, ← ih]
    rfl
  | later h _ ih =>
    rw [relate] at ih
    rw [relate, relateItems, h.1, ← ih]
    rfl

/-- Values that are not both lists can be ordered if they are related at all. -/
theorem exists_inOrder {r : Relation} (ha : a.asList? = none) (h : relate r a b = .ok true) :
    ∃ o, InOrder a b o := by
  rw [relate_of_asList? r ha] at h
  by_contra hno
  have hordered : ∀ o, ¬ Ordered a b o := fun o ho => hno ⟨o, .scalars ho⟩
  by_cases hanswer : HasNoAnswer a b
  · rw [hanswer.relateScalars_eq] at h
    cases h
  · rcases relateScalars_of_not_ordered r hordered hanswer with hfalse | herror
    · rw [hfalse] at h
      cases h
    · rw [herror] at h
      cases h

end

end Value

/-! ### The operators -/

namespace Comparison

theorem comparable_operator (type : Option TypeRef) (op : Operator) :
    TypeRef.comparable type (.operator op) = .operator op := by
  rcases type with - | ⟨⟨⟩⟩ | - <;> rfl

theorem comparable_node (type : Option TypeRef) (n : Node) (shown : Shown Value) :
    TypeRef.comparable type (.node n shown) = .node n shown := by
  rcases type with - | ⟨⟨⟩⟩ | - <;> rfl

section

variable {type : Option TypeRef} {a b : Value} {o : Ordering}
  (h : (TypeRef.comparable type a).InOrder (TypeRef.comparable type b) o)

include h

theorem ordered_of_inOrder (r : Relation) : ordered type r a b = .ok (r.holds o) := by
  rw [ordered, h.relate_eq]

/-- A value that can be ordered has a plain text. -/
theorem exists_pointsOrNone : ∃ cs, b.pointsOrNone = .ok cs := by
  cases b with
  | operator op => exact absurd (comparable_operator type op) (h.ne.1 op)
  | node n shown => exact absurd (comparable_node type n shown) (h.ne.2 n shown)
  | _ => exact ⟨_, rfl⟩

/-- A text is compared with any value that it can be ordered with. -/
theorem exists_textEqual (policy : TextPolicy) : ∃ holds, textEqual policy a b = .ok holds := by
  obtain ⟨ds, hds⟩ := exists_pointsOrNone h
  obtain ⟨cs, hcs⟩ := exists_pointsOrNone h.swap
  unfold textEqual
  split
  · exact ⟨false, rfl⟩
  · exact ⟨_, by rw [hcs, ok_bind, hds, ok_bind]; rfl⟩

/-- Two values that can be ordered are tested for equality as texts, or else by their order. -/
theorem exists_equal_of_inOrder (policy : TextPolicy) : ∃ holds, equal type policy a b = .ok holds ∧
    ((a.isNonemptyText = true → isByValue type = false →
      (textEqual policy a b = .ok true ↔ o = .eq)) → (holds = true ↔ o = .eq)) := by
  unfold equal
  split
  · rename_i hrules
    rw [Bool.and_eq_true, Bool.not_eq_true'] at hrules
    obtain ⟨holds, hholds⟩ := exists_textEqual h policy
    refine ⟨holds, hholds, fun hagree => ?_⟩
    rw [← hagree hrules.1 hrules.2, hholds, Except.ok.injEq]
  · exact ⟨o == .eq, h.equal_eq, fun _ => beq_iff_eq⟩

end

end Comparison

end RecordFilter
