import RecordFilter.Proofs.Predicate.Schemaless
import RecordFilter.Proofs.Predicate.Staleness

/-!
# Negations pushed inward

A condition has an opposite without a negation in front of it: `and` and `or`, `any` and `all`, `eq`
and `ne` change places, a negation is taken away, and the rest is negated where it stands
(`Condition.neg`). A condition and its opposite are compiled to tests that are opposite on every
record, with one fault wherever there is one (`Resolved.compile_neg`): tests of some and of all things
stop at the same place.

So the negation of a predicate is used as a predicate that the opposite is the condition of
(`Predicate.endAlike_negation`).
-/

namespace RecordFilter

/-! ### Opposite operators -/

/-- Two operators of one kind that are each other's opposite. -/
structure Operator.Opposites where
  one : MarkedOperator Bool
  other : MarkedOperator Bool

namespace Operator

/-- The operator of negations. -/
def negation : Operator :=
  ⟨.text "not", ["!", "~"], false⟩

namespace Opposites

/-- The opposite of an operator, if it is one of the two. -/
def of? (pair : Opposites) (op : Operator) : Option Operator :=
  if op.key.isText pair.one.key then some pair.other.toOperator
  else if op.key.isText pair.other.key then some pair.one.toOperator
  else none

theorem of?_eq_some {pair : Opposites} {op op' : Operator} (h : pair.of? op = some op') :
    op.key.isText pair.one.key ∧ op' = pair.other.toOperator ∨
      op.key.isText pair.other.key ∧ op' = pair.one.toOperator := by
  rw [of?] at h
  split at h
  · rename_i hone
    exact .inl ⟨hone, (Option.some.inj h).symm⟩
  · split at h
    · rename_i hother
      exact .inr ⟨hother, (Option.some.inj h).symm⟩
    · cases h

/-- The operators that join predicates. -/
def joining : Opposites :=
  ⟨⟨"and", ["&&"], false⟩, ⟨"or", ["||"], false⟩⟩

/-- The tests of equality. -/
def equality : Opposites :=
  ⟨⟨"eq", ["==", "=", "equals"], false⟩, ⟨"ne", ["!=", "~=", "notequals"], false⟩⟩

/-- The quantifiers. -/
def quantifying : Opposites :=
  ⟨⟨"any", ["some"], false⟩, ⟨"all", ["every"], false⟩⟩

end Opposites

end Operator

theorem Value.asText?_of_isText {v : Value} {s : Text} (h : v.isText s) : v.asText? = some s :=
  eq_of_beq h

theorem Value.isText_eq {v : Value} {s : Text} (h : v.isText s) (s' : Text) :
    v.isText s' = (s == s') := by
  rw [Value.isText, Value.asText?_of_isText h]
  rfl

theorem Value.exists_toText_of_asText? {v : Value} {s : Text} (h : v.asText? = some s) :
    ∃ text, v.toText = .ok text := by
  cases v
  case text | token => exact ⟨_, rfl⟩
  all_goals cases h

/-! ### Opposite conditions -/

open Operator (Opposites)

mutual

/-- The opposite of a condition. -/
def Condition.neg : Condition → Condition
  | .unary op operand =>
    if op.key.isText "not" then operand else .unary .negation (.unary op operand)
  | .logical op children =>
    match Opposites.joining.of? op with
    | some opposite => .logical opposite (Condition.negAll children)
    | none => .unary .negation (.logical op children)
  | .comparison op left right =>
    match Opposites.equality.of? op with
    | some opposite => .comparison opposite left right
    | none => .unary .negation (.comparison op left right)
  | .quantified op collection body =>
    match Opposites.quantifying.of? op with
    | some opposite => .quantified opposite collection (Condition.neg body)
    | none => .unary .negation (.quantified op collection body)
  | t => .unary .negation t

/-- The opposites of conditions. -/
def Condition.negAll : List Condition → List Condition
  | [] => []
  | t :: ts => Condition.neg t :: Condition.negAll ts

end

mutual

/-- The opposite of a resolved condition. -/
def Resolved.neg : Resolved → Resolved
  | .passthrough text => .unary .negation (.passthrough text)
  | .unary op operand =>
    if op.key.isText "not" then operand else .unary .negation (.unary op operand)
  | .logical op children =>
    match Opposites.joining.of? op with
    | some opposite => .logical opposite (Resolved.negAll children)
    | none => .unary .negation (.logical op children)
  | .comparison op left right =>
    match Opposites.equality.of? op with
    | some opposite => .comparison opposite left right
    | none => .unary .negation (.comparison op left right)
  | .quantified op collection body =>
    match Opposites.quantifying.of? op with
    | some opposite => .quantified opposite collection (Resolved.neg body)
    | none => .unary .negation (.quantified op collection body)

/-- The opposites of resolved conditions. -/
def Resolved.negAll : List Resolved → List Resolved
  | [] => []
  | t :: ts => Resolved.neg t :: Resolved.negAll ts

end

/-! ### Opposite tests -/

namespace Predicate

/-- The second test says the opposite of the first one on every record, or ends in the same fault. -/
def Test.IsOpposite (f g : Test) : Prop :=
  ∀ record, g record = (f record).map not

theorem map_not_not (x : Except Fault Bool) : (x.map not).map not = x := by
  rcases x with fault | b
  · rfl
  · exact congrArg Except.ok (Bool.not_not b)

theorem Test.IsOpposite.symm {f g : Test} (h : f.IsOpposite g) : g.IsOpposite f := by
  intro record
  rw [h record, map_not_not]

/-- The opposite way to repeat a test. -/
def Extent.dual : Extent → Extent
  | .some => .all
  | .all => .some

/-- **Testing some things is the opposite of testing all of them for the opposite.** Both go on and
stop at the same things. -/
theorem Extent.holds_dual {α β : Type} (extent : Extent) {f : α → Except Fault Bool}
    {g : β → Except Fault Bool} {as : List α} {bs : List β}
    (h : List.Forall₂ (fun a b => g b = (f a).map not) as bs) :
    extent.dual.holds g bs = (extent.holds f as).map not := by
  induction h with
  | nil => cases extent <;> rfl
  | @cons a b as bs hb _ ih =>
    rw [holds, holds, hb]
    rcases f a with fault | x
    · rfl
    · -- the one goes on where the other one does
      cases extent <;> cases x
      · exact ih
      · rfl
      · rfl
      · exact ih

theorem logicalExtent_opposite {op opposite : Operator} (h : Opposites.joining.of? op = some opposite) :
    ∃ extent, logicalExtent op = .ok extent ∧ logicalExtent opposite = .ok extent.dual := by
  rcases Opposites.of?_eq_some h with ⟨hop, rfl⟩ | ⟨hop, rfl⟩
  · exact ⟨.all, if_pos hop, rfl⟩
  · have hand : ¬ op.key.isText "and" := by
      rw [Value.isText_eq hop]
      decide
    exact ⟨.some, (if_neg hand).trans (if_pos hop), rfl⟩

theorem quantifiedExtent_opposite {op opposite : Operator}
    (h : Opposites.quantifying.of? op = some opposite) :
    ∃ extent, quantifiedExtent op = .ok extent ∧ quantifiedExtent opposite = .ok extent.dual := by
  rcases Opposites.of?_eq_some h with ⟨hop, rfl⟩ | ⟨hop, rfl⟩
  · exact ⟨.some, if_pos hop, rfl⟩
  · have hany : ¬ op.key.isText "any" := by
      rw [Value.isText_eq hop]
      decide
    exact ⟨.all, (if_neg hany).trans (if_pos hop), rfl⟩

theorem ofOperator_of_isText {op : Operator} {key : Text} (h : op.key.isText key)
    {comparison : Comparison} (hkey : Comparison.table.lookup key = some comparison) :
    Comparison.ofOperator op = .ok comparison := by
  rw [Comparison.ofOperator, Comparison.ofOperator?, Value.asText?_of_isText h, Option.bind_some, hkey]

/-- Of the tests of equality each one holds where the other one does not. -/
theorem comparison_opposite {op opposite : Operator} (h : Opposites.equality.of? op = some opposite) :
    ∃ k k', Comparison.ofOperator op = .ok k ∧ Comparison.ofOperator opposite = .ok k' ∧
      ∀ type policy a b, k'.holds type policy a b = (k.holds type policy a b).map not := by
  rcases Opposites.of?_eq_some h with ⟨hop, rfl⟩ | ⟨hop, rfl⟩
  · exact ⟨.eq, .ne, ofOperator_of_isText hop rfl, rfl, fun _ _ _ _ => rfl⟩
  · exact ⟨.ne, .eq, ofOperator_of_isText hop rfl, rfl, fun _ _ _ _ => (map_not_not _).symm⟩

/-- Comparisons of the same operands for equality and for inequality are opposite. -/
theorem endAlike_compileComparison {c : Catalog} {default : Except Fault TextPolicy}
    {context : Context} {op opposite : Operator} (h : Opposites.equality.of? op = some opposite)
    (l r : Option Expr) :
    EndAlike Eq Test.IsOpposite (compileComparison c default context op l r)
      (compileComparison c default context opposite l r) := by
  have hrefl : ∀ {α : Type} (x : Except Fault α), EndAlike Eq Eq x x := fun _ =>
    .refl (fun _ => rfl) fun _ => rfl
  obtain ⟨k, k', hk, hk', hholds⟩ := comparison_opposite h
  rw [compileComparison, compileComparison, hk, hk']
  refine (hrefl _).bind ?_
  rintro type _ rfl
  refine (hrefl _).bind ?_
  rintro policy _ rfl
  rw [ok_bind, ok_bind]
  refine (hrefl _).bind ?_
  rintro left _ rfl
  refine (hrefl _).bind ?_
  rintro right _ rfl
  refine .ok fun record => ?_
  rcases left record with fault | a
  · rfl
  · rcases right record with fault | b
    · rfl
    · exact hholds type policy a b

end Predicate

/-! ### Resolving and compiling opposites -/

open Predicate (Test)

section

variable (c : Catalog) (default : Except Fault TextPolicy)

/-- The negation of a condition is the opposite of it. -/
theorem Resolved.endAlike_unary (context : Context) (t : Resolved) :
    EndAlike Eq Test.IsOpposite (t.compile c default context)
      ((Resolved.unary .negation t).compile c default context) := by
  have hnot : Operator.negation.key.isText "not" := rfl
  rw [Resolved.compile, if_pos hnot]
  rcases t.compile c default context with fault | f
  · exact .error rfl
  · exact .ok fun _ => rfl

mutual

/-- **A condition and its opposite are compiled to opposite tests**, or to one fault. -/
theorem Resolved.compile_neg : ∀ (t : Resolved) (context : Context),
    EndAlike Eq Test.IsOpposite (t.compile c default context) (t.neg.compile c default context)
  | .passthrough text, context => Resolved.endAlike_unary c default context _
  | .unary op operand, context => by
    rw [Resolved.neg]
    split
    · rename_i hnot
      -- the operand is what the negation is the opposite of
      rw [Resolved.compile, if_pos hnot]
      rcases operand.compile c default context with fault | f
      · exact .error rfl
      · refine .ok fun record => ?_
        exact (Predicate.map_not_not (f record)).symm
    · exact Resolved.endAlike_unary c default context _
  | .logical op children, context => by
    rw [Resolved.neg]
    split
    · rename_i opposite hop
      obtain ⟨extent, hextent, hdual⟩ := Predicate.logicalExtent_opposite hop
      rw [Resolved.compile, Resolved.compile, hextent, hdual]
      refine (Resolved.compileAll_neg children context).bind fun fs gs hfs => .ok fun record => ?_
      exact extent.holds_dual (hfs.imp fun _ _ hfg => hfg record)
    · exact Resolved.endAlike_unary c default context _
  | .comparison op left right, context => by
    rw [Resolved.neg]
    split
    · rename_i opposite hop
      exact Predicate.endAlike_compileComparison hop (some left) (some right)
    · exact Resolved.endAlike_unary c default context _
  | .quantified op collection body, context => by
    rw [Resolved.neg]
    split
    · rename_i opposite hop
      obtain ⟨extent, hextent, hdual⟩ := Predicate.quantifiedExtent_opposite hop
      rw [Resolved.compile, Resolved.compile, hextent, hdual]
      have hrefl : EndAlike Eq Eq (collection.compile context) (collection.compile context) :=
        .refl (fun _ => rfl) fun _ => rfl
      refine hrefl.bind ?_
      rintro elements _ rfl
      refine (Resolved.compile_neg body _).bind fun f g hfg => .ok fun record => ?_
      rcases elements record with fault | v
      · rfl
      · rw [ok_bind, ok_bind]
        rcases v.elements with fault | vs
        · rfl
        · exact extent.holds_dual (List.forall₂_same.mpr fun v _ => hfg v)
    · exact Resolved.endAlike_unary c default context _

theorem Resolved.compileAll_neg : ∀ (ts : List Resolved) (context : Context),
    EndAlike Eq (List.Forall₂ Test.IsOpposite) (Resolved.compileAll c default context ts)
      (Resolved.compileAll c default context (Resolved.negAll ts))
  | [], _ => .ok .nil
  | t :: ts, context =>
    (Resolved.compile_neg t context).bind fun _ _ hfg =>
      (Resolved.compileAll_neg ts context).bind fun _ _ hfs => .ok (.cons hfg hfs)

end

end

/-- The source of a collection is read alike for quantifiers whose keys have texts. -/
theorem Predicate.endAlike_collectionOf_opposite {op opposite : Operator}
    (h : Opposites.quantifying.of? op = some opposite) (c : Catalog) (schema : Option EntityId)
    (collection : Value) :
    EndAlike Fault.SameKind Eq (collectionOf c schema op collection)
      (collectionOf c schema opposite collection) := by
  have hrefl : ∀ {α : Type} (x : Except Fault α), EndAlike Fault.SameKind Eq x x := fun _ =>
    .refl (fun _ => rfl) fun _ => rfl
  obtain ⟨text, htext⟩ : ∃ text, op.key.toText = .ok text := by
    rcases Opposites.of?_eq_some h with ⟨hop, -⟩ | ⟨hop, -⟩ <;>
      exact Value.exists_toText_of_asText? (Value.asText?_of_isText hop)
  obtain ⟨text', htext'⟩ : ∃ text', opposite.key.toText = .ok text' := by
    rcases Opposites.of?_eq_some h with ⟨-, rfl⟩ | ⟨-, rfl⟩ <;> exact ⟨_, rfl⟩
  refine (hrefl _).bind ?_
  rintro e _ rfl
  rcases misfit? c schema e with - | error
  · exact .ok rfl
  · -- what the message says of the operator is all that differs
    dsimp only
    rw [htext, htext']
    rcases collection.toText with fault | shown
    · exact .error rfl
    · exact .error rfl

section

variable (c : Catalog)

/-- The negation of a condition is resolved to the opposite, where the opposite is the negation. -/
theorem Condition.endAlike_resolve_negation {schema : Option EntityId} {t : Condition}
    (h : ∀ r, t.resolve c schema = .ok r → r.neg = .unary .negation r) :
    EndAlike Fault.SameKind (fun r r' => r' = r.neg) (t.resolve c schema)
      ((Condition.unary .negation t).resolve c schema) := by
  rw [Condition.resolve.eq_4]
  rcases e : t.resolve c schema with fault | r
  · exact .error rfl
  · exact .ok (h r e).symm

mutual

/-- **The opposite of a condition is resolved to the opposite** of what the condition is resolved to,
or to a fault of one kind. -/
theorem Condition.resolve_neg : ∀ (t : Condition) (schema : Option EntityId),
    EndAlike Fault.SameKind (fun r r' => r' = r.neg) (t.resolve c schema) (t.neg.resolve c schema)
  | .absent, _ | .bare _, _ => .error rfl
  | .passthrough _, _ => .ok rfl
  | .unary op operand, schema => by
    rw [Condition.neg]
    split
    · rename_i hnot
      rw [Condition.resolve]
      rcases operand.resolve c schema with fault | r
      · exact .error rfl
      · refine .ok ?_
        rw [Resolved.neg, if_pos hnot]
    · rename_i hnot
      refine Condition.endAlike_resolve_negation c fun r hr => ?_
      obtain ⟨u, -, rfl⟩ := Condition.resolve_unary_eq_ok_iff.mp hr
      rw [Resolved.neg, if_neg hnot]
  | .logical op children, schema => by
    rw [Condition.neg]
    split
    · rename_i opposite hop
      refine (Condition.resolveAll_neg children schema).bind ?_
      rintro rs _ rfl
      refine .ok ?_
      rw [Resolved.neg, hop]
    · rename_i hop
      refine Condition.endAlike_resolve_negation c fun r hr => ?_
      obtain ⟨us, -, rfl⟩ := Condition.resolve_logical_eq_ok_iff.mp hr
      rw [Resolved.neg, hop]
  | .comparison op left right, schema => by
    rw [Condition.neg]
    split
    · rename_i opposite hop
      rw [Condition.resolve, Condition.resolve]
      rcases Predicate.operandsOf c schema left right with fault | ⟨l, r⟩
      · exact .error rfl
      · refine .ok ?_
        rw [Resolved.neg, hop]
    · rename_i hop
      refine Condition.endAlike_resolve_negation c fun r hr => ?_
      obtain ⟨l, r', -, rfl⟩ := Condition.resolve_comparison_eq_ok_iff.mp hr
      rw [Resolved.neg, hop]
  | .quantified op collection body, schema => by
    rw [Condition.neg]
    split
    · rename_i opposite hop
      refine (Predicate.endAlike_collectionOf_opposite hop c schema collection).bind ?_
      rintro e _ rfl
      refine (Condition.resolve_neg body e.entity?).bind ?_
      rintro r _ rfl
      refine .ok ?_
      rw [Resolved.neg, hop]
    · rename_i hop
      refine Condition.endAlike_resolve_negation c fun r hr => ?_
      obtain ⟨e, u, -, -, rfl⟩ := Condition.resolve_quantified_eq_ok_iff.mp hr
      rw [Resolved.neg, hop]

theorem Condition.resolveAll_neg : ∀ (ts : List Condition) (schema : Option EntityId),
    EndAlike Fault.SameKind (fun rs rs' => rs' = Resolved.negAll rs)
      (Condition.resolveAll c schema ts) (Condition.resolveAll c schema (Condition.negAll ts))
  | [], _ => .ok rfl
  | t :: ts, schema => by
    refine (Condition.resolve_neg t schema).bind ?_
    rintro r _ rfl
    refine (Condition.resolveAll_neg ts schema).bind ?_
    rintro rs _ rfl
    exact .ok rfl

end

end

/-! ### Negations of predicates -/

namespace Predicate

section

variable {c : Catalog} {default : Except Fault TextPolicy} {source : ContextSource}
  {schema : Option EntityId} {n p q : Predicate} {notes notes' : Notes}

/-- The negation of a condition and the opposite of it come to tests that agree on every record. -/
theorem endAlike_testOf_negation (t : Condition) :
    EndAlike Fault.SameKind (fun f g => ∀ record, f record = g record)
      (testOf c default source (.unary .negation t)) (testOf c default source t.neg) := by
  have hnot : Operator.negation.key.isText "not" := rfl
  rw [testOf, testOf]
  rcases Context.ofSource source with fault | context
  · exact .error rfl
  rw [ok_bind, ok_bind, Condition.resolve]
  refine ((Condition.resolve_neg c t context.schema).map_left (Q := fun r r' => ∃ u,
    r = .unary .negation u ∧ r' = u.neg) fun u _ h => ⟨u, rfl, h⟩).bind ?_
  rintro _ _ ⟨u, rfl, rfl⟩
  rw [Resolved.compile, if_pos hnot]
  have hneg : EndAlike Fault.SameKind Test.IsOpposite (u.compile c default context)
      (u.neg.compile c default context) :=
    (u.compile_neg c default context).imp (fun _ _ h => congrArg Fault.kind h) fun _ _ h => h
  exact hneg.map_left fun f g hfg record => (hfg record).symm

/-- The predicate can be used under a schema: it is new, or validating it under the schema leaves the
operands in the notes that its condition stands for. -/
inductive IsUsable (c : Catalog) (schema : Option EntityId) (notes : Notes) (p : Predicate) : Prop
  | new : p.labels.Nodup → notes.On Note.Unmarked p.labels → IsUsable c schema notes p
  | valid {notes' : Notes} {t : Resolved} :
      outcome ((Node.predicate p).validate c schema) notes = (.ok (), notes') → p.HeldBy notes' t →
        ResolvesTo c schema p.condition t → IsUsable c schema notes p

/-- Compiling a predicate that can be used comes to the test of its condition. -/
theorem agrees_compile_of_isUsable (hp : p.IsPlain)
    (h : ∀ context, Context.ofSource source = .ok context → p.IsUsable c context.schema notes) :
    Agrees (fun program test _ => RunsAs program test)
      ((Node.predicate p).compile c default source) notes (testOf c default source p.condition) := by
  refine agrees_compile_of_validate hp fun context hcontext => ?_
  cases h context hcontext with
  | new hnodup hon =>
    exact (agrees_validate hp hnodup hon).imp fun _ t _ hready => ⟨t, hready.held, rfl⟩
  | @valid notes' u hvalidate hheld hresolves =>
    obtain ⟨t, ht, hsame⟩ := hresolves
    rw [ht]
    refine ⟨(), notes', hvalidate, u, hheld, ?_⟩
    rw [← Resolved.compile_unmarked, ← hsame, Resolved.compile_unmarked]

/-- Of checked predicates whose operands are those of a negation and of an opposite the functions
agree, in whatever context and state they are compiled. -/
theorem endAlike_function_negation {context : Context} {t : Resolved}
    (hn : n.resolvedIn notes = some (.unary .negation t)) (hq : q.resolvedIn notes' = some t.neg) :
    EndAlike Eq (fun f g => ∀ record, f record = g record)
      ((Node.predicate n).function c notes default context)
      ((Node.predicate q).function c notes' default context) := by
  have hnot : Operator.negation.key.isText "not" := rfl
  rw [Node.function, Node.function, Predicate.compile_of_resolvedIn c notes default context n hn,
    Predicate.compile_of_resolvedIn c notes' default context q hq, Resolved.compile, if_pos hnot]
  have htests : EndAlike Eq (fun f g : Test => ∀ record, f record = g record)
      (do
        let f ← t.compile c default context
        return fun record => (f record).map not) (t.neg.compile c default context) :=
    (t.compile_neg c default context).map_left fun f g hfg record => (hfg record).symm
  refine htests.bind fun f g hfg => .ok fun record => ?_
  rw [hfg record]

/-- **Negations can be pushed inward.** Checked predicates, one of which is the negation of what the
other one is the opposite of, have functions that agree on every record, in whatever context they are
compiled: on the result, or on the fault. When a predicate that negates `p`, and one whose condition
is the opposite of that of `p`, are checked and compiled in a context, either both fail with faults of
one kind, or both give programs, which agree in the same way. -/
theorem endAlike_negation :
    (∀ {context : Context} {n q : Predicate} {notes notes' : Notes} {t : Resolved},
      n.resolvedIn notes = some (.unary .negation t) → q.resolvedIn notes' = some t.neg →
        EndAlike Eq (fun f g => ∀ record, f record = g record)
          ((Node.predicate n).function c notes default context)
          ((Node.predicate q).function c notes' default context)) ∧
    ∀ {n p q : Predicate} {notes notes' : Notes}, n.IsPlain → q.IsPlain →
      n.condition = .unary .negation p.condition → q.condition = p.condition.neg →
      (∀ context, Context.ofSource source = .ok context → n.IsUsable c context.schema notes) →
      (∀ context, Context.ofSource source = .ok context → q.IsUsable c context.schema notes') →
        EndAlike Fault.SameKind Program.RunsLike
          (outcome ((Node.predicate n).compile c default source) notes).1
          (outcome ((Node.predicate q).compile c default source) notes').1 := by
  refine ⟨endAlike_function_negation, ?_⟩
  intro n p q notes notes' hn hq hncondition hqcondition hnusable hqusable
  have htests : EndAlike Fault.SameKind (fun f g => ∀ record, f record = g record)
      (testOf c default source n.condition) (testOf c default source q.condition) := by
    rw [hncondition, hqcondition]
    exact endAlike_testOf_negation p.condition
  refine (agrees_compile_of_isUsable hn hnusable).endAlike.trans htests
    (agrees_compile_of_isUsable hq hqusable).endAlike ?_
  rintro program f g program' ⟨_, hf⟩ hfg ⟨_, hg⟩ current current' now now' record
  rw [hf, hg, hfg]

end

/-- No item has the quantity five exactly if all items have another one, which is seen of one item
where the operands are known, and of predicates that are new. -/
theorem endAlike_negation_of_quantifier :
    let eq : Operator := ⟨.text "eq", ["==", "=", "equals"], false⟩
    let ne : Operator := ⟨.text "ne", ["!=", "~=", "notequals"], false⟩
    let same : Predicate := .comparison 0 eq (.text "qty") (.int 5)
    let other : Predicate := .comparison 3 ne (.text "qty") (.int 5)
    let p : Predicate := .quantified 1 ⟨.text "any", ["some"], false⟩ (.text "items") (some same)
    let n : Predicate := .unary 2 .negation (some p)
    let q : Predicate := .quantified 4 ⟨.text "all", ["every"], false⟩ (.text "items") (some other)
    let known : Note := { left := some (.path (.text "qty") none {}),
                          right := some (.literal (.int 5) none false {}) }
    let notes : Notes := (Notes.change [] 0 fun _ => known).change 3 fun _ => known
    EndAlike Eq (fun f g => ∀ record, f record = g record)
      ((Node.predicate (.unary 2 .negation (some same))).function [] notes (.ok {}) {})
      ((Node.predicate other).function [] notes (.ok {}) {}) ∧
    (outcome ((Node.predicate n).compile [] (.ok {}) .absent) []).1.isOk ∧
      EndAlike Fault.SameKind Program.RunsLike
        (outcome ((Node.predicate n).compile [] (.ok {}) .absent) []).1
        (outcome ((Node.predicate q).compile [] (.ok {}) .absent) []).1 := by
  intro eq ne same other p n q known notes
  have hn : n.IsPlain := by
    simp [n, p, same, eq, Operator.negation, Predicate.IsPlain, PlainOption, Operator.IsPlain,
      Value.IsPlain]
  have hq : q.IsPlain := by
    simp [q, other, ne, Predicate.IsPlain, PlainOption, Operator.IsPlain, Value.IsPlain]
  have hnew : ∀ {schema : Option EntityId} {r : Predicate}, r.labels.Nodup →
      r.IsUsable [] schema [] := fun hnodup => .new hnodup fun _ _ => Note.unmarked_default
  have hqcondition : q.condition = p.condition.neg := rfl
  have hboth := @endAlike_negation [] (.ok {}) .absent
  refine ⟨hboth.1 rfl rfl, by decide +kernel, ?_⟩
  exact hboth.2 hn hq rfl hqcondition (fun _ _ => hnew (by decide))
    fun _ _ => hnew (by decide)

end Predicate

end RecordFilter
