import RecordFilter.Proofs.Predicate.FirstUse
import RecordFilter.Proofs.Predicate.Unmarked

/-!
# Anonymous schemas

An anonymous entity type counts as no schema, whatever properties it lists: the operands that are read
under it are those that are read under none, but for the marks of what they were checked against
(`Operand.endAlike_read?`), and so are the conditions that are resolved (`Condition.endAlike_resolve`).
Marks do not count when a condition is compiled or written, and of the entity type in scope only its
policy and its naming convention do (`Resolved.compile_withSchema`, `Resolved.canonical_withSchema`).

So a filter that is used under an anonymous schema without a policy is used as under no schema
(`Filter.anonymous_is_schemaless`).
-/

namespace RecordFilter

/-! ### Operands -/

/-- Two operands are the same but for marks. -/
def Expr.Like (e e' : Expr) : Prop :=
  e.unmarked = e'.unmarked

theorem Expr.Like.type {e e' : Expr} (h : e.Like e') : e.type = e'.type := by
  rw [← Expr.type_unmarked e, h, Expr.type_unmarked]

theorem Expr.unmarked_withType (type : Option TypeRef) (e : Expr) :
    (e.withType type).unmarked = e.unmarked.withType type := by
  cases e <;> rfl

theorem Expr.Like.withType {e e' : Expr} (h : e.Like e') (type : Option TypeRef) :
    (e.withType type).Like (e'.withType type) := by
  rw [Expr.Like, Expr.unmarked_withType, Expr.unmarked_withType, h]

section

variable {c : Catalog} {schema : Option EntityId}

mutual

/-- Where there is no schema every operand fits, and checking it leaves marks only. -/
theorem Expr.check_of_isSchemaless (hs : c.isSchemaless schema) :
    ∀ e : Expr, (e.check c schema).2 = none ∧ (e.check c schema).1.unmarked = e.unmarked
  | .literal value type explicit mark => by
    rw [Expr.check]
    split <;> exact ⟨rfl, rfl⟩
  | .path p type mark => by
    have htype : Expr.checkPath c schema p type = .ok type := by
      unfold Expr.checkPath
      cases schema
      case none => rfl
      case some => exact if_pos hs
    rw [Expr.check, htype]
    split <;> exact ⟨rfl, rfl⟩
  | .call function args type mark => by
    obtain ⟨hnone, hargs⟩ := Expr.checkAll_of_isSchemaless hs args
    rw [Expr.check]
    split
    · exact ⟨rfl, rfl⟩
    · rcases h : Expr.checkAll c schema args with ⟨args', fault⟩
      rw [h] at hnone hargs
      cases hnone
      exact ⟨rfl, congrArg (Expr.call function · type {}) hargs⟩

theorem Expr.checkAll_of_isSchemaless (hs : c.isSchemaless schema) :
    ∀ es : List Expr, (Expr.checkAll c schema es).2 = none ∧
      Expr.unmarkedAll (Expr.checkAll c schema es).1 = Expr.unmarkedAll es
  | [] => ⟨rfl, rfl⟩
  | e :: es => by
    obtain ⟨hnone, he⟩ := Expr.check_of_isSchemaless hs e
    obtain ⟨hnone', hes⟩ := Expr.checkAll_of_isSchemaless hs es
    rw [Expr.checkAll]
    rcases h : e.check c schema with ⟨e', fault⟩
    rw [h] at hnone he
    cases hnone
    refine ⟨hnone', ?_⟩
    rw [Expr.unmarkedAll, Expr.unmarkedAll, ← he, ← hes]

end

theorem Expr.fit_of_isSchemaless (hs : c.isSchemaless schema) (e : Expr) :
    ∃ e', e.fit c schema = .ok e' ∧ e'.unmarked = e.unmarked := by
  obtain ⟨hnone, he⟩ := Expr.check_of_isSchemaless hs e
  rw [Expr.fit]
  rcases h : e.check c schema with ⟨e', fault⟩
  rw [h] at hnone he
  cases hnone
  exact ⟨e', rfl, he⟩

namespace Operand

variable {place : Place}

theorem bare_of_isSchemaless (hs : c.isSchemaless place.schema) (cs : List CodePoint) :
    bare c place cs = bare c { place with schema := none } cs := by
  unfold bare
  rcases quotedInside? cs with - | inside
  · rcases h : place.schema with - | entity
    · rfl
    · rw [h] at hs
      dsimp only
      rw [if_pos hs]
  · rfl

/-- The linear form of a text is read as where there is no schema. -/
theorem expression_of_isSchemaless (l : Linear) (fuel : Nat) :
    ∀ {place : Place}, c.isSchemaless place.schema → ∀ cs : List CodePoint,
      expression c l fuel place cs = expression c l fuel { place with schema := none } cs := by
  induction fuel with
  | zero =>
    intro place hs cs
    unfold expression
    split
    · rfl
    · simp only [bare_of_isSchemaless hs]
  | succ fuel ih =>
    intro place hs cs
    -- arguments are read in places of the same schema
    have hs' : c.isSchemaless place.argument.schema := hs
    have hargument : expression c l fuel place.argument =
        expression c l fuel { place.argument with schema := none } :=
      funext fun cs => ih hs' cs
    unfold expression
    split
    · dsimp only
      rw [hargument]
      rfl
    · simp only [bare_of_isSchemaless hs]

theorem ofText?_of_isSchemaless (hs : c.isSchemaless place.schema) (cs : List CodePoint) :
    ofText? c place cs = ofText? c { place with schema := none } cs :=
  expression_of_isSchemaless _ _ hs _

theorem endAlike_fit (hs : c.isSchemaless schema) (e : Expr) :
    EndAlike Fault.SameKind Expr.Like (e.fit c schema) (e.fit c none) := by
  obtain ⟨e', hfit, he⟩ := Expr.fit_of_isSchemaless hs e
  have hnone : c.isSchemaless none := rfl
  obtain ⟨e'', hfit', he'⟩ := Expr.fit_of_isSchemaless hnone e
  rw [hfit, hfit']
  exact .ok (he.trans he'.symm)

theorem endAlike_ofEntries (hs : c.isSchemaless place.schema) (entries : List (Value × Value)) :
    EndAlike Fault.SameKind Expr.Like (ofEntries c place entries)
      (ofEntries c { place with schema := none } entries) := by
  have hrefl : ∀ x : Except Fault Expr, EndAlike Fault.SameKind Expr.Like x x := fun _ =>
    .refl (fun _ => rfl) fun _ => rfl
  unfold ofEntries
  dsimp only
  split
  · exact .error rfl
  · split
    · exact endAlike_fit hs _
    · split <;> exact hrefl _

/-- **What is read where there is no schema does not depend on which one is not there.** -/
theorem endAlike_read? (hs : c.isSchemaless place.schema) (source : Value) :
    EndAlike Fault.SameKind (fun x y => x.map Expr.unmarked = y.map Expr.unmarked)
      (read? c place source) (read? c { place with schema := none } source) := by
  have hrefl : ∀ x : Except Fault (Option Expr), EndAlike Fault.SameKind
      (fun x y => x.map Expr.unmarked = y.map Expr.unmarked) x x := fun _ =>
    .refl (fun _ => rfl) fun _ => rfl
  have hsome : ∀ {x y : Except Fault Expr}, EndAlike Fault.SameKind Expr.Like x y →
      EndAlike Fault.SameKind (fun x y => x.map Expr.unmarked = y.map Expr.unmarked)
        (do return some (← x)) (do return some (← y)) := fun h =>
    h.bind fun _ _ hsame => .ok (congrArg some hsame)
  unfold read?
  rcases source.asText? with - | s
  · cases source
    case map entries =>
      have hentries := hsome (endAlike_ofEntries hs entries)
      rcases ofEntries c place entries <;>
        rcases ofEntries c { place with schema := none } entries <;> exact hentries
    all_goals exact hrefl _
  · have hnone : c.isSchemaless none = true := rfl
    dsimp only
    rw [hs, hnone, Bool.and_true, ofText?_of_isSchemaless hs]
    rcases hright : place.isRight with - | -
    · refine EndAlike.bind (.of_eq (fun _ => rfl) rfl) ?_
      rintro x _ rfl
      rcases x with - | e
      · exact hrefl _
      · exact hsome (endAlike_fit hs e)
    · exact hrefl _

end Operand

namespace Predicate

open Operand (endAlike_read?)

theorem endAlike_leftOperand (hs : c.isSchemaless schema) (source : Value) :
    EndAlike Fault.SameKind Expr.Like (leftOperand c schema source) (leftOperand c none source) := by
  have hread := @endAlike_read? c { schema := schema } hs source
  refine hread.bind ?_
  rintro (- | e) (- | e') h
  · exact .error rfl
  · cases h
  · cases h
  · have he : e.Like e' := Option.some.inj h
    cases e <;> cases e' <;> first | exact .error rfl | exact .ok he | cases he

theorem endAlike_rightOperand (hs : c.isSchemaless schema) {l l' : Expr} (hl : l.Like l')
    (source : Value) :
    EndAlike Fault.SameKind Expr.Like (rightOperand c schema l source)
      (rightOperand c none l' source) := by
  have hhint : hintOf l = hintOf l' := by rw [hintOf, hintOf, hl.type]
  unfold rightOperand
  rw [hhint]
  have hread := @endAlike_read? c { schema, isRight := true, hint := hintOf l' } hs source
  refine hread.bind ?_
  rintro (- | e) (- | e') h
  · exact .error rfl
  · cases h
  · cases h
  · exact .ok (Option.some.inj h)

/-- The operands of a comparison are the same where there is no schema. -/
theorem endAlike_operandsOf (hs : c.isSchemaless schema) (left right : Value) :
    EndAlike Fault.SameKind (fun x y => x.1.Like y.1 ∧ x.2.Like y.2)
      (operandsOf c schema left right) (operandsOf c none left right) := by
  refine (endAlike_leftOperand hs left).bind fun l l' hl => ?_
  refine (endAlike_rightOperand hs hl right).bind fun r r' hr => .ok ⟨?_, hr⟩
  dsimp only
  rw [← hl.type, ← hr.type]
  split
  · exact hl.withType _
  · exact hl

/-- The collection of a quantifier is the same where there is no schema. -/
theorem endAlike_collectionOf (hs : c.isSchemaless schema) (op : Operator) (collection : Value) :
    EndAlike Fault.SameKind (fun e e' => e.Like e' ∧ e.entity? = none ∧ e'.entity? = none)
      (collectionOf c schema op collection) (collectionOf c none op collection) := by
  have hentity : ∀ e : Expr, (e.withType none).entity? = none := by
    intro e
    cases e <;> rfl
  have hoperand : EndAlike Fault.SameKind
      (fun e e' => e.Like e' ∧ e.entity? = none ∧ e'.entity? = none)
      (collectionOperand c schema collection) (collectionOperand c none collection) := by
    have hread := @endAlike_read? c { schema := schema } hs collection
    refine hread.bind ?_
    rintro (- | e) (- | e') h
    · exact .error rfl
    · cases h
    · cases h
    · have he : e.Like e' := Option.some.inj h
      have hnone : c.isSchemaless none = true := rfl
      dsimp only
      rw [if_pos hs, if_pos hnone]
      exact .ok ⟨he.withType none, hentity e, hentity e'⟩
  refine hoperand.bind fun e e' h => ?_
  rw [misfit?_of_isSchemaless hs, misfit?_of_isSchemaless rfl]
  exact .ok h

end Predicate

/-! ### Conditions -/

mutual

/-- **Where there is no schema, conditions are resolved alike**, whichever schema is not there. -/
theorem Condition.endAlike_resolve (hs : c.isSchemaless schema) :
    ∀ t : Condition, EndAlike Fault.SameKind (fun r r' => r.unmarked = r'.unmarked)
      (t.resolve c schema) (t.resolve c none)
  | .absent | .bare _ => .error rfl
  | .passthrough _ => .ok rfl
  | .unary op operand =>
    (Condition.endAlike_resolve hs operand).bind fun _ _ h => .ok (congrArg (Resolved.unary op) h)
  | .logical op children =>
    (Condition.endAlike_resolveAll hs children).bind fun _ _ h => .ok (congrArg (Resolved.logical op) h)
  | .comparison op left right =>
    (Predicate.endAlike_operandsOf hs left right).bind fun _ _ h =>
      .ok (congrArg₂ (Resolved.comparison op) h.1 h.2)
  | .quantified op collection body => by
    refine (Predicate.endAlike_collectionOf hs op collection).bind fun e e' ⟨he, hnone, hnone'⟩ => ?_
    -- the elements have no schema under either of the two
    rw [hnone, hnone']
    exact EndAlike.bind (.of_eq (fun _ => rfl) rfl) fun _ _ h =>
      .ok (congrArg₂ (Resolved.quantified op) he (congrArg Resolved.unmarked h))

theorem Condition.endAlike_resolveAll (hs : c.isSchemaless schema) :
    ∀ ts : List Condition, EndAlike Fault.SameKind
      (fun rs rs' => Resolved.unmarkedAll rs = Resolved.unmarkedAll rs')
      (Condition.resolveAll c schema ts) (Condition.resolveAll c none ts)
  | [] => .ok rfl
  | t :: ts =>
    (Condition.endAlike_resolve hs t).bind fun _ _ h =>
      (Condition.endAlike_resolveAll hs ts).bind fun _ _ hs' => .ok (congrArg₂ List.cons h hs')

end

end

/-! ### Contexts that differ in their schemas -/

section

variable {c : Catalog} {default : Except Fault TextPolicy} {context : Context}
  {schema schema' : Option EntityId}

mutual

/-- An operand is compiled alike in contexts that read fields alike. -/
theorem Expr.compile_congr {context context' : Context} (h : context.accessor = context'.accessor) :
    ∀ e : Expr, e.compile context = e.compile context'
  | .literal .. => rfl
  | .path .. => by
    rw [Expr.compile, Expr.compile, h]
  | .call function args _ _ => by
    rw [Expr.compile, Expr.compile, Expr.compileAll_congr h args]

theorem Expr.compileAll_congr {context context' : Context} (h : context.accessor = context'.accessor) :
    ∀ es : List Expr, Expr.compileAll context es = Expr.compileAll context' es
  | [] => rfl
  | e :: es => by
    rw [Expr.compileAll, Expr.compileAll, Expr.compile_congr h e, Expr.compileAll_congr h es]

end

/-- An operand is compiled alike under all schemas. -/
theorem Expr.compile_withSchema (e : Expr) :
    e.compile (context.withSchema schema) = e.compile (context.withSchema schema') :=
  have haccessor : (context.withSchema schema).accessor = (context.withSchema schema').accessor := rfl
  Expr.compile_congr haccessor e

/-- The schemas of two contexts lead to the same policy for comparing texts. -/
def SamePolicy (c : Catalog) (default : Except Fault TextPolicy) (context : Context)
    (schema schema' : Option EntityId) : Prop :=
  Predicate.policyOf c default (context.withSchema schema) =
    Predicate.policyOf c default (context.withSchema schema')

theorem compileComparison_withSchema (h : SamePolicy c default context schema schema')
    (op : Operator) (l r : Expr) :
    Predicate.compileComparison c default (context.withSchema schema) op (some l) (some r) =
      Predicate.compileComparison c default (context.withSchema schema') op (some l) (some r) := by
  have hpolicy : Predicate.policyOf c default (context.withSchema schema) = _ := h
  have hl : l.compile (context.withSchema schema) = l.compile (context.withSchema schema') :=
    Expr.compile_withSchema l
  have hr : r.compile (context.withSchema schema) = r.compile (context.withSchema schema') :=
    Expr.compile_withSchema r
  simp only [Predicate.compileComparison, Expr.compileFound, hpolicy, hl, hr]

mutual

/-- **A resolved condition is compiled alike under schemas of one policy.** -/
theorem Resolved.compile_withSchema (h : SamePolicy c default context schema schema') :
    ∀ t : Resolved, t.compile c default (context.withSchema schema) =
      t.compile c default (context.withSchema schema')
  | .passthrough _ => rfl
  | .unary op operand => by
    rw [Resolved.compile, Resolved.compile, Resolved.compile_withSchema h operand]
  | .logical op children => by
    rw [Resolved.compile, Resolved.compile, Resolved.compileAll_withSchema h children]
  | .comparison op left right => compileComparison_withSchema h op left right
  | .quantified op collection body => by
    -- the body is compiled in one context, that of the elements
    have hcollection : collection.compile (context.withSchema schema) =
        collection.compile (context.withSchema schema') := Expr.compile_withSchema collection
    rw [Resolved.compile, Resolved.compile, hcollection]
    rfl

theorem Resolved.compileAll_withSchema (h : SamePolicy c default context schema schema') :
    ∀ ts : List Resolved, Resolved.compileAll c default (context.withSchema schema) ts =
      Resolved.compileAll c default (context.withSchema schema') ts
  | [] => rfl
  | t :: ts => by
    rw [Resolved.compileAll, Resolved.compileAll, Resolved.compile_withSchema h t,
      Resolved.compileAll_withSchema h ts]

end

section

variable (hserver : context.server.truthy = false)

include hserver

theorem Expr.writtenPath_withSchema (schema : Option EntityId) (p : Value) :
    Expr.writtenPath c (context.withSchema schema) p = .ok p := by
  have hfalse : (context.withSchema schema).server.truthy = false := hserver
  rw [Expr.writtenPath, hfalse]

set_option linter.unusedSectionVars false in
mutual

theorem Expr.argumentForm_withSchema : ∀ e : Expr,
    e.argumentForm c (context.withSchema schema) = e.argumentForm c (context.withSchema schema')
  | .literal .. => rfl
  | .path p _ _ => by
    rw [Expr.argumentForm, Expr.argumentForm, Expr.writtenPath_withSchema hserver,
      Expr.writtenPath_withSchema hserver]
  | .call function args _ _ => by
    rw [Expr.argumentForm, Expr.argumentForm, Expr.argumentForms_withSchema args]

theorem Expr.argumentForms_withSchema : ∀ es : List Expr,
    Expr.argumentForms c (context.withSchema schema) es =
      Expr.argumentForms c (context.withSchema schema') es
  | [] => rfl
  | e :: es => by
    rw [Expr.argumentForms, Expr.argumentForms, Expr.argumentForm_withSchema e,
      Expr.argumentForms_withSchema es]

end

theorem Expr.canonical_withSchema (e : Expr) :
    e.canonical c (context.withSchema schema) = e.canonical c (context.withSchema schema') := by
  cases e
  case literal => rfl
  case path p _ _ =>
    rw [Expr.canonical, Expr.canonical, Expr.writtenPath_withSchema hserver,
      Expr.writtenPath_withSchema hserver]
  case call function args _ _ =>
    rw [Expr.canonical, Expr.canonical, Expr.argumentForms_withSchema hserver args]

set_option linter.unusedSectionVars false in
mutual

/-- **A resolved condition is written alike under all schemas**, unless paths are written with the
names of the server. -/
theorem Resolved.canonical_withSchema : ∀ t : Resolved,
    t.canonical c (context.withSchema schema) = t.canonical c (context.withSchema schema')
  | .passthrough _ => rfl
  | .unary op operand => by
    rw [Resolved.canonical, Resolved.canonical, Resolved.canonical_withSchema operand]
  | .logical op children => by
    rw [Resolved.canonical, Resolved.canonical, Resolved.canonicalAll_withSchema children]
  | .comparison op left right => by
    have hleft : left.canonical c (context.withSchema schema) =
        left.canonical c (context.withSchema schema') := Expr.canonical_withSchema hserver left
    have hright : right.canonical c (context.withSchema schema) =
        right.canonical c (context.withSchema schema') := Expr.canonical_withSchema hserver right
    rw [Resolved.canonical, Resolved.canonical, Expr.canonicalRight, Expr.canonicalRight, hleft,
      hright]
  | .quantified op collection body => by
    have hcollection : collection.canonical c (context.withSchema schema) =
        collection.canonical c (context.withSchema schema') :=
      Expr.canonical_withSchema hserver collection
    rw [Resolved.canonical, Resolved.canonical, hcollection]
    rfl

theorem Resolved.canonicalAll_withSchema : ∀ ts : List Resolved,
    Resolved.canonicalAll c (context.withSchema schema) ts =
      Resolved.canonicalAll c (context.withSchema schema') ts
  | [] => rfl
  | t :: ts => by
    rw [Resolved.canonicalAll, Resolved.canonicalAll, Resolved.canonical_withSchema t,
      Resolved.canonicalAll_withSchema ts]

end

end

end

/-! ### Filters under anonymous schemas -/

/-- Two programs give the same on every record, whenever they are run. -/
def Program.RunsLike (program program' : Program) : Prop :=
  ∀ current current' now now' record, (outcome (program.run current record) now).1 =
    (outcome (program'.run current' record) now').1

namespace Filter

section

variable {c : Catalog} {default : Except Fault TextPolicy} {context : Context} {a : EntityId}
  {e : EntityType}

theorem isSchemaless_of_isAnonymous (he : c.entity? a = some e) (hanonymous : e.isAnonymous) :
    c.isSchemaless (some a) := by
  rw [Catalog.isSchemaless, he]
  exact hanonymous

theorem samePolicy_of_policy_eq_none (he : c.entity? a = some e) (hpolicy : e.policy = none) :
    SamePolicy c default context (some a) none := by
  have hentity : ((some a).bind c.entity?).bind EntityType.policy = none := by
    rw [Option.bind_some, he, Option.bind_some, hpolicy]
  unfold SamePolicy Predicate.policyOf
  dsimp only [Context.withSchema]
  rw [hentity]
  rfl

/-- **An anonymous schema behaves like no schema.** A filter is read and compiled under an anonymous
entity type without a policy, and read and compiled without a schema. Either both fail with faults of
one kind, or both give programs, which agree on every record: on the result, or on the fault. Written
without the names of the server, the filter has the same canonical form under both, or none under
either. -/
theorem anonymous_is_schemaless {f : Value} {b b' : Builder} {notes notes' : Notes}
    {under without : ContextSource} (hf : f.IsPlain) (hblank : notes.Blank b.next)
    (hblank' : notes'.Blank b'.next) (he : c.entity? a = some e) (hanonymous : e.isAnonymous)
    (hpolicy : e.policy = none)
    (hunder : Context.ofSource under = .ok (context.withSchema (some a)))
    (hwithout : Context.ofSource without = .ok (context.withSchema none)) :
    EndAlike Fault.SameKind Program.RunsLike (compile c default under f b notes)
        (compile c default without f b' notes') ∧
      (context.server.truthy = false →
        EndAlike Fault.SameKind Eq (canonical c under f b notes)
          (canonical c without f b' notes')) := by
  have hs := isSchemaless_of_isAnonymous he hanonymous
  have hshape : EndAlike Fault.SameKind Eq (shape f) (shape f) := .of_eq (fun _ => rfl) rfl
  constructor
  · -- the shapes are one, and marks are all that tells what the two contexts resolve apart
    have htest : EndAlike Fault.SameKind Eq (do Predicate.testOf c default under (← shape f))
        (do Predicate.testOf c default without (← shape f)) := by
      refine hshape.bind ?_
      rintro t _ rfl
      rw [Predicate.testOf, Predicate.testOf, hunder, hwithout]
      refine (Condition.endAlike_resolve hs t).bind fun r r' hr => .of_eq (fun _ => rfl) ?_
      rw [← Resolved.compile_unmarked, hr, Resolved.compile_unmarked]
      exact Resolved.compile_withSchema (samePolicy_of_policy_eq_none he hpolicy) r'
    refine (endAlike_compile hf hblank).trans htest (endAlike_compile hf hblank') ?_
    rintro p q test _ hp rfl hq current current' now now' record
    exact (hp current now record).trans (hq current' now' record).symm
  · intro hserver
    have hform : EndAlike Fault.SameKind Eq (do Predicate.formOf c under (← shape f))
        (do Predicate.formOf c without (← shape f)) := by
      refine hshape.bind ?_
      rintro t _ rfl
      rw [Predicate.formOf, Predicate.formOf, hunder, hwithout]
      refine (Condition.endAlike_resolve hs t).bind fun r r' hr => .of_eq (fun _ => rfl) ?_
      rw [← Resolved.canonical_unmarked, hr, Resolved.canonical_unmarked]
      exact Resolved.canonical_withSchema hserver r'
    refine (endAlike_canonical hf hblank).trans hform (endAlike_canonical hf hblank') ?_
    rintro v w form _ rfl rfl rfl
    rfl

end

/-- A text that is compared with a property, of which an anonymous entity type knows that it is a
number. -/
theorem anonymous_is_schemaless_of_text :
    let c : Catalog := [⟨.text "Order", [⟨"qty", .data .int32⟩], true, none, .same⟩]
    let f : Value := .map [(.text "qty", .text "5")]
    (∃ program, compile c (.ok {}) (.entity 0) f {} [] = .ok program) ∧
      EndAlike Fault.SameKind Program.RunsLike (compile c (.ok {}) (.entity 0) f {} [])
        (compile c (.ok {}) .absent f {} []) ∧
      EndAlike Fault.SameKind Eq (canonical c (.entity 0) f {} []) (canonical c .absent f {} []) := by
  intro c f
  let e : EntityType := ⟨.text "Order", [⟨"qty", .data .int32⟩], true, none, .same⟩
  have hf : f.IsPlain := by
    simp [f, Value.IsPlain, Value.PlainEntries, Value.isKey]
  have hblank : Notes.Blank [] ({} : Builder).next := fun _ _ => rfl
  have he : c.entity? 0 = some e := rfl
  have hunder : Context.ofSource (.entity 0) = .ok (Context.withSchema {} (some 0)) := rfl
  have hwithout : Context.ofSource .absent = .ok (Context.withSchema {} none) := rfl
  have hboth : EndAlike Fault.SameKind Program.RunsLike (compile c (.ok {}) (.entity 0) f {} [])
        (compile c (.ok {}) .absent f {} []) ∧
      (({} : Context).server.truthy = false →
        EndAlike Fault.SameKind Eq (canonical c (.entity 0) f {} []) (canonical c .absent f {} [])) :=
    anonymous_is_schemaless hf hblank hblank he rfl rfl hunder hwithout
  obtain ⟨program, hprogram⟩ : ∃ program, compile c (.ok {}) (.entity 0) f {} [] = .ok program :=
    ⟨_, rfl⟩
  exact ⟨⟨program, hprogram⟩, hboth.1, hboth.2 rfl⟩

end Filter

end RecordFilter
