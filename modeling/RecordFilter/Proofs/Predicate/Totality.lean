import RecordFilter.Proofs.Predicate.RoundTrip
import RecordFilter.Proofs.Predicate.Schemaless
import RecordFilter.Proofs.Value.Ordinary

/-!
# Predicates that never fail

A predicate over JSON values without calls and without decimal numbers says something of every JSON
record on which the collections of its quantifiers are lists or absent, as far as they are looked at
(`Predicate.exists_returns`). Where there is no schema all its operands have ordinary values
(`Expr.IsOfJson`), and comparing those never fails. `Resolved.reached` lists the collections that are
looked at: a test of several things goes on only while the things before leave it open.
-/

namespace RecordFilter

/-! ### Operands of JSON -/

/-- What a JSON value is read as where there is no schema: a literal has an ordinary value or is a
decimal number, and a path has no type. -/
def Expr.IsOfJson : Expr → Prop
  | .literal v type _ _ =>
    v.IsOrdinary ∨ type = some (.data .decimal) ∧ ∃ d, v = .decimal d
  | .path _ type _ => type = none
  | .call .. => True

namespace DataType

/-- What a JSON value is read as is ordinary, or it is a decimal number. -/
theorem isOrdinary_read {t : DataType} {v w : Value} (hv : v.IsJson) (h : t.read v = .ok w) :
    w.IsOrdinary ∨ t = .decimal ∧ ∃ d, w = .decimal d := by
  cases isReading_of_read h with
  | same => exact .inl (.json hv)
  | decimal d ht => exact .inr ⟨ht, d, rfl⟩
  | moment m => exact .inl (.moment m)
  | time o => exact .inl (.time o)
  | _ => exact .inl (.json trivial)

end DataType

namespace Expr

theorem isOfJson_unmarked (e : Expr) : e.unmarked.IsOfJson ↔ e.IsOfJson := by
  cases e <;> exact Iff.rfl

theorem isOfJson_of_ofValue {v : Value} {type : Option DataType} {explicit : Bool} {e : Expr}
    (hv : v.IsJson) (h : Expr.ofValue v type explicit = .ok e) : e.IsOfJson := by
  obtain ⟨w, hw, rfl⟩ := Expr.ofValue_eq_ok_iff.mp h
  rcases DataType.isOrdinary_read hv hw with hw | ⟨htype, hdecimal⟩
  · exact .inl hw
  · exact .inr ⟨by rw [htype], hdecimal⟩

theorem isOfJson_of_fit {c : Catalog} {schema : Option EntityId} {e e' : Expr}
    (hs : c.isSchemaless schema) (he : e.IsOfJson) (h : e.fit c schema = .ok e') : e'.IsOfJson := by
  obtain ⟨e'', hfit, hsame⟩ := Expr.fit_of_isSchemaless hs e
  rw [h] at hfit
  cases hfit
  rw [← isOfJson_unmarked, hsame, isOfJson_unmarked]
  exact he

end Expr

namespace Operand

variable {c : Catalog} {place : Place}

theorem isOfJson_of_bare {cs : List CodePoint} {e : Expr} (h : bare c place cs = .ok e) :
    e.IsOfJson := by
  rcases bare_eq_ok_cases h with rfl | ⟨v, type, hv, he, -⟩
  · exact rfl
  · have hjson : v.IsJson := by cases hv <;> trivial
    exact Expr.isOfJson_of_ofValue hjson he

theorem isOfJson_of_ofEntries (hs : c.isSchemaless place.schema) {entries : List (Value × Value)}
    {e : Expr} (hentries : Value.JsonEntries entries) (h : ofEntries c place entries = .ok e) :
    e.IsOfJson := by
  obtain ⟨value, hvalue, ⟨-, hfit⟩ | ⟨type, he⟩⟩ := ofEntries_eq_ok_cases h
  · have hpath : (Expr.path value none {}).IsOfJson := rfl
    exact Expr.isOfJson_of_fit hs hpath hfit
  · exact Expr.isOfJson_of_ofValue (Value.isJson_of_lookup? hentries hvalue) he

/-- Every operand that is read from a JSON value is one of JSON where there is no schema. -/
theorem isOfJson_of_read? (hs : c.isSchemaless place.schema) {source : Value} {e : Expr}
    (hsource : source.IsJson) (h : read? c place source = .ok (some e)) : e.IsOfJson := by
  rcases read?_eq_some_cases h with ⟨entries, rfl, he⟩ | ⟨-, he⟩ | ⟨s, e₀, -, he₀, hfit⟩
  · exact isOfJson_of_ofEntries hs hsource he
  · exact Expr.isOfJson_of_ofValue hsource he
  · have hread : e₀.IsOfJson := expression_byCalls isOfJson_of_bare (fun _ _ _ => trivial) he₀
    exact Expr.isOfJson_of_fit hs hread hfit

end Operand

/-! ### Conditions with ordinary operands -/

/-- The operand is no call and no decimal number. -/
def Expr.IsSimple : Expr → Prop
  | .literal _ type _ _ => type ≠ some (.data .decimal)
  | .path .. => True
  | .call .. => False

/-- The operand is a path or an ordinary literal, and it is not compared as a decimal number. -/
def Expr.IsOrdinary : Expr → Prop
  | .literal v type _ _ => v.IsOrdinary ∧ type ≠ some (.data .decimal)
  | .path _ type _ => type ≠ some (.data .decimal)
  | .call .. => False

/-- The operand is a path or a literal that is ordinary if it is a collection. -/
def Expr.IsOrdinaryCollection : Expr → Prop
  | .literal v .. => v.IsOrdinary ∨ ∃ d, v = .decimal d
  | .path .. => True
  | .call .. => False

mutual

/-- The operands of all comparisons in a condition have the property `P`, and all collections have the
property `Q`. -/
def Resolved.AllOperands (P Q : Expr → Prop) : Resolved → Prop
  | .passthrough _ => True
  | .unary _ operand => Resolved.AllOperands P Q operand
  | .logical _ children => Resolved.EachAllOperands P Q children
  | .comparison _ left right => P left ∧ P right
  | .quantified _ collection body => Q collection ∧ Resolved.AllOperands P Q body

/-- The same of several conditions. -/
def Resolved.EachAllOperands (P Q : Expr → Prop) : List Resolved → Prop
  | [] => True
  | t :: ts => Resolved.AllOperands P Q t ∧ Resolved.EachAllOperands P Q ts

end

/-- The condition has no calls and no decimal numbers. -/
def Resolved.IsSimple (t : Resolved) : Prop :=
  t.AllOperands Expr.IsSimple Expr.IsSimple

/-- Comparisons and collections in the condition are of ordinary operands. -/
def Resolved.IsOrdinary (t : Resolved) : Prop :=
  t.AllOperands Expr.IsOrdinary Expr.IsOrdinaryCollection

theorem Expr.IsOfJson.isOrdinary {e : Expr} (h : e.IsOfJson) (hsimple : e.IsSimple) :
    e.IsOrdinary := by
  cases e
  case literal =>
    rcases h with h | ⟨hdecimal, -⟩
    · exact ⟨h, hsimple⟩
    · exact (hsimple hdecimal).elim
  case path =>
    cases h
    exact fun htype => by cases htype
  case call => exact hsimple.elim

theorem Expr.IsOrdinary.type {e : Expr} (h : e.IsOrdinary) : e.type ≠ some (.data .decimal) := by
  cases e
  case literal => exact h.2
  case path => exact h
  case call => exact h.elim

theorem Expr.IsOrdinary.withType {e : Expr} (h : e.IsOrdinary) {type : Option TypeRef}
    (htype : type ≠ some (.data .decimal)) : (e.withType type).IsOrdinary := by
  cases e
  case literal => exact ⟨h.1, htype⟩
  case path => exact htype
  case call => exact h.elim

section

variable {c : Catalog} {schema : Option EntityId}

/-- A left operand that is simple when its type is known is simple before. -/
theorem Predicate.isSimple_leftOperand {left : Value} {l : Expr} {type : Option TypeRef}
    (h : leftOperand c schema left = .ok l) (hl : (l.withType type).IsSimple) : l.IsSimple := by
  cases l
  case literal =>
    -- a literal is refused on the left
    exact ((leftOperand_eq_ok_iff.mp h).2 trivial).elim
  case path => trivial
  case call => exact hl.elim

/-- The operands of a comparison of JSON values are ordinary where there is no schema. -/
theorem Predicate.isOrdinary_operandsOf (hs : c.isSchemaless schema) {left right : Value}
    {l r : Expr} (hleft : left.IsJson) (hright : right.IsJson)
    (h : operandsOf c schema left right = .ok (l, r)) (hl : l.IsSimple) (hr : r.IsSimple) :
    l.IsOrdinary ∧ r.IsOrdinary := by
  obtain ⟨l₀, hl₀, hr₀, rfl⟩ := operandsOf_eq_ok_iff.mp h
  have hrOrdinary : r.IsOrdinary := Expr.IsOfJson.isOrdinary
    (@Operand.isOfJson_of_read? c { schema, isRight := true, hint := hintOf l₀ } hs _ _ hright
      (rightOperand_eq_ok_iff.mp hr₀)) hr
  have hlJson : l₀.IsOfJson :=
    @Operand.isOfJson_of_read? c { schema := schema } hs _ _ hleft (leftOperand_eq_ok_iff.mp hl₀).1
  refine ⟨?_, hrOrdinary⟩
  split at hl
  · rename_i hnone
    rw [if_pos hnone]
    exact (hlJson.isOrdinary (isSimple_leftOperand hl₀ hl)).withType hrOrdinary.type
  · rename_i hnone
    rw [if_neg hnone]
    exact hlJson.isOrdinary hl

/-- A collection that a JSON value names is ordinary where there is no schema. -/
theorem Predicate.isOrdinary_collectionOf (hs : c.isSchemaless schema) {op : Operator}
    {collection : Value} {e : Expr} (hcollection : collection.IsJson)
    (h : collectionOf c schema op collection = .ok e) (he : e.IsSimple) :
    e.IsOrdinaryCollection := by
  obtain ⟨e₀, hr, rfl⟩ := exists_read?_of_collectionOf h
  have hjson := @Operand.isOfJson_of_read? c { schema := schema } hs _ _ hcollection hr
  rw [if_pos hs] at he ⊢
  cases e₀
  case literal => exact hjson.imp_right And.right
  case path => trivial
  case call => exact he.elim

end

mutual

/-- **Conditions over JSON values have ordinary operands where there is no schema**, unless they have
calls or decimal numbers. -/
theorem Condition.isOrdinary_of_isJson {c : Catalog} : ∀ (s : Condition) {t : Resolved}
    {schema : Option EntityId}, c.isSchemaless schema → s.IsBuilt Value.IsJson →
      s.resolve c schema = .ok t → t.IsSimple → t.IsOrdinary
  | .absent, _, _, _, _, h, _ => by cases h
  | .bare _, _, _, _, hbuilt, _, _ => hbuilt.elim
  | .passthrough _, t, _, _, _, h, _ => by
    cases h
    trivial
  | .unary op operand, t, schema, hs, hbuilt, h, hsimple => by
    obtain ⟨u, hu, rfl⟩ := Condition.resolve_unary_eq_ok_iff.mp h
    have hoperand : u.IsOrdinary :=
      Condition.isOrdinary_of_isJson operand hs hbuilt.2 hu (show u.IsSimple from hsimple)
    exact hoperand
  | .logical op children, t, schema, hs, hbuilt, h, hsimple => by
    obtain ⟨us, hus, rfl⟩ := Condition.resolve_logical_eq_ok_iff.mp h
    exact Condition.eachIsOrdinary_of_isJson children hs hbuilt.2.2 hus hsimple
  | .comparison op left right, t, schema, hs, hbuilt, h, hsimple => by
    obtain ⟨l, r, hoperands, rfl⟩ := Condition.resolve_comparison_eq_ok_iff.mp h
    obtain ⟨-, -, -, hleft, hright⟩ := hbuilt
    exact Predicate.isOrdinary_operandsOf hs hleft hright hoperands hsimple.1 hsimple.2
  | .quantified op collection body, t, schema, hs, hbuilt, h, hsimple => by
    obtain ⟨e, u, he, hu, rfl⟩ := Condition.resolve_quantified_eq_ok_iff.mp h
    obtain ⟨-, -, -, hcollection, hbody⟩ := hbuilt
    have helements : c.isSchemaless e.entity? := by
      rw [Predicate.entity?_of_isSchemaless hs he]
      rfl
    exact ⟨Predicate.isOrdinary_collectionOf hs hcollection he hsimple.1,
      Condition.isOrdinary_of_isJson body helements hbody hu hsimple.2⟩

theorem Condition.eachIsOrdinary_of_isJson {c : Catalog} : ∀ (ss : List Condition)
    {ts : List Resolved} {schema : Option EntityId}, c.isSchemaless schema →
      Condition.AllBuilt Value.IsJson ss → Condition.resolveAll c schema ss = .ok ts →
        Resolved.EachAllOperands Expr.IsSimple Expr.IsSimple ts →
          Resolved.EachAllOperands Expr.IsOrdinary Expr.IsOrdinaryCollection ts
  | [], ts, _, _, _, h, _ => by
    cases h
    trivial
  | s :: ss, ts, schema, hs, hbuilt, h, hsimple => by
    obtain ⟨u, us, hu, hus, rfl⟩ := Condition.resolveAll_cons_eq_ok_iff.mp h
    exact ⟨Condition.isOrdinary_of_isJson s hs hbuilt.1 hu hsimple.1,
      Condition.eachIsOrdinary_of_isJson ss hs hbuilt.2 hus hsimple.2⟩

end

/-! ### Collections that are looked at -/

namespace Predicate.Extent

variable {α : Type}

/-- A test that comes to this lets the tests of the next things follow. -/
def goesOn (extent : Extent) : Except Fault Bool → Bool
  | .ok holds => holds == (extent == .all)
  | .error _ => false

/-- What is looked at in testing things, given the tests and what each one looks at. -/
def reached (extent : Extent) (test : α → Except Fault Bool) (looks : α → List Value) :
    List α → List Value
  | [] => []
  | a :: as => looks a ++ if extent.goesOn (test a) then extent.reached test looks as else []

theorem holds_cons_ok (extent : Extent) (test : α → Except Fault Bool) {a : α} {as : List α}
    {x : Bool} (h : test a = .ok x) :
    extent.holds test (a :: as) =
      if extent.goesOn (test a) then extent.holds test as else .ok (extent == .some) := by
  rw [holds, h]
  rfl

/-- Testing things does not fail if no test does that takes place. -/
theorem exists_holds {P : Value → Prop} (extent : Extent) {test : α → Except Fault Bool}
    {looks : α → List Value} {as : List α}
    (htest : ∀ a ∈ as, (∀ v ∈ looks a, P v) → ∃ x, test a = .ok x)
    (hlooks : ∀ v ∈ extent.reached test looks as, P v) : ∃ x, extent.holds test as = .ok x := by
  induction as with
  | nil => exact ⟨_, rfl⟩
  | cons a as ih =>
    rw [List.forall_mem_cons] at htest
    rw [reached, List.forall_mem_append] at hlooks
    obtain ⟨x, hx⟩ := htest.1 hlooks.1
    rw [extent.holds_cons_ok test hx]
    split
    · rename_i hgoes
      rw [if_pos hgoes] at hlooks
      exact ih htest.2 hlooks.2
    · exact ⟨_, rfl⟩

end Predicate.Extent

section

variable (c : Catalog) (default : Except Fault TextPolicy)

/-- What a condition says of a record. -/
def Resolved.verdictOn (context : Context) (t : Resolved) (record : Value) : Except Fault Bool := do
  (← t.compile c default context) record

mutual

/-- The collections of quantifiers that are looked at when a condition is tested on a record. -/
def Resolved.reached (context : Context) : Resolved → Value → List Value
  | .passthrough _, _ | .comparison .., _ => []
  | .unary _ operand, record => Resolved.reached context operand record
  | .logical op children, record =>
    match Predicate.logicalExtent op with
    | .ok extent => Resolved.reachedAll context extent children record
    | .error _ => []
  | .quantified op collection body, record =>
    match Predicate.quantifiedExtent op, collection.value? context record with
    | .ok extent, some v =>
      v :: extent.reached (body.verdictOn c default (context.withSchema collection.entity?))
        (Resolved.reached (context.withSchema collection.entity?) body) (v.listed?.getD [])
    | _, _ => []

/-- The collections that are looked at when conditions are tested one after the other. -/
def Resolved.reachedAll (context : Context) (extent : Predicate.Extent) :
    List Resolved → Value → List Value
  | [], _ => []
  | t :: ts, record =>
    Resolved.reached context t record ++
      if extent.goesOn (t.verdictOn c default context record) then
        Resolved.reachedAll context extent ts record
      else []

end

end

/-! ### Running on JSON records -/

section

variable {c : Catalog} {default : Except Fault TextPolicy} {context : Context} {record : Value}

/-- On a JSON record an ordinary operand gives an ordinary value. -/
theorem Expr.IsOrdinary.exists_value {e : Expr} {g : Expr.Reader} (h : e.IsOrdinary)
    (haccessor : context.accessor = none) (hrecord : record.IsJson)
    (hcompile : e.compile context = .ok g) : ∃ v, g record = .ok v ∧ v.IsOrdinary := by
  cases e
  case literal v _ _ _ =>
    cases hcompile
    exact ⟨v, rfl, h.1⟩
  case path p _ _ =>
    unfold Expr.compile at hcompile
    split at hcompile
    · cases hcompile
      refine ⟨_, rfl, .json ?_⟩
      rw [haccessor]
      exact Expr.isJson_readPath hrecord _
    · cases hcompile
  case call => exact h.elim

theorem Value.IsJson.elements {v : Value} {items : List Value} (hv : v.IsJson)
    (hitems : v.listed? = some items) : v.elements = .ok items ∧ ∀ item ∈ items, item.IsJson := by
  refine ⟨Value.elements_of_listed? hitems, ?_⟩
  cases v
  case null =>
    cases hitems
    exact List.forall_mem_nil _
  case list =>
    cases hitems
    exact Value.jsonItems_iff.mp hv
  all_goals cases hitems

/-- On a JSON record a collection that is a list or absent has JSON values as its elements. -/
theorem Expr.IsOrdinaryCollection.exists_elements {e : Expr} {g : Expr.Reader}
    (h : e.IsOrdinaryCollection) (haccessor : context.accessor = none) (hrecord : record.IsJson)
    (hcompile : e.compile context = .ok g) :
    ∃ v, g record = .ok v ∧
      ∀ items, v.listed? = some items → v.elements = .ok items ∧ ∀ item ∈ items, item.IsJson := by
  cases e
  case literal v _ _ _ =>
    cases hcompile
    refine ⟨v, rfl, fun items hitems => ?_⟩
    rcases h with (hjson | _ | _) | ⟨d, rfl⟩
    · exact hjson.elements hitems
    all_goals cases hitems
  case path p _ _ =>
    unfold Expr.compile at hcompile
    split at hcompile
    · cases hcompile
      refine ⟨_, rfl, fun items hitems => ?_⟩
      rw [haccessor] at hitems ⊢
      exact (Expr.isJson_readPath hrecord _).elements hitems
    · cases hcompile
  case call => exact h.elim

theorem Expr.value?_eq_some {e : Expr} {g : Expr.Reader} {v : Value}
    (hcompile : e.compile context = .ok g) (hv : g record = .ok v) :
    e.value? context record = some v := by
  rw [Expr.value?, hcompile, ok_bind, hv]
  rfl

theorem Resolved.verdictOn_of_compile {t : Resolved} {f : Predicate.Test}
    (h : t.compile c default context = .ok f) : t.verdictOn c default context record = f record := by
  rw [Resolved.verdictOn, h, ok_bind]

/-- The type that ordinary operands are compared by is not that of decimal numbers. -/
theorem Predicate.comparedType_of_isOrdinary {l r : Expr} {type : Option TypeRef}
    (hl : l.IsOrdinary) (hr : r.IsOrdinary) (h : comparedType (some l) (some r) = .ok type) :
    type ≠ some (.data .decimal) := by
  rw [comparedType] at h
  split at h
  · rename_i htype
    cases h
    rw [← htype]
    exact hl.type
  · cases h
    exact hr.type

/-- A comparison of ordinary operands never fails on a JSON record. -/
theorem Predicate.exists_compareOn {op : Operator} {l r : Expr} {f : Test} (hl : l.IsOrdinary)
    (hr : r.IsOrdinary) (haccessor : context.accessor = none) (hrecord : record.IsJson)
    (h : compileComparison c default context op (some l) (some r) = .ok f) :
    ∃ x, f record = .ok x := by
  obtain ⟨type, htype, h⟩ := bind_eq_ok_iff.mp h
  obtain ⟨policy, -, h⟩ := bind_eq_ok_iff.mp h
  obtain ⟨comparison, -, h⟩ := bind_eq_ok_iff.mp h
  obtain ⟨left, hleft, h⟩ := bind_eq_ok_iff.mp h
  obtain ⟨right, hright, h⟩ := bind_eq_ok_iff.mp h
  cases h
  obtain ⟨a, ha, haOrdinary⟩ := hl.exists_value haccessor hrecord hleft
  obtain ⟨b, hb, hbOrdinary⟩ := hr.exists_value haccessor hrecord hright
  obtain ⟨x, hx⟩ := @Comparison.exists_holds type policy a b comparison haOrdinary hbOrdinary
    (comparedType_of_isOrdinary hl hr htype)
  refine ⟨x, ?_⟩
  dsimp only
  rw [ha, ok_bind, hb, ok_bind, hx]

mutual

/-- **A condition with ordinary operands does not fail on a JSON record** on which the collections that
are looked at are lists or absent. -/
theorem Resolved.exists_run : ∀ (t : Resolved) {context : Context} {record : Value}
    {f : Predicate.Test}, t.IsOrdinary → context.accessor = none → record.IsJson →
      t.compile c default context = .ok f →
        (∀ v ∈ t.reached c default context record, v.listed? ≠ none) → ∃ x, f record = .ok x
  | .passthrough text, context, record, f, _, _, _, h, _ => by
    exact (Resolved.compile_passthrough_ne_ok h).elim
  | .unary op operand, context, record, f, ht, haccessor, hrecord, h, hreached => by
    obtain ⟨-, g, hg, rfl⟩ := Resolved.compile_unary_eq_ok_iff.mp h
    have hoperand : operand.IsOrdinary := ht
    obtain ⟨x, hx⟩ := Resolved.exists_run operand hoperand haccessor hrecord hg hreached
    exact ⟨!x, by dsimp only; rw [hx]; rfl⟩
  | .logical op children, context, record, f, ht, haccessor, hrecord, h, hreached => by
    obtain ⟨fs, extent, hfs, hextent, rfl⟩ := Resolved.compile_logical_eq_ok_iff.mp h
    rw [Resolved.reached, hextent] at hreached
    exact Resolved.exists_runAll children ht haccessor hrecord hfs hreached
  | .comparison op left right, context, record, f, ht, haccessor, hrecord, h, _ =>
    Predicate.exists_compareOn ht.1 ht.2 haccessor hrecord h
  | .quantified op collection body, context, record, f, ht, haccessor, hrecord, h, hreached => by
    obtain ⟨g, k, extent, hg, hk, hextent, rfl⟩ := Resolved.compile_quantified_eq_ok_iff.mp h
    obtain ⟨v, hv, helements⟩ := ht.1.exists_elements haccessor hrecord hg
    rw [Resolved.reached, hextent, Expr.value?_eq_some hg hv] at hreached
    dsimp only at hreached
    rw [List.forall_mem_cons] at hreached
    obtain ⟨items, hitems⟩ := Option.ne_none_iff_exists'.mp hreached.1
    obtain ⟨hvalues, hitemsJson⟩ := helements items hitems
    rw [hitems, Option.getD_some] at hreached
    have hbody : body.IsOrdinary := ht.2
    have hscope : (context.withSchema collection.entity?).accessor = none := haccessor
    have hverdict : body.verdictOn c default (context.withSchema collection.entity?) = k := by
      funext item
      exact Resolved.verdictOn_of_compile hk
    rw [hverdict] at hreached
    obtain ⟨x, hx⟩ := extent.exists_holds (fun item hitem hlooks =>
      Resolved.exists_run body hbody hscope (hitemsJson item hitem) hk hlooks) hreached.2
    refine ⟨x, ?_⟩
    dsimp only
    rw [hv, ok_bind, hvalues, ok_bind, hx]

theorem Resolved.exists_runAll : ∀ (ts : List Resolved) {context : Context} {record : Value}
    {extent : Predicate.Extent} {fs : List Predicate.Test},
      Resolved.EachAllOperands Expr.IsOrdinary Expr.IsOrdinaryCollection ts →
        context.accessor = none → record.IsJson → Resolved.compileAll c default context ts = .ok fs →
          (∀ v ∈ Resolved.reachedAll c default context extent ts record, v.listed? ≠ none) →
            ∃ x, extent.holds (fun f => f record) fs = .ok x
  | [], context, record, extent, fs, _, _, _, h, _ => by
    cases h
    exact ⟨_, rfl⟩
  | t :: ts, context, record, extent, fs, hts, haccessor, hrecord, h, hreached => by
    obtain ⟨f, gs, hf, hgs, rfl⟩ := Resolved.compileAll_cons_eq_ok_iff.mp h
    rw [Resolved.reachedAll, List.forall_mem_append, Resolved.verdictOn_of_compile hf] at hreached
    obtain ⟨x, hx⟩ := Resolved.exists_run t hts.1 haccessor hrecord hf hreached.1
    have hcons := @Predicate.Extent.holds_cons_ok _ extent (fun test => test record) f gs x hx
    rw [hcons]
    split
    · rename_i hgoes
      rw [if_pos hgoes] at hreached
      exact Resolved.exists_runAll ts hts.2 haccessor hrecord hgs hreached.2
    · exact ⟨_, rfl⟩

end

end

/-! ### Predicates on JSON records -/

namespace Predicate

section

variable {c : Catalog} {default : Except Fault TextPolicy} {p : Predicate} {notes : Notes}

/-- **Predicates without calls never fail on JSON records.** Take a predicate that is read from a JSON
value and compiles without a schema. If it has no calls and no decimal numbers, it says whether it
holds of every JSON record on which the collections that are looked at are lists or absent. Fields are
read of maps only: those of any other value are absent. -/
theorem exists_returns {f : Value} {b b₁ : Builder} {program : Program} {notes₁ : Notes}
    (hjson : f.IsJson) (hread : outcome (Filter.readArguments [f]) b = (.ok (some p), b₁))
    (hblank : notes.Blank b.next)
    (hcompile : outcome ((Node.predicate p).compile c default .absent) notes =
      (.ok program, notes₁)) :
    (∃ t, p.resolvedIn notes₁ = some t ∧ (t.IsSimple → ∀ record, record.IsJson →
      (∀ v ∈ t.reached c default {} record, v.listed? ≠ none) →
        ∃ x, program.Returns record (.bool x))) ∧
    ∀ v : Value, v.IsJson → (∀ entries, v ≠ .map entries) → ∀ name, Record.get v name = .null := by
  refine ⟨?_, fun v hv hmap name => Record.get_of_not_map hv hmap name⟩
  have hsource : Context.ofSource .absent = .ok {} := rfl
  obtain ⟨context, hcontext, hvalidate, -, -⟩ := Predicate.compile_ok hcompile
  cases hcontext
  obtain ⟨hp, -, t, hready, hvalid⟩ :=
    Predicate.ready_of_read Filter.hereditary_isJson (fun _ h => h.isPlain) hjson hread hblank hvalidate
  refine ⟨t, hready.held.resolvedIn, fun hsimple record hrecord hreached => ?_⟩
  obtain ⟨test, htest, -, -, hreturns⟩ := hvalid.program hp.isPlain hsource hcompile
  have hschema : c.isSchemaless none := rfl
  have hordinary : t.IsOrdinary :=
    Condition.isOrdinary_of_isJson p.condition hschema hp.isBuilt hready.resolve hsimple
  have haccessor : ({} : Context).accessor = none := rfl
  obtain ⟨x, hx⟩ := Resolved.exists_run t hordinary haccessor hrecord htest hreached
  exact ⟨x, hreturns record x hx⟩

theorem exists_returns_of_quantifier :
    let f : Value := .map [(.text "items", .map [(.text "any", .map [(.text "qty",
      .map [(.text "gt", .int 5)])])])]
    let p : Predicate := .quantified 1 ⟨.text "any", ["some"], false⟩ (.text "items")
      (some (.comparison 0 ⟨.text "gt", [">", "greaterthan"], false⟩ (.text "qty") (.int 5)))
    let record : Value := .map [(.text "items", .list [.map [(.text "qty", .text "many")], .null])]
    outcome (Filter.readArguments [f]) {} = (.ok (some p), ⟨2, []⟩) ∧
      ∃ program notes₁,
        outcome ((Node.predicate p).compile [] (.ok {}) .absent) [] = (.ok program, notes₁) ∧
          ∃ x, program.Returns record (.bool x) := by
  intro f p record
  have hread : outcome (Filter.readArguments [f]) {} = (.ok (some p), ⟨2, []⟩) := rfl
  have hjson : f.IsJson := by
    simp [f, Value.IsJson, Value.JsonEntries, Value.isKey]
  let t : Resolved := .quantified ⟨.text "any", ["some"], false⟩
    (.path (.text "items") none (Mark.after none {}))
    (.comparison ⟨.text "gt", [">", "greaterthan"], false⟩
      (.path (.text "qty") (some (.data .int32)) (Mark.after none {}))
      (.literal (.int 5) (some (.data .int32)) false {}))
  have hresolve : p.condition.resolve [] none = .ok t := by rfl
  have hblank : Notes.Blank [] 0 := fun _ _ => rfl
  have hplain : p.IsPlain := by
    simp [p, Predicate.IsPlain, Predicate.PlainOption, Operator.IsPlain, Value.isPlain_int]
  obtain ⟨notes₁, hvalidate, hready⟩ := Predicate.validate_of_resolve [] hplain
    (by simp [p, Predicate.labels, Predicate.labelsOf])
    (hblank.on_unmarked fun _ _ => Nat.zero_le _) hresolve
  have hsource : Context.ofSource .absent = .ok {} := rfl
  obtain ⟨test, htest⟩ : ∃ test, t.compile [] (.ok {}) {} = .ok test := ⟨_, rfl⟩
  have hcompile := Predicate.compile_of_ready hsource hvalidate hready.held htest
  obtain ⟨⟨u, hu, hreturns⟩, -⟩ := Predicate.exists_returns hjson hread hblank hcompile
  obtain rfl : t = u := Option.some.inj (hready.held.resolvedIn.symm.trans (by exact hu))
  have hsimple : t.IsSimple := by
    simp [t, Resolved.IsSimple, Resolved.AllOperands, Expr.IsSimple]
  have hrecord : record.IsJson := by
    simp [record, Value.IsJson, Value.JsonEntries, Value.JsonItems, Value.isKey]
  refine ⟨hread, _, notes₁, hcompile, hreturns hsimple record hrecord fun v hv => ?_⟩
  have hreached : t.reached [] (.ok {}) {} record =
      [.list [.map [(.text "qty", .text "many")], .null]] := rfl
  rw [hreached] at hv
  cases List.mem_singleton.mp hv
  simp [Value.listed?]

end

end Predicate

end RecordFilter
