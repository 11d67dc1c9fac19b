import RecordFilter.Predicate.Canonical
import RecordFilter.Predicate.Compile
import RecordFilter.Proofs.Operand.Plain

/-!
# Conditions

A predicate is a tree with a label on every node, and what its operands mean is kept apart, in notes
under the labels. Two trees without labels stand for what is to be said about predicates:

* a `Condition` is a predicate without its labels, so two predicates are built alike when they have
  one condition;
* a `Resolved` condition has, in place of the sources of its operands, the operands themselves.

`Condition.resolve` reads the operands under a schema, and `Predicate.resolvedIn` looks them up in
the notes. A condition resolves or compiles exactly when its parts do, one lemma for each constructor
(`Condition.resolve_unary_eq_ok_iff`, `Resolved.compile_unary_eq_ok_iff` and their siblings).
Compiling and writing a predicate depend on its labels and notes only through the resolved condition
(`Predicate.compile_of_resolvedIn`, `Predicate.canonical_of_resolvedIn`).
-/

namespace RecordFilter

/-! ### Predicates part by part -/

section

variable {motive : Predicate → Prop}
  (passthrough : ∀ id text, motive (.passthrough id text))
  (unary : ∀ id op (operand : Option Predicate), (∀ p ∈ operand, motive p) →
    motive (.unary id op operand))
  (logical : ∀ id op (children : List (Option Predicate)), (∀ p, some p ∈ children → motive p) →
    motive (.logical id op children))
  (comparison : ∀ id op left right, motive (.comparison id op left right))
  (quantified : ∀ id op collection (body : Option Predicate), (∀ p ∈ body, motive p) →
    motive (.quantified id op collection body))
  (bare : ∀ n, motive (.bare n))

include passthrough unary logical comparison quantified bare

set_option linter.unusedSectionVars false in
mutual

/-- Induction over the parts of a predicate that are predicates themselves. -/
@[elab_as_elim]
theorem Predicate.byParts : ∀ p : Predicate, motive p
  | .passthrough id text => passthrough id text
  | .unary id op operand => unary id op operand (Predicate.byOperand operand)
  | .logical id op children => logical id op children (Predicate.byChildren children)
  | .comparison id op left right => comparison id op left right
  | .quantified id op collection body =>
    quantified id op collection body (Predicate.byOperand body)
  | .bare n => bare n

theorem Predicate.byOperand : ∀ operand : Option Predicate, ∀ p ∈ operand, motive p
  | none, _, h => by cases h
  | some p, q, h => by
    have hq : p = q := Option.some.inj h
    exact hq ▸ Predicate.byParts p

theorem Predicate.byChildren :
    ∀ children : List (Option Predicate), ∀ p, some p ∈ children → motive p
  | [], _, h => by cases h
  | none :: ps, p, h => by
    rcases List.mem_cons.mp h with h | h
    · cases h
    · exact Predicate.byChildren ps p h
  | some q :: ps, p, h => by
    rcases List.mem_cons.mp h with h | h
    · exact Option.some.inj h ▸ Predicate.byParts q
    · exact Predicate.byChildren ps p h

end

end

/-! ### Conditions and resolved conditions -/

/-- A predicate without labels, or the absence of one. -/
inductive Condition where
  | absent
  | passthrough (text : Value)
  | unary (op : Operator) (operand : Condition)
  | logical (op : Operator) (children : List Condition)
  | comparison (op : Operator) (left right : Value)
  | quantified (op : Operator) (collection : Value) (body : Condition)
  | bare (n : Node)

/-- A condition with the operands that its sources stand for. -/
inductive Resolved where
  | passthrough (text : Value)
  | unary (op : Operator) (operand : Resolved)
  | logical (op : Operator) (children : List Resolved)
  | comparison (op : Operator) (left right : Expr)
  | quantified (op : Operator) (collection : Expr) (body : Resolved)

mutual

/-- The predicate without its labels. -/
def Predicate.condition : Predicate → Condition
  | .passthrough _ text => .passthrough text
  | .unary _ op operand => .unary op (Predicate.conditionOf operand)
  | .logical _ op children => .logical op (Predicate.conditions children)
  | .comparison _ op left right => .comparison op left right
  | .quantified _ op collection body => .quantified op collection (Predicate.conditionOf body)
  | .bare n => .bare n

/-- The condition of a predicate that may be absent. -/
def Predicate.conditionOf : Option Predicate → Condition
  | none => .absent
  | some p => Predicate.condition p

/-- The conditions of predicates. -/
def Predicate.conditions : List (Option Predicate) → List Condition
  | [] => []
  | p :: ps => Predicate.conditionOf p :: Predicate.conditions ps

end

mutual

/-- The predicate is over plain values, and no operand stands in it in the place of a predicate. -/
def Predicate.IsPlain : Predicate → Prop
  | .passthrough _ text => text.IsPlain
  | .unary _ op operand => op.IsPlain ∧ Predicate.PlainOption operand
  | .logical _ op children => op.IsPlain ∧ Predicate.PlainAll children
  | .comparison _ op left right => op.IsPlain ∧ left.IsPlain ∧ right.IsPlain
  | .quantified _ op collection body =>
    op.IsPlain ∧ collection.IsPlain ∧ Predicate.PlainOption body
  | .bare _ => False

/-- The predicate is plain, if there is one. -/
def Predicate.PlainOption : Option Predicate → Prop
  | none => True
  | some p => Predicate.IsPlain p

/-- The predicates are plain. -/
def Predicate.PlainAll : List (Option Predicate) → Prop
  | [] => True
  | p :: ps => Predicate.PlainOption p ∧ Predicate.PlainAll ps

end

mutual

/-- The labels of all nodes of a predicate. -/
def Predicate.labels : Predicate → List Label
  | .passthrough id _ | .comparison id _ _ _ => [id]
  | .unary id _ operand => id :: Predicate.labelsOf operand
  | .logical id _ children => id :: Predicate.labelsAll children
  | .quantified id _ _ body => id :: Predicate.labelsOf body
  | .bare _ => []

/-- The labels of a predicate that may be absent. -/
def Predicate.labelsOf : Option Predicate → List Label
  | none => []
  | some p => Predicate.labels p

/-- The labels of all nodes of predicates. -/
def Predicate.labelsAll : List (Option Predicate) → List Label
  | [] => []
  | p :: ps => Predicate.labelsOf p ++ Predicate.labelsAll ps

end

/-! ### Resolving operands -/

/-- The operands of a comparison under a schema. A left operand without a type gets that of the
right one. -/
def Predicate.operandsOf (c : Catalog) (schema : Option EntityId) (left right : Value) :
    Except Fault (Expr × Expr) := do
  let l ← leftOperand c schema left
  let r ← rightOperand c schema l right
  return (if l.type.isNone then l.withType r.type else l, r)

/-- The collection of a quantifier under a schema, which has to be one. -/
def Predicate.collectionOf (c : Catalog) (schema : Option EntityId) (op : Operator)
    (collection : Value) : Except Fault Expr := do
  let e ← collectionOperand c schema collection
  match misfit? c schema e with
  | some error => do throw (.validation (error (← collection.toText) (← op.key.toText)))
  | none => return e

mutual

/-- The condition with the operands that its sources stand for under a schema. Operands in the place
of a predicate are not resolved. -/
def Condition.resolve (c : Catalog) (schema : Option EntityId) :
    Condition → Except Fault Resolved
  | .absent | .bare _ => .error .noMember
  | .passthrough text => return .passthrough text
  | .unary op operand => return .unary op (← Condition.resolve c schema operand)
  | .logical op children => return .logical op (← Condition.resolveAll c schema children)
  | .comparison op left right => do
    let (l, r) ← Predicate.operandsOf c schema left right
    return .comparison op l r
  | .quantified op collection body => do
    let e ← Predicate.collectionOf c schema op collection
    return .quantified op e (← Condition.resolve c e.entity? body)

/-- The conditions with the operands that their sources stand for. -/
def Condition.resolveAll (c : Catalog) (schema : Option EntityId) :
    List Condition → Except Fault (List Resolved)
  | [] => return []
  | t :: ts => return (← Condition.resolve c schema t) :: (← Condition.resolveAll c schema ts)

end

mutual

/-- The resolved condition of a predicate, with the operands that the notes hold. -/
def Predicate.resolvedIn (notes : Notes) : Predicate → Option Resolved
  | .passthrough _ text => return .passthrough text
  | .unary _ op operand => return .unary op (← Predicate.resolvedOption notes operand)
  | .logical _ op children => return .logical op (← Predicate.resolvedAll notes children)
  | .comparison id op _ _ => return .comparison op (← (notes.note id).left) (← (notes.note id).right)
  | .quantified id op _ body =>
    return .quantified op (← (notes.note id).collection) (← Predicate.resolvedOption notes body)
  | .bare _ => none

/-- The resolved condition of a predicate that must be there. -/
def Predicate.resolvedOption (notes : Notes) : Option Predicate → Option Resolved
  | none => none
  | some p => Predicate.resolvedIn notes p

/-- The resolved conditions of predicates. -/
def Predicate.resolvedAll (notes : Notes) : List (Option Predicate) → Option (List Resolved)
  | [] => return []
  | p :: ps => return (← Predicate.resolvedOption notes p) :: (← Predicate.resolvedAll notes ps)

end

/-! ### Compiling and writing resolved conditions -/

mutual

/-- The function of a resolved condition. -/
def Resolved.compile (c : Catalog) (default : Except Fault TextPolicy) (context : Context) :
    Resolved → Except Fault Predicate.Test
  | .passthrough text => do throw (.evaluation (.passthrough (← text.toText)))
  | .unary op operand => do
    if op.key.isText "not" then
      let f ← Resolved.compile c default context operand
      return fun record => (f record).map not
    else throw (.evaluation (.unaryOperator (← op.key.toText)))
  | .logical op children => do
    let fs ← Resolved.compileAll c default context children
    let extent ← Predicate.logicalExtent op
    return fun record => extent.holds (fun f => f record) fs
  | .comparison op left right =>
    Predicate.compileComparison c default context op (some left) (some right)
  | .quantified op collection body => do
    let elements ← collection.compile context
    let f ← Resolved.compile c default (context.withSchema collection.entity?) body
    let extent ← Predicate.quantifiedExtent op
    return fun record => do extent.holds f (← (← elements record).elements)

/-- The functions of resolved conditions. -/
def Resolved.compileAll (c : Catalog) (default : Except Fault TextPolicy) (context : Context) :
    List Resolved → Except Fault (List Predicate.Test)
  | [] => .ok []
  | t :: ts => do
    let f ← Resolved.compile c default context t
    return f :: (← Resolved.compileAll c default context ts)

end

mutual

/-- The canonical form of a resolved condition. -/
def Resolved.canonical (c : Catalog) (context : Context) : Resolved → Except Fault Value
  | .passthrough text => .ok text
  | .unary op operand => do Predicate.entry op.key (← Resolved.canonical c context operand)
  | .logical op children => do Predicate.joined op (← Resolved.canonicalAll c context children)
  | .comparison op left right => do
    let leftForm ← left.canonical c context
    Predicate.comparisonForm op leftForm (← right.canonicalRight c context)
  | .quantified op collection body => do
    let collectionForm ← collection.canonical c context
    let v ← Resolved.canonical c (context.withSchema collection.entity?) body
    Predicate.entry collectionForm (← Predicate.entry op.key v)

/-- The canonical forms of resolved conditions. -/
def Resolved.canonicalAll (c : Catalog) (context : Context) :
    List Resolved → Except Fault (List Value)
  | [] => .ok []
  | t :: ts => do
    let v ← Resolved.canonical c context t
    return v :: (← Resolved.canonicalAll c context ts)

end

/-! ### Conditions that resolve and compile -/

theorem Predicate.operandsOf_eq_ok_iff {c : Catalog} {schema : Option EntityId} {left right : Value}
    {l r : Expr} :
    Predicate.operandsOf c schema left right = .ok (l, r) ↔
      ∃ l₀, leftOperand c schema left = .ok l₀ ∧ rightOperand c schema l₀ right = .ok r ∧
        l = if l₀.type.isNone then l₀.withType r.type else l₀ := by
  unfold Predicate.operandsOf
  rw [bind_eq_ok_iff]
  refine exists_congr fun l₀ => and_congr_right fun _ => ?_
  rw [bind_eq_ok_iff]
  constructor
  · rintro ⟨r', hr', hpair⟩
    cases hpair
    exact ⟨hr', rfl⟩
  · rintro ⟨hr, rfl⟩
    exact ⟨r, hr, rfl⟩

/-- The left operand is read from its own, and if it has no type it takes that of the right one. -/
theorem Predicate.operandsOf_of_leftOperand {c : Catalog} {schema : Option EntityId}
    {left right : Value} {l₀ l r : Expr} (hl₀ : leftOperand c schema left = .ok l₀) :
    Predicate.operandsOf c schema left right = .ok (l, r) ↔
      rightOperand c schema l₀ right = .ok r ∧
        l = if l₀.type.isNone then l₀.withType r.type else l₀ := by
  rw [Predicate.operandsOf_eq_ok_iff]
  constructor
  · rintro ⟨l₁, hl₁, hread⟩
    cases hl₀.symm.trans hl₁
    exact hread
  · exact fun hread => ⟨l₀, hl₀, hread⟩

namespace Condition

variable {c : Catalog} {schema : Option EntityId} {op : Operator} {t : Resolved}

theorem resolve_unary_eq_ok_iff {operand : Condition} :
    (unary op operand).resolve c schema = .ok t ↔
      ∃ u, operand.resolve c schema = .ok u ∧ t = .unary op u := by
  simp only [resolve, bind_eq_ok_iff, pure_eq_ok_iff]

theorem resolve_logical_eq_ok_iff {children : List Condition} :
    (logical op children).resolve c schema = .ok t ↔
      ∃ us, resolveAll c schema children = .ok us ∧ t = .logical op us := by
  simp only [resolve, bind_eq_ok_iff, pure_eq_ok_iff]

theorem resolve_comparison_eq_ok_iff {left right : Value} :
    (comparison op left right).resolve c schema = .ok t ↔
      ∃ l r, Predicate.operandsOf c schema left right = .ok (l, r) ∧ t = .comparison op l r := by
  simp only [resolve, bind_eq_ok_iff, pure_eq_ok_iff, Prod.exists]

theorem resolve_quantified_eq_ok_iff {collection : Value} {body : Condition} :
    (quantified op collection body).resolve c schema = .ok t ↔
      ∃ e u, Predicate.collectionOf c schema op collection = .ok e ∧
        body.resolve c e.entity? = .ok u ∧ t = .quantified op e u := by
  simp only [resolve, bind_eq_ok_iff, pure_eq_ok_iff, exists_and_left]

theorem resolveAll_cons_eq_ok_iff {s : Condition} {ss : List Condition} {ts : List Resolved} :
    resolveAll c schema (s :: ss) = .ok ts ↔
      ∃ u us, s.resolve c schema = .ok u ∧ resolveAll c schema ss = .ok us ∧ ts = u :: us := by
  simp only [resolveAll, bind_eq_ok_iff, pure_eq_ok_iff, exists_and_left]

end Condition

namespace Resolved

variable {c : Catalog} {default : Except Fault TextPolicy} {context : Context} {op : Operator}
  {f : Predicate.Test}

theorem compile_passthrough_ne_ok {text : Value} :
    (passthrough text).compile c default context ≠ .ok f := by
  intro h
  obtain ⟨_, -, h⟩ := bind_eq_ok_iff.mp h
  cases h

theorem compile_unary_eq_ok_iff {operand : Resolved} :
    (unary op operand).compile c default context = .ok f ↔
      op.key.isText "not" ∧ ∃ g, operand.compile c default context = .ok g ∧
        f = fun record => (g record).map not := by
  rw [compile]
  split
  · rename_i hnot
    simp only [hnot, true_and, bind_eq_ok_iff, pure_eq_ok_iff]
  · rename_i hnot
    refine iff_of_false (fun h => ?_) fun h => hnot h.1
    obtain ⟨_, -, h⟩ := bind_eq_ok_iff.mp h
    cases h

theorem compile_logical_eq_ok_iff {children : List Resolved} :
    (logical op children).compile c default context = .ok f ↔
      ∃ fs extent, compileAll c default context children = .ok fs ∧
        Predicate.logicalExtent op = .ok extent ∧
          f = fun record => extent.holds (fun g => g record) fs := by
  simp only [compile, bind_eq_ok_iff, pure_eq_ok_iff, exists_and_left]

theorem compile_quantified_eq_ok_iff {collection : Expr} {body : Resolved} :
    (quantified op collection body).compile c default context = .ok f ↔
      ∃ elements g extent, collection.compile context = .ok elements ∧
        body.compile c default (context.withSchema collection.entity?) = .ok g ∧
          Predicate.quantifiedExtent op = .ok extent ∧
            f = fun record => (do extent.holds g (← (← elements record).elements)) := by
  simp only [compile, bind_eq_ok_iff, pure_eq_ok_iff, exists_and_left]

theorem compileAll_cons_eq_ok_iff {t : Resolved} {ts : List Resolved} {fs : List Predicate.Test} :
    compileAll c default context (t :: ts) = .ok fs ↔
      ∃ g gs, t.compile c default context = .ok g ∧ compileAll c default context ts = .ok gs ∧
        fs = g :: gs := by
  simp only [compileAll, bind_eq_ok_iff, pure_eq_ok_iff, exists_and_left]

end Resolved

/-! ### Labels and notes make no difference -/

section

variable (c : Catalog) (notes : Notes) (default : Except Fault TextPolicy)

mutual

/-- **Compiling depends on the resolved condition alone.** -/
theorem Predicate.compile_of_resolvedIn (context : Context) :
    ∀ (p : Predicate) {t : Resolved}, p.resolvedIn notes = some t →
      p.compile c notes default context = t.compile c default context
  | .passthrough id text, t, h => by
    cases h
    rfl
  | .unary id op operand, t, h => by
    obtain ⟨u, hu, h⟩ := Option.bind_eq_some_iff.mp h
    cases h
    have ih := Predicate.compilePresent_of_resolvedOption context operand hu
    simp only [Predicate.compile, Resolved.compile, ih]
  | .logical id op children, t, h => by
    obtain ⟨us, hus, h⟩ := Option.bind_eq_some_iff.mp h
    cases h
    have ih := Predicate.compileAll_of_resolvedAll context children hus
    simp only [Predicate.compile, Resolved.compile, ih]
  | .comparison id op left right, t, h => by
    obtain ⟨l, hl, h⟩ := Option.bind_eq_some_iff.mp h
    obtain ⟨r, hr, h⟩ := Option.bind_eq_some_iff.mp h
    cases h
    simp only [Predicate.compile, Resolved.compile, hl, hr]
  | .quantified id op collection body, t, h => by
    obtain ⟨e, he, h⟩ := Option.bind_eq_some_iff.mp h
    obtain ⟨u, hu, h⟩ := Option.bind_eq_some_iff.mp h
    cases h
    have ih := Predicate.compilePresent_of_resolvedOption
      (context.withSchema e.entity?) body hu
    simp only [Predicate.compile, Resolved.compile, he, Expr.compileFound, Option.bind_some, ih]
  | .bare _, t, h => by cases h

theorem Predicate.compilePresent_of_resolvedOption (context : Context) :
    ∀ (p : Option Predicate) {t : Resolved}, Predicate.resolvedOption notes p = some t →
      Predicate.compilePresent c notes default context p = t.compile c default context
  | none, t, h => by cases h
  | some p, t, h => Predicate.compile_of_resolvedIn context p h

theorem Predicate.compileAll_of_resolvedAll (context : Context) :
    ∀ (ps : List (Option Predicate)) {ts : List Resolved},
      Predicate.resolvedAll notes ps = some ts →
        Predicate.compileAll c notes default context ps = Resolved.compileAll c default context ts
  | [], ts, h => by
    cases h
    rfl
  | p :: ps, ts, h => by
    obtain ⟨u, hu, h⟩ := Option.bind_eq_some_iff.mp h
    obtain ⟨us, hus, h⟩ := Option.bind_eq_some_iff.mp h
    cases h
    simp only [Predicate.compileAll, Resolved.compileAll,
      Predicate.compilePresent_of_resolvedOption context p hu,
      Predicate.compileAll_of_resolvedAll context ps hus]

end

mutual

/-- **Writing depends on the resolved condition alone.** -/
theorem Predicate.canonical_of_resolvedIn (context : Context) :
    ∀ (p : Predicate) {t : Resolved}, p.resolvedIn notes = some t →
      p.canonical c notes context = t.canonical c context
  | .passthrough id text, t, h => by
    cases h
    rfl
  | .unary id op operand, t, h => by
    obtain ⟨u, hu, h⟩ := Option.bind_eq_some_iff.mp h
    cases h
    have ih := Predicate.canonicalPresent_of_resolvedOption context operand hu
    simp only [Predicate.canonical, Resolved.canonical, ih]
  | .logical id op children, t, h => by
    obtain ⟨us, hus, h⟩ := Option.bind_eq_some_iff.mp h
    cases h
    have ih := Predicate.canonicalAll_of_resolvedAll context children hus
    simp only [Predicate.canonical, Resolved.canonical, ih]
  | .comparison id op left right, t, h => by
    obtain ⟨l, hl, h⟩ := Option.bind_eq_some_iff.mp h
    obtain ⟨r, hr, h⟩ := Option.bind_eq_some_iff.mp h
    cases h
    simp only [Predicate.canonical, Resolved.canonical, hl, hr, Expr.found, ok_bind]
  | .quantified id op collection body, t, h => by
    obtain ⟨e, he, h⟩ := Option.bind_eq_some_iff.mp h
    obtain ⟨u, hu, h⟩ := Option.bind_eq_some_iff.mp h
    cases h
    have ih := Predicate.canonicalPresent_of_resolvedOption
      (context.withSchema e.entity?) body hu
    simp only [Predicate.canonical, Resolved.canonical, he, Expr.found, ok_bind, ih]
  | .bare _, t, h => by cases h

theorem Predicate.canonicalPresent_of_resolvedOption (context : Context) :
    ∀ (p : Option Predicate) {t : Resolved}, Predicate.resolvedOption notes p = some t →
      Predicate.canonicalPresent c notes context p = t.canonical c context
  | none, t, h => by cases h
  | some p, t, h => Predicate.canonical_of_resolvedIn context p h

theorem Predicate.canonicalAll_of_resolvedAll (context : Context) :
    ∀ (ps : List (Option Predicate)) {ts : List Resolved},
      Predicate.resolvedAll notes ps = some ts →
        Predicate.canonicalAll c notes context ps = Resolved.canonicalAll c context ts
  | [], ts, h => by
    cases h
    rfl
  | p :: ps, ts, h => by
    obtain ⟨u, hu, h⟩ := Option.bind_eq_some_iff.mp h
    obtain ⟨us, hus, h⟩ := Option.bind_eq_some_iff.mp h
    cases h
    simp only [Predicate.canonicalAll, Resolved.canonicalAll,
      Predicate.canonicalPresent_of_resolvedOption context p hu,
      Predicate.canonicalAll_of_resolvedAll context ps hus]

end

end

/-! ### Which notes matter -/

mutual

/-- Only the notes on the nodes of a predicate matter. -/
theorem Predicate.resolvedIn_congr {notes notes' : Notes} :
    ∀ p : Predicate, (∀ id ∈ p.labels, notes'.note id = notes.note id) →
      p.resolvedIn notes' = p.resolvedIn notes
  | .passthrough _ _, _ => rfl
  | .unary id op operand, h => by
    have ih := Predicate.resolvedOption_congr operand
      fun i hi => h i (List.mem_cons_of_mem _ hi)
    simp only [Predicate.resolvedIn, ih]
  | .logical id op children, h => by
    have ih := Predicate.resolvedAll_congr children
      fun i hi => h i (List.mem_cons_of_mem _ hi)
    simp only [Predicate.resolvedIn, ih]
  | .comparison id op left right, h => by
    simp only [Predicate.resolvedIn, h id List.mem_cons_self]
  | .quantified id op collection body, h => by
    have ih := Predicate.resolvedOption_congr body
      fun i hi => h i (List.mem_cons_of_mem _ hi)
    simp only [Predicate.resolvedIn, h id List.mem_cons_self, ih]
  | .bare _, _ => rfl

theorem Predicate.resolvedOption_congr {notes notes' : Notes} :
    ∀ p : Option Predicate, (∀ id ∈ Predicate.labelsOf p, notes'.note id = notes.note id) →
      Predicate.resolvedOption notes' p = Predicate.resolvedOption notes p
  | none, _ => rfl
  | some p, h => Predicate.resolvedIn_congr p h

theorem Predicate.resolvedAll_congr {notes notes' : Notes} :
    ∀ ps : List (Option Predicate),
      (∀ id ∈ Predicate.labelsAll ps, notes'.note id = notes.note id) →
        Predicate.resolvedAll notes' ps = Predicate.resolvedAll notes ps
  | [], _ => rfl
  | p :: ps, h => by
    have hp := Predicate.resolvedOption_congr p
      fun i hi => h i (List.mem_append_left _ hi)
    have hps := Predicate.resolvedAll_congr ps
      fun i hi => h i (List.mem_append_right _ hi)
    simp only [Predicate.resolvedAll, hp, hps]

end

end RecordFilter
