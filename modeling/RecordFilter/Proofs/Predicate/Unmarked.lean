import RecordFilter.Proofs.Predicate.Condition

/-!
# Operands without their marks

An operand bears the mark of the entity type that it was checked against. Nothing that is made of a
resolved condition depends on these marks: neither its function on records
(`Resolved.compile_unmarked`) nor its canonical form (`Resolved.canonical_unmarked`). So resolved
conditions are compared without them.
-/

namespace RecordFilter

/-! ### Operands -/

mutual

/-- The operand without any marks in it. -/
def Expr.unmarked : Expr → Expr
  | .literal value type explicit _ => .literal value type explicit {}
  | .path p type _ => .path p type {}
  | .call function args type _ => .call function (Expr.unmarkedAll args) type {}

/-- The operands without any marks in them. -/
def Expr.unmarkedAll : List Expr → List Expr
  | [] => []
  | e :: es => Expr.unmarked e :: Expr.unmarkedAll es

end

@[simp] theorem Expr.type_unmarked (e : Expr) : e.unmarked.type = e.type := by
  cases e <;> rfl

@[simp] theorem Expr.entity?_unmarked (e : Expr) : e.unmarked.entity? = e.entity? := by
  cases e <;> rfl

section

variable (c : Catalog) (context : Context)

mutual

theorem Expr.compile_unmarked : ∀ e : Expr, e.unmarked.compile context = e.compile context
  | .literal .. | .path .. => rfl
  | .call function args _ _ => by
    rw [Expr.unmarked, Expr.compile, Expr.compile, Expr.compileAll_unmarked args]

theorem Expr.compileAll_unmarked :
    ∀ es : List Expr, Expr.compileAll context (Expr.unmarkedAll es) = Expr.compileAll context es
  | [] => rfl
  | e :: es => by
    rw [Expr.unmarkedAll, Expr.compileAll, Expr.compileAll, Expr.compile_unmarked e,
      Expr.compileAll_unmarked es]

end

mutual

theorem Expr.argumentForm_unmarked :
    ∀ e : Expr, e.unmarked.argumentForm c context = e.argumentForm c context
  | .literal .. | .path .. => rfl
  | .call function args _ _ => by
    rw [Expr.unmarked, Expr.argumentForm, Expr.argumentForm, Expr.argumentForms_unmarked args]

theorem Expr.argumentForms_unmarked : ∀ es : List Expr,
    Expr.argumentForms c context (Expr.unmarkedAll es) = Expr.argumentForms c context es
  | [] => rfl
  | e :: es => by
    rw [Expr.unmarkedAll, Expr.argumentForms, Expr.argumentForms, Expr.argumentForm_unmarked e,
      Expr.argumentForms_unmarked es]

end

theorem Expr.canonical_unmarked (e : Expr) :
    e.unmarked.canonical c context = e.canonical c context := by
  cases e
  case call function args _ _ =>
    rw [Expr.unmarked, Expr.canonical, Expr.canonical, Expr.argumentForms_unmarked]
  all_goals rfl

theorem Expr.canonicalRight_unmarked (e : Expr) :
    e.unmarked.canonicalRight c context = e.canonicalRight c context := by
  unfold Expr.canonicalRight
  rw [Expr.canonical_unmarked]
  cases e <;> rfl

end

/-! ### Resolved conditions -/

mutual

/-- The resolved condition without any marks in it. -/
def Resolved.unmarked : Resolved → Resolved
  | .passthrough text => .passthrough text
  | .unary op operand => .unary op (Resolved.unmarked operand)
  | .logical op children => .logical op (Resolved.unmarkedAll children)
  | .comparison op left right => .comparison op left.unmarked right.unmarked
  | .quantified op collection body => .quantified op collection.unmarked (Resolved.unmarked body)

/-- The resolved conditions without any marks in them. -/
def Resolved.unmarkedAll : List Resolved → List Resolved
  | [] => []
  | t :: ts => Resolved.unmarked t :: Resolved.unmarkedAll ts

end

section

variable (c : Catalog) (default : Except Fault TextPolicy)

theorem compileComparison_unmarked (context : Context) (op : Operator) (l r : Expr) :
    Predicate.compileComparison c default context op (some l.unmarked) (some r.unmarked) =
      Predicate.compileComparison c default context op (some l) (some r) := by
  simp only [Predicate.compileComparison, Predicate.comparedType, Expr.compileFound,
    Expr.type_unmarked, Expr.compile_unmarked]

mutual

/-- **The function of a resolved condition does not depend on marks.** -/
theorem Resolved.compile_unmarked : ∀ (t : Resolved) (context : Context),
    t.unmarked.compile c default context = t.compile c default context
  | .passthrough _, _ => rfl
  | .unary op operand, context => by
    rw [Resolved.unmarked, Resolved.compile, Resolved.compile,
      Resolved.compile_unmarked operand context]
  | .logical op children, context => by
    rw [Resolved.unmarked, Resolved.compile, Resolved.compile,
      Resolved.compileAll_unmarked children context]
  | .comparison op left right, context => compileComparison_unmarked c default context op left right
  | .quantified op collection body, context => by
    rw [Resolved.unmarked, Resolved.compile, Resolved.compile, Expr.compile_unmarked,
      Expr.entity?_unmarked, Resolved.compile_unmarked body]

theorem Resolved.compileAll_unmarked : ∀ (ts : List Resolved) (context : Context),
    Resolved.compileAll c default context (Resolved.unmarkedAll ts) =
      Resolved.compileAll c default context ts
  | [], _ => rfl
  | t :: ts, context => by
    rw [Resolved.unmarkedAll, Resolved.compileAll, Resolved.compileAll,
      Resolved.compile_unmarked t context, Resolved.compileAll_unmarked ts context]

end

mutual

/-- **The canonical form of a resolved condition does not depend on marks.** -/
theorem Resolved.canonical_unmarked : ∀ (t : Resolved) (context : Context),
    t.unmarked.canonical c context = t.canonical c context
  | .passthrough _, _ => rfl
  | .unary op operand, context => by
    rw [Resolved.unmarked, Resolved.canonical, Resolved.canonical,
      Resolved.canonical_unmarked operand context]
  | .logical op children, context => by
    rw [Resolved.unmarked, Resolved.canonical, Resolved.canonical,
      Resolved.canonicalAll_unmarked children context]
  | .comparison op left right, context => by
    rw [Resolved.unmarked, Resolved.canonical, Resolved.canonical, Expr.canonical_unmarked,
      Expr.canonicalRight_unmarked]
  | .quantified op collection body, context => by
    rw [Resolved.unmarked, Resolved.canonical, Resolved.canonical, Expr.canonical_unmarked,
      Expr.entity?_unmarked, Resolved.canonical_unmarked body]

theorem Resolved.canonicalAll_unmarked : ∀ (ts : List Resolved) (context : Context),
    Resolved.canonicalAll c context (Resolved.unmarkedAll ts) = Resolved.canonicalAll c context ts
  | [], _ => rfl
  | t :: ts, context => by
    rw [Resolved.unmarkedAll, Resolved.canonicalAll, Resolved.canonicalAll,
      Resolved.canonical_unmarked t context, Resolved.canonicalAll_unmarked ts context]

end

end

end RecordFilter
