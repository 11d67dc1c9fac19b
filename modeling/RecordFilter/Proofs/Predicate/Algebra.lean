import Mathlib.Algebra.BigOperators.Group.List.Basic
import Mathlib.Algebra.Group.Prod
import Mathlib.Algebra.GroupWithZero.Nat
import RecordFilter.Proofs.Predicate.Condition

/-!
# Folding resolved conditions

What a resolved condition says, whatever is to be said about it, is put together from what its parts
say: an `Algebra` has one operation for each kind of part, and conditions joined by `and` add up.
`Resolved.fold` is the value of a condition in an algebra. Two conditions with one value in an algebra
are alike in all that the algebra can see, which is how a condition and its canonical form are
compared.
-/

namespace RecordFilter

/-- A value of this kind is never the collection of a quantifier, nor the absence of one. -/
def Value.IsNoCollection : Value → Prop
  | .null | .list _ => False
  | _ => True

/-- The operand by what it means: without what it is known by, and without the note that its type was
spelled out. -/
def Expr.stripped : Expr → Expr
  | literal value type _ _ => literal value type false {}
  | path p type _ => path p type {}
  | call function args type _ => call function args type {}

theorem Expr.compile_stripped (context : Context) (e : Expr) :
    e.stripped.compile context = e.compile context := by
  cases e <;> rfl

@[simp] theorem Expr.type_stripped (e : Expr) : e.stripped.type = e.type := by
  cases e <;> rfl

@[simp] theorem Expr.entity?_stripped (e : Expr) : e.stripped.entity? = e.entity? := by
  cases e <;> rfl

/-- Operations for the parts of resolved conditions, of whose operands they get the meaning.
Conditions joined by `and` are added. Which literal stands in the place of a collection makes no
difference unless it can be one. -/
structure Algebra (M : Type) where
  passthrough : Value → M
  unary : Operator → M → M
  disjunction : Operator → List M → M
  comparison : Operator → Expr → Expr → M
  quantified : Operator → Expr → M → M
  quantified_literal : ∀ op m {v v' : Value} type, v.IsNoCollection → v'.IsNoCollection →
    quantified op (.literal v type false {}) m = quantified op (.literal v' type false {}) m

namespace Resolved

variable {M : Type} [AddCommMonoid M] (alg : Algebra M)

mutual

/-- The value of a resolved condition in an algebra. -/
def fold : Resolved → M
  | passthrough text => alg.passthrough text
  | unary op operand => alg.unary op (fold operand)
  | logical op children =>
    if op.key.isText "and" then (foldAll children).sum else alg.disjunction op (foldAll children)
  | comparison op left right => alg.comparison op left.stripped right.stripped
  | quantified op collection body => alg.quantified op collection.stripped (fold body)

/-- The values of resolved conditions. -/
def foldAll : List Resolved → List M
  | [] => []
  | t :: ts => fold t :: foldAll ts

end

mutual

/-- How many conditions are joined by `and`. -/
def conjuncts : Resolved → Nat
  | logical op children => if op.key.isText "and" then (conjunctsAll children).sum else 1
  | _ => 1

/-- How many conditions are joined by `and` in each of several ones. -/
def conjunctsAll : List Resolved → List Nat
  | [] => []
  | t :: ts => conjuncts t :: conjunctsAll ts

end

theorem foldAll_eq_map (ts : List Resolved) : foldAll alg ts = ts.map (fold alg) := by
  induction ts with
  | nil => rfl
  | cons t ts ih => rw [foldAll, ih, List.map_cons]

theorem conjunctsAll_eq_map (ts : List Resolved) : conjunctsAll ts = ts.map conjuncts := by
  induction ts with
  | nil => rfl
  | cons t ts ih => rw [conjunctsAll, ih, List.map_cons]

/-- The value of a condition next to the number of conditions that are joined in it, by which a
condition is told apart from the absence of one. -/
def measure (t : Resolved) : Nat × M :=
  (t.conjuncts, t.fold alg)

theorem measure_logical_and {op : Operator} (h : op.key.isText "and") (ts : List Resolved) :
    measure alg (.logical op ts) = (ts.map (measure alg)).sum := by
  have hsum : (ts.map (measure alg)).sum = ((ts.map conjuncts).sum, (ts.map (fold alg)).sum) := by
    induction ts with
    | nil => rfl
    | cons t ts ih =>
      rw [List.map_cons, List.sum_cons, ih, List.map_cons, List.sum_cons, List.map_cons,
        List.sum_cons]
      rfl
  rw [hsum, measure, conjuncts, fold, if_pos h, if_pos h, conjunctsAll_eq_map, foldAll_eq_map]

end Resolved

end RecordFilter
