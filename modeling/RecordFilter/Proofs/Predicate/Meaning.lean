import Mathlib.Data.Option.NAry
import RecordFilter.Proofs.Outcome
import RecordFilter.Proofs.Predicate.Algebra

/-!
# The meaning of resolved conditions

What a resolved condition means is whether it can be compiled in a context and what it says of a
record there. On records that are *quiet* for the condition, where no comparison fails and every
collection is a list or absent (`Resolved.IsQuiet`), the order in which parts are tested does not
matter, so the meaning is put together from those of the parts: it is the value of the condition in
an algebra (`Resolved.meaning`). A compiled condition says of a quiet record what its meaning says
(`Resolved.apply_of_isQuiet`).
-/

namespace RecordFilter

/-! ### Tests over several things -/

/-- The truth values together. -/
def Predicate.Extent.of : Extent → List Bool → Bool
  | .some, xs => xs.any id
  | .all, xs => xs.all id

/-- When every single test gives a result, the test over all gives the results together. -/
theorem Predicate.Extent.holds_of_forall₂ {α : Type} (extent : Extent)
    {test : α → Except Fault Bool} {as : List α} {xs : List Bool}
    (h : List.Forall₂ (fun a x => test a = .ok x) as xs) :
    extent.holds test as = .ok (extent.of xs) := by
  induction h with
  | nil => cases extent <;> rfl
  | @cons a x as xs ha _ ih =>
    rw [holds, ha, ok_bind]
    cases extent <;> cases x
    · exact ih
    · rfl
    · rfl
    · exact ih

theorem mapM_eq_some_iff {α β : Type} {g : α → Option β} {as : List α} {bs : List β} :
    as.mapM g = some bs ↔ List.Forall₂ (fun a b => g a = some b) as bs := by
  induction as generalizing bs with
  | nil =>
    cases bs with
    | nil => exact iff_of_true rfl .nil
    | cons b bs =>
      constructor
      · intro h
        cases h
      · intro h
        cases h
  | cons a as ih =>
    rw [List.mapM_cons]
    constructor
    · intro h
      obtain ⟨b, hb, h⟩ := Option.bind_eq_some_iff.mp h
      obtain ⟨bs', hbs, h⟩ := Option.bind_eq_some_iff.mp h
      cases h
      exact .cons hb (ih.mp hbs)
    · rintro (- | ⟨hb, hbs⟩)
      rw [hb, ih.mpr hbs]
      rfl

/-! ### Meanings -/

/-- Whether a condition can be compiled in a context, and what it then says of a record. It says
nothing of a record that is not quiet. -/
@[ext]
structure Meaning where
  compiles : Context → Prop
  verdict : Context → Value → Option Bool

namespace Meaning

instance : Zero Meaning :=
  ⟨⟨fun _ => True, fun _ _ => some true⟩⟩

instance : Add Meaning :=
  ⟨fun m n => ⟨fun context => m.compiles context ∧ n.compiles context,
    fun context record => Option.map₂ and (m.verdict context record) (n.verdict context record)⟩⟩

instance : AddCommMonoid Meaning where
  add_assoc m n o := Meaning.ext (funext fun _ => propext and_assoc)
    (funext₂ fun _ _ => Option.map₂_assoc Bool.and_assoc)
  zero_add m := Meaning.ext (funext fun _ => true_and _)
    (funext₂ fun _ _ => Option.map₂_left_identity Bool.true_and _)
  add_zero m := Meaning.ext (funext fun _ => and_true _)
    (funext₂ fun _ _ => Option.map₂_right_identity Bool.and_true _)
  add_comm m n := Meaning.ext (funext fun _ => propext and_comm)
    (funext₂ fun _ _ => Option.map₂_comm Bool.and_comm)
  nsmul := nsmulRec

theorem compiles_sum {ms : List Meaning} {context : Context} :
    ms.sum.compiles context ↔ ∀ m ∈ ms, m.compiles context := by
  induction ms with
  | nil => exact iff_of_true trivial (by simp)
  | cons m ms ih =>
    rw [List.sum_cons, List.forall_mem_cons, ← ih]
    exact Iff.rfl

theorem verdict_sum (ms : List Meaning) (context : Context) (record : Value) :
    ms.sum.verdict context record =
      (ms.mapM fun m : Meaning => m.verdict context record).map Predicate.Extent.all.of := by
  induction ms with
  | nil => rfl
  | cons m ms ih =>
    have hadd : (m + ms.sum).verdict context record =
        Option.map₂ and (m.verdict context record) (ms.sum.verdict context record) := rfl
    rw [List.sum_cons, hadd, ih, List.mapM_cons]
    rcases m.verdict context record with - | x
    · rfl
    · rcases ms.mapM fun m : Meaning => m.verdict context record with - | xs
      · rfl
      · rfl

end Meaning

/-! ### Operations on meanings -/

/-- The elements of a collection that is a list or absent. -/
def Value.listed? : Value → Option (List Value)
  | .null => some []
  | .list vs => some vs
  | _ => none

theorem Value.elements_of_listed? {v : Value} {vs : List Value} (h : v.listed? = some vs) :
    v.elements = .ok vs := by
  cases v
  case null =>
    cases h
    rfl
  case list items =>
    cases h
    cases vs <;> rfl
  all_goals cases h

theorem Value.listed?_of_isNoCollection {v : Value} (h : v.IsNoCollection) : v.listed? = none := by
  cases v
  case null => exact h.elim
  case list => exact h.elim
  all_goals rfl

/-- What an operand gives on a record, if it gives anything. -/
def Expr.value? (context : Context) (record : Value) (e : Expr) : Option Value :=
  (do (← e.compile context) record : Except Fault Value).toOption

section

variable (c : Catalog) (default : Except Fault TextPolicy)

/-- What a comparison says of a record, if it does not fail. -/
def Resolved.compared? (context : Context) (record : Value) (op : Operator) (left right : Expr) :
    Option Bool :=
  (do (← Predicate.compileComparison c default context op (some left) (some right)) record :
    Except Fault Bool).toOption

/-- The meanings of conditions as an algebra. -/
def Resolved.meanings : Algebra Meaning where
  passthrough _ := ⟨fun _ => False, fun _ _ => none⟩
  unary op m :=
    ⟨fun context => op.key.isText "not" ∧ m.compiles context,
      fun context record => (m.verdict context record).map not⟩
  disjunction op ms :=
    ⟨fun context => (∀ m ∈ ms, m.compiles context) ∧ ∃ extent, Predicate.logicalExtent op = .ok extent,
      fun context record => do
        let xs ← ms.mapM fun m => m.verdict context record
        return (← (Predicate.logicalExtent op).toOption).of xs⟩
  comparison op left right :=
    ⟨fun context => ∃ f,
        Predicate.compileComparison c default context op (some left) (some right) = .ok f,
      fun context record => compared? c default context record op left right⟩
  quantified op collection m :=
    ⟨fun context => (∃ f, collection.compile context = .ok f) ∧
        m.compiles (context.withSchema collection.entity?) ∧
          ∃ extent, Predicate.quantifiedExtent op = .ok extent,
      fun context record => do
        let vs ← (← collection.value? context record).listed?
        let xs ← vs.mapM fun v => m.verdict (context.withSchema collection.entity?) v
        return (← (Predicate.quantifiedExtent op).toOption).of xs⟩
  quantified_literal := by
    intro op m v v' type hv hv'
    have hvalue : ∀ {w : Value}, w.IsNoCollection → ∀ context record,
        ((Expr.literal w type false {}).value? context record).bind Value.listed? = none :=
      fun hw _ _ => Value.listed?_of_isNoCollection hw
    refine Meaning.ext ?_ ?_
    · funext context
      refine propext (and_congr_left fun _ => ?_)
      exact iff_of_true ⟨_, rfl⟩ ⟨_, rfl⟩
    · funext context record
      simp only [Option.bind_eq_bind, ← Option.bind_assoc, hvalue hv, hvalue hv', Option.bind_none]

/-- The meaning of a resolved condition. -/
def Resolved.meaning (t : Resolved) : Meaning :=
  t.fold (meanings c default)

end

/-! ### Stripped operands mean the same -/

section

variable {c : Catalog} {default : Except Fault TextPolicy}

theorem Predicate.compileComparison_stripped (context : Context) (op : Operator)
    (left right : Expr) :
    compileComparison c default context op (some left.stripped) (some right.stripped) =
      compileComparison c default context op (some left) (some right) := by
  simp only [compileComparison, comparedType, Expr.type_stripped, Expr.compileFound,
    Expr.compile_stripped]

namespace Resolved

/-! ### Compiling and meaning -/

theorem logicalExtent_of_and {op : Operator} (h : op.key.isText "and") :
    Predicate.logicalExtent op = .ok .all :=
  if_pos h

mutual

/-- **A condition can be compiled exactly where its meaning says so.** -/
theorem compiles_iff (context : Context) :
    ∀ t : Resolved, (t.meaning c default).compiles context ↔
      ∃ f, t.compile c default context = .ok f
  | passthrough text => by
    refine iff_of_false (fun h => h) ?_
    rintro ⟨f, h⟩
    exact compile_passthrough_ne_ok h
  | unary op operand => by
    have ih := compiles_iff context operand
    rw [meaning, fold]
    show op.key.isText "not" ∧ _ ↔ _
    constructor
    · rintro ⟨hnot, hoperand⟩
      obtain ⟨g, hg⟩ := ih.mp hoperand
      exact ⟨_, compile_unary_eq_ok_iff.mpr ⟨hnot, g, hg, rfl⟩⟩
    · rintro ⟨f, hf⟩
      obtain ⟨hnot, g, hg, -⟩ := compile_unary_eq_ok_iff.mp hf
      exact ⟨hnot, ih.mpr ⟨g, hg⟩⟩
  | logical op children => by
    have ih := compilesAll_iff context children
    -- Only a conjunction is a sum of meanings, but every connective compiles child by child.
    have hcompile : (∃ f, compile c default context (.logical op children) = .ok f) ↔
        (∃ fs, compileAll c default context children = .ok fs) ∧
          ∃ extent, Predicate.logicalExtent op = .ok extent := by
      constructor
      · rintro ⟨f, h⟩
        obtain ⟨fs, extent, hfs, hextent, -⟩ := compile_logical_eq_ok_iff.mp h
        exact ⟨⟨fs, hfs⟩, extent, hextent⟩
      · rintro ⟨⟨fs, hfs⟩, extent, hextent⟩
        exact ⟨_, compile_logical_eq_ok_iff.mpr ⟨fs, extent, hfs, hextent, rfl⟩⟩
    rw [hcompile, ← ih, meaning, fold]
    split
    · rename_i hop
      rw [Meaning.compiles_sum]
      exact (and_iff_left ⟨_, logicalExtent_of_and hop⟩).symm
    · exact Iff.rfl
  | comparison op left right => by
    show (∃ f, Predicate.compileComparison c default context op (some left.stripped)
      (some right.stripped) = .ok f) ↔ _
    rw [Predicate.compileComparison_stripped, compile]
  | quantified op collection body => by
    have ih := compiles_iff (context.withSchema collection.entity?) body
    rw [meaning, fold]
    show (∃ f, collection.stripped.compile context = .ok f) ∧ _ ∧ _ ↔ _
    rw [Expr.compile_stripped, Expr.entity?_stripped]
    constructor
    · rintro ⟨⟨f, hf⟩, hbody, extent, hextent⟩
      obtain ⟨g, hg⟩ := ih.mp hbody
      exact ⟨_, compile_quantified_eq_ok_iff.mpr ⟨f, g, extent, hf, hg, hextent, rfl⟩⟩
    · rintro ⟨f, h⟩
      obtain ⟨g, k, extent, hg, hk, hextent, -⟩ := compile_quantified_eq_ok_iff.mp h
      exact ⟨⟨g, hg⟩, ih.mpr ⟨k, hk⟩, extent, hextent⟩

theorem compilesAll_iff (context : Context) :
    ∀ ts : List Resolved, (∀ m ∈ foldAll (meanings c default) ts, m.compiles context) ↔
      ∃ fs, compileAll c default context ts = .ok fs
  | [] => iff_of_true (by simp [foldAll]) ⟨[], rfl⟩
  | t :: ts => by
    rw [foldAll, List.forall_mem_cons, compilesAll_iff context ts]
    refine (and_congr_left fun _ => compiles_iff context t).trans ⟨?_, ?_⟩
    · rintro ⟨⟨f, hf⟩, fs, hfs⟩
      exact ⟨_, compileAll_cons_eq_ok_iff.mpr ⟨f, fs, hf, hfs, rfl⟩⟩
    · rintro ⟨fs, h⟩
      obtain ⟨f, fs', hf, hfs, -⟩ := compileAll_cons_eq_ok_iff.mp h
      exact ⟨⟨f, hf⟩, fs', hfs⟩

end

/-! ### Running and meaning -/

theorem toOption_eq_some_iff {ε α : Type} {x : Except ε α} {a : α} :
    x.toOption = some a ↔ x = .ok a := by
  cases x <;> simp [Except.toOption]

mutual

/-- A compiled condition gives on a record what its meaning says of the record. -/
theorem apply_of_verdict {context : Context} {record : Value} :
    ∀ (t : Resolved) {f : Predicate.Test} {x : Bool}, t.compile c default context = .ok f →
      (t.meaning c default).verdict context record = some x → f record = .ok x
  | passthrough text, f, x, _, hx => by cases hx
  | unary op operand, f, x, hf, hx => by
    obtain ⟨y, hy, rfl⟩ := Option.map_eq_some_iff.mp hx
    obtain ⟨-, g, hg, rfl⟩ := compile_unary_eq_ok_iff.mp hf
    simp only [apply_of_verdict operand hg hy, Except.map]
  | logical op children, f, x, hf, hx => by
    obtain ⟨fs, extent, hfs, hextent, rfl⟩ := compile_logical_eq_ok_iff.mp hf
    -- Running stops at the first child that decides; the meaning asks all children for a verdict.
    have hholds : ∀ {xs}, ((foldAll (meanings c default) children).mapM
        fun m => m.verdict context record) = some xs →
          extent.holds (fun f => f record) fs = .ok (extent.of xs) :=
      fun hxs => extent.holds_of_forall₂ (applyAll_of_verdicts children hfs hxs)
    rw [meaning, fold] at hx
    split at hx
    · rename_i hop
      rw [logicalExtent_of_and hop] at hextent
      cases hextent
      rw [Meaning.verdict_sum] at hx
      obtain ⟨xs, hxs, rfl⟩ := Option.map_eq_some_iff.mp hx
      exact hholds hxs
    · obtain ⟨xs, hxs, hx⟩ := Option.bind_eq_some_iff.mp hx
      rw [hextent] at hx
      cases hx
      exact hholds hxs
  | comparison op left right, f, x, hf, hx => by
    have hx := toOption_eq_some_iff.mp hx
    rw [compile] at hf
    rw [Predicate.compileComparison_stripped, hf] at hx
    exact hx
  | quantified op collection body, f, x, hf, hx => by
    obtain ⟨g, k, extent, hg, hk, hextent, rfl⟩ := compile_quantified_eq_ok_iff.mp hf
    obtain ⟨v, hv, hx⟩ := Option.bind_eq_some_iff.mp hx
    obtain ⟨vs, hvs, hx⟩ := Option.bind_eq_some_iff.mp hx
    obtain ⟨xs, hxs, hx⟩ := Option.bind_eq_some_iff.mp hx
    rw [hextent] at hx
    cases hx
    rw [Expr.entity?_stripped] at hxs
    have hv := toOption_eq_some_iff.mp hv
    rw [Expr.compile_stripped, hg, ok_bind] at hv
    have hbody : List.Forall₂ (fun w y => k w = .ok y) vs xs :=
      (mapM_eq_some_iff.mp hxs).imp fun _ _ hy => apply_of_verdict body hk hy
    dsimp only
    rw [hv, ok_bind, Value.elements_of_listed? hvs, ok_bind]
    exact extent.holds_of_forall₂ hbody

theorem applyAll_of_verdicts {context : Context} {record : Value} :
    ∀ (ts : List Resolved) {fs : List Predicate.Test} {xs : List Bool},
      compileAll c default context ts = .ok fs →
        ((foldAll (meanings c default) ts).mapM fun m => m.verdict context record) = some xs →
          List.Forall₂ (fun f x => f record = .ok x) fs xs
  | [], fs, xs, hfs, hxs => by
    cases hfs
    cases hxs
    exact .nil
  | t :: ts, fs, xs, hfs, hxs => by
    obtain ⟨f, fs', hf, hfs', rfl⟩ := compileAll_cons_eq_ok_iff.mp hfs
    rw [foldAll, List.mapM_cons] at hxs
    obtain ⟨x, hx, hxs⟩ := Option.bind_eq_some_iff.mp hxs
    obtain ⟨xs', hxs', hxs⟩ := Option.bind_eq_some_iff.mp hxs
    cases hxs
    exact .cons (apply_of_verdict t hf hx) (applyAll_of_verdicts ts hfs' hxs')

end

/-! ### Quiet records -/

mutual

/-- On the record no comparison fails, whichever element of a collection it is tested on, and every
collection is a list or absent. -/
def IsQuiet (c : Catalog) (default : Except Fault TextPolicy) (context : Context)
    (record : Value) : Resolved → Prop
  | passthrough _ => True
  | unary _ operand => IsQuiet c default context record operand
  | logical _ children => AllQuiet c default context record children
  | comparison op left right => ∃ x, compared? c default context record op left right = some x
  | quantified _ collection body =>
    ∃ v vs, collection.value? context record = some v ∧ v.listed? = some vs ∧
      ∀ w ∈ vs, IsQuiet c default (context.withSchema collection.entity?) w body

/-- The record is quiet for the conditions. -/
def AllQuiet (c : Catalog) (default : Except Fault TextPolicy) (context : Context)
    (record : Value) : List Resolved → Prop
  | [] => True
  | t :: ts => IsQuiet c default context record t ∧ AllQuiet c default context record ts

end

theorem mapM_eq_some_of_forall {α β : Type} {g : α → Option β} {as : List α}
    (h : ∀ a ∈ as, ∃ b, g a = some b) : ∃ bs, as.mapM g = some bs := by
  induction as with
  | nil => exact ⟨[], rfl⟩
  | cons a as ih =>
    obtain ⟨b, hb⟩ := h a List.mem_cons_self
    obtain ⟨bs, hbs⟩ := ih fun a' ha' => h a' (List.mem_cons_of_mem _ ha')
    exact ⟨b :: bs, by rw [List.mapM_cons, hb, hbs]; rfl⟩

mutual

/-- Of a quiet record the meaning of a condition that can be compiled says something. -/
theorem exists_verdict {context : Context} {record : Value} :
    ∀ (t : Resolved) {f : Predicate.Test}, t.compile c default context = .ok f →
      t.IsQuiet c default context record →
        ∃ x, (t.meaning c default).verdict context record = some x
  | passthrough text, f, hf, _ => by
    exact (compile_passthrough_ne_ok hf).elim
  | unary op operand, f, hf, hquiet => by
    obtain ⟨-, g, hg, -⟩ := compile_unary_eq_ok_iff.mp hf
    obtain ⟨x, hx⟩ := exists_verdict operand hg hquiet
    exact ⟨!x, congrArg (Option.map not) hx⟩
  | logical op children, f, hf, hquiet => by
    obtain ⟨fs, extent, hfs, hextent, -⟩ := compile_logical_eq_ok_iff.mp hf
    obtain ⟨xs, hxs⟩ := exists_verdicts children hfs hquiet
    rw [meaning, fold]
    split
    · rw [Meaning.verdict_sum, hxs]
      exact ⟨_, rfl⟩
    · refine ⟨extent.of xs, Option.bind_eq_some_iff.mpr ⟨xs, hxs, ?_⟩⟩
      rw [hextent]
      rfl
  | comparison op left right, f, hf, hquiet => by
    obtain ⟨x, hx⟩ := hquiet
    refine ⟨x, ?_⟩
    show compared? c default context record op left.stripped right.stripped = some x
    rwa [compared?, Predicate.compileComparison_stripped]
  | quantified op collection body, f, hf, hquiet => by
    obtain ⟨g, k, extent, hg, hk, hextent, -⟩ := compile_quantified_eq_ok_iff.mp hf
    obtain ⟨v, vs, hv, hvs, hbody⟩ := hquiet
    obtain ⟨xs, hxs⟩ := mapM_eq_some_of_forall fun w hw => exists_verdict body hk (hbody w hw)
    refine ⟨extent.of xs, Option.bind_eq_some_iff.mpr ⟨v, ?_, ?_⟩⟩
    · rwa [Expr.value?, Expr.compile_stripped]
    · refine Option.bind_eq_some_iff.mpr ⟨vs, hvs, ?_⟩
      rw [Expr.entity?_stripped]
      refine Option.bind_eq_some_iff.mpr ⟨xs, hxs, ?_⟩
      rw [hextent]
      rfl

theorem exists_verdicts {context : Context} {record : Value} :
    ∀ (ts : List Resolved) {fs : List Predicate.Test}, compileAll c default context ts = .ok fs →
      AllQuiet c default context record ts →
        ∃ xs, ((foldAll (meanings c default) ts).mapM fun m => m.verdict context record) = some xs
  | [], fs, _, _ => ⟨[], rfl⟩
  | t :: ts, fs, hfs, hquiet => by
    obtain ⟨f, fs', hf, hfs', -⟩ := compileAll_cons_eq_ok_iff.mp hfs
    obtain ⟨x, hx⟩ := exists_verdict t hf hquiet.1
    obtain ⟨xs, hxs⟩ := exists_verdicts ts hfs' hquiet.2
    refine ⟨x :: xs, ?_⟩
    rw [foldAll, List.mapM_cons, hxs]
    exact Option.bind_eq_some_iff.mpr ⟨x, hx, rfl⟩

end

/-- **Conditions of one meaning give the same on every record that is quiet for one of them.** -/
theorem apply_of_isQuiet {t u : Resolved} {context : Context} {record : Value}
    {f g : Predicate.Test} (hmeaning : u.meaning c default = t.meaning c default)
    (hf : t.compile c default context = .ok f) (hg : u.compile c default context = .ok g)
    (hquiet : t.IsQuiet c default context record) :
    ∃ x, f record = .ok x ∧ g record = .ok x := by
  obtain ⟨x, hx⟩ := exists_verdict t hf hquiet
  exact ⟨x, apply_of_verdict t hf hx, apply_of_verdict u hg (hmeaning ▸ hx)⟩

end Resolved

end

end RecordFilter
