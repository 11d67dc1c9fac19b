import RecordFilter.Proofs.Alike
import RecordFilter.Proofs.Filter.Building
import RecordFilter.Proofs.Predicate.Using

/-!
# Using predicates for the first time

When nothing is known about the nodes of a plain predicate, using it comes to the same as resolving
its condition and compiling or writing the resolved one, and a fault in between is the fault of the
use: of validating (`Predicate.agrees_validate`), of compiling (`Predicate.agrees_compile`) and of
writing (`Predicate.agrees_toCanonical`). So what a filter comes to when it is read and used at once
depends on the filter, the catalog and the context alone (`Filter.endAlike_compile`,
`Filter.endAlike_canonical`): labels, the state of building and other notes play no part in it.
-/

namespace RecordFilter

/-! ### Checks that fail -/

/-- Steps behind a gate that is not skipped fail as they do. -/
theorem Check.gate_error {skipping : Bool} {schema : Option EntityId} {notes notes' : Notes}
    {id : Label} {step : Check Unit} {fault : Fault}
    (hskip : ¬ (skipping ∧ Check.Skips schema id notes))
    (h : outcome step notes = (.error fault, notes')) :
    outcome (Check.gate skipping schema id step) notes = (.error fault, notes') := by
  cases skipping
  · exact outcome_bind_of_error h
  · have hgate : Check.gate true schema id step = Check.once schema id step := rfl
    rw [hgate, Check.outcome_once_of_not_skips fun hs => hskip ⟨rfl, hs⟩]
    exact outcome_bind_of_error h

theorem Operator.IsPlain.key {op : Operator} (h : op.IsPlain) : op.key.IsPlain := by
  cases op
  exact h

namespace Predicate

section

variable {c : Catalog} {fault : Fault}

mutual

/-- The fault that keeps a condition from being resolved is the one of the check. -/
theorem checkBy_error_of_resolve {schema : Option EntityId} {notes : Notes} :
    ∀ p : Predicate, p.labels.Nodup → notes.On Note.Unmarked p.labels →
      p.condition.resolve c schema = .error fault →
        ∃ notes', outcome (checkBy c true schema p) notes = (.error fault, notes')
  | .passthrough _ _, _, _, h => by cases h
  | .unary id op operand, hnodup, hon, h => by
    have hskip := hon.not_skips schema List.mem_cons_self
    obtain ⟨-, hnodup⟩ := List.nodup_cons.mp hnodup
    rcases bind_eq_error_iff.mp h with h | ⟨_, _, h⟩
    · obtain ⟨notes', hstep⟩ := checkPresentBy_error_of_resolve operand hnodup
        (hon.mono (List.subset_cons_self _ _)) h
      exact ⟨notes', Check.gate_error (fun hs => hskip hs.2) hstep⟩
    · cases h
  | .logical id op children, hnodup, hon, h => by
    have hskip := hon.not_skips schema List.mem_cons_self
    obtain ⟨-, hnodup⟩ := List.nodup_cons.mp hnodup
    rcases bind_eq_error_iff.mp h with h | ⟨_, _, h⟩
    · obtain ⟨notes', hstep⟩ := checkAllBy_error_of_resolve children hnodup
        (hon.mono (List.subset_cons_self _ _)) h
      exact ⟨notes', Check.gate_error (fun hs => hskip hs.2) hstep⟩
    · cases h
  | .comparison id op left right, _, hon, h => by
    have hskip := hon.not_skips schema List.mem_cons_self
    rcases bind_eq_error_iff.mp h with h | ⟨⟨l, r⟩, _, h⟩
    · refine ⟨notes, Check.gate_error (fun hs => hskip hs.2) ?_⟩
      rw [h, outcome_bind_of_error (outcome_lift _)]
    · cases h
  | .quantified id op collection body, hnodup, hon, h => by
    have hskip := hon.not_skips schema List.mem_cons_self
    obtain ⟨hid, hnodup⟩ := List.nodup_cons.mp hnodup
    rcases bind_eq_error_iff.mp h with h | ⟨e, he, h⟩
    · refine ⟨notes, Check.gate_error (fun hs => hskip hs.2) ?_⟩
      rw [h, outcome_bind_of_error (outcome_lift _)]
    · rcases bind_eq_error_iff.mp h with h | ⟨_, _, h⟩
      · have hbefore := Notes.frame_others notes (Note.withCollection e) hid
        obtain ⟨notes', hstep⟩ := checkPresentBy_error_of_resolve body hnodup
          ((hon.mono (List.subset_cons_self _ _)).congr hbefore) h
        refine ⟨notes', Check.gate_error (fun hs => hskip hs.2) ?_⟩
        rw [he, outcome_bind_of_ok (outcome_lift _), outcome_bind_of_ok (Check.outcome_change _)]
        exact hstep
      · cases h
  | .bare _, _, _, h => by
    cases h
    exact ⟨notes, rfl⟩

theorem checkPresentBy_error_of_resolve {schema : Option EntityId} {notes : Notes} :
    ∀ p : Option Predicate, (labelsOf p).Nodup → notes.On Note.Unmarked (labelsOf p) →
      (conditionOf p).resolve c schema = .error fault →
        ∃ notes', outcome (checkPresentBy c true schema p) notes = (.error fault, notes')
  | none, _, _, h => by
    cases h
    exact ⟨notes, rfl⟩
  | some p, hnodup, hon, h => checkBy_error_of_resolve p hnodup hon h

theorem checkAllBy_error_of_resolve {schema : Option EntityId} {notes : Notes} :
    ∀ ps : List (Option Predicate), (labelsAll ps).Nodup →
      notes.On Note.Unmarked (labelsAll ps) →
      Condition.resolveAll c schema (conditions ps) = .error fault →
        ∃ notes', outcome (checkAllBy c true schema ps) notes = (.error fault, notes')
  | [], _, _, h => by cases h
  | p :: ps, hnodup, hon, h => by
    obtain ⟨hnodupP, hnodupPs, hdisjoint⟩ := List.nodup_append'.mp hnodup
    rcases bind_eq_error_iff.mp h with h | ⟨t, ht, h⟩
    · obtain ⟨notes', hfirst⟩ := checkPresentBy_error_of_resolve p hnodupP
        (hon.mono (List.subset_append_left _ _)) h
      exact ⟨notes', outcome_bind_of_error hfirst⟩
    · rcases bind_eq_error_iff.mp h with h | ⟨_, _, h⟩
      · obtain ⟨middle, hfirst⟩ :
            ∃ middle, outcome (checkPresentBy c true schema p) notes = (.ok (), middle) :=
          checkPresentBy_ok_of_resolve p notes ht
        have hframe := checkPresentBy_frame p hfirst
        obtain ⟨notes', hrest⟩ := checkAllBy_error_of_resolve ps hnodupPs
          ((hon.mono (List.subset_append_right _ _)).frame hframe hdisjoint) h
        exact ⟨notes', (outcome_bind_of_ok hfirst).trans hrest⟩
      · cases h

end

end

section

variable {c : Catalog} {default : Except Fault TextPolicy} {source : ContextSource}
  {schema : Option EntityId} {p : Predicate} {notes notes' : Notes}

/-- **Validating a new predicate comes to resolving its condition**: to the same fault, or to notes
that make the predicate ready for use. -/
theorem agrees_validate (hp : p.IsPlain) (hnodup : p.labels.Nodup)
    (hon : notes.On Note.Unmarked p.labels) :
    Agrees (fun _ t notes' => p.Ready c schema notes' t) ((Node.predicate p).validate c schema) notes
      (p.condition.resolve c schema) := by
  rcases h : p.condition.resolve c schema with fault | t
  · obtain ⟨middle, hcheck⟩ := checkBy_error_of_resolve p hnodup hon h
    have hcheck : outcome (Node.check c schema (.predicate p)) notes = (.error fault, middle) :=
      (outcome_check p notes hp).trans hcheck
    refine ⟨middle.refreshed c, ?_⟩
    rw [Node.validate, Check.outcome_settled, hcheck]
  · obtain ⟨notes', hvalidate, hready⟩ := validate_of_resolve notes hp hnodup hon h
    exact ⟨(), notes', hvalidate, hready⟩

/-! ### Faults of compiling -/

mutual

/-- What a message about a plain predicate may quote is plain. -/
theorem isPlain_of_mem_quotable : ∀ p : Predicate, p.IsPlain → ∀ v ∈ p.quotable, v.IsPlain
  | .passthrough _ text, hp, v, hv => by
    rw [quotable, List.mem_singleton] at hv
    exact hv ▸ hp
  | .unary _ op operand, hp, v, hv => by
    rcases List.mem_cons.mp hv with rfl | hv
    · exact hp.1.key
    · exact isPlain_of_mem_quotableOption operand hp.2 v hv
  | .logical _ op children, hp, v, hv => by
    rcases List.mem_append.mp hv with hv | hv
    · exact isPlain_of_mem_quotableAll children hp.2 v hv
    · rw [List.mem_singleton.mp hv]
      exact hp.1.key
  | .comparison _ op _ _, hp, v, hv => by
    rw [quotable, List.mem_singleton] at hv
    exact hv ▸ hp.1.key
  | .quantified _ op _ body, hp, v, hv => by
    rcases List.mem_append.mp hv with hv | hv
    · exact isPlain_of_mem_quotableOption body hp.2.2 v hv
    · rw [List.mem_singleton.mp hv]
      exact hp.1.key
  | .bare _, hp, _, _ => hp.elim

theorem isPlain_of_mem_quotableOption :
    ∀ p : Option Predicate, PlainOption p → ∀ v ∈ quotable.present p, v.IsPlain
  | none, _, _, hv => by cases hv
  | some p, hp, v, hv => isPlain_of_mem_quotable p hp v hv

theorem isPlain_of_mem_quotableAll :
    ∀ ps : List (Option Predicate), PlainAll ps → ∀ v ∈ quotable.all ps, v.IsPlain
  | [], _, _, hv => by cases hv
  | p :: ps, hp, v, hv => by
    rcases List.mem_append.mp hv with hv | hv
    · exact isPlain_of_mem_quotableOption p hp.1 v hv
    · exact isPlain_of_mem_quotableAll ps hp.2 v hv

end

/-- The fault that keeps a plain predicate from being compiled is the fault of compiling it. -/
theorem outcome_refuse {α : Type} (hp : p.IsPlain) (fault : Fault) :
    outcome ((Node.predicate p).refuse c fault : Check α) notes = (.error fault, notes) := by
  rcases fault with - | - | e | - | - | - | - | - | - | - | - | - | - | -
  case evaluation =>
    rw [Node.refuse]
    split
    · rename_i v hv
      have hplain : v.IsPlain := isPlain_of_mem_quotable p hp v (List.mem_of_find?_eq_some hv)
      have htext : v.toText = .ok e.quoted := by
        have hfound := List.find?_some hv
        rcases hv' : v.toText with f | s
        · rw [hv'] at hfound
          simp [Except.toOption] at hfound
        · rw [hv'] at hfound
          simpa [Except.toOption] using hfound
      have hquoting : e.quoting e.quoted = e := by cases e <;> rfl
      rw [outcome_bind_of_ok (Value.outcome_tell false hplain), htext,
        outcome_bind_of_ok (outcome_lift _), hquoting]
      rfl
    · rfl
  all_goals rfl

/-- Running the program comes to the test of the record, at whatever time it takes place. -/
def RunsAs (program : Program) (test : Test) : Prop :=
  ∀ current now record,
    (outcome (program.run current record) now).1 = (test record).map Value.bool

/-- What compiling a condition comes to: its test. -/
def testOf (c : Catalog) (default : Except Fault TextPolicy) (source : ContextSource)
    (t : Condition) : Except Fault Test := do
  let context ← Context.ofSource source
  (← t.resolve c context.schema).compile c default context

/-- What writing a condition comes to: its canonical form. -/
def formOf (c : Catalog) (source : ContextSource) (t : Condition) : Except Fault Value := do
  let context ← Context.ofSource source
  (← t.resolve c context.schema).canonical c context

/-- Compiling a predicate comes to the test of its condition, or to the same fault, if validating it
finds operands that are compiled like those of its condition. -/
theorem agrees_compile_of_validate (hp : p.IsPlain)
    (hvalidate : ∀ context, Context.ofSource source = .ok context →
      Agrees (fun _ t notes' => ∃ u, p.HeldBy notes' u ∧
          u.compile c default context = t.compile c default context)
        ((Node.predicate p).validate c context.schema) notes
        (p.condition.resolve c context.schema)) :
    Agrees (fun program test _ => RunsAs program test)
      ((Node.predicate p).compile c default source) notes (testOf c default source p.condition) := by
  have hsource : Agrees (fun context context' notes' => context = context' ∧ notes' = notes ∧
      Context.ofSource source = .ok context) (liftM (Context.ofSource source)) notes
      (Context.ofSource source) := by
    rcases Context.ofSource source with fault | context
    · exact ⟨notes, rfl⟩
    · exact ⟨context, notes, rfl, rfl, rfl, rfl⟩
  refine hsource.bind fun context context' notes₁ ⟨hsame, hnotes, hcontext⟩ => ?_
  subst hsame hnotes
  refine (hvalidate context hcontext).bind fun _ t notes₂ ⟨u, hheld, hcompile⟩ => ?_
  have hfunction : (Node.predicate p).function c notes₂ default context =
      (t.compile c default context).map fun test record => (test record).map Value.bool := by
    rw [← hcompile]
    exact Node.function_predicate hheld
  rcases htest : t.compile c default context with fault | test
  · rw [htest] at hfunction
    refine ⟨notes₂.refreshed c, ?_⟩
    rw [outcome_bind_of_ok outcome_get, hfunction]
    dsimp only [Except.map]
    rw [Check.outcome_settled, outcome_refuse hp]
  · rw [htest] at hfunction
    refine ⟨{ node := .predicate p, context, catalog := c, notes := notes₂, default }, notes₂, ?_,
      fun current now record => ?_⟩
    · rw [outcome_bind_of_ok outcome_get, hfunction]
      rfl
    · rw [Program.outcome_run hp hheld, Resolved.run, hcompile, htest, ok_bind]

/-- **Compiling a new predicate comes to the test of its condition**, or to the same fault. -/
theorem agrees_compile (hp : p.IsPlain) (hnodup : p.labels.Nodup)
    (hon : notes.On Note.Unmarked p.labels) :
    Agrees (fun program test _ => RunsAs program test)
      ((Node.predicate p).compile c default source) notes (testOf c default source p.condition) :=
  agrees_compile_of_validate hp fun _ _ =>
    (agrees_validate hp hnodup hon).imp fun _ t _ hready => ⟨t, hready.held, rfl⟩

/-- **Writing a new predicate comes to the form of its condition**, or to the same fault. -/
theorem agrees_toCanonical (hp : p.IsPlain) (hnodup : p.labels.Nodup)
    (hon : notes.On Note.Unmarked p.labels) :
    Agrees (fun v w _ => v = w) ((Node.predicate p).toCanonical c source) notes
      (formOf c source p.condition) := by
  refine (Agrees.lift (Context.ofSource source)).bind fun context context' notes₁ ⟨hsame, hnotes⟩ => ?_
  subst hsame hnotes
  refine (agrees_validate hp hnodup hon).bind fun _ t notes₂ hready => ?_
  have hform : p.canonical c notes₂ context = t.canonical c context :=
    canonical_of_resolvedIn c notes₂ context p hready.held.resolvedIn
  have htell : outcome ((Node.predicate p).tellArguments c) notes₂ = (.ok (), notes₂) := rfl
  have hwrite : outcome (do
      (Node.predicate p).tellArguments c
      (Node.predicate p).canonical c (← get) context : Check Value) notes₂ =
      (t.canonical c context, notes₂) := by
    rw [outcome_bind_of_ok htell, outcome_bind_of_ok outcome_get, outcome_lift, ← hform]
    rfl
  rcases h : t.canonical c context with fault | v
  · exact ⟨notes₂, hwrite.trans (by rw [h])⟩
  · exact ⟨v, notes₂, hwrite.trans (by rw [h]), rfl⟩

end

end Predicate

/-! ### Filters that are used at once -/

theorem Agrees.endAlike {σ α β : Type} {Q : α → β → σ → Prop} {m : ExceptT Fault (StateM σ) α} {s : σ}
    {x : Except Fault β} (h : Agrees Q m s x) :
    EndAlike Eq (fun a b => ∃ s', Q a b s') (outcome m s).1 x := by
  rcases x with fault | b
  · obtain ⟨s', hm⟩ := h
    rw [hm]
    exact .error rfl
  · obtain ⟨a, s', hm, hQ⟩ := h
    rw [hm]
    exact .ok ⟨s', hQ⟩

namespace Filter

/-- Reads a filter and uses the predicate in a context, which must be there. -/
def use {α : Type} (source : ContextSource) (step : Node → Check α) (f : Value) (b : Builder)
    (notes : Notes) : Except Fault α := do
  match ← (outcome (readArguments [f]) b).1 with
  | some p => (outcome (step (.predicate p)) notes).1
  | none => do
    let _ ← Context.ofSource source
    throw .noMember

/-- Reads a filter and compiles the predicate. -/
def compile (c : Catalog) (default : Except Fault TextPolicy) (source : ContextSource) :
    Value → Builder → Notes → Except Fault Program :=
  use source (Node.compile c default source)

/-- Reads a filter and writes the predicate in canonical form. -/
def canonical (c : Catalog) (source : ContextSource) :
    Value → Builder → Notes → Except Fault Value :=
  use source (Node.toCanonical c source)

section

variable {c : Catalog} {default : Except Fault TextPolicy} {source : ContextSource} {f : Value}
  {b : Builder} {notes : Notes}

/-- Reading a filter without nodes builds its shape from new nodes. -/
theorem agrees_readPlain (hf : f.IsPlain) (b : Builder) :
    Agrees (fun p t b' => t = Predicate.conditionOf p ∧
        ∀ q, p = some q → IsRead Value.IsPlain b b' q) (readArguments [f]) b (shape f) := by
  have hagrees : Agrees (Built (fun b b' => FreshIn b.next b'.next) b) (readArguments [f]) b (shape f) :=
    agrees_read freshIn_growth f b (mentions_of_isPlain f hf)
  rcases hshape : shape f with fault | t
  · rw [hshape] at hagrees
    exact hagrees
  · rw [hshape] at hagrees
    obtain ⟨p, b', hread, rfl, hfresh⟩ := hagrees
    refine ⟨p, b', hread, rfl, ?_⟩
    rintro q rfl
    exact hfresh.isRead (fun _ hv => hv) (shape_isBuilt hereditary_isPlain f hf hshape)

/-- What using a filter comes to is settled by its shape, if this is so for new predicates. -/
theorem endAlike_use {α β : Type} {Q : α → β → Prop} {step : Node → Check α}
    {x : Condition → Except Fault β} (hf : f.IsPlain) (hblank : notes.Blank b.next)
    (habsent : x .absent = (do
      let _ ← Context.ofSource source
      throw .noMember))
    (hstep : ∀ p : Predicate, p.IsPlain → p.labels.Nodup → notes.On Note.Unmarked p.labels →
      EndAlike Eq Q (outcome (step (.predicate p)) notes).1 (x p.condition)) :
    EndAlike Eq Q (use source step f b notes) (do x (← shape f)) := by
  refine (agrees_readPlain hf b).endAlike.bind ?_
  rintro (- | p) t ⟨b', rfl, hread⟩
  · rw [Predicate.conditionOf, habsent]
    rcases Context.ofSource source with fault | context <;> exact .error rfl
  · have hp := hread p rfl
    exact hstep p hp.isPlain hp.nodup (hblank.on_unmarked fun id hid => (hp.range id hid).1)

/-- **Reading and compiling a filter comes to the test of its shape**, or to the same fault. -/
theorem endAlike_compile (hf : f.IsPlain) (hblank : notes.Blank b.next) :
    EndAlike Eq Predicate.RunsAs (compile c default source f b notes)
      (do Predicate.testOf c default source (← shape f)) := by
  refine endAlike_use hf hblank ?_ fun p hp hnodup hon => ?_
  · rw [Predicate.testOf]
    rcases Context.ofSource source <;> rfl
  · exact (Predicate.agrees_compile hp hnodup hon).endAlike.imp (fun _ _ h => h)
      fun _ _ ⟨_, hruns⟩ => hruns

/-- **Reading and writing a filter comes to the form of its shape**, or to the same fault. -/
theorem endAlike_canonical (hf : f.IsPlain) (hblank : notes.Blank b.next) :
    EndAlike Eq Eq (canonical c source f b notes) (do Predicate.formOf c source (← shape f)) := by
  refine endAlike_use hf hblank ?_ fun p hp hnodup hon => ?_
  · rw [Predicate.formOf]
    rcases Context.ofSource source <;> rfl
  · exact (Predicate.agrees_toCanonical hp hnodup hon).endAlike.imp (fun _ _ h => h)
      fun _ _ ⟨_, hsame⟩ => hsame

end

end Filter

end RecordFilter
