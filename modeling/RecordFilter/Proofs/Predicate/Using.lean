import RecordFilter.Proofs.Predicate.Checking

/-!
# Using plain predicates

A predicate is used in a context: the context is brought into form, the predicate is checked against
its schema, and then it is compiled or written. When notes hold the resolved condition of a plain
predicate (`Predicate.HeldBy`), both uses depend on that condition alone, and so does every run of
the compiled predicate, at whatever time it takes place (`Program.outcome_run`).
-/

namespace RecordFilter

/-! ### Plain predicates stay as they are -/

section

variable (c : Catalog) (notes : Notes)

mutual

theorem Predicate.refreshed_of_isPlain : ∀ p : Predicate, p.IsPlain → p.refreshed c notes = p
  | .passthrough id text, h => by
    simp only [Predicate.refreshed, Value.refreshed_of_isPlain c notes text h]
  | .unary id op operand, h => by
    simp only [Predicate.refreshed, Operator.refreshed_of_isPlain c notes op h.1,
      Predicate.refreshedOption_of_plain operand h.2]
  | .logical id op children, h => by
    simp only [Predicate.refreshed, Operator.refreshed_of_isPlain c notes op h.1,
      Predicate.refreshedAll_of_plain children h.2]
  | .comparison id op left right, h => by
    simp only [Predicate.refreshed, Operator.refreshed_of_isPlain c notes op h.1,
      Value.refreshed_of_isPlain c notes left h.2.1, Value.refreshed_of_isPlain c notes right h.2.2]
  | .quantified id op collection body, h => by
    simp only [Predicate.refreshed, Operator.refreshed_of_isPlain c notes op h.1,
      Value.refreshed_of_isPlain c notes collection h.2.1,
      Predicate.refreshedOption_of_plain body h.2.2]
  | .bare _, h => h.elim

theorem Predicate.refreshedOption_of_plain :
    ∀ p : Option Predicate, Predicate.PlainOption p → Predicate.refreshedOption c notes p = p
  | none, _ => rfl
  | some p, h => congrArg some (Predicate.refreshed_of_isPlain p h)

theorem Predicate.refreshedAll_of_plain :
    ∀ ps : List (Option Predicate), Predicate.PlainAll ps → Predicate.refreshedAll c notes ps = ps
  | [], _ => rfl
  | p :: ps, h => by
    simp only [Predicate.refreshedAll, Predicate.refreshedOption_of_plain p h.1,
      Predicate.refreshedAll_of_plain ps h.2]

end

end

/-! ### Notes that hold a resolved condition -/

/-- The notes hold the operands of a predicate, which are plain and make it a resolved condition. -/
structure Predicate.HeldBy (p : Predicate) (notes : Notes) (t : Resolved) : Prop where
  resolvedIn : p.resolvedIn notes = some t
  plain : notes.On Note.IsPlain p.labels

namespace Predicate.HeldBy

variable {p : Predicate} {notes notes' : Notes} {t : Resolved}

theorem congr (h : p.HeldBy notes t) (hsame : ∀ id ∈ p.labels, notes'.note id = notes.note id) :
    p.HeldBy notes' t where
  resolvedIn := (Predicate.resolvedIn_congr p hsame).trans h.resolvedIn
  plain := h.plain.congr hsame

theorem refreshed (c : Catalog) (h : p.HeldBy notes t) : p.HeldBy (notes.refreshed c) t :=
  h.congr fun id hid => Notes.note_refreshed c notes (h.plain id hid)

theorem shownBy (c : Catalog) (current : Notes) (h : p.HeldBy notes t) :
    p.HeldBy (current.shownBy c notes) t :=
  h.congr fun id hid => Notes.note_shownBy c notes current (h.plain id hid)

end Predicate.HeldBy

/-! ### Validating -/

section

variable {c : Catalog} {default : Except Fault TextPolicy} {source : ContextSource} {n : Node}
  {p : Predicate} {schema : Option EntityId} {notes notes' : Notes}

theorem Check.outcome_settled {α : Type} (step : Check α) :
    outcome (Check.settled c step) notes =
      ((outcome step notes).1, (outcome step notes).2.refreshed c) := rfl

theorem Node.validate_ok_iff :
    outcome (n.validate c schema) notes = (.ok (), notes') ↔
      ∃ middle, outcome (n.check c schema) notes = (.ok (), middle) ∧
        notes' = middle.refreshed c := by
  rw [Node.validate, Check.outcome_settled]
  rcases outcome (n.check c schema) notes with ⟨r, middle⟩
  simp only [Prod.mk.injEq]
  constructor
  · rintro ⟨rfl, rfl⟩
    exact ⟨middle, ⟨rfl, rfl⟩, rfl⟩
  · rintro ⟨_, ⟨rfl, rfl⟩, rfl⟩
    exact ⟨rfl, rfl⟩

theorem Node.inContext_ok_iff {α : Type} {use : Context → Check α} {a : α} :
    outcome (n.inContext c source use) notes = (.ok a, notes') ↔
      ∃ context middle, Context.ofSource source = .ok context ∧
        outcome (n.validate c context.schema) notes = (.ok (), middle) ∧
        outcome (use context) middle = (.ok a, notes') := by
  rw [Node.inContext]
  rcases e : Context.ofSource source with f | context
  · rw [outcome_bind_of_error (outcome_lift _)]
    simp
  · rw [outcome_bind_of_ok (outcome_lift _), outcome_bind_eq_ok_iff]
    constructor
    · rintro ⟨⟨⟩, middle, hvalidate, huse⟩
      exact ⟨context, middle, rfl, hvalidate, huse⟩
    · rintro ⟨_, middle, heq, hvalidate, huse⟩
      cases heq
      exact ⟨(), middle, hvalidate, huse⟩

/-! ### Compiling and writing -/

theorem Node.refuse_ne_ok {α : Type} (fault : Fault) (a : α) :
    outcome (n.refuse c fault : Check α) notes ≠ (.ok a, notes') := by
  intro h
  unfold Node.refuse at h
  split at h
  · split at h
    · obtain ⟨v, _, -, h⟩ := outcome_bind_eq_ok_iff.mp h
      obtain ⟨text, _, -, h⟩ := outcome_bind_eq_ok_iff.mp h
      cases h
    · cases h
  · cases h

theorem Node.compile_ok_iff {program : Program} :
    outcome (n.compile c default source) notes = (.ok program, notes') ↔
      ∃ context f, Context.ofSource source = .ok context ∧
        outcome (n.validate c context.schema) notes = (.ok (), notes') ∧
        n.function c notes' default context = .ok f ∧
        program = { node := n, context, catalog := c, notes := notes', default } := by
  refine Node.inContext_ok_iff.trans (exists_congr fun context => ?_)
  constructor
  · rintro ⟨middle, hcontext, hvalidate, huse⟩
    rw [outcome_bind_of_ok outcome_get] at huse
    rcases e : n.function c middle default context with fault | f
    · rw [e] at huse
      have hrefuse : (outcome (n.refuse c fault : Check Program) middle).1 = .ok program :=
        congrArg Prod.fst huse
      exact (Node.refuse_ne_ok fault program (Prod.ext hrefuse rfl)).elim
    · rw [e] at huse
      cases huse
      exact ⟨f, hcontext, hvalidate, e, rfl⟩
  · rintro ⟨f, hcontext, hvalidate, hf, rfl⟩
    refine ⟨notes', hcontext, hvalidate, ?_⟩
    rw [outcome_bind_of_ok outcome_get, hf]
    rfl

theorem Node.toCanonical_ok_iff {v : Value} :
    outcome ((Node.predicate p).toCanonical c source) notes = (.ok v, notes') ↔
      ∃ context, Context.ofSource source = .ok context ∧
        outcome ((Node.predicate p).validate c context.schema) notes = (.ok (), notes') ∧
        p.canonical c notes' context = .ok v := by
  refine Node.inContext_ok_iff.trans (exists_congr fun context => ?_)
  constructor
  · rintro ⟨middle, hcontext, hvalidate, huse⟩
    have htell : outcome ((Node.predicate p).tellArguments c) middle = (.ok (), middle) := rfl
    rw [outcome_bind_of_ok htell, outcome_bind_of_ok outcome_get, outcome_lift] at huse
    obtain ⟨hv, rfl⟩ := Prod.mk.inj huse
    exact ⟨hcontext, hvalidate, hv⟩
  · rintro ⟨hcontext, hvalidate, hv⟩
    refine ⟨notes', hcontext, hvalidate, ?_⟩
    have htell : outcome ((Node.predicate p).tellArguments c) notes' = (.ok (), notes') := rfl
    rw [outcome_bind_of_ok htell, outcome_bind_of_ok outcome_get, outcome_lift]
    exact Prod.ext hv rfl

/-! ### Running -/

theorem Node.function_predicate {t : Resolved} {context : Context}
    (h : p.HeldBy notes t) :
    (Node.predicate p).function c notes default context =
      (t.compile c default context).map fun test record => (test record).map Value.bool := by
  rw [Node.function, Predicate.compile_of_resolvedIn c notes default context p h.resolvedIn]
  rcases t.compile c default context with f | test <;> rfl

/-- The result of a run of a resolved condition. -/
def Resolved.run (c : Catalog) (default : Except Fault TextPolicy) (context : Context)
    (record : Value) (t : Resolved) : Except Fault Value := do
  let test ← t.compile c default context
  (test record).map Value.bool

/-- **A run of a compiled predicate depends on its resolved condition alone**, and not on what has
become known since then. -/
theorem Program.outcome_run {t : Resolved} {context : Context} {now : Notes} {record : Value}
    (hp : p.IsPlain) (h : p.HeldBy notes t) (current : Catalog) :
    (outcome (Program.run current
      { node := .predicate p, context, catalog := c, notes, default } record) now).1 =
      t.run c default context record := by
  have hnode : (Node.predicate p).refreshed current now = .predicate p :=
    congrArg Node.predicate (Predicate.refreshed_of_isPlain current now p hp)
  rw [Program.run, outcome_bind_of_ok outcome_get, outcome_bind_of_ok (outcome_modify _),
    outcome_lift]
  dsimp only [Program.refreshed, Program.result]
  rw [hnode, Node.function_predicate (h.shownBy current now), Resolved.run]
  rcases t.compile c default context with f | test <;> rfl

end

/-! ### Predicates that are ready for use -/

/-- A predicate has the resolved condition `t` under a schema, the notes hold it, and checking the
predicate under the schema once more will change nothing about that. -/
structure Predicate.Ready (p : Predicate) (c : Catalog) (schema : Option EntityId) (notes : Notes)
    (t : Resolved) : Prop where
  resolve : p.condition.resolve c schema = .ok t
  held : p.HeldBy notes t
  again : (∃ id ∈ p.labels, p.label = some id ∧ Check.Skips schema id notes) ∨
    schema = none ∧ p.labels.Nodup ∧ notes.On Note.Unmarked p.labels

section

variable {c : Catalog} {default : Except Fault TextPolicy} {source : ContextSource}
  {p : Predicate} {schema : Option EntityId} {notes notes' : Notes} {t : Resolved}

theorem Predicate.exists_label (hp : p.IsPlain) : ∃ id ∈ p.labels, p.label = some id := by
  cases p
  case bare => exact hp.elim
  all_goals exact ⟨_, List.mem_cons_self, rfl⟩

/-- The check of a plain predicate is a step that is taken once. -/
theorem Predicate.check_eq_once (c : Catalog) (schema : Option EntityId) {id : Label}
    (hp : p.IsPlain) (hid : p.label = some id) :
    ∃ step, Predicate.check c schema p = Check.once schema id step := by
  cases p
  case bare => exact hp.elim
  case quantified op _ _ =>
    cases hid
    obtain ⟨key, aliases, isFunction⟩ := op
    exact ⟨_, rfl⟩
  all_goals
    cases hid
    exact ⟨_, rfl⟩

theorem Predicate.check_of_skips {id : Label} (hp : p.IsPlain) (hid : p.label = some id)
    (h : Check.Skips schema id notes) :
    outcome (Predicate.check c schema p) notes = (.ok (), notes) := by
  obtain ⟨step, hstep⟩ := Predicate.check_eq_once c schema hp hid
  rw [hstep]
  exact Check.once_ok_iff.mpr (.inl ⟨h, rfl⟩)

/-- A checked predicate bears the mark of the schema. -/
theorem Predicate.checked_of_check {id : Label} (hp : p.IsPlain) (hid : p.label = some id)
    (h : outcome (Predicate.check c schema p) notes = (.ok (), notes')) :
    (notes'.note id).checked = schema := by
  obtain ⟨step, hstep⟩ := Predicate.check_eq_once c schema hp hid
  rw [hstep] at h
  rcases Check.once_ok_iff.mp h with ⟨hskip, rfl⟩ | ⟨-, middle, -, rfl⟩
  · exact hskip.2
  · rw [Notes.note_change_self]
    rfl

theorem Notes.On.refreshed {P : Note → Prop} {ids : List Label} (h : notes.On P ids)
    (hP : ∀ note, P note → note.IsPlain) : (notes.refreshed c).On P ids :=
  h.congr fun id hid => Notes.note_refreshed c notes (hP _ (h id hid))

/-- A valid predicate without marks has become ready for use. -/
theorem Predicate.ready_of_validate (hp : p.IsPlain) (hnodup : p.labels.Nodup)
    (hon : notes.On Note.Unmarked p.labels)
    (h : outcome ((Node.predicate p).validate c schema) notes = (.ok (), notes')) :
    ∃ t, p.Ready c schema notes' t := by
  obtain ⟨middle, hcheck, rfl⟩ := Node.validate_ok_iff.mp h
  obtain ⟨hfits, t, ht, hin⟩ := Predicate.resolvedIn_of_check p hp hnodup hon hcheck
  have hheld : p.HeldBy middle t := ⟨hin, hfits.imp fun _ hn => hn.plain⟩
  refine ⟨t, ht, hheld.refreshed c, ?_⟩
  rcases schema with - | entity
  · exact .inr ⟨rfl, hnodup, hfits.refreshed fun _ hn => hn.plain⟩
  · obtain ⟨id, hmem, hid⟩ := Predicate.exists_label hp
    refine .inl ⟨id, hmem, hid, rfl, ?_⟩
    rw [Notes.note_refreshed c middle (hheld.plain id hmem)]
    exact Predicate.checked_of_check hp hid hcheck

/-- A predicate without marks whose condition can be resolved is valid. -/
theorem Predicate.validate_of_resolve (notes : Notes) (hp : p.IsPlain) (hnodup : p.labels.Nodup)
    (hon : notes.On Note.Unmarked p.labels) (ht : p.condition.resolve c schema = .ok t) :
    ∃ notes', outcome ((Node.predicate p).validate c schema) notes = (.ok (), notes') ∧
      p.Ready c schema notes' t := by
  obtain ⟨middle, hcheck⟩ := Predicate.check_ok_of_resolve p notes hp ht
  have hvalidate : outcome ((Node.predicate p).validate c schema) notes =
      (.ok (), middle.refreshed c) := Node.validate_ok_iff.mpr ⟨middle, hcheck, rfl⟩
  obtain ⟨u, hready⟩ := Predicate.ready_of_validate hp hnodup hon hvalidate
  have htu : t = u := Except.ok.inj (ht.symm.trans hready.resolve)
  exact ⟨_, hvalidate, htu ▸ hready⟩

/-- A predicate that is ready for use stays so when it is validated again. -/
theorem Predicate.Ready.validate (hp : p.IsPlain) (h : p.Ready c schema notes t) :
    ∃ notes', outcome ((Node.predicate p).validate c schema) notes = (.ok (), notes') ∧
      p.Ready c schema notes' t := by
  rcases h.again with ⟨id, hmem, hid, hskip⟩ | ⟨-, hnodup, hon⟩
  · refine ⟨_, Node.validate_ok_iff.mpr ⟨notes, Predicate.check_of_skips hp hid hskip, rfl⟩,
      h.resolve, h.held.refreshed c, .inl ⟨id, hmem, hid, hskip.1, ?_⟩⟩
    rw [Notes.note_refreshed c notes (h.held.plain id hmem)]
    exact hskip.2
  · exact Predicate.validate_of_resolve notes hp hnodup hon h.resolve

/-- What compiling a predicate gives when it validates: its function on records, if it has one. -/
theorem Predicate.compile_of_ready {context : Context} {f : Predicate.Test}
    (hsource : Context.ofSource source = .ok context)
    (hvalidate : outcome ((Node.predicate p).validate c context.schema) notes = (.ok (), notes'))
    (h : p.HeldBy notes' t) (hf : t.compile c default context = .ok f) :
    outcome ((Node.predicate p).compile c default source) notes =
      (.ok { node := .predicate p, context, catalog := c, notes := notes', default }, notes') := by
  have hfunction : (Node.predicate p).function c notes' default context =
      .ok fun record => (f record).map Value.bool := by
    rw [Node.function_predicate h, hf]
    rfl
  exact Node.compile_ok_iff.mpr ⟨context, _, hsource, hvalidate, hfunction, rfl⟩

/-- A predicate that compiles has a function on records. -/
theorem Predicate.compile_ok {program : Program}
    (h : outcome ((Node.predicate p).compile c default source) notes = (.ok program, notes')) :
    ∃ context, Context.ofSource source = .ok context ∧
      outcome ((Node.predicate p).validate c context.schema) notes = (.ok (), notes') ∧
      program = { node := .predicate p, context, catalog := c, notes := notes', default } ∧
      ∀ t, p.HeldBy notes' t → ∃ f, t.compile c default context = .ok f := by
  obtain ⟨context, f, hsource, hvalidate, hf, rfl⟩ := Node.compile_ok_iff.mp h
  refine ⟨context, hsource, hvalidate, rfl, fun t ht => ?_⟩
  rw [Node.function_predicate ht] at hf
  rcases e : t.compile c default context with fault | test
  · rw [e] at hf
    cases hf
  · exact ⟨test, rfl⟩

/-- Validating a predicate leaves no trace outside of it. -/
theorem Node.note_validate {id : Label} (hp : p.IsPlain)
    (h : outcome ((Node.predicate p).validate c schema) notes = (.ok (), notes'))
    (hid : id ∉ p.labels) (hplain : (notes.note id).IsPlain) : notes'.note id = notes.note id := by
  obtain ⟨middle, hcheck, rfl⟩ := Node.validate_ok_iff.mp h
  have hsame : middle.note id = notes.note id := Predicate.check_frame p hp hcheck id hid
  rw [Notes.note_refreshed c middle (hsame ▸ hplain), hsame]

theorem Predicate.Ready.congr (h : p.Ready c schema notes t)
    (hsame : ∀ id ∈ p.labels, notes'.note id = notes.note id) : p.Ready c schema notes' t where
  resolve := h.resolve
  held := h.held.congr hsame
  again := by
    rcases h.again with ⟨id, hmem, hid, hskip⟩ | ⟨hschema, hnodup, hon⟩
    · exact .inl ⟨id, hmem, hid, hskip.1, by rw [hsame id hmem]; exact hskip.2⟩
    · exact .inr ⟨hschema, hnodup, hon.congr hsame⟩

/-- Validating one predicate leaves another one ready for use. -/
theorem Predicate.Ready.validate_other {q : Predicate} {other : Option EntityId} (hq : q.IsPlain)
    (h : p.Ready c schema notes t)
    (hvalidate : outcome ((Node.predicate q).validate c other) notes = (.ok (), notes'))
    (hdisjoint : ∀ id ∈ p.labels, id ∉ q.labels) : p.Ready c schema notes' t :=
  h.congr fun id hid => Node.note_validate hq hvalidate (hdisjoint id hid) (h.held.plain id hid)

/-! ### Notes on nodes that are yet to be built -/

/-- Nothing is known about nodes with labels from `n` on. -/
def Notes.Blank (notes : Notes) (n : Label) : Prop :=
  ∀ id : Nat, n ≤ id → notes.note id = {}

theorem Notes.Blank.mono {n m : Nat} (h : notes.Blank n) (hle : n ≤ m) : notes.Blank m :=
  fun id hid => h id (Nat.le_trans hle hid)

theorem Notes.Blank.on_unmarked {n : Nat} (h : notes.Blank n) {ids : List Label}
    (hids : ∀ id : Nat, id ∈ ids → n ≤ id) : notes.On Note.Unmarked ids := by
  intro id hid
  rw [h id (hids id hid)]
  exact Note.unmarked_default

/-- Validating a predicate leaves no trace at nodes that are yet to be built. -/
theorem Notes.Blank.validate {n : Nat} (hblank : notes.Blank n) (hp : p.IsPlain)
    (hlabels : ∀ id : Nat, id ∈ p.labels → id < n)
    (h : outcome ((Node.predicate p).validate c schema) notes = (.ok (), notes')) :
    notes'.Blank n := by
  intro id hid
  have hout : id ∉ p.labels := fun hmem => absurd (hlabels id hmem) (Nat.not_lt.mpr hid)
  have hplain : (notes.note id).IsPlain := by
    rw [hblank id hid]
    exact Note.isPlain_default
  rw [Node.note_validate hp h hout hplain, hblank id hid]

/-! ### Predicates that are valid -/

/-- Validating the predicate succeeds and makes it ready for use. -/
def Predicate.Validates (p : Predicate) (c : Catalog) (schema : Option EntityId) (notes : Notes)
    (t : Resolved) : Prop :=
  ∃ notes', outcome ((Node.predicate p).validate c schema) notes = (.ok (), notes') ∧
    p.Ready c schema notes' t

/-- A valid predicate compiles if its resolved condition does. -/
theorem Predicate.Validates.compile_iff {context : Context}
    (h : p.Validates c context.schema notes t) (hsource : Context.ofSource source = .ok context) :
    (∃ program notes', outcome ((Node.predicate p).compile c default source) notes =
      (.ok program, notes')) ↔ ∃ f, t.compile c default context = .ok f := by
  obtain ⟨notes₁, hvalidate, hready⟩ := h
  constructor
  · rintro ⟨program, notes', hcompile⟩
    obtain ⟨context', hcontext, hvalidate', -, hf⟩ := Predicate.compile_ok hcompile
    rw [hsource] at hcontext
    cases hcontext
    rw [hvalidate] at hvalidate'
    cases hvalidate'
    exact hf t hready.held
  · rintro ⟨f, hf⟩
    exact ⟨_, _, Predicate.compile_of_ready hsource hvalidate hready.held hf⟩

/-! ### Programs on records -/

/-- A run of the program on the record gives this value, at whatever time it takes place. -/
def Program.Returns (program : Program) (record v : Value) : Prop :=
  ∀ current now, (outcome (program.run current record) now).1 = .ok v

/-- What a compiled predicate gives on a record is what the function of its resolved condition
gives. -/
theorem Predicate.Validates.program {context : Context} (hp : p.IsPlain)
    (h : p.Validates c context.schema notes t) (hsource : Context.ofSource source = .ok context)
    {program : Program}
    (hcompile : outcome ((Node.predicate p).compile c default source) notes = (.ok program, notes')) :
    ∃ f, t.compile c default context = .ok f ∧ p.Ready c context.schema notes' t ∧
      program = { node := .predicate p, context, catalog := c, notes := notes', default } ∧
        ∀ record x, f record = .ok x → program.Returns record (.bool x) := by
  obtain ⟨notes₁, hvalidate, hready⟩ := h
  obtain ⟨context', hcontext, hvalidate', rfl, hf⟩ := Predicate.compile_ok hcompile
  rw [hsource] at hcontext
  cases hcontext
  rw [hvalidate] at hvalidate'
  cases hvalidate'
  obtain ⟨f, hf⟩ := hf t hready.held
  refine ⟨f, hf, hready, rfl, fun record x hx current now => ?_⟩
  rw [Program.outcome_run hp hready.held, Resolved.run, hf, ok_bind, hx]
  rfl

end

end RecordFilter
