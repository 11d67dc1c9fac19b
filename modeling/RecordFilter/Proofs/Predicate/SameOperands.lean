import RecordFilter.Proofs.Predicate.Staleness

/-!
# Notes with the same operands

A node uses the operands in its note, and of these not the marks. Notes that hold the same operands
for all nodes of a predicate, whatever else they differ in, give the same function and the same
canonical form (`Predicate.compile_of_alikeOn`, `Predicate.canonical_of_alikeOn`). So a predicate is
used alike from two states when its validation leaves the same operands
(`Predicate.sameUse_of_alikeOn`).
-/

namespace RecordFilter

/-! ### Notes with the same operands -/

/-- The operands that a node uses of the note on it, without their marks. -/
def Note.operandsAt (note : Note) : Predicate → List (Option Expr)
  | .comparison .. => [note.left.map Expr.unmarked, note.right.map Expr.unmarked]
  | .quantified .. => [note.collection.map Expr.unmarked]
  | _ => []

/-- The notes hold the same operands for these nodes, but for marks. -/
def Notes.AlikeOn (nodes : List (Label × Predicate)) (a b : Notes) : Prop :=
  ∀ id q, (id, q) ∈ nodes → (b.note id).operandsAt q = (a.note id).operandsAt q

@[simp] theorem Note.operandsAt_markedFor (schema : Option EntityId) (note : Note) (q : Predicate) :
    (note.markedFor schema).operandsAt q = note.operandsAt q := by
  cases q <;> rfl

namespace Notes.AlikeOn

variable {nodes more : List (Label × Predicate)} {a a' b b' d : Notes} {id : Label} {q : Predicate}

theorem refl (nodes : List (Label × Predicate)) (a : Notes) : Notes.AlikeOn nodes a a :=
  fun _ _ _ => rfl

theorem symm (h : Notes.AlikeOn nodes a b) : Notes.AlikeOn nodes b a :=
  fun id q hq => (h id q hq).symm

theorem trans (hab : Notes.AlikeOn nodes a b) (hbd : Notes.AlikeOn nodes b d) :
    Notes.AlikeOn nodes a d :=
  fun id q hq => (hbd id q hq).trans (hab id q hq)

theorem of_note_eq (h : ∀ id ∈ nodes.map Prod.fst, b.note id = a.note id) :
    Notes.AlikeOn nodes a b := by
  intro id q hq
  rw [h id (List.mem_map_of_mem hq)]

/-- Notes that are the same on the nodes can stand in each other's place. -/
theorem congr (ha : ∀ id ∈ nodes.map Prod.fst, a'.note id = a.note id)
    (hb : ∀ id ∈ nodes.map Prod.fst, b'.note id = b.note id) :
    Notes.AlikeOn nodes a b ↔ Notes.AlikeOn nodes a' b' :=
  ⟨fun h => (of_note_eq ha).symm.trans (h.trans (of_note_eq hb)),
    fun h => (of_note_eq ha).trans (h.trans (of_note_eq hb).symm)⟩

theorem cons_iff : Notes.AlikeOn ((id, q) :: nodes) a b ↔
    (b.note id).operandsAt q = (a.note id).operandsAt q ∧ Notes.AlikeOn nodes a b := by
  constructor
  · exact fun h => ⟨h id q List.mem_cons_self, fun i r hr => h i r (List.mem_cons_of_mem _ hr)⟩
  · rintro ⟨hq, h⟩ i r hr
    rcases List.mem_cons.mp hr with hr | hr
    · cases hr
      exact hq
    · exact h i r hr

theorem append_iff : Notes.AlikeOn (nodes ++ more) a b ↔
    Notes.AlikeOn nodes a b ∧ Notes.AlikeOn more a b := by
  constructor
  · exact fun h => ⟨fun i r hr => h i r (List.mem_append_left _ hr),
      fun i r hr => h i r (List.mem_append_right _ hr)⟩
  · rintro ⟨h, h'⟩ i r hr
    rcases List.mem_append.mp hr with hr | hr
    · exact h i r hr
    · exact h' i r hr

/-- Marks make no difference. -/
theorem markedFor (nodes : List (Label × Predicate)) (a : Notes) (id : Label)
    (schema : Option EntityId) : Notes.AlikeOn nodes a (a.change id (Note.markedFor schema)) := by
  intro i q _
  by_cases hi : i = id
  · subst hi
    rw [Notes.note_change_self, Note.operandsAt_markedFor]
  · rw [Notes.note_change_ne a _ hi]

theorem marked_iff {schema : Option EntityId} {r : Except Fault Unit}
    (h : d = b ∨ r = .ok () ∧ d = b.change id (Note.markedFor schema)) :
    Notes.AlikeOn nodes a d ↔ Notes.AlikeOn nodes a b := by
  rcases h with rfl | ⟨-, rfl⟩
  · exact Iff.rfl
  · have hmark := markedFor nodes b id schema
    exact ⟨fun h => h.trans hmark.symm, fun h => h.trans hmark⟩

end Notes.AlikeOn

theorem Predicate.alikeOn_of_note_eq {p : Predicate} {a b : Notes}
    (h : ∀ id ∈ p.labels, b.note id = a.note id) : Notes.AlikeOn p.nodes a b := by
  apply Notes.AlikeOn.of_note_eq
  rw [Predicate.map_fst_nodes]
  exact h

/-! ### Uses of notes with the same operands -/

section

variable {c : Catalog} {context : Context} {a b : Option Expr}

theorem Expr.compileFound_unmarked (context : Context) (a : Option Expr) :
    Expr.compileFound context (a.map Expr.unmarked) = Expr.compileFound context a := by
  cases a
  · rfl
  · exact Expr.compile_unmarked context _

theorem Expr.compileFound_congr (h : a.map Expr.unmarked = b.map Expr.unmarked) :
    Expr.compileFound context a = Expr.compileFound context b := by
  rw [← Expr.compileFound_unmarked, h, Expr.compileFound_unmarked]

theorem Expr.entityFound_congr (h : a.map Expr.unmarked = b.map Expr.unmarked) :
    a.bind Expr.entity? = b.bind Expr.entity? := by
  have hbind : ∀ o : Option Expr, (o.map Expr.unmarked).bind Expr.entity? = o.bind Expr.entity? := by
    intro o
    cases o
    · rfl
    · exact Expr.entity?_unmarked _
  rw [← hbind, h, hbind]

/-- What is made of an operand that was found does not depend on its marks. -/
theorem Expr.found_bind_congr {α : Type} {f : Expr → Except Fault α} (hf : ∀ e, f e.unmarked = f e)
    (h : a.map Expr.unmarked = b.map Expr.unmarked) :
    (Expr.found a >>= f) = (Expr.found b >>= f) := by
  rcases a with - | l <;> rcases b with - | r
  · rfl
  · cases h
  · cases h
  · have hsame : l.unmarked = r.unmarked := Option.some.inj h
    change f l = f r
    rw [← hf l, hsame, hf r]

theorem compileComparison_congr {default : Except Fault TextPolicy} {op : Operator}
    {l l' r r' : Option Expr} (hl : l'.map Expr.unmarked = l.map Expr.unmarked)
    (hr : r'.map Expr.unmarked = r.map Expr.unmarked) :
    Predicate.compileComparison c default context op l' r' =
      Predicate.compileComparison c default context op l r := by
  have htype : ∀ l r : Option Expr,
      Predicate.comparedType (l.map Expr.unmarked) (r.map Expr.unmarked) =
        Predicate.comparedType l r := by
    intro l r
    cases l <;> cases r <;> simp [Predicate.comparedType]
  rw [Predicate.compileComparison, Predicate.compileComparison, ← htype, hl, hr, htype,
    Expr.compileFound_congr hl, Expr.compileFound_congr hr]

end

namespace Predicate

section

variable {c : Catalog} {default : Except Fault TextPolicy} {notes notes' : Notes}

mutual

/-- Notes with the same operands give the same function. -/
theorem compile_of_alikeOn : ∀ (p : Predicate) (context : Context), p.IsPlain →
    Notes.AlikeOn p.nodes notes notes' →
      p.compile c notes' default context = p.compile c notes default context
  | .passthrough .., _, _, _ => rfl
  | .unary _ _ operand, context, hp, h => by
    rw [compile, compile,
      compilePresent_of_alikeOn operand context hp.2 (Notes.AlikeOn.cons_iff.mp h).2]
  | .logical _ _ children, context, hp, h => by
    rw [compile, compile, compileAll_of_alikeOn children context hp.2 (Notes.AlikeOn.cons_iff.mp h).2]
  | .comparison id op left right, context, _, h => by
    obtain ⟨hl, hr⟩ := List.cons.inj (h id _ List.mem_cons_self)
    rw [compile, compile, compileComparison_congr hl (List.cons.inj hr).1]
  | .quantified id op collection body, context, hp, h => by
    obtain ⟨hnote, hbody⟩ := Notes.AlikeOn.cons_iff.mp h
    have hcollection := (List.cons.inj hnote).1
    rw [compile, compile, Expr.compileFound_congr hcollection, Expr.entityFound_congr hcollection,
      compilePresent_of_alikeOn body _ hp.2.2 hbody]
  | .bare _, _, hp, _ => hp.elim

theorem compilePresent_of_alikeOn : ∀ (p : Option Predicate) (context : Context), PlainOption p →
    Notes.AlikeOn (nodesOf p) notes notes' →
      compilePresent c notes' default context p = compilePresent c notes default context p
  | none, _, _, _ => rfl
  | some p, context, hp, h => compile_of_alikeOn p context hp h

theorem compileAll_of_alikeOn : ∀ (ps : List (Option Predicate)) (context : Context), PlainAll ps →
    Notes.AlikeOn (nodesAll ps) notes notes' →
      compileAll c notes' default context ps = compileAll c notes default context ps
  | [], _, _, _ => rfl
  | p :: ps, context, hp, h => by
    obtain ⟨hfirst, hrest⟩ := Notes.AlikeOn.append_iff.mp h
    rw [compileAll, compileAll, compilePresent_of_alikeOn p context hp.1 hfirst,
      compileAll_of_alikeOn ps context hp.2 hrest]

end

mutual

/-- Notes with the same operands give the same canonical form. -/
theorem canonical_of_alikeOn : ∀ (p : Predicate) (context : Context), p.IsPlain →
    Notes.AlikeOn p.nodes notes notes' → p.canonical c notes' context = p.canonical c notes context
  | .passthrough .., _, _, _ => rfl
  | .unary _ _ operand, context, hp, h => by
    rw [canonical, canonical,
      canonicalPresent_of_alikeOn operand context hp.2 (Notes.AlikeOn.cons_iff.mp h).2]
  | .logical _ _ children, context, hp, h => by
    rw [canonical, canonical,
      canonicalAll_of_alikeOn children context hp.2 (Notes.AlikeOn.cons_iff.mp h).2]
  | .comparison id op left right, context, _, h => by
    obtain ⟨hl, hr⟩ := List.cons.inj (h id _ List.mem_cons_self)
    rw [canonical, canonical, Expr.found_bind_congr ?_ hl]
    · refine bind_congr fun l => bind_congr fun form => Expr.found_bind_congr ?_ (List.cons.inj hr).1
      intro e
      rw [Expr.canonicalRight_unmarked]
    · intro e
      rw [Expr.canonical_unmarked]
  | .quantified id op collection body, context, hp, h => by
    obtain ⟨hnote, hbody⟩ := Notes.AlikeOn.cons_iff.mp h
    rw [canonical, canonical, Expr.found_bind_congr ?_ (List.cons.inj hnote).1]
    · refine bind_congr fun e => bind_congr fun form => ?_
      rw [canonicalPresent_of_alikeOn body _ hp.2.2 hbody]
    · intro e
      rw [Expr.canonical_unmarked, Expr.entity?_unmarked]
  | .bare _, _, hp, _ => hp.elim

theorem canonicalPresent_of_alikeOn : ∀ (p : Option Predicate) (context : Context), PlainOption p →
    Notes.AlikeOn (nodesOf p) notes notes' →
      canonicalPresent c notes' context p = canonicalPresent c notes context p
  | none, _, _, _ => rfl
  | some p, context, hp, h => canonical_of_alikeOn p context hp h

theorem canonicalAll_of_alikeOn : ∀ (ps : List (Option Predicate)) (context : Context), PlainAll ps →
    Notes.AlikeOn (nodesAll ps) notes notes' →
      canonicalAll c notes' context ps = canonicalAll c notes context ps
  | [], _, _, _ => rfl
  | p :: ps, context, hp, h => by
    obtain ⟨hfirst, hrest⟩ := Notes.AlikeOn.append_iff.mp h
    rw [canonicalAll, canonicalAll, canonicalPresent_of_alikeOn p context hp.1 hfirst,
      canonicalAll_of_alikeOn ps context hp.2 hrest]

end

end

end Predicate

/-! ### Uses of a predicate -/

section

variable {c : Catalog} {default : Except Fault TextPolicy} {source : ContextSource} {p : Predicate}
  {notes notes' start start' : Notes}

/-- A run of a compiled predicate gives what the function gives that was found when it was
compiled. -/
theorem Program.outcome_run_of_plain {context : Context} {now : Notes} {record : Value}
    (hp : p.IsPlain) (h : notes.On Note.IsPlain p.labels) (current : Catalog) :
    (outcome (Program.run current
      { node := .predicate p, context, catalog := c, notes, default } record) now).1 =
      ((Node.predicate p).function c notes default context >>= fun f => f record) := by
  have hnode : (Node.predicate p).refreshed current now = .predicate p :=
    congrArg Node.predicate (Predicate.refreshed_of_isPlain current now p hp)
  -- the notes that the run sees are the same on the nodes of the predicate
  have hsame : Notes.AlikeOn p.nodes notes (now.shownBy current notes) :=
    Predicate.alikeOn_of_note_eq fun id hid => Notes.note_shownBy current notes now (h id hid)
  rw [Program.run, outcome_bind_of_ok outcome_get, outcome_bind_of_ok (outcome_modify _),
    outcome_lift]
  dsimp only [Program.refreshed, Program.result]
  rw [hnode, Node.function, Node.function, Predicate.compile_of_alikeOn p context hp hsame]

/-- A predicate is used alike from two states when its validation leaves the same operands. -/
theorem Predicate.sameUse_of_alikeOn {context : Context} (hp : p.IsPlain)
    (hsource : Context.ofSource source = .ok context)
    (hvalidate : outcome ((Node.predicate p).validate c context.schema) notes = (.ok (), notes'))
    (hvalidate' : outcome ((Node.predicate p).validate c context.schema) start = (.ok (), start'))
    (hplain : notes'.On Note.IsPlain p.labels) (hplain' : start'.On Note.IsPlain p.labels)
    (hsame : Notes.AlikeOn p.nodes notes' start') : SameUse c source p p notes start where
  compile {default program notes''} h := by
    obtain ⟨context', f, hcontext, hvalidate'', hf, rfl⟩ := Node.compile_ok_iff.mp h
    cases hsource.symm.trans hcontext
    cases hvalidate.symm.trans hvalidate''
    have hfunction : (Node.predicate p).function c start' default context = .ok f := by
      rw [← hf, Node.function, Node.function, compile_of_alikeOn p context hp hsame]
    refine ⟨_, start', Node.compile_ok_iff.mpr ⟨context, f, hsource, hvalidate', hfunction, rfl⟩, ?_⟩
    intro record current now current' now'
    rw [Program.outcome_run_of_plain hp hplain, Program.outcome_run_of_plain hp hplain', hf, hfunction]
  toCanonical {v notes''} h := by
    obtain ⟨context', hcontext, hvalidate'', hv⟩ := Node.toCanonical_ok_iff.mp h
    cases hsource.symm.trans hcontext
    cases hvalidate.symm.trans hvalidate''
    refine ⟨start', Node.toCanonical_ok_iff.mpr ⟨context, hsource, hvalidate', ?_⟩⟩
    rw [canonical_of_alikeOn p context hp hsame, hv]

end

end RecordFilter
