import Mathlib.Algebra.Order.Group.Multiset
import RecordFilter.Proofs.Predicate.Meaning
import RecordFilter.Proofs.Predicate.Rereading
import RecordFilter.Proofs.Predicate.Using

/-!
# Round trips of predicates

A predicate that is written in canonical form can be read again, and the predicate that is read gives
the same on every quiet record. Without a schema this holds of predicates over JSON values
(`Predicate.bare_round_trip`). When the types of literals are spelled out it holds of predicates over
paths under every schema, and each comparison is kept as it is (`Predicate.explicit_round_trip`).
-/

namespace RecordFilter

/-- On the record no comparison of the compiled predicate fails, and every collection is a list or
absent. -/
def Program.IsQuiet (program : Program) (record : Value) : Prop :=
  ∃ p t, program.node = .predicate p ∧ p.resolvedIn program.notes = some t ∧
    t.IsQuiet program.catalog program.default program.context record

section

variable {c : Catalog} {default : Except Fault TextPolicy} {source : ContextSource}
  {context : Context} {p q : Predicate} {notes notes' : Notes} {t u : Resolved}

/-- Two compiled predicates of one meaning give the same on every record that is quiet for one. -/
theorem Predicate.returns_of_meaning (hp : p.IsPlain) (hq : q.IsPlain)
    (hpvalid : p.Validates c context.schema notes t) (hqvalid : q.Validates c context.schema notes' u)
    (hmeaning : u.meaning c default = t.meaning c default)
    (hsource : Context.ofSource source = .ok context) {program program' : Program} {n n' : Notes}
    (hcompile : outcome ((Node.predicate p).compile c default source) notes = (.ok program, n))
    (hcompile' : outcome ((Node.predicate q).compile c default source) notes' = (.ok program', n'))
    {record : Value} (hquiet : program.IsQuiet record) :
    ∃ x, program.Returns record (.bool x) ∧ program'.Returns record (.bool x) := by
  obtain ⟨f, hf, hready, rfl, hreturns⟩ := hpvalid.program hp hsource hcompile
  obtain ⟨g, hg, -, -, hreturns'⟩ := hqvalid.program hq hsource hcompile'
  have hquiet : t.IsQuiet c default context record := by
    obtain ⟨p', t', hnode, ht', hquiet⟩ := hquiet
    cases hnode
    have hsame := hready.held.resolvedIn
    rw [ht'] at hsame
    cases hsame
    exact hquiet
  obtain ⟨x, hx, hy⟩ := Resolved.apply_of_isQuiet hmeaning hf hg hquiet
  exact ⟨x, hreturns record x hx, hreturns' record x hy⟩

/-! ### Writing and reading -/

/-- A valid predicate is written as what was found out about it. -/
theorem Predicate.Validates.toCanonical {v : Value} (h : p.Validates c context.schema notes t)
    (hsource : Context.ofSource source = .ok context) (hv : t.canonical c context = .ok v) :
    ∃ notes₁, outcome ((Node.predicate p).validate c context.schema) notes = (.ok (), notes₁) ∧
      outcome ((Node.predicate p).toCanonical c source) notes = (.ok v, notes₁) ∧
        p.Ready c context.schema notes₁ t := by
  obtain ⟨notes₁, hvalidate, hready⟩ := h
  refine ⟨notes₁, hvalidate, ?_, hready⟩
  refine Node.toCanonical_ok_iff.mpr ⟨context, hsource, hvalidate, ?_⟩
  rw [Predicate.canonical_of_resolvedIn c notes₁ context p hready.held.resolvedIn, hv]

/-- After a predicate that is ready for use is written, a value that is read as a predicate whose
operands can be resolved, such as the canonical form, is read as one that consists of new nodes and is
valid. -/
theorem Predicate.Ready.validates_written {b b₁ : Builder} {v w : Value} (hp : p.IsPlain)
    (hready : p.Ready c context.schema notes t) (hsource : Context.ofSource source = .ok context)
    (hv : t.canonical c context = .ok v) (hplain : w.IsPlain)
    (hread : outcome (Filter.readArguments [w]) b = (.ok (some q), b₁))
    (hu : q.condition.resolve c context.schema = .ok u) (hblank : notes.Blank b.next)
    (hlabels : ∀ id : Nat, id ∈ p.labels → id < b.next) :
    ∃ notes₁, outcome ((Node.predicate p).toCanonical c source) notes = (.ok v, notes₁) ∧
      p.Ready c context.schema notes₁ t ∧ q.Validates c context.schema notes₁ u ∧ q.IsPlain ∧
        ∀ id ∈ p.labels, id ∉ q.labels := by
  have hvalid : p.Validates c context.schema notes t := hready.validate hp
  obtain ⟨notes₁, hvalidate, hcanonical, hready₁⟩ := hvalid.toCanonical hsource hv
  obtain ⟨-, hq⟩ := Filter.read_ok Filter.hereditary_isPlain (fun _ h => h) hplain hread
  have hblank₁ : notes₁.Blank b.next := hblank.validate hp hlabels hvalidate
  refine ⟨notes₁, hcanonical, hready₁, ?_, hq.isPlain, ?_⟩
  · exact Predicate.validate_of_resolve _ hq.isPlain hq.nodup
      (hblank₁.on_unmarked fun id hid => (hq.range id hid).1) hu
  · intro id hid hmem
    exact absurd (hlabels id hid) (Nat.not_lt.mpr (hq.range id hmem).1)

/-- A predicate that is ready for use is written in a form that is read as a predicate of the same
value in every algebra, if its operands can be read again. -/
theorem Predicate.Ready.read_canonical {b : Builder} (hp : p.IsPlain)
    (hready : p.Ready c context.schema notes t) (hsource : Context.ofSource source = .ok context)
    (hagain : t.IsRereadable c context) (hblank : notes.Blank b.next)
    (hlabels : ∀ id : Nat, id ∈ p.labels → id < b.next) :
    ∃ v notes₁ q b₁ u,
      outcome ((Node.predicate p).toCanonical c source) notes = (.ok v, notes₁) ∧
        outcome (Filter.readArguments [v]) b = (.ok (some q), b₁) ∧
          p.Ready c context.schema notes₁ t ∧ q.Validates c context.schema notes₁ u ∧
            q.IsPlain ∧ (∀ id ∈ p.labels, id ∉ q.labels) ∧
              ∀ {M : Type} [AddCommMonoid M] (alg : Algebra M), u.fold alg = t.fold alg := by
  obtain ⟨v, q, b₁, u, hv, hplain, hread, hu, hfold⟩ := Resolved.read_canonical hagain b
  obtain ⟨notes₁, hwritten, hready₁, hvalid, hq, hdisjoint⟩ :=
    hready.validates_written hp hsource hv hplain hread hu hblank hlabels
  exact ⟨v, notes₁, q, b₁, u, hwritten, hread, hready₁, hvalid, hq, hdisjoint, hfold⟩

/-- A predicate that was read and then found valid is ready for use. -/
theorem Predicate.ready_of_read {V : Value → Prop} {schema : Option EntityId} {f : Value}
    {b b₁ : Builder} {notes₁ : Notes} (hV : Filter.Hereditary V) (hplain : ∀ v, V v → v.IsPlain)
    (hf : V f) (hread : outcome (Filter.readArguments [f]) b = (.ok (some p), b₁))
    (hblank : notes.Blank b.next)
    (hvalidate : outcome ((Node.predicate p).validate c schema) notes = (.ok (), notes₁)) :
    Filter.IsRead V b b₁ p ∧ notes₁.Blank b₁.next ∧
      ∃ t, p.Ready c schema notes₁ t ∧ p.Validates c schema notes t := by
  obtain ⟨-, hp⟩ := Filter.read_ok hV hplain hf hread
  have hon : notes.On Note.Unmarked p.labels :=
    hblank.on_unmarked fun id hid => (hp.range id hid).1
  obtain ⟨t, hready⟩ := Predicate.ready_of_validate hp.isPlain hp.nodup hon hvalidate
  exact ⟨hp, (hblank.mono hp.le).validate hp.isPlain (fun id hid => (hp.range id hid).2) hvalidate, t,
    hready, notes₁, hvalidate, hready⟩

/-! ### Without a schema -/

/-- **Round trip without a schema.** Take a predicate that is read from a JSON value, whose left
operands and collections are clean if they are texts and whose right operands are scalars or spelled
out. If it compiles without a schema, its canonical form is read as a predicate that compiles as
well, and on every record that is quiet for the first both give the same truth value. -/
theorem Predicate.bare_round_trip {f : Value} {b b₁ : Builder} {program : Program} {notes₁ : Notes}
    (hjson : f.IsJson) (hread : outcome (Filter.readArguments [f]) b = (.ok (some p), b₁))
    (hsources : p.condition.HasSources Value.IsClean Value.IsRightForm)
    (hblank : notes.Blank b.next)
    (hcompile : outcome ((Node.predicate p).compile c default .absent) notes =
      (.ok program, notes₁)) :
    ∃ v notes₂ q b₂ program' notes₃,
      outcome ((Node.predicate p).toCanonical c .absent) notes₁ = (.ok v, notes₂) ∧
        outcome (Filter.readArguments [v]) b₁ = (.ok (some q), b₂) ∧
          outcome ((Node.predicate q).compile c default .absent) notes₂ = (.ok program', notes₃) ∧
            ∀ record, program.IsQuiet record →
              ∃ x, program.Returns record (.bool x) ∧ program'.Returns record (.bool x) := by
  have hsource : Context.ofSource .absent = .ok {} := rfl
  obtain ⟨context, hcontext, hvalidate, -, hf⟩ := Predicate.compile_ok hcompile
  cases hcontext
  obtain ⟨hp, hblank₁, t, hready, hvalid⟩ :=
    Predicate.ready_of_read Filter.hereditary_isJson (fun _ h => h.isPlain) hjson hread hblank hvalidate
  obtain ⟨f, hf⟩ := hf t hready.held
  have hagain : t.IsRereadable c {} :=
    Resolved.isRereadable_of_isJson p.condition hp.isBuilt hsources hready.resolve hf
  have hlabels : ∀ id : Nat, id ∈ p.labels → id < b₁.next := fun id hid => (hp.range id hid).2
  obtain ⟨v, notes₂, q, b₂, u, hcanonical, hread', -, hqvalid, hq, -, hfold⟩ :=
    hready.read_canonical hp.isPlain hsource hagain hblank₁ hlabels
  have hmeaning : u.meaning c default = t.meaning c default := hfold _
  have hg : ∃ g, u.compile c default {} = .ok g := by
    rw [← Resolved.compiles_iff, hmeaning]
    exact (Resolved.compiles_iff _ t).mpr ⟨f, hf⟩
  obtain ⟨program', notes₃, hcompile'⟩ := (hqvalid.compile_iff hsource).mpr hg
  refine ⟨v, notes₂, q, b₂, program', notes₃, hcanonical, hread', hcompile', fun record hquiet => ?_⟩
  exact Predicate.returns_of_meaning hp.isPlain hq hvalid hqvalid hmeaning hsource hcompile hcompile'
    hquiet

theorem Predicate.bare_round_trip_of_quantifier :
    let f : Value := .map [(.text "items", .map [(.text "any", .map [(.text "qty",
      .map [(.text "gt", .int 5)])])])]
    let p : Predicate := .quantified 1 ⟨.text "any", ["some"], false⟩ (.text "items")
      (some (.comparison 0 ⟨.text "gt", [">", "greaterthan"], false⟩ (.text "qty") (.int 5)))
    let record : Value := .map [(.text "items", .list [.map [(.text "qty", .int 7)]])]
    outcome (Filter.readArguments [f]) {} = (.ok (some p), ⟨2, []⟩) ∧
      ∃ program notes₁ v notes₂ q b₂ program' notes₃,
        outcome ((Node.predicate p).compile [] (.ok {}) .absent) [] = (.ok program, notes₁) ∧
          outcome ((Node.predicate p).toCanonical [] .absent) notes₁ = (.ok v, notes₂) ∧
            outcome (Filter.readArguments [v]) ⟨2, []⟩ = (.ok (some q), b₂) ∧
              outcome ((Node.predicate q).compile [] (.ok {}) .absent) notes₂ =
                (.ok program', notes₃) ∧
                ∃ x, program.Returns record (.bool x) ∧ program'.Returns record (.bool x) := by
  intro f p record
  have hread : outcome (Filter.readArguments [f]) {} = (.ok (some p), ⟨2, []⟩) := rfl
  have hjson : f.IsJson := by
    simp [f, Value.IsJson, Value.JsonEntries, Value.isKey]
  have hright : (Value.int 5).IsRightForm :=
    ⟨trivial, (fun _ h => by cases h), (fun h => by cases h)⟩
  have hitems : (Value.text "items").IsClean := by
    rintro s ⟨⟩
    exact ⟨rfl, by unfold Text.IsUnmarked; decide⟩
  have hqty : (Value.text "qty").IsClean := by
    rintro s ⟨⟩
    exact ⟨rfl, by unfold Text.IsUnmarked; decide⟩
  let t : Resolved := .quantified ⟨.text "any", ["some"], false⟩
    (.path (.text "items") none (Mark.after none {}))
    (.comparison ⟨.text "gt", [">", "greaterthan"], false⟩
      (.path (.text "qty") (some (.data .int32)) (Mark.after none {}))
      (.literal (.int 5) (some (.data .int32)) false {}))
  have hresolve : p.condition.resolve [] none = .ok t := by rfl
  have hblank : Notes.Blank [] 0 := fun _ _ => rfl
  have hplain : p.IsPlain := by
    simp [p, Predicate.IsPlain, Predicate.PlainOption, Operator.IsPlain, Value.isPlain_int]
  obtain ⟨notes₁, hvalidate, hready⟩ := Predicate.validate_of_resolve [] hplain
    (by simp [p, Predicate.labels, Predicate.labelsOf])
    (hblank.on_unmarked fun _ _ => Nat.zero_le _) hresolve
  have hsource : Context.ofSource .absent = .ok {} := rfl
  obtain ⟨test, htest⟩ : ∃ test, t.compile [] (.ok {}) {} = .ok test := ⟨_, rfl⟩
  have hcompile := Predicate.compile_of_ready hsource hvalidate hready.held htest
  obtain ⟨v, notes₂, q, b₂, program', notes₃, hcanonical, hread', hcompile', hreturns⟩ :=
    Predicate.bare_round_trip hjson hread ⟨hitems, hqty, hright⟩ hblank hcompile
  refine ⟨hread, _, notes₁, v, notes₂, q, b₂, program', notes₃, hcompile, hcanonical, hread',
    hcompile', hreturns record ⟨p, _, rfl, hready.held.resolvedIn, ?_⟩⟩
  exact ⟨.list [.map [(.text "qty", .int 7)]], [.map [(.text "qty", .int 7)]], rfl, rfl,
    fun w hw => by cases List.mem_singleton.mp hw; exact ⟨true, rfl⟩⟩

/-! ### Under a schema -/

/-- The comparisons in a condition, as an algebra. -/
def Resolved.comparing : Algebra (Multiset (Operator × Expr × Expr)) where
  passthrough _ := 0
  unary _ m := m
  disjunction _ ms := ms.sum
  comparison op left right := {(op, left, right)}
  quantified _ _ m := m
  quantified_literal := fun _ _ _ _ _ _ _ => rfl

/-- All comparisons in a condition, whatever they are nested in: their operators, and their operands
by what they mean, which is the value and the type of a literal and the path and the type of a
property. -/
def Resolved.comparisons (t : Resolved) : Multiset (Operator × Expr × Expr) :=
  t.fold comparing

/-- The context that is given by a schema, or by none. -/
def ContextSource.ofSchema : Option EntityId → ContextSource
  | none => .absent
  | some id => .entity id

theorem Context.ofSource_ofSchema (schema : Option EntityId) :
    Context.ofSource (ContextSource.ofSchema schema) = .ok { schema := schema } := by
  cases schema <;> rfl

variable (c default) in
/-- What is found out about a predicate, `t`, survives a round trip: its canonical form in a context is
read as a predicate that is valid under the schema as well and has the same comparisons. That
predicate compiles if the first one does, and on every record that is quiet for the first both give
the same truth value. -/
def Predicate.RoundTrips (schema : Option EntityId) (written : ContextSource) (p : Predicate)
    (t : Resolved) (notes : Notes) (b : Builder) : Prop :=
  ∃ v notes₂ q b₂ notes₃ u,
    outcome ((Node.predicate p).toCanonical c written) notes = (.ok v, notes₂) ∧
      outcome (Filter.readArguments [v]) b = (.ok (some q), b₂) ∧
        outcome ((Node.predicate q).validate c schema) notes₂ = (.ok (), notes₃) ∧
          q.resolvedIn notes₃ = some u ∧ u.comparisons = t.comparisons ∧
            ((∃ program notes₄, outcome ((Node.predicate p).compile c default (.ofSchema schema))
                notes₃ = (.ok program, notes₄)) ↔
              ∃ program notes₄, outcome ((Node.predicate q).compile c default (.ofSchema schema))
                notes₃ = (.ok program, notes₄)) ∧
              ∀ program notes₄ program' notes₅,
                outcome ((Node.predicate p).compile c default (.ofSchema schema)) notes₃ =
                  (.ok program, notes₄) →
                outcome ((Node.predicate q).compile c default (.ofSchema schema)) notes₄ =
                  (.ok program', notes₅) →
                ∀ record, program.IsQuiet record →
                  ∃ x, program.Returns record (.bool x) ∧ program'.Returns record (.bool x)

variable (default) in
/-- A predicate that is ready for use survives a round trip if its operands can be read again in the
context in which they are written. -/
theorem Predicate.Ready.roundTrips {schema : Option EntityId} {written : ContextSource} {b : Builder}
    (hp : p.IsPlain) (hready : p.Ready c schema notes t)
    (hwritten : Context.ofSource written = .ok context) (hschema : context.schema = schema)
    (hagain : t.IsRereadable c context) (hblank : notes.Blank b.next)
    (hlabels : ∀ id : Nat, id ∈ p.labels → id < b.next) :
    p.RoundTrips c default schema written t notes b := by
  have hready' : p.Ready c context.schema notes t := by
    rw [hschema]
    exact hready
  obtain ⟨v, notes₂, q, b₂, u, hcanonical, hread, hready₂, ⟨notes₃, hqvalidate, hqready⟩, hq,
      hdisjoint, hfold⟩ :=
    hready'.read_canonical hp hwritten hagain hblank hlabels
  rw [hschema] at hready₂ hqvalidate hqready
  have hmeaning : u.meaning c default = t.meaning c default := hfold _
  have hready₃ : p.Ready c schema notes₃ t := hready₂.validate_other hq hqvalidate hdisjoint
  have hsource := Context.ofSource_ofSchema schema
  have hpvalid : p.Validates c schema notes₃ t := hready₃.validate hp
  have hqvalid : q.Validates c schema notes₃ u := hqready.validate hq
  refine ⟨v, notes₂, q, b₂, notes₃, u, hcanonical, hread, hqvalidate, hqready.held.resolvedIn,
    hfold _, ?_, ?_⟩
  · rw [hpvalid.compile_iff hsource, hqvalid.compile_iff hsource, ← Resolved.compiles_iff,
      ← Resolved.compiles_iff, hmeaning]
  · intro program notes₄ program' notes₅ hcompile hcompile' record hquiet
    obtain ⟨used, hused, hvalidate₄, -, -⟩ := Predicate.compile_ok hcompile
    rw [hsource] at hused
    cases hused
    -- Compiling the first predicate checks it again, which leaves the notes on the second one alone.
    have hqready₄ : q.Ready c schema notes₄ u :=
      hqready.validate_other hp hvalidate₄ fun id hid hmem => hdisjoint id hmem hid
    have hqvalid₄ : q.Validates c schema notes₄ u := hqready₄.validate hq
    exact Predicate.returns_of_meaning hp hq hpvalid hqvalid₄ hmeaning hsource hcompile hcompile'
      hquiet

/-- The context in which the types of literals are spelled out. -/
def ContextSource.explicit (schema : Option EntityId) : ContextSource :=
  .fields [.schema schema, .explicitType (.bool true)]

variable (default) in
/-- **Round trip under any schema.** Take a predicate that is read from a value without nodes and is
valid under a schema, or under none, where its left operands and collections are ordinary paths and
its right operands are literals or paths. Its canonical form with the types of literals is read as a
predicate that is valid as well and has the same comparisons. It compiles if the first one does, and
on every record that is quiet for the first both give the same truth value. -/
theorem Predicate.explicit_round_trip {schema : Option EntityId} {f : Value} {b b₁ : Builder}
    {notes₁ : Notes} (hplain : f.IsPlain)
    (hread : outcome (Filter.readArguments [f]) b = (.ok (some p), b₁)) (hblank : notes.Blank b.next)
    (hvalidate : outcome ((Node.predicate p).validate c schema) notes = (.ok (), notes₁))
    (ht : p.resolvedIn notes₁ = some t) (hpaths : t.IsPathwise) :
    ∃ v notes₂ q b₂ notes₃ u,
      outcome ((Node.predicate p).toCanonical c (.explicit schema)) notes₁ = (.ok v, notes₂) ∧
        outcome (Filter.readArguments [v]) b₁ = (.ok (some q), b₂) ∧
          outcome ((Node.predicate q).validate c schema) notes₂ = (.ok (), notes₃) ∧
            q.resolvedIn notes₃ = some u ∧ u.comparisons = t.comparisons ∧
              ((∃ program notes₄, outcome ((Node.predicate p).compile c default (.ofSchema schema))
                  notes₃ = (.ok program, notes₄)) ↔
                ∃ program notes₄, outcome ((Node.predicate q).compile c default (.ofSchema schema))
                  notes₃ = (.ok program, notes₄)) ∧
                ∀ program notes₄ program' notes₅,
                  outcome ((Node.predicate p).compile c default (.ofSchema schema)) notes₃ =
                    (.ok program, notes₄) →
                  outcome ((Node.predicate q).compile c default (.ofSchema schema)) notes₄ =
                    (.ok program', notes₅) →
                  ∀ record, program.IsQuiet record →
                    ∃ x, program.Returns record (.bool x) ∧ program'.Returns record (.bool x) := by
  obtain ⟨hp, hblank₁, t', hready, -⟩ :=
    Predicate.ready_of_read Filter.hereditary_isPlain (fun _ h => h) hplain hread hblank hvalidate
  have hsame := hready.held.resolvedIn
  rw [ht] at hsame
  cases hsame
  have hwritten : Context.ofSource (.explicit schema) =
      .ok { schema := schema, explicitType := .bool true } := rfl
  have hagain : t.IsRereadable c { schema := schema, explicitType := .bool true } :=
    Resolved.isRereadable_of_isPathwise (fun _ h => h) p.condition hp.isBuilt rfl rfl hready.resolve
      hpaths
  exact Predicate.Ready.roundTrips default hp.isPlain hready hwritten rfl hagain hblank₁
    fun id hid => (hp.range id hid).2

theorem Predicate.explicit_round_trip_of_comparison :
    let c : Catalog := [⟨.text "Order", [⟨"freight", .data .decimal⟩], false, none, .same⟩]
    let f : Value := .map [(.text "freight", .map [(.text "gt", .int 100)])]
    let gt : Operator := ⟨.text "gt", [">", "greaterthan"], false⟩
    let left : Expr := .path (.text "freight") (some (.data .decimal)) (Mark.after (some 0) {})
    let right : Expr := .literal (.decimal (.finite false 100 0)) (some (.data .decimal)) false {}
    let p : Predicate := .comparison 0 gt (.text "freight") (.int 100)
    outcome (Filter.readArguments [f]) {} = (.ok (some p), ⟨1, []⟩) ∧
      ∃ notes₁ v notes₂ q b₂ notes₃ u,
        outcome ((Node.predicate p).validate c (some 0)) [] = (.ok (), notes₁) ∧
          outcome ((Node.predicate p).toCanonical c (.explicit (some 0))) notes₁ = (.ok v, notes₂) ∧
            outcome (Filter.readArguments [v]) ⟨1, []⟩ = (.ok (some q), b₂) ∧
              outcome ((Node.predicate q).validate c (some 0)) notes₂ = (.ok (), notes₃) ∧
                q.resolvedIn notes₃ = some u ∧ u.comparisons = {(gt, left.stripped, right)} := by
  intro c f gt left right p
  have hread : outcome (Filter.readArguments [f]) {} = (.ok (some p), ⟨1, []⟩) := rfl
  have hplain : f.IsPlain := by
    simp [f, Value.IsPlain, Value.PlainEntries, Value.isKey]
  have hp : p.IsPlain := by
    simp [p, gt, Predicate.IsPlain, Operator.IsPlain, Value.isPlain_int]
  have hresolve : p.condition.resolve c (some 0) = .ok (.comparison gt left right) := by rfl
  have hblank : Notes.Blank [] 0 := fun _ _ => rfl
  obtain ⟨notes₁, hvalidate, hready⟩ := Predicate.validate_of_resolve [] hp
    (by simp [p, Predicate.labels]) (hblank.on_unmarked fun _ _ => Nat.zero_le _) hresolve
  have hpaths : Resolved.IsPathwise (.comparison gt left right) :=
    ⟨⟨"freight", rfl, by unfold Text.IsUnmarked; decide, rfl, rfl⟩, trivial⟩
  obtain ⟨v, notes₂, q, b₂, notes₃, u, hcanonical, hread', hqvalidate, hu, hcomparisons, -⟩ :=
    Predicate.explicit_round_trip (.ok {}) hplain hread hblank hvalidate
      hready.held.resolvedIn hpaths
  exact ⟨hread, notes₁, v, notes₂, q, b₂, notes₃, u, hvalidate, hcanonical, hread', hqvalidate, hu,
    hcomparisons.trans rfl⟩

end

end RecordFilter
