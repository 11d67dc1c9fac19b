import RecordFilter.Proofs.Predicate.RoundTrip

/-!
# Merged maps are used like conjunctions

The predicate that is read from two merged maps does what the conjunction of the predicates does that
are read from the maps one by one (`Predicate.interchangeable_of_merge`): in every context both
compile or none does, and they give the same on every quiet record.

Merging keeps what the conditions weigh (`Json.weighs_merge`), and joining predicates adds up what
they weigh. What is shown here is that predicates of one weight can stand for each other
(`Predicate.interchangeable_of_weight`), and that a predicate weighs something
(`Condition.weight_ne_zero`), so that one is there when the other one is.
-/

namespace RecordFilter

open Filter (shape shapeEntry shapeEntries conjunction joinShapes andOperator FreshIn IsRead)

/-! ### Conditions that are there weigh something -/

section

variable {c : Catalog} {V : Value → Prop}

mutual

/-- What can be resolved is one condition at least. -/
theorem Condition.one_le_conjuncts : ∀ (t : Condition) {schema : Option EntityId} {r : Resolved},
    t.IsBuilt V → t.resolve c schema = .ok r → 1 ≤ r.conjuncts
  | .absent, _, r, _, h | .bare _, _, r, _, h => by cases h
  | .passthrough _, _, r, _, h => by
    cases h
    exact Nat.le_refl 1
  | .unary op operand, _, r, _, h => by
    obtain ⟨u, -, rfl⟩ := Condition.resolve_unary_eq_ok_iff.mp h
    exact Nat.le_refl 1
  | .comparison op left right, _, r, _, h => by
    obtain ⟨l', r', -, rfl⟩ := Condition.resolve_comparison_eq_ok_iff.mp h
    exact Nat.le_refl 1
  | .quantified op collection body, _, r, _, h => by
    obtain ⟨e, u, -, -, rfl⟩ := Condition.resolve_quantified_eq_ok_iff.mp h
    exact Nat.le_refl 1
  | .logical op children, schema, r, ⟨_, hlength, hall⟩, h => by
    obtain ⟨rs, hrs, rfl⟩ := Condition.resolve_logical_eq_ok_iff.mp h
    rw [Resolved.conjuncts]
    split
    · have hle := Condition.length_le_conjuncts children hall hrs
      omega
    · exact Nat.le_refl 1

theorem Condition.length_le_conjuncts : ∀ (ts : List Condition) {schema : Option EntityId}
    {rs : List Resolved}, Condition.AllBuilt V ts → Condition.resolveAll c schema ts = .ok rs →
      ts.length ≤ (Resolved.conjunctsAll rs).sum
  | [], _, rs, _, h => by
    cases h
    exact Nat.le_refl 0
  | t :: ts, schema, rs, ⟨ht, hts⟩, h => by
    obtain ⟨r, us, hr, hus, rfl⟩ := Condition.resolveAll_cons_eq_ok_iff.mp h
    have hone := Condition.one_le_conjuncts t ht hr
    have hmany := Condition.length_le_conjuncts ts hts hus
    rw [Resolved.conjunctsAll, List.length_cons, List.sum_cons]
    omega

end

/-- A condition weighs nothing only if there is none. -/
theorem Condition.weight_ne_zero {M : Type} [AddCommMonoid M] {alg : Algebra M}
    {schema : Option EntityId} {t : Condition} (hbuilt : t.IsBuilt V) (ht : t ≠ .absent) :
    t.weight alg c schema ≠ 0 := by
  intro hzero
  obtain ⟨r, hr, hmeasure⟩ := Condition.resolve_of_weight ht hzero
  have hone := Condition.one_le_conjuncts t hbuilt hr
  have hnone : r.conjuncts = 0 := congrArg Prod.fst hmeasure
  omega

theorem Predicate.condition_ne_absent (p : Predicate) : p.condition ≠ .absent := by
  cases p <;> simp [Predicate.condition]

/-- There is no predicate where its condition weighs as much as the absence of one. -/
theorem Condition.absent_of_weight {M : Type} [AddCommMonoid M] {alg : Algebra M}
    {schema : Option EntityId} {o : Option Predicate} (hbuilt : (Predicate.conditionOf o).IsBuilt V)
    (h : (Predicate.conditionOf o).weight alg c schema =
      (Predicate.conditionOf none).weight alg c schema) : o = none := by
  rcases o with - | p
  · rfl
  · exact (Condition.weight_ne_zero hbuilt p.condition_ne_absent h).elim

end

/-! ### Predicates that stand for each other -/

/-- Two predicates without marks can stand for each other: in every context both compile or none
does, and on every record that is quiet for one of them both give the same truth value. -/
structure Predicate.Interchangeable (c : Catalog) (default : Except Fault TextPolicy)
    (p q : Predicate) : Prop where
  compile_iff : ∀ {source notes notes'}, notes.On Note.Unmarked p.labels →
    notes'.On Note.Unmarked q.labels →
      ((∃ program n, outcome ((Node.predicate p).compile c default source) notes = (.ok program, n)) ↔
        ∃ program n, outcome ((Node.predicate q).compile c default source) notes' = (.ok program, n))
  returns : ∀ {source notes notes' program program' n n'}, notes.On Note.Unmarked p.labels →
    notes'.On Note.Unmarked q.labels →
      outcome ((Node.predicate p).compile c default source) notes = (.ok program, n) →
        outcome ((Node.predicate q).compile c default source) notes' = (.ok program', n') →
          ∀ record, program.IsQuiet record ∨ program'.IsQuiet record →
            ∃ x, program.Returns record (.bool x) ∧ program'.Returns record (.bool x)

section

variable {c : Catalog} {default : Except Fault TextPolicy} {source : ContextSource}
  {p q : Predicate} {notes notes' : Notes}

/-- A predicate without marks that compiles has been resolved before. -/
theorem Predicate.validates_of_compile (hp : p.IsPlain) (hnodup : p.labels.Nodup)
    (hon : notes.On Note.Unmarked p.labels) {program : Program}
    (h : outcome ((Node.predicate p).compile c default source) notes = (.ok program, notes')) :
    ∃ context t f, Context.ofSource source = .ok context ∧
      p.condition.resolve c context.schema = .ok t ∧ p.Validates c context.schema notes t ∧
        t.compile c default context = .ok f := by
  obtain ⟨context, hsource, hvalidate, -, hf⟩ := Predicate.compile_ok h
  obtain ⟨t, hready⟩ := Predicate.ready_of_validate hp hnodup hon hvalidate
  obtain ⟨f, hf⟩ := hf t hready.held
  exact ⟨context, t, f, hsource, hready.resolve, ⟨notes', hvalidate, hready⟩, hf⟩

/-- A predicate of the same weight as one that compiles is valid and has the same meaning. -/
theorem Predicate.validates_of_weight
    (hweight : ∀ schema, p.condition.weight (Resolved.meanings c default) c schema =
      q.condition.weight (Resolved.meanings c default) c schema) (hq : q.IsPlain)
    (hqnodup : q.labels.Nodup) (hqon : notes'.On Note.Unmarked q.labels)
    {schema : Option EntityId} {t : Resolved} (ht : p.condition.resolve c schema = .ok t) :
    ∃ u, q.Validates c schema notes' u ∧ u.meaning c default = t.meaning c default := by
  have hp : q.condition.weight (Resolved.meanings c default) c schema =
      ↑(t.measure (Resolved.meanings c default)) := by
    rw [← hweight, Condition.weight_of_resolve ht]
  obtain ⟨u, hu, hmeasure⟩ := Condition.resolve_of_weight q.condition_ne_absent hp
  have hvalid := Predicate.validate_of_resolve notes' hq hqnodup hqon hu
  exact ⟨u, hvalid, congrArg Prod.snd hmeasure⟩

/-- **Predicates of one weight can stand for each other.** -/
theorem Predicate.interchangeable_of_weight (hp : p.IsPlain) (hq : q.IsPlain)
    (hpnodup : p.labels.Nodup) (hqnodup : q.labels.Nodup)
    (hweight : ∀ schema, p.condition.weight (Resolved.meanings c default) c schema =
      q.condition.weight (Resolved.meanings c default) c schema) :
    p.Interchangeable c default q := by
  have hcompile : ∀ {p q : Predicate} {source : ContextSource} {notes notes' : Notes}, p.IsPlain →
      q.IsPlain → p.labels.Nodup → q.labels.Nodup →
      (∀ schema, p.condition.weight (Resolved.meanings c default) c schema =
        q.condition.weight (Resolved.meanings c default) c schema) →
      notes.On Note.Unmarked p.labels → notes'.On Note.Unmarked q.labels →
      (∃ program n, outcome ((Node.predicate p).compile c default source) notes = (.ok program, n)) →
        ∃ program n, outcome ((Node.predicate q).compile c default source) notes' =
          (.ok program, n) := by
    rintro p q source notes notes' hp hq hpnodup hqnodup hweight hon hon' ⟨program, n, h⟩
    obtain ⟨context, t, f, hsource, ht, -, hf⟩ := Predicate.validates_of_compile hp hpnodup hon h
    obtain ⟨u, hvalid, hmeaning⟩ := Predicate.validates_of_weight hweight hq hqnodup hon' ht
    rw [hvalid.compile_iff hsource, ← Resolved.compiles_iff, hmeaning]
    exact (Resolved.compiles_iff _ t).mpr ⟨f, hf⟩
  constructor
  · intro source notes notes' hon hon'
    exact ⟨hcompile hp hq hpnodup hqnodup hweight hon hon',
      hcompile hq hp hqnodup hpnodup (fun schema => (hweight schema).symm) hon' hon⟩
  · intro source notes notes' program program' n n' hon hon' h h' record hquiet
    obtain ⟨context, t, f, hsource, ht, hvalid, -⟩ :=
      Predicate.validates_of_compile hp hpnodup hon h
    obtain ⟨u, hvalid', hmeaning⟩ := Predicate.validates_of_weight hweight hq hqnodup hon' ht
    rcases hquiet with hquiet | hquiet
    · exact Predicate.returns_of_meaning hp hq hvalid hvalid' hmeaning hsource h h' hquiet
    · obtain ⟨x, hx', hx⟩ :=
        Predicate.returns_of_meaning hq hp hvalid' hvalid hmeaning.symm hsource h' h hquiet
      exact ⟨x, hx, hx'⟩

end

/-! ### Joining two predicates by `and` -/

/-- The argument that gives a predicate to a call, or tells it that there is none. -/
def Predicate.given (shown : Shown Value) : Option Predicate → Value
  | none => .null
  | some p => .node (.predicate p) shown

namespace Filter

/-- Predicates that are given to `and` are joined, and absent ones are dropped. -/
theorem outcome_makeLogical_and (shown shown' : Shown Value) (p q : Option Predicate) (b : Builder) :
    outcome (makeLogical (.text "and") (.list [Predicate.given shown p, Predicate.given shown' q])) b =
      outcome (join andOperator ([p, q].filter Option.isSome)) b := by
  rcases p with - | p <;> rcases q with - | q <;> rfl

/-- The conjunction of two predicates that were built one after the other has the conjunction of
their conditions, and no node occurs twice in it. -/
theorem built_of_makeLogical_and (shown shown' : Shown Value) {p q : Option Predicate}
    {b b₁ b₂ : Builder} (hp : FreshIn b.next b₁.next [p]) (hq : FreshIn b₁.next b₂.next [q]) :
    ∃ s b₃, outcome (makeLogical (.text "and")
        (.list [Predicate.given shown p, Predicate.given shown' q])) b₂ = (.ok s, b₃) ∧
      Predicate.conditionOf s = conjunction [Predicate.conditionOf p, Predicate.conditionOf q] ∧
        FreshIn b.next b₃.next [s] := by
  have hboth : FreshIn b.next b₂.next ([p, q].filter Option.isSome) :=
    freshIn_growth.sublist (freshIn_growth.append hp hq) List.filter_sublist
  have hagrees : Agrees (Built (fun lo hi => FreshIn lo.next hi.next) b)
      (join andOperator ([p, q].filter Option.isSome)) b₂
      (.ok (joinShapes andOperator (Predicate.conditions ([p, q].filter Option.isSome)))) :=
    agrees_join freshIn_growth hboth
  obtain ⟨s, b₃, hjoin, hs, hfresh⟩ := hagrees
  refine ⟨s, b₃, ?_, ?_, hfresh⟩
  · rw [outcome_makeLogical_and]
    exact hjoin
  · rw [← hs, ← conditions_filter]
    rfl

end Filter

/-! ### Merging two maps -/

theorem Json.mergeMaps_eq_ok {xs ys : List (Value × Value)} {merged : Value}
    (h : mergeMaps (.map xs) (.map ys) = .ok (some merged)) :
    ∃ zs, merged = .map zs ∧ merge xs ys = some zs := by
  obtain ⟨zs, hzs, rfl⟩ := Option.map_eq_some_iff.mp (Except.ok.inj h)
  exact ⟨zs, rfl, hzs⟩

/-- The entries of a map that is read as a condition weigh what the condition weighs. -/
theorem Json.Weighing.weighs_of_shape {M : Type} [AddCommMonoid M] {w : Condition → M}
    (hw : Weighing w) {es : List (Value × Value)} {t : Condition} (h : shape (.map es) = .ok t) :
    Weighs w (fun e => shapeEntry e.1 e.2) es (w t) := by
  obtain ⟨ts, hts, rfl⟩ := Filter.shape_map_eq_ok_iff.mp h
  rw [shapeEntries_eq_mapM] at hts
  exact ⟨ts, hts, hw.conjunction ts⟩

/-- Two merged maps are read as a condition of the weight that the conjunction of their conditions
has. -/
theorem Json.Weighing.shape_merge {M : Type} [AddCommMonoid M] {w : Condition → M}
    (hw : Weighing w) {xs ys zs : List (Value × Value)} {t u : Condition}
    (hmerge : merge xs ys = some zs) (ht : shape (.map xs) = .ok t) (hu : shape (.map ys) = .ok u) :
    ∃ s, shape (.map zs) = .ok s ∧ w s = w (Filter.conjunction [t, u]) := by
  obtain ⟨s, hs, hweight⟩ :=
    hw.shape_map (weighs_merge hw hmerge (hw.weighs_of_shape ht) (hw.weighs_of_shape hu))
  refine ⟨s, hs, ?_⟩
  rw [hweight, hw.conjunction]
  simp

section

variable {xs ys : List (Value × Value)} {merged : Value} {p q : Option Predicate}
  {b b₁ b₂ : Builder} (shown shown' : Shown Value)

/-- Two maps that can be merged have a conjunction, and their merge can be read. Both are well formed
and weigh the same under every schema. -/
theorem Filter.read_merge (hxs : (Value.map xs).IsPlain) (hys : (Value.map ys).IsPlain)
    (hp : outcome (readArguments [.map xs]) b = (.ok p, b₁))
    (hq : outcome (readArguments [.map ys]) b₁ = (.ok q, b₂))
    (hmerge : Json.mergeMaps (.map xs) (.map ys) = .ok (some merged)) :
    ∃ s b₃ r b₄, outcome (makeLogical (.text "and")
        (.list [Predicate.given shown p, Predicate.given shown' q])) b₂ = (.ok s, b₃) ∧
      outcome (readArguments [merged]) b₃ = (.ok r, b₄) ∧
        (Predicate.conditionOf s).IsBuilt Value.IsPlain ∧ FreshIn b.next b₃.next [s] ∧
          (Predicate.conditionOf r).IsBuilt Value.IsPlain ∧ FreshIn b₃.next b₄.next [r] ∧
            ∀ {M : Type} [AddCommMonoid M] (alg : Algebra M) (c : Catalog)
              (schema : Option EntityId), (Predicate.conditionOf r).weight alg c schema =
                (Predicate.conditionOf s).weight alg c schema := by
  have hplain : ∀ v : Value, v.IsPlain → v.IsPlain := fun _ h => h
  obtain ⟨zs, rfl, hzs⟩ := Json.mergeMaps_eq_ok hmerge
  have hmerged : (Value.map zs).IsPlain := Json.merge_isPlain ys hxs hys hzs
  obtain ⟨hpshape, hpfresh⟩ := built_of_read hplain hxs hp
  obtain ⟨hqshape, hqfresh⟩ := built_of_read hplain hys hq
  obtain ⟨s, b₃, hs, hcondition, hsfresh⟩ :=
    built_of_makeLogical_and shown shown' hpfresh hqfresh
  -- what the merge is read as does not depend on the algebra
  have htrivial : Json.Weighing (Condition.weight Algebra.trivial [] none) :=
    Condition.weighing_weight
  obtain ⟨t, ht, -⟩ := htrivial.shape_merge hzs hpshape hqshape
  obtain ⟨r, b₄, hr, rfl, hrfresh⟩ := built_of_shape hplain hmerged ht b₃
  refine ⟨s, b₃, r, b₄, hs, hr, ?_, hsfresh, ?_, hrfresh, ?_⟩
  · rw [hcondition]
    exact conjunction_isBuilt ⟨shape_isBuilt hereditary_isPlain _ hxs hpshape,
      shape_isBuilt hereditary_isPlain _ hys hqshape, trivial⟩
  · exact shape_isBuilt hereditary_isPlain _ hmerged ht
  · intro M _ alg c schema
    have hw : Json.Weighing (Condition.weight alg c schema) := Condition.weighing_weight
    obtain ⟨t, ht', hweight⟩ := hw.shape_merge hzs hpshape hqshape
    rw [ht] at ht'
    cases ht'
    rw [hweight, hcondition]

/-- **Two merged maps are used like the conjunction of both.** Take two maps without nodes that are
read as predicates, or as none, and that can be merged. Their merge can be read as well. A predicate
is read from it exactly when there is a conjunction of the two predicates, and then the two stand for
each other. -/
theorem Predicate.interchangeable_of_merge (c : Catalog) (default : Except Fault TextPolicy)
    (hxs : (Value.map xs).IsPlain) (hys : (Value.map ys).IsPlain)
    (hp : outcome (Filter.readArguments [.map xs]) b = (.ok p, b₁))
    (hq : outcome (Filter.readArguments [.map ys]) b₁ = (.ok q, b₂))
    (hmerge : Json.mergeMaps (.map xs) (.map ys) = .ok (some merged)) :
    ∃ s b₃ r b₄, outcome (Filter.makeLogical (.text "and")
        (.list [Predicate.given shown p, Predicate.given shown' q])) b₂ = (.ok s, b₃) ∧
      outcome (Filter.readArguments [merged]) b₃ = (.ok r, b₄) ∧ (r = none ↔ s = none) ∧
        ∀ r' ∈ r, ∀ s' ∈ s, r'.Interchangeable c default s' := by
  have hplain : ∀ v : Value, v.IsPlain → v.IsPlain := fun _ h => h
  obtain ⟨s, b₃, r, b₄, hs, hr, hsbuilt, hsfresh, hrbuilt, hrfresh, hweight⟩ :=
    Filter.read_merge shown shown' hxs hys hp hq hmerge
  refine ⟨s, b₃, r, b₄, hs, hr, ?_, ?_⟩
  · have habsent := hweight Algebra.trivial [] none
    constructor
    · rintro rfl
      exact Condition.absent_of_weight hsbuilt habsent.symm
    · rintro rfl
      exact Condition.absent_of_weight hrbuilt habsent
  · rintro r' rfl s' rfl
    have hrread := hrfresh.isRead hplain hrbuilt
    have hsread := hsfresh.isRead hplain hsbuilt
    exact Predicate.interchangeable_of_weight hrread.isPlain hsread.isPlain hrread.nodup hsread.nodup
      (hweight _ _)

theorem Predicate.interchangeable_of_merge_of_range :
    let xs : List (Value × Value) := [(.text "freight", .map [(.text "gt", .int 100)])]
    let ys : List (Value × Value) :=
      [(.text "shipCity", .text "London"), (.text "freight", .map [(.text "lt", .int 200)])]
    let gt : Operator := ⟨.text "gt", [">", "greaterthan"], false⟩
    let lt : Operator := ⟨.text "lt", ["<", "lessthan"], false⟩
    let eq : Operator := ⟨.text "eq", ["==", "=", "equals"], false⟩
    let above (id : Label) : Predicate := .comparison id gt (.text "freight") (.int 100)
    let below (id : Label) : Predicate := .comparison id lt (.text "freight") (.int 200)
    let city (id : Label) : Predicate := .comparison id eq (.text "shipCity") (.text "London")
    let and (id : Label) (ps : List Predicate) : Predicate :=
      .logical id Filter.andOperator (ps.map some)
    let merged : Value := .map [(.text "freight", .map [(.text "gt", .int 100), (.text "lt", .int 200)]),
      (.text "shipCity", .text "London")]
    outcome (Filter.readArguments [.map xs]) {} = (.ok (some (above 0)), ⟨1, []⟩) ∧
      outcome (Filter.readArguments [.map ys]) ⟨1, []⟩ =
        (.ok (some (and 3 [city 1, below 2])), ⟨4, []⟩) ∧
      Json.mergeMaps (.map xs) (.map ys) = .ok (some merged) ∧
      outcome (Filter.readArguments [merged]) ⟨5, []⟩ =
        (.ok (some (and 9 [and 7 [above 5, below 6], city 8])), ⟨10, []⟩) ∧
      (and 9 [and 7 [above 5, below 6], city 8]).Interchangeable [] (.ok {})
        (and 4 [above 0, and 3 [city 1, below 2]]) := by
  intro xs ys gt lt eq above below city and merged
  have hxs : (Value.map xs).IsPlain := by
    simp [xs, Value.IsPlain, Value.PlainEntries, Value.isKey]
  have hys : (Value.map ys).IsPlain := by
    simp [ys, Value.IsPlain, Value.PlainEntries, Value.isKey]
  have hp : outcome (Filter.readArguments [.map xs]) {} = (.ok (some (above 0)), ⟨1, []⟩) := rfl
  have hq : outcome (Filter.readArguments [.map ys]) ⟨1, []⟩ =
      (.ok (some (and 3 [city 1, below 2])), ⟨4, []⟩) := rfl
  have hmerge : Json.mergeMaps (.map xs) (.map ys) = .ok (some merged) := rfl
  have hread : outcome (Filter.readArguments [merged]) ⟨5, []⟩ =
      (.ok (some (and 9 [and 7 [above 5, below 6], city 8])), ⟨10, []⟩) := rfl
  let shown : Shown Value := ⟨.ok "", "", []⟩
  obtain ⟨s, b₃, r, b₄, hs, hr, -, halike⟩ :=
    Predicate.interchangeable_of_merge shown shown [] (.ok {}) hxs hys hp hq hmerge
  have hjoin : outcome (Filter.makeLogical (.text "and")
      (.list [Predicate.given shown (some (above 0)),
        Predicate.given shown (some (and 3 [city 1, below 2]))])) ⟨4, []⟩ =
      (.ok (some (and 4 [above 0, and 3 [city 1, below 2]])), ⟨5, []⟩) := rfl
  rw [hjoin] at hs
  cases hs
  rw [hread] at hr
  cases hr
  exact ⟨hp, hq, hmerge, hread, halike _ rfl _ rfl⟩

end

end RecordFilter
