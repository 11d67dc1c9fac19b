import Mathlib.Logic.Relation
import RecordFilter.Proofs.Filter.Building
import RecordFilter.Proofs.Filter.Sharing
import RecordFilter.Proofs.Predicate.Staleness

/-!
# Sessions

In a session predicates are built from filters and from each other, checked, written and compiled,
in any order. A predicate that was built may become a part of many others, and each use of it writes
into the same notes. In every session that can be reached, every node that was checked is in step
with its note (`Session.isSound_of_reachable`).

A predicate of a session does the same as a copy of it that shares no nodes if it is current, which
is exactly if the notes hold the operands of the copy (`Session.sharing_iff`). Without a schema every
predicate is. Under a schema a predicate may be stale: `not (x = "5")` that was checked against one
schema is not looked at again after `x = "5"` was checked against another one
(`Session.not_sharing_of_stale_part`).
-/

namespace RecordFilter

/-- The state of a session: the next label that is free, the predicates that calls have returned, and
what is known about their nodes. -/
structure Session where
  next : Label := 0
  known : List Predicate := []
  notes : Notes := []

namespace Session

/-- The nodes of all predicates of a session. -/
def nodes (s : Session) : List (Label × Predicate) :=
  s.known.flatMap Predicate.nodes

/-- The predicate is one that a call has returned, or a node of one. -/
def Holds (s : Session) (p : Predicate) : Prop :=
  ∃ id, (id, p) ∈ s.nodes

/-- A successful call. Predicates stand in filters as parts of predicates only, so what is built is
plain. -/
inductive Step (c : Catalog) (s : Session) : Session → Prop
  | build {m : Build (Option Predicate)} {p : Option Predicate} {b : Builder} :
      Filter.Call s.Holds m → outcome m ⟨s.next, []⟩ = (.ok p, b) → (∀ q, p = some q → q.IsPlain) →
        Step c s { s with next := b.next, known := p.toList ++ s.known }
  | validate {p : Predicate} {schema : Option EntityId} {notes : Notes} : s.Holds p →
      outcome ((Node.predicate p).validate c schema) s.notes = (.ok (), notes) →
        Step c s { s with notes }
  | toCanonical {p : Predicate} {source : ContextSource} {v : Value} {notes : Notes} : s.Holds p →
      outcome ((Node.predicate p).toCanonical c source) s.notes = (.ok v, notes) →
        Step c s { s with notes }
  | compile {p : Predicate} {default : Except Fault TextPolicy} {source : ContextSource}
      {program : Program} {notes : Notes} : s.Holds p →
      outcome ((Node.predicate p).compile c default source) s.notes = (.ok program, notes) →
        Step c s { s with notes }

/-- A session that some calls lead to. -/
def Reachable (c : Catalog) (s : Session) : Prop :=
  Relation.ReflTransGen (Step c) {} s

/-! ### What holds throughout a session -/

/-- **The state of a session is sound**: labels are those of one node each, nothing is known about
nodes that are yet to be built, and every node that was checked is in step with its note. -/
structure IsSound (c : Catalog) (s : Session) : Prop where
  plain : ∀ p ∈ s.known, p.IsPlain
  range : ∀ id : Nat, ∀ p, (id, p) ∈ s.nodes → id < s.next
  identified : Identified s.nodes
  blank : s.notes.Blank s.next
  proper : s.notes.IsProper
  settled : ∀ id p, (id, p) ∈ s.nodes → (s.notes.note id).wasChecked → p.Settled c s.notes

section

variable {c : Catalog} {s : Session} {p : Predicate}

theorem IsSound.isPlain (h : s.IsSound c) (hp : s.Holds p) : p.IsPlain := by
  obtain ⟨id, hid⟩ := hp
  obtain ⟨q, hq, hmem⟩ := List.mem_flatMap.mp hid
  exact (h.plain q hq).of_mem_nodes hmem

theorem IsSound.nodes_subset (h : s.IsSound c) (hp : s.Holds p) : p.nodes ⊆ s.nodes := by
  obtain ⟨id, hid⟩ := hp
  obtain ⟨q, hq, hmem⟩ := List.mem_flatMap.mp hid
  intro e he
  exact List.mem_flatMap.mpr ⟨q, hq, Predicate.nodes_subset (h.plain q hq) hmem he⟩

theorem isSound_initial (c : Catalog) : ({} : Session).IsSound c where
  plain := by simp
  range := by simp [nodes]
  identified _ _ _ h := by simp [nodes] at h
  blank _ _ := rfl
  proper _ := ⟨Note.isPlain_default, by simp⟩
  settled _ _ h := by simp [nodes] at h

/-- Building keeps a session sound. -/
theorem IsSound.build (h : s.IsSound c) {m : Build (Option Predicate)} {p : Option Predicate}
    {b : Builder} (hm : Filter.Call s.Holds m) (hb : outcome m ⟨s.next, []⟩ = (.ok p, b))
    (hplain : ∀ q, p = some q → q.IsPlain) :
    IsSound c { s with next := b.next, known := p.toList ++ s.known } := by
  have hgrown := Filter.grownFrom_of_call (fun q hq => h.nodes_subset hq) hm hb
  have hle : s.next ≤ b.next := hgrown.le
  have hnodes : nodes { s with next := b.next, known := p.toList ++ s.known } =
      Predicate.nodesAll [p] ++ s.nodes := by
    rw [Filter.nodesAll_singleton]
    rcases p with - | p <;> rfl
  have hnew := hgrown.nodes h.range
  constructor
  · intro q hq
    rcases List.mem_append.mp hq with hq | hq
    · exact hplain q (Option.mem_toList.mp hq)
    · exact h.plain q hq
  · intro id q hq
    rw [hnodes] at hq
    rcases List.mem_append.mp hq with hq | hq
    · rcases hnew id q hq with hq | ⟨-, hlt⟩
      · exact Nat.lt_of_lt_of_le (h.range id q hq) hle
      · exact hlt
    · exact Nat.lt_of_lt_of_le (h.range id q hq) hle
  · intro id q r hq hr
    rw [hnodes] at hq hr
    rcases Nat.lt_or_ge id s.next with hlt | hge
    · have hold : ∀ q, (id, q) ∈ Predicate.nodesAll [p] ++ s.nodes → (id, q) ∈ s.nodes := by
        intro q hq
        rcases List.mem_append.mp hq with hq | hq
        · exact (hnew id q hq).resolve_right fun ⟨hge, _⟩ => absurd hlt (Nat.not_lt.mpr hge)
        · exact hq
      exact h.identified id q r (hold q hq) (hold r hr)
    · have hfresh : ∀ q, (id, q) ∈ Predicate.nodesAll [p] ++ s.nodes →
          (id, q) ∈ Predicate.nodesAll [p] := by
        intro q hq
        refine (List.mem_append.mp hq).resolve_right fun hq => ?_
        exact absurd (h.range id q hq) (Nat.not_lt.mpr hge)
      exact hgrown.identified h.range id q r (hfresh q hq) (hfresh r hr) hge
  · exact h.blank.mono hle
  · exact h.proper
  · intro id q hq hmark
    rw [hnodes] at hq
    rcases List.mem_append.mp hq with hq | hq
    · rcases hnew id q hq with hq | ⟨hge, -⟩
      · exact h.settled id q hq hmark
      · -- nothing is known about a new node
        have hblank : s.notes.note id = {} := h.blank id hge
        change (s.notes.note id).wasChecked at hmark
        rw [hblank] at hmark
        cases hmark
    · exact h.settled id q hq hmark

/-- Validating keeps a session sound, and the predicate bears the mark of the schema afterwards. -/
theorem IsSound.validate (h : s.IsSound c) (hp : s.Holds p) {schema : Option EntityId}
    {notes : Notes} (hv : outcome ((Node.predicate p).validate c schema) s.notes = (.ok (), notes)) :
    IsSound c { s with notes } ∧ p.IsMarked notes ∧
      (∀ id, p.label = some id → (notes.note id).checked = schema) ∧
      (schema = none → ∀ id ∈ p.labels, Predicate.Unbound notes id) := by
  have hplain := h.isPlain hp
  have hsub := h.nodes_subset hp
  obtain ⟨middle, hcheck, rfl⟩ := Node.validate_ok_iff.mp hv
  obtain ⟨hadvances, hproper, i, hi, hmark⟩ :=
    Predicate.advances_of_check p hplain (h.identified.mono hsub) h.proper hcheck
  -- plain notes are up to date
  have hsame : ∀ id, (middle.refreshed c).note id = middle.note id :=
    fun id => Notes.note_refreshed c middle (hproper id).plain
  have hadvances := hadvances.congr hsame
  refine ⟨⟨h.plain, h.range, h.identified, ?_, ?_, ?_⟩, ⟨i, hi, by rwa [hsame]⟩, ?_, ?_⟩
  · refine h.blank.validate hplain (fun id hid => ?_) hv
    rw [← Predicate.map_fst_nodes] at hid
    obtain ⟨⟨_, q⟩, hq, rfl⟩ := List.mem_map.mp hid
    exact h.range _ q (hsub hq)
  · intro id
    rw [hsame]
    exact hproper id
  · intro id q hq hmark
    rcases hadvances.settled id with hnote | ⟨q', hq', -, hsettled⟩
    · have hold : (s.notes.note id).wasChecked := by
        rwa [← hnote]
      obtain ⟨r, hr, hmem⟩ := List.mem_flatMap.mp hq
      exact (h.settled id q hq hold).le (Predicate.label_of_mem_nodes (h.plain r hr) hmem) hnote
        hadvances.marks
    · rw [h.identified id q q' hq (hsub hq')]
      exact hsettled
  · intro id hid
    rw [hsame]
    exact Predicate.checked_of_check hplain hid hcheck
  · rintro rfl id hid
    rw [Predicate.Unbound, hsame]
    exact Predicate.unbound_of_check p hplain hcheck (.inr hid)

/-- Every call keeps a session sound. -/
theorem IsSound.step {s' : Session} (h : s.IsSound c) (hstep : Step c s s') : s'.IsSound c := by
  cases hstep with
  | build hm hb hplain => exact h.build hm hb hplain
  | validate hp hv => exact (h.validate hp hv).1
  | toCanonical hp hv =>
    obtain ⟨_, -, hvalidate, -⟩ := Node.toCanonical_ok_iff.mp hv
    exact (h.validate hp hvalidate).1
  | compile hp hv =>
    obtain ⟨_, -, hvalidate, -⟩ := Predicate.compile_ok hv
    exact (h.validate hp hvalidate).1

theorem isSound_of_reachable (h : Reachable c s) : s.IsSound c := by
  induction h with
  | refl => exact isSound_initial c
  | tail _ hstep ih => exact ih.step hstep

/-! ### Sharing -/

/-- A filter may be read first, and what was read may then be negated. -/
theorem reachable_negation (v : Value) (shown : Shown Value) {q : Predicate} {b b' : Builder}
    (hv : Filter.Mentions (Holds {}) v)
    (hread : outcome (Filter.readArguments [v]) {} = (.ok (some p), b)) (hp : p.IsPlain)
    (hnegate : outcome (Filter.makeUnary (.text "not") (.node (.predicate p) shown)) ⟨b.next, []⟩ =
      (.ok q, b')) (hq : q.IsPlain) : Reachable c ⟨b'.next, [q, p], []⟩ := by
  have hfirst : Step c {} ⟨b.next, [p], []⟩ := by
    have hargs : Filter.MentionsItems (Holds {}) [v] := ⟨hv, trivial⟩
    refine .build (s := {}) (.read hargs) hread ?_
    rintro _ ⟨⟩
    exact hp
  obtain ⟨id, -, hid⟩ := Predicate.exists_label hp
  have hmem : (id, p) ∈ nodes ⟨b.next, [p], []⟩ :=
    List.mem_append_left _ (Predicate.mem_nodes_self hp hid)
  have hsecond : Step c ⟨b.next, [p], []⟩ ⟨b'.next, [q, p], []⟩ := by
    have hoperand : Filter.Mentions (Holds ⟨b.next, [p], []⟩) (.node (.predicate p) shown) :=
      ⟨id, hmem⟩
    refine .build (s := ⟨b.next, [p], []⟩) (.negate (.text "not") hoperand)
      ((outcome_bind_of_ok hnegate).trans (outcome_pure _)) ?_
    rintro _ ⟨⟩
    exact hq
  exact .tail (.tail .refl hfirst) hsecond

/-- The operands of a checked predicate are in the notes. They are those that the predicate has under
a schema exactly when it is current there. -/
theorem IsSound.exists_heldBy (h : s.IsSound c) (hp : s.Holds p) (hmarked : p.IsMarked s.notes) :
    ∃ t, p.HeldBy s.notes t ∧ ∀ schema,
      Predicate.ResolvesTo c schema p.condition t ↔ p.IsCurrent c s.notes schema := by
  have hplain : p.IsPlain := h.isPlain hp
  have hsub : p.nodes ⊆ s.nodes := h.nodes_subset hp
  have hsettled : ∀ id r, (id, r) ∈ p.nodes → r.Settled c s.notes := fun id r hr =>
    Predicate.settled_of_isMarked hplain (fun i r' hr' => h.settled i r' (hsub hr')) hmarked hr
  obtain ⟨t, ht, hiff⟩ := Predicate.resolve_iff_isCurrent p hplain hsettled
  exact ⟨t, ⟨ht, fun id _ => (h.proper id).plain⟩, hiff⟩

/-- **Sharing.** When a predicate of a session validates under a schema, the notes hold its operands.
They are those of a copy that shares no nodes exactly when the predicate is current, and then both
are used alike under that schema. Where there is no schema, the predicate is current. -/
theorem sharing_iff {schema : Option EntityId} {notes start : Notes} {q : Predicate}
    (hs : Reachable c s) (hp : s.Holds p)
    (hvalidate : outcome ((Node.predicate p).validate c schema) s.notes = (.ok (), notes))
    (hq : q.IsFreshCopy p start) :
    ∃ t, p.HeldBy notes t ∧
      (p.IsCurrent c notes schema ↔ Predicate.CopyResolvesTo c schema q start t) ∧
      (p.IsCurrent c notes schema → ∀ source context, Context.ofSource source = .ok context →
        context.schema = schema → Predicate.SameUse c source p q s.notes start) ∧
      (schema = none → p.IsCurrent c notes schema) := by
  have hsound := isSound_of_reachable hs
  have hplain : p.IsPlain := hsound.isPlain hp
  obtain ⟨hafter, hmarked, -, hunbound⟩ := hsound.validate hp hvalidate
  obtain ⟨t, hheld, hiff⟩ := hafter.exists_heldBy hp hmarked
  have hcopy : p.IsCurrent c notes schema ↔ Predicate.CopyResolvesTo c schema q start t :=
    (hiff schema).symm.trans (hq.copyResolvesTo_iff hplain).symm
  refine ⟨t, hheld, hcopy, ?_, ?_⟩
  · rintro hcurrent source context hsource rfl
    obtain ⟨start', u, hvalidate', hu, hsame⟩ := hcopy.mp hcurrent
    have hqplain : q.IsPlain := Predicate.isPlain_of_condition q p hq.condition hplain
    exact Predicate.sameUse_of_unmarked hplain hqplain hsource hvalidate hvalidate' hheld hu hsame
  · rintro rfl
    exact Predicate.isCurrent_of_unbound p hplain (hunbound rfl)

theorem sharing_iff_of_negation :
    let c : Catalog := [⟨.text "Item", [⟨"code", .data .string⟩], false, none, .same⟩]
    let eq : Operator := ⟨.text "eq", ["==", "=", "equals"], false⟩
    let not : Operator := ⟨.text "not", ["!", "~"], false⟩
    let part : Predicate := .comparison 0 eq (.text "code") (.text "5")
    let p : Predicate := .unary 1 not (some part)
    let q : Predicate := .unary 3 not (some (.comparison 2 eq (.text "code") (.text "5")))
    let s : Session := ⟨2, [p, part], []⟩
    Reachable c s ∧ s.Holds p ∧ q.IsFreshCopy p [] ∧
      ∃ notes, outcome ((Node.predicate p).validate c (some 0)) [] = (.ok (), notes) ∧
        p.IsCurrent c notes (some 0) ∧ Predicate.SameUse c (.entity 0) p q [] [] := by
  intro c eq not part p q s
  let operand : Resolved := .comparison eq
    (.path (.text "code") (some (.data .string)) (Mark.after (some 0) {}))
    (.literal (.text "5") (some (.data .string)) false (Mark.after (some 0) {}))
  have hpart : part.IsPlain := by
    simp [part, eq, Predicate.IsPlain, Operator.IsPlain, Value.IsPlain]
  have hp : p.IsPlain := ⟨by simp [not, Operator.IsPlain, Value.IsPlain], hpart⟩
  have hs : Reachable c s := reachable_negation (.map [(.text "code", .text "5")])
    ⟨.ok "", "", []⟩ ⟨trivial, trivial⟩ rfl hpart rfl hp
  have hholds : s.Holds p := ⟨1, List.mem_cons_self⟩
  have hq : q.IsFreshCopy p [] := ⟨rfl, by decide, fun _ _ => Note.unmarked_default⟩
  have hresolve : p.condition.resolve c (some 0) = .ok (.unary not operand) := by rfl
  obtain ⟨notes, hvalidate, hready⟩ := Predicate.validate_of_resolve [] hp (by decide)
    (fun _ _ => Note.unmarked_default) hresolve
  obtain ⟨t, ht, hiff, hsame, -⟩ := sharing_iff hs hholds hvalidate hq
  have htu : t = .unary not operand :=
    Option.some.inj (ht.resolvedIn.symm.trans hready.held.resolvedIn)
  have hcurrent : p.IsCurrent c notes (some 0) :=
    hiff.mpr ((hq.copyResolvesTo_iff hp).mpr ⟨_, hresolve, congrArg Resolved.unmarked htu.symm⟩)
  exact ⟨hs, hholds, hq, notes, hvalidate, hcurrent, hsame hcurrent _ _ rfl rfl⟩

/-- **A stale part.** A negation that bears the mark of a schema is not looked at again there. Its
operands are those that its part has under the schema that the part was checked against last. -/
theorem IsSound.validate_negation {op op' : Operator} {i j : Label} {left right : Value}
    {l r : Expr} {schema other : EntityId} (h : s.IsSound c)
    (hp : s.Holds (.unary i op (some (.comparison j op' left right))))
    (hskip : Check.Skips (some schema) i s.notes) (hmark : (s.notes.note j).checked = some other)
    (hlr : Predicate.operandsOf c (some other) left right = .ok (l, r)) :
    ∃ notes, outcome ((Node.predicate (.unary i op (some (.comparison j op' left right)))).validate c
        (some schema)) s.notes = (.ok (), notes) ∧
      Predicate.HeldBy (.unary i op (some (.comparison j op' left right))) notes
        (.unary op (.comparison op' l r)) := by
  have hplain := h.isPlain hp
  have hpart : (j, .comparison j op' left right) ∈ s.nodes :=
    h.nodes_subset hp (List.mem_cons_of_mem _ List.mem_cons_self)
  obtain ⟨-, l', r', hlr', hl, hr⟩ :=
    h.settled j _ hpart ((h.proper j).marked (by rw [hmark]; rfl))
  rw [hmark, hlr] at hlr'
  obtain ⟨rfl, rfl⟩ := Prod.mk.inj (Except.ok.inj hlr')
  have hheld : Predicate.HeldBy (.unary i op (some (.comparison j op' left right))) s.notes
      (.unary op (.comparison op' l r)) := by
    refine ⟨?_, fun id _ => (h.proper id).plain⟩
    rw [Predicate.resolvedIn, Predicate.resolvedOption, Predicate.resolvedIn, hl, hr]
    rfl
  exact ⟨_, Node.validate_ok_iff.mpr ⟨_, Predicate.check_of_skips hplain rfl hskip, rfl⟩,
    hheld.refreshed c⟩

theorem not_sharing_of_stale_part :
    let c : Catalog := [⟨.text "Item", [⟨"code", .data .string⟩], false, none, .same⟩,
      ⟨.text "Entry", [⟨"code", .data .int32⟩], false, none, .same⟩]
    let eq : Operator := ⟨.text "eq", ["==", "=", "equals"], false⟩
    let not : Operator := ⟨.text "not", ["!", "~"], false⟩
    let part : Predicate := .comparison 0 eq (.text "code") (.text "5")
    let p : Predicate := .unary 1 not (some part)
    let q : Predicate := .unary 3 not (some (.comparison 2 eq (.text "code") (.text "5")))
    let record : Value := .map [(.text "code", .int 5)]
    ∃ notes, Reachable c ⟨2, [p, part], notes⟩ ∧ q.IsFreshCopy p notes ∧
      ∃ program notes₁ other notes₂,
        outcome ((Node.predicate p).compile c (.ok {}) (.entity 0)) notes = (.ok program, notes₁) ∧
          outcome ((Node.predicate q).compile c (.ok {}) (.entity 0)) notes = (.ok other, notes₂) ∧
            program.Returns record (.bool false) ∧ other.Returns record (.bool true) := by
  intro c eq not part p q record
  let context : Context := { schema := some 0 }
  let operand : Resolved := .comparison eq
    (.path (.text "code") (some (.data .string)) (Mark.after (some 0) {}))
    (.literal (.text "5") (some (.data .string)) false (Mark.after (some 0) {}))
  let stale : Resolved := .comparison eq
    (.path (.text "code") (some (.data .int32)) (Mark.after (some 1) {}))
    (.literal (.int 5) (some (.data .int32)) false (Mark.after (some 1) {}))
  have hpart : part.IsPlain := by
    simp [part, eq, Predicate.IsPlain, Operator.IsPlain, Value.IsPlain]
  have hp : p.IsPlain := ⟨by simp [not, Operator.IsPlain, Value.IsPlain], hpart⟩
  have hq : q.IsPlain := Predicate.isPlain_of_condition q p rfl hp
  have hs : Reachable c ⟨2, [p, part], []⟩ :=
    reachable_negation (.map [(.text "code", .text "5")]) ⟨.ok "", "", []⟩ ⟨trivial, trivial⟩ rfl
      hpart rfl hp
  have hresolve : p.condition.resolve c (some 0) = .ok (.unary not operand) := by rfl
  have hresolve' : part.condition.resolve c (some 1) = .ok stale := by rfl
  -- the negation is validated under the first schema, and then its part under the second one
  have hholds : Holds ⟨2, [p, part], []⟩ p := ⟨1, List.mem_cons_self⟩
  obtain ⟨notes₁, hvalidate₁, -⟩ := Predicate.validate_of_resolve [] hp (by decide)
    (fun _ _ => Note.unmarked_default) hresolve
  have hs₁ : Reachable c ⟨2, [p, part], notes₁⟩ := .tail hs (.validate hholds hvalidate₁)
  obtain ⟨middle, hcheck⟩ := Predicate.check_ok_of_resolve part notes₁ hpart hresolve'
  have hholds₁ : Holds ⟨2, [p, part], notes₁⟩ part :=
    ⟨0, List.mem_cons_of_mem _ List.mem_cons_self⟩
  have hvalidate₂ : outcome ((Node.predicate part).validate c (some 1)) notes₁ =
      (.ok (), middle.refreshed c) := Node.validate_ok_iff.mpr ⟨middle, hcheck, rfl⟩
  have hs₂ : Reachable c ⟨2, [p, part], middle.refreshed c⟩ :=
    .tail hs₁ (.validate hholds₁ hvalidate₂)
  obtain ⟨hsound₁, -, hmark₁, -⟩ := (isSound_of_reachable hs).validate hholds hvalidate₁
  obtain ⟨hsound₂, -, hmark₂, -⟩ := hsound₁.validate hholds₁ hvalidate₂
  have hskip : Check.Skips (some 0) 1 (middle.refreshed c) := by
    refine ⟨rfl, ?_⟩
    rw [Node.note_validate hpart hvalidate₂ (by decide) (hsound₁.proper 1).plain]
    exact hmark₁ 1 rfl
  obtain ⟨notes₃, hvalidate₃, hheld⟩ :=
    hsound₂.validate_negation ⟨1, List.mem_cons_self⟩ hskip (hmark₂ 0 rfl) rfl
  -- a copy of the negation is validated under the first schema
  have habove : ∀ id : Nat, id ∈ q.labels → 2 ≤ id := by decide
  have hfresh : Notes.On Note.Unmarked q.labels (middle.refreshed c) :=
    hsound₂.blank.on_unmarked habove
  obtain ⟨notes₄, hvalidate₄, hready⟩ :=
    Predicate.validate_of_resolve _ hq (by decide) hfresh hresolve
  have hrun : Resolved.run c (.ok {}) context record (.unary not stale) = .ok (.bool false) := by
    change ((Value.equal (.int 5) (.int 5)).map Bool.not).map Value.bool = _
    simp only [Value.equal]
    rfl
  have hrun' : Resolved.run c (.ok {}) context record (.unary not operand) = .ok (.bool true) := by
    change ((Value.equal (.int 5) (.text "5")).map Bool.not).map Value.bool = _
    simp only [Value.equal]
    rfl
  have hsource : Context.ofSource (.entity 0) = .ok context := rfl
  exact ⟨_, hs₂, ⟨rfl, by decide, hfresh⟩, _, _, _, _,
    Predicate.compile_of_ready hsource hvalidate₃ hheld rfl,
    Predicate.compile_of_ready hsource hvalidate₄ hready.held rfl,
    fun current now => (Program.outcome_run hp hheld current).trans hrun,
    fun current now => (Program.outcome_run hq hready.held current).trans hrun'⟩

end

end Session

end RecordFilter
