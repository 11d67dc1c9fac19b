import RecordFilter.Proofs.Predicate.Condition

/-!
# Nodes of predicates

A node may stand at several places of a predicate, so the nodes of a predicate are listed with their
labels, and a label may occur more than once. It has to be that of one node then (`Identified`).
Statements about all nodes of a plain predicate are proved along the way from the predicate down to
the node (`Predicate.byNodes`).
-/

namespace RecordFilter

mutual

/-- The nodes of a predicate, each with its label. -/
def Predicate.nodes : Predicate → List (Label × Predicate)
  | .passthrough id text => [(id, .passthrough id text)]
  | .unary id op operand => (id, .unary id op operand) :: Predicate.nodesOf operand
  | .logical id op children => (id, .logical id op children) :: Predicate.nodesAll children
  | .comparison id op left right => [(id, .comparison id op left right)]
  | .quantified id op collection body =>
    (id, .quantified id op collection body) :: Predicate.nodesOf body
  | .bare _ => []

/-- The nodes of a predicate that may be absent. -/
def Predicate.nodesOf : Option Predicate → List (Label × Predicate)
  | none => []
  | some p => Predicate.nodes p

/-- The nodes of predicates. -/
def Predicate.nodesAll : List (Option Predicate) → List (Label × Predicate)
  | [] => []
  | p :: ps => Predicate.nodesOf p ++ Predicate.nodesAll ps

end

mutual

theorem Predicate.map_fst_nodes : ∀ p : Predicate, p.nodes.map Prod.fst = p.labels
  | .passthrough .. | .comparison .. | .bare _ => rfl
  | .unary id _ operand => congrArg (id :: ·) (Predicate.map_fst_nodesOf operand)
  | .logical id _ children => congrArg (id :: ·) (Predicate.map_fst_nodesAll children)
  | .quantified id _ _ body => congrArg (id :: ·) (Predicate.map_fst_nodesOf body)

theorem Predicate.map_fst_nodesOf :
    ∀ p : Option Predicate, (Predicate.nodesOf p).map Prod.fst = Predicate.labelsOf p
  | none => rfl
  | some p => Predicate.map_fst_nodes p

theorem Predicate.map_fst_nodesAll :
    ∀ ps : List (Option Predicate), (Predicate.nodesAll ps).map Prod.fst = Predicate.labelsAll ps
  | [] => rfl
  | p :: ps => by
    rw [Predicate.nodesAll, List.map_append, Predicate.map_fst_nodesOf p,
      Predicate.map_fst_nodesAll ps, Predicate.labelsAll]

end

/-- A label is that of one node only. -/
def Identified (nodes : List (Label × Predicate)) : Prop :=
  ∀ id p q, (id, p) ∈ nodes → (id, q) ∈ nodes → p = q

theorem Identified.mono {nodes more : List (Label × Predicate)} (h : Identified more)
    (hsub : nodes ⊆ more) : Identified nodes :=
  fun id p q hp hq => h id p q (hsub hp) (hsub hq)

/-- The predicates that a predicate is made of. -/
def Predicate.parts : Predicate → List (Option Predicate)
  | .unary _ _ operand => [operand]
  | .logical _ _ children => children
  | .quantified _ _ _ body => [body]
  | _ => []

theorem Predicate.exists_of_mem_nodesAll {e : Label × Predicate} :
    ∀ {ps : List (Option Predicate)}, e ∈ Predicate.nodesAll ps → ∃ r, some r ∈ ps ∧ e ∈ r.nodes
  | none :: ps, h => by
    have hrest : e ∈ Predicate.nodesAll ps := h
    obtain ⟨r, hr, hmem⟩ := Predicate.exists_of_mem_nodesAll hrest
    exact ⟨r, List.mem_cons_of_mem _ hr, hmem⟩
  | some p :: ps, h => by
    rcases List.mem_append.mp h with h | h
    · exact ⟨p, List.mem_cons_self, h⟩
    · obtain ⟨r, hr, hmem⟩ := Predicate.exists_of_mem_nodesAll h
      exact ⟨r, List.mem_cons_of_mem _ hr, hmem⟩

theorem Predicate.nodes_subset_nodesAll {r : Predicate} :
    ∀ {ps : List (Option Predicate)}, some r ∈ ps → r.nodes ⊆ Predicate.nodesAll ps
  | p :: ps, h => by
    rcases List.mem_cons.mp h with rfl | h
    · exact List.subset_append_left _ _
    · exact List.subset_append_of_subset_right _ (Predicate.nodes_subset_nodesAll h)

/-- A node of a predicate is the predicate itself or a node of one of its parts. -/
theorem Predicate.mem_nodes_iff {p q : Predicate} {id : Label} (hp : p.IsPlain) :
    (id, q) ∈ p.nodes ↔ p.label = some id ∧ q = p ∨ ∃ r, some r ∈ p.parts ∧ (id, q) ∈ r.nodes := by
  have hnodes : ∃ i, p.label = some i ∧ p.nodes = (i, p) :: Predicate.nodesAll p.parts := by
    cases p
    case bare => exact hp.elim
    case unary | quantified => exact ⟨_, rfl, by rw [parts, nodesAll, nodesAll, List.append_nil, nodes]⟩
    all_goals exact ⟨_, rfl, rfl⟩
  obtain ⟨i, hi, hnodes⟩ := hnodes
  rw [hnodes, hi]
  constructor
  · intro h
    rcases List.mem_cons.mp h with h | h
    · cases h
      exact .inl ⟨rfl, rfl⟩
    · exact .inr (Predicate.exists_of_mem_nodesAll h)
  · rintro (⟨hsame, rfl⟩ | ⟨r, hr, hmem⟩)
    · rw [Option.some.inj hsame]
      exact List.mem_cons_self
    · exact List.mem_cons_of_mem _ (Predicate.nodes_subset_nodesAll hr hmem)

theorem Predicate.plainAll_iff {ps : List (Option Predicate)} :
    Predicate.PlainAll ps ↔ ∀ r, some r ∈ ps → r.IsPlain := by
  induction ps with
  | nil => simp [PlainAll]
  | cons p ps ih =>
    rcases p with - | p <;> simp [PlainAll, PlainOption, ih]

theorem Predicate.IsPlain.of_mem_parts {p r : Predicate} (hp : p.IsPlain) (hr : some r ∈ p.parts) :
    r.IsPlain := by
  cases p
  case unary =>
    cases List.mem_singleton.mp hr
    exact hp.2
  case logical => exact Predicate.plainAll_iff.mp hp.2 r hr
  case quantified =>
    cases List.mem_singleton.mp hr
    exact hp.2.2
  all_goals cases hr

theorem Predicate.sizeOf_lt_of_mem_parts {p r : Predicate} (hr : some r ∈ p.parts) :
    sizeOf r < sizeOf p := by
  cases p
  case unary =>
    cases List.mem_singleton.mp hr
    simp only [Predicate.unary.sizeOf_spec, Option.some.sizeOf_spec]
    omega
  case logical id op children =>
    have hchild : some r ∈ children := hr
    have hlt := List.sizeOf_lt_of_mem hchild
    simp only [Option.some.sizeOf_spec] at hlt
    simp only [Predicate.logical.sizeOf_spec]
    omega
  case quantified =>
    cases List.mem_singleton.mp hr
    simp only [Predicate.quantified.sizeOf_spec, Option.some.sizeOf_spec]
    omega
  all_goals cases hr

/-- Induction over the way from a plain predicate to one of its nodes. -/
theorem Predicate.byNodes {motive : Predicate → Label → Predicate → Prop}
    (self : ∀ p id, p.IsPlain → p.label = some id → motive p id p)
    (part : ∀ p r id q, p.IsPlain → some r ∈ p.parts → motive r id q → motive p id q)
    (p : Predicate) (hp : p.IsPlain) {id : Label} {q : Predicate} (h : (id, q) ∈ p.nodes) :
    motive p id q := by
  rcases (Predicate.mem_nodes_iff hp).mp h with ⟨hid, rfl⟩ | ⟨r, hr, hq⟩
  · exact self q id hp hid
  · exact part p r id q hp hr (Predicate.byNodes self part r (hp.of_mem_parts hr) hq)
termination_by sizeOf p
decreasing_by exact Predicate.sizeOf_lt_of_mem_parts hr

theorem Predicate.label_of_mem_nodes {p q : Predicate} {id : Label} (hp : p.IsPlain)
    (h : (id, q) ∈ p.nodes) : q.label = some id :=
  Predicate.byNodes (motive := fun _ id q => q.label = some id) (fun _ _ _ hid => hid)
    (fun _ _ _ _ _ _ ih => ih) p hp h

/-- A node of a plain predicate is plain. -/
theorem Predicate.IsPlain.of_mem_nodes {p q : Predicate} {id : Label} (hp : p.IsPlain)
    (h : (id, q) ∈ p.nodes) : q.IsPlain :=
  Predicate.byNodes (motive := fun _ _ q => q.IsPlain) (fun _ _ hp _ => hp)
    (fun _ _ _ _ _ _ ih => ih) p hp h

/-- A node of a predicate is no larger than the predicate. -/
theorem Predicate.sizeOf_le_of_mem_nodes {p q : Predicate} {id : Label} (hp : p.IsPlain)
    (h : (id, q) ∈ p.nodes) : sizeOf q ≤ sizeOf p :=
  Predicate.byNodes (motive := fun p _ q => sizeOf q ≤ sizeOf p) (fun _ _ _ _ => Nat.le_refl _)
    (fun _ _ _ _ _ hr ih => Nat.le_of_lt (Nat.lt_of_le_of_lt ih (sizeOf_lt_of_mem_parts hr))) p hp h

/-- The nodes of a node of a predicate are nodes of the predicate. -/
theorem Predicate.nodes_subset {p q : Predicate} {id : Label} (hp : p.IsPlain)
    (h : (id, q) ∈ p.nodes) : q.nodes ⊆ p.nodes := by
  refine Predicate.byNodes (motive := fun p _ q => q.nodes ⊆ p.nodes)
    (fun _ _ _ _ => List.Subset.refl _) (fun p r _ _ hp hr ih => ?_) p hp h
  intro ⟨i, s⟩ hs
  exact (Predicate.mem_nodes_iff hp).mpr (.inr ⟨r, hr, ih hs⟩)

/-- A quantifier is not a node of its own body. -/
theorem Identified.not_mem_body {id : Label} {op : Operator} {collection : Value}
    {body : Option Predicate} (hbody : Predicate.PlainOption body)
    (h : Identified (Predicate.quantified id op collection body).nodes) :
    id ∉ Predicate.labelsOf body := by
  intro hid
  rw [← Predicate.map_fst_nodesOf] at hid
  obtain ⟨⟨_, q⟩, hq, rfl⟩ := List.mem_map.mp hid
  have hsame := h _ _ q List.mem_cons_self (List.mem_cons_of_mem _ hq)
  rcases body with - | p
  · cases hq
  · have hle := Predicate.sizeOf_le_of_mem_nodes hbody hq
    rw [← hsame, Predicate.quantified.sizeOf_spec, Option.some.sizeOf_spec] at hle
    omega

theorem Predicate.mem_nodes_self {p : Predicate} {id : Label} (hp : p.IsPlain)
    (hid : p.label = some id) : (id, p) ∈ p.nodes :=
  (Predicate.mem_nodes_iff hp).mpr (.inl ⟨hid, rfl⟩)

end RecordFilter
