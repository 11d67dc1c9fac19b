import RecordFilter.Proofs.Filter.Shape
import RecordFilter.Proofs.Predicate.Nodes

/-!
# Building on known predicates

Filters may hold predicates that were built before, and these become parts of the predicates that
are built from the filters, at as many places as they are held at. A predicate that is built from
known ones consists of nodes of these and of new nodes, each with a label that was not given out
before (`Filter.grownFrom_of_call`). So a label keeps being that of one node.
-/

namespace RecordFilter.Filter

/-- The calls that build predicates from filters over known ones. -/
inductive Call (known : Predicate → Prop) : Build (Option Predicate) → Prop
  | read {args : List Value} : MentionsItems known args → Call known (readArguments args)
  | join {args : List Value} (op : Value) : MentionsItems known args →
      Call known (makeLogical op (.list args))
  | negate {operand : Value} (op : Value) : Mentions known operand →
      Call known (do return some (← makeUnary op operand))
  | quantify {body : Value} (op collection : Value) : Mentions known body →
      Call known (do return some (← makeQuantified op collection body))

/-- Between two states of the builder, predicates were built from known nodes and from new ones, with
a label of its own for each new one. -/
structure GrownFrom (known : List (Label × Predicate)) (b b' : Builder)
    (ps : List (Option Predicate)) : Prop where
  le : b.next ≤ b'.next
  told : b'.told = b.told
  nodes : (∀ id : Nat, ∀ q, (id, q) ∈ known → id < b.next) → ∀ id : Nat, ∀ q,
    (id, q) ∈ Predicate.nodesAll ps → (id, q) ∈ known ∨ b.next ≤ id ∧ id < b'.next
  identified : (∀ id : Nat, ∀ q, (id, q) ∈ known → id < b.next) → ∀ id : Nat, ∀ p q,
    (id, p) ∈ Predicate.nodesAll ps → (id, q) ∈ Predicate.nodesAll ps → b.next ≤ id → p = q

theorem nodesAll_append (ps qs : List (Option Predicate)) :
    Predicate.nodesAll (ps ++ qs) = Predicate.nodesAll ps ++ Predicate.nodesAll qs := by
  induction ps with
  | nil => rfl
  | cons p ps ih => simp only [List.cons_append, Predicate.nodesAll, ih, List.append_assoc]

theorem nodesAll_singleton (p : Option Predicate) : Predicate.nodesAll [p] = Predicate.nodesOf p :=
  List.append_nil _

theorem nodesAll_subset {ps qs : List (Option Predicate)} (h : qs.Sublist ps) :
    Predicate.nodesAll qs ⊆ Predicate.nodesAll ps := by
  induction h with
  | slnil => exact List.Subset.refl _
  | cons p _ ih => exact List.Subset.trans ih (List.subset_append_right _ _)
  | cons_cons p _ ih =>
    exact List.append_subset.mpr ⟨List.subset_append_left _ _,
      List.Subset.trans ih (List.subset_append_right _ _)⟩

namespace GrownFrom

variable {known : List (Label × Predicate)} {b b' : Builder} {ps qs : List (Option Predicate)}

/-- A new node above predicates that were built. -/
theorem node (h : GrownFrom known b b' ps) {p : Predicate}
    (hp : Predicate.nodes p = (b'.next, p) :: Predicate.nodesAll ps) :
    GrownFrom known b b'.step [some p] where
  le := Nat.le_succ_of_le h.le
  told := h.told
  nodes hknown id q hq := by
    have hle := h.le
    rw [nodesAll_singleton, Predicate.nodesOf, hp] at hq
    rcases List.mem_cons.mp hq with hq | hq
    · cases hq
      exact .inr ⟨hle, Nat.lt_succ_self _⟩
    · exact (h.nodes hknown id q hq).imp_right fun ⟨hlo, hhi⟩ => ⟨hlo, Nat.lt_succ_of_lt hhi⟩
  identified hknown id q q' hq hq' hid := by
    -- the new label is above those of all other nodes
    have hbelow : ∀ id : Nat, ∀ q, (id, q) ∈ Predicate.nodesAll ps → id < b'.next := by
      intro id q hq
      rcases h.nodes hknown id q hq with hq | ⟨-, hhi⟩
      · exact Nat.lt_of_lt_of_le (hknown id q hq) h.le
      · exact hhi
    rw [nodesAll_singleton, Predicate.nodesOf, hp] at hq hq'
    rcases List.mem_cons.mp hq with hq | hq <;> rcases List.mem_cons.mp hq' with hq' | hq'
    · cases hq
      cases hq'
      rfl
    · cases hq
      exact absurd (hbelow _ _ hq') (Nat.lt_irrefl _)
    · cases hq'
      exact absurd (hbelow _ _ hq) (Nat.lt_irrefl _)
    · exact h.identified hknown id q q' hq hq' hid

theorem nil (known : List (Label × Predicate)) (b : Builder) : GrownFrom known b b [] where
  le := Nat.le_refl _
  told := rfl
  nodes _ _ _ hq := by cases hq
  identified _ _ _ _ hq := by cases hq

theorem mono (h : GrownFrom known b b' ps) (hsub : Predicate.nodesAll qs ⊆ Predicate.nodesAll ps) :
    GrownFrom known b b' qs where
  le := h.le
  told := h.told
  nodes hknown id q hq := h.nodes hknown id q (hsub hq)
  identified hknown id p q hp hq := h.identified hknown id p q (hsub hp) (hsub hq)

theorem append {middle : Builder} (h : GrownFrom known b middle ps)
    (h' : GrownFrom known middle b' qs) : GrownFrom known b b' (ps ++ qs) where
  le := Nat.le_trans h.le h'.le
  told := h'.told.trans h.told
  nodes hknown id q hq := by
    have hknown' : ∀ id : Nat, ∀ q, (id, q) ∈ known → id < middle.next :=
      fun i r hr => Nat.lt_of_lt_of_le (hknown i r hr) h.le
    rw [nodesAll_append] at hq
    rcases List.mem_append.mp hq with hq | hq
    · exact (h.nodes hknown id q hq).imp_right fun ⟨hlo, hhi⟩ => ⟨hlo, Nat.lt_of_lt_of_le hhi h'.le⟩
    · exact (h'.nodes hknown' id q hq).imp_right fun ⟨hlo, hhi⟩ => ⟨Nat.le_trans h.le hlo, hhi⟩
  identified hknown id p q hp hq hid := by
    have hknown' : ∀ id : Nat, ∀ q, (id, q) ∈ known → id < middle.next :=
      fun i r hr => Nat.lt_of_lt_of_le (hknown i r hr) h.le
    have hnew : ∀ r, (id, r) ∉ known := fun r hr =>
      absurd (hknown id r hr) (Nat.not_lt.mpr hid)
    -- new nodes of the first predicates lie below the middle, those of the others above it
    have hlow : ∀ r, (id, r) ∈ Predicate.nodesAll ps → id < middle.next := fun r hr =>
      ((h.nodes hknown id r hr).resolve_left (hnew r)).2
    have hhigh : ∀ r, (id, r) ∈ Predicate.nodesAll qs → middle.next ≤ id := fun r hr =>
      ((h'.nodes hknown' id r hr).resolve_left (hnew r)).1
    rw [nodesAll_append] at hp hq
    rcases List.mem_append.mp hp with hp | hp <;> rcases List.mem_append.mp hq with hq | hq
    · exact h.identified hknown id p q hp hq hid
    · exact absurd (hlow p hp) (Nat.not_lt.mpr (hhigh q hq))
    · exact absurd (hlow q hq) (Nat.not_lt.mpr (hhigh p hp))
    · exact h'.identified hknown' id p q hp hq (hhigh p hp)

end GrownFrom

theorem grownFrom_growth {held : Predicate → Prop} {known : List (Label × Predicate)}
    (hheld : ∀ p, held p → p.nodes ⊆ known) : Growth held (GrownFrom known) where
  nil := .nil known
  append := .append
  sublist h hsub := h.mono (nodesAll_subset hsub)
  absent h := h.mono (List.nil_subset _)
  known := by
    intro b p hp
    have hnodes : Predicate.nodesAll [some p] ⊆ known := by
      rw [nodesAll_singleton]
      exact hheld p hp
    refine ⟨Nat.le_refl _, rfl, fun _ id q hq => .inl (hnodes hq), fun hknown id q q' hq _ hid => ?_⟩
    exact absurd (hknown id q (hnodes hq)) (Nat.not_lt.mpr hid)
  passthrough _ := (GrownFrom.nil known _).node rfl
  comparison _ _ _ := (GrownFrom.nil known _).node rfl
  unary _ h := h.node (by rw [nodesAll_singleton]; rfl)
  logical _ h := h.node rfl
  quantified _ _ h := h.node (by rw [nodesAll_singleton]; rfl)

section

variable {known : Predicate → Prop} {R : Builder → Builder → List (Option Predicate) → Prop}
  (hR : Growth known R)

include hR

theorem agrees_readArguments {args : List Value} (h : MentionsItems known args) (b : Builder) :
    ∃ x, Agrees (Built R b) (readArguments args) b x := by
  match args, h with
  | [], _ => exact ⟨_, Agrees.throw _⟩
  | [v], h => exact ⟨_, agrees_read hR v b h.1⟩
  | k :: v :: rest, h =>
    exact ⟨chainFault (k :: v :: rest) >>= fun _ => shapeChain k (v :: rest),
      (agrees_checkChain _ b).bind fun _ _ b' hb => by
        subst hb
        exact agrees_readChain hR k (v :: rest) b' h.2⟩

/-- Calls build on known predicates. -/
theorem built_of_call {m : Build (Option Predicate)} (hm : Call known m) {b b' : Builder}
    {p : Option Predicate} (h : outcome m b = (.ok p, b')) : R b b' [p] := by
  have hagrees : ∃ x, Agrees (Built R b) m b x := by
    cases hm with
    | read hargs => exact agrees_readArguments hR hargs b
    | @join args op hargs =>
      refine ⟨operatorOf "logical" op >>= fun _ => shapeEntry op (.list args),
        (agrees_resolve _ _ b).bind fun _ _ b' hb => ?_⟩
      obtain ⟨-, rfl⟩ := hb
      exact agrees_readEntry hR op (.list args) b' hargs
    | @negate operand op hoperand =>
      have hmake : Agrees (fun p t b' => Built R b (some p) t b') (makeUnary op operand) b
          (operatorOf "unary" op >>= fun op => shape operand >>= fun t => .ok (.unary op t)) := by
        refine (agrees_resolve _ _ b).bind fun _ op b₁ hop => ?_
        obtain ⟨rfl, rfl⟩ := hop
        refine (agrees_read hR operand b₁ hoperand).bind fun p t b₂ hp => ?_
        obtain ⟨rfl, hp⟩ := hp
        exact ⟨_, _, rfl, rfl, hR.unary op hp⟩
      exact ⟨_, hmake.map fun _ _ _ hp => hp⟩
    | @quantify body op collection hbody =>
      have hmake : Agrees (fun p t b' => Built R b (some p) t b') (makeQuantified op collection body)
          b (operatorOf "quantified" op >>= fun op => shape body >>= fun t =>
            .ok (.quantified op collection t)) := by
        refine (agrees_resolve _ _ b).bind fun _ op b₁ hop => ?_
        obtain ⟨rfl, rfl⟩ := hop
        refine (agrees_read hR body b₁ hbody).bind fun p t b₂ hp => ?_
        obtain ⟨rfl, hp⟩ := hp
        exact ⟨_, _, rfl, rfl, hR.quantified op collection hp⟩
      exact ⟨_, hmake.map fun _ _ _ hp => hp⟩
  obtain ⟨x, hagrees⟩ := hagrees
  rcases x with f | t
  · obtain ⟨s, hs⟩ := hagrees
    rw [h] at hs
    cases hs
  · obtain ⟨p', s, hs, -, hgrown⟩ := hagrees
    rw [h] at hs
    cases hs
    exact hgrown

end

/-- **A predicate is built from known nodes and from new ones.** -/
theorem grownFrom_of_call {held : Predicate → Prop} {known : List (Label × Predicate)}
    (hheld : ∀ p, held p → p.nodes ⊆ known) {m : Build (Option Predicate)} (hm : Call held m)
    {b b' : Builder} {p : Option Predicate} (h : outcome m b = (.ok p, b')) :
    GrownFrom known b b' [p] :=
  built_of_call (grownFrom_growth hheld) hm h

end RecordFilter.Filter
