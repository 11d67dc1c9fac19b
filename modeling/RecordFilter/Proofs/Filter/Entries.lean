import Mathlib.Data.List.Forall2
import RecordFilter.Filter
import RecordFilter.Proofs.Outcome

/-!
# Maps of operators under a path

The map under a path, as in `freight ↦ (gt ↦ 100, lt ↦ 200)`, is read entry by entry, and every
entry gives one node (`Filter.IsEntryNode`): a test of a collection or a comparison, with the operator
that the key of the entry resolves to. An entry whose key is neither is refused, unless the entry is
*masked*: its operand spells out its value in a map of its own. Such an entry is read as a test of
equality, and what its key says is lost (`Filter.IsMasked`).

So a map of operators is read faithfully exactly when no entry of it is masked
(`Filter.isFaithful_iff_of_readArguments`).
-/

namespace RecordFilter

namespace Filter

/-! ### The nodes of entries -/

/-- The node that an entry of a map of operators under a path calls for: a quantifier over the path,
with what is read from the operand, or a comparison of the path and the operand. -/
inductive IsEntryNode (key : Value) : Value × Value → Predicate → Prop
  | quantified {op operand : Value} {m : MarkedOperator Bool} {body : Option Predicate}
      {b b' : Builder} (id : Label) :
      Operator.quantified? op = some m → outcome (read operand) b = (.ok body, b') →
        IsEntryNode key (op, operand) (.quantified id m.toOperator key body)
  | comparison {op operand : Value} {m : MarkedOperator Bool} (id : Label) :
      Operator.quantified? op = none → Operator.comparison? op = some m →
        IsEntryNode key (op, operand) (.comparison id m.toOperator key operand)

/-- The key of an entry is no known operator. -/
structure IsUnknown (e : Value × Value) : Prop where
  quantified : Operator.quantified? e.1 = none
  comparison : Operator.comparison? e.1 = none

/-- The key of an entry is no known operator, and its operand is a map that spells its value out. -/
structure IsMasked (e : Value × Value) : Prop extends IsUnknown e where
  wrapper : isWrapper e.2

/-- The node that a masked entry of a map under a path is read as: a test of equality. -/
inductive IsMaskedNode (key : Value) : Value × Value → Predicate → Prop
  | equal {op operand : Value} {m : MarkedOperator Bool} (id : Label) :
      IsMasked (op, operand) → Operator.comparison? (.text "eq") = some m →
        IsMaskedNode key (op, operand) (.comparison id m.toOperator key operand)

/-- The predicate that joins predicates by `and`: there is none, it is the only one, or it is a node
above all of them. -/
inductive IsJoined : List Predicate → Option Predicate → Prop
  | none : IsJoined [] none
  | one (p : Predicate) : IsJoined [p] (some p)
  | many {m : MarkedOperator Bool} (id : Label) (p q : Predicate) (ps : List Predicate) :
      Operator.logical? (.text "and") = some m →
        IsJoined (p :: q :: ps) (some (.logical id m.toOperator ((p :: q :: ps).map some)))

/-- The predicate says what a map of operators under a path says: it joins one node for each entry, in
order. -/
def IsFaithful (key : Value) (entries : List (Value × Value)) (p : Option Predicate) : Prop :=
  ∃ ps, IsJoined ps p ∧ List.Forall₂ (IsEntryNode key) entries ps

/-- An entry of a map of operators keeps the reading from going on: its body faults, or its key is
unknown and the message about it quotes a value without a text. -/
inductive IsStopped (key : Value) (fault : Fault) : Value × Value → Prop
  | body {op operand : Value} {b b' : Builder} :
      (Operator.quantified? op).isSome → outcome (read operand) b = (.error fault, b') →
        IsStopped key fault (op, operand)
  | message {op operand : Value} :
      IsUnknown (op, operand) →
        (key.toText = .error fault ∨ op.toText = .error fault ∨ operand.toText = .error fault) →
          IsStopped key fault (op, operand)

theorem not_isMasked_of_isEntryNode {key : Value} {e : Value × Value} {p : Predicate}
    (h : IsEntryNode key e p) : ¬ IsMasked e := by
  intro hmasked
  cases h with
  | quantified id hq => exact Option.some_ne_none _ (hq.symm.trans hmasked.quantified)
  | comparison id _ hc => exact Option.some_ne_none _ (hc.symm.trans hmasked.comparison)

/-! ### Steps of reading -/

theorem canFind_of_find? {kind : Text} {token : Value} {m : MarkedOperator Bool}
    (h : Registry.standard.find? kind token = some m) : Registry.canFind token := by
  obtain ⟨s, hs, -⟩ := Option.bind_eq_some_iff.mp h
  cases token
  case operator o =>
    obtain ⟨key, aliases, isFunction⟩ := o
    cases key
    case text => rfl
    case token => rfl
    all_goals cases hs
  all_goals rfl

/-- A value that names an operator resolves to it. -/
theorem outcome_resolve {kind : Text} {token : Value} {m : MarkedOperator Bool}
    (h : Registry.standard.find? kind token = some m) (b : Builder) :
    outcome (resolve kind token) b = (.ok m.toOperator, b) := by
  have hlookup : Registry.standard.resolve kind token = .ok m := by
    rw [Registry.resolve, Registry.lookup, if_pos (canFind_of_find? h), h]
    rfl
  rw [resolve, hlookup]
  rfl

theorem outcome_textOf_error {v : Value} {fault : Fault} {b b' : Builder}
    (h : outcome (Build.textOf v) b = (.error fault, b')) : v.toText = .error fault := by
  have hlift : ∀ b₁ : Builder, outcome (liftM v.toText : Build Text) b₁ = (.error fault, b') →
      v.toText = .error fault := by
    intro b₁ h₁
    rw [outcome_lift] at h₁
    exact congrArg Prod.fst h₁
  cases v
  case node n shown =>
    rw [Build.textOf, outcome_bind_of_ok (outcome_modify _)] at h
    exact hlift _ h
  all_goals exact hlift b h

/-- An entry with an unknown key is refused, if the message about it can be worded. -/
theorem outcome_unknownEntry_error {key op operand : Value} {fault : Fault} {b b' : Builder}
    (h : outcome (unknownEntry key op operand) b = (.error fault, b')) :
    (∃ e, fault = .construction e) ∨ key.toText = .error fault ∨ op.toText = .error fault ∨
      operand.toText = .error fault := by
  rw [unknownEntry] at h
  rcases outcome_bind_eq_error_iff.mp h with h | ⟨phrase, b₁, -, h⟩
  · exact .inr (.inl (outcome_textOf_error h))
  rcases outcome_bind_eq_error_iff.mp h with h | ⟨text, b₂, -, h⟩
  · exact .inr (.inr (.inl (outcome_textOf_error h)))
  rcases outcome_bind_eq_error_iff.mp h with h | ⟨shown, b₃, -, h⟩
  · exact .inr (.inr (.inr (outcome_textOf_error h)))
  · cases h
    exact .inl ⟨_, rfl⟩

theorem unknownEntry_ne_ok {key op operand : Value} {p : Predicate} {b b' : Builder} :
    outcome (unknownEntry key op operand) b ≠ (.ok p, b') := by
  intro h
  rw [unknownEntry] at h
  obtain ⟨phrase, b₁, -, h⟩ := outcome_bind_eq_ok_iff.mp h
  obtain ⟨text, b₂, -, h⟩ := outcome_bind_eq_ok_iff.mp h
  obtain ⟨shown, b₃, -, h⟩ := outcome_bind_eq_ok_iff.mp h
  cases h

/-! ### One entry -/

/-- Reads an entry of a map of operators under a path. -/
def readOperator (key : Value) (e : Value × Value) : Build Predicate :=
  if (Operator.quantified? e.1).isSome then do
    let quantifier ← resolve "quantified" e.1
    quantify quantifier key (← read e.2)
  else comparisonEntry key e.1 e.2

theorem readOperators_cons (key op operand : Value) (rest : List (Value × Value)) :
    readOperators key ((op, operand) :: rest) =
      (do
        let p ← readOperator key (op, operand)
        return p :: (← readOperators key rest)) := by
  rw [readOperators, readOperator]
  split
  · simp only [bind_assoc]
  · rfl

section

variable {key op operand : Value} {m : MarkedOperator Bool}

theorem outcome_readOperator_quantified (h : Operator.quantified? op = some m) (b : Builder) :
    outcome (readOperator key (op, operand)) b =
      outcome (do quantify m.toOperator key (← read operand)) b := by
  have hsome : (Operator.quantified? op).isSome := Option.isSome_of_eq_some h
  rw [readOperator, if_pos hsome, outcome_bind_of_ok (outcome_resolve h b)]

theorem outcome_readOperator_comparison (hq : Operator.quantified? op = none)
    (hc : Operator.comparison? op = some m) (b : Builder) :
    outcome (readOperator key (op, operand)) b = outcome (compare m.toOperator key operand) b := by
  have hnone : ¬ (Operator.quantified? op).isSome := by simp [hq]
  have hsome : (Operator.comparison? op).isSome := Option.isSome_of_eq_some hc
  rw [readOperator, if_neg hnone, comparisonEntry, if_pos hsome,
    outcome_bind_of_ok (outcome_resolve hc b)]

/-- An entry with an unknown key is a test of equality if it is masked, and is refused otherwise. -/
theorem readOperator_unknown (h : IsUnknown (op, operand)) :
    readOperator key (op, operand) =
      if isWrapper operand then do compare (← resolve "comparison" (.text "eq")) key operand
      else unknownEntry key op operand := by
  have hq : ¬ (Operator.quantified? op).isSome := by simp [h.quantified]
  have hc : ¬ (Operator.comparison? op).isSome := by simp [h.comparison]
  rw [readOperator, if_neg hq, comparisonEntry, if_neg hc]

end

theorem comparison?_eq :
    Operator.comparison? (.text "eq") = some ⟨"eq", ["==", "=", "equals"], false⟩ := rfl

section

variable {key : Value} {e : Value × Value} {b b' : Builder}

/-- **An entry that is read gives the node that it calls for**, unless it is masked. -/
theorem readOperator_ok {p : Predicate} (h : outcome (readOperator key e) b = (.ok p, b')) :
    IsEntryNode key e p ∨ IsMaskedNode key e p := by
  obtain ⟨op, operand⟩ := e
  rcases hq : Operator.quantified? op with - | m
  · rcases hc : Operator.comparison? op with - | m
    · rw [readOperator_unknown ⟨hq, hc⟩] at h
      split at h
      · rename_i hwrapper
        rw [outcome_bind_of_ok (outcome_resolve comparison?_eq b)] at h
        cases h
        exact .inr (.equal _ ⟨⟨hq, hc⟩, hwrapper⟩ comparison?_eq)
      · exact (unknownEntry_ne_ok h).elim
    · rw [outcome_readOperator_comparison hq hc] at h
      cases h
      exact .inl (.comparison _ hq hc)
  · rw [outcome_readOperator_quantified hq] at h
    obtain ⟨body, b₁, hbody, h⟩ := outcome_bind_eq_ok_iff.mp h
    cases h
    exact .inl (.quantified _ hq hbody)

/-- An entry that is not read is refused, or it stops the reading. -/
theorem readOperator_error {fault : Fault}
    (h : outcome (readOperator key e) b = (.error fault, b')) :
    (∃ error, fault = .construction error) ∨ IsStopped key fault e := by
  obtain ⟨op, operand⟩ := e
  rcases hq : Operator.quantified? op with - | m
  · rcases hc : Operator.comparison? op with - | m
    · rw [readOperator_unknown ⟨hq, hc⟩] at h
      split at h
      · rw [outcome_bind_of_ok (outcome_resolve comparison?_eq b)] at h
        cases h
      · exact (outcome_unknownEntry_error h).imp_right (.message ⟨hq, hc⟩)
    · rw [outcome_readOperator_comparison hq hc] at h
      cases h
  · rw [outcome_readOperator_quantified hq] at h
    rcases outcome_bind_eq_error_iff.mp h with hbody | ⟨body, b₁, -, h⟩
    · exact .inr (.body (Option.isSome_of_eq_some hq) hbody)
    · cases h

end

/-! ### All entries -/

section

variable {key : Value} {entries : List (Value × Value)} {b b' : Builder}

/-- **The entries that are read give one node each, in order.** -/
theorem readOperators_ok {ps : List Predicate}
    (h : outcome (readOperators key entries) b = (.ok ps, b')) :
    List.Forall₂ (fun e p => IsEntryNode key e p ∨ IsMaskedNode key e p) entries ps := by
  induction entries generalizing b ps with
  | nil =>
    cases h
    exact .nil
  | cons e rest ih =>
    obtain ⟨op, operand⟩ := e
    rw [readOperators_cons] at h
    obtain ⟨p, b₁, hp, h⟩ := outcome_bind_eq_ok_iff.mp h
    obtain ⟨qs, b₂, hqs, h⟩ := outcome_bind_eq_ok_iff.mp h
    cases h
    exact .cons (readOperator_ok hp) (ih hqs)

/-- Entries that are not read are refused, or one of them stops the reading. -/
theorem readOperators_error {fault : Fault}
    (h : outcome (readOperators key entries) b = (.error fault, b')) :
    (∃ error, fault = .construction error) ∨ ∃ e ∈ entries, IsStopped key fault e := by
  induction entries generalizing b with
  | nil => cases h
  | cons e rest ih =>
    obtain ⟨op, operand⟩ := e
    rw [readOperators_cons] at h
    rcases outcome_bind_eq_error_iff.mp h with h | ⟨p, b₁, -, h⟩
    · exact (readOperator_error h).imp_right fun hstop => ⟨_, List.mem_cons_self, hstop⟩
    rcases outcome_bind_eq_error_iff.mp h with h | ⟨ps, b₂, -, h⟩
    · exact (ih h).imp_right fun ⟨e', hmem, hstop⟩ => ⟨e', List.mem_cons_of_mem _ hmem, hstop⟩
    · cases h

/-- The nodes of entries of which none is masked are those that the entries call for. -/
theorem forall₂_isEntryNode {ps : List Predicate}
    (h : List.Forall₂ (fun e p => IsEntryNode key e p ∨ IsMaskedNode key e p) entries ps)
    (hmasked : ∀ e ∈ entries, ¬ IsMasked e) : List.Forall₂ (IsEntryNode key) entries ps := by
  induction h with
  | nil => exact .nil
  | cons hp _ ih =>
    rw [List.forall_mem_cons] at hmasked
    refine .cons ?_ (ih hmasked.2)
    rcases hp with hp | ⟨_, hwrapped, _⟩
    · exact hp
    · exact (hmasked.1 hwrapped).elim

/-- A predicate that says what entries say stands for no masked one. -/
theorem IsFaithful.not_isMasked {p : Option Predicate} (h : IsFaithful key entries p) :
    ∀ e ∈ entries, ¬ IsMasked e := by
  obtain ⟨ps, -, hps⟩ := h
  induction hps with
  | nil => simp
  | cons hp _ ih => exact List.forall_mem_cons.mpr ⟨not_isMasked_of_isEntryNode hp, ih⟩

/-- Joining predicates by `and` succeeds. -/
theorem outcome_joinEntries (ps : List Predicate) (b : Builder) :
    ∃ p b', outcome (joinEntries (ps.map some)) b = (.ok p, b') ∧ IsJoined ps p := by
  have hand : Operator.logical? (.text "and") = some ⟨"and", ["&&"], false⟩ := rfl
  rcases ps with - | ⟨p, - | ⟨q, ps⟩⟩
  · exact ⟨none, b, rfl, .none⟩
  · exact ⟨some p, b, rfl, .one p⟩
  · -- every one of them is present, so none is dropped
    have hfilter : ((p :: q :: ps).map some).filter Option.isSome = (p :: q :: ps).map some := by
      simp
    have hjoin : joinEntries ((p :: q :: ps).map some) = (do
        join (← resolve "logical" (.text "and"))
          (((p :: q :: ps).map some).filter Option.isSome)) := rfl
    rw [hjoin, hfilter, outcome_bind_of_ok (outcome_resolve hand b)]
    exact ⟨_, _, rfl, .many b.next p q ps hand⟩

/-- A map of operators under a path is read entry by entry. -/
theorem outcome_readArguments_operators (hlogical : Operator.logical? key = none)
    (hunary : Operator.unary? key = none) (hvalue : isWrapper (.map entries) = false)
    (b : Builder) :
    outcome (readArguments [.map [(key, .map entries)]]) b =
      outcome (do joinEntries ((← readOperators key entries).map some)) b := by
  have hentry : readEntry key (.map entries) =
      (do joinEntries ((← readOperators key entries).map some)) := by
    rw [readEntry, hlogical, hunary, hvalue]
    rfl
  have hread : readArguments [.map [(key, .map entries)]] =
      (do joinEntries (← readEntries [(key, .map entries)])) := by
    rw [readArguments, read]
  rw [hread, readEntries, hentry]
  rcases h : outcome (do joinEntries ((← readOperators key entries).map some)) b with ⟨f | p, b'⟩
  · exact outcome_bind_of_error (outcome_bind_of_error h)
  · have hone : outcome (do
        let p ← (do joinEntries ((← readOperators key entries).map some) : Build _)
        return p :: (← readEntries [])) b = (.ok [p], b') := by
      rw [outcome_bind_of_ok h]
      rfl
    rw [outcome_bind_of_ok hone]
    rfl

/-- **Maps of operators are read faithfully but for masked entries.** When reading the map gives a
predicate, it joins a node for each entry, in order: the one that the entry calls for, or a test of
equality if the entry is masked. So it says what the map says exactly when no entry is masked. When
reading fails, the map is refused, or one of its entries stops the reading. -/
theorem isFaithful_iff_of_readArguments (hlogical : Operator.logical? key = none)
    (hunary : Operator.unary? key = none) (hvalue : isWrapper (.map entries) = false)
    (b : Builder) :
    (∀ p b', outcome (readArguments [.map [(key, .map entries)]]) b = (.ok p, b') →
      (∃ ps, IsJoined ps p ∧
        List.Forall₂ (fun e p => IsEntryNode key e p ∨ IsMaskedNode key e p) entries ps) ∧
      (IsFaithful key entries p ↔ ∀ e ∈ entries, ¬ IsMasked e)) ∧
    ∀ fault b', outcome (readArguments [.map [(key, .map entries)]]) b = (.error fault, b') →
      (∃ error, fault = .construction error) ∨ ∃ e ∈ entries, IsStopped key fault e := by
  rw [outcome_readArguments_operators hlogical hunary hvalue]
  constructor
  · intro p b' h
    obtain ⟨ps, b₁, hps, h⟩ := outcome_bind_eq_ok_iff.mp h
    obtain ⟨q, b₂, hq, hjoined⟩ := outcome_joinEntries ps b₁
    rw [h] at hq
    cases hq
    have hnodes := readOperators_ok hps
    exact ⟨⟨ps, hjoined, hnodes⟩, IsFaithful.not_isMasked,
      fun hmasked => ⟨ps, hjoined, forall₂_isEntryNode hnodes hmasked⟩⟩
  · intro fault b' h
    rcases outcome_bind_eq_error_iff.mp h with h | ⟨ps, b₁, -, h⟩
    · exact readOperators_error h
    · obtain ⟨q, b₂, hq, -⟩ := outcome_joinEntries ps b₁
      rw [h] at hq
      cases hq

/-- Under `freight` a bound and a test of the elements are read as two nodes, joined by `and`. -/
theorem isFaithful_of_bound_and_quantifier :
    ∃ p b', outcome (readArguments [.map [(.text "freight", .map [(.text "gt", .int 5),
        (.text "any", .map [(.text "qty", .int 1)])])]]) {} = (.ok p, b') ∧
      IsFaithful (.text "freight") [(.text "gt", .int 5),
        (.text "any", .map [(.text "qty", .int 1)])] p := by
  have hlogical : Operator.logical? (.text "freight") = none := by decide
  have hunary : Operator.unary? (.text "freight") = none := by decide
  have hvalue : isWrapper (.map [(.text "gt", .int 5), (.text "any", .map [(.text "qty", .int 1)])]) =
      false := by decide
  have h := isFaithful_iff_of_readArguments hlogical hunary hvalue {}
  refine ⟨_, _, rfl, (h.1 _ _ rfl).2.mpr fun e he hmasked => ?_⟩
  simp only [List.mem_cons, List.not_mem_nil, or_false] at he
  rcases he with rfl | rfl
  · exact absurd hmasked.wrapper (by decide)
  · exact absurd hmasked.wrapper (by decide)

/-- **An unknown operator is accepted when its operand spells its value out**, as in
`freight ↦ (gtt ↦ (value ↦ 5))`, which is read as a test of equality. -/
theorem unknown_operator_accepted :
    Operator.logical? (.text "freight") = none ∧ Operator.unary? (.text "freight") = none ∧
      isWrapper (.map [(.text "gtt", .map [(.text "value", .int 5)])]) = false ∧
      IsUnknown (.text "gtt", .map [(.text "value", .int 5)]) ∧
      ∃ p b', outcome (readArguments [.map [(.text "freight",
          .map [(.text "gtt", .map [(.text "value", .int 5)])])]]) {} = (.ok p, b') ∧
        ¬ IsFaithful (.text "freight") [(.text "gtt", .map [(.text "value", .int 5)])] p := by
  have hunknown : IsUnknown (.text "gtt", .map [(.text "value", .int 5)]) :=
    ⟨by decide, by decide⟩
  refine ⟨by decide, by decide, by decide, hunknown, _, _, rfl, fun h => ?_⟩
  exact h.not_isMasked _ List.mem_cons_self ⟨hunknown, by decide⟩

end

end Filter

end RecordFilter
