import RecordFilter.Proofs.Predicate.Condition

/-!
# What filters are read as

Reading a filter builds a predicate and gives labels on the way. `Filter.shape` is what the filter
is read as when labels are left aside: a condition, or the fault that stops the reading. The two
agree from every state of the builder, and the nodes that are built fit together as `Filter.Growth`
says of any relation between two states of the builder and the predicates that are built in between
(`Filter.agrees_read`). So statements about conditions can be made without labels, and statements
about labels without the details of reading.
-/

namespace RecordFilter

/-- The state of building after one more label was given out. -/
def Builder.step (b : Builder) : Builder :=
  { b with next := b.next + 1 }

@[simp] theorem Builder.next_step (b : Builder) : b.step.next = b.next + 1 := rfl

@[simp] theorem Builder.told_step (b : Builder) : b.step.told = b.told := rfl

namespace Filter

/-! ### Conditions of filters -/

/-- The operator under which the entries of a map are joined. -/
def andOperator : Operator :=
  ⟨.text "and", ["&&"], false⟩

/-- The operator of a kind that a value names. -/
def operatorOf (kind : Text) (token : Value) : Except Fault Operator := do
  return (← Registry.standard.resolve kind token).toOperator

/-- Conditions joined by an operator. -/
def joinShapes (op : Operator) : List Condition → Condition
  | [] => .absent
  | [t] => t
  | ts => .logical op ts

/-- There is a condition. -/
def isPresent : Condition → Bool
  | .absent => false
  | _ => true

/-- The condition of several entries. -/
def conjunction : List Condition → Condition
  | [t] => t
  | ts => joinShapes andOperator (ts.filter isPresent)

/-- The condition that a filter is read as, if it is neither a list nor a map. -/
def scalarShape : Value → Except Fault Condition
  | .node (.predicate p) _ => return p.condition
  | .text s => return .passthrough (.text s)
  | .token t => return .passthrough (.token t)
  | v => throw (.construction (.notAPredicate v.display))

/-- The refusal of an entry under a path whose key is no known operator. -/
def refusedEntry (key op operand : Value) : Except Fault Condition := do
  let phrase ← key.toText
  let op ← op.toText
  throw (.construction (.noPredicateForOperator phrase op (← operand.toText)))

/-- The refusal of a path with an operand that is no predicate and no comparison. -/
def refusedOperand (key : Value) : Except Fault Condition := do
  throw (.construction (.noPredicateAfter (← key.toText)))

/-- The comparison that an entry under a path makes. -/
def comparisonShape (key op operand : Value) : Except Fault Condition := do
  if (Operator.comparison? op).isSome then
    return .comparison (← operatorOf "comparison" op) key operand
  else if isWrapper operand then
    return .comparison (← operatorOf "comparison" (.text "eq")) key operand
  else refusedEntry key op operand

/-- A test of equality. -/
def equalShape (key operand : Value) : Except Fault Condition := do
  return .comparison (← operatorOf "comparison" (.text "eq")) key operand

/-- The items of a chain can be read. -/
def chainFault (items : List Value) : Except Fault Unit :=
  if items.length < 3 || items.length % 2 = 0 then
    .error (.construction (.wrongLength (Value.list items).display))
  else if items.dropLast.all Value.isKey then .ok ()
  else .error .wrongType

/-- The condition of an entry of a map whose value is neither a list nor a map. -/
def scalarEntryShape (key v : Value) : Except Fault Condition := do
  if (Operator.logical? key).isSome then
    let op ← operatorOf "logical" key
    match v with
    | .null => return joinShapes op []
    | v => return joinShapes op [← scalarShape v]
  else if (Operator.unary? key).isSome then
    let op ← operatorOf "unary" key
    return .unary op (← scalarShape v)
  else
    match v with
    | .node (.predicate _) _ => refusedOperand key
    | v => equalShape key v

mutual

/-- The condition that a filter is read as. -/
def shape : Value → Except Fault Condition
  | .list items => shapeItems items
  | .map entries => return conjunction (← shapeEntries entries)
  | v => scalarShape v

/-- The condition of a list: that of its only item, or of a chain. -/
def shapeItems : List Value → Except Fault Condition
  | [v] => shape v
  | [] => do
    chainFault []
    return .absent
  | k :: rest => do
    chainFault (k :: rest)
    shapeChain k rest

/-- The conditions of filters, leaving out absent values. -/
def shapeAll : List Value → Except Fault (List Condition)
  | [] => return []
  | .null :: vs => shapeAll vs
  | v :: vs => do
    let t ← shape v
    return t :: (← shapeAll vs)

/-- The conditions of the entries of a map. -/
def shapeEntries : List (Value × Value) → Except Fault (List Condition)
  | [] => return []
  | (k, v) :: rest => do
    let t ← shapeEntry k v
    return t :: (← shapeEntries rest)

/-- The condition of an entry of a map. -/
def shapeEntry (key : Value) : Value → Except Fault Condition
  | .list [.list items] => do
    if (Operator.logical? key).isSome then
      let op ← operatorOf "logical" key
      return joinShapes op (← shapeAll items)
    else if (Operator.unary? key).isSome then
      let op ← operatorOf "unary" key
      return .unary op (← shapeItems items)
    else refusedOperand key
  | .list items => do
    if (Operator.logical? key).isSome then
      let op ← operatorOf "logical" key
      return joinShapes op (← shapeAll items)
    else if (Operator.unary? key).isSome then
      let op ← operatorOf "unary" key
      return .unary op (← shapeItems items)
    else refusedOperand key
  | .map entries => do
    if (Operator.logical? key).isSome then
      let op ← operatorOf "logical" key
      return joinShapes op [conjunction (← shapeEntries entries)]
    else if (Operator.unary? key).isSome then
      let op ← operatorOf "unary" key
      return .unary op (conjunction (← shapeEntries entries))
    else if isWrapper (.map entries) then equalShape key (.map entries)
    else return conjunction (← shapeOperators key entries)
  | v => scalarEntryShape key v

/-- The conditions of the entries of a map of operators under a path. -/
def shapeOperators (key : Value) : List (Value × Value) → Except Fault (List Condition)
  | [] => return []
  | (op, operand) :: rest => do
    let t ←
      if (Operator.quantified? op).isSome then do
        let quantifier ← operatorOf "quantified" op
        pure (Condition.quantified quantifier key (← shape operand))
      else comparisonShape key op operand
    return t :: (← shapeOperators key rest)

/-- The condition of a chain, or of the value alone that the chain ends with. -/
def shapeChain (key : Value) : List Value → Except Fault Condition
  | [] => return .absent
  | [v] => shapeEntry key v
  | k :: v :: rest => do
    if (Operator.logical? key).isSome then shapeChain k (v :: rest)
    else if (Operator.unary? key).isSome then
      let op ← operatorOf "unary" key
      return .unary op (← shapeChain k (v :: rest))
    else if Value.sameKey k (.text "value") then equalShape key (foldChain (k :: v :: rest))
    else if (Operator.quantified? k).isSome then
      let quantifier ← operatorOf "quantified" k
      match rest with
      | [] => return .quantified quantifier key (← shape v)
      | w :: more => return .quantified quantifier key (← shapeChain v (w :: more))
    else comparisonShape key k (foldChain (v :: rest))

end

/-- The condition of an entry whose value is a list, in terms of the items that count: those of the list,
or of the list that it holds alone. -/
def listEntryShape (key : Value) (items : List Value) : Except Fault Condition := do
  if (Operator.logical? key).isSome then
    let op ← operatorOf "logical" key
    return joinShapes op (← shapeAll items)
  else if (Operator.unary? key).isSome then
    let op ← operatorOf "unary" key
    return .unary op (← shapeItems items)
  else refusedOperand key

/-! ### What conditions are made of -/

theorem refusedOperand_ne_ok {key : Value} {t : Condition} : refusedOperand key ≠ .ok t := by
  intro h
  obtain ⟨phrase, -, h⟩ := bind_eq_ok_iff.mp h
  cases h

theorem refusedEntry_ne_ok {key op operand : Value} {t : Condition} :
    refusedEntry key op operand ≠ .ok t := by
  intro h
  obtain ⟨phrase, -, h⟩ := bind_eq_ok_iff.mp h
  obtain ⟨token, -, h⟩ := bind_eq_ok_iff.mp h
  obtain ⟨shown, -, h⟩ := bind_eq_ok_iff.mp h
  cases h

section

variable {α : Type} {kind : Text} {token : Value} {parts : Except Fault α}
  {make : Operator → α → Condition}

/-- A condition is made by an operator from its parts: the operator is known and the parts are read. -/
theorem withOperator_eq_ok_iff {t : Condition} :
    (do
      let op ← operatorOf kind token
      return make op (← parts)) = .ok t ↔
        ∃ op x, operatorOf kind token = .ok op ∧ parts = .ok x ∧ t = make op x := by
  constructor
  · intro h
    obtain ⟨op, hop, h⟩ := bind_eq_ok_iff.mp h
    obtain ⟨x, hx, h⟩ := bind_eq_ok_iff.mp h
    cases h
    exact ⟨op, x, hop, hx, rfl⟩
  · rintro ⟨op, x, hop, rfl, rfl⟩
    rw [hop]
    rfl

/-- It is not made when the operator is unknown or its parts are not read. -/
theorem withOperator_error {fault : Fault}
    (h : (do
      let op ← operatorOf kind token
      return make op (← parts)) = .error fault) :
    operatorOf kind token = .error fault ∨ parts = .error fault := by
  rcases bind_eq_error_iff.mp h with hop | ⟨op, -, h⟩
  · exact .inl hop
  rcases bind_eq_error_iff.mp h with hparts | ⟨x, -, h⟩
  · exact .inr hparts
  · cases h

end

theorem equalShape_eq_ok_iff {key operand : Value} {t : Condition} :
    equalShape key operand = .ok t ↔
      ∃ op, operatorOf "comparison" (.text "eq") = .ok op ∧ t = .comparison op key operand := by
  simp only [equalShape, bind_eq_ok_iff, pure_eq_ok_iff]

/-- What compares is an operator of comparison, or the test of equality with an operand that is spelled
out. -/
theorem comparisonShape_eq_ok_cases {key op operand : Value} {t : Condition}
    (h : comparisonShape key op operand = .ok t) :
    ∃ token op', operatorOf "comparison" token = .ok op' ∧ t = .comparison op' key operand ∧
      ((Operator.comparison? op).isSome ∧ token = op ∨ isWrapper operand ∧ token = .text "eq") := by
  unfold comparisonShape at h
  split at h
  · rename_i hcomparison
    obtain ⟨op', hop', h⟩ := bind_eq_ok_iff.mp h
    cases h
    exact ⟨op, op', hop', rfl, .inl ⟨hcomparison, rfl⟩⟩
  · split at h
    · rename_i hwrapper
      obtain ⟨op', hop', h⟩ := bind_eq_ok_iff.mp h
      cases h
      exact ⟨.text "eq", op', hop', rfl, .inr ⟨hwrapper, rfl⟩⟩
    · exact (refusedEntry_ne_ok h).elim

/-- What the condition of an entry is made of when its value is a list: joined items, or a negation of
the chain that they make. -/
theorem listEntry_eq_ok_cases {key : Value} {items : List Value} {t : Condition}
    (h : listEntryShape key items = .ok t) :
    ((Operator.logical? key).isSome ∧ ∃ op ts, operatorOf "logical" key = .ok op ∧
        shapeAll items = .ok ts ∧ t = joinShapes op ts) ∨
      (¬ (Operator.logical? key).isSome ∧ (Operator.unary? key).isSome ∧ ∃ op u,
        operatorOf "unary" key = .ok op ∧ shapeItems items = .ok u ∧ t = .unary op u) := by
  unfold listEntryShape at h
  split at h
  · rename_i hlogical
    exact .inl ⟨hlogical, withOperator_eq_ok_iff.mp h⟩
  · rename_i hlogical
    split at h
    · rename_i hunary
      exact .inr ⟨hlogical, hunary, withOperator_eq_ok_iff.mp h⟩
    · exact (refusedOperand_ne_ok h).elim

/-- What the condition of an entry is made of when its value is a map: entries under a joining operator or
a negation, an operand that is spelled out, or entries under a path. -/
theorem mapEntry_eq_ok_cases {key : Value} {entries : List (Value × Value)} {t : Condition}
    (h : shapeEntry key (.map entries) = .ok t) :
    ((Operator.logical? key).isSome ∧ ∃ op ts, operatorOf "logical" key = .ok op ∧
        shapeEntries entries = .ok ts ∧ t = conjunction ts) ∨
      (¬ (Operator.logical? key).isSome ∧ (Operator.unary? key).isSome ∧ ∃ op ts,
        operatorOf "unary" key = .ok op ∧ shapeEntries entries = .ok ts ∧
          t = .unary op (conjunction ts)) ∨
      (¬ (Operator.logical? key).isSome ∧ ¬ (Operator.unary? key).isSome ∧
        (isWrapper (.map entries) ∧ equalShape key (.map entries) = .ok t ∨
          ¬ isWrapper (.map entries) ∧ ∃ ts, shapeOperators key entries = .ok ts ∧
            t = conjunction ts)) := by
  unfold shapeEntry at h
  split at h
  · rename_i hlogical
    exact .inl ⟨hlogical, withOperator_eq_ok_iff.mp h⟩
  · rename_i hlogical
    split at h
    · rename_i hunary
      exact .inr (.inl ⟨hlogical, hunary, withOperator_eq_ok_iff.mp h⟩)
    · rename_i hunary
      refine .inr (.inr ⟨hlogical, hunary, ?_⟩)
      split at h
      · rename_i hwrapper
        exact .inl ⟨hwrapper, h⟩
      · rename_i hwrapper
        obtain ⟨ts, hts, h⟩ := bind_eq_ok_iff.mp h
        cases h
        exact .inr ⟨hwrapper, ts, hts, rfl⟩

theorem shape_map_eq_ok_iff {entries : List (Value × Value)} {t : Condition} :
    shape (.map entries) = .ok t ↔ ∃ ts, shapeEntries entries = .ok ts ∧ t = conjunction ts := by
  simp only [shape, bind_eq_ok_iff, pure_eq_ok_iff]

theorem shapeEntries_cons_eq_ok_iff {k v : Value} {rest : List (Value × Value)}
    {ts : List Condition} :
    shapeEntries ((k, v) :: rest) = .ok ts ↔
      ∃ u us, shapeEntry k v = .ok u ∧ shapeEntries rest = .ok us ∧ ts = u :: us := by
  simp only [shapeEntries, bind_eq_ok_iff, pure_eq_ok_iff, exists_and_left]

/-- Among the items that an operator joins, absent values are left out. -/
theorem shapeAll_cons_eq_ok_cases {v : Value} {vs : List Value} {ts : List Condition}
    (h : shapeAll (v :: vs) = .ok ts) :
    v = .null ∧ shapeAll vs = .ok ts ∨
      v ≠ .null ∧ ∃ u us, shape v = .ok u ∧ shapeAll vs = .ok us ∧ ts = u :: us := by
  have hcons : (do
      let t ← shape v
      return t :: (← shapeAll vs)) = .ok ts →
        ∃ u us, shape v = .ok u ∧ shapeAll vs = .ok us ∧ ts = u :: us := by
    simp only [bind_eq_ok_iff, pure_eq_ok_iff, exists_and_left, imp_self]
  cases v
  case null => exact .inl ⟨rfl, h⟩
  all_goals exact .inr ⟨by simp, hcons h⟩

/-- Under a path, an entry with a quantifier quantifies over the path, and any other entry compares it. -/
theorem shapeOperators_cons_eq_ok_cases {key op operand : Value} {rest : List (Value × Value)}
    {ts : List Condition} (h : shapeOperators key ((op, operand) :: rest) = .ok ts) :
    ∃ u us, shapeOperators key rest = .ok us ∧ ts = u :: us ∧
      ((Operator.quantified? op).isSome ∧ (∃ quantifier body,
          operatorOf "quantified" op = .ok quantifier ∧ shape operand = .ok body ∧
            u = .quantified quantifier key body) ∨
        ¬ (Operator.quantified? op).isSome ∧ comparisonShape key op operand = .ok u) := by
  have hcons : ∀ {u : Condition}, (do return u :: (← shapeOperators key rest)) = .ok ts →
      ∃ us, shapeOperators key rest = .ok us ∧ ts = u :: us := by
    intro u
    simp only [bind_eq_ok_iff, pure_eq_ok_iff, imp_self]
  unfold shapeOperators at h
  dsimp only at h
  split at h
  · rename_i hquantified
    obtain ⟨quantifier, hop, h⟩ := bind_eq_ok_iff.mp h
    obtain ⟨body, hbody, h⟩ := bind_eq_ok_iff.mp h
    obtain ⟨us, hus, rfl⟩ := hcons h
    exact ⟨_, us, hus, rfl, .inl ⟨hquantified, quantifier, body, hop, hbody, rfl⟩⟩
  · rename_i hquantified
    obtain ⟨u, hu, h⟩ := bind_eq_ok_iff.mp h
    obtain ⟨us, hus, rfl⟩ := hcons h
    exact ⟨u, us, hus, rfl, .inr ⟨hquantified, hu⟩⟩

/-! ### Labels of what is built -/

/-- A relation between the states before and after some steps of building and the predicates that are
built in between, which the steps of building respect. The predicates in `known` are those that
filters may hold. -/
structure Growth (known : Predicate → Prop)
    (R : Builder → Builder → List (Option Predicate) → Prop) : Prop where
  nil : ∀ lo, R lo lo []
  append : ∀ {lo mid hi ps qs}, R lo mid ps → R mid hi qs → R lo hi (ps ++ qs)
  sublist : ∀ {lo hi ps qs}, R lo hi ps → qs.Sublist ps → R lo hi qs
  absent : ∀ {lo hi ps}, R lo hi ps → R lo hi [none]
  known : ∀ {lo p}, known p → R lo lo [some p]
  passthrough : ∀ {lo} text, R lo lo.step [some (.passthrough lo.next text)]
  comparison : ∀ {lo} op left right, R lo lo.step [some (.comparison lo.next op left right)]
  unary : ∀ {lo hi p} op, R lo hi [p] → R lo hi.step [some (.unary hi.next op p)]
  logical : ∀ {lo hi ps} op, R lo hi ps → R lo hi.step [some (.logical hi.next op ps)]
  quantified : ∀ {lo hi p} op collection, R lo hi [p] →
    R lo hi.step [some (.quantified hi.next op collection p)]

mutual

/-- All predicates in the value, in places where filters may hold them, are known ones. -/
def Mentions (known : Predicate → Prop) : Value → Prop
  | .list items => MentionsItems known items
  | .map entries => MentionsEntries known entries
  | .node (.predicate p) _ => known p
  | _ => True

/-- All predicates in the items of a list are known ones. -/
def MentionsItems (known : Predicate → Prop) : List Value → Prop
  | [] => True
  | v :: vs => Mentions known v ∧ MentionsItems known vs

/-- All predicates in the entries of a map are known ones. -/
def MentionsEntries (known : Predicate → Prop) : List (Value × Value) → Prop
  | [] => True
  | (_, v) :: rest => Mentions known v ∧ MentionsEntries known rest

end

/-! ### Reading agrees with the shape -/

section

variable {known : Predicate → Prop} {R : Builder → Builder → List (Option Predicate) → Prop}

/-- A predicate that was built since the label `lo`, if there is one, with its condition. -/
def Built (R : Builder → Builder → List (Option Predicate) → Prop) (lo : Builder)
    (p : Option Predicate) (t : Condition) (b : Builder) : Prop :=
  t = Predicate.conditionOf p ∧ R lo b [p]

/-- Predicates that were built since the label `lo`, with their conditions. -/
def BuiltAll (R : Builder → Builder → List (Option Predicate) → Prop) (lo : Builder)
    (ps : List (Option Predicate)) (ts : List Condition) (b : Builder) : Prop :=
  ts = Predicate.conditions ps ∧ R lo b ps

theorem isPresent_conditionOf (p : Option Predicate) :
    isPresent (Predicate.conditionOf p) = p.isSome := by
  rcases p with - | p
  · rfl
  · cases p <;> rfl

theorem conditions_filter (ps : List (Option Predicate)) :
    (Predicate.conditions ps).filter isPresent =
      Predicate.conditions (ps.filter Option.isSome) := by
  induction ps with
  | nil => rfl
  | cons p ps ih =>
    simp only [Predicate.conditions, List.filter_cons, isPresent_conditionOf, ih]
    split <;> rfl

theorem agrees_resolve (kind : Text) (token : Value) (b : Builder) :
    Agrees (fun op op' b' => op' = op ∧ b' = b) (resolve kind token) b (operatorOf kind token) :=
  (Agrees.lift _).bind fun _ _ _ ⟨h, hb⟩ => Agrees.pure ⟨by rw [h], hb⟩

theorem agrees_textOf (v : Value) (b : Builder) :
    Agrees (fun s s' b' => s' = s ∧ b'.next = b.next) (Build.textOf v) b v.toText := by
  have hlift : ∀ b' : Builder, b'.next = b.next →
      Agrees (fun s s' b' => s' = s ∧ b'.next = b.next) (liftM v.toText : Build Text) b' v.toText :=
    fun b' hb => (Agrees.lift _).imp fun _ _ _ ⟨h, hb'⟩ => ⟨h.symm, hb' ▸ hb⟩
  unfold Build.textOf
  split
  · exact hlift _ rfl
  · exact hlift b rfl

theorem agrees_refusedOperand {Q : Option Predicate → Condition → Builder → Prop} (key : Value)
    (b : Builder) : Agrees Q (unknownOperand key) b (refusedOperand key) :=
  (agrees_textOf key b).bind fun _ _ _ ⟨h, _⟩ => h ▸ Agrees.throw _

theorem agrees_refusedEntry {Q : Predicate → Condition → Builder → Prop} (key op operand : Value)
    (b : Builder) : Agrees Q (unknownEntry key op operand) b (refusedEntry key op operand) :=
  (agrees_textOf key b).bind fun _ _ b₁ ⟨h, _⟩ =>
    (agrees_textOf op b₁).bind fun _ _ b₂ ⟨h', _⟩ =>
      (agrees_textOf operand b₂).bind fun _ _ _ ⟨h'', _⟩ => by
        rw [h, h', h'']
        exact Agrees.throw _

theorem agrees_checkChain (items : List Value) (b : Builder) :
    Agrees (fun _ _ b' => b' = b) (checkChain items) b (chainFault items) := by
  unfold checkChain chainFault
  split
  · exact Agrees.throw _
  · split
    · exact Agrees.pure rfl
    · exact Agrees.throw _

theorem operatorOf_and : operatorOf "logical" (.text "and") = .ok andOperator := by
  rfl

section

variable (hR : Growth known R) {lo : Builder} {b : Builder}

include hR

/-! #### New nodes -/

theorem agrees_negate {op : Operator} {p : Option Predicate} (h : R lo b [p]) :
    Agrees (Built R lo) (do return some (← negate op p)) b
      (.ok (.unary op (Predicate.conditionOf p))) :=
  ⟨_, _, rfl, rfl, hR.unary op h⟩

theorem agrees_quantify {op : Operator} {collection : Value} {p : Option Predicate}
    (h : R lo b [p]) :
    Agrees (Built R lo) (do return some (← quantify op collection p)) b
      (.ok (.quantified op collection (Predicate.conditionOf p))) :=
  ⟨_, _, rfl, rfl, hR.quantified op collection h⟩

theorem agrees_compare (op : Operator) (left right : Value) :
    Agrees (fun p t b' => Built R b (some p) t b') (compare op left right) b
      (.ok (.comparison op left right)) :=
  ⟨_, _, rfl, rfl, hR.comparison op left right⟩

theorem agrees_join {op : Operator} :
    ∀ {ps : List (Option Predicate)}, R lo b ps →
      Agrees (Built R lo) (join op ps) b (.ok (joinShapes op (Predicate.conditions ps)))
  | [], h => ⟨none, b, rfl, rfl, hR.absent h⟩
  | [p], h => ⟨p, b, rfl, rfl, h⟩
  | _ :: _ :: _, h => ⟨_, _, rfl, rfl, hR.logical op h⟩

theorem agrees_joinEntries {ps : List (Option Predicate)} (h : R lo b ps) :
    Agrees (Built R lo) (joinEntries ps) b (.ok (conjunction (Predicate.conditions ps))) := by
  have hmany : Agrees (Built R lo) (do
      join (← resolve "logical" (.text "and")) (ps.filter Option.isSome)) b
      (.ok (joinShapes andOperator ((Predicate.conditions ps).filter isPresent))) := by
    rw [conditions_filter]
    have hagrees : Agrees (Built R lo) (do
        join (← resolve "logical" (.text "and")) (ps.filter Option.isSome)) b
        (operatorOf "logical" (.text "and") >>= fun op =>
          .ok (joinShapes op (Predicate.conditions (ps.filter Option.isSome)))) :=
      (agrees_resolve _ _ b).bind fun _ _ b' ⟨hop, hb⟩ => by
        subst hop hb
        exact agrees_join hR (hR.sublist h List.filter_sublist)
    rw [operatorOf_and] at hagrees
    exact hagrees
  rcases ps with - | ⟨p, - | ⟨q, ps⟩⟩
  · exact hmany
  · exact ⟨p, b, rfl, rfl, h⟩
  · exact hmany

/-! #### Entries without parts -/

theorem agrees_readScalar {v : Value} (hv : Mentions known v) :
    Agrees (Built R b) (readScalar v) b (scalarShape v) := by
  cases v
  case text s => exact ⟨_, _, rfl, rfl, hR.passthrough _⟩
  case token t => exact ⟨_, _, rfl, rfl, hR.passthrough _⟩
  case node n shown =>
    cases n
    case predicate p => exact ⟨_, _, rfl, rfl, hR.known hv⟩
    all_goals exact Agrees.throw _
  all_goals exact Agrees.throw _

theorem agrees_equalTo (key operand : Value) :
    Agrees (Built R b) (equalTo key operand) b (equalShape key operand) :=
  (agrees_resolve _ _ b).bind fun _ _ b' ⟨hop, hb⟩ => by
    subst hop hb
    exact ⟨_, _, rfl, rfl, hR.comparison _ _ _⟩

theorem agrees_comparisonEntry (key op operand : Value) :
    Agrees (fun p t b' => Built R b (some p) t b') (comparisonEntry key op operand) b
      (comparisonShape key op operand) := by
  have hcompare : ∀ token, Agrees (fun p t b' => Built R b (some p) t b')
      (do compare (← resolve "comparison" token) key operand) b
      (do return .comparison (← operatorOf "comparison" token) key operand) := fun token =>
    (agrees_resolve _ _ b).bind fun _ _ b' ⟨hop, hb⟩ => by
      subst hop hb
      exact agrees_compare hR _ _ _
  unfold comparisonEntry comparisonShape
  split
  · exact hcompare op
  · split
    · exact hcompare (.text "eq")
    · exact agrees_refusedEntry _ _ _ _

theorem agrees_readScalarEntry (key : Value) {v : Value} (hv : Mentions known v) :
    Agrees (Built R b) (readScalarEntry key v) b (scalarEntryShape key v) := by
  have hscalar := agrees_readScalar hR (b := b) hv
  unfold readScalarEntry scalarEntryShape
  split
  · refine (agrees_resolve _ _ b).bind fun _ op b' ⟨hop, hb⟩ => ?_
    subst hop hb
    have hone : Agrees (Built R b') (do join op [← readScalar v]) b'
        (do return joinShapes op [← scalarShape v]) :=
      hscalar.bind fun p t b₁ ⟨ht, hp⟩ => by
        subst ht
        exact agrees_join hR hp
    cases v
    case null => exact agrees_join hR (hR.nil _)
    all_goals exact hone
  · split
    · refine (agrees_resolve _ _ b).bind fun _ op b' ⟨hop, hb⟩ => ?_
      subst hop hb
      exact hscalar.bind fun p t b₁ ⟨ht, hp⟩ => by
        subst ht
        exact agrees_negate hR hp
    · have hequal := agrees_equalTo hR (b := b) key v
      cases v
      case node n shown =>
        cases n
        case predicate p => exact agrees_refusedOperand _ _
        all_goals exact hequal
      all_goals exact hequal

/-! #### Entries with parts -/

/-- An entry whose value is a list, given what its items are read as. -/
theorem agrees_listEntry (key : Value) {items : List Value}
    (hall : ∀ b : Builder, Agrees (BuiltAll R b) (readAll items) b (shapeAll items))
    (hitems : ∀ b : Builder, Agrees (Built R b) (readItems items) b (shapeItems items)) :
    Agrees (Built R b) (do
      if (Operator.logical? key).isSome then
        let op ← resolve "logical" key
        join op (← readAll items)
      else if (Operator.unary? key).isSome then
        let op ← resolve "unary" key
        return some (← negate op (← readItems items))
      else unknownOperand key) b (listEntryShape key items) := by
  unfold listEntryShape
  split
  · refine (agrees_resolve _ _ b).bind fun _ op b' ⟨hop, hb⟩ => ?_
    subst hop hb
    exact (hall b').bind fun ps ts b₁ ⟨hts, hps⟩ => by
      subst hts
      exact agrees_join hR hps
  · split
    · refine (agrees_resolve _ _ b).bind fun _ op b' ⟨hop, hb⟩ => ?_
      subst hop hb
      exact (hitems b').bind fun p t b₁ ⟨ht, hp⟩ => by
        subst ht
        exact agrees_negate hR hp
    · exact agrees_refusedOperand _ _

/-- An entry whose value is a map, given what its entries are read as. -/
theorem agrees_mapEntry (key : Value) {entries : List (Value × Value)}
    (hall : ∀ b : Builder, Agrees (BuiltAll R b) (readEntries entries) b (shapeEntries entries))
    (hops : ∀ b : Builder, Agrees (fun ps ts b' => BuiltAll R b (ps.map some) ts b')
      (readOperators key entries) b (shapeOperators key entries)) :
    Agrees (Built R b) (readEntry key (.map entries)) b (shapeEntry key (.map entries)) := by
  unfold readEntry shapeEntry
  split
  · refine (agrees_resolve _ _ b).bind fun _ op b' ⟨hop, hb⟩ => ?_
    subst hop hb
    refine (hall b').bind fun ps ts b₁ ⟨hts, hps⟩ => ?_
    subst hts
    exact (agrees_joinEntries hR hps).bind (g := fun t => .ok (joinShapes op [t]))
      fun p t b₂ ⟨ht, hp⟩ => by
        subst ht
        exact agrees_join hR hp
  · split
    · refine (agrees_resolve _ _ b).bind fun _ op b' ⟨hop, hb⟩ => ?_
      subst hop hb
      refine (hall b').bind fun ps ts b₁ ⟨hts, hps⟩ => ?_
      subst hts
      exact (agrees_joinEntries hR hps).bind (g := fun t => .ok (Condition.unary op t))
        fun p t b₂ ⟨ht, hp⟩ => by
          subst ht
          exact agrees_negate hR hp
    · split
      · exact agrees_equalTo hR _ _
      · refine (hops b).bind fun ps ts b₁ ⟨hts, hps⟩ => ?_
        subst hts
        exact agrees_joinEntries hR hps

/-! #### Filters -/

set_option linter.unusedSectionVars false in
mutual

/-- **Reading a filter builds its shape**, and the nodes that it builds fit together. -/
theorem agrees_read : ∀ (v : Value) (b : Builder), Mentions known v →
    Agrees (Built R b) (read v) b (shape v)
  | .list items, b, hv => agrees_readItems items b hv
  | .map entries, b, hv =>
    (agrees_readEntries entries b hv).bind fun ps ts b' ⟨hts, hps⟩ => by
      subst hts
      exact agrees_joinEntries hR hps
  | .node n shown, b, hv => agrees_readScalar hR hv
  | .null, b, hv | .bool _, b, hv | .int _, b, hv | .double _, b, hv | .decimal _, b, hv
  | .text _, b, hv | .token _, b, hv | .operator _, b, hv | .date _, b, hv | .time _, b, hv
  | .moment _, b, hv | .guid _, b, hv | .object _, b, hv | .member .., b, hv =>
    agrees_readScalar hR hv
termination_by structural v => v

theorem agrees_readItems : ∀ (vs : List Value) (b : Builder), MentionsItems known vs →
    Agrees (Built R b) (readItems vs) b (shapeItems vs)
  | [], b, _ =>
    (agrees_checkChain [] b).bind fun _ _ b' hb => by
      subst hb
      exact ⟨none, b', rfl, rfl, hR.absent (hR.nil _)⟩
  | [v], b, hv => agrees_read v b hv.1
  | k :: v :: rest, b, hv =>
    (agrees_checkChain (k :: v :: rest) b).bind fun _ _ b' hb => by
      subst hb
      exact agrees_readChain k (v :: rest) b' hv.2
termination_by structural v => v

theorem agrees_readAll : ∀ (vs : List Value) (b : Builder), MentionsItems known vs →
    Agrees (BuiltAll R b) (readAll vs) b (shapeAll vs)
  | [], b, _ => ⟨[], b, rfl, rfl, hR.nil _⟩
  | v :: vs, b, hv => by
    have hrest : ∀ (b₁ : Builder), Agrees (BuiltAll R b₁) (readAll vs) b₁ (shapeAll vs) :=
      fun b₁ => agrees_readAll vs b₁ hv.2
    have hcons : Agrees (BuiltAll R b) (do
        let p ← read v
        return p :: (← readAll vs)) b (do
        let t ← shape v
        return t :: (← shapeAll vs)) :=
      (agrees_read v b hv.1).bind fun p t b₁ ⟨ht, hp⟩ =>
        (hrest b₁).bind fun ps ts b₂ ⟨hts, hps⟩ => by
          subst ht hts
          exact ⟨p :: ps, b₂, rfl, rfl, hR.append hp hps⟩
    cases v
    case null => exact hrest b
    all_goals exact hcons
termination_by structural v => v

theorem agrees_readEntries : ∀ (es : List (Value × Value)) (b : Builder),
    MentionsEntries known es →
      Agrees (BuiltAll R b) (readEntries es) b (shapeEntries es)
  | [], b, _ => ⟨[], b, rfl, rfl, hR.nil _⟩
  | (k, v) :: rest, b, hv =>
    (agrees_readEntry k v b hv.1).bind fun p t b₁ ⟨ht, hp⟩ =>
      (agrees_readEntries rest b₁ hv.2).bind fun ps ts b₂ ⟨hts, hps⟩ => by
        subst ht hts
        exact ⟨p :: ps, b₂, rfl, rfl, hR.append hp hps⟩
termination_by structural v => v

theorem agrees_readEntry (key : Value) : ∀ (v : Value) (b : Builder), Mentions known v →
    Agrees (Built R b) (readEntry key v) b (shapeEntry key v)
  | .list [], b, hv =>
    agrees_listEntry hR key (fun b₁ => agrees_readAll [] b₁ hv) fun b₁ => agrees_readItems [] b₁ hv
  | .list [v], b, hv => by
    have houter := agrees_listEntry hR (b := b) key (fun b₁ => agrees_readAll [v] b₁ hv)
      fun b₁ => agrees_readItems [v] b₁ hv
    have hinner := agrees_inner v hv.1
    cases v
    case list items =>
      obtain ⟨hall, hitems⟩ := hinner items rfl
      exact agrees_listEntry hR key hall hitems
    all_goals exact houter
  | .list (v :: w :: rest), b, hv => by
    have hmany := agrees_listEntry hR (b := b) key
      (fun b₁ => agrees_readAll (v :: w :: rest) b₁ hv)
      fun b₁ => agrees_readItems (v :: w :: rest) b₁ hv
    cases v <;> exact hmany
  | .map entries, b, hv =>
    agrees_mapEntry hR key (fun b₁ => agrees_readEntries entries b₁ hv)
      fun b₁ => agrees_readOperators key entries b₁ hv
  | .node n shown, b, hv => agrees_readScalarEntry hR key hv
  | .null, b, hv | .bool _, b, hv | .int _, b, hv | .double _, b, hv | .decimal _, b, hv
  | .text _, b, hv | .token _, b, hv | .operator _, b, hv | .date _, b, hv | .time _, b, hv
  | .moment _, b, hv | .guid _, b, hv | .object _, b, hv | .member .., b, hv =>
    agrees_readScalarEntry hR key hv
termination_by structural v => v

/-- What the items of a list are read as when the list stands in a list of its own. -/
theorem agrees_inner : ∀ v : Value, Mentions known v → ∀ items, v = .list items →
    (∀ b : Builder, Agrees (BuiltAll R b) (readAll items) b (shapeAll items)) ∧
    ∀ b : Builder, Agrees (Built R b) (readItems items) b (shapeItems items)
  | .list items, hv, _, h => by
    cases h
    exact ⟨fun b => agrees_readAll items b hv, fun b => agrees_readItems items b hv⟩
  | .map _, _, _, h | .node .., _, _, h | .null, _, _, h | .bool _, _, _, h | .int _, _, _, h
  | .double _, _, _, h | .decimal _, _, _, h | .text _, _, _, h | .token _, _, _, h
  | .operator _, _, _, h | .date _, _, _, h | .time _, _, _, h | .moment _, _, _, h
  | .guid _, _, _, h | .object _, _, _, h | .member .., _, _, h => by cases h
termination_by structural v => v

theorem agrees_readOperators (key : Value) : ∀ (es : List (Value × Value)) (b : Builder),
    MentionsEntries known es →
      Agrees (fun ps ts b' => BuiltAll R b (ps.map some) ts b') (readOperators key es) b
        (shapeOperators key es)
  | [], b, _ => ⟨[], b, rfl, rfl, hR.nil _⟩
  | (op, operand) :: rest, b, hv => by
    have hrest : ∀ (p : Predicate) (t : Condition) (b₁ : Builder), Built R b (some p) t b₁ →
        Agrees (fun ps ts b' => BuiltAll R b (ps.map some) ts b')
          (do return p :: (← readOperators key rest)) b₁
          (do return t :: (← shapeOperators key rest)) := by
      rintro p t b₁ ⟨rfl, hp⟩
      exact (agrees_readOperators key rest b₁ hv.2).bind fun ps ts b₂ ⟨hts, hps⟩ => by
        subst hts
        exact ⟨p :: ps, b₂, rfl, rfl, hR.append hp hps⟩
    unfold readOperators shapeOperators
    dsimp only
    split
    · refine (agrees_resolve _ _ b).bind fun _ quantifier b' ⟨hop, hb⟩ => ?_
      subst hop hb
      refine (agrees_read operand b' hv.1).bind fun body t b₁ ⟨ht, hbody⟩ => ?_
      subst ht
      have hquantify : Agrees (fun p t b₂ => Built R b' (some p) t b₂)
          (quantify quantifier key body) b₁
          (.ok (.quantified quantifier key (Predicate.conditionOf body))) :=
        ⟨_, _, rfl, rfl, hR.quantified quantifier key hbody⟩
      exact hquantify.bind hrest
    · exact (agrees_comparisonEntry hR key op operand).bind hrest
termination_by structural v => v

theorem agrees_readChain (key : Value) : ∀ (vs : List Value) (b : Builder),
    MentionsItems known vs → Agrees (Built R b) (readChain key vs) b (shapeChain key vs)
  | [], b, _ => ⟨none, b, rfl, rfl, hR.absent (hR.nil _)⟩
  | [v], b, hv => agrees_readEntry key v b hv.1
  | k :: v :: rest, b, hv => by
    have hrest : ∀ b₁ : Builder,
        Agrees (Built R b₁) (readChain k (v :: rest)) b₁ (shapeChain k (v :: rest)) :=
      fun b₁ => agrees_readChain k (v :: rest) b₁ hv.2
    unfold readChain shapeChain
    split
    · exact hrest b
    · split
      · refine (agrees_resolve _ _ b).bind fun _ op b' ⟨hop, hb⟩ => ?_
        subst hop hb
        exact (hrest b').bind fun p t b₁ ⟨ht, hp⟩ => by
          subst ht
          exact agrees_negate hR hp
      · split
        · exact agrees_equalTo hR _ _
        · split
          · refine (agrees_resolve _ _ b).bind fun _ quantifier b' ⟨hop, hb⟩ => ?_
            subst hop hb
            rcases rest with - | ⟨w, more⟩
            · exact (agrees_read v b' hv.2.1).bind fun p t b₁ ⟨ht, hp⟩ => by
                subst ht
                exact agrees_quantify hR hp
            · exact (agrees_readChain v (w :: more) b' hv.2.2).bind fun p t b₁ ⟨ht, hp⟩ => by
                subst ht
                exact agrees_quantify hR hp
          · exact (agrees_comparisonEntry hR _ _ _).map fun _ _ _ hp => hp
termination_by structural v => v

end

end

end

end Filter

end RecordFilter
