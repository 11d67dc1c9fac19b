import RecordFilter.Proofs.Filter.Building

/-!
# Filters that are refused

A JSON filter that is not read is refused with a construction error, with one exception. A list with
three or more items is taken for a chain, and all items of a chain but the last one have to be keys:
`[["a"], "eq", 1]` is a chain whose first item is a list, and reading it ends in `Fault.wrongType`.

`Filter.chains` collects the lists that reading a filter takes for chains, and `Filter.shape_error` says
that nothing else can go wrong.
-/

namespace RecordFilter.Filter

/-! ### Chains -/

mutual

/-- The lists that are taken for chains when the filter is read. -/
def chains : Value → List (List Value)
  | .list items => chainsOfItems items
  | .map entries => chainsOfEntries entries
  | _ => []

/-- The chains of a list: those of its only item, or itself and the chains inside. -/
def chainsOfItems : List Value → List (List Value)
  | [v] => chains v
  | [] => []
  | k :: rest => (k :: rest) :: chainsInside k rest

/-- The chains of filters. -/
def chainsOfAll : List Value → List (List Value)
  | [] => []
  | v :: vs => chains v ++ chainsOfAll vs

/-- The chains of the entries of a map. -/
def chainsOfEntries : List (Value × Value) → List (List Value)
  | [] => []
  | (k, v) :: rest => chainsOfEntry k v ++ chainsOfEntries rest

/-- The chains of an entry of a map. -/
def chainsOfEntry (key : Value) : Value → List (List Value)
  | .list [.list items] =>
    if (Operator.logical? key).isSome then chainsOfAll items
    else if (Operator.unary? key).isSome then chainsOfItems items
    else []
  | .list items =>
    if (Operator.logical? key).isSome then chainsOfAll items
    else if (Operator.unary? key).isSome then chainsOfItems items
    else []
  | .map entries =>
    if (Operator.logical? key).isSome then chainsOfEntries entries
    else if (Operator.unary? key).isSome then chainsOfEntries entries
    else if isWrapper (.map entries) then []
    else chainsOfOperators entries
  | _ => []

/-- The chains of the entries of a map of operators under a path. -/
def chainsOfOperators : List (Value × Value) → List (List Value)
  | [] => []
  | (op, operand) :: rest =>
    (if (Operator.quantified? op).isSome then chains operand else []) ++ chainsOfOperators rest

/-- The chains inside a chain: those of the value that it ends with. -/
def chainsInside (key : Value) : List Value → List (List Value)
  | [] => []
  | [v] => chainsOfEntry key v
  | k :: v :: rest =>
    if (Operator.logical? key).isSome then chainsInside k (v :: rest)
    else if (Operator.unary? key).isSome then chainsInside k (v :: rest)
    else if Value.sameKey k (.text "value") then []
    else if (Operator.quantified? k).isSome then
      match rest with
      | [] => chains v
      | w :: more => chainsInside v (w :: more)
    else []

end

/-- An item of the chain is in the place of a key and cannot be one. -/
def IsBroken (chain : List Value) : Prop :=
  ∃ v ∈ chain.dropLast, v.isKey = false

/-- Filters with these chains are refused with the fault: it is a predicate error, or one of the chains
is broken. -/
def IsRefusal (lists : List (List Value)) (fault : Fault) : Prop :=
  fault.isPredicateError ∨ fault = .wrongType ∧ ∃ chain ∈ lists, IsBroken chain

theorem IsRefusal.mono {lists lists' : List (List Value)} {fault : Fault} (h : IsRefusal lists fault)
    (hsub : lists ⊆ lists') : IsRefusal lists' fault :=
  h.imp_right fun ⟨hfault, chain, hmem, hbroken⟩ => ⟨hfault, chain, hsub hmem, hbroken⟩

/-! ### Faults of the parts -/

section

variable {fault : Fault} {lists : List (List Value)}

/-- What follows an operator in a chain has a text: it is a value, or a map that is made of the rest. -/
theorem toText_foldChain_ne_error {v : Value} (hv : v.IsJson) :
    ∀ rest : List Value, (foldChain (v :: rest)).toText ≠ .error fault
  | [] => Value.toText_ne_error v hv
  | _ :: _ => fun h => nomatch h

/-- A value that names no operator of a kind is refused. -/
theorem operatorOf_error {kind : Text} : ∀ token : Value, token.IsJson →
    operatorOf kind token = .error fault → fault.isPredicateError := by
  intro token htoken h
  have hfind : Registry.canFind token := by
    cases token
    case operator => exact htoken.elim
    all_goals rfl
  rcases bind_eq_error_iff.mp h with h | ⟨m, -, h⟩
  · rw [Registry.resolve, Registry.lookup, if_pos hfind, ok_bind] at h
    split at h
    · cases h
    · cases h
      rfl
  · cases h

/-- What an operator makes of parts is refused with the operator, or with the parts. -/
theorem isRefusal_withOperator {α : Type} {kind : Text} {token : Value} (htoken : token.IsJson)
    {parts : Except Fault α} {make : Operator → α → Condition}
    (hparts : parts = .error fault → IsRefusal lists fault)
    (h : (do
      let op ← operatorOf kind token
      return make op (← parts)) = .error fault) : IsRefusal lists fault :=
  (withOperator_error h).elim (fun hop => .inl (operatorOf_error token htoken hop)) hparts

theorem scalarShape_error {v : Value} (hv : v.IsJson) (h : scalarShape v = .error fault) :
    fault.isPredicateError := by
  cases v
  case text | token => cases h
  case node => exact hv.elim
  all_goals
    cases h
    rfl

theorem refusedOperand_error {key : Value} (hkey : key.IsJson)
    (h : refusedOperand key = .error fault) : fault.isPredicateError := by
  rcases bind_eq_error_iff.mp h with h | ⟨phrase, -, h⟩
  · exact (Value.toText_ne_error key hkey h).elim
  · cases h
    rfl

theorem refusedEntry_error {key op operand : Value} (hkey : key.IsJson) (hop : op.IsJson)
    (hoperand : operand.toText ≠ .error fault) (h : refusedEntry key op operand = .error fault) :
    fault.isPredicateError := by
  rcases bind_eq_error_iff.mp h with h | ⟨phrase, -, h⟩
  · exact (Value.toText_ne_error key hkey h).elim
  rcases bind_eq_error_iff.mp h with h | ⟨text, -, h⟩
  · exact (Value.toText_ne_error op hop h).elim
  rcases bind_eq_error_iff.mp h with h | ⟨shown, -, h⟩
  · exact (hoperand h).elim
  · cases h
    rfl

theorem equalShape_error {key v : Value} (h : equalShape key v = .error fault) :
    fault.isPredicateError := by
  rcases bind_eq_error_iff.mp h with h | ⟨op, -, h⟩
  · exact operatorOf_error (.text "eq") trivial h
  · cases h

theorem comparisonShape_error {key op v : Value} (hkey : key.IsJson) (hop : op.IsJson)
    (hv : v.toText ≠ .error fault) (h : comparisonShape key op v = .error fault) :
    fault.isPredicateError := by
  unfold comparisonShape at h
  split at h
  · rcases bind_eq_error_iff.mp h with h | ⟨op', -, h⟩
    · exact operatorOf_error op hop h
    · cases h
  · split at h
    · exact equalShape_error h
    · exact refusedEntry_error hkey hop hv h

theorem scalarEntryShape_error {key v : Value} (hkey : key.IsJson) (hv : v.IsJson)
    (h : scalarEntryShape key v = .error fault) : fault.isPredicateError := by
  unfold scalarEntryShape at h
  split at h
  · rcases bind_eq_error_iff.mp h with h | ⟨op, -, h⟩
    · exact operatorOf_error key hkey h
    split at h
    · cases h
    · rcases bind_eq_error_iff.mp h with h | ⟨t, -, h⟩
      · exact scalarShape_error hv h
      · cases h
  · split at h
    · exact (withOperator_error h).elim (operatorOf_error key hkey) (scalarShape_error hv)
    · split at h
      · exact refusedOperand_error hkey h
      · exact equalShape_error h

theorem chainFault_error {items : List Value} (h : chainFault items = .error fault) :
    fault.isPredicateError ∨ fault = .wrongType ∧ IsBroken items := by
  unfold chainFault at h
  split at h
  · cases h
    exact .inl rfl
  · split at h
    · cases h
    · rename_i hall
      cases h
      refine .inr ⟨rfl, ?_⟩
      simpa [IsBroken] using hall

/-! ### Faults of reading a filter -/

theorem listEntry_error {key : Value} (hkey : key.IsJson) {items : List Value}
    (hall : shapeAll items = .error fault → IsRefusal (chainsOfAll items) fault)
    (hitems : shapeItems items = .error fault → IsRefusal (chainsOfItems items) fault)
    (h : listEntryShape key items = .error fault) :
    IsRefusal
      (if (Operator.logical? key).isSome then chainsOfAll items
        else if (Operator.unary? key).isSome then chainsOfItems items
        else []) fault := by
  unfold listEntryShape at h
  by_cases hlogical : (Operator.logical? key).isSome
  · rw [if_pos hlogical] at h ⊢
    exact isRefusal_withOperator hkey hall h
  rw [if_neg hlogical] at h ⊢
  by_cases hunary : (Operator.unary? key).isSome
  · rw [if_pos hunary] at h ⊢
    exact isRefusal_withOperator hkey hitems h
  · rw [if_neg hunary] at h
    exact .inl (refusedOperand_error hkey h)

theorem mapEntry_error {key : Value} (hkey : key.IsJson) {entries : List (Value × Value)}
    (hall : shapeEntries entries = .error fault → IsRefusal (chainsOfEntries entries) fault)
    (hops : shapeOperators key entries = .error fault → IsRefusal (chainsOfOperators entries) fault)
    (h : shapeEntry key (.map entries) = .error fault) :
    IsRefusal (chainsOfEntry key (.map entries)) fault := by
  unfold shapeEntry at h
  unfold chainsOfEntry
  by_cases hlogical : (Operator.logical? key).isSome
  · rw [if_pos hlogical] at h ⊢
    exact isRefusal_withOperator hkey hall h
  rw [if_neg hlogical] at h ⊢
  by_cases hunary : (Operator.unary? key).isSome
  · rw [if_pos hunary] at h ⊢
    exact isRefusal_withOperator hkey hall h
  rw [if_neg hunary] at h ⊢
  split at h
  · rename_i hwrapper
    rw [if_pos hwrapper]
    exact .inl (equalShape_error h)
  · rename_i hwrapper
    rw [if_neg hwrapper]
    rcases bind_eq_error_iff.mp h with h | ⟨ts, -, h⟩
    · exact hops h
    · cases h

mutual

/-- **A JSON filter that is not read is refused with a predicate error, or it holds a broken chain.** -/
theorem shape_error : ∀ v : Value, v.IsJson → shape v = .error fault → IsRefusal (chains v) fault
  | .list items, hv, h => shapeItems_error items hv h
  | .map entries, hv, h => by
    rcases bind_eq_error_iff.mp h with h | ⟨ts, -, h⟩
    · exact shapeEntries_error entries hv h
    · cases h
  | .null, hv, h | .bool _, hv, h | .int _, hv, h | .double _, hv, h | .text _, hv, h =>
    .inl (scalarShape_error hv h)
  | .decimal _, hv, _ | .token _, hv, _ | .operator _, hv, _ | .date _, hv, _ | .time _, hv, _
  | .moment _, hv, _ | .guid _, hv, _ | .object _, hv, _ | .member .., hv, _ | .node .., hv, _ =>
    hv.elim
termination_by structural v => v

theorem shapeItems_error : ∀ vs : List Value, Value.JsonItems vs → shapeItems vs = .error fault →
    IsRefusal (chainsOfItems vs) fault
  | [], _, h => by
    cases h
    exact .inl rfl
  | [v], hvs, h => shape_error v hvs.1 h
  | k :: v :: rest, hvs, h => by
    -- all keys of a chain are looked at before the chain is read
    rcases bind_eq_error_iff.mp h with h | ⟨_, -, h⟩
    · exact (chainFault_error h).imp_right fun ⟨hfault, hbroken⟩ =>
        ⟨hfault, _, List.mem_cons_self, hbroken⟩
    · exact (shapeChain_error k hvs.1 (v :: rest) hvs.2 h).mono (List.subset_cons_self _ _)
termination_by structural vs => vs

theorem shapeAll_error : ∀ vs : List Value, Value.JsonItems vs → shapeAll vs = .error fault →
    IsRefusal (chainsOfAll vs) fault
  | [], _, h => by cases h
  | v :: vs, hvs, h => by
    have hrest : shapeAll vs = .error fault → IsRefusal (chainsOfAll (v :: vs)) fault :=
      fun h => (shapeAll_error vs hvs.2 h).mono (List.subset_append_right _ _)
    have hcons : (do
        let t ← shape v
        return t :: (← shapeAll vs)) = .error fault → IsRefusal (chainsOfAll (v :: vs)) fault := by
      intro h
      rcases bind_eq_error_iff.mp h with h | ⟨t, -, h⟩
      · exact (shape_error v hvs.1 h).mono (List.subset_append_left _ _)
      rcases bind_eq_error_iff.mp h with h | ⟨ts, -, h⟩
      · exact hrest h
      · cases h
    cases v
    case null => exact hrest h
    all_goals exact hcons h
termination_by structural vs => vs

theorem shapeEntries_error : ∀ es : List (Value × Value), Value.JsonEntries es →
    shapeEntries es = .error fault → IsRefusal (chainsOfEntries es) fault
  | [], _, h => by cases h
  | (k, v) :: rest, hes, h => by
    rcases bind_eq_error_iff.mp h with h | ⟨t, -, h⟩
    · exact (shapeEntry_error k hes.1.2.1 v hes.1.2.2 h).mono (List.subset_append_left _ _)
    rcases bind_eq_error_iff.mp h with h | ⟨ts, -, h⟩
    · exact (shapeEntries_error rest hes.2 h).mono (List.subset_append_right _ _)
    · cases h
termination_by structural es => es

theorem shapeEntry_error (key : Value) (hkey : key.IsJson) : ∀ v : Value, v.IsJson →
    shapeEntry key v = .error fault → IsRefusal (chainsOfEntry key v) fault
  | .list [], hv, h =>
    listEntry_error hkey (fun h => shapeAll_error [] hv h) (fun h => shapeItems_error [] hv h) h
  | .list [v], hv, h => by
    -- a list that holds nothing but a list is read as the list inside
    have houter := @listEntry_error fault key hkey [v] (fun h => shapeAll_error [v] hv h)
      fun h => shapeItems_error [v] hv h
    have hinner := shapeInner_error v hv.1
    cases v
    case list items =>
      obtain ⟨hall, hitems⟩ := hinner items rfl
      exact listEntry_error hkey hall hitems h
    all_goals exact houter h
  | .list (v :: w :: rest), hv, h => by
    have hmany := @listEntry_error fault key hkey (v :: w :: rest)
      (fun h => shapeAll_error (v :: w :: rest) hv h)
      fun h => shapeItems_error (v :: w :: rest) hv h
    cases v <;> exact hmany h
  | .map entries, hv, h =>
    mapEntry_error hkey (fun h => shapeEntries_error entries hv h)
      (fun h => shapeOperators_error key hkey entries hv h) h
  | .null, hv, h | .bool _, hv, h | .int _, hv, h | .double _, hv, h | .text _, hv, h =>
    .inl (scalarEntryShape_error hkey hv h)
  | .decimal _, hv, _ | .token _, hv, _ | .operator _, hv, _ | .date _, hv, _ | .time _, hv, _
  | .moment _, hv, _ | .guid _, hv, _ | .object _, hv, _ | .member .., hv, _ | .node .., hv, _ =>
    hv.elim
termination_by structural v => v

/-- The same for the items of a list that stands in a list of its own. -/
theorem shapeInner_error : ∀ v : Value, v.IsJson → ∀ items, v = .list items →
    (shapeAll items = .error fault → IsRefusal (chainsOfAll items) fault) ∧
    (shapeItems items = .error fault → IsRefusal (chainsOfItems items) fault)
  | .list items, hv, _, h => by
    cases h
    exact ⟨fun h => shapeAll_error items hv h, fun h => shapeItems_error items hv h⟩
  | .map _, _, _, h | .node .., _, _, h | .null, _, _, h | .bool _, _, _, h | .int _, _, _, h
  | .double _, _, _, h | .decimal _, _, _, h | .text _, _, _, h | .token _, _, _, h
  | .operator _, _, _, h | .date _, _, _, h | .time _, _, _, h | .moment _, _, _, h
  | .guid _, _, _, h | .object _, _, _, h | .member .., _, _, h => by cases h
termination_by structural v => v

theorem shapeOperators_error (key : Value) (hkey : key.IsJson) : ∀ es : List (Value × Value),
    Value.JsonEntries es → shapeOperators key es = .error fault →
      IsRefusal (chainsOfOperators es) fault
  | [], _, h => by cases h
  | (op, operand) :: rest, hes, h => by
    have hrest : ∀ {t}, (do return t :: (← shapeOperators key rest)) = .error fault →
        IsRefusal (chainsOfOperators ((op, operand) :: rest)) fault := by
      intro t h
      rcases bind_eq_error_iff.mp h with h | ⟨ts, -, h⟩
      · exact (shapeOperators_error key hkey rest hes.2 h).mono (List.subset_append_right _ _)
      · cases h
    unfold shapeOperators at h
    dsimp only at h
    split at h
    · rename_i hquantified
      rcases bind_eq_error_iff.mp h with h | ⟨quantifier, -, h⟩
      · exact .inl (operatorOf_error op hes.1.2.1 h)
      rcases bind_eq_error_iff.mp h with h | ⟨body, -, h⟩
      · rw [chainsOfOperators, if_pos hquantified]
        exact (shape_error operand hes.1.2.2 h).mono (List.subset_append_left _ _)
      · exact hrest (t := .quantified quantifier key body) h
    · rcases bind_eq_error_iff.mp h with h | ⟨t, -, h⟩
      · exact .inl (comparisonShape_error hkey hes.1.2.1 (Value.toText_ne_error operand hes.1.2.2) h)
      · exact hrest h
termination_by structural es => es

theorem shapeChain_error (key : Value) (hkey : key.IsJson) : ∀ vs : List Value,
    Value.JsonItems vs → shapeChain key vs = .error fault → IsRefusal (chainsInside key vs) fault
  | [], _, h => by cases h
  | [v], hvs, h => shapeEntry_error key hkey v hvs.1 h
  | k :: v :: rest, hvs, h => by
    have hrest : shapeChain k (v :: rest) = .error fault →
        IsRefusal (chainsInside k (v :: rest)) fault :=
      fun h => shapeChain_error k hvs.1 (v :: rest) hvs.2 h
    -- the item in the place of the key says whether the rest is a chain of its own
    unfold shapeChain at h
    unfold chainsInside
    by_cases hlogical : (Operator.logical? key).isSome
    · rw [if_pos hlogical] at h ⊢
      exact hrest h
    rw [if_neg hlogical] at h ⊢
    by_cases hunary : (Operator.unary? key).isSome
    · rw [if_pos hunary] at h ⊢
      exact isRefusal_withOperator hkey hrest h
    rw [if_neg hunary] at h ⊢
    by_cases hvalue : Value.sameKey k (.text "value")
    · rw [if_pos hvalue] at h
      exact .inl (equalShape_error h)
    rw [if_neg hvalue] at h ⊢
    by_cases hquantified : (Operator.quantified? k).isSome
    · rw [if_pos hquantified] at h ⊢
      -- one item after a quantifier is its body, more of them are a chain
      rcases rest with - | ⟨w, more⟩
      · exact isRefusal_withOperator hvs.1 (fun h => shape_error v hvs.2.1 h) h
      · exact isRefusal_withOperator hvs.1
          (fun h => shapeChain_error v hvs.2.1 (w :: more) hvs.2.2 h) h
    · rw [if_neg hquantified] at h
      exact .inl (comparisonShape_error hkey hvs.1 (toText_foldChain_ne_error hvs.2.1 rest) h)
termination_by structural vs => vs

end

end

end RecordFilter.Filter
