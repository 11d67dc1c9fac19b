import RecordFilter.Proofs.Filter.Entries
import RecordFilter.Proofs.Filter.Shape

/-!
# Operands of joining operators

A joining operator over a single operand is that operand, and joining a filter to a predicate is the
same as reading both under the operator. Both hold of every filter but a list of three or more items,
which is a chain where a filter is expected, and a list of operands where operands are. The main
statement is `Filter.join_single_operand`.
-/

namespace RecordFilter

namespace Filter

/-! ### Kinds of filters -/

/-- The value is no list of three or more items, so it is never taken for several operands. -/
def IsSingle : Value → Prop
  | .list items => items.length < 3
  | _ => True

/-- The value is a list that starts with a path and the name of a comparison or of a quantifier. -/
def IsPathChain : Value → Prop
  | .list (path :: op :: _ :: _) => path.asText?.isSome ∧ isChainOperator op
  | _ => False

/-! ### Reading operands -/

section

variable {key v : Value} {m : MarkedOperator Bool} {b b' : Builder} {p : Option Predicate}

theorem ne_null_of_read (h : outcome (read v) b = (.ok p, b')) : v ≠ .null := by
  rintro rfl
  rw [read] at h
  · cases h
  all_goals rintro _ ⟨⟩

/-- A map of one entry is read as the entry. -/
theorem outcome_readArguments_entry :
    outcome (readArguments [.map [(key, v)]]) b = outcome (readEntry key v) b := by
  rw [readArguments, read, readEntries]
  rcases h : outcome (readEntry key v) b with ⟨e | p, b'⟩
  · exact outcome_bind_of_error (outcome_bind_of_error h)
  · have hone : outcome (do
        let p ← readEntry key v
        return p :: (← readEntries [])) b = (.ok [p], b') := by
      rw [outcome_bind_of_ok h]
      rfl
    exact outcome_bind_of_ok hone

theorem readAll_cons {vs : List Value} (hnull : v ≠ .null) :
    readAll (v :: vs) = (do
      let p ← read v
      return p :: (← readAll vs)) := by
  rw [readAll]
  exact hnull

theorem outcome_readAll_cons {vs : List Value} {ps : List (Option Predicate)} {b'' : Builder}
    (hv : outcome (read v) b = (.ok p, b')) (hvs : outcome (readAll vs) b' = (.ok ps, b'')) :
    outcome (readAll (v :: vs)) b = (.ok (p :: ps), b'') := by
  rw [readAll_cons (ne_null_of_read hv), outcome_bind_of_ok hv, outcome_bind_of_ok hvs]
  rfl

theorem outcome_readAll_single (h : outcome (read v) b = (.ok p, b')) :
    outcome (readAll [v]) b = (.ok [p], b') :=
  outcome_readAll_cons h rfl

/-- A list under a joining operator holds its operands, unless it is put into a list of its own. -/
theorem outcome_readEntry_list (hkey : Operator.logical? key = some m) {items : List Value}
    (hitems : ∀ inner, items ≠ [.list inner]) :
    outcome (readEntry key (.list items)) b =
      outcome (do join m.toOperator (← readAll items)) b := by
  have hsome : (Operator.logical? key).isSome := Option.isSome_of_eq_some hkey
  rw [readEntry, if_pos hsome, outcome_bind_of_ok (outcome_resolve hkey b)]
  intro inner h
  exact hitems inner h

theorem outcome_readEntry_inner (hkey : Operator.logical? key = some m) {items : List Value} :
    outcome (readEntry key (.list [.list items])) b =
      outcome (do join m.toOperator (← readAll items)) b := by
  have hsome : (Operator.logical? key).isSome := Option.isSome_of_eq_some hkey
  rw [readEntry, if_pos hsome, outcome_bind_of_ok (outcome_resolve hkey b)]

/-- A list that is read has an item, and two items are no chain. -/
theorem exists_of_read_list {items : List Value} (h : outcome (read (.list items)) b = (.ok p, b'))
    (hsingle : items.length < 3) : ∃ v, items = [v] := by
  rcases items with - | ⟨v, - | ⟨w, - | ⟨u, rest⟩⟩⟩
  · rw [read, readItems] at h
    cases h
  · exact ⟨v, rfl⟩
  · rw [read, readItems] at h
    · cases h
    · exact List.cons_ne_nil _ _
  · exact absurd hsingle (by simp)

theorem read_list_single : read (.list [v]) = read v := by
  rw [read, readItems]

/-! ### A single operand -/

/-- A filter that is no list of three or more items is the only operand of its own. -/
theorem outcome_readEntry_single (hkey : Operator.logical? key = some m) (hsingle : IsSingle v)
    (h : outcome (read v) b = (.ok p, b')) :
    outcome (readEntry key (.list [v])) b = (.ok p, b') := by
  have hjoin : ∀ {w : Value}, outcome (read w) b = (.ok p, b') →
      outcome (do join m.toOperator (← readAll [w])) b = (.ok p, b') := by
    intro w hw
    rw [outcome_bind_of_ok (outcome_readAll_single hw)]
    rfl
  cases v
  case list items =>
    -- the list is put into a list of its own, so it stands for its operands: its only item
    obtain ⟨w, rfl⟩ := exists_of_read_list h hsingle
    rw [read_list_single] at h
    rw [outcome_readEntry_inner hkey]
    exact hjoin h
  all_goals
    rw [outcome_readEntry_list hkey (by rintro _ ⟨⟩)]
    exact hjoin h

/-! ### Other operands beside a predicate -/

/-- A filter that is no list of three or more items is joined to a predicate as it is read alone. -/
theorem outcome_readOthers_single (hsingle : IsSingle v) (h : outcome (read v) b = (.ok p, b')) :
    outcome (readOthers [v]) b = (.ok [p], b') := by
  cases v
  case list items =>
    obtain ⟨w, rfl⟩ := exists_of_read_list h hsingle
    rw [read_list_single] at h
    exact outcome_readAll_single h
  all_goals exact outcome_readAll_single h

theorem canFind_of_isChainOperator {op : Value} (h : isChainOperator op) : Registry.canFind op := by
  rw [isChainOperator, Bool.or_eq_true] at h
  rcases h with h | h
  · obtain ⟨m, hm⟩ := Option.isSome_iff_exists.mp h
    exact canFind_of_find? hm
  · obtain ⟨m, hm⟩ := Option.isSome_iff_exists.mp h
    exact canFind_of_find? hm

/-- A chain under a path that is read as a predicate is joined as that predicate. -/
theorem outcome_readOthers_chain (hchain : IsPathChain v) {q : Predicate}
    (h : outcome (read v) b = (.ok (some q), b')) :
    outcome (readOthers [v]) b = (.ok [some q], b') := by
  cases v
  case list items =>
    obtain - | ⟨path, - | ⟨op, - | ⟨operand, rest⟩⟩⟩ := items
    case cons.cons.cons =>
      obtain ⟨hpath, hop⟩ := hchain
      have htuple : outcome (readTuple (path :: op :: operand :: rest)) b = (.ok (some q), b') := by
        rw [read, readItems] at h
        · exact h
        · exact List.cons_ne_nil _ _
      have hfind : Registry.canFind op := canFind_of_isChainOperator hop
      rw [readOthers, hpath, hop, hfind]
      exact outcome_bind_of_ok htuple
    all_goals exact hchain.elim
  all_goals exact hchain.elim

/-- Joining a filter to a predicate comes to the same as reading both under the operator, if the
filter is joined as it is read alone. -/
theorem outcome_combine (hkey : Operator.logical? key = some m) {first : Predicate} {shown : Shown Value}
    (h : outcome (read v) b = (.ok p, b'))
    (hothers : outcome (readOthers [v]) b = (.ok [p], b')) :
    outcome (combine key first [v]) b =
        (.ok (some (.logical b'.next m.toOperator [some first, p])), b'.step) ∧
      outcome (readArguments [.map [(key, .list [.node (.predicate first) shown, v])]]) b =
        (.ok (some (.logical b'.next m.toOperator [some first, p])), b'.step) := by
  have hfirst : outcome (read (.node (.predicate first) shown)) b = (.ok (some first), b) := by
    rw [read]
    · rfl
    all_goals rintro _ ⟨⟩
  constructor
  · rw [combine, outcome_bind_of_ok (outcome_resolve hkey b), outcome_bind_of_ok hothers]
    rfl
  · rw [outcome_readArguments_entry, outcome_readEntry_list hkey (by rintro _ ⟨⟩),
      outcome_bind_of_ok (outcome_readAll_cons hfirst (outcome_readAll_single h))]
    rfl

/-- **A joining operator over a single operand is that operand**, for every filter that is no list of
three or more items: it is read as the same nodes with the same labels. Such a filter and a predicate
are joined alike whether the filter is given to the predicate or both are read under the operator,
and so are chains under a path. A list of three or more items that is the only operand is the list of
the operands. -/
theorem join_single_operand (hkey : Operator.logical? key = some m)
    (h : outcome (readArguments [v]) b = (.ok p, b')) :
    (IsSingle v → outcome (readArguments [.map [(key, .list [v])]]) b = (.ok p, b')) ∧
    (IsSingle v ∨ IsPathChain v ∧ p.isSome → ∀ (first : Predicate) (shown : Shown Value),
      outcome (combine key first [v]) b =
          (.ok (some (.logical b'.next m.toOperator [some first, p])), b'.step) ∧
        outcome (readArguments [.map [(key, .list [.node (.predicate first) shown, v])]]) b =
          (.ok (some (.logical b'.next m.toOperator [some first, p])), b'.step)) ∧
    ∀ items, v = .list items → ¬ IsSingle v →
      outcome (readArguments [.map [(key, .list [v])]]) b =
        outcome (readArguments [.map [(key, v)]]) b := by
  have hread : outcome (read v) b = (.ok p, b') := h
  refine ⟨fun hsingle => ?_, fun hkind first shown => ?_, ?_⟩
  · rw [outcome_readArguments_entry]
    exact outcome_readEntry_single hkey hsingle hread
  · refine outcome_combine hkey hread ?_
    rcases hkind with hsingle | ⟨hchain, hsome⟩
    · exact outcome_readOthers_single hsingle hread
    · obtain ⟨q, rfl⟩ := Option.isSome_iff_exists.mp hsome
      exact outcome_readOthers_chain hchain hread
  · rintro items rfl hmany
    rw [outcome_readArguments_entry, outcome_readArguments_entry, outcome_readEntry_inner hkey,
      outcome_readEntry_list hkey]
    rintro inner rfl
    exact hmany (by simp [IsSingle])

end

/-- A filter in a list of its own is its own conjunction, and a chain under a path is joined to a
predicate as the comparison that it is. -/
theorem join_single_operand_city :
    let raw : Predicate := .passthrough 0 (.text "raw")
    let shown : Shown Value := ⟨.ok "raw", "raw", []⟩
    let chain : Value := .list [.text "city", .text "eq", .text "London"]
    outcome (readArguments [.map [(.text "and", .list [.list [.map [(.text "city",
        .text "London")]]])]]) {} =
      (.ok (some (.comparison 0 ⟨.text "eq", ["==", "=", "equals"], false⟩ (.text "city")
        (.text "London"))), Builder.step {}) ∧
    outcome (combine (.text "or") raw [chain]) (Builder.step {}) =
      outcome (readArguments [.map [(.text "or", .list [.node (.predicate raw) shown, chain])]])
        (Builder.step {}) := by
  have hand : Operator.logical? (.text "and") = some ⟨"and", ["&&"], false⟩ := rfl
  have hor : Operator.logical? (.text "or") = some ⟨"or", ["||"], false⟩ := rfl
  have hnested := join_single_operand hand (v := .list [.map [(.text "city", .text "London")]])
    (b := {}) rfl
  have hchain := join_single_operand hor (v := .list [.text "city", .text "eq", .text "London"])
    (b := Builder.step {}) rfl
  obtain ⟨hcombine, hread⟩ := hchain.2.1 (.inr ⟨⟨rfl, rfl⟩, rfl⟩) (.passthrough 0 (.text "raw"))
    ⟨.ok "raw", "raw", []⟩
  exact ⟨hnested.1 (by simp [IsSingle]), hcombine.trans hread.symm⟩

/-- **A chain that is the only operand is read as several operands.** Under `and` the chain
`["not", "city", "London"]` is the conjunction of three passed through texts instead of a negation,
and joined to a predicate it adds those texts, where reading both under `and` adds the negation. -/
theorem chain_as_operands :
    let raw : Predicate := .passthrough 0 (.text "raw")
    let shown : Shown Value := ⟨.ok "raw", "raw", []⟩
    let chain : Value := .list [.text "not", .text "city", .text "London"]
    ∃ p q r s : Option Predicate,
      (outcome (readArguments [chain]) {}).1 = .ok p ∧
      (outcome (readArguments [.map [(.text "and", .list [chain])]]) {}).1 = .ok q ∧
      Predicate.conditionOf q ≠ Predicate.conditionOf p ∧
      (outcome (combine (.text "and") raw [chain]) {}).1 = .ok r ∧
      (outcome (readArguments [.map [(.text "and", .list [.node (.predicate raw) shown,
        chain])]]) {}).1 = .ok s ∧
      Predicate.conditionOf r ≠ Predicate.conditionOf s := by
  refine ⟨_, _, _, _, rfl, rfl, ?_, rfl, rfl, ?_⟩
  · nofun
  · nofun

end Filter

end RecordFilter
