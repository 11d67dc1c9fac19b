import RecordFilter.Proofs.Filter.Building

/-!
# Predicates with parts missing

Reading `not ↦ {}` gives a negation of nothing: an empty map is no condition, and only the entries of
a map are joined without those that are absent. What stands below a negation or a quantifier, or
beside others in a list, keeps its place when it is absent, so the predicate that is built has a gap.

`Condition.IsWhole` says that there is no gap at any depth. Whether there is one can be told from the
filter alone: `Filter.content` follows the reading of a filter and keeps only this of what is read
(`Filter.contentOf_shape`). All else about the predicate is as it should be, whether there are gaps or
not: operators are those of the standard registry, and at least two predicates are joined
(`Filter.isWhole_iff_of_read`).
-/

namespace RecordFilter

/-! ### Gaps -/

mutual

/-- The condition is there, and so is, at every depth, each operand of a negation or of a joining
operator and each body of a quantifier. -/
def Condition.IsWhole : Condition → Prop
  | .absent => False
  | .passthrough _ | .comparison .. | .bare _ => True
  | .unary _ operand => Condition.IsWhole operand
  | .logical _ children => Condition.AllWhole children
  | .quantified _ _ body => Condition.IsWhole body

/-- The conditions are there, without gaps. -/
def Condition.AllWhole : List Condition → Prop
  | [] => True
  | t :: ts => Condition.IsWhole t ∧ Condition.AllWhole ts

end

namespace Filter

/-- What a filter stands for, as far as gaps go: no condition, a condition without gaps, or one that
has a gap. -/
inductive Content where
  | nothing | whole | gapped
deriving DecidableEq, Repr

namespace Content

/-- The content of a node above what has this content. -/
def inside : Content → Content
  | whole => whole
  | _ => gapped

/-- The content of operands under an operator that joins them: only a single operand is itself. -/
def listed : List Content → Content
  | [] => nothing
  | [c] => c
  | cs => if cs.all (· == whole) then whole else gapped

/-- The content of entries that are joined when those without a condition are left out. -/
def joined (cs : List Content) : Content :=
  listed (cs.filter (· != nothing))

theorem inside_eq_whole_iff {c : Content} : c.inside = whole ↔ c = whole := by
  cases c <;> decide

end Content

mutual

/-- The content of a condition. -/
def contentOf : Condition → Content
  | .absent => .nothing
  | .passthrough _ | .comparison .. | .bare _ => .whole
  | .unary _ operand => (contentOf operand).inside
  | .logical _ children => if (contentsOf children).all (· == .whole) then .whole else .gapped
  | .quantified _ _ body => (contentOf body).inside

/-- The contents of conditions. -/
def contentsOf : List Condition → List Content
  | [] => []
  | t :: ts => contentOf t :: contentsOf ts

end

mutual

/-- The content of a condition is whole when it has no gaps. -/
theorem contentOf_eq_whole_iff : ∀ t : Condition, contentOf t = .whole ↔ t.IsWhole
  | .absent => by simp [contentOf, Condition.IsWhole]
  | .passthrough _ | .comparison .. | .bare _ => by simp [contentOf, Condition.IsWhole]
  | .unary _ operand => by
    rw [contentOf, Condition.IsWhole, Content.inside_eq_whole_iff, contentOf_eq_whole_iff operand]
  | .logical _ children => by
    rw [contentOf, Condition.IsWhole, ← contentsOf_all_iff children]
    split <;> simp [*]
  | .quantified _ _ body => by
    rw [contentOf, Condition.IsWhole, Content.inside_eq_whole_iff, contentOf_eq_whole_iff body]

theorem contentsOf_all_iff :
    ∀ ts : List Condition, (contentsOf ts).all (· == .whole) ↔ Condition.AllWhole ts
  | [] => by simp [contentsOf, Condition.AllWhole]
  | t :: ts => by
    rw [contentsOf, Condition.AllWhole, List.all_cons, Bool.and_eq_true, beq_iff_eq,
      contentOf_eq_whole_iff t, contentsOf_all_iff ts]

end

theorem contentOf_eq_nothing_iff {t : Condition} : contentOf t = .nothing ↔ isPresent t = false := by
  cases t
  case unary op operand => cases h : contentOf operand <;> simp [contentOf, isPresent, h, Content.inside]
  case quantified op _ body => cases h : contentOf body <;> simp [contentOf, isPresent, h, Content.inside]
  case logical op children =>
    rw [contentOf]
    split <;> simp [isPresent]
  all_goals simp [contentOf, isPresent]

theorem contentOf_joinShapes (op : Operator) :
    ∀ ts : List Condition, contentOf (joinShapes op ts) = .listed (contentsOf ts)
  | [] | [_] | _ :: _ :: _ => rfl

theorem contentsOf_filter (ts : List Condition) :
    contentsOf (ts.filter isPresent) = (contentsOf ts).filter (· != .nothing) := by
  induction ts with
  | nil => rfl
  | cons t ts ih =>
    rw [contentsOf, List.filter_cons, List.filter_cons]
    rcases h : isPresent t with - | -
    · have hnothing : contentOf t = .nothing := contentOf_eq_nothing_iff.mpr h
      simp [hnothing, ih]
    · have hpresent : contentOf t ≠ .nothing := by simp [Ne, contentOf_eq_nothing_iff, h]
      simp [hpresent, contentsOf, ih]

theorem contentOf_conjunction (ts : List Condition) :
    contentOf (conjunction ts) = .joined (contentsOf ts) := by
  have hmany : contentOf (joinShapes andOperator (ts.filter isPresent)) = .joined (contentsOf ts) := by
    rw [contentOf_joinShapes, contentsOf_filter, Content.joined]
  rcases ts with - | ⟨t, - | ⟨t', ts⟩⟩
  · exact hmany
  · -- a single condition is not looked at, and an absent one stays absent
    rw [conjunction, contentsOf, contentsOf, Content.joined]
    cases contentOf t <;> rfl
  · exact hmany

/-! ### The content of filters -/

mutual

/-- The content of a filter. -/
def content : Value → Content
  | .list items => contentItems items
  | .map entries => .joined (contentEntries entries)
  | _ => .whole

/-- The content of a list: that of its only item, or of a chain. -/
def contentItems : List Value → Content
  | [v] => content v
  | [] => .nothing
  | k :: rest => contentChain k rest

/-- The contents of filters, leaving out absent values. -/
def contentAll : List Value → List Content
  | [] => []
  | .null :: vs => contentAll vs
  | v :: vs => content v :: contentAll vs

/-- The contents of the entries of a map. -/
def contentEntries : List (Value × Value) → List Content
  | [] => []
  | (k, v) :: rest => contentEntry k v :: contentEntries rest

/-- The content of an entry of a map. -/
def contentEntry (key : Value) : Value → Content
  | .list [.list items] =>
    if (Operator.logical? key).isSome then .listed (contentAll items)
    else if (Operator.unary? key).isSome then (contentItems items).inside
    else .whole
  | .list items =>
    if (Operator.logical? key).isSome then .listed (contentAll items)
    else if (Operator.unary? key).isSome then (contentItems items).inside
    else .whole
  | .map entries =>
    if (Operator.logical? key).isSome then .joined (contentEntries entries)
    else if (Operator.unary? key).isSome then (Content.joined (contentEntries entries)).inside
    else if isWrapper (.map entries) then .whole
    else .joined (contentOperators entries)
  | v => if (Operator.logical? key).isSome && v.isNull then .nothing else .whole

/-- The contents of the entries of a map of operators under a path. -/
def contentOperators : List (Value × Value) → List Content
  | [] => []
  | (op, operand) :: rest =>
    (if (Operator.quantified? op).isSome then (content operand).inside else .whole) ::
      contentOperators rest

/-- The content of a chain, or of the value alone that the chain ends with. -/
def contentChain (key : Value) : List Value → Content
  | [] => .nothing
  | [v] => contentEntry key v
  | k :: v :: rest =>
    if (Operator.logical? key).isSome then contentChain k (v :: rest)
    else if (Operator.unary? key).isSome then (contentChain k (v :: rest)).inside
    else if Value.sameKey k (.text "value") then .whole
    else if (Operator.quantified? k).isSome then
      match rest with
      | [] => (content v).inside
      | w :: more => (contentChain v (w :: more)).inside
    else .whole

end

/-! ### The content of what is read -/

/-- The predicates that stand in a value, in places where filters may hold them, have no gaps. -/
abbrev HoldsWhole : Value → Prop :=
  Mentions fun p => p.condition.IsWhole

theorem contentOf_scalarShape {v : Value} (hv : HoldsWhole v) {t : Condition}
    (h : scalarShape v = .ok t) : contentOf t = .whole := by
  cases v
  case text => cases h; rfl
  case token => cases h; rfl
  case node n shown =>
    cases n
    case predicate p =>
      cases h
      exact (contentOf_eq_whole_iff _).mpr hv
    all_goals cases h
  all_goals cases h

theorem contentOf_equalShape {key v : Value} {t : Condition} (h : equalShape key v = .ok t) :
    contentOf t = .whole := by
  obtain ⟨op, -, rfl⟩ := equalShape_eq_ok_iff.mp h
  rfl

theorem contentOf_comparisonShape {key op v : Value} {t : Condition}
    (h : comparisonShape key op v = .ok t) : contentOf t = .whole := by
  obtain ⟨token, op', -, rfl, -⟩ := comparisonShape_eq_ok_cases h
  rfl

theorem contentOf_scalarEntryShape {key v : Value} (hv : HoldsWhole v) {t : Condition}
    (h : scalarEntryShape key v = .ok t) :
    contentOf t = if (Operator.logical? key).isSome && v.isNull then .nothing else .whole := by
  unfold scalarEntryShape at h
  split at h
  · rename_i hlogical
    obtain ⟨op, -, h⟩ := bind_eq_ok_iff.mp h
    split at h
    · cases h
      simp [hlogical, Value.isNull, joinShapes, contentOf]
    · rename_i hnull
      obtain ⟨u, hu, h⟩ := bind_eq_ok_iff.mp h
      cases h
      have hvalue : v.isNull = false := by
        cases v
        case null => exact (hnull rfl).elim
        all_goals rfl
      rw [hvalue, Bool.and_false, if_neg Bool.false_ne_true]
      exact contentOf_scalarShape hv hu
  · rename_i hlogical
    simp only [hlogical, Bool.false_and, Bool.false_eq_true, if_false]
    split at h
    · obtain ⟨op, u, -, hu, rfl⟩ := withOperator_eq_ok_iff.mp h
      rw [contentOf, contentOf_scalarShape hv hu]
      rfl
    · split at h
      · exact (refusedOperand_ne_ok h).elim
      · exact contentOf_equalShape h

theorem contentOf_listEntry {key : Value} {items : List Value}
    (hall : ∀ ts, shapeAll items = .ok ts → contentsOf ts = contentAll items)
    (hitems : ∀ t, shapeItems items = .ok t → contentOf t = contentItems items) {t : Condition}
    (h : listEntryShape key items = .ok t) :
    contentOf t =
      if (Operator.logical? key).isSome then .listed (contentAll items)
      else if (Operator.unary? key).isSome then (contentItems items).inside
      else .whole := by
  rcases listEntry_eq_ok_cases h with ⟨hlogical, op, ts, -, hts, rfl⟩ |
    ⟨hlogical, hunary, op, u, -, hu, rfl⟩
  · rw [if_pos hlogical, contentOf_joinShapes, hall ts hts]
  · rw [if_neg hlogical, if_pos hunary, contentOf, hitems u hu]

theorem contentOf_mapEntry {key : Value} {entries : List (Value × Value)}
    (hall : ∀ ts, shapeEntries entries = .ok ts → contentsOf ts = contentEntries entries)
    (hops : ∀ ts, shapeOperators key entries = .ok ts → contentsOf ts = contentOperators entries)
    {t : Condition} (h : shapeEntry key (.map entries) = .ok t) :
    contentOf t = contentEntry key (.map entries) := by
  unfold contentEntry
  rcases mapEntry_eq_ok_cases h with ⟨hlogical, op, ts, -, hts, rfl⟩ |
    ⟨hlogical, hunary, op, ts, -, hts, rfl⟩ | ⟨hlogical, hunary, hpath⟩
  · rw [if_pos hlogical, contentOf_conjunction, hall ts hts]
  · rw [if_neg hlogical, if_pos hunary, contentOf, contentOf_conjunction, hall ts hts]
  · rw [if_neg hlogical, if_neg hunary]
    rcases hpath with ⟨hwrapper, hequal⟩ | ⟨hwrapper, ts, hts, rfl⟩
    · rw [if_pos hwrapper]
      exact contentOf_equalShape hequal
    · rw [if_neg hwrapper, contentOf_conjunction, hops ts hts]

mutual

/-- **The content of what a filter is read as** is told by the filter. -/
theorem contentOf_shape : ∀ (v : Value), HoldsWhole v → ∀ {t : Condition}, shape v = .ok t →
    contentOf t = content v
  | .list items, hv, t, h => contentOf_shapeItems items hv h
  | .map entries, hv, t, h => by
    obtain ⟨ts, hts, rfl⟩ := shape_map_eq_ok_iff.mp h
    rw [contentOf_conjunction, contentsOf_shapeEntries entries hv hts, content]
  | .node _ _, hv, _, h | .null, hv, _, h | .bool _, hv, _, h | .int _, hv, _, h
  | .double _, hv, _, h | .decimal _, hv, _, h | .text _, hv, _, h | .token _, hv, _, h
  | .operator _, hv, _, h | .date _, hv, _, h | .time _, hv, _, h | .moment _, hv, _, h
  | .guid _, hv, _, h | .object _, hv, _, h | .member .., hv, _, h =>
    contentOf_scalarShape hv h
termination_by structural v => v

theorem contentOf_shapeItems : ∀ (vs : List Value),
    MentionsItems (fun p => p.condition.IsWhole) vs → ∀ {t : Condition}, shapeItems vs = .ok t →
      contentOf t = contentItems vs
  | [], _, t, h => by
    obtain ⟨_, -, h⟩ := bind_eq_ok_iff.mp h
    cases h
    rfl
  | [v], hv, t, h => contentOf_shape v hv.1 h
  | k :: v :: rest, hv, t, h => by
    obtain ⟨_, -, h⟩ := bind_eq_ok_iff.mp h
    exact contentOf_shapeChain k (v :: rest) hv.2 h
termination_by structural vs => vs

theorem contentsOf_shapeAll : ∀ (vs : List Value),
    MentionsItems (fun p => p.condition.IsWhole) vs → ∀ {ts : List Condition},
      shapeAll vs = .ok ts → contentsOf ts = contentAll vs
  | [], _, ts, h => by
    cases h
    rfl
  | v :: vs, hv, ts, h => by
    have hrest : ∀ {us}, shapeAll vs = .ok us → contentsOf us = contentAll vs :=
      fun hus => contentsOf_shapeAll vs hv.2 hus
    rcases shapeAll_cons_eq_ok_cases h with ⟨rfl, h⟩ | ⟨hnull, u, us, hu, hus, rfl⟩
    · exact hrest h
    · rw [contentsOf, contentOf_shape v hv.1 hu, hrest hus]
      cases v
      case null => exact (hnull rfl).elim
      all_goals rfl
termination_by structural vs => vs

theorem contentsOf_shapeEntries : ∀ (es : List (Value × Value)),
    MentionsEntries (fun p => p.condition.IsWhole) es → ∀ {ts : List Condition},
      shapeEntries es = .ok ts → contentsOf ts = contentEntries es
  | [], _, ts, h => by
    cases h
    rfl
  | (k, v) :: rest, hes, ts, h => by
    obtain ⟨u, us, hu, hus, rfl⟩ := shapeEntries_cons_eq_ok_iff.mp h
    rw [contentsOf, contentEntries, contentOf_shapeEntry k v hes.1 hu,
      contentsOf_shapeEntries rest hes.2 hus]
termination_by structural es => es

theorem contentOf_shapeEntry (key : Value) : ∀ (v : Value), HoldsWhole v → ∀ {t : Condition},
    shapeEntry key v = .ok t → contentOf t = contentEntry key v
  | .list [], hv, t, h =>
    contentOf_listEntry (fun ts hts => contentsOf_shapeAll [] hv hts)
      (fun t ht => contentOf_shapeItems [] hv ht) h
  | .list [v], hv, t, h => by
    -- a list that holds nothing but a list is read as the list inside
    have houter := @contentOf_listEntry key [v] (fun ts hts => contentsOf_shapeAll [v] hv hts)
      (fun t ht => contentOf_shapeItems [v] hv ht) t
    have hinner := contentOf_shapeInner v hv.1
    cases v
    case list items =>
      obtain ⟨hall, hitems⟩ := hinner items rfl
      exact contentOf_listEntry hall hitems h
    all_goals exact houter h
  | .list (v :: w :: rest), hv, t, h => by
    have hmany := @contentOf_listEntry key (v :: w :: rest)
      (fun ts hts => contentsOf_shapeAll (v :: w :: rest) hv hts)
      (fun t ht => contentOf_shapeItems (v :: w :: rest) hv ht) t
    cases v <;> exact hmany h
  | .map entries, hv, t, h =>
    contentOf_mapEntry (fun ts hts => contentsOf_shapeEntries entries hv hts)
      (fun ts hts => contentsOf_shapeOperators key entries hv hts) h
  | .node _ _, hv, _, h | .null, hv, _, h | .bool _, hv, _, h | .int _, hv, _, h
  | .double _, hv, _, h | .decimal _, hv, _, h | .text _, hv, _, h | .token _, hv, _, h
  | .operator _, hv, _, h | .date _, hv, _, h | .time _, hv, _, h | .moment _, hv, _, h
  | .guid _, hv, _, h | .object _, hv, _, h | .member .., hv, _, h =>
    contentOf_scalarEntryShape hv h
termination_by structural v => v

/-- The same for the items of a list that stands in a list of its own. -/
theorem contentOf_shapeInner : ∀ v : Value, HoldsWhole v → ∀ items, v = .list items →
    (∀ ts, shapeAll items = .ok ts → contentsOf ts = contentAll items) ∧
    ∀ t, shapeItems items = .ok t → contentOf t = contentItems items
  | .list items, hv, _, h => by
    cases h
    exact ⟨fun ts hts => contentsOf_shapeAll items hv hts,
      fun t ht => contentOf_shapeItems items hv ht⟩
  | .map _, _, _, h | .node .., _, _, h | .null, _, _, h | .bool _, _, _, h | .int _, _, _, h
  | .double _, _, _, h | .decimal _, _, _, h | .text _, _, _, h | .token _, _, _, h
  | .operator _, _, _, h | .date _, _, _, h | .time _, _, _, h | .moment _, _, _, h
  | .guid _, _, _, h | .object _, _, _, h | .member .., _, _, h => by cases h
termination_by structural v => v

theorem contentsOf_shapeOperators (key : Value) : ∀ (es : List (Value × Value)),
    MentionsEntries (fun p => p.condition.IsWhole) es → ∀ {ts : List Condition},
      shapeOperators key es = .ok ts → contentsOf ts = contentOperators es
  | [], _, ts, h => by
    cases h
    rfl
  | (op, operand) :: rest, hes, ts, h => by
    obtain ⟨u, us, hus, rfl, hu⟩ := shapeOperators_cons_eq_ok_cases h
    rw [contentsOf, contentOperators, contentsOf_shapeOperators key rest hes.2 hus]
    rcases hu with ⟨hquantified, quantifier, body, -, hbody, rfl⟩ | ⟨hquantified, hcomparison⟩
    · rw [if_pos hquantified, contentOf, contentOf_shape operand hes.1 hbody]
    · rw [if_neg hquantified, contentOf_comparisonShape hcomparison]
termination_by structural es => es

theorem contentOf_shapeChain (key : Value) : ∀ (vs : List Value),
    MentionsItems (fun p => p.condition.IsWhole) vs → ∀ {t : Condition},
      shapeChain key vs = .ok t → contentOf t = contentChain key vs
  | [], _, t, h => by
    cases h
    rfl
  | [v], hvs, t, h => contentOf_shapeEntry key v hvs.1 h
  | k :: v :: rest, hvs, t, h => by
    have hrest : ∀ {u}, shapeChain k (v :: rest) = .ok u →
        contentOf u = contentChain k (v :: rest) :=
      fun hu => contentOf_shapeChain k (v :: rest) hvs.2 hu
    -- the item in the place of the key says whether the rest is a chain of its own
    unfold shapeChain at h
    unfold contentChain
    by_cases hlogical : (Operator.logical? key).isSome
    · rw [if_pos hlogical] at h ⊢
      exact hrest h
    rw [if_neg hlogical] at h ⊢
    by_cases hunary : (Operator.unary? key).isSome
    · rw [if_pos hunary] at h ⊢
      obtain ⟨op, u, -, hu, rfl⟩ := withOperator_eq_ok_iff.mp h
      rw [contentOf, hrest hu]
    rw [if_neg hunary] at h ⊢
    by_cases hvalue : Value.sameKey k (.text "value")
    · rw [if_pos hvalue] at h ⊢
      exact contentOf_equalShape h
    rw [if_neg hvalue] at h ⊢
    by_cases hquantified : (Operator.quantified? k).isSome
    · rw [if_pos hquantified] at h ⊢
      -- one item after a quantifier is its body, more of them are a chain
      rcases rest with - | ⟨w, more⟩
      · obtain ⟨quantifier, body, -, hbody, rfl⟩ := withOperator_eq_ok_iff.mp h
        rw [contentOf, contentOf_shape v hvs.2.1 hbody]
      · obtain ⟨quantifier, body, -, hbody, rfl⟩ := withOperator_eq_ok_iff.mp h
        rw [contentOf, contentOf_shapeChain v (w :: more) hvs.2.2 hbody]
    · rw [if_neg hquantified] at h ⊢
      exact contentOf_comparisonShape h
termination_by structural vs => vs

end

/-! ### Predicates that are read -/

/-- **A predicate that is read from JSON is well formed, but for gaps that the filter tells.** Its
operators are those of the standard registry, each of the kind of its node, and at least two
predicates are joined, at every depth. No operand of a negation or of a joining operator and no body
of a quantifier is missing exactly when the content of the filter is whole. -/
theorem isWhole_iff_of_read {f : Value} {b b' : Builder} {p : Predicate} (hf : f.IsJson)
    (h : outcome (readArguments [f]) b = (.ok (some p), b')) :
    p.condition.IsBuilt Value.IsJson ∧ (p.condition.IsWhole ↔ content f = .whole) := by
  have hread : outcome (read f) b = (.ok (some p), b') := h
  obtain ⟨hshape, hbuilt⟩ := read_ok hereditary_isJson Value.IsJson.isPlain hf hread
  have hmentions : HoldsWhole f := mentions_of_isPlain f (Value.IsJson.isPlain f hf)
  refine ⟨hbuilt.isBuilt, ?_⟩
  rw [← contentOf_eq_whole_iff, contentOf_shape f hmentions hshape]

/-- An empty map among the entries of a map leaves no gap. -/
theorem isWhole_of_empty_entry :
    ∃ p b', outcome (readArguments [.map [(.text "a", .int 1), (.text "b", .map []),
        (.text "c", .map [(.text "any", .map [(.text "d", .int 2)])])]]) {} = (.ok (some p), b') ∧
      p.condition.IsWhole := by
  have hjson : Value.IsJson (.map [(.text "a", .int 1), (.text "b", .map []),
      (.text "c", .map [(.text "any", .map [(.text "d", .int 2)])])]) := by
    simp [Value.IsJson, Value.JsonEntries, Value.isKey]
  exact ⟨_, _, rfl, (isWhole_iff_of_read hjson rfl).2.mpr (by decide)⟩

/-- **An empty map in a list leaves a gap**: `and ↦ [{}, {a ↦ 1}]` joins a missing predicate and a
comparison. -/
theorem gap_of_empty_map_in_list :
    Value.IsJson (.map [(.text "and", .list [.map [], .map [(.text "a", .int 1)]])]) ∧
      ∃ p b', outcome (readArguments [.map [(.text "and",
          .list [.map [], .map [(.text "a", .int 1)]])]]) {} = (.ok (some p), b') ∧
        ¬ p.condition.IsWhole := by
  refine ⟨?_, _, _, rfl, fun h => h.1⟩
  simp [Value.IsJson, Value.JsonEntries, Value.JsonItems, Value.isKey]

end Filter

end RecordFilter
