import Mathlib.Data.List.Nodup
import RecordFilter.Proofs.Filter.Shape

/-!
# What reading builds

The predicates that are read from plain values are well formed: operators are those of the standard
registry, joined predicates are at least two, and what stands on the left of a comparison or is the
collection of a quantifier can be the key of a map and is not spelled like a joining operator or a
negation (`Filter.shape_isBuilt`). Every node of such a predicate is new (`Filter.read_ok`), and what
can be said of a filter as a whole (`Filter.Hereditary`) can be said of the sources of operands.
-/

namespace RecordFilter

/-! ### Operators of the standard registry -/

/-- The operator is one of a list of known operators. -/
def Operator.IsOf (known : List (MarkedOperator Bool)) (op : Operator) : Prop :=
  ∃ m ∈ known, op = m.toOperator

/-- The value is spelled neither like a joining operator nor like a negation. -/
structure Value.IsUnreserved (v : Value) : Prop where
  logical : Operator.logical? v = none
  unary : Operator.unary? v = none

theorem Spellings.mem_of_find? {φ : Type} {spelling : Text} {op : MarkedOperator φ} :
    ∀ {spellings : Spellings φ}, spellings.find? spelling = some op → (spelling, op) ∈ spellings
  | [], h => by cases h
  | (s, o) :: rest, h => by
    unfold Spellings.find? at h
    split at h
    · rename_i hs
      cases h
      exact hs ▸ List.mem_cons_self
    · exact List.mem_cons_of_mem _ (Spellings.mem_of_find? h)

namespace Filter

theorem isOf_of_operatorOf {kind : Text} {known : List (MarkedOperator Bool)}
    (hknown : ∀ e ∈ Registry.standard.spellings kind, e.2 ∈ known) {token : Value} {op : Operator}
    (h : operatorOf kind token = .ok op) : op.IsOf known := by
  obtain ⟨m, hm, hop⟩ := bind_eq_ok_iff.mp h
  cases hop
  obtain ⟨r, hr, hm⟩ := bind_eq_ok_iff.mp hm
  rcases r with - | m'
  · cases hm
  · cases hm
    unfold Registry.lookup at hr
    split at hr
    · obtain ⟨s, -, hfind⟩ := Option.bind_eq_some_iff.mp (Except.ok.inj hr)
      exact ⟨m, hknown _ (Spellings.mem_of_find? hfind), rfl⟩
    · cases hr

theorem isOf_logical {token : Value} {op : Operator} (h : operatorOf "logical" token = .ok op) :
    op.IsOf Operator.logical :=
  isOf_of_operatorOf (by decide) h

theorem isOf_unary {token : Value} {op : Operator} (h : operatorOf "unary" token = .ok op) :
    op.IsOf Operator.unary :=
  isOf_of_operatorOf (by decide) h

theorem isOf_comparison {token : Value} {op : Operator}
    (h : operatorOf "comparison" token = .ok op) : op.IsOf Operator.comparison :=
  isOf_of_operatorOf (by decide) h

theorem isOf_quantified {token : Value} {op : Operator}
    (h : operatorOf "quantified" token = .ok op) : op.IsOf Operator.quantified :=
  isOf_of_operatorOf (by decide) h

end Filter

/-! ### JSON values -/

mutual

/-- The value is a scalar of JSON, or it is made of such scalars. Any of them may be a key, as in the
maps that chains stand for. -/
def Value.IsJson : Value → Prop
  | .null | .bool _ | .int _ | .double _ | .text _ => True
  | .list items => Value.JsonItems items
  | .map entries => Value.JsonEntries entries
  | _ => False

/-- All items are JSON values. -/
def Value.JsonItems : List Value → Prop
  | [] => True
  | v :: vs => Value.IsJson v ∧ Value.JsonItems vs

/-- All keys and values of entries are JSON values. -/
def Value.JsonEntries : List (Value × Value) → Prop
  | [] => True
  | (k, v) :: rest => (k.isKey ∧ Value.IsJson k ∧ Value.IsJson v) ∧ Value.JsonEntries rest

end

mutual

theorem Value.IsJson.isPlain : ∀ v : Value, v.IsJson → v.IsPlain
  | .list items, h => Value.IsJson.plainItems items h
  | .map entries, h => Value.IsJson.plainEntries entries h
  | .null, _ | .bool _, _ | .int _, _ | .double _, _ | .text _, _ => trivial
  | .decimal _, h | .token _, h | .operator _, h | .date _, h | .time _, h | .moment _, h
  | .guid _, h | .object _, h | .member .., h | .node .., h => h.elim

theorem Value.IsJson.plainItems : ∀ vs : List Value, Value.JsonItems vs → Value.PlainItems vs
  | [], _ => trivial
  | v :: vs, h => ⟨Value.IsJson.isPlain v h.1, Value.IsJson.plainItems vs h.2⟩

theorem Value.IsJson.plainEntries :
    ∀ es : List (Value × Value), Value.JsonEntries es → Value.PlainEntries es
  | [], _ => trivial
  | (k, v) :: rest, h =>
    ⟨⟨h.1.1, Value.IsJson.isPlain k h.1.2.1, Value.IsJson.isPlain v h.1.2.2⟩,
      Value.IsJson.plainEntries rest h.2⟩

end

theorem Value.jsonItems_iff {vs : List Value} : JsonItems vs ↔ ∀ v ∈ vs, v.IsJson := by
  induction vs with
  | nil => simp [JsonItems]
  | cons v vs ih => simp [JsonItems, ih]

theorem Value.jsonEntries_iff {es : List (Value × Value)} :
    JsonEntries es ↔ ∀ e ∈ es, e.1.isKey ∧ e.1.IsJson ∧ e.2.IsJson := by
  induction es with
  | nil => simp [JsonEntries]
  | cons e es ih => simp [JsonEntries, ih]

theorem Value.isJson_of_lookup? {key v : Value} {es : List (Value × Value)}
    (hes : JsonEntries es) (h : lookup? key es = some v) : v.IsJson := by
  induction es with
  | nil => cases h
  | cons e es ih =>
    unfold lookup? at h
    split at h
    · cases h
      exact hes.1.2.2
    · exact ih hes.2 h

/-- Every JSON value has a plain text. -/
theorem Value.toText_ne_error {fault : Fault} : ∀ v : Value, v.IsJson → v.toText ≠ .error fault
  | .text _, _, h | .null, _, h | .bool _, _, h | .int _, _, h | .double _, _, h | .list _, _, h
  | .map _, _, h => by cases h
  | .decimal _, hv, _ | .token _, hv, _ | .operator _, hv, _ | .date _, hv, _ | .time _, hv, _
  | .moment _, hv, _ | .guid _, hv, _ | .object _, hv, _ | .member .., hv, _ | .node .., hv, _ =>
    hv.elim

/-! ### Well-formed conditions -/

mutual

/-- The condition is built as reading builds conditions, over values that have a property. -/
def Condition.IsBuilt (V : Value → Prop) : Condition → Prop
  | .absent => True
  | .passthrough text => V text
  | .unary op operand => op.IsOf Operator.unary ∧ Condition.IsBuilt V operand
  | .logical op children =>
    op.IsOf Operator.logical ∧ 2 ≤ children.length ∧ Condition.AllBuilt V children
  | .comparison op left right =>
    op.IsOf Operator.comparison ∧ left.IsUnreserved ∧ left.isKey ∧ V left ∧ V right
  | .quantified op collection body =>
    op.IsOf Operator.quantified ∧ collection.IsUnreserved ∧ collection.isKey ∧ V collection ∧
      Condition.IsBuilt V body
  | .bare _ => False

/-- The conditions are built as reading builds conditions. -/
def Condition.AllBuilt (V : Value → Prop) : List Condition → Prop
  | [] => True
  | t :: ts => Condition.IsBuilt V t ∧ Condition.AllBuilt V ts

end

theorem Condition.allBuilt_iff {V : Value → Prop} {ts : List Condition} :
    AllBuilt V ts ↔ ∀ t ∈ ts, t.IsBuilt V := by
  induction ts with
  | nil => simp [AllBuilt]
  | cons t ts ih => simp [AllBuilt, ih]

namespace Filter

/-- A property of values that the parts of filters inherit, and that no node has. -/
structure Hereditary (V : Value → Prop) : Prop where
  list : ∀ {vs}, V (.list vs) → ∀ v ∈ vs, V v
  map : ∀ {es}, V (.map es) → ∀ e ∈ es, e.1.isKey ∧ V e.1 ∧ V e.2
  null : V .null
  entry : ∀ {k v}, k.isKey → V k → V v → V (.map [(k, v)])
  not_node : ∀ {n shown}, ¬ V (.node n shown)

theorem hereditary_isPlain : Hereditary Value.IsPlain where
  list := fun h => Value.isPlain_list.mp h
  map := fun h => Value.isPlain_map.mp h
  null := trivial
  entry := fun hk hk' hv => Value.isPlain_map.mpr (by simp [hk, hk', hv])
  not_node := fun h => h

theorem hereditary_isJson : Hereditary Value.IsJson where
  list := fun h => Value.jsonItems_iff.mp h
  map := fun h => Value.jsonEntries_iff.mp h
  null := trivial
  entry := fun hk hk' hv => ⟨⟨hk, hk', hv⟩, trivial⟩
  not_node := fun h => h

section

variable {V : Value → Prop} (hV : Hereditary V)

include hV

theorem Hereditary.foldChain :
    ∀ {vs : List Value}, (∀ v ∈ vs, V v) → (vs.dropLast.all Value.isKey) → V (foldChain vs)
  | [], _, _ => hV.null
  | [v], h, _ => h v List.mem_cons_self
  | k :: v :: rest, h, hkeys => by
    rw [List.dropLast_cons_of_ne_nil (List.cons_ne_nil _ _), List.all_cons, Bool.and_eq_true]
      at hkeys
    exact hV.entry hkeys.1 (h k List.mem_cons_self)
      (Hereditary.foldChain (fun w hw => h w (List.mem_cons_of_mem _ hw)) hkeys.2)

end

/-! ### Properties of what filters are read as -/

/-- A property of conditions that all conditions have that are made while a filter is read of values
with the property `V`. -/
structure Formation (V : Value → Prop) (B : Condition → Prop) : Prop where
  absent : B .absent
  passthrough : ∀ {v}, V v → v.asText?.isSome → B (.passthrough v)
  unary : ∀ {op t}, op.IsOf Operator.unary → B t → B (.unary op t)
  logical : ∀ {op ts}, op.IsOf Operator.logical → 2 ≤ ts.length → (∀ t ∈ ts, B t) →
    B (.logical op ts)
  comparison : ∀ {op k v}, op.IsOf Operator.comparison → k.IsUnreserved ∧ k.isKey ∧ V k → V v →
    B (.comparison op k v)
  quantified : ∀ {op k t}, op.IsOf Operator.quantified → k.IsUnreserved ∧ k.isKey ∧ V k → B t →
    B (.quantified op k t)

/-- Reading makes well formed conditions. -/
theorem formation_isBuilt (V : Value → Prop) : Formation V (Condition.IsBuilt V) where
  absent := trivial
  passthrough := fun hv _ => hv
  unary := fun hop ht => ⟨hop, ht⟩
  logical := fun hop hlength hts => ⟨hop, hlength, Condition.allBuilt_iff.mpr hts⟩
  comparison := fun hop hk hv => ⟨hop, hk.1, hk.2.1, hk.2.2, hv⟩
  quantified := fun hop hk ht => ⟨hop, hk.1, hk.2.1, hk.2.2, ht⟩

theorem isUnreserved_of_not_isSome {key : Value} (hlogical : ¬ (Operator.logical? key).isSome)
    (hunary : ¬ (Operator.unary? key).isSome) : key.IsUnreserved where
  logical := by simpa using hlogical
  unary := by simpa using hunary

theorem chainFault_eq_ok {items : List Value} (h : chainFault items = .ok ()) :
    items.dropLast.all Value.isKey := by
  unfold chainFault at h
  split at h
  · cases h
  · split at h
    · assumption
    · cases h

section

variable {V : Value → Prop} {B : Condition → Prop} (hB : Formation V B)

include hB

namespace Formation

theorem joinShapes {op : Operator} (hop : op.IsOf Operator.logical) :
    ∀ {ts : List Condition}, (∀ t ∈ ts, B t) → B (joinShapes op ts)
  | [], _ => hB.absent
  | [_], h => h _ List.mem_cons_self
  | _ :: _ :: _, h => hB.logical hop (by simp) h

theorem conjunction {ts : List Condition} (h : ∀ t ∈ ts, B t) : B (conjunction ts) := by
  have hand : andOperator.IsOf Operator.logical := ⟨_, List.mem_cons_self, rfl⟩
  have hmany : B (Filter.joinShapes andOperator (ts.filter isPresent)) :=
    hB.joinShapes hand fun t ht => h t (List.mem_filter.mp ht).1
  rcases ts with - | ⟨t, - | ⟨t', ts⟩⟩
  · exact hmany
  · exact h t List.mem_cons_self
  · exact hmany

theorem equalShape {key v : Value} (hkey : key.IsUnreserved ∧ key.isKey ∧ V key)
    (hv : V v) {t : Condition} (h : equalShape key v = .ok t) : B t := by
  obtain ⟨op, hop, rfl⟩ := equalShape_eq_ok_iff.mp h
  exact hB.comparison (isOf_comparison hop) hkey hv

theorem comparisonShape {key op v : Value} (hkey : key.IsUnreserved ∧ key.isKey ∧ V key)
    (hv : V v) {t : Condition} (h : comparisonShape key op v = .ok t) : B t := by
  obtain ⟨token, op', hop, rfl, -⟩ := comparisonShape_eq_ok_cases h
  exact hB.comparison (isOf_comparison hop) hkey hv

theorem listEntry (key : Value) {items : List Value}
    (hall : ∀ ts, shapeAll items = .ok ts → ∀ t ∈ ts, B t)
    (hitems : ∀ t, shapeItems items = .ok t → B t) {t : Condition}
    (h : listEntryShape key items = .ok t) : B t := by
  rcases listEntry_eq_ok_cases h with ⟨-, op, ts, hop, hts, rfl⟩ | ⟨-, -, op, u, hop, hu, rfl⟩
  · exact hB.joinShapes (isOf_logical hop) (hall ts hts)
  · exact hB.unary (isOf_unary hop) (hitems u hu)

theorem mapEntry {key : Value} {entries : List (Value × Value)} (hkey : key.isKey ∧ V key)
    (hmap : V (.map entries)) (hall : ∀ ts, shapeEntries entries = .ok ts → ∀ t ∈ ts, B t)
    (hops : key.IsUnreserved → ∀ ts, shapeOperators key entries = .ok ts → ∀ t ∈ ts, B t)
    {t : Condition} (h : shapeEntry key (.map entries) = .ok t) : B t := by
  rcases mapEntry_eq_ok_cases h with ⟨-, op, ts, -, hts, rfl⟩ | ⟨-, -, op, ts, hop, hts, rfl⟩ |
    ⟨hlogical, hunary, hpath⟩
  · exact hB.conjunction (hall ts hts)
  · exact hB.unary (isOf_unary hop) (hB.conjunction (hall ts hts))
  · have hfree := isUnreserved_of_not_isSome hlogical hunary
    rcases hpath with ⟨-, hequal⟩ | ⟨-, ts, hts, rfl⟩
    · exact hB.equalShape ⟨hfree, hkey⟩ hmap hequal
    · exact hB.conjunction (hops hfree ts hts)

variable (hV : Hereditary V)

include hV

theorem scalarShape {v : Value} (hv : V v) {t : Condition} (h : scalarShape v = .ok t) : B t := by
  cases v
  case text s =>
    cases h
    exact hB.passthrough hv rfl
  case token s =>
    cases h
    exact hB.passthrough hv rfl
  case node n shown => exact (hV.not_node hv).elim
  all_goals cases h

theorem scalarEntryShape {key v : Value} (hkey : key.isKey ∧ V key) (hv : V v)
    {t : Condition} (h : scalarEntryShape key v = .ok t) : B t := by
  unfold Filter.scalarEntryShape at h
  split at h
  · obtain ⟨op, hop, h⟩ := bind_eq_ok_iff.mp h
    split at h
    · cases h
      exact hB.absent
    · obtain ⟨u, hu, h⟩ := bind_eq_ok_iff.mp h
      cases h
      exact hB.scalarShape hV hv hu
  · rename_i hlogical
    split at h
    · obtain ⟨op, u, hop, hu, rfl⟩ := withOperator_eq_ok_iff.mp h
      exact hB.unary (isOf_unary hop) (hB.scalarShape hV hv hu)
    · rename_i hunary
      split at h
      · exact (refusedOperand_ne_ok h).elim
      · exact hB.equalShape ⟨isUnreserved_of_not_isSome hlogical hunary, hkey⟩ hv h

end Formation

variable (hV : Hereditary V)

include hV

set_option linter.unusedSectionVars false in
mutual

/-- **What a filter is read as has every property that reading makes.** -/
theorem shape_formation : ∀ (v : Value), V v → ∀ {t : Condition}, shape v = .ok t → B t
  | .list items, hv, t, h => shapeItems_formation items (hV.list hv) h
  | .map entries, hv, t, h => by
    obtain ⟨ts, hts, rfl⟩ := shape_map_eq_ok_iff.mp h
    exact hB.conjunction (shapeEntries_formation entries (hV.map hv) hts)
  | .node _ _, hv, _, h | .null, hv, _, h | .bool _, hv, _, h | .int _, hv, _, h
  | .double _, hv, _, h | .decimal _, hv, _, h | .text _, hv, _, h | .token _, hv, _, h
  | .operator _, hv, _, h | .date _, hv, _, h | .time _, hv, _, h | .moment _, hv, _, h
  | .guid _, hv, _, h | .object _, hv, _, h | .member .., hv, _, h =>
    hB.scalarShape hV hv h
termination_by structural v => v

theorem shapeItems_formation : ∀ (vs : List Value), (∀ v ∈ vs, V v) → ∀ {t : Condition},
    shapeItems vs = .ok t → B t
  | [], _, t, h => by
    obtain ⟨_, -, h⟩ := bind_eq_ok_iff.mp h
    cases h
    exact hB.absent
  | [v], hv, t, h => shape_formation v (hv v List.mem_cons_self) h
  | k :: v :: rest, hv, t, h => by
    obtain ⟨⟨⟩, hchain, h⟩ := bind_eq_ok_iff.mp h
    have hkeys := chainFault_eq_ok hchain
    rw [List.dropLast_cons_of_ne_nil (List.cons_ne_nil _ _), List.all_cons, Bool.and_eq_true]
      at hkeys
    exact shapeChain_formation k (v :: rest) ⟨hkeys.1, hv k List.mem_cons_self⟩
      (fun w hw => hv w (List.mem_cons_of_mem _ hw)) hkeys.2 h
termination_by structural vs => vs

theorem shapeAll_formation : ∀ (vs : List Value), (∀ v ∈ vs, V v) → ∀ {ts : List Condition},
    shapeAll vs = .ok ts → ∀ t ∈ ts, B t
  | [], _, ts, h => by
    cases h
    exact List.forall_mem_nil _
  | v :: vs, hv, ts, h => by
    have hrest : ∀ {us}, shapeAll vs = .ok us → ∀ u ∈ us, B u :=
      fun hus => shapeAll_formation vs (fun w hw => hv w (List.mem_cons_of_mem _ hw)) hus
    rcases shapeAll_cons_eq_ok_cases h with ⟨-, h⟩ | ⟨-, u, us, hu, hus, rfl⟩
    · exact hrest h
    · exact List.forall_mem_cons.mpr
        ⟨shape_formation v (hv v List.mem_cons_self) hu, hrest hus⟩
termination_by structural vs => vs

theorem shapeEntries_formation : ∀ (es : List (Value × Value)),
    (∀ e ∈ es, e.1.isKey ∧ V e.1 ∧ V e.2) → ∀ {ts : List Condition},
      shapeEntries es = .ok ts → ∀ t ∈ ts, B t
  | [], _, ts, h => by
    cases h
    exact List.forall_mem_nil _
  | (k, v) :: rest, hes, ts, h => by
    obtain ⟨u, us, hu, hus, rfl⟩ := shapeEntries_cons_eq_ok_iff.mp h
    obtain ⟨hkey, hk, hv⟩ := hes (k, v) List.mem_cons_self
    exact List.forall_mem_cons.mpr ⟨shapeEntry_formation k v ⟨hkey, hk⟩ hv hu,
      shapeEntries_formation rest (fun e he => hes e (List.mem_cons_of_mem _ he)) hus⟩
termination_by structural es => es

theorem shapeEntry_formation (key : Value) : ∀ (v : Value), key.isKey ∧ V key → V v →
    ∀ {t : Condition}, shapeEntry key v = .ok t → B t
  | .list [], hkey, hv, t, h =>
    hB.listEntry key (fun ts hts => shapeAll_formation [] (hV.list hv) hts)
      (fun t ht => shapeItems_formation [] (hV.list hv) ht) h
  | .list [v], hkey, hv, t, h => by
    have houter := hB.listEntry (t := t) key
      (fun ts hts => shapeAll_formation [v] (hV.list hv) hts)
      (fun t ht => shapeItems_formation [v] (hV.list hv) ht)
    have hinner := shapeInner_formation v (hV.list hv v List.mem_cons_self)
    cases v
    case list items =>
      obtain ⟨hall, hitems⟩ := hinner items rfl
      exact hB.listEntry key hall hitems h
    all_goals exact houter h
  | .list (v :: w :: rest), hkey, hv, t, h => by
    have hmany := hB.listEntry (t := t) key
      (fun ts hts => shapeAll_formation (v :: w :: rest) (hV.list hv) hts)
      (fun t ht => shapeItems_formation (v :: w :: rest) (hV.list hv) ht)
    cases v <;> exact hmany h
  | .map entries, hkey, hv, t, h =>
    hB.mapEntry hkey hv (fun ts hts => shapeEntries_formation entries (hV.map hv) hts)
      (fun hfree ts hts => shapeOperators_formation key entries ⟨hfree, hkey⟩ (hV.map hv) hts) h
  | .node _ _, hkey, hv, _, h | .null, hkey, hv, _, h | .bool _, hkey, hv, _, h
  | .int _, hkey, hv, _, h | .double _, hkey, hv, _, h | .decimal _, hkey, hv, _, h
  | .text _, hkey, hv, _, h | .token _, hkey, hv, _, h | .operator _, hkey, hv, _, h
  | .date _, hkey, hv, _, h | .time _, hkey, hv, _, h | .moment _, hkey, hv, _, h
  | .guid _, hkey, hv, _, h | .object _, hkey, hv, _, h | .member .., hkey, hv, _, h =>
    hB.scalarEntryShape hV hkey hv h
termination_by structural v => v

/-- The same for the items of a list that stands in a list of its own. -/
theorem shapeInner_formation : ∀ v : Value, V v → ∀ items, v = .list items →
    (∀ ts, shapeAll items = .ok ts → ∀ t ∈ ts, B t) ∧ ∀ t, shapeItems items = .ok t → B t
  | .list items, hv, _, h => by
    cases h
    exact ⟨fun ts hts => shapeAll_formation items (hV.list hv) hts,
      fun t ht => shapeItems_formation items (hV.list hv) ht⟩
  | .map _, _, _, h | .node .., _, _, h | .null, _, _, h | .bool _, _, _, h | .int _, _, _, h
  | .double _, _, _, h | .decimal _, _, _, h | .text _, _, _, h | .token _, _, _, h
  | .operator _, _, _, h | .date _, _, _, h | .time _, _, _, h | .moment _, _, _, h
  | .guid _, _, _, h | .object _, _, _, h | .member .., _, _, h => by cases h
termination_by structural v => v

theorem shapeOperators_formation (key : Value) : ∀ (es : List (Value × Value)),
    key.IsUnreserved ∧ key.isKey ∧ V key → (∀ e ∈ es, e.1.isKey ∧ V e.1 ∧ V e.2) →
      ∀ {ts : List Condition}, shapeOperators key es = .ok ts → ∀ t ∈ ts, B t
  | [], _, _, ts, h => by
    cases h
    exact List.forall_mem_nil _
  | (op, operand) :: rest, hkey, hes, ts, h => by
    obtain ⟨-, -, hv⟩ := hes (op, operand) List.mem_cons_self
    obtain ⟨u, us, hus, rfl, hu⟩ := shapeOperators_cons_eq_ok_cases h
    refine List.forall_mem_cons.mpr ⟨?_, shapeOperators_formation key rest hkey
      (fun e he => hes e (List.mem_cons_of_mem _ he)) hus⟩
    rcases hu with ⟨-, quantifier, body, hop, hbody, rfl⟩ | ⟨-, hcomparison⟩
    · exact hB.quantified (isOf_quantified hop) hkey (shape_formation operand hv hbody)
    · exact hB.comparisonShape hkey hv hcomparison
termination_by structural es => es

theorem shapeChain_formation (key : Value) : ∀ (vs : List Value), key.isKey ∧ V key →
    (∀ v ∈ vs, V v) → vs.dropLast.all Value.isKey → ∀ {t : Condition},
      shapeChain key vs = .ok t → B t
  | [], _, _, _, t, h => by
    cases h
    exact hB.absent
  | [v], hkey, hvs, _, t, h => shapeEntry_formation key v hkey (hvs v List.mem_cons_self) h
  | k :: v :: rest, hkey, hvs, hkeys, t, h => by
    have hchain := hV.foldChain hvs hkeys
    rw [List.dropLast_cons_of_ne_nil (List.cons_ne_nil _ _), List.all_cons, Bool.and_eq_true]
      at hkeys
    have hvs' : ∀ w ∈ v :: rest, V w := fun w hw => hvs w (List.mem_cons_of_mem _ hw)
    have hrest : ∀ {u}, shapeChain k (v :: rest) = .ok u → B u := fun hu =>
      shapeChain_formation k (v :: rest) ⟨hkeys.1, hvs k List.mem_cons_self⟩ hvs' hkeys.2 hu
    have hinner := hV.foldChain hvs' hkeys.2
    unfold shapeChain at h
    split at h
    · exact hrest h
    · rename_i hlogical
      split at h
      · obtain ⟨op, u, hop, hu, rfl⟩ := withOperator_eq_ok_iff.mp h
        exact hB.unary (isOf_unary hop) (hrest hu)
      · rename_i hunary
        have hkey' : key.IsUnreserved ∧ key.isKey ∧ V key :=
          ⟨isUnreserved_of_not_isSome hlogical hunary, hkey⟩
        split at h
        · exact hB.equalShape hkey' hchain h
        · split at h
          · rcases rest with - | ⟨w, more⟩
            · obtain ⟨quantifier, body, hop, hbody, rfl⟩ := withOperator_eq_ok_iff.mp h
              exact hB.quantified (isOf_quantified hop) hkey'
                (shape_formation v (hvs' v List.mem_cons_self) hbody)
            · obtain ⟨quantifier, body, hop, hbody, rfl⟩ := withOperator_eq_ok_iff.mp h
              rw [List.dropLast_cons_of_ne_nil (List.cons_ne_nil _ _), List.all_cons,
                Bool.and_eq_true] at hkeys
              exact hB.quantified (isOf_quantified hop) hkey'
                (shapeChain_formation v (w :: more) ⟨hkeys.2.1, hvs' v List.mem_cons_self⟩
                  (fun x hx => hvs' x (List.mem_cons_of_mem _ hx)) hkeys.2.2 hbody)
          · exact hB.comparisonShape hkey' hinner h
termination_by structural vs => vs

end

end

/-- **What a filter is read as is well formed.** -/
theorem shape_isBuilt {V : Value → Prop} (hV : Hereditary V) (v : Value) (hv : V v) {t : Condition}
    (h : shape v = .ok t) : t.IsBuilt V :=
  shape_formation (formation_isBuilt V) hV v hv h

theorem conjunction_isBuilt {V : Value → Prop} {ts : List Condition}
    (h : Condition.AllBuilt V ts) : (conjunction ts).IsBuilt V :=
  (formation_isBuilt V).conjunction (Condition.allBuilt_iff.mp h)

end Filter

/-! ### Predicates that are read -/

theorem Operator.IsOf.isPlain {known : List (MarkedOperator Bool)} {op : Operator}
    (h : op.IsOf known) : op.IsPlain := by
  obtain ⟨m, -, rfl⟩ := h
  exact Value.isPlain_text m.key

section

variable {V : Value → Prop} (hplain : ∀ v, V v → v.IsPlain)

include hplain

set_option linter.unusedSectionVars false in
mutual

theorem Predicate.isPlain_of_isBuilt : ∀ p : Predicate, p.condition.IsBuilt V → p.IsPlain
  | .passthrough _ _, h => hplain _ h
  | .unary _ _ operand, h => ⟨h.1.isPlain, Predicate.plainOption_of_isBuilt operand h.2⟩
  | .logical _ _ children, h => ⟨h.1.isPlain, Predicate.plainAll_of_allBuilt children h.2.2⟩
  | .comparison _ _ _ _, h => ⟨h.1.isPlain, hplain _ h.2.2.2.1, hplain _ h.2.2.2.2⟩
  | .quantified _ _ _ body, h =>
    ⟨h.1.isPlain, hplain _ h.2.2.2.1, Predicate.plainOption_of_isBuilt body h.2.2.2.2⟩
  | .bare _, h => h

theorem Predicate.plainOption_of_isBuilt :
    ∀ p : Option Predicate, (Predicate.conditionOf p).IsBuilt V → Predicate.PlainOption p
  | none, _ => trivial
  | some p, h => Predicate.isPlain_of_isBuilt p h

theorem Predicate.plainAll_of_allBuilt :
    ∀ ps : List (Option Predicate), Condition.AllBuilt V (Predicate.conditions ps) →
      Predicate.PlainAll ps
  | [], _ => trivial
  | p :: ps, h => ⟨Predicate.plainOption_of_isBuilt p h.1, Predicate.plainAll_of_allBuilt ps h.2⟩

end

end

namespace Filter

/-- The labels of predicates lie in a range, and none of them occurs twice. -/
def FreshIn (lo hi : Nat) (ps : List (Option Predicate)) : Prop :=
  lo ≤ hi ∧ (Predicate.labelsAll ps).Nodup ∧
    ∀ id : Nat, id ∈ Predicate.labelsAll ps → lo ≤ id ∧ id < hi

theorem labelsAll_append (ps qs : List (Option Predicate)) :
    Predicate.labelsAll (ps ++ qs) = Predicate.labelsAll ps ++ Predicate.labelsAll qs := by
  induction ps with
  | nil => rfl
  | cons p ps ih => simp only [List.cons_append, Predicate.labelsAll, ih, List.append_assoc]

theorem labelsAll_sublist {ps qs : List (Option Predicate)} (h : qs.Sublist ps) :
    (Predicate.labelsAll qs).Sublist (Predicate.labelsAll ps) := by
  induction h with
  | slnil => exact List.Sublist.refl _
  | cons p _ ih => exact ih.trans (List.sublist_append_right _ _)
  | cons_cons p _ ih => exact (List.Sublist.refl _).append ih

/-- The range grows by one label, which goes to a new node above predicates with fresh labels. -/
theorem FreshIn.node {lo hi : Nat} {ps : List (Option Predicate)} (h : FreshIn lo hi ps) :
    lo ≤ hi + 1 ∧ (hi :: Predicate.labelsAll ps).Nodup ∧
      ∀ id : Nat, id ∈ hi :: Predicate.labelsAll ps → lo ≤ id ∧ id < hi + 1 := by
  obtain ⟨hle, hnodup, hrange⟩ := h
  refine ⟨by omega, List.nodup_cons.mpr ⟨fun hmem => ?_, hnodup⟩, fun id hid => ?_⟩
  · exact absurd (hrange hi hmem).2 (by omega)
  · rcases List.mem_cons.mp hid with rfl | hid
    · omega
    · have := hrange id hid
      omega

theorem freshIn_growth : Growth (fun _ => False) fun b b' => FreshIn b.next b'.next where
  nil := fun lo => ⟨Nat.le_refl _, List.nodup_nil, by simp [Predicate.labelsAll]⟩
  append := by
    rintro lo mid hi ps qs ⟨hle, hnodup, hrange⟩ ⟨hle', hnodup', hrange'⟩
    refine ⟨Nat.le_trans hle hle', ?_, ?_⟩
    · rw [labelsAll_append]
      refine List.nodup_append'.mpr ⟨hnodup, hnodup', fun id hid hid' => ?_⟩
      have h₁ := hrange id hid
      have h₂ := hrange' id hid'
      omega
    · intro id hid
      rw [labelsAll_append] at hid
      rcases List.mem_append.mp hid with hid | hid
      · have := hrange id hid
        omega
      · have := hrange' id hid
        omega
  sublist := fun ⟨hle, hnodup, hrange⟩ hsub =>
    ⟨hle, hnodup.sublist (labelsAll_sublist hsub),
      fun id hid => hrange id ((labelsAll_sublist hsub).subset hid)⟩
  absent := fun ⟨hle, _, _⟩ => ⟨hle, List.nodup_nil, by
    simp [Predicate.labelsAll, Predicate.labelsOf]⟩
  known := fun h => h.elim
  passthrough := fun {lo} _ => ⟨Nat.le_succ lo.next, by simp [Predicate.labelsAll, Predicate.labelsOf,
    Predicate.labels], by simp [Predicate.labelsAll, Predicate.labelsOf, Predicate.labels]⟩
  comparison := fun {lo} _ _ _ => ⟨Nat.le_succ lo.next, by simp [Predicate.labelsAll, Predicate.labelsOf,
    Predicate.labels], by simp [Predicate.labelsAll, Predicate.labelsOf, Predicate.labels]⟩
  unary := fun _ h => by simpa [FreshIn, Predicate.labelsAll, Predicate.labelsOf,
    Predicate.labels] using h.node
  logical := fun _ h => by simpa [FreshIn, Predicate.labelsAll, Predicate.labelsOf,
    Predicate.labels] using h.node
  quantified := fun _ _ h => by simpa [FreshIn, Predicate.labelsAll, Predicate.labelsOf,
    Predicate.labels] using h.node

mutual

theorem mentions_of_isPlain {known : Predicate → Prop} :
    ∀ v : Value, v.IsPlain → Mentions known v
  | .list items, h => mentionsItems_of_plain items h
  | .map entries, h => mentionsEntries_of_plain entries h
  | .node .., h => h.elim
  | .null, _ | .bool _, _ | .int _, _ | .double _, _ | .decimal _, _ | .text _, _ | .token _, _
  | .operator _, _ | .date _, _ | .time _, _ | .moment _, _ | .guid _, _ | .object _, _
  | .member .., _ => trivial

theorem mentionsItems_of_plain {known : Predicate → Prop} :
    ∀ vs : List Value, Value.PlainItems vs → MentionsItems known vs
  | [], _ => trivial
  | v :: vs, h => ⟨mentions_of_isPlain v h.1, mentionsItems_of_plain vs h.2⟩

theorem mentionsEntries_of_plain {known : Predicate → Prop} :
    ∀ es : List (Value × Value), Value.PlainEntries es → MentionsEntries known es
  | [], _ => trivial
  | (_, v) :: rest, h => ⟨mentions_of_isPlain v h.1.2.2, mentionsEntries_of_plain rest h.2⟩

end

/-- A predicate was built over values for which `V` holds: it is well formed, and its labels were
given out between the two states of the builder, each to one node. -/
structure IsRead (V : Value → Prop) (b b' : Builder) (p : Predicate) : Prop where
  isBuilt : p.condition.IsBuilt V
  isPlain : p.IsPlain
  nodup : p.labels.Nodup
  range : ∀ id ∈ p.labels, b.next ≤ id ∧ id < b'.next
  le : b.next ≤ b'.next

theorem FreshIn.isRead {V : Value → Prop} (hplain : ∀ v, V v → v.IsPlain) {b b' : Builder}
    {p : Predicate} (hbuilt : p.condition.IsBuilt V) (h : FreshIn b.next b'.next [some p]) :
    IsRead V b b' p := by
  obtain ⟨hle, hnodup, hrange⟩ := h
  have hlabels : Predicate.labelsAll [some p] = p.labels := List.append_nil _
  rw [hlabels] at hnodup hrange
  exact ⟨hbuilt, Predicate.isPlain_of_isBuilt hplain p hbuilt, hnodup, hrange, hle⟩

section

variable {V : Value → Prop} (hV : Hereditary V) (hplain : ∀ v, V v → v.IsPlain) {v : Value}
  {b b' : Builder} {p : Predicate}

include hplain

/-- What is read from a value without nodes, if anything is, has the shape of the value and consists
of new nodes. -/
theorem built_of_read {p : Option Predicate} (hv : V v) (h : outcome (read v) b = (.ok p, b')) :
    shape v = .ok (Predicate.conditionOf p) ∧ FreshIn b.next b'.next [p] := by
  have hagrees := agrees_read freshIn_growth v b (mentions_of_isPlain v (hplain v hv))
  rcases e : shape v with f | t
  · rw [e] at hagrees
    obtain ⟨b₁, hread⟩ := hagrees
    rw [h] at hread
    cases hread
  · rw [e] at hagrees
    obtain ⟨p', b₁, hread, rfl, hfresh⟩ := hagrees
    rw [h] at hread
    cases hread
    exact ⟨rfl, hfresh⟩

/-- A value without nodes that has a shape is read as a predicate of this shape, if there is any. -/
theorem built_of_shape (hv : V v) {t : Condition} (h : shape v = .ok t) (b : Builder) :
    ∃ p b', outcome (read v) b = (.ok p, b') ∧ Predicate.conditionOf p = t ∧
      FreshIn b.next b'.next [p] := by
  have hagrees := agrees_read freshIn_growth v b (mentions_of_isPlain v (hplain v hv))
  rw [h] at hagrees
  obtain ⟨p, b', hread, rfl, hfresh⟩ := hagrees
  exact ⟨p, b', hread, rfl, hfresh⟩

include hV in
/-- **A predicate that is read from a value without nodes** has the shape of the value, is well
formed and consists of new nodes. -/
theorem read_ok (hv : V v) (h : outcome (read v) b = (.ok (some p), b')) :
    shape v = .ok p.condition ∧ IsRead V b b' p := by
  obtain ⟨hshape, hfresh⟩ := built_of_read hplain hv h
  have hbuilt : p.condition.IsBuilt V := shape_isBuilt hV v hv hshape
  exact ⟨hshape, hfresh.isRead hplain hbuilt⟩

/-- A value without nodes that has the shape of a condition is read as a predicate. -/
theorem read_of_shape (hv : V v) {t : Condition} (h : shape v = .ok t) (ht : t ≠ .absent)
    (b : Builder) : ∃ p b', outcome (read v) b = (.ok (some p), b') ∧ p.condition = t := by
  obtain ⟨p, b', hread, rfl, -⟩ := built_of_shape hplain hv h b
  rcases p with - | p
  · exact (ht rfl).elim
  · exact ⟨p, b', hread, rfl⟩

end

end Filter

end RecordFilter
