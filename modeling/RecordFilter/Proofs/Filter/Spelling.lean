import RecordFilter.Proofs.Filter.Joining
import RecordFilter.Proofs.Json.Merging
import RecordFilter.Proofs.Predicate.FirstUse

/-!
# Spellings of operators

An operator goes by its key and by its aliases, in any letter case, as a named constant, or as the
operator itself. `Filter.spelled` is a filter with every operator spelled by its key, so two filters
differ in nothing but the spelling of operators exactly if they are the same after that. Such filters are
read as one predicate, or are refused for one kind of reason (`Filter.spelling_does_not_matter`).

Reading tests a value against one kind of operators after the other, and whether it is the key of a
wrapper. The key of an operator passes the same tests as its other spellings (`Operator.find?_spelled`,
`Operator.sameKey_value_spelled`), so the filter and its respelling take the same branches, step by step.
What stands to the right of a comparison is data: there a key is kept as it is spelled
(`Filter.operand_keeps_its_spelling`).
-/

namespace RecordFilter

/-! ### Steps of building that end alike -/

/-- Whatever they start from, the steps leave the same state and end in the same result, or in faults of
one kind. -/
def Build.Alike {α : Type} (m m' : Build α) : Prop :=
  ∀ b, (outcome m b).2 = (outcome m' b).2 ∧
    EndAlike Fault.SameKind Eq (outcome m b).1 (outcome m' b).1

namespace Build.Alike

variable {α β : Type} {m m' : Build α} {f f' : α → Build β}

theorem refl (m : Build α) : Alike m m := fun _ =>
  ⟨rfl, EndAlike.of_eq (fun _ => rfl) rfl⟩

theorem of_eq (h : m = m') : Alike m m' :=
  h ▸ refl m

theorem bind (h : Alike m m') (hf : ∀ a, Alike (f a) (f' a)) : Alike (m >>= f) (m' >>= f') := by
  intro b
  obtain ⟨hstate, hend⟩ := h b
  rcases hm : outcome m b with ⟨fault | a, s⟩ <;> rcases hm' : outcome m' b with ⟨fault' | a', s'⟩
  all_goals
    rw [hm, hm'] at hstate hend
    dsimp only at hstate
    subst hstate
  · rw [outcome_bind_of_error hm, outcome_bind_of_error hm']
    cases hend with
    | error hkind => exact ⟨rfl, .error hkind⟩
  · cases hend
  · cases hend
  · cases hend with
    | ok heq =>
      subst heq
      rw [outcome_bind_of_ok hm, outcome_bind_of_ok hm']
      exact hf a s

theorem throw {e e' : Fault} (h : e.SameKind e') :
    Alike (throw e : Build α) (throw e') := fun _ => ⟨rfl, .error h⟩

theorem symm (h : Alike m m') : Alike m' m := fun b =>
  ⟨(h b).1.symm, (h b).2.symm (fun _ _ => Eq.symm) fun _ _ => Eq.symm⟩

theorem trans {m'' : Build α} (h : Alike m m') (h' : Alike m' m'') : Alike m m'' := fun b =>
  ⟨(h b).1.trans (h' b).1, (h b).2.comp (h' b).2 (fun _ _ _ => Eq.trans) fun _ _ _ => Eq.trans⟩

theorem fail (e e' : ConstructionError) : Alike (Build.fail e : Build α) (Build.fail e') :=
  throw rfl

end Build.Alike

/-! ### Tokens -/

namespace Operator

variable {kind : Text} {token : Value} {m : MarkedOperator Bool}

/-- The operator that a value names, of whatever kind it is. -/
def named? (token : Value) : Option (MarkedOperator Bool) :=
  Registry.standard.kinds.findSome? fun kind => Registry.standard.find? kind token

/-- The value, but an operator that it names is spelled by its key. -/
def spelled (token : Value) : Value :=
  match named? token with
  | some m => .text m.key
  | none => token

/-- No spelling is shared by two kinds, so the key of an operator names what its other spellings do. -/
theorem find?_key : ∀ kind ∈ Registry.standard.kinds, ∀ p ∈ Registry.standard.spellings kind,
    ∀ other ∈ Registry.standard.kinds,
      (Registry.standard.spellings other).find? (Text.lower p.2.key) =
        (Registry.standard.spellings other).find? p.1 := by
  decide +kernel

/-- A spelling belongs to one operator only, of whatever kind. -/
theorem eq_of_spelling : ∀ kind ∈ Registry.standard.kinds,
    ∀ p ∈ Registry.standard.spellings kind, ∀ other ∈ Registry.standard.kinds,
      ∀ q ∈ Registry.standard.spellings other, p.1 = q.1 → p.2 = q.2 := by
  decide +kernel

theorem exists_of_named? (h : named? token = some m) :
    ∃ kind ∈ Registry.standard.kinds, Registry.standard.find? kind token = some m :=
  List.exists_of_findSome?_eq_some h

theorem named?_of_find? (hkind : kind ∈ Registry.standard.kinds)
    (h : Registry.standard.find? kind token = some m) : named? token = some m := by
  rcases hnamed : named? token with - | m'
  · have hnone := List.findSome?_eq_none_iff.mp hnamed kind hkind
    rw [h] at hnone
    cases hnone
  · -- both are found by the text of the token
    obtain ⟨other, hother, hfind⟩ := exists_of_named? hnamed
    obtain ⟨s, hs, hspelling⟩ := Option.bind_eq_some_iff.mp h
    obtain ⟨s', hs', hspelling'⟩ := Option.bind_eq_some_iff.mp hfind
    cases hs.symm.trans hs'
    exact congrArg some (eq_of_spelling other hother _ (Spellings.mem_of_find? hspelling') kind
      hkind _ (Spellings.mem_of_find? hspelling) rfl)

/-- **The key names the same operator of each kind.** -/
theorem find?_spelled (hkind : kind ∈ Registry.standard.kinds) (token : Value) :
    Registry.standard.find? kind (spelled token) = Registry.standard.find? kind token := by
  unfold spelled
  rcases hnamed : named? token with - | m
  · rfl
  · obtain ⟨own, hown, hfind⟩ := exists_of_named? hnamed
    obtain ⟨s, hs, hspelling⟩ := Option.bind_eq_some_iff.mp hfind
    have hkey := find?_key own hown _ (Spellings.mem_of_find? hspelling) kind hkind
    rw [Registry.find?, Registry.find?, hs]
    exact hkey

@[simp] theorem logical?_spelled (token : Value) : logical? (spelled token) = logical? token :=
  find?_spelled (by decide) token

@[simp] theorem unary?_spelled (token : Value) : unary? (spelled token) = unary? token :=
  find?_spelled (by decide) token

@[simp] theorem comparison?_spelled (token : Value) :
    comparison? (spelled token) = comparison? token :=
  find?_spelled (by decide) token

@[simp] theorem quantified?_spelled (token : Value) :
    quantified? (spelled token) = quantified? token :=
  find?_spelled (by decide) token

theorem spelled_of_named? (h : named? token = some m) : spelled token = .text m.key := by
  rw [spelled, h]

/-- Two values are spelled alike exactly if they are the same or name one operator of one kind. -/
theorem spelled_eq_iff {token' : Value} : spelled token = spelled token' ↔ token = token' ∨
    ∃ kind ∈ Registry.standard.kinds, ∃ m, Registry.standard.find? kind token = some m ∧
      Registry.standard.find? kind token' = some m := by
  have hother : ∀ {a b : Value} {m : MarkedOperator Bool}, spelled a = spelled b →
      named? a = some m → ∃ kind ∈ Registry.standard.kinds,
        Registry.standard.find? kind a = some m ∧ Registry.standard.find? kind b = some m := by
    intro a b m h hnamed
    obtain ⟨kind, hkind, hfind⟩ := exists_of_named? hnamed
    refine ⟨kind, hkind, hfind, ?_⟩
    rw [← find?_spelled hkind, ← h, find?_spelled hkind, hfind]
  constructor
  · intro h
    rcases hnamed : named? token with - | m
    · rcases hnamed' : named? token' with - | m
      · rw [spelled, hnamed, spelled, hnamed'] at h
        exact .inl h
      · obtain ⟨kind, hkind, hfind, hfind'⟩ := hother h.symm hnamed'
        exact .inr ⟨kind, hkind, m, hfind', hfind⟩
    · obtain ⟨kind, hkind, hfind, hfind'⟩ := hother h hnamed
      exact .inr ⟨kind, hkind, m, hfind, hfind'⟩
  · rintro (rfl | ⟨kind, hkind, m, hfind, hfind'⟩)
    · rfl
    · rw [spelled_of_named? (named?_of_find? hkind hfind),
        spelled_of_named? (named?_of_find? hkind hfind')]

/-- A value that names an operator is a key of a map, and has a text. -/
theorem isKey_of_named? (h : named? token = some m) : token.isKey ∧ ∃ s, token.toText = .ok s := by
  obtain ⟨kind, -, hfind⟩ := exists_of_named? h
  obtain ⟨s, hs, -⟩ := Option.bind_eq_some_iff.mp hfind
  cases token
  case operator o =>
    obtain ⟨key, aliases, isFunction⟩ := o
    have hkey : key.asText? = some s := hs
    refine ⟨?_, s, ?_⟩
    · cases key
      case text => rfl
      case token => rfl
      all_goals cases hkey
    · rw [Value.toText]
      dsimp only
      rw [hkey]
  case text t => exact ⟨rfl, t, rfl⟩
  case token t => exact ⟨rfl, t.text, rfl⟩
  all_goals cases hs

@[simp] theorem isKey_spelled (token : Value) : (spelled token).isKey = token.isKey := by
  rcases hnamed : named? token with - | m
  · rw [spelled, hnamed]
  · rw [spelled_of_named? hnamed, (isKey_of_named? hnamed).1]
    rfl

/-- No operator is spelled like the key of a wrapper. -/
theorem sameKey_value_of_named? (h : named? token = some m) :
    Value.sameKey token (.text "value") = false := by
  by_contra hsame
  obtain ⟨kind, hkind, hfind⟩ := exists_of_named? h
  rw [Json.find?_of_sameKey (Bool.not_eq_false _ ▸ hsame)] at hfind
  have hnone : ∀ kind ∈ Registry.standard.kinds,
      Registry.standard.find? kind (.text "value") = none := by decide +kernel
  rw [hnone kind hkind] at hfind
  cases hfind

@[simp] theorem sameKey_value_spelled (token : Value) :
    Value.sameKey (spelled token) (.text "value") = Value.sameKey token (.text "value") := by
  rcases hnamed : named? token with - | m
  · rw [spelled, hnamed]
  · obtain ⟨kind, hkind, hfind⟩ := exists_of_named? hnamed
    have hagain : named? (spelled token) = some m :=
      named?_of_find? hkind ((find?_spelled hkind token).trans hfind)
    rw [sameKey_value_of_named? hnamed, sameKey_value_of_named? hagain]

end Operator

namespace Filter

/-! ### Filters with operators spelled by their keys -/

/-- The key of an entry, with a joining operator or a negation spelled by its key. -/
def spelledKey (key : Value) : Value :=
  if (Operator.logical? key).isSome || (Operator.unary? key).isSome then Operator.spelled key else key

mutual

/-- The filter with its operators spelled by their keys. Only what is read as an operator is respelled:
not the names of properties, and nothing in the operand of a comparison. -/
def spelled : Value → Value
  | .list items => .list (spelledItems items)
  | .map entries => .map (spelledEntries entries)
  | v => v
termination_by structural v => v

/-- The same of a list: of its only item, or of a chain. -/
def spelledItems : List Value → List Value
  | [v] => [spelled v]
  | [] => []
  | k :: rest => (spelledChain k rest).1 :: (spelledChain k rest).2

/-- The same of filters. -/
def spelledAll : List Value → List Value
  | [] => []
  | v :: vs => spelled v :: spelledAll vs

/-- The same of the entries of a map. -/
def spelledEntries : List (Value × Value) → List (Value × Value)
  | [] => []
  | (k, v) :: rest => (spelledKey k, spelledEntry k v) :: spelledEntries rest

/-- The same of what stands under a key: the filters of a list under a joining operator, and the filter
that a list is under a negation. -/
def spelledEntry (key : Value) : Value → Value
  | .list [.list items] =>
    if (Operator.logical? key).isSome then .list [.list (spelledAll items)]
    else if (Operator.unary? key).isSome then .list [.list (spelledItems items)]
    else .list [.list items]
  | .list items =>
    if (Operator.logical? key).isSome then .list (spelledAll items)
    else if (Operator.unary? key).isSome then .list (spelledItems items)
    else .list items
  | .map entries =>
    if (Operator.logical? key).isSome || (Operator.unary? key).isSome then
      .map (spelledEntries entries)
    else if isWrapper (.map entries) then .map entries
    else .map (spelledOperators entries)
  | v => v

/-- The same of the operators under a path. -/
def spelledOperators : List (Value × Value) → List (Value × Value)
  | [] => []
  | (op, operand) :: rest =>
    (Operator.spelled op, if (Operator.quantified? op).isSome then spelled operand else operand) ::
      spelledOperators rest

/-- The same of a chain, which begins with a key. -/
def spelledChain (key : Value) : List Value → Value × List Value
  | [] => (key, [])
  | [v] => (spelledKey key, [spelledEntry key v])
  | k :: v :: rest =>
    if (Operator.logical? key).isSome || (Operator.unary? key).isSome then
      (Operator.spelled key, (spelledChain k (v :: rest)).1 :: (spelledChain k (v :: rest)).2)
    else if Value.sameKey k (.text "value") then (key, k :: v :: rest)
    else if (Operator.quantified? k).isSome then
      match rest with
      | [] => (key, [Operator.spelled k, spelled v])
      | w :: more =>
        (key, Operator.spelled k :: (spelledChain v (w :: more)).1 :: (spelledChain v (w :: more)).2)
    else (key, Operator.spelled k :: v :: rest)

end

/-! ### Keys -/

section

variable {key k v : Value} {rest : List Value}

@[simp] theorem logical?_spelledKey (key : Value) :
    Operator.logical? (spelledKey key) = Operator.logical? key := by
  unfold spelledKey
  split <;> simp

@[simp] theorem unary?_spelledKey (key : Value) :
    Operator.unary? (spelledKey key) = Operator.unary? key := by
  unfold spelledKey
  split <;> simp

@[simp] theorem isKey_spelledKey (key : Value) : (spelledKey key).isKey = key.isKey := by
  unfold spelledKey
  split <;> simp

/-- What names an operator is resolved to it. -/
theorem resolve_of_find? {kind : Text} {token : Value} {m : MarkedOperator Bool}
    (h : Registry.standard.find? kind token = some m) : resolve kind token = pure m.toOperator :=
  funext fun b => outcome_resolve h b

theorem resolve_spelled {kind : Text} {token : Value} (hkind : kind ∈ Registry.standard.kinds)
    (h : (Registry.standard.find? kind token).isSome) :
    resolve kind (Operator.spelled token) = resolve kind token := by
  obtain ⟨m, hm⟩ := Option.isSome_iff_exists.mp h
  rw [resolve_of_find? hm, resolve_of_find? ((Operator.find?_spelled hkind token).trans hm)]

theorem resolve_logical_spelledKey (h : (Operator.logical? key).isSome) :
    resolve "logical" (spelledKey key) = resolve "logical" key := by
  rw [spelledKey, if_pos (by simp [h])]
  exact resolve_spelled (by decide) h

theorem resolve_unary_spelledKey (h : (Operator.unary? key).isSome) :
    resolve "unary" (spelledKey key) = resolve "unary" key := by
  rw [spelledKey, if_pos (by simp [h])]
  exact resolve_spelled (by decide) h

theorem spelledKey_of_unreserved (hlogical : ¬ (Operator.logical? key).isSome)
    (hunary : ¬ (Operator.unary? key).isSome) : spelledKey key = key :=
  if_neg (by simp [hlogical, hunary])

theorem isWrapper_spelledOperators (entries : List (Value × Value)) :
    isWrapper (.map (spelledOperators entries)) = isWrapper (.map entries) := by
  unfold isWrapper
  dsimp only
  induction entries with
  | nil => rfl
  | cons e rest ih =>
    obtain ⟨op, operand⟩ := e
    rw [spelledOperators, Value.lookup?, Value.lookup?, Operator.sameKey_value_spelled]
    split
    · rfl
    · exact ih

end

/-! ### Chains -/

theorem isKey_spelledFilter (v : Value) : (spelled v).isKey = v.isKey := by
  cases v <;> rfl

theorem isKey_spelledEntry (key v : Value) : (spelledEntry key v).isKey = v.isKey := by
  unfold spelledEntry
  repeat' split
  all_goals rfl

/-- The items of a chain can be keys whichever way its operators are spelled. -/
theorem map_isKey_spelledChain : ∀ (key : Value) (vs : List Value),
    ((spelledChain key vs).1 :: (spelledChain key vs).2).map Value.isKey =
      (key :: vs).map Value.isKey
  | key, [] => rfl
  | key, [v] => by
    rw [spelledChain, List.map_cons, List.map_cons, isKey_spelledKey, isKey_spelledEntry]
    rfl
  | key, k :: v :: rest => by
    have hrest := map_isKey_spelledChain k (v :: rest)
    have hmore : ∀ w more, rest = w :: more →
        ((spelledChain v (w :: more)).1 :: (spelledChain v (w :: more)).2).map Value.isKey =
          (v :: w :: more).map Value.isKey := by
      rintro w more rfl
      exact map_isKey_spelledChain v (w :: more)
    unfold spelledChain
    simp only [List.map_cons] at hrest hmore ⊢
    split
    · rw [Operator.isKey_spelled, List.map_cons, hrest]
    · split
      · rfl
      · split
        · split
          · rw [List.map_cons, List.map_cons, Operator.isKey_spelled, isKey_spelledFilter]
          · rw [List.map_cons, List.map_cons, hmore _ _ rfl, Operator.isKey_spelled, List.map_cons]
        · rw [List.map_cons, List.map_cons, Operator.isKey_spelled]

theorem map_isKey_spelledItems (items : List Value) :
    (spelledItems items).map Value.isKey = items.map Value.isKey := by
  rcases items with - | ⟨k, - | ⟨v, rest⟩⟩
  · rfl
  · rw [spelledItems, List.map_cons, List.map_cons, isKey_spelledFilter]
  · exact map_isKey_spelledChain k (v :: rest)

/-- After the key of a chain, something follows whichever way its operators are spelled. -/
theorem exists_spelledChain (k v : Value) (rest : List Value) :
    ∃ v' rest', (spelledChain k (v :: rest)).2 = v' :: rest' := by
  have hlength := congrArg List.length (map_isKey_spelledChain k (v :: rest))
  rcases h : (spelledChain k (v :: rest)).2 with - | ⟨v', rest'⟩
  · rw [h] at hlength
    simp at hlength
  · exact ⟨v', rest', rfl⟩

theorem alike_checkChain {items items' : List Value}
    (h : items.map Value.isKey = items'.map Value.isKey) :
    Build.Alike (checkChain items) (checkChain items') := by
  have hlength : items.length = items'.length := by simpa using congrArg List.length h
  have hall : items.dropLast.all Value.isKey = items'.dropLast.all Value.isKey := by
    have hlast : items.dropLast.map Value.isKey = items'.dropLast.map Value.isKey := by
      rw [List.map_dropLast, List.map_dropLast, h]
    have hid : ∀ l : List Value, l.all Value.isKey = (l.map Value.isKey).all id := by simp
    rw [hid, hid, hlast]
  unfold checkChain
  rw [hlength, hall]
  split
  · exact .fail _ _
  · exact .refl _

/-! ### Entries -/

/-- An operator leaves no trace when it is quoted. -/
theorem textOf_of_named? {op : Value} {m : MarkedOperator Bool} (h : Operator.named? op = some m) :
    ∃ s, Build.textOf op = pure s := by
  obtain ⟨kind, -, hfind⟩ := Operator.exists_of_named? h
  obtain ⟨-, s, hs⟩ := Operator.isKey_of_named? h
  refine ⟨s, ?_⟩
  unfold Build.textOf
  rw [hs]
  cases op
  case node => cases hfind
  all_goals rfl

theorem alike_comparisonEntry (key op operand : Value) :
    Build.Alike (comparisonEntry key (Operator.spelled op) operand) (comparisonEntry key op operand) := by
  unfold comparisonEntry
  rw [Operator.comparison?_spelled]
  split
  · rename_i h
    exact .of_eq (by rw [resolve_spelled (by decide) h])
  · split
    · exact .refl _
    · -- the message tells the key of the entry as it is spelled
      unfold unknownEntry
      refine .bind (.refl _) fun phrase => ?_
      rcases hnamed : Operator.named? op with - | m
      · rw [Operator.spelled, hnamed]
        exact .refl _
      · obtain ⟨s, hs⟩ := textOf_of_named? hnamed
        have hkey : Build.textOf (.text m.key) = pure m.key := rfl
        rw [Operator.spelled_of_named? hnamed, hs, hkey, pure_bind, pure_bind]
        exact .bind (.refl _) fun _ => .fail _ _

theorem alike_readScalarEntry (key v : Value) :
    Build.Alike (readScalarEntry (spelledKey key) v) (readScalarEntry key v) := by
  unfold readScalarEntry
  rw [logical?_spelledKey, unary?_spelledKey]
  split
  · rename_i h
    rw [resolve_logical_spelledKey h]
    exact .refl _
  · rename_i hlogical
    split
    · rename_i h
      rw [resolve_unary_spelledKey h]
      exact .refl _
    · rename_i hunary
      rw [spelledKey_of_unreserved hlogical hunary]
      exact .refl _

theorem eq_null_of_spelled {v : Value} (h : spelled v = .null) : v = .null := by
  cases v
  case null => rfl
  all_goals cases h

theorem length_spelledAll : ∀ vs : List Value, (spelledAll vs).length = vs.length
  | [] => rfl
  | _ :: vs => congrArg (· + 1) (length_spelledAll vs)

/-- The list holds the filters that stand under a joining operator or a negation: they are its items, or
the items of the list that is its only item. -/
inductive Holds : Value → List Value → Prop
  | items {items : List Value} (h : ∀ inner, items ≠ [.list inner]) : Holds (.list items) items
  | inner {items : List Value} : Holds (.list [.list items]) items

namespace Holds

variable {w : Value} {items : List Value} {key : Value}

theorem readEntry_logical (h : Holds w items) (hkey : (Operator.logical? key).isSome) :
    readEntry key w = (do
      let op ← resolve "logical" key
      join op (← readAll items)) := by
  cases h with
  | items h => rw [readEntry, if_pos hkey]; exact h
  | inner => rw [readEntry, if_pos hkey]

theorem readEntry_unary (h : Holds w items) (hlogical : ¬ (Operator.logical? key).isSome)
    (hkey : (Operator.unary? key).isSome) :
    readEntry key w = (do
      let op ← resolve "unary" key
      return some (← negate op (← readItems items))) := by
  cases h with
  | items h => rw [readEntry, if_neg hlogical, if_pos hkey]; exact h
  | inner => rw [readEntry, if_neg hlogical, if_pos hkey]

theorem spelledEntry_of_unreserved (h : Holds w items) (hlogical : ¬ (Operator.logical? key).isSome)
    (hunary : ¬ (Operator.unary? key).isSome) : spelledEntry key w = w := by
  cases h with
  | items h => rw [spelledEntry, if_neg hlogical, if_neg hunary]; exact h
  | inner => rw [spelledEntry, if_neg hlogical, if_neg hunary]

/-- Respelling turns nothing but a list into a list. -/
theorem list_of_spelled {v : Value} {inner : List Value} (h : spelled v = .list inner) :
    ∃ items, v = .list items := by
  cases v
  case list items => exact ⟨items, rfl⟩
  all_goals cases h

/-- Respelling puts no items into a list of their own. -/
theorem not_inner_of_spelled {items' : List Value} (h : ∀ inner, items ≠ [.list inner])
    (hsingle : ∀ v, items = [v] → items' = [spelled v]) (hlength : items'.length = items.length) :
    ∀ inner, items' ≠ [.list inner] := by
  intro inner hinner
  rw [hinner] at hlength
  obtain ⟨v, rfl⟩ := List.length_eq_one_iff.mp hlength.symm
  obtain ⟨more, rfl⟩ := list_of_spelled (List.head_eq_of_cons_eq ((hsingle v rfl).symm.trans hinner))
  exact h more rfl

theorem spelledAll (h : Holds w items) (hkey : (Operator.logical? key).isSome) :
    Holds (spelledEntry key w) (spelledAll items) := by
  cases h with
  | items h =>
    rw [spelledEntry, if_pos hkey]
    · exact .items (not_inner_of_spelled h (by rintro v rfl; rfl) (length_spelledAll items))
    · exact h
  | inner =>
    rw [spelledEntry, if_pos hkey]
    exact .inner

theorem spelledItems (h : Holds w items) (hlogical : ¬ (Operator.logical? key).isSome)
    (hkey : (Operator.unary? key).isSome) : Holds (spelledEntry key w) (spelledItems items) := by
  cases h with
  | items h =>
    have hlength : (Filter.spelledItems items).length = items.length := by
      simpa using congrArg List.length (map_isKey_spelledItems items)
    rw [spelledEntry, if_neg hlogical, if_pos hkey]
    · exact .items (not_inner_of_spelled h (by rintro v rfl; rfl) hlength)
    · exact h
  | inner =>
    rw [spelledEntry, if_neg hlogical, if_pos hkey]
    exact .inner

end Holds

theorem alike_readEntry_list {w : Value} {items : List Value} (key : Value) (h : Holds w items)
    (hall : Build.Alike (readAll (spelledAll items)) (readAll items))
    (hitems : Build.Alike (readItems (spelledItems items)) (readItems items)) :
    Build.Alike (readEntry (spelledKey key) (spelledEntry key w)) (readEntry key w) := by
  by_cases hlogical : (Operator.logical? key).isSome
  · rw [h.readEntry_logical hlogical, (h.spelledAll hlogical).readEntry_logical (by simpa using hlogical),
      resolve_logical_spelledKey hlogical]
    exact .bind (.refl _) fun op => hall.bind fun _ => .refl _
  · by_cases hunary : (Operator.unary? key).isSome
    · rw [h.readEntry_unary hlogical hunary, (h.spelledItems hlogical hunary).readEntry_unary
        (by simpa using hlogical) (by simpa using hunary), resolve_unary_spelledKey hunary]
      exact .bind (.refl _) fun op => hitems.bind fun _ => .refl _
    · rw [spelledKey_of_unreserved hlogical hunary, h.spelledEntry_of_unreserved hlogical hunary]
      exact .refl _

theorem alike_readEntry_map (key : Value) {entries : List (Value × Value)}
    (hentries : Build.Alike (readEntries (spelledEntries entries)) (readEntries entries))
    (hoperators : Build.Alike (readOperators key (spelledOperators entries))
      (readOperators key entries)) :
    Build.Alike (readEntry (spelledKey key) (spelledEntry key (.map entries)))
      (readEntry key (.map entries)) := by
  by_cases hlogical : (Operator.logical? key).isSome
  · rw [spelledEntry, if_pos (by simp [hlogical]), readEntry, readEntry, if_pos (by simpa using hlogical),
      if_pos hlogical, resolve_logical_spelledKey hlogical]
    exact .bind (.refl _) fun op => hentries.bind fun _ => .refl _
  · by_cases hunary : (Operator.unary? key).isSome
    · rw [spelledEntry, if_pos (by simp [hunary]), readEntry, readEntry, if_neg (by simpa using hlogical),
        if_pos (by simpa using hunary), if_neg hlogical, if_pos hunary, resolve_unary_spelledKey hunary]
      exact .bind (.refl _) fun op => hentries.bind fun _ => .refl _
    · rw [spelledKey_of_unreserved hlogical hunary, spelledEntry, if_neg (by simp [hlogical, hunary])]
      split
      · exact .refl _
      · rename_i hwrapper
        rw [readEntry, readEntry, if_neg hlogical, if_neg hunary, if_neg hlogical, if_neg hunary,
          isWrapper_spelledOperators, if_neg hwrapper, if_neg hwrapper]
        exact hoperators.bind fun _ => .refl _

/-! ### What a chain is read as -/

section

variable {key k v w : Value} {rest more : List Value}

theorem readChain_logical (hkey : (Operator.logical? key).isSome) :
    readChain key (k :: v :: rest) = readChain k (v :: rest) := by
  rw [readChain.eq_def]
  exact if_pos hkey

theorem readChain_unary (hlogical : ¬ (Operator.logical? key).isSome)
    (hkey : (Operator.unary? key).isSome) :
    readChain key (k :: v :: rest) = (do
      let op ← resolve "unary" key
      return some (← negate op (← readChain k (v :: rest)))) := by
  rw [readChain.eq_def]
  dsimp only
  rw [if_neg hlogical, if_pos hkey]

theorem readChain_path (h : key.IsUnreserved) (hvalue : ¬ Value.sameKey k (.text "value")) :
    readChain key (k :: v :: rest) =
      if (Operator.quantified? k).isSome then do
        let quantifier ← resolve "quantified" k
        match rest with
        | [] => return some (← quantify quantifier key (← read v))
        | w :: more => return some (← quantify quantifier key (← readChain v (w :: more)))
      else do return some (← comparisonEntry key k (foldChain (v :: rest))) := by
  rw [readChain.eq_def]
  dsimp only
  rw [if_neg (by simp [h.logical]), if_neg (by simp [h.unary])]
  exact if_neg hvalue

theorem spelledChain_of_reserved (hkey : (Operator.logical? key).isSome || (Operator.unary? key).isSome) :
    spelledChain key (k :: v :: rest) =
      (Operator.spelled key, (spelledChain k (v :: rest)).1 :: (spelledChain k (v :: rest)).2) := by
  rw [spelledChain.eq_def]
  exact if_pos hkey

theorem spelledChain_path (h : key.IsUnreserved) :
    spelledChain key (k :: v :: rest) =
      if Value.sameKey k (.text "value") then (key, k :: v :: rest)
      else if (Operator.quantified? k).isSome then
        match rest with
        | [] => (key, [Operator.spelled k, spelled v])
        | w :: more =>
          (key, Operator.spelled k :: (spelledChain v (w :: more)).1 :: (spelledChain v (w :: more)).2)
      else (key, Operator.spelled k :: v :: rest) := by
  rw [spelledChain.eq_def]
  exact if_neg (by simp [h.logical, h.unary])

end

/-- The chain is read alike whichever way its operators are spelled. -/
def ChainAlike (key : Value) (items : List Value) : Prop :=
  Build.Alike (readChain (spelledChain key items).1 (spelledChain key items).2) (readChain key items)

theorem alike_readChain_reserved {key k v : Value} {rest : List Value}
    (hkey : (Operator.logical? key).isSome || (Operator.unary? key).isSome)
    (hrest : ChainAlike k (v :: rest)) :
    ChainAlike key (k :: v :: rest) := by
  obtain ⟨v', rest', h⟩ := exists_spelledChain k v rest
  unfold ChainAlike at hrest ⊢
  rw [spelledChain_of_reserved hkey]
  dsimp only
  rw [h] at hrest ⊢
  by_cases hlogical : (Operator.logical? key).isSome
  · rw [readChain_logical hlogical, readChain_logical (by simpa using hlogical)]
    exact hrest
  · have hunary : (Operator.unary? key).isSome := by simpa [hlogical] using hkey
    rw [readChain_unary hlogical hunary, readChain_unary (by simpa using hlogical) (by simpa using hunary),
      resolve_spelled (by decide) hunary]
    exact .bind (.refl _) fun op => hrest.bind fun _ => .refl _

/-- A chain that goes on after a path, given what its end is read as if the path is quantified. -/
theorem alike_readChain_path {key k v : Value} {rest : List Value} (hkey : key.IsUnreserved)
    (hlast : Build.Alike (read (spelled v)) (read v))
    (hbody : ∀ w more, rest = w :: more → ChainAlike v (w :: more)) :
    ChainAlike key (k :: v :: rest) := by
  unfold ChainAlike at hbody ⊢
  rw [spelledChain_path hkey]
  by_cases hvalue : Value.sameKey k (.text "value")
  · -- the rest of the chain is a wrapper, and is kept
    rw [if_pos hvalue]
    exact .refl _
  have hspelled : ¬ Value.sameKey (Operator.spelled k) (.text "value") := by simpa using hvalue
  rw [if_neg hvalue, readChain_path hkey hvalue]
  split
  · rename_i hquantified
    rcases rest with - | ⟨w, more⟩
    · rw [readChain_path hkey hspelled, Operator.quantified?_spelled, if_pos hquantified,
        resolve_spelled (by decide) hquantified]
      exact .bind (.refl _) fun quantifier => hlast.bind fun _ => .refl _
    · have hmore := hbody w more rfl
      obtain ⟨w', more', h⟩ := exists_spelledChain v w more
      dsimp only
      rw [h] at hmore ⊢
      rw [readChain_path hkey hspelled, Operator.quantified?_spelled, if_pos hquantified,
        resolve_spelled (by decide) hquantified]
      exact .bind (.refl _) fun quantifier => hmore.bind fun _ => .refl _
  · -- the rest of the chain is an operand, and is kept
    rename_i hquantified
    rw [readChain_path hkey hspelled, Operator.quantified?_spelled, if_neg hquantified]
    exact (alike_comparisonEntry _ _ _).bind fun _ => .refl _

theorem alike_readChain_cons {key k v : Value} {rest : List Value}
    (hrest : ChainAlike k (v :: rest))
    (hlast : Build.Alike (read (spelled v)) (read v))
    (hbody : ∀ w more, rest = w :: more → ChainAlike v (w :: more)) :
    ChainAlike key (k :: v :: rest) := by
  by_cases hkey : (Operator.logical? key).isSome || (Operator.unary? key).isSome
  · exact alike_readChain_reserved hkey hrest
  · rw [Bool.or_eq_true, not_or] at hkey
    exact alike_readChain_path (isUnreserved_of_not_isSome hkey.1 hkey.2) hlast hbody

/-! ### Filters -/

mutual

/-- **Spelling the operators of a filter by their keys changes nothing that it is read as.** -/
theorem alike_read : ∀ v : Value, Build.Alike (read (spelled v)) (read v)
  | .list items => alike_readItems items
  | .map entries => (alike_readEntries entries).bind fun _ => .refl _
  | .node .. | .null | .bool _ | .int _ | .double _ | .decimal _ | .text _ | .token _ | .operator _
  | .date _ | .time _ | .moment _ | .guid _ | .object _ | .member .. => .refl _
termination_by structural v => v

theorem alike_readItems : ∀ items : List Value,
    Build.Alike (readItems (spelledItems items)) (readItems items)
  | [] => .refl _
  | [v] => alike_read v
  | k :: v :: rest => by
    have hcheck := alike_checkChain (map_isKey_spelledItems (k :: v :: rest))
    have hchain := alike_readChain k (v :: rest)
    unfold ChainAlike at hchain
    obtain ⟨v', rest', h⟩ := exists_spelledChain k v rest
    have hitems : spelledItems (k :: v :: rest) = (spelledChain k (v :: rest)).1 :: v' :: rest' :=
      h ▸ rfl
    rw [h] at hchain
    rw [hitems] at hcheck ⊢
    exact hcheck.bind fun _ => hchain
termination_by structural v => v

theorem alike_readAll : ∀ items : List Value,
    Build.Alike (readAll (spelledAll items)) (readAll items)
  | [] => .refl _
  | v :: vs => by
    have hrest := alike_readAll vs
    have hcons := (alike_read v).bind fun p => hrest.bind fun ps => .refl (pure (p :: ps))
    by_cases hnull : v = .null
    · subst hnull
      exact hrest
    · rw [spelledAll, readAll_cons hnull, readAll_cons fun h => hnull (eq_null_of_spelled h)]
      exact hcons
termination_by structural v => v

theorem alike_readEntries : ∀ entries : List (Value × Value),
    Build.Alike (readEntries (spelledEntries entries)) (readEntries entries)
  | [] => .refl _
  | (k, v) :: rest =>
    (alike_readEntry k v).bind fun _ => (alike_readEntries rest).bind fun _ => .refl _
termination_by structural v => v

theorem alike_readEntry (key : Value) : ∀ v : Value,
    Build.Alike (readEntry (spelledKey key) (spelledEntry key v)) (readEntry key v)
  | .list [] =>
    alike_readEntry_list key (.items (by simp)) (alike_readAll []) (alike_readItems [])
  | .list [v] => by
    have hall := alike_readAll [v]
    have hitems := alike_readItems [v]
    have hinner := alike_inner v
    cases v
    case list items =>
      obtain ⟨hall, hitems⟩ := hinner items rfl
      exact alike_readEntry_list key .inner hall hitems
    all_goals exact alike_readEntry_list key (.items (by simp)) hall hitems
  | .list (v :: w :: rest) =>
    alike_readEntry_list key (.items (by simp)) (alike_readAll (v :: w :: rest))
      (alike_readItems (v :: w :: rest))
  | .map entries =>
    alike_readEntry_map key (alike_readEntries entries) (alike_readOperators key entries)
  | .node .. | .null | .bool _ | .int _ | .double _ | .decimal _ | .text _ | .token _ | .operator _
  | .date _ | .time _ | .moment _ | .guid _ | .object _ | .member .. => alike_readScalarEntry key _
termination_by structural v => v

/-- What the items of a list are read as when the list stands in a list of its own. -/
theorem alike_inner : ∀ v : Value, ∀ items, v = .list items →
    Build.Alike (readAll (spelledAll items)) (readAll items) ∧
      Build.Alike (readItems (spelledItems items)) (readItems items)
  | .list items, _, h => by
    cases h
    exact ⟨alike_readAll items, alike_readItems items⟩
  | .map _, _, h | .node .., _, h | .null, _, h | .bool _, _, h | .int _, _, h | .double _, _, h
  | .decimal _, _, h | .text _, _, h | .token _, _, h | .operator _, _, h | .date _, _, h
  | .time _, _, h | .moment _, _, h | .guid _, _, h | .object _, _, h | .member .., _, h => by cases h
termination_by structural v => v

theorem alike_readOperators (key : Value) : ∀ entries : List (Value × Value),
    Build.Alike (readOperators key (spelledOperators entries)) (readOperators key entries)
  | [] => .refl _
  | (op, operand) :: rest => by
    have hrest := alike_readOperators key rest
    have hread := alike_read operand
    unfold spelledOperators readOperators
    dsimp only
    rw [Operator.quantified?_spelled]
    split
    · rename_i h
      rw [resolve_spelled (by decide) h]
      exact .bind (.refl _) fun quantifier => hread.bind fun _ => .bind (.refl _) fun _ =>
        hrest.bind fun _ => .refl _
    · exact (alike_comparisonEntry key op operand).bind fun _ => hrest.bind fun _ => .refl _
termination_by structural v => v

theorem alike_readChain (key : Value) : ∀ items : List Value, ChainAlike key items
  | [] => .refl _
  | [v] => alike_readEntry key v
  | [k, v] => alike_readChain_cons (alike_readChain k [v]) (alike_read v) (by simp)
  | k :: v :: w :: more =>
    alike_readChain_cons (alike_readChain k (v :: w :: more)) (alike_read v)
      fun _ _ h => by
        cases h
        exact alike_readChain v (w :: more)
termination_by structural v => v

end

theorem alike_of_spelled_eq {f f' : Value} (h : spelled f = spelled f') :
    Build.Alike (read f) (read f') :=
  (alike_read f).symm.trans (h ▸ alike_read f')

/-- What a filter is used for sees no more of it than the predicate that it is read as. -/
theorem endAlike_use_of_alike {α : Type} {f f' : Value} (h : Build.Alike (read f) (read f'))
    (source : ContextSource) (step : Node → Check α) (b : Builder) (notes : Notes) :
    EndAlike Fault.SameKind Eq (use source step f b notes) (use source step f' b notes) := by
  refine (h b).2.bind ?_
  rintro p _ rfl
  exact .of_eq (fun _ => rfl) rfl

/-- **The spelling of operators does not matter.** Filters that differ in how their operators are spelled
are read as one predicate or refused for one kind of reason, and whatever is done with them comes to the
same. -/
theorem spelling_does_not_matter {f f' : Value} (h : spelled f = spelled f') :
    Build.Alike (readArguments [f]) (readArguments [f']) ∧
      ∀ {α : Type} (source : ContextSource) (step : Node → Check α) (b : Builder) (notes : Notes),
        EndAlike Fault.SameKind Eq (use source step f b notes) (use source step f' b notes) :=
  ⟨alike_of_spelled_eq h, endAlike_use_of_alike (alike_of_spelled_eq h)⟩

/-- A chain and a map under a joining operator, each with other spellings. -/
theorem spelling_does_not_matter_of_chain :
    let f : Value := .map [(.text "or", .list [
      .list [.text "lines", .text "any", .text "price", .text "gt", .int 5],
      .map [(.text "price", .map [(.text "eq", .int 1)])]])]
    let f' : Value := .map [(.text "||", .list [
      .list [.text "lines", .text "SOME", .text "price", .text ">", .int 5],
      .map [(.text "price", .map [(.token .equals, .int 1)])]])]
    spelled f = spelled f' ∧ Build.Alike (readArguments [f]) (readArguments [f']) := by
  intro f f'
  have h : spelled f = spelled f' := by rfl
  exact ⟨h, (spelling_does_not_matter h).1⟩

/-- **What follows a comparison is no operator.** In a chain that goes on after a comparison the rest is
kept as the operand, with the spelling it has. -/
theorem operand_keeps_its_spelling :
    let a : Value := .text "a"
    let value : Value := .text "value"
    let eq : Operator := ⟨.text "eq", ["==", "=", "equals"], false⟩
    let built (token : Value) : Predicate :=
      .comparison 0 eq a (.map [(value, .map [(token, .int 5)])])
    Operator.comparison? (.text "==") = Operator.comparison? (.text "eq") ∧
      a.IsUnreserved ∧ value.IsUnreserved ∧
      (outcome (readArguments [.list [a, .text "eq", value, .text "eq", .int 5]]) {}).1 =
        .ok (some (built (.text "eq"))) ∧
      (outcome (readArguments [.list [a, .text "eq", value, .text "==", .int 5]]) {}).1 =
        .ok (some (built (.text "=="))) ∧
      built (.text "eq") ≠ built (.text "==") := by
  refine ⟨by rfl, ⟨by rfl, by rfl⟩, ⟨by rfl, by rfl⟩, by rfl, by rfl, fun h => ?_⟩
  cases h

end Filter

end RecordFilter
