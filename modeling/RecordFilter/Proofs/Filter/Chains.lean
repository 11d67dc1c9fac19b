import RecordFilter.Proofs.Filter.Spelling

/-!
# Chains

A chain such as `["lines", "any", "price", "gt", 5]` goes from path to path through quantifiers and ends
in a comparison. It is folded from its end into maps of one entry each, and read as quantifiers that are
nested in its order around the comparison. The main statement is `Filter.chain_is_nested`: the list, its
items one by one and the maps give the same nodes with the same labels.

Every level passes through the tests that maps of operators are read by. A path that is no operator and
a quantifier that is no key of a wrapper go through all of them, whatever the value at the end is.
-/

namespace RecordFilter

namespace Filter

/-- A link of a chain: a path and the quantifier that the rest of the chain is tested by. -/
structure Link where
  path : Text
  token : Value
  operator : MarkedOperator Bool
  unreserved : (Value.text path).IsUnreserved
  quantified : Operator.quantified? token = some operator

/-- The items of a chain that ends in a comparison of a path with a value. -/
def chainItems (path : Text) (op v : Value) : List Link → List Value
  | [] => [.text path, op, v]
  | l :: links => .text l.path :: l.token :: chainItems path op v links

/-- The maps that a chain stands for, each with one entry. -/
def chainMap (path : Text) (op v : Value) : List Link → Value
  | [] => .map [(.text path, .map [(op, v)])]
  | l :: links => .map [(.text l.path, .map [(l.token, chainMap path op v links)])]

/-- The quantifiers of a chain around a comparison, which gets the first label. -/
def chainPredicate (first : Label) (comparison : Predicate) : List Link → Predicate
  | [] => comparison
  | l :: links =>
    .quantified (first + links.length + 1) l.operator.toOperator (.text l.path)
      (some (chainPredicate first comparison links))

/-! ### The shape of chains -/

section

variable {path : Text} {op v : Value} {links : List Link}

theorem exists_chainItems (path : Text) (op v : Value) (links : List Link) :
    ∃ (key : Text) (token w : Value) (rest : List Value),
      chainItems path op v links = .text key :: token :: w :: rest := by
  rcases links with - | ⟨l, - | ⟨l', links⟩⟩
  · exact ⟨_, _, _, _, rfl⟩
  · exact ⟨_, _, _, _, rfl⟩
  · exact ⟨_, _, _, _, rfl⟩

theorem length_chainItems : (chainItems path op v links).length = 2 * links.length + 3 := by
  induction links with
  | nil => rfl
  | cons l links ih =>
    rw [chainItems, List.length_cons, List.length_cons, ih, List.length_cons]
    omega

theorem isKey_of_mem_dropLast (hop : op.isKey) :
    ∀ {links : List Link}, ∀ k ∈ (chainItems path op v links).dropLast, k.isKey
  | [], k, hk => by
    rcases List.mem_cons.mp hk with rfl | hk
    · rfl
    · exact List.mem_singleton.mp hk ▸ hop
  | l :: links, k, hk => by
    have hne : chainItems path op v links ≠ [] := by
      obtain ⟨_, _, _, _, h⟩ := exists_chainItems path op v links
      simp [h]
    rw [chainItems, List.dropLast_cons_of_ne_nil (List.cons_ne_nil _ _),
      List.dropLast_cons_of_ne_nil hne] at hk
    rcases List.mem_cons.mp hk with rfl | hk
    · rfl
    · rcases List.mem_cons.mp hk with rfl | hk
      · exact (Operator.isKey_of_named? (Operator.named?_of_find? (by decide) l.quantified)).1
      · exact isKey_of_mem_dropLast hop k hk

/-- No comparison is spelled like a quantifier. -/
theorem quantified?_of_comparison? {m : MarkedOperator Bool} (h : Operator.comparison? op = some m) :
    Operator.quantified? op = none := by
  have hdisjoint : ∀ e ∈ Registry.standard.spellings "comparison",
      (Registry.standard.spellings "quantified").find? e.1 = none := by
    decide +kernel
  obtain ⟨s, hs, hfind⟩ := Option.bind_eq_some_iff.mp h
  have hnone := hdisjoint _ (Spellings.mem_of_find? hfind)
  change (Registry.spellingOf? op).bind _ = none
  rw [hs]
  exact hnone

/-! ### Reading chains -/

variable {m : MarkedOperator Bool}

/-- What a chain is read as: its quantifiers around the comparison, with a label for each node. -/
def chainOutcome (path : Text) (m : MarkedOperator Bool) (v : Value) (links : List Link) (b : Builder) :
    Except Fault (Option Predicate) × Builder :=
  (.ok (some (chainPredicate b.next (.comparison b.next m.toOperator (.text path) v) links)),
    { b with next := b.next + links.length + 1 })

theorem sameKey_value_of_quantified? {token : Value} (h : Operator.quantified? token = some m) :
    ¬ Value.sameKey token (.text "value") := by
  rw [Operator.sameKey_value_of_named? (Operator.named?_of_find? (by decide) h)]
  exact Bool.false_ne_true

theorem sameKey_value_of_comparison? (h : Operator.comparison? op = some m) :
    ¬ Value.sameKey op (.text "value") := by
  rw [Operator.sameKey_value_of_named? (Operator.named?_of_find? (by decide) h)]
  exact Bool.false_ne_true

/-- A map of one operator under a path is read as its only entry. -/
theorem outcome_readArguments_operator {key token operand : Value} {p : Predicate} {b b' : Builder}
    (hkey : key.IsUnreserved) (hvalue : ¬ Value.sameKey token (.text "value"))
    (h : outcome (readOperator key (token, operand)) b = (.ok p, b')) :
    outcome (readArguments [.map [(key, .map [(token, operand)])]]) b = (.ok (some p), b') := by
  have hwrapper : ¬ isWrapper (.map [(token, operand)]) := by
    simp [isWrapper, Value.lookup?, hvalue]
  have hentries : outcome (readOperators key [(token, operand)]) b = (.ok [p], b') := by
    rw [readOperators_cons, outcome_bind_of_ok h]
    rfl
  rw [outcome_readArguments_entry, readEntry, if_neg (by simp [hkey.logical]),
    if_neg (by simp [hkey.unary]), if_neg hwrapper, outcome_bind_of_ok hentries]
  rfl

variable (hpath : (Value.text path).IsUnreserved) (hop : Operator.comparison? op = some m)

include hpath hop

/-- **The items of a chain are read from path to path.** The first item is the path that the others are
read under. -/
theorem outcome_readChain (v : Value) (b : Builder) :
    ∀ (links : List Link) (key : Value) (rest : List Value), chainItems path op v links = key :: rest →
      outcome (readChain key rest) b = chainOutcome path m v links b
  | [], key, rest, h => by
    cases h
    rw [readChain_path hpath (sameKey_value_of_comparison? hop), quantified?_of_comparison? hop,
      comparisonEntry, if_pos (Option.isSome_of_eq_some hop)]
    exact outcome_bind_of_ok (outcome_bind_of_ok (outcome_resolve hop b))
  | l :: links, key, rest, h => by
    cases h
    obtain ⟨next, token, w, more, hitems⟩ := exists_chainItems path op v links
    have hinner := outcome_readChain v b links _ _ hitems
    rw [hitems, readChain_path l.unreserved (sameKey_value_of_quantified? l.quantified),
      if_pos (Option.isSome_of_eq_some l.quantified), outcome_bind_of_ok (outcome_resolve l.quantified b)]
    dsimp only
    rw [outcome_bind_of_ok hinner]
    rfl

/-- **The maps that a chain stands for are read entry by entry.** -/
theorem outcome_readArguments_chainMap (v : Value) (b : Builder) (links : List Link) :
    outcome (readArguments [chainMap path op v links]) b = chainOutcome path m v links b := by
  induction links with
  | nil =>
    refine outcome_readArguments_operator hpath (sameKey_value_of_comparison? hop) ?_
    rw [outcome_readOperator_comparison (quantified?_of_comparison? hop) hop]
    rfl
  | cons l links ih =>
    refine outcome_readArguments_operator l.unreserved (sameKey_value_of_quantified? l.quantified) ?_
    rw [outcome_readOperator_quantified l.quantified]
    exact outcome_bind_of_ok ih

/-- The items of a chain pass the check of chains. -/
theorem outcome_readTuple (v : Value) (b : Builder) (links : List Link) :
    outcome (readTuple (chainItems path op v links)) b = chainOutcome path m v links b := by
  obtain ⟨key, token, w, rest, hitems⟩ := exists_chainItems path op v links
  have hop' : op.isKey := (Operator.isKey_of_named? (Operator.named?_of_find? (by decide) hop)).1
  have hkeys : (chainItems path op v links).dropLast.all Value.isKey :=
    List.all_eq_true.mpr (isKey_of_mem_dropLast hop')
  have hodd : ¬ ((chainItems path op v links).length < 3 ||
      (chainItems path op v links).length % 2 = 0) := by
    rw [length_chainItems]
    simp
  have hcheck : outcome (checkChain (chainItems path op v links)) b = (.ok (), b) := by
    rw [checkChain, if_neg hodd, if_pos hkeys]
    rfl
  rw [← outcome_readChain hpath hop v b links _ _ hitems]
  rw [hitems] at hcheck ⊢
  exact outcome_bind_of_ok hcheck

end

/-- A list with an even number of items is refused. -/
theorem outcome_checkChain_even {items : List Value} (h : items.length % 2 = 0) (b : Builder) :
    outcome (checkChain items) b =
      (.error (.construction (.wrongLength (Value.list items).display)), b) := by
  rw [checkChain, if_pos (by simp [h])]
  rfl

end Filter

end RecordFilter
