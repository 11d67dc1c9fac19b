import RecordFilter.Predicate.Canonical
import RecordFilter.Proofs.DataType.Reading
import RecordFilter.Proofs.Operand.Plain

/-!
# Operands that are read again

Canonical forms hold operands that were read before: the text of a path, and maps that spell out a
property or a literal with its type. A text without quotes, parentheses and marks stands for itself
(`Operand.ofText?_of_isUnmarked`), so the text of a path is read as the path that it came from
(`Operand.read?_of_path`). What is spelled out is read as it is, whatever is on the left
(`Predicate.rightOperand_property`, `Predicate.rightOperand_literal`).
-/

namespace RecordFilter

/-- The text holds no quotes, parentheses and marks of groups or quoted parts. -/
def Text.IsUnmarked (s : Text) : Prop :=
  ∀ c ∈ s.points, Operand.isQuote c = false ∧ c ≠ '(' ∧ c ≠ ')' ∧ c ≠ Operand.groupMark ∧
    c ≠ Operand.quoteMark

namespace Operand

/-! ### Texts that stand for themselves -/

theorem piecesFrom_of_no_quote {cs : List CodePoint} (h : ∀ c ∈ cs, isQuote c = false) :
    piecesFrom none cs = cs.map .plain := by
  induction cs with
  | nil => rfl
  | cons c cs ih =>
    rw [piecesFrom, if_neg (by simp [h c]), ih fun d hd => h d (List.mem_cons_of_mem _ hd),
      List.map_cons]

theorem maskFrom_plain (n : Nat) (cs : List CodePoint) : maskFrom n (cs.map .plain) = cs := by
  induction cs with
  | nil => rfl
  | cons c cs ih => rw [List.map_cons, maskFrom, ih]

theorem foldl_step_of_no_parenthesis {cs : List CodePoint} (h : ∀ c ∈ cs, c ≠ '(' ∧ c ≠ ')')
    (s : Cutting) : cs.foldl Cutting.step s = { s with current := cs.reverse ++ s.current } := by
  induction cs generalizing s with
  | nil => rfl
  | cons c cs ih =>
    obtain ⟨hopen, hclose⟩ := h c List.mem_cons_self
    have hstep : Cutting.step s c = { s with current := c :: s.current } := by
      rw [Cutting.step, if_neg hopen, if_neg hclose]
    rw [List.foldl_cons, hstep, ih fun d hd => h d (List.mem_cons_of_mem _ hd), List.reverse_cons,
      List.append_assoc, List.singleton_append]

/-- A text without quotes and parentheses is left as it is. -/
theorem source_of_isUnmarked {s : Text} (h : s.IsUnmarked) :
    (Linear.ofText s.points).source = s.points := by
  have hmask : maskFrom 0 (pieces s.points) = s.points := by
    rw [pieces, piecesFrom_of_no_quote fun c hc => (h c hc).1, maskFrom_plain]
  unfold Linear.ofText
  dsimp only
  rw [hmask, foldl_step_of_no_parenthesis fun c hc => ⟨(h c hc).2.1, (h c hc).2.2.1⟩]
  show ((s.points.reverse ++ []).reverse) = s.points
  rw [List.append_nil, List.reverse_reverse]

theorem split_of_not_mem {mark : CodePoint} {cs : List CodePoint} (h : ∀ c ∈ cs, c ≠ mark) :
    Text.split mark cs = [cs] := by
  induction cs with
  | nil => rfl
  | cons c cs ih =>
    rw [Text.split, if_neg (h c List.mem_cons_self),
      ih fun d hd => h d (List.mem_cons_of_mem _ hd)]

theorem unmask_of_not_mem (quoted : List (List CodePoint)) {cs : List CodePoint}
    (h : ∀ c ∈ cs, c ≠ quoteMark) : unmask quoted cs = .ok cs := by
  unfold unmask
  induction cs with
  | nil => rfl
  | cons c cs ih =>
    rw [unmaskFrom, if_neg (h c List.mem_cons_self),
      ih fun d hd => h d (List.mem_cons_of_mem _ hd)]
    rfl

/-- A text without marks, after the linear form is taken, calls nothing. -/
theorem expression_of_no_mark (c : Catalog) (l : Linear) (fuel : Nat) (place : Place)
    {cs : List CodePoint} (h : ∀ c ∈ cs, c ≠ groupMark ∧ c ≠ quoteMark) :
    expression c l fuel place cs = (bare c place (Text.trimPoints cs)).map some := by
  unfold expression
  rw [split_of_not_mem fun c hc => (h c hc).1]
  dsimp only
  rw [unmask_of_not_mem _ fun c hc => (h c hc).2, ok_bind]
  rcases bare c place (Text.trimPoints cs) with f | e <;> rfl

/-- **A text without quotes, parentheses and marks stands for itself.** -/
theorem ofText?_of_isUnmarked (c : Catalog) (place : Place) {s : Text} (h : s.IsUnmarked) :
    ofText? c place s.points = (bare c place (Text.trimPoints s.points)).map some := by
  unfold ofText?
  dsimp only
  rw [source_of_isUnmarked h]
  exact expression_of_no_mark c _ _ place fun c hc => (h c hc).2.2.2

theorem quotedInside?_of_no_quote {cs : List CodePoint} (h : ∀ c ∈ cs, isQuote c = false) :
    quotedInside? cs = none := by
  unfold quotedInside?
  split
  · rfl
  · rename_i q cs
    rw [h q List.mem_cons_self]
    rfl

theorem quotedInside?_of_isUnmarked {s : Text} (h : s.IsUnmarked) : quotedInside? s.points = none :=
  quotedInside?_of_no_quote fun c hc => (h c hc).1

end Operand

/-! ### Literals and paths -/

/-- The operand is a path, with a value in the place of its text. -/
def Expr.IsPathOf (p : Value) : Expr → Prop
  | .path q _ _ => q = p
  | _ => False

/-- The operand is a literal or a path. -/
def Expr.IsLiteralOrPath : Expr → Prop
  | .call .. => False
  | _ => True

/-- If the operand is a literal, its value was read into its data type. -/
def Expr.IsSettled : Expr → Prop
  | .literal value type _ _ => ∃ t : DataType, type = some (.data t) ∧ t.read value = .ok value
  | _ => True

/-- A literal of a value is settled and no path. -/
theorem Expr.isSettled_of_ofValue {v : Value} {type : Option DataType} {explicit : Bool} {e : Expr}
    (h : Expr.ofValue v type explicit = .ok e) : e.IsSettled ∧ ∀ p, ¬ e.IsPathOf p := by
  obtain ⟨w, hw, rfl⟩ := Expr.ofValue_eq_ok_iff.mp h
  exact ⟨⟨_, rfl, DataType.read_of_read hw⟩, fun _ hpath => hpath⟩

/-- The operand is a path, or a literal whose type is spelled out. -/
def Expr.IsSpelledOut : Expr → Prop
  | .literal _ _ explicit _ => explicit = true
  | .path .. => True
  | .call .. => False

/-- Checking an operand keeps its kind, its path, and its value with the type. -/
theorem Expr.kind_of_fit {c : Catalog} {schema : Option EntityId} {e e' : Expr}
    (h : e.fit c schema = .ok e') :
    (e'.IsSettled ↔ e.IsSettled) ∧ ∀ p, e'.IsPathOf p ↔ e.IsPathOf p := by
  have hcheck : ((e.check c schema).1.IsSettled ↔ e.IsSettled) ∧
      ∀ p, (e.check c schema).1.IsPathOf p ↔ e.IsPathOf p := by
    cases e
    all_goals
      unfold Expr.check
      split
      · exact ⟨Iff.rfl, fun _ => Iff.rfl⟩
      · try split
        all_goals exact ⟨Iff.rfl, fun _ => Iff.rfl⟩
  exact Expr.eq_of_fit h ▸ hcheck

/-- Under a schema a path has the type of its property. -/
theorem Expr.type_of_fit_path {c : Catalog} {schema : Option EntityId} {p : Value} {e : Expr}
    (hschema : c.isSchemaless schema = false) (h : Expr.fit c schema (.path p none {}) = .ok e) :
    e.type ≠ none := by
  cases schema with
  | none => cases hschema
  | some entity =>
    have hfresh : Mark.isFor (some entity) {} = false := rfl
    unfold Expr.fit Expr.check Expr.checkPath at h
    rw [hfresh, hschema] at h
    dsimp only at h
    rcases e₁ : Expr.pathType c entity p with fault | type
    · rw [e₁] at h
      cases h
    · rw [e₁] at h
      cases h
      exact Option.some_ne_none type

/-- Where there is no schema a path has no type. -/
theorem Expr.type_of_fit_schemaless {c : Catalog} {schema : Option EntityId} {p : Value} {e : Expr}
    (hschema : c.isSchemaless schema = true) (h : Expr.fit c schema (.path p none {}) = .ok e) :
    e.type = none := by
  cases schema with
  | none =>
    cases h
    rfl
  | some entity =>
    have hfresh : Mark.isFor (some entity) {} = false := rfl
    unfold Expr.fit Expr.check Expr.checkPath at h
    rw [hfresh, hschema] at h
    cases h
    rfl

/-- If the operand is a literal without its type spelled out, it has the given type. -/
def Expr.IsBareOf (t : DataType) : Expr → Prop
  | .literal _ type false _ => type = some (.data t)
  | _ => True

theorem Expr.isBareOf_of_ofValue {v : Value} {t : DataType} {e : Expr}
    (h : Expr.ofValue v (some t) false = .ok e) : e.IsBareOf t := by
  obtain ⟨w, -, rfl⟩ := Expr.ofValue_eq_ok_iff.mp h
  exact rfl

theorem Expr.isBareOf_of_isSpelledOut {t : DataType} {e : Expr} (h : e.IsSpelledOut) :
    e.IsBareOf t := by
  cases e with
  | literal _ _ explicit _ =>
    cases h
    trivial
  | path => trivial
  | call => trivial

theorem Expr.isBareOf_fit {c : Catalog} {schema : Option EntityId} {t : DataType} {e e' : Expr}
    (h : e.fit c schema = .ok e') (he : e.IsBareOf t) : e'.IsBareOf t := by
  have hcheck : (e.check c schema).1.IsBareOf t := by
    cases e
    case literal v type explicit mark =>
      cases explicit
      all_goals
        unfold Expr.check
        split
        all_goals exact he
    all_goals
      unfold Expr.check
      split
      · trivial
      · split <;> trivial
  exact Expr.eq_of_fit h ▸ hcheck

namespace Operand

variable {c : Catalog} {place : Place} {p : Value}

/-- A map on the right is read as a path or as a literal with its type. -/
theorem isSpelledOut_of_ofEntries {entries : List (Value × Value)} {e : Expr}
    (h : ofEntries c place entries = .ok e) : e.IsSpelledOut := by
  obtain ⟨value, -, ⟨-, hfit⟩ | ⟨type, he⟩⟩ := ofEntries_eq_ok_cases h
  · have hpath : e.IsPathOf value := ((Expr.kind_of_fit hfit).2 value).mpr rfl
    cases e
    case path => trivial
    all_goals cases hpath
  · obtain ⟨w, -, rfl⟩ := Expr.ofValue_eq_ok_iff.mp he
    exact rfl

/-- A map is read as an operand that is spelled out. -/
theorem isSpelledOut_of_isMap {v : Value} {e : Expr} (hmap : v.isMap)
    (h : read? c place v = .ok (some e)) : e.IsSpelledOut := by
  cases v
  case map entries =>
    obtain ⟨e', he', h⟩ := map_eq_ok_iff.mp h
    cases h
    exact isSpelledOut_of_ofEntries he'
  all_goals cases hmap

theorem bare_eq_ok {cs : List CodePoint} {e : Expr} (h : bare c place cs = .ok e) :
    (e.IsSettled ∧ ∀ p, ¬ e.IsPathOf p) ∨ e = .path (Value.ofPoints cs) none {} := by
  rcases bare_eq_ok_cases h with hpath | ⟨v, type, -, he, -⟩
  · exact .inr hpath
  · exact .inl (Expr.isSettled_of_ofValue he)

/-- What is read from a text comes from a text without calls, or it is a call. -/
theorem expression_eq_ok {l : Linear} {fuel : Nat} {cs : List CodePoint} {e : Expr}
    (h : expression c l fuel place cs = .ok (some e)) :
    (∃ ds, bare c place ds = .ok e ∧ Text.trimPoints ds = ds) ∨
      ∃ f args type mark, e = .call f args type mark := by
  rcases expression_eq_some_cases h with ⟨-, token, -, he⟩ |
    ⟨_, _, _, _, _, args, f, -, -, -, -, -, rfl⟩
  · exact .inl ⟨_, he, Text.dropBothEnds_dropBothEnds _ token⟩
  · exact .inr ⟨_, _, _, _, rfl⟩

/-- An operand that is read is settled, and a path is read from its text alone. -/
theorem isSettled_of_read? {v : Value} {e : Expr} (h : read? c place v = .ok (some e)) :
    e.IsSettled ∧ ∀ p, e.IsPathOf p → Expr.fit c place.schema (.path p none {}) = .ok e := by
  have hvalue : ∀ {e : Expr}, (e.IsSettled ∧ ∀ p, ¬ e.IsPathOf p) →
      e.IsSettled ∧ ∀ p, e.IsPathOf p → Expr.fit c place.schema (.path p none {}) = .ok e :=
    fun he => ⟨he.1, fun p hp => (he.2 p hp).elim⟩
  have hpath : ∀ {q : Value}, Expr.fit c place.schema (.path q none {}) = .ok e →
      e.IsSettled ∧ ∀ p, e.IsPathOf p → Expr.fit c place.schema (.path p none {}) = .ok e := by
    intro q hfit
    obtain ⟨hsettled, hkind⟩ := Expr.kind_of_fit hfit
    refine ⟨hsettled.mpr trivial, fun p hp => ?_⟩
    have hqp : q = p := (hkind p).mp hp
    exact hqp ▸ hfit
  rcases read?_eq_some_cases h with ⟨entries, rfl, he⟩ | ⟨-, he⟩ | ⟨s, e₀, -, hread, hfit⟩
  · obtain ⟨value, -, ⟨-, hfit⟩ | ⟨type, he⟩⟩ := ofEntries_eq_ok_cases he
    · exact hpath hfit
    · exact hvalue (Expr.isSettled_of_ofValue he)
  · exact hvalue (Expr.isSettled_of_ofValue he)
  · obtain ⟨hsettled, hkind⟩ := Expr.kind_of_fit hfit
    rcases expression_eq_ok hread with ⟨ds, hbare, -⟩ | ⟨f, args, type, mark, rfl⟩
    · rcases bare_eq_ok hbare with he | rfl
      · exact hvalue ⟨hsettled.mpr he.1, fun p hp => he.2 p ((hkind p).mp hp)⟩
      · exact hpath hfit
    · exact hvalue ⟨hsettled.mpr trivial, fun p hp => (hkind p).mp hp⟩

/-- A literal on the right has the type that the place asks for, if that is not spelled out. -/
theorem isBareOf_of_read? {v : Value} {t : DataType} {e : Expr} (hargument : place.isArgument = false)
    (hhint : place.hint = some t) (h : read? c place v = .ok (some e)) : e.IsBareOf t := by
  rcases read?_eq_some_cases h with ⟨entries, rfl, he⟩ | ⟨-, he⟩ | ⟨s, e₀, -, hread, hfit⟩
  · exact Expr.isBareOf_of_isSpelledOut (isSpelledOut_of_ofEntries he)
  · rw [hhint] at he
    exact Expr.isBareOf_of_ofValue he
  · refine Expr.isBareOf_fit hfit ?_
    rcases expression_eq_ok hread with ⟨ds, hbare, -⟩ | ⟨f, args, type, mark, rfl⟩
    · rcases bare_eq_ok_cases hbare with rfl | ⟨v, type, -, he, htype⟩
      · trivial
      · rw [htype hargument t hhint] at he
        exact Expr.isBareOf_of_ofValue he
    · trivial

/-- **The text of a path is read as the same path**, on the left of a comparison and as a
collection. -/
theorem read?_of_path {schema : Option EntityId} {k : Value} {e : Expr} {s : Text} (hk : k.isKey)
    (h : read? c { schema := schema } k = .ok (some e)) (he : e.IsPathOf (.text s))
    (hs : s.IsUnmarked) : read? c { schema := schema } (.text s) = .ok (some e) := by
  rcases read?_eq_some_cases h with ⟨entries, rfl, -⟩ | ⟨-, hvalue⟩ | ⟨t, e₀, -, hr, hfit⟩
  · cases hk
  · exact ((Expr.isSettled_of_ofValue hvalue).2 _ he).elim
  · have he₀ := ((Expr.kind_of_fit hfit).2 _).mp he
    have hread : ofText? c { schema := schema } s.points = .ok (some e₀) := by
      rcases expression_eq_ok hr with ⟨ds, hbare, htrim⟩ | ⟨f, args, type, mark, rfl⟩
      · have hpoints : s.points = ds := by
          rcases bare_eq_ok hbare with hvalue | rfl
          · exact (hvalue.2 _ he₀).elim
          · cases he₀
            rfl
        rw [ofText?_of_isUnmarked c _ hs, hpoints, htrim, hbare]
        rfl
      · exact he₀.elim
    rw [read?_of_ofText? hread rfl (.inl rfl), hfit]
    rfl

end Operand

end RecordFilter
