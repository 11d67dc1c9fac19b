import RecordFilter.Proofs.Json.RoundTrip
import RecordFilter.Proofs.Operand.Rereading

/-!
# Conditions that can be read again

Two kinds of conditions have canonical forms that are read as conditions of the same meaning. The first
are those over paths that are written with the types of their literals, under any schema
(`Resolved.isRereadable_of_isPathwise`). The second are those over JSON values without a schema, where
literals are written bare and their types are inferred again
(`Resolved.isRereadable_of_isJson`).
-/

namespace RecordFilter

/-! ### Spelled out operands -/

/-- The map that spells out a property. -/
def Value.propertyForm (p : Value) : Value :=
  .map [(.text "value", p), (.text "isProperty", .bool true)]

/-- The map that spells out a literal with its data type. -/
def Value.literalForm (v : Value) (t : DataType) : Value :=
  .map [(.text "value", v), (.text "dataType", .text t.name)]

theorem Value.isRightForm_propertyForm {p : Value} (hp : p.IsPlain) : p.propertyForm.IsRightForm where
  isPlain := by
    have hkey : (Value.text "isProperty").isKey ∧ (Value.text "value").isKey := ⟨rfl, rfl⟩
    simp [propertyForm, hp, hkey, isPlain_bool]
  not_list := fun _ h => by cases h
  isWrapper := fun _ => rfl

theorem Value.isRightForm_literalForm {v : Value} (hv : v.IsPlain) (t : DataType) :
    (v.literalForm t).IsRightForm where
  isPlain := by
    have hkey : (Value.text "dataType").isKey ∧ (Value.text "value").isKey := ⟨rfl, rfl⟩
    simp [literalForm, hv, hkey]
  not_list := fun _ h => by cases h
  isWrapper := fun _ => rfl

section

variable {c : Catalog} {schema : Option EntityId}

namespace Predicate

/-- A property that is spelled out is read as its path. -/
theorem rightOperand_propertyForm {p : Value} {r : Expr} (l : Expr)
    (h : Expr.fit c schema (.path p none {}) = .ok r) :
    rightOperand c schema l p.propertyForm = .ok r := by
  refine rightOperand_eq_ok_iff.mpr ?_
  show (Expr.fit c schema (.path p none {})).map some = _
  rw [h]
  rfl

/-- A literal that is spelled out with its type is read into this type. -/
theorem rightOperand_literalForm {v w : Value} {t : DataType} (l : Expr) (h : t.read v = .ok w) :
    rightOperand c schema l (v.literalForm t) = .ok (.literal w (some (.data t)) true {}) := by
  refine rightOperand_eq_ok_iff.mpr ?_
  have hname : (Value.text t.name).truthy := by cases t <;> rfl
  have hliteral : Expr.literalOf v (.text t.name) true =
      .ok (.literal w (some (.data t)) true {}) := by
    unfold Expr.literalOf
    rw [DataType.ofValue_name]
    exact Expr.ofValue_eq_ok_iff.mpr ⟨w, h, rfl⟩
  have hentries : Operand.ofEntries c { schema, isRight := true, hint := hintOf l }
      [(.text "value", v), (.text "dataType", .text t.name)] =
        if (Value.text t.name).truthy then Expr.literalOf v (.text t.name) true
        else Expr.ofValue v (hintOf l) true := rfl
  show (Operand.ofEntries c _ _).map some = _
  rw [hentries, if_pos hname, hliteral]
  rfl

/-- The text of a path is the same left operand. -/
theorem leftOperand_of_path {k : Value} {l : Expr} {s : Text} (hk : k.isKey)
    (h : leftOperand c schema k = .ok l) (hl : l.IsPathOf (.text s)) (hs : s.IsUnmarked) :
    leftOperand c schema (.text s) = .ok l := by
  obtain ⟨hread, hliteral⟩ := leftOperand_eq_ok_iff.mp h
  exact leftOperand_eq_ok_iff.mpr ⟨Operand.read?_of_path hk hread hl hs, hliteral⟩

/-- The text of a path is the same collection. -/
theorem collectionOperand_of_path {k : Value} {e : Expr} {s : Text} (hk : k.isKey)
    (h : collectionOperand c schema k = .ok e) (he : e.IsPathOf (.text s)) (hs : s.IsUnmarked) :
    collectionOperand c schema (.text s) = .ok e := by
  obtain ⟨e₀, hr, rfl⟩ := collectionOperand_eq_ok_iff.mp h
  have he₀ : e₀.IsPathOf (.text s) := by
    cases e₀ <;> split at he <;> exact he
  exact collectionOperand_eq_ok_iff.mpr ⟨e₀, Operand.read?_of_path hk hr he₀ hs, rfl⟩

end Predicate

/-! ### Leaves -/

variable {context : Context}

/-- In a context an operand on the right, beside a left operand, is written in a form that is read as
an operand of the same meaning. -/
def Expr.IsRereadable (c : Catalog) (context : Context) (l r : Expr) : Prop :=
  ∃ v, r.canonicalRight c context = .ok v ∧ v.IsRightForm ∧
    ∃ r', Predicate.rightOperand c context.schema l v = .ok r' ∧ r'.stripped = r.stripped

theorem Expr.canonical_path (hserver : context.server.truthy = false) (p : Value)
    (type : Option TypeRef) (mark : Mark) :
    (Expr.path p type mark).canonical c context = .ok p := by
  unfold canonical writtenPath
  rw [hserver]

theorem Expr.canonicalRight_path {r : Expr} {p : Value} (hserver : context.server.truthy = false)
    (hr : r.IsPathOf p) : r.canonicalRight c context = .ok p.propertyForm := by
  cases r
  case path q type mark =>
    cases hr
    unfold canonicalRight
    rw [canonical_path hserver]
    rfl
  all_goals cases hr

theorem Expr.canonicalRight_literal {v : Value} {t : DataType} {explicit : Bool} {mark : Mark}
    (hexplicit : explicit || context.explicitType.truthy) :
    (Expr.literal v (some (.data t)) explicit mark).canonicalRight c context =
      .ok (v.literalForm t) := by
  have hcanonical : (Expr.literal v (some (.data t)) explicit mark).canonical c context =
      .ok (v.literalForm t) := by
    rw [canonical, if_pos hexplicit]
    rfl
  unfold canonicalRight
  rw [hcanonical]
  rfl

theorem Expr.isRereadable_path {l r : Expr} {p : Value} (hserver : context.server.truthy = false)
    (hp : p.IsPlain) (hr : r.IsPathOf p)
    (hfit : Expr.fit c context.schema (.path p none {}) = .ok r) : Expr.IsRereadable c context l r :=
  ⟨p.propertyForm, canonicalRight_path hserver hr, Value.isRightForm_propertyForm hp, r,
    Predicate.rightOperand_propertyForm l hfit, rfl⟩

theorem Expr.isRereadable_literal {l : Expr} {v : Value} {t : DataType} {explicit : Bool} {mark : Mark}
    (hexplicit : explicit || context.explicitType.truthy) (hv : v.IsPlain) (hread : t.read v = .ok v) :
    Expr.IsRereadable c context l (.literal v (some (.data t)) explicit mark) :=
  ⟨v.literalForm t, canonicalRight_literal hexplicit, Value.isRightForm_literalForm hv t, _,
    Predicate.rightOperand_literalForm l hread, rfl⟩

/-- The forms of paths as keys. -/
theorem Value.isPathForm_text {s : Text} (h : (Value.text s).IsUnreserved) :
    (Value.text s).IsPathForm where
  isKey := rfl
  isPlain := trivial
  isUnreserved := h

theorem Resolved.isRereadable_comparison {op : Operator} {k v : Value} {l r : Expr} {s : Text}
    (hop : op.IsOf Operator.comparison) (hserver : context.server.truthy = false) (hk : k.isKey)
    (hoperands : Predicate.operandsOf c context.schema k v = .ok (l, r))
    (hl : l.IsPathOf (.text s)) (hs : s.IsUnmarked) (hfree : (Value.text s).IsUnreserved)
    (hr : ∀ l₀, Predicate.leftOperand c context.schema k = .ok l₀ →
      Predicate.rightOperand c context.schema l₀ v = .ok r → Expr.IsRereadable c context l₀ r) :
    (Resolved.comparison op l r).IsRereadable c context := by
  obtain ⟨l₀, hl₀, hr₀, rfl⟩ := Predicate.operandsOf_eq_ok_iff.mp hoperands
  obtain ⟨v', hv', hform, r', hr', hstripped⟩ := hr l₀ hl₀ hr₀
  have htype : r'.type = r.type := by
    rw [← Expr.type_stripped r', hstripped, Expr.type_stripped]
  have hpath : l₀.IsPathOf (.text s) := by
    cases l₀ <;> split at hl <;> exact hl
  have hcanonical : ∀ {e : Expr}, e.IsPathOf (.text s) → e.canonical c context = .ok (.text s) := by
    intro e he
    cases e
    case path => cases he; exact Expr.canonical_path hserver _ _ _
    all_goals cases he
  refine ⟨hop, .text s, v', hcanonical hl, hv', Value.isPathForm_text hfree, hform, _, r', ?_, rfl,
    hstripped⟩
  unfold Predicate.operandsOf
  rw [Predicate.leftOperand_of_path hk hl₀ hpath hs, ok_bind, hr', ok_bind, htype]
  rfl

theorem Resolved.isRereadable_quantified {op op' : Operator} {k : Value} {e : Expr} {s : Text}
    {body : Resolved} (hop : op.IsOf Operator.quantified) (hserver : context.server.truthy = false)
    (hk : k.isKey) (hcollection : Predicate.collectionOf c context.schema op' k = .ok e)
    (he : e.IsPathOf (.text s)) (hs : s.IsUnmarked) (hfree : (Value.text s).IsUnreserved)
    (hbody : body.IsRereadable c (context.withSchema e.entity?)) :
    (Resolved.quantified op e body).IsRereadable c context := by
  obtain ⟨hoperand, hfits⟩ := Predicate.collectionOf_eq_ok_iff.mp hcollection
  refine ⟨hop, ⟨.text s, ?_, Value.isPathForm_text hfree, e, ?_, rfl⟩, hbody⟩
  · cases e
    case path => cases he; exact Expr.canonical_path hserver _ _ _
    all_goals cases he
  · exact Predicate.collectionOf_eq_ok_iff.mpr
      ⟨Predicate.collectionOperand_of_path hk hoperand he hs, hfits⟩

end

/-! ### Conditions over paths, with the types of literals -/

/-- The operand is the path of a text that stands for itself and is not spelled like a joining
operator or a negation. -/
def Expr.IsOrdinaryPath (e : Expr) : Prop :=
  ∃ s, e.IsPathOf (.text s) ∧ s.IsUnmarked ∧ (Value.text s).IsUnreserved

mutual

/-- Left operands and collections are ordinary paths, right operands are literals or paths, and no
filter text is passed through. -/
def Resolved.IsPathwise : Resolved → Prop
  | .passthrough _ => False
  | .unary _ operand => Resolved.IsPathwise operand
  | .logical _ children => Resolved.AllPathwise children
  | .comparison _ left right => left.IsOrdinaryPath ∧ right.IsLiteralOrPath
  | .quantified _ collection body => collection.IsOrdinaryPath ∧ Resolved.IsPathwise body

/-- The conditions are over ordinary paths. -/
def Resolved.AllPathwise : List Resolved → Prop
  | [] => True
  | t :: ts => Resolved.IsPathwise t ∧ Resolved.AllPathwise ts

end

mutual

/-- In every comparison the operands have the property `K` under the schema of its scope, which inside
a quantifier is that of the elements. -/
def Resolved.EachComparison (K : Option EntityId → Expr → Expr → Prop) (schema : Option EntityId) :
    Resolved → Prop
  | .passthrough _ => True
  | .unary _ operand => Resolved.EachComparison K schema operand
  | .logical _ children => Resolved.AllComparisons K schema children
  | .comparison _ left right => K schema left right
  | .quantified _ collection body => Resolved.EachComparison K collection.entity? body

/-- In every comparison of the conditions the operands have the property. -/
def Resolved.AllComparisons (K : Option EntityId → Expr → Expr → Prop) (schema : Option EntityId) :
    List Resolved → Prop
  | [] => True
  | t :: ts => Resolved.EachComparison K schema t ∧ Resolved.AllComparisons K schema ts

end

mutual

theorem Resolved.eachComparison_true (schema : Option EntityId) :
    ∀ t : Resolved, t.EachComparison (fun _ _ _ => True) schema
  | .passthrough _ => trivial
  | .unary _ operand => Resolved.eachComparison_true schema operand
  | .logical _ children => Resolved.allComparisons_true schema children
  | .comparison .. => trivial
  | .quantified _ collection body => Resolved.eachComparison_true collection.entity? body

theorem Resolved.allComparisons_true (schema : Option EntityId) :
    ∀ ts : List Resolved, Resolved.AllComparisons (fun _ _ _ => True) schema ts
  | [] => trivial
  | t :: ts => ⟨Resolved.eachComparison_true schema t, Resolved.allComparisons_true schema ts⟩

end

section

variable {c : Catalog} {V : Value → Prop} {K : Option EntityId → Expr → Expr → Prop}
  {context : Context} (hserver : context.server.truthy = false)
  (hright : ∀ {schema : Option EntityId} {k v : Value} {l₀ l r : Expr}, k.isKey → V v →
    Predicate.leftOperand c schema k = .ok l₀ → Predicate.rightOperand c schema l₀ v = .ok r →
      Predicate.operandsOf c schema k v = .ok (l, r) → l.IsOrdinaryPath → r.IsLiteralOrPath →
        K schema l r → Expr.IsRereadable c (context.withSchema schema) l₀ r)

include hserver hright

set_option linter.unusedSectionVars false in
mutual

/-- Conditions over ordinary paths can be read again, in every scope of a context, if the right
operands of their comparisons can. -/
theorem Resolved.isRereadable_of_right : ∀ (s : Condition) {t : Resolved} {schema : Option EntityId},
    s.IsBuilt V → s.resolve c schema = .ok t → t.IsPathwise → t.EachComparison K schema →
      t.IsRereadable c (context.withSchema schema)
  | .absent, _, _, _, h, _, _ => by cases h
  | .bare _, _, _, hbuilt, _, _, _ => hbuilt.elim
  | .passthrough _, t, _, _, h, hpath, _ => by
    cases h
    exact hpath.elim
  | .unary op operand, t, schema, hbuilt, h, hpath, heach => by
    obtain ⟨u, hu, rfl⟩ := Condition.resolve_unary_eq_ok_iff.mp h
    exact ⟨hbuilt.1, Resolved.isRereadable_of_right operand hbuilt.2 hu hpath heach⟩
  | .logical op children, t, schema, hbuilt, h, hpath, heach => by
    obtain ⟨us, hus, rfl⟩ := Condition.resolve_logical_eq_ok_iff.mp h
    obtain ⟨hlength, hall⟩ := Resolved.allRereadable_of_right children hbuilt.2.2 hus hpath heach
    exact ⟨hbuilt.1, hlength ▸ hbuilt.2.1, hall⟩
  | .comparison op left right, t, schema, hbuilt, h, hpath, heach => by
    obtain ⟨l, r, hoperands, rfl⟩ := Condition.resolve_comparison_eq_ok_iff.mp h
    obtain ⟨hop, -, hkey, -, hvalue⟩ := hbuilt
    obtain ⟨⟨s, hl, hs, hfree⟩, hr⟩ := hpath
    refine Resolved.isRereadable_comparison hop hserver hkey hoperands hl hs hfree ?_
    intro l₀ hl₀ hr₀
    exact hright hkey hvalue hl₀ hr₀ hoperands ⟨s, hl, hs, hfree⟩ hr heach
  | .quantified op collection body, t, schema, hbuilt, h, hpath, heach => by
    obtain ⟨e, u, he, hu, rfl⟩ := Condition.resolve_quantified_eq_ok_iff.mp h
    obtain ⟨hop, -, hkey, -, hbody⟩ := hbuilt
    obtain ⟨⟨s, hpathOf, hs, hfree⟩, hpath⟩ := hpath
    have hscope : (context.withSchema schema).server.truthy = false := hserver
    exact Resolved.isRereadable_quantified hop hscope hkey he hpathOf hs hfree
      (Resolved.isRereadable_of_right body hbody hu hpath heach)

theorem Resolved.allRereadable_of_right : ∀ (ss : List Condition) {ts : List Resolved}
    {schema : Option EntityId}, Condition.AllBuilt V ss →
      Condition.resolveAll c schema ss = .ok ts → Resolved.AllPathwise ts →
        Resolved.AllComparisons K schema ts →
          ss.length = ts.length ∧ Resolved.AllRereadable c (context.withSchema schema) ts
  | [], ts, _, _, h, _, _ => by
    cases h
    exact ⟨rfl, trivial⟩
  | s :: ss, ts, schema, hbuilt, h, hpath, heach => by
    obtain ⟨u, us, hu, hus, rfl⟩ := Condition.resolveAll_cons_eq_ok_iff.mp h
    obtain ⟨hlength, hall⟩ :=
      Resolved.allRereadable_of_right ss hbuilt.2 hus hpath.2 heach.2
    exact ⟨by rw [List.length_cons, List.length_cons, hlength],
      Resolved.isRereadable_of_right s hbuilt.1 hu hpath.1 heach.1, hall⟩

end

end

section

variable {c : Catalog} {context : Context}

/-- A right operand that is written as a path, or as a literal with its type, can be read again. -/
theorem Expr.isRereadable_of_isSpelledOut {l r : Expr} {v : Value}
    (hserver : context.server.truthy = false) (hv : v.IsPlain)
    (hr : Predicate.rightOperand c context.schema l v = .ok r)
    (hform : r.IsSpelledOut ∨ context.explicitType.truthy ∧ r.IsLiteralOrPath) :
    Expr.IsRereadable c context l r := by
  obtain ⟨hsettled, hfit⟩ := Operand.isSettled_of_read? (Predicate.rightOperand_eq_ok_iff.mp hr)
  have hplain := Predicate.rightOperand_isPlain hv hr
  cases r
  case literal value type explicit mark =>
    obtain ⟨dt, rfl, hread⟩ := hsettled
    have hexplicit : explicit || context.explicitType.truthy := by
      rcases hform with h | ⟨h, -⟩
      · rw [show explicit = true from h, Bool.true_or]
      · rw [h, Bool.or_true]
    exact Expr.isRereadable_literal hexplicit hplain.1 hread
  case path p type mark => exact Expr.isRereadable_path hserver hplain.1 rfl (hfit p rfl)
  case call =>
    rcases hform with h | ⟨-, h⟩
    · exact h.elim
    · exact h.elim

/-- **Conditions over ordinary paths can be read again under every schema** when the types of literals
are spelled out. -/
theorem Resolved.isRereadable_of_isPathwise {V : Value → Prop} (hplain : ∀ v, V v → v.IsPlain)
    (s : Condition) {t : Resolved} (hbuilt : s.IsBuilt V) (hserver : context.server.truthy = false)
    (hexplicit : context.explicitType.truthy) (h : s.resolve c context.schema = .ok t)
    (hpath : t.IsPathwise) : t.IsRereadable c context := by
  show t.IsRereadable c (context.withSchema context.schema)
  refine Resolved.isRereadable_of_right hserver ?_ s hbuilt h hpath
    (Resolved.eachComparison_true _ t)
  intro schema k v l₀ l r _ hv _ hr _ _ hkind _
  have hscope : (context.withSchema schema).server.truthy = false := hserver
  exact Expr.isRereadable_of_isSpelledOut hscope (hplain v hv) hr (.inr ⟨hexplicit, hkind⟩)

end

/-! ### Conditions over JSON values, without a schema -/

mutual

/-- What stands on the left of comparisons or is a collection has the property `L`, and what stands on
the right of comparisons has the property `R`. -/
def Condition.HasSources (L R : Value → Prop) : Condition → Prop
  | .unary _ operand => Condition.HasSources L R operand
  | .logical _ children => Condition.AllHaveSources L R children
  | .comparison _ left right => L left ∧ R right
  | .quantified _ collection body => L collection ∧ Condition.HasSources L R body
  | _ => True

/-- The sources of all conditions have the properties. -/
def Condition.AllHaveSources (L R : Value → Prop) : List Condition → Prop
  | [] => True
  | t :: ts => Condition.HasSources L R t ∧ Condition.AllHaveSources L R ts

end

/-- If the value is a text, it has no blanks at its ends and holds no quotes, parentheses and marks. -/
def Value.IsClean (v : Value) : Prop :=
  ∀ s, v.asText? = some s → Text.trim s = s ∧ s.IsUnmarked

/-- No map is the key of another one. -/
theorem Value.isMap_of_isKey {v : Value} (h : v.isKey) : v.isMap = false := by
  cases v
  case map => cases h
  all_goals rfl

/-- A JSON scalar other than null has a type that can be inferred. -/
theorem Value.isNull_or_inferred (v : Value) (hjson : v.IsJson) (hlist : ∀ vs, v ≠ .list vs)
    (hmap : v.isMap = false) : v = .null ∨ DataType.infer v ≠ .undefined := by
  cases v
  case null => exact .inl rfl
  case text s =>
    refine .inr ?_
    show DataType.inferText s ≠ _
    unfold DataType.inferText
    split_ifs <;> simp
  case bool | int | double => exact .inr (by simp [DataType.infer])
  case list vs => exact (hlist vs rfl).elim
  case map => cases hmap
  all_goals exact hjson.elim

section

variable {c : Catalog}

theorem Text.IsUnmarked.trim {s : Text} (h : s.IsUnmarked) : (Text.trim s).IsUnmarked := by
  intro p hp
  have hmem : p ∈ (s.points.dropWhile Text.isBlank).reverse.dropWhile Text.isBlank :=
    List.mem_reverse.mp hp
  have hmem' := List.mem_reverse.mp ((List.dropWhile_sublist _).subset hmem)
  exact h p ((List.dropWhile_sublist _).subset hmem')

/-- Where there is no schema a text without quotes, parentheses and marks is a path. -/
theorem Operand.read?_of_isUnmarked {k : Value} {s : Text} (hk : k.asText? = some s)
    (hs : s.IsUnmarked) :
    Operand.read? c {} k = .ok (some (.path (.text (Text.trim s)) none (Mark.after none {}))) := by
  have hbare : Operand.bare c {} (Text.trimPoints s.points) =
      .ok (.path (.text (Text.trim s)) none {}) := by
    unfold Operand.bare
    rw [← Text.points_trim, Operand.quotedInside?_of_isUnmarked hs.trim]
    rfl
  have hread : Operand.ofText? c {} s.points = .ok (some (.path (.text (Text.trim s)) none {})) := by
    rw [Operand.ofText?_of_isUnmarked c _ hs, hbare]
    rfl
  rw [Operand.read?_of_ofText? hread hk (.inl rfl)]
  rfl

/-- Where there is no schema a clean text is a path, as it stands. -/
theorem Operand.read?_of_isClean {k : Value} {s : Text} (hk : k.asText? = some s)
    (hclean : k.IsClean) :
    Operand.read? c {} k = .ok (some (.path (.text s) none (Mark.after none {}))) := by
  obtain ⟨htrim, hunmarked⟩ := hclean s hk
  rw [Operand.read?_of_isUnmarked hk hunmarked, htrim]

/-- What is a left operand where there is no schema is a text, unless it is a map. -/
theorem Predicate.exists_asText?_of_leftOperand {k : Value} {l : Expr} (hmap : k.isMap = false)
    (h : Predicate.leftOperand c none k = .ok l) : ∃ s, k.asText? = some s := by
  rcases e : k.asText? with - | s
  · exact (Condition.leftOperand_ne_ok e hmap l h).elim
  · exact ⟨s, rfl⟩

/-- The left operand that a clean text is. -/
theorem Predicate.leftOperand_of_isClean {k : Value} {l : Expr} (hmap : k.isMap = false)
    (hclean : k.IsClean) (h : Predicate.leftOperand c none k = .ok l) :
    ∃ s, k.asText? = some s ∧ s.IsUnmarked ∧ l = .path (.text s) none (Mark.after none {}) := by
  obtain ⟨s, hs⟩ := Predicate.exists_asText?_of_leftOperand hmap h
  have hread := (Predicate.leftOperand_eq_ok_iff.mp h).1
  rw [Operand.read?_of_isClean hs hclean] at hread
  cases hread
  exact ⟨s, hs, (hclean s hs).2, rfl⟩

/-- A text that is a key spelled like no operator is one as a text too. -/
theorem Value.IsUnreserved.of_asText? {k : Value} {s : Text} (h : k.IsUnreserved)
    (hk : k.asText? = some s) : (Value.text s).IsUnreserved := by
  have hspelling : Registry.spellingOf? (.text s) = Registry.spellingOf? k := by
    cases k
    case text => cases hk; rfl
    case token => cases hk; rfl
    all_goals cases hk
  constructor
  · rw [← h.logical]
    unfold Operator.logical? Registry.find?
    rw [hspelling]
  · rw [← h.unary]
    unfold Operator.unary? Registry.find?
    rw [hspelling]

/-- Where there is no schema a scalar on the right is a bare literal, and its value is read as the same
literal again. -/
theorem Predicate.rightOperand_scalar {l r : Expr} {v : Value} (hl : Predicate.hintOf l = none)
    (hjson : v.IsJson) (hform : v.IsRightForm) (hmap : v.isMap = false)
    (h : Predicate.rightOperand c none l v = .ok r) :
    ∃ w t, r = .literal w (some (.data t)) false {} ∧ w.IsRightForm ∧
      Predicate.rightOperand c none l w = .ok r := by
  have hvalue : ∀ {w : Value}, w.isMap = false → ∀ {e : Expr},
      Predicate.rightOperand c none l w = .ok e ↔ Expr.ofValue w none false = .ok e := by
    intro w hw e
    rw [Predicate.rightOperand_eq_ok_iff, hl]
    have hread : Operand.read? c { schema := none, isRight := true, hint := none } w =
        (Expr.ofValue w none false).map some := by
      cases w
      case map => cases hw
      all_goals rfl
    rw [hread, map_eq_ok_iff]
    exact ⟨fun ⟨a, ha, hae⟩ => Option.some.inj hae ▸ ha, fun ha => ⟨e, ha, rfl⟩⟩
  obtain ⟨w, hw, rfl⟩ := Expr.ofValue_eq_ok_iff.mp ((hvalue hmap).mp h)
  rw [Option.getD_none] at hw
  have hinfer : DataType.infer w = DataType.infer v := DataType.infer_of_read hw
  have hscalar : w.isMap = false ∧ ∀ vs, w ≠ .list vs := by
    rcases v.isNull_or_inferred hjson hform.not_list hmap with rfl | hknown
    · cases hw
      exact ⟨rfl, fun _ h => by cases h⟩
    · rw [← hinfer] at hknown
      cases w
      case list => exact (hknown rfl).elim
      case map => exact (hknown rfl).elim
      all_goals exact ⟨rfl, fun _ h => by cases h⟩
  refine ⟨w, DataType.infer v, rfl, ⟨DataType.read_isPlain hform.isPlain hw, hscalar.2, fun hw => ?_⟩,
    (hvalue hscalar.1).mpr (Expr.ofValue_eq_ok_iff.mpr ⟨w, ?_, ?_⟩)⟩
  · rw [hscalar.1] at hw
    cases hw
  · rw [Option.getD_none, hinfer]
    exact DataType.read_of_read hw
  · rw [Option.getD_none, Option.getD_none, hinfer]

/-- A bare literal is inferred to have the same type again. -/
theorem Expr.isRereadable_scalar {l r : Expr} {v : Value} (hl : Predicate.hintOf l = none)
    (hjson : v.IsJson) (hform : v.IsRightForm) (hmap : v.isMap = false)
    (h : Predicate.rightOperand c none l v = .ok r) : Expr.IsRereadable c {} l r := by
  obtain ⟨w, t, rfl, hw, hread⟩ := Predicate.rightOperand_scalar hl hjson hform hmap h
  exact ⟨w, rfl, hw, _, hread, rfl⟩

/-- On the right of a comparison without a schema, every operand that a JSON value means can be read
again, unless it is a list. -/
theorem Expr.isRereadable_of_isJson {l r : Expr} {v : Value} (hl : Predicate.hintOf l = none)
    (hjson : v.IsJson) (hform : v.IsRightForm) (h : Predicate.rightOperand c none l v = .ok r) :
    Expr.IsRereadable c {} l r := by
  by_cases hmap : v.isMap
  · have hspelled : r.IsSpelledOut :=
      Operand.isSpelledOut_of_isMap hmap (Predicate.rightOperand_eq_ok_iff.mp h)
    exact Expr.isRereadable_of_isSpelledOut rfl hform.isPlain h (.inl hspelled)
  · exact Expr.isRereadable_scalar hl hjson hform (by simpa using hmap) h

/-- A collection that is a scalar of JSON but no text is a literal, which is its own canonical form. -/
theorem Resolved.isRereadable_quantified_scalar {op op' : Operator} {k : Value} {e : Expr}
    {body : Resolved} (hop : op.IsOf Operator.quantified) (hjson : k.IsJson) (hkey : k.isKey)
    (hfree : k.IsUnreserved) (htext : k.asText? = none)
    (hcollection : Predicate.collectionOf c none op' k = .ok e) (hbody : body.IsRereadable c {}) :
    (Resolved.quantified op e body).IsRereadable c {} := by
  have he : e = .literal k none false {} := by
    obtain ⟨e₀, hr, rfl⟩ := Predicate.exists_read?_of_collectionOf hcollection
    cases k
    case null | bool | int | double =>
      cases hr
      rfl
    case text => cases htext
    case list => cases hkey
    case map => cases hkey
    all_goals exact hjson.elim
  subst he
  exact ⟨hop, ⟨k, rfl, ⟨hkey, hjson.isPlain, hfree⟩, _,
    Predicate.collectionOf_eq_ok_iff.mpr (Predicate.collectionOf_eq_ok_iff.mp hcollection), rfl⟩, hbody⟩

end

section

variable {c : Catalog} {default : Except Fault TextPolicy}

mutual

/-- **Conditions over JSON values can be read again without a schema**, if they can be compiled. -/
theorem Resolved.isRereadable_of_isJson : ∀ (s : Condition) {t : Resolved} {f : Predicate.Test},
    s.IsBuilt Value.IsJson → s.HasSources Value.IsClean Value.IsRightForm →
      s.resolve c none = .ok t → t.compile c default {} = .ok f → t.IsRereadable c {}
  | .absent, _, _, _, _, h, _ => by cases h
  | .bare _, _, _, hbuilt, _, _, _ => hbuilt.elim
  | .passthrough text, t, f, _, _, h, hf => by
    cases h
    exact (compile_passthrough_ne_ok hf).elim
  | .unary op operand, t, f, hbuilt, hsources, h, hf => by
    obtain ⟨u, hu, rfl⟩ := Condition.resolve_unary_eq_ok_iff.mp h
    obtain ⟨-, g, hg, -⟩ := compile_unary_eq_ok_iff.mp hf
    exact ⟨hbuilt.1, Resolved.isRereadable_of_isJson operand hbuilt.2 hsources hu hg⟩
  | .logical op children, t, f, hbuilt, hsources, h, hf => by
    obtain ⟨us, hus, rfl⟩ := Condition.resolve_logical_eq_ok_iff.mp h
    obtain ⟨fs, -, hfs, -, -⟩ := compile_logical_eq_ok_iff.mp hf
    obtain ⟨hlength, hall⟩ := Resolved.allRereadable_of_json children hbuilt.2.2 hsources hus hfs
    exact ⟨hbuilt.1, hlength ▸ hbuilt.2.1, hall⟩
  | .comparison op left right, t, f, hbuilt, hsources, h, _ => by
    obtain ⟨l, r, hoperands, rfl⟩ := Condition.resolve_comparison_eq_ok_iff.mp h
    obtain ⟨hop, hfree, hkey, hleft, hright⟩ := hbuilt
    have hmap : left.isMap = false := Value.isMap_of_isKey hkey
    obtain ⟨l₀, hl₀, -, hl⟩ := Predicate.operandsOf_eq_ok_iff.mp hoperands
    obtain ⟨s, hs, hunmarked, rfl⟩ := Predicate.leftOperand_of_isClean hmap hsources.1 hl₀
    have hl : l.IsPathOf (.text s) := by
      cases hl
      rfl
    refine Resolved.isRereadable_comparison hop rfl hkey hoperands hl hunmarked
      (hfree.of_asText? hs) fun l₁ hl₁ hr => ?_
    have hsame : Predicate.leftOperand c none left = .ok l₁ := hl₁
    rw [hl₀] at hsame
    cases hsame
    exact Expr.isRereadable_of_isJson rfl hright hsources.2 hr
  | .quantified op collection body, t, f, hbuilt, hsources, h, hf => by
    obtain ⟨e, u, he, hu, rfl⟩ := Condition.resolve_quantified_eq_ok_iff.mp h
    obtain ⟨hop, hfree, hkey, hcollection, hbody⟩ := hbuilt
    have hentity : e.entity? = none := Predicate.entity?_of_isSchemaless rfl he
    obtain ⟨-, g, -, -, hg, -⟩ := compile_quantified_eq_ok_iff.mp hf
    rw [hentity] at hu hg
    have hagain : u.IsRereadable c {} :=
      Resolved.isRereadable_of_isJson body hbody hsources.2 hu hg
    rcases etext : collection.asText? with - | s
    · exact Resolved.isRereadable_quantified_scalar hop hcollection hkey hfree etext he hagain
    · have hpath : e.IsPathOf (.text s) := by
        obtain ⟨e₀, hr, rfl⟩ := Predicate.exists_read?_of_collectionOf he
        have hread := Operand.read?_of_isClean (c := c) etext hsources.1
        rw [hread] at hr
        cases hr
        rfl
      refine Resolved.isRereadable_quantified hop rfl hkey he hpath (hsources.1 s etext).2
        (hfree.of_asText? etext) ?_
      rw [hentity]
      exact hagain

theorem Resolved.allRereadable_of_json : ∀ (ss : List Condition) {ts : List Resolved}
    {fs : List Predicate.Test}, Condition.AllBuilt Value.IsJson ss →
      Condition.AllHaveSources Value.IsClean Value.IsRightForm ss →
        Condition.resolveAll c none ss = .ok ts → Resolved.compileAll c default {} ts = .ok fs →
          ss.length = ts.length ∧ Resolved.AllRereadable c {} ts
  | [], ts, _, _, _, h, _ => by
    cases h
    exact ⟨rfl, trivial⟩
  | s :: ss, ts, fs, hbuilt, hsources, h, hfs => by
    obtain ⟨u, us, hu, hus, rfl⟩ := Condition.resolveAll_cons_eq_ok_iff.mp h
    obtain ⟨f, fs', hf, hfs', -⟩ := compileAll_cons_eq_ok_iff.mp hfs
    obtain ⟨hlength, hall⟩ :=
      Resolved.allRereadable_of_json ss hbuilt.2 hsources.2 hus hfs'
    exact ⟨by rw [List.length_cons, List.length_cons, hlength],
      Resolved.isRereadable_of_isJson s hbuilt.1 hsources.1 hu hf, hall⟩

end

end

end RecordFilter
