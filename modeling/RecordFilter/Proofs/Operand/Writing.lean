import RecordFilter.Proofs.Operand.CallRoundTrip
import RecordFilter.Proofs.Predicate.Totality

/-!
# Operands that are written

Every operand that was read has a canonical form. What was read from a text can be written as a text,
however deep its calls are nested (`Operand.exists_argumentForm`), and checking an operand against a
schema does not change how it is written (`Expr.argumentForm_fit`). So what stands on the left of a
comparison is written as a text (`Predicate.exists_leftForm`), the collection of a quantifier as
something that can be a key (`Predicate.exists_collectionForm`), and what stands on the right as a
scalar, as a list or as a map that spells out an operand (`Predicate.exists_rightForm`).

The text of a call ends with a parenthesis, so it is spelled like no operator
(`Value.isUnreserved_of_callText`).
-/

namespace RecordFilter

/-! ### Texts that end with a parenthesis -/

namespace Text

/-- What stands at the end in lower case already stays there. -/
theorem lowerAfter_append {c : CodePoint} (hsmall : lowerPoint c = [c]) (hc : c ≠ 'Σ')
    (before cs : List CodePoint) :
    ∃ front, lowerAfter before (cs ++ [c]) = front ++ [c] := by
  induction cs generalizing before with
  | nil => exact ⟨[], by simp [lowerAfter, hc, hsmall]⟩
  | cons d cs ih =>
    obtain ⟨front, hfront⟩ := ih (d :: before)
    rw [List.cons_append, lowerAfter, hfront, ← List.append_assoc]
    exact ⟨_, rfl⟩

end Text

theorem Spellings.find?_eq_none {φ : Type} {spelling : Text} {spellings : Spellings φ}
    (h : ∀ e ∈ spellings, e.1 ≠ spelling) : spellings.find? spelling = none := by
  induction spellings with
  | nil => rfl
  | cons e rest ih =>
    obtain ⟨s, op⟩ := e
    obtain ⟨hs, hrest⟩ := List.forall_mem_cons.mp h
    rw [Spellings.find?, if_neg hs, ih hrest]

/-- A text that ends with a parenthesis is spelled like no operator. -/
theorem Value.isUnreserved_of_parenthesis (s : Text) : (Value.text (s ++ ")")).IsUnreserved := by
  obtain ⟨front, hfront⟩ := Text.lowerAfter_append (c := ')') rfl (by decide) [] s.points
  have hlower : Text.lower (s ++ ")") = ⟨front ++ [.char ')']⟩ := congrArg Text.mk hfront
  have hlast : ∀ {kind : Text},
      (∀ e ∈ Registry.standard.spellings kind, e.1.points.getLast? ≠ some (.char ')')) →
        Registry.standard.find? kind (.text (s ++ ")")) = none := by
    intro kind hkind
    show (Registry.standard.spellings kind).find? (Text.lower (s ++ ")")) = none
    rw [hlower]
    refine Spellings.find?_eq_none fun e he heq => hkind e he ?_
    rw [heq, List.getLast?_append]
    rfl
  exact ⟨hlast (by decide), hlast (by decide)⟩

section

variable {c : Catalog} {context : Context}

/-- The text of a call is spelled like no operator. -/
theorem Value.isUnreserved_of_callText {f : Function} {args : List Value} {v : Value}
    (h : Expr.callText f args = .ok v) : v.IsUnreserved := by
  unfold Expr.callText at h
  split at h <;> cases h
  exact Value.isUnreserved_of_parenthesis _

/-! ### Checking keeps what is written -/

mutual

theorem Expr.argumentForm_check (schema : Option EntityId) : ∀ e : Expr,
    (e.check c schema).1.argumentForm c context = e.argumentForm c context
  | .literal v type explicit mark => by
    rw [Expr.check]
    split <;> rfl
  | .path p type mark => by
    rw [Expr.check]
    split
    · rfl
    · split <;> rfl
  | .call f args type mark => by
    have hargs := Expr.argumentForms_checkAll schema args
    rw [Expr.check]
    split
    · rfl
    · split
      all_goals
        rename_i heq
        rw [heq] at hargs
        rw [Expr.argumentForm, Expr.argumentForm, hargs]

theorem Expr.argumentForms_checkAll (schema : Option EntityId) : ∀ es : List Expr,
    Expr.argumentForms c context (Expr.checkAll c schema es).1 = Expr.argumentForms c context es
  | [] => rfl
  | e :: es => by
    have he := Expr.argumentForm_check schema e
    have hes := Expr.argumentForms_checkAll schema es
    rw [Expr.checkAll]
    split
    all_goals
      rename_i heq
      rw [heq] at he
    · rw [Expr.argumentForms, Expr.argumentForms, he]
    · rw [Expr.argumentForms, Expr.argumentForms, he, hes]

end

/-- An operand that fits a schema is written as it was before. -/
theorem Expr.argumentForm_fit {schema : Option EntityId} {e e' : Expr}
    (h : e.fit c schema = .ok e') : e'.argumentForm c context = e.argumentForm c context :=
  Expr.eq_of_fit h ▸ Expr.argumentForm_check schema e

/-- A literal that fits a schema was this literal before. -/
theorem Expr.exists_of_fit_literal {schema : Option EntityId} {e : Expr} {v : Value}
    {type : Option TypeRef} {explicit : Bool} {mark : Mark}
    (h : e.fit c schema = .ok (.literal v type explicit mark)) :
    ∃ mark', e = .literal v type explicit mark' := by
  have hcheck : (e.check c schema).1 = .literal v type explicit mark := Expr.eq_of_fit h
  cases e
  case literal =>
    unfold Expr.check at hcheck
    split at hcheck <;> cases hcheck <;> exact ⟨_, rfl⟩
  all_goals
    unfold Expr.check at hcheck
    split at hcheck
    · cases hcheck
    · split at hcheck <;> cases hcheck

/-! ### What is read from a text is written as a text -/

theorem Expr.exists_argumentForm_literal {v : Value} {type : Option DataType} {explicit : Bool}
    {e : Expr} (hv : v.IsJson) (h : Expr.ofValue v type explicit = .ok e) :
    ∃ s, e.argumentForm c context = .ok (.text s) := by
  obtain ⟨w, hw, rfl⟩ := Expr.ofValue_eq_ok_iff.mp h
  have htext : ∃ s, w.toText = .ok s := by
    rcases DataType.isOrdinary_read hv hw with hordinary | ⟨-, d, rfl⟩
    · exact hordinary.exists_toText
    · exact ⟨_, rfl⟩
  obtain ⟨s, hs⟩ := htext
  have hargument : ∃ t, w.asArgument = .ok t := by
    unfold Value.asArgument
    split
    case h_5 =>
      split
      · exact ⟨_, rfl⟩
      · rw [hs]
        exact ⟨_, rfl⟩
    all_goals exact ⟨_, rfl⟩
  obtain ⟨t, ht⟩ := hargument
  exact ⟨t, by rw [Expr.argumentForm, ht]; rfl⟩

theorem Expr.exists_writtenPath (s : Text) :
    ∃ t, Expr.writtenPath c context (.text s) = .ok (.text t) := by
  unfold Expr.writtenPath
  split
  · exact ⟨_, rfl⟩
  · exact ⟨s, rfl⟩

theorem Expr.exists_argumentForms {es : List Expr}
    (h : ∀ e ∈ es, ∃ s, e.argumentForm c context = .ok (.text s)) :
    ∃ ss : List Text, Expr.argumentForms c context es = .ok (ss.map .text) := by
  induction es with
  | nil => exact ⟨[], rfl⟩
  | cons e es ih =>
    obtain ⟨⟨s, hs⟩, hes⟩ := List.forall_mem_cons.mp h
    obtain ⟨ss, hss⟩ := ih hes
    exact ⟨s :: ss, by rw [Expr.argumentForms, hs, ok_bind, hss]; rfl⟩

namespace Operand

variable {place : Place}

theorem exists_argumentForm_bare {cs : List CodePoint} {e : Expr} (h : bare c place cs = .ok e) :
    ∃ s, e.argumentForm c context = .ok (.text s) := by
  rcases bare_eq_ok_cases h with rfl | ⟨v, type, hv, he, -⟩
  · exact Expr.exists_writtenPath _
  · have hjson : v.IsJson := by cases hv <;> trivial
    exact Expr.exists_argumentForm_literal hjson he

variable (context) in
/-- **What is read from a text is written as a text.** -/
theorem exists_argumentForm {l : Linear} {fuel : Nat} {cs : List CodePoint} {e : Expr}
    (h : expression c l fuel place cs = .ok (some e)) :
    ∃ s, e.argumentForm c context = .ok (.text s) := by
  refine expression_byCalls exists_argumentForm_bare (fun f args hargs => ?_) h
  obtain ⟨ss, hss⟩ := Expr.exists_argumentForms hargs
  exact ⟨_, by rw [Expr.argumentForm, hss, ok_bind, Expr.callText_of_texts]⟩

variable (context) in
/-- **What is read from a value other than a map is written as a text**, among the arguments of a
call. -/
theorem exists_argumentForm_of_read? {v : Value} {e : Expr} (hjson : v.IsJson) (hmap : v.isMap = false)
    (h : read? c place v = .ok (some e)) : ∃ t, e.argumentForm c context = .ok (.text t) := by
  rcases read?_eq_some_cases h with ⟨entries, rfl, -⟩ | ⟨-, he⟩ | ⟨s, e₀, -, he₀, hfit⟩
  · cases hmap
  · exact Expr.exists_argumentForm_literal hjson he
  · obtain ⟨t, ht⟩ := exists_argumentForm context he₀
    exact ⟨t, (Expr.argumentForm_fit hfit).trans ht⟩

/-- On the left and as a collection, a text is read from its linear form alone. -/
theorem exists_ofText?_of_read? {schema : Option EntityId} {k : Value} {s : Text} {e : Expr}
    (hk : k.asText? = some s) (h : read? c { schema := schema } k = .ok (some e)) :
    ∃ e₀, ofText? c { schema := schema } s.points = .ok (some e₀) ∧ e₀.fit c schema = .ok e := by
  rcases read?_eq_some_cases h with ⟨entries, rfl, -⟩ | ⟨hnone | hright, -⟩ |
    ⟨s', e₀, hs', he₀, hfit⟩
  · cases hk
  · rw [hk] at hnone
    cases hnone
  · cases hright
  · rw [hk] at hs'
    cases hs'
    exact ⟨e₀, he₀, hfit⟩

/-- On the left and as a collection, a JSON value that is no text but can be a key is a literal. -/
theorem read?_of_scalar {schema : Option EntityId} {k : Value} (hk : k.isKey) (hjson : k.IsJson)
    (htext : k.asText? = none) : read? c { schema := schema } k =
      .ok (some (.literal k (some (.data (DataType.infer k))) false {})) := by
  cases k
  case null | bool | int | double => rfl
  case text => cases htext
  case list => cases hk
  case map => cases hk
  all_goals exact hjson.elim

end Operand

/-! ### Left operands and collections -/

/-- If the operand is a path or a literal, the value in it is spelled like no joining operator and no
negation. -/
def Expr.IsUnreserved : Expr → Prop
  | .literal v _ _ _ => v.IsUnreserved
  | .path p _ _ => p.IsUnreserved
  | .call .. => True

theorem Expr.canonical_eq_argumentForm {e : Expr} (h : ¬ e.IsLiteral) :
    e.canonical c context = e.argumentForm c context := by
  cases e
  case literal => exact (h trivial).elim
  case path => rfl
  case call => rw [Expr.canonical, Expr.argumentForm]

theorem Expr.argumentForm_withType (e : Expr) (type : Option TypeRef) :
    (e.withType type).argumentForm c context = e.argumentForm c context := by
  cases e
  case call => rw [Expr.withType, Expr.argumentForm, Expr.argumentForm]
  all_goals rfl

@[simp] theorem Expr.isLiteral_withType (e : Expr) (type : Option TypeRef) :
    (e.withType type).IsLiteral ↔ e.IsLiteral := by
  cases e <;> exact Iff.rfl

theorem Expr.isUnreserved_argumentForm {e : Expr} {k : Value} (hliteral : ¬ e.IsLiteral)
    (hserver : context.server.truthy = false) (he : e.IsUnreserved)
    (h : e.argumentForm c context = .ok k) : k.IsUnreserved := by
  cases e
  case literal => exact (hliteral trivial).elim
  case path p type mark =>
    have hpath : (Expr.path p type mark).argumentForm c context = .ok p :=
      Expr.canonical_path hserver p type mark
    rw [hpath] at h
    cases h
    exact he
  case call =>
    rw [Expr.argumentForm] at h
    obtain ⟨args, -, h⟩ := bind_eq_ok_iff.mp h
    exact Value.isUnreserved_of_callText h

namespace Predicate

variable {schema : Option EntityId} {k : Value}

/-- **The left operand of a comparison is written as a text.** -/
theorem exists_leftForm {v : Value} {l r : Expr} (hserver : context.server.truthy = false)
    (hk : k.isKey) (hjson : k.IsJson) (h : operandsOf c schema k v = .ok (l, r))
    (hfree : l.IsUnreserved) :
    ∃ s : Text, l.canonical c context = .ok (.text s) ∧ (Value.text s).IsUnreserved := by
  obtain ⟨l₀, hl₀, -, hl⟩ := operandsOf_eq_ok_iff.mp h
  obtain ⟨hread, hliteral₀⟩ := leftOperand_eq_ok_iff.mp hl₀
  obtain ⟨s, hs⟩ := Operand.exists_argumentForm_of_read? context hjson (Value.isMap_of_isKey hk) hread
  -- giving the operand a type does not change how it is written
  have hl : l.argumentForm c context = .ok (.text s) ∧ ¬ l.IsLiteral := by
    cases hl
    split
    · exact ⟨by rw [Expr.argumentForm_withType, hs], by simpa using hliteral₀⟩
    · exact ⟨hs, hliteral₀⟩
  exact ⟨s, (Expr.canonical_eq_argumentForm hl.2).trans hl.1,
    Expr.isUnreserved_argumentForm hl.2 hserver hfree hl.1⟩

/-- Where there is no schema, a literal that is read from a text on the left is a text. -/
theorem exists_text_of_literal (hs : c.isSchemaless schema) {s : Text} {e : Expr} {v : Value}
    {type : Option TypeRef} {explicit : Bool} {mark : Mark}
    (h : Operand.ofText? c { schema := schema } s.points = .ok (some e))
    (hfit : e.fit c schema = .ok (.literal v type explicit mark)) :
    explicit = false ∧ ∃ t, v = .text t := by
  obtain ⟨mark', rfl⟩ := Expr.exists_of_fit_literal hfit
  rcases Operand.expression_eq_ok h with ⟨cs, hcs, -⟩ | ⟨f, args, type, mark, he⟩
  · rw [Operand.bare_of_isSchemaless hs] at hcs
    unfold Operand.bare at hcs
    dsimp only at hcs
    split at hcs
    · obtain ⟨w, hw, he⟩ := Expr.ofValue_eq_ok_iff.mp hcs
      cases hw
      cases he
      exact ⟨rfl, _, rfl⟩
    · cases hcs
  · cases he

/-- The collection of a quantifier is no literal, unless there is no schema. -/
theorem isSchemaless_of_literal {op : Operator} {v : Value} {type : Option TypeRef}
    {explicit : Bool} {mark : Mark}
    (h : collectionOf c schema op k = .ok (.literal v type explicit mark)) :
    c.isSchemaless schema := by
  by_contra hs
  obtain ⟨e₀, hr, he⟩ := exists_read?_of_collectionOf h
  rw [if_neg hs] at he
  subst he
  obtain ⟨⟨t, rfl, -⟩, -⟩ := Operand.isSettled_of_read? hr
  exact misfit?_of_data hs rfl (collectionOf_eq_ok_iff.mp h).2

/-- A literal that is the collection of a quantifier can be a key. -/
theorem isKey_of_literal {op : Operator} {v : Value} {type : Option TypeRef} {explicit : Bool}
    {mark : Mark} (hk : k.isKey) (hjson : k.IsJson)
    (h : collectionOf c schema op k = .ok (.literal v type explicit mark)) :
    explicit = false ∧ v.isKey ∧ v.IsPlain := by
  have hs := isSchemaless_of_literal h
  obtain ⟨e₀, hr, he⟩ := exists_read?_of_collectionOf h
  rw [if_pos hs] at he
  rcases htext : k.asText? with - | s
  · rw [Operand.read?_of_scalar hk hjson htext] at hr
    cases hr
    cases he
    exact ⟨rfl, hk, hjson.isPlain⟩
  · obtain ⟨e₁, hread, hfit⟩ := Operand.exists_ofText?_of_read? htext hr
    cases e₀
    case literal =>
      obtain ⟨rfl, t, rfl⟩ := exists_text_of_literal hs hread hfit
      cases he
      exact ⟨rfl, rfl, trivial⟩
    all_goals cases he

/-- **The collection of a quantifier is written as something that can be a key**, if it is no literal of
which the type is to be spelled out. -/
theorem exists_collectionForm {op : Operator} {e : Expr} (hserver : context.server.truthy = false)
    (hk : k.isKey) (hjson : k.IsJson) (h : collectionOf c schema op k = .ok e)
    (hfree : e.IsUnreserved) (hexplicit : e.IsLiteral → context.explicitType.truthy = false) :
    ∃ k', e.canonical c context = .ok k' ∧ k'.IsPathForm := by
  by_cases hliteral : e.IsLiteral
  · cases e
    case literal v type explicit mark =>
      obtain ⟨rfl, hkey, hplain⟩ := isKey_of_literal hk hjson h
      refine ⟨v, ?_, hkey, hplain, hfree⟩
      rw [Expr.canonical, hexplicit hliteral]
      rfl
    all_goals exact hliteral.elim
  · obtain ⟨e₀, hr, he⟩ := exists_read?_of_collectionOf h
    obtain ⟨s, hs⟩ := Operand.exists_argumentForm_of_read? context hjson
      (Value.isMap_of_isKey hk) hr
    have hform : e.argumentForm c context = .ok (.text s) := by
      rw [he]
      split
      · rw [Expr.argumentForm_withType, hs]
      · exact hs
    exact ⟨.text s, (Expr.canonical_eq_argumentForm hliteral).trans hform,
      Value.isPathForm_text (Expr.isUnreserved_argumentForm hliteral hserver hfree hform)⟩

end Predicate

/-! ### Right operands -/

namespace DataType

/-- No value but a map is read as a map. -/
theorem isMap_of_read {t : DataType} {v w : Value} (hv : v.isMap = false) (h : t.read v = .ok w) :
    w.isMap = false := by
  cases isReading_of_read h with
  | same => exact hv
  | _ => rfl

end DataType

theorem Expr.isMap_of_ofValue {v w : Value} {t : Option DataType} {type : Option TypeRef}
    {explicit explicit' : Bool} {mark : Mark} (hv : v.isMap = false)
    (h : Expr.ofValue v t explicit = .ok (.literal w type explicit' mark)) : w.isMap = false := by
  obtain ⟨w', hw, he⟩ := Expr.ofValue_eq_ok_iff.mp h
  cases he
  exact DataType.isMap_of_read hv hw

/-- The operand is a list that is given as it stands, without its type. -/
def Expr.IsBareList : Expr → Prop
  | .literal (.list _) _ false _ => True
  | _ => False

namespace Operand

variable {place : Place}

theorem isMap_of_bare {cs : List CodePoint} {w : Value} {type : Option TypeRef} {explicit : Bool}
    {mark : Mark} (h : bare c place cs = .ok (.literal w type explicit mark)) : w.isMap = false := by
  rcases bare_eq_ok_cases h with hpath | ⟨v, type, hv, he, -⟩
  · cases hpath
  · have hmap : v.isMap = false := by cases hv <;> rfl
    exact Expr.isMap_of_ofValue hmap he

/-- A literal that is read from a value other than a map has such a value too. -/
theorem isMap_of_read? {v w : Value} {type : Option TypeRef} {explicit : Bool} {mark : Mark}
    (hmap : v.isMap = false) (h : read? c place v = .ok (some (.literal w type explicit mark))) :
    w.isMap = false := by
  rcases read?_eq_some_cases h with ⟨entries, rfl, -⟩ | ⟨-, he⟩ | ⟨s, e₀, -, he₀, hfit⟩
  · cases hmap
  · exact Expr.isMap_of_ofValue hmap he
  · obtain ⟨mark', rfl⟩ := Expr.exists_of_fit_literal hfit
    rcases expression_eq_ok he₀ with ⟨cs, hcs, -⟩ | ⟨f, args, type, mark, he⟩
    · exact isMap_of_bare hcs
    · cases he

end Operand

/-- **The right operand of a comparison is written** as a scalar, as a map that spells out an operand, or
as a list. It is written as a list only if it is one that is given as it stands. -/
theorem Predicate.exists_rightForm {schema : Option EntityId} {l r : Expr} {v : Value}
    (hserver : context.server.truthy = false) (hjson : v.IsJson)
    (h : rightOperand c schema l v = .ok r) :
    ∃ w, r.canonicalRight c context = .ok w ∧ w.IsPlain ∧ (w.isMap → Filter.isWrapper w) ∧
      ∀ vs, w = .list vs → r.IsBareList ∧ context.explicitType.truthy = false := by
  have hread := rightOperand_eq_ok_iff.mp h
  have hplain := rightOperand_isPlain hjson.isPlain h
  have hright : ∀ {w : Value}, w.IsRightForm → w.IsPlain ∧ (w.isMap → Filter.isWrapper w) ∧
      ∀ vs, w = .list vs → r.IsBareList ∧ context.explicitType.truthy = false :=
    fun hw => ⟨hw.isPlain, hw.isWrapper, fun vs hvs => (hw.not_list vs hvs).elim⟩
  cases r
  case literal w type explicit mark =>
    obtain ⟨⟨t, rfl, -⟩, -⟩ := Operand.isSettled_of_read? hread
    by_cases hexplicit : explicit || context.explicitType.truthy
    · exact ⟨_, Expr.canonicalRight_literal hexplicit,
        hright (Value.isRightForm_literalForm hplain.1 t)⟩
    · have hwritten : (Expr.literal w (some (.data t)) explicit mark).canonicalRight c context = .ok w := by
        unfold Expr.canonicalRight
        rw [Expr.canonical, if_neg hexplicit]
        rfl
      simp only [Bool.or_eq_true, not_or, Bool.not_eq_true] at hexplicit
      obtain ⟨rfl, hcontext⟩ := hexplicit
      -- a literal that a map spells out has its type beside it
      have hmap : w.isMap = false := by
        rcases hv : v.isMap
        · exact Operand.isMap_of_read? hv hread
        · exact (Bool.false_ne_true (Operand.isSpelledOut_of_isMap hv hread)).elim
      refine ⟨w, hwritten, hplain.1, fun hw => ?_, ?_⟩
      · rw [hmap] at hw
        cases hw
      · rintro vs rfl
        exact ⟨trivial, hcontext⟩
  case path p type mark =>
    exact ⟨_, Expr.canonicalRight_path hserver rfl, hright (Value.isRightForm_propertyForm hplain.1)⟩
  case call f args type mark =>
    have hmap : v.isMap = false := by
      rcases hv : v.isMap
      · rfl
      · exact (Operand.isSpelledOut_of_isMap hv hread).elim
    obtain ⟨s, hs⟩ := Operand.exists_argumentForm_of_read? context hjson hmap hread
    have hwritten : (Expr.call f args type mark).canonicalRight c context = .ok (.text s) := by
      unfold Expr.canonicalRight
      rw [Expr.canonical_eq_argumentForm id, hs]
      rfl
    exact ⟨.text s, hwritten, hright ⟨trivial, (fun _ h => by cases h), (fun h => by cases h)⟩⟩

end

end RecordFilter
