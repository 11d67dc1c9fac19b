import RecordFilter.Proofs.Predicate.RoundTrip

/-!
# Round trips with bare literals under a schema

Under a schema what a text on the right of a comparison means depends on the text: it is a property if
it names one, and otherwise it may be a call or a literal, in quotes or not. In canonical form a
literal is written as its value alone, and the quotes that made it one are gone. So the round trip
keeps a condition if each bare literal in it is read as itself (`Predicate.kept_round_trip`), as clean
texts are that name no property (`Expr.isKeptBare_of_isLiteralForm`). A literal that is spelled like a
property becomes this property (`Predicate.literal_read_as_property`).
-/

namespace RecordFilter

/-! ### Values that are read as literals -/

/-- On the right of a comparison under the schema, the bare value is read as a literal: it is neither a
map nor a list, and if it is a text and there is a schema, it has no blanks at its ends, holds no
quotes, parentheses and marks, and names no property. -/
structure Value.IsLiteralForm (c : Catalog) (schema : Option EntityId) (v : Value) : Prop where
  not_map : v.isMap = false
  not_list : ∀ vs, v ≠ .list vs
  text : ∀ entity, schema = some entity → c.isSchemaless schema = false → ∀ s, v.asText? = some s →
    v = .text s ∧ Text.trim s = s ∧ s.IsUnmarked ∧
      (Operand.isName s.points = true → c.property? entity s = none)

section

variable {c : Catalog} {schema : Option EntityId}

theorem Value.IsLiteralForm.isRightForm {v : Value} (h : v.IsLiteralForm c schema) (hv : v.IsPlain) :
    v.IsRightForm :=
  ⟨hv, h.not_list, fun hmap => by rw [h.not_map] at hmap; cases hmap⟩

/-- A clean text that names no property is read as the literal that it is. -/
theorem Operand.ofText?_of_isLiteralForm {entity : EntityId} {place : Operand.Place} {s : Text}
    (hplace : place.schema = some entity) (hright : place.isRight = true)
    (hargument : place.isArgument = false) (hschema : c.isSchemaless place.schema = false)
    (htrim : Text.trim s = s) (hunmarked : s.IsUnmarked)
    (hname : Operand.isName s.points = true → c.property? entity s = none) :
    Operand.ofText? c place s.points = (Expr.ofValue (.text s) place.hint false).map some := by
  have hpoints : Text.trimPoints s.points = s.points := congrArg Text.points htrim
  have hpath : (Operand.isName s.points && ((c.property? entity (Text.mk s.points)).isSome ||
      !(place.isRight || place.isArgument))) = false := by
    rw [hright, Bool.true_or, Bool.not_true, Bool.or_false, Bool.and_eq_false_iff]
    rcases h : Operand.isName s.points
    · exact .inl rfl
    · have hnone : c.property? entity (Text.mk s.points) = none := hname h
      rw [hnone]
      exact .inr rfl
  rw [Operand.ofText?_of_isUnmarked c place hunmarked, hpoints]
  unfold Operand.bare
  rw [Operand.quotedInside?_of_isUnmarked hunmarked]
  dsimp only
  rw [hplace] at hschema ⊢
  dsimp only
  rw [hschema, hpath, hargument]
  rfl

/-- A value in the form of a literal is read as this literal. -/
theorem Predicate.rightOperand_of_isLiteralForm {l e : Expr} {v : Value} (hv : v.IsLiteralForm c schema)
    (h : Expr.ofValue v (hintOf l) false = .ok e) :
    ∃ e', rightOperand c schema l v = .ok e' ∧ e'.stripped = e.stripped := by
  have hread : ∀ {e' : Expr},
      Operand.read? c { schema, isRight := true, hint := hintOf l } v = .ok (some e') →
        rightOperand c schema l v = .ok e' := rightOperand_eq_ok_iff.mpr
  rcases etext : v.asText? with - | s
  · refine ⟨e, hread ?_, rfl⟩
    rw [Operand.read?_of_not_text etext hv.not_map, h]
    rfl
  · rcases hschema : c.isSchemaless schema
    · cases schema with
      | none => cases hschema
      | some entity =>
        obtain ⟨rfl, htrim, hunmarked, hname⟩ := hv.text entity rfl hschema s etext
        obtain ⟨w, hw, rfl⟩ := Expr.ofValue_eq_ok_iff.mp h
        have hofText : Operand.ofText? c { schema := some entity, isRight := true, hint := hintOf l }
            s.points = (Expr.ofValue (.text s) (hintOf l) false).map some :=
          Operand.ofText?_of_isLiteralForm rfl rfl rfl hschema htrim hunmarked hname
        rw [h] at hofText
        have hfit : rightOperand c (some entity) l (.text s) = .ok (.literal w
            (some (.data ((hintOf l).getD (DataType.infer (.text s))))) false
            (Mark.after (some entity) {})) := by
          refine hread ?_
          rw [Operand.read?_of_ofText? hofText etext (.inr hschema)]
          rfl
        exact ⟨_, hfit, rfl⟩
    · have hvalue : Operand.read? c { schema, isRight := true, hint := hintOf l } v =
          (Expr.ofValue v (hintOf l) false).map some :=
        Operand.read?_of_schemaless_right etext rfl hschema
      refine ⟨e, hread ?_, rfl⟩
      rw [hvalue, h]
      rfl

end

/-! ### Bare literals that are kept -/

/-- A literal on the right of a path is kept when it is written as its value alone: the comparison of
the path with this value has the same literal on the right. -/
def Expr.IsKeptBare (c : Catalog) (schema : Option EntityId) : Expr → Expr → Prop
  | .path p _ _, .literal v type false _ =>
    v.IsRightForm ∧ ∃ l r, Predicate.operandsOf c schema p v = .ok (l, r) ∧
      r.stripped = .literal v type false {}
  | _, _ => True

section

variable {c : Catalog}

/-- Under a schema a path on the left has the type of its property and takes none from the right
operand. -/
theorem Predicate.left_of_operandsOf {schema : Option EntityId} {k v : Value} {l₀ l r : Expr}
    (hschema : c.isSchemaless schema = false) (hl₀ : leftOperand c schema k = .ok l₀)
    (hoperands : operandsOf c schema k v = .ok (l, r)) {s : Text} (hl : l.IsPathOf (.text s)) :
    l = l₀ := by
  obtain ⟨-, rfl⟩ := (operandsOf_of_leftOperand hl₀).mp hoperands
  have hpath : l₀.IsPathOf (.text s) := by
    cases l₀ <;> split at hl <;> exact hl
  have htype : l₀.type ≠ none := Expr.type_of_fit_path hschema
    ((Operand.isSettled_of_read? (leftOperand_eq_ok_iff.mp hl₀).1).2 _ hpath)
  rw [Option.isNone_eq_false_iff.mpr (Option.isSome_iff_ne_none.mpr htype)]
  rfl

/-- The path on the left, as it stands after reading, is read from its text as the operand that it
was before. -/
theorem Predicate.leftOperand_of_operandsOf {schema : Option EntityId} {k v : Value} {l r : Expr}
    {s : Text} (hk : k.isKey) (hoperands : operandsOf c schema k v = .ok (l, r))
    (hl : l.IsPathOf (.text s)) (hs : s.IsUnmarked) :
    ∃ l₀, leftOperand c schema k = .ok l₀ ∧ leftOperand c schema (.text s) = .ok l₀ ∧
      rightOperand c schema l₀ v = .ok r := by
  obtain ⟨l₀, hl₀, hr₀, rfl⟩ := operandsOf_eq_ok_iff.mp hoperands
  have hpath : l₀.IsPathOf (.text s) := by
    cases l₀ <;> split at hl <;> exact hl
  exact ⟨l₀, hl₀, leftOperand_of_path hk hl₀ hpath hs, hr₀⟩

/-- **A bare literal in the form of one is kept**, if its type is the one inferred from its value
wherever the left operand does not give it. -/
theorem Expr.isKeptBare_of_isLiteralForm {schema : Option EntityId} {k v w : Value} {l : Expr}
    {type : Option TypeRef} {mark : Mark} (hk : k.isKey) (hv : v.IsPlain)
    (hoperands : Predicate.operandsOf c schema k v = .ok (l, .literal w type false mark))
    (hl : l.IsOrdinaryPath) (hform : w.IsLiteralForm c schema)
    (hinfer : c.isSchemaless schema = true ∨ Predicate.hintOf l = none →
      type = some (.data (DataType.infer w))) :
    Expr.IsKeptBare c schema l (.literal w type false mark) := by
  obtain ⟨s, hpath, hs, -⟩ := hl
  obtain ⟨l₀, hl₀, hagain, hr⟩ := Predicate.leftOperand_of_operandsOf hk hoperands hpath hs
  obtain ⟨⟨t, rfl, hread⟩, -⟩ := Operand.isSettled_of_read? (Predicate.rightOperand_eq_ok_iff.mp hr)
  -- The left operand gives the literal its type a second time, or the value does.
  have htype : (Predicate.hintOf l₀).getD (DataType.infer w) = t := by
    rcases hhint : Predicate.hintOf l₀ with - | t'
    · have hnone : c.isSchemaless schema = true ∨ Predicate.hintOf l = none := by
        rcases hschema : c.isSchemaless schema
        · rw [Predicate.left_of_operandsOf hschema hl₀ hoperands hpath]
          exact .inr hhint
        · exact .inl rfl
      cases hinfer hnone
      rfl
    · have hbare := Operand.isBareOf_of_read? rfl hhint (Predicate.rightOperand_eq_ok_iff.mp hr)
      cases hbare
      rfl
  have hvalue : Expr.ofValue w (Predicate.hintOf l₀) false =
      .ok (.literal w (some (.data t)) false {}) :=
    Expr.ofValue_eq_ok_iff.mpr ⟨w, by rw [htype]; exact hread, by rw [htype]⟩
  obtain ⟨r', hr', hstripped⟩ := Predicate.rightOperand_of_isLiteralForm hform hvalue
  have hright : w.IsRightForm := hform.isRightForm (Predicate.rightOperand_isPlain hv hr).1
  cases l with
  | path =>
    cases hpath
    have hbareOperands : Predicate.operandsOf c schema (.text s) w =
        .ok (if l₀.type.isNone then l₀.withType r'.type else l₀, r') :=
      (Predicate.operandsOf_of_leftOperand hagain).mpr ⟨hr', rfl⟩
    exact ⟨hright, _, r', hbareOperands, hstripped⟩
  | _ => cases hpath

/-- A right operand can be read again where literals are written bare, if it is kept. -/
theorem Expr.isRereadable_of_isKeptBare {context : Context} {k v : Value} {l₀ l r : Expr}
    (hserver : context.server.truthy = false) (hbare : context.explicitType.truthy = false)
    (hk : k.isKey) (hv : v.IsPlain) (hl₀ : Predicate.leftOperand c context.schema k = .ok l₀)
    (hr : Predicate.rightOperand c context.schema l₀ v = .ok r)
    (hoperands : Predicate.operandsOf c context.schema k v = .ok (l, r)) (hl : l.IsOrdinaryPath)
    (hkind : r.IsLiteralOrPath) (hkept : Expr.IsKeptBare c context.schema l r) :
    Expr.IsRereadable c context l₀ r := by
  cases r with
  | call => exact hkind.elim
  | path => exact Expr.isRereadable_of_isSpelledOut hserver hv hr (.inl trivial)
  | literal w type explicit mark =>
    cases explicit with
    | true => exact Expr.isRereadable_of_isSpelledOut hserver hv hr (.inl rfl)
    | false =>
      obtain ⟨s, hpath, hs, -⟩ := hl
      obtain ⟨l₁, hl₁, hagain, -⟩ := Predicate.leftOperand_of_operandsOf hk hoperands hpath hs
      rw [hl₀] at hl₁
      cases hl₁
      cases l with
      | path =>
        cases hpath
        obtain ⟨hform, l', r', hread, hstripped⟩ := hkept
        obtain ⟨hr'', rfl⟩ := (Predicate.operandsOf_of_leftOperand hagain).mp hread
        have hwritten : (Expr.literal w type false mark).canonical c context = .ok w := by
          rw [Expr.canonical, hbare]
          rfl
        refine ⟨w, ?_, hform, r', hr'', hstripped⟩
        unfold Expr.canonicalRight
        rw [hwritten]
        rfl
      | _ => cases hpath

variable {default : Except Fault TextPolicy} {p : Predicate} {notes : Notes} {t : Resolved}

variable (default) in
/-- **Round trip under a schema, with bare literals.** Take a predicate that is read from a value
without nodes and is valid under a schema, where its left operands and collections are ordinary paths
and its right operands are paths, literals whose type is spelled out and bare literals that are kept.
Its canonical form is read as a predicate that is valid as well and has the same comparisons. It
compiles if the first one does, and on every record that is quiet for the first both give the same
truth value. -/
theorem Predicate.kept_round_trip {schema : Option EntityId} {f : Value} {b b₁ : Builder}
    {notes₁ : Notes} (hplain : f.IsPlain)
    (hread : outcome (Filter.readArguments [f]) b = (.ok (some p), b₁)) (hblank : notes.Blank b.next)
    (hvalidate : outcome ((Node.predicate p).validate c schema) notes = (.ok (), notes₁))
    (ht : p.resolvedIn notes₁ = some t) (hpaths : t.IsPathwise)
    (hkept : t.EachComparison (Expr.IsKeptBare c) schema) :
    p.RoundTrips c default schema (.ofSchema schema) t notes₁ b₁ := by
  obtain ⟨hp, hblank₁, t', hready, -⟩ :=
    Predicate.ready_of_read Filter.hereditary_isPlain (fun _ h => h) hplain hread hblank hvalidate
  have hsame := hready.held.resolvedIn
  rw [ht] at hsame
  cases hsame
  have hagain : t.IsRereadable c (({} : Context).withSchema schema) := by
    refine Resolved.isRereadable_of_right rfl ?_ p.condition hp.isBuilt hready.resolve hpaths hkept
    intro scope k v l₀ l r hk hv hl₀ hr hoperands hl hkind hkept
    exact Expr.isRereadable_of_isKeptBare rfl rfl hk hv hl₀ hr hoperands hl hkind hkept
  exact Predicate.Ready.roundTrips default hp.isPlain hready (Context.ofSource_ofSchema schema) rfl
    hagain hblank₁ fun id hid => (hp.range id hid).2

/-- The entity type of an order with the city and the name of where it goes. -/
def shipping : Catalog :=
  [⟨.text "Order", [⟨"city", .data .string⟩, ⟨"name", .data .string⟩], false, none, .same⟩]

theorem Predicate.kept_round_trip_of_text :
    let f : Value := .map [(.text "city", .text "Rio")]
    let eq : Operator := ⟨.text "eq", ["==", "=", "equals"], false⟩
    let p : Predicate := .comparison 0 eq (.text "city") (.text "Rio")
    let left : Expr := .path (.text "city") (some (.data .string)) (Mark.after (some 0) {})
    let right : Expr := .literal (.text "Rio") (some (.data .string)) false (Mark.after (some 0) {})
    let t : Resolved := .comparison eq left right
    outcome (Filter.readArguments [f]) {} = (.ok (some p), ⟨1, []⟩) ∧
      ∃ notes₁, outcome ((Node.predicate p).validate shipping (some 0)) [] = (.ok (), notes₁) ∧
        p.RoundTrips shipping (.ok {}) (some 0) (.entity 0) t notes₁ ⟨1, []⟩ := by
  intro f eq p left right t
  have hread : outcome (Filter.readArguments [f]) {} = (.ok (some p), ⟨1, []⟩) := rfl
  have hplain : f.IsPlain := by
    simp [f, Value.IsPlain, Value.PlainEntries, Value.isKey]
  have hp : p.IsPlain := by
    simp [p, eq, Predicate.IsPlain, Operator.IsPlain]
  have hblank : Notes.Blank [] 0 := fun _ _ => rfl
  obtain ⟨notes₁, hvalidate, hready⟩ := Predicate.validate_of_resolve [] hp
    (by simp [p, Predicate.labels]) (hblank.on_unmarked fun _ _ => Nat.zero_le _)
    (show p.condition.resolve shipping (some 0) = .ok t by rfl)
  have hpaths : t.IsPathwise :=
    ⟨⟨"city", rfl, by unfold Text.IsUnmarked; decide, rfl, rfl⟩, trivial⟩
  have hoperands : Predicate.operandsOf shipping (some 0) (.text "city") (.text "Rio") =
      .ok (left, right) := by rfl
  have hvalue : (Value.text "Rio").IsPlain := trivial
  have hform : Value.IsLiteralForm shipping (some 0) (.text "Rio") := by
    refine ⟨rfl, (fun _ h => by cases h), ?_⟩
    rintro entity ⟨⟩ - s ⟨⟩
    exact ⟨rfl, rfl, by unfold Text.IsUnmarked; decide, fun _ => rfl⟩
  have hkept : t.EachComparison (Expr.IsKeptBare shipping) (some 0) :=
    Expr.isKeptBare_of_isLiteralForm rfl hvalue hoperands hpaths.1 hform fun _ => rfl
  exact ⟨hread, notes₁, hvalidate, Predicate.kept_round_trip (.ok {}) hplain hread hblank hvalidate
    hready.held.resolvedIn hpaths hkept⟩

/-- In quotes the name of a property is a literal. -/
theorem Operand.quoted_name_is_literal (place : Operand.Place) :
    Operand.ofText? shipping { place with hint := some .string } (Text.points "'name'") =
      .ok (some (.literal (.text "name") (some (.data .string)) false {})) := by
  have hlinear : Operand.Linear.ofText (Text.points "'name'") =
      ⟨Text.points "¾0¾", [], [Text.points "'name'"]⟩ := by rfl
  unfold Operand.ofText?
  rw [hlinear]
  rfl

/-- On the right of the city the name of a property in quotes is a text. -/
theorem Predicate.operandsOf_quoted_name :
    Predicate.operandsOf shipping (some 0) (.text "city") (.text "'name'") =
      .ok (.path (.text "city") (some (.data .string)) (Mark.after (some 0) {}),
        .literal (.text "name") (some (.data .string)) false (Mark.after (some 0) {})) := by
  let l : Expr := .path (.text "city") (some (.data .string)) (Mark.after (some 0) {})
  have hleft : Predicate.leftOperand shipping (some 0) (.text "city") = .ok l := by rfl
  have hright : Predicate.rightOperand shipping (some 0) l (.text "'name'") =
      .ok (.literal (.text "name") (some (.data .string)) false (Mark.after (some 0) {})) := by
    have hread := Operand.quoted_name_is_literal { schema := some 0, isRight := true }
    have hschema : shipping.isSchemaless (some 0) = false := rfl
    have hhint : Predicate.hintOf l = some .string := rfl
    refine Predicate.rightOperand_eq_ok_iff.mpr ?_
    rw [hhint, Operand.read?_of_ofText? hread rfl (.inr hschema)]
    rfl
  exact (Predicate.operandsOf_of_leftOperand hleft).mpr ⟨hright, rfl⟩

/-- **A literal that is spelled like a property becomes the property**: the quotes that made it a
literal are not written. Orders that go to a city with the name `name` are no longer found. -/
theorem Predicate.literal_read_as_property :
    let eq : Operator := ⟨.text "eq", ["==", "=", "equals"], false⟩
    let f : Value := .map [(.text "city", .text "'name'")]
    let v : Value := .map [(.text "city", .text "name")]
    let p : Predicate := .comparison 0 eq (.text "city") (.text "'name'")
    let q : Predicate := .comparison 1 eq (.text "city") (.text "name")
    let left : Expr := .path (.text "city") (some (.data .string)) {}
    let record : Value := .map [(.text "city", .text "name"), (.text "name", .text "X")]
    outcome (Filter.readArguments [f]) {} = (.ok (some p), ⟨1, []⟩) ∧
      outcome (Filter.readArguments [v]) ⟨1, []⟩ = (.ok (some q), ⟨2, []⟩) ∧
        ∃ notes₁ notes₂ notes₃ notes₄ notes₅ t u program program',
          outcome ((Node.predicate p).validate shipping (some 0)) [] = (.ok (), notes₁) ∧
            p.resolvedIn notes₁ = some t ∧
            t.comparisons = {(eq, left, .literal (.text "name") (some (.data .string)) false {})} ∧
            outcome ((Node.predicate p).toCanonical shipping (.entity 0)) notes₁ = (.ok v, notes₂) ∧
            outcome ((Node.predicate q).validate shipping (some 0)) notes₂ = (.ok (), notes₃) ∧
            q.resolvedIn notes₃ = some u ∧
            u.comparisons = {(eq, left, .path (.text "name") (some (.data .string)) {})} ∧
            outcome ((Node.predicate p).compile shipping (.ok {}) (.entity 0)) notes₃ =
              (.ok program, notes₄) ∧
            outcome ((Node.predicate q).compile shipping (.ok {}) (.entity 0)) notes₄ =
              (.ok program', notes₅) ∧
            program.IsQuiet record ∧ program.Returns record (.bool true) ∧
              program'.Returns record (.bool false) := by
  intro eq f v p q left record
  let mark : Mark := Mark.after (some 0) {}
  let l : Expr := .path (.text "city") (some (.data .string)) mark
  let t : Resolved :=
    .comparison eq l (.literal (.text "name") (some (.data .string)) false mark)
  let u : Resolved := .comparison eq l (.path (.text "name") (some (.data .string)) mark)
  have hp : p.IsPlain := by
    simp [p, eq, Predicate.IsPlain, Operator.IsPlain]
  have hq : q.IsPlain := by
    simp [q, eq, Predicate.IsPlain, Operator.IsPlain]
  have ht : p.condition.resolve shipping (some 0) = .ok t := by
    unfold p Predicate.condition Condition.resolve
    rw [Predicate.operandsOf_quoted_name]
    rfl
  have hu : q.condition.resolve shipping (some 0) = .ok u := by rfl
  let context : Context := { schema := some 0 }
  have hsource : Context.ofSource (.entity 0) = .ok context := rfl
  have hblank : Notes.Blank [] 1 := fun _ _ => rfl
  have hpLabels : ∀ id : Nat, id ∈ p.labels → id < 1 := by simp [p, Predicate.labels]
  have hqLabels : ∀ id : Nat, id ∈ q.labels → 1 ≤ id := by simp [q, Predicate.labels]
  -- The first predicate is checked and written.
  obtain ⟨notes₁, hvalidate, hready⟩ := Predicate.validate_of_resolve [] hp
    (by simp [p, Predicate.labels]) (fun _ _ => Note.unmarked_default) ht
  obtain ⟨notes₂, hvalidate₂, hready₂⟩ := hready.validate hp
  have hcanonical : p.canonical shipping notes₂ { schema := some 0 } = .ok v := by
    rw [Predicate.canonical_of_resolvedIn shipping notes₂ _ p hready₂.held.resolvedIn]
    rfl
  have hwritten := Node.toCanonical_ok_iff.mpr
    (⟨{ schema := some 0 }, hsource, hvalidate₂, hcanonical⟩ : ∃ context, _)
  -- The second one is new, and checking it leaves the first one alone.
  have hblank₂ : notes₂.Blank 1 :=
    (hblank.validate hp hpLabels hvalidate).validate hp hpLabels hvalidate₂
  obtain ⟨notes₃, hqvalidate, hqready⟩ := Predicate.validate_of_resolve notes₂ hq
    (by simp [q, Predicate.labels]) (hblank₂.on_unmarked hqLabels) hu
  have hready₃ : p.Ready shipping (some 0) notes₃ t :=
    hready₂.validate_other hq hqvalidate fun id hid hmem =>
      absurd (hpLabels id hid) (Nat.not_lt.mpr (hqLabels id hmem))
  have htest : ∃ test, t.compile shipping (.ok {}) context = .ok test ∧
      test record = .ok true := ⟨_, rfl, rfl⟩
  have htest' : ∃ test, u.compile shipping (.ok {}) context = .ok test ∧
      test record = .ok false := ⟨_, rfl, rfl⟩
  obtain ⟨test, htest, htrue⟩ := htest
  obtain ⟨test', htest', hfalse⟩ := htest'
  -- Both are compiled, one after the other.
  have hpvalid : p.Validates shipping context.schema notes₃ t := hready₃.validate hp
  obtain ⟨program, notes₄, hcompile⟩ := (hpvalid.compile_iff hsource).mpr ⟨test, htest⟩
  obtain ⟨used, hused, hvalidate₄, -, -⟩ := Predicate.compile_ok hcompile
  rw [hsource] at hused
  cases hused
  have hqready₄ : q.Ready shipping (some 0) notes₄ u :=
    hqready.validate_other hp hvalidate₄ fun id hid hmem =>
      absurd (hpLabels id hmem) (Nat.not_lt.mpr (hqLabels id hid))
  have hqvalid : q.Validates shipping context.schema notes₄ u := hqready₄.validate hq
  obtain ⟨program', notes₅, hcompile'⟩ := (hqvalid.compile_iff hsource).mpr ⟨test', htest'⟩
  obtain ⟨f, hf, hready₅, rfl, hreturns⟩ := hpvalid.program hp hsource hcompile
  obtain ⟨f', hf', -, -, hreturns'⟩ := hqvalid.program hq hsource hcompile'
  have hsame : f = test := Except.ok.inj (hf.symm.trans htest)
  have hsame' : f' = test' := Except.ok.inj (hf'.symm.trans htest')
  refine ⟨rfl, rfl, notes₁, notes₂, notes₃, notes₄, notes₅, t, u, _, program', hvalidate,
    hready.held.resolvedIn, rfl, hwritten, hqvalidate, hqready.held.resolvedIn, rfl, hcompile, hcompile',
    ⟨p, t, rfl, hready₅.held.resolvedIn, true, rfl⟩, hreturns record true ?_,
    hreturns' record false ?_⟩
  · rw [hsame, htrue]
  · rw [hsame', hfalse]

end

end RecordFilter
