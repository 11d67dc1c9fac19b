import RecordFilter.Proofs.Filter.Joining
import RecordFilter.Proofs.Operand.MarkedNumbers
import RecordFilter.Proofs.Operand.Rereading
import RecordFilter.Proofs.Operand.Typing
import RecordFilter.Proofs.Predicate.FirstUse

/-!
# Names of properties

A schema takes any text for the name of a property, but on the left of a comparison a text is looked up
in the schema only if it has the form of a name (`Operand.isName`): a letter of ASCII or an underscore,
then letters and digits of any script, underscores, dots and dollar signs. Any other text is a literal
there, which cannot be compared with anything, whatever properties there are.

`Filter.property_is_compared_iff_isName` says so of the plainest filter on a property, the one that asks
whether it is absent: the filter is accepted, and its left operand is the property with its type, exactly
if the path of the property has the form of a name.
-/

namespace RecordFilter

section

variable {c : Catalog} {entity : EntityId} {path : Text} {property : Property}

/-! ### Left operands -/

/-- What the path of a property is read as on the left, if it stands for itself. -/
theorem Operand.bare_of_property (hreal : ¬ c.isSchemaless (some entity))
    (hproperty : c.property? entity path = some property) (hpath : path.IsUnmarked) :
    Operand.bare c { schema := some entity } path.points =
      if Operand.isName path.points then .ok (.path (.text path) none {})
      else Expr.ofValue (.text path) none false := by
  have hlookup : c.property? entity (Text.mk path.points) = some property := hproperty
  unfold Operand.bare
  rw [Operand.quotedInside?_of_isUnmarked hpath]
  dsimp only
  rw [if_neg hreal, hlookup, Bool.false_and, if_neg Bool.false_ne_true]
  simp only [Option.isSome_some, Bool.true_or, Bool.and_true]
  rfl

/-- The path of a property bears its type once it is checked. -/
theorem Expr.fit_path_of_property (hreal : ¬ c.isSchemaless (some entity))
    (hproperty : c.property? entity path = some property) :
    Expr.fit c (some entity) (.path (.text path) none {}) =
      .ok (.path (.text path) (some property.target.type) (Mark.after (some entity) {})) := by
  have htype : Expr.pathType c entity (.text path) = .ok property.target.type := by
    unfold Expr.pathType
    dsimp only [Value.asText?]
    rw [hproperty]
  have hcheck : Expr.checkPath c (some entity) (.text path) none = .ok (some property.target.type) := by
    unfold Expr.checkPath
    dsimp only
    rw [if_neg hreal, htype]
    rfl
  refine Expr.fit_eq_ok_iff.mpr ?_
  rw [Expr.check, if_neg (Mark.not_isFor_blank entity), hcheck]

/-- **The path of a property is a left operand** exactly if it has the form of a name. -/
theorem Predicate.leftOperand_of_property (hreal : ¬ c.isSchemaless (some entity))
    (hproperty : c.property? entity path = some property) (htrim : Text.trim path = path)
    (hpath : path.IsUnmarked) :
    Predicate.leftOperand c (some entity) (.text path) =
      if Operand.isName path.points then
        .ok (.path (.text path) (some property.target.type) (Mark.after (some entity) {}))
      else .error (.validation (.literalOperand (Value.text path).display)) := by
  have htext : Operand.ofText? c { schema := some entity } path.points =
      (if Operand.isName path.points then Except.ok (Expr.path (.text path) none {})
        else Expr.ofValue (.text path) none false).map some := by
    have hpoints : Text.trimPoints path.points = path.points := congrArg Text.points htrim
    rw [Operand.ofText?_of_isUnmarked c _ hpath, hpoints,
      Operand.bare_of_property hreal hproperty hpath]
  have hread : ∀ {e e' : Expr},
      Operand.ofText? c { schema := some entity } path.points = .ok (some e) →
        e.fit c (some entity) = .ok e' →
          Operand.read? c { schema := some entity } (.text path) = .ok (some e') := by
    intro e e' he hfit
    rw [Operand.read?_of_ofText? he rfl (.inl rfl), hfit]
    rfl
  unfold Predicate.leftOperand
  by_cases hname : Operand.isName path.points
  · rw [if_pos hname] at htext ⊢
    rw [hread htext (Expr.fit_path_of_property hreal hproperty)]
    rfl
  · rw [if_neg hname] at htext ⊢
    rcases hvalue : Expr.ofValue (.text path) none false with fault | e
    · exact (Expr.ofValue_asText_ne_error rfl fault hvalue).elim
    · -- a literal fits every schema, but not on the left
      obtain ⟨w, -, he⟩ := bind_eq_ok_iff.mp hvalue
      cases he
      rw [hvalue] at htext
      rw [hread htext rfl]
      rfl

/-- Nothing is a literal under every type, and fits every schema. -/
theorem Predicate.rightOperand_null (schema : Option EntityId) (left : Expr) :
    ∃ e, Predicate.rightOperand c schema left .null = .ok e := by
  have hread : Operand.read? c { schema, isRight := true, hint := Predicate.hintOf left } .null =
      (Expr.ofValue .null (Predicate.hintOf left) false).map some := rfl
  unfold Predicate.rightOperand
  rw [hread, Expr.ofValue, DataType.read_null]
  exact ⟨_, rfl⟩

end

/-! ### Filters that ask for the absence of a property -/

namespace Filter

/-- The operator that tests for equality. -/
def equality : Operator :=
  ⟨.text "eq", ["==", "=", "equals"], false⟩

/-- The comparison of a path with nothing. -/
def absenceTest (id : Label) (path : Text) : Predicate :=
  .comparison id equality (.text path) .null

/-- The map of a path to nothing is read as a comparison, if the path is no operator. -/
theorem outcome_readArguments_null {path : Text} (hpath : (Value.text path).IsUnreserved) (b : Builder) :
    outcome (readArguments [.map [(.text path, .null)]]) b =
      (.ok (some (absenceTest b.next path)), b.step) := by
  have hequal : readEntry (.text path) .null = equalTo (.text path) .null := by
    rw [readEntry]
    · unfold readScalarEntry
      rw [hpath.logical, hpath.unary]
      rfl
    all_goals rintro _ ⟨⟩
  rw [outcome_readArguments_entry, hequal, equalTo, outcome_bind_of_ok (outcome_resolve comparison?_eq b)]
  rfl

section

variable {c : Catalog} {entity : EntityId} {path : Text} {notes : Notes} {id : Label}

theorem resolve_absenceTest :
    (absenceTest id path).condition.resolve c (some entity) = (do
      let l ← Predicate.leftOperand c (some entity) (.text path)
      let r ← Predicate.rightOperand c (some entity) l .null
      return .comparison equality (if l.type.isNone then l.withType r.type else l) r) := by
  simp only [absenceTest, Predicate.condition, Condition.resolve, Predicate.operandsOf, bind_assoc,
    pure_bind]

theorem agrees_validate_absenceTest (c : Catalog) (entity : EntityId) (path : Text)
    (hon : notes.On Note.Unmarked [id]) :
    Agrees (fun _ t notes' => (absenceTest id path).Ready c (some entity) notes' t)
      ((Node.predicate (absenceTest id path)).validate c (some entity)) notes
      ((absenceTest id path).condition.resolve c (some entity)) :=
  Predicate.agrees_validate ⟨trivial, trivial, trivial⟩ (List.nodup_singleton _) hon

/-- Validation accepts the test of a left operand whose type is known. -/
theorem validate_absenceTest {l : Expr} {type : TypeRef} (hon : notes.On Note.Unmarked [id])
    (htype : l.type = some type) (hleft : Predicate.leftOperand c (some entity) (.text path) = .ok l) :
    ∃ notes', outcome ((Node.predicate (absenceTest id path)).validate c (some entity)) notes =
      (.ok (), notes') ∧ (notes'.note id).left = some l := by
  obtain ⟨r, hr⟩ := Predicate.rightOperand_null (c := c) (some entity) l
  have hresolve : (absenceTest id path).condition.resolve c (some entity) =
      .ok (.comparison equality l r) := by
    rw [resolve_absenceTest, hleft, ok_bind, hr, ok_bind, htype]
    rfl
  have hagrees := agrees_validate_absenceTest c entity path hon
  rw [hresolve] at hagrees
  obtain ⟨⟨⟩, notes', hvalidate, hready⟩ := hagrees
  have hheld := hready.held.resolvedIn
  simp only [absenceTest, Predicate.resolvedIn, Option.bind_eq_bind, Option.bind_eq_some_iff,
    Option.pure_def, Option.some.injEq, Resolved.comparison.injEq] at hheld
  obtain ⟨l', hl, r', -, -, rfl, -⟩ := hheld
  exact ⟨notes', hvalidate, hl⟩

/-- Validation refuses the test where there is no left operand. -/
theorem validate_absenceTest_error {fault : Fault} (hon : notes.On Note.Unmarked [id])
    (hleft : Predicate.leftOperand c (some entity) (.text path) = .error fault) :
    ∃ notes', outcome ((Node.predicate (absenceTest id path)).validate c (some entity)) notes =
      (.error fault, notes') := by
  have hagrees := agrees_validate_absenceTest c entity path hon
  rw [resolve_absenceTest, hleft] at hagrees
  exact hagrees

end

/-- **A property can be filtered on exactly if its path has the form of a name.** Then the filter that
asks whether it is absent is validated, and its left operand is the property with its type. Otherwise the
path is taken for a literal, and validation refuses it. -/
theorem property_is_compared_iff_isName {c : Catalog} {entity : EntityId} {path : Text}
    {property : Property} {b : Builder} {notes : Notes} (hreal : ¬ c.isSchemaless (some entity))
    (hproperty : c.property? entity path = some property) (htrim : Text.trim path = path)
    (hreserved : (Value.text path).IsUnreserved) (hpath : path.IsUnmarked)
    (hblank : notes.Blank b.next) :
    ∃ p, outcome (readArguments [.map [(.text path, .null)]]) b = (.ok (some p), b.step) ∧
      p = absenceTest b.next path ∧
      (Operand.isName path.points → ∃ notes' mark,
        outcome ((Node.predicate p).validate c (some entity)) notes = (.ok (), notes') ∧
          (notes'.note b.next).left = some (.path (.text path) (some property.target.type) mark)) ∧
      (¬ Operand.isName path.points → ∃ notes',
        outcome ((Node.predicate p).validate c (some entity)) notes =
          (.error (.validation (.literalOperand (Value.text path).display)), notes')) := by
  have hleft := Predicate.leftOperand_of_property hreal hproperty htrim hpath
  have hon : notes.On Note.Unmarked [b.next] :=
    hblank.on_unmarked fun id hid => Nat.le_of_eq (List.mem_singleton.mp hid).symm
  refine ⟨_, outcome_readArguments_null hreserved b, rfl, fun hname => ?_, fun hname => ?_⟩
  · rw [if_pos hname] at hleft
    obtain ⟨notes', hvalidate, hnote⟩ := validate_absenceTest hon rfl hleft
    exact ⟨notes', _, hvalidate, hnote⟩
  · rw [if_neg hname] at hleft
    exact validate_absenceTest_error hon hleft

/-- A dotted path has the form of a name. -/
theorem property_is_compared_iff_isName_of_dotted_path :
    let c : Catalog := [⟨.text "Order", [⟨"customer", .navigation 1 true⟩], false, none, .same⟩,
      ⟨.text "Customer", [⟨"name", .data .string⟩], false, none, .same⟩]
    let path : Text := "customer.name"
    ∃ notes' mark,
      outcome ((Node.predicate (absenceTest 0 path)).validate c (some 0)) [] = (.ok (), notes') ∧
        (notes'.note 0).left = some (.path (.text path) (some (.data .string)) mark) := by
  intro c path
  have hpath : path.IsUnmarked := by
    unfold Text.IsUnmarked
    decide
  have hproperty : c.property? 0 path = some ⟨"name", .data .string⟩ := by decide
  have hblank : Notes.Blank [] ({} : Builder).next := fun _ _ => rfl
  obtain ⟨p, -, rfl, hvalid, -⟩ := property_is_compared_iff_isName (by decide) hproperty (by decide)
    ⟨by decide, by decide⟩ hpath hblank
  exact hvalid (by decide)

/-- **A property with a hyphen in its name cannot be filtered on**: `ship-city` is a property of the
schema, and still a literal on the left. -/
theorem hyphenated_property_is_refused :
    ¬ ∀ (c : Catalog) (entity : EntityId) (path name : Text) (t : DataType),
      ¬ c.isSchemaless (some entity) → c.property? entity path = some ⟨name, .data t⟩ →
        Text.trim path = path → (Value.text path).IsUnreserved → path.IsUnmarked →
          ∃ notes', outcome ((Node.predicate (absenceTest 0 path)).validate c (some entity)) [] =
            (.ok (), notes') := by
  intro h
  let c : Catalog := [⟨.text "Order", [⟨"ship-city", .data .string⟩], false, none, .same⟩]
  let path : Text := "ship-city"
  have hreal : ¬ c.isSchemaless (some 0) := by decide
  have hproperty : c.property? 0 path = some ⟨"ship-city", .data .string⟩ := by decide
  have htrim : Text.trim path = path := by decide
  have hpath : path.IsUnmarked := by
    unfold Text.IsUnmarked
    decide
  have hleft := Predicate.leftOperand_of_property hreal hproperty htrim hpath
  rw [if_neg (by decide)] at hleft
  have hon : Notes.On Note.Unmarked [0] [] := fun _ _ => Note.unmarked_default
  obtain ⟨notes', hrefused⟩ := validate_absenceTest_error hon hleft
  obtain ⟨notes'', hvalid⟩ := h c 0 path _ _ hreal hproperty htrim ⟨by decide, by decide⟩ hpath
  rw [hrefused] at hvalid
  cases hvalid

end Filter

end RecordFilter
