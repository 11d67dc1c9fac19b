import RecordFilter.Proofs.Operand.CallRoundTrip
import RecordFilter.Proofs.Operand.Faults
import RecordFilter.Proofs.Predicate.Schemaless

/-!
# Calls under a schema

Whether an argument of a call is a number, a path or a text is decided in two ways. Without a schema a
quoted text is a text, a number is a number, and all else is a path. Under a schema a text in the form of a
name is looked up first, numbers come after that, and all else is a text. The two agree on a call whose
paths have the form of names that lead to properties of the schema (`Expr.LeadsIn`), because no number has
the form of a name (`Operand.not_isName_of_isNumber`).

So such a call is read under the schema as it is read without one, it fits the schema, and its runs are
the same whichever of the two it was checked against (`Operand.schema_agrees_on_call`).
-/

namespace RecordFilter

/-! ### Numbers and names -/

namespace Numeral

theorem plainDigit_of_not_digit {c : Char} (h : Text.isDecimalDigit c = false) : plainDigit c = c := by
  unfold plainDigit
  rcases hvalue : Text.digitValue? c with - | d
  · rfl
  · rw [Text.isDecimalDigit, hvalue] at h
    cases h

/-- What begins with neither a digit nor a point is no numeral. -/
theorem parts?_cons_eq_none {c : Char} {cs : List Char} (hdigit : c.isDigit = false) (hpoint : c ≠ '.') :
    parts? (c :: cs) = none := by
  have hrest : (c :: cs).dropWhile Char.isDigit = c :: cs := by simp [hdigit]
  have hwhole : (c :: cs).takeWhile Char.isDigit = [] := by simp [hdigit]
  unfold parts?
  rw [hrest, hwhole]
  dsimp only
  split
  · rename_i more hpointed
    exact (hpoint (List.cons.inj hpointed).1).elim
  · rfl

theorem sign_cons {c : Char} {cs : List Char} (hplus : c ≠ '+') (hminus : c ≠ '-') :
    sign (c :: cs) = (false, c :: cs) := by
  unfold sign
  split
  · rename_i heq
    exact (hminus (List.cons.inj heq).1).elim
  · rename_i heq
    exact (hplus (List.cons.inj heq).1).elim
  · rfl

end Numeral

namespace Operand

theorem toNat_of_isAlpha {c : Char} (h : c.isAlpha = true) : 65 ≤ c.toNat ∧ c.toNat ≤ 122 := by
  have hbetween : ∀ {low high : UInt32}, low ≤ c.val ∧ c.val ≤ high →
      low.toNat ≤ c.toNat ∧ c.toNat ≤ high.toNat := fun h =>
    ⟨UInt32.le_iff_toNat_le.mp h.1, UInt32.le_iff_toNat_le.mp h.2⟩
  rcases (Bool.or_eq_true _ _).mp h with hupper | hlower
  · have hbounds : 65 ≤ c.toNat ∧ c.toNat ≤ 90 := hbetween (of_decide_eq_true hupper)
    omega
  · have hboth := (Bool.and_eq_true _ _).mp hlower
    have hbounds : 97 ≤ c.toNat ∧ c.toNat ≤ 122 :=
      hbetween ⟨of_decide_eq_true hboth.1, of_decide_eq_true hboth.2⟩
    omega

/-- What begins a name begins no number. -/
theorem isNameStart_toChar {c : CodePoint} (h : isNameStart c = true) :
    Text.isDecimalDigit c.toChar = false ∧ c.toChar.isDigit = false ∧ c.toChar ∉ ['.', '+', '-'] := by
  rw [isNameStart, Bool.or_eq_true, Bool.or_eq_true] at h
  rcases h with (h | h) | h
  · have hletter := toNat_of_isAlpha h
    have hdigit : c.toChar.isDigit = false := by
      by_contra hdigit
      have hbounds := (Numeral.digitValue?_of_isDigit (Bool.not_eq_false _ ▸ hdigit)).2
      omega
    refine ⟨?_, hdigit, ?_⟩
    · unfold Text.isDecimalDigit Text.digitValue?
      dsimp only
      rw [if_pos (by omega), hdigit]
      rfl
    · intro hmark
      have hmarks : ∀ d ∈ ['.', '+', '-'], d.toNat < 65 := by simp
      have hsmall := hmarks _ hmark
      omega
  · have hunderscore : c = '_' := by simpa using h
    subst hunderscore
    decide
  · have hcase : c ∈ [0x130, 0x131, 0x17f, 0x212a].map CodePoint.ofNumber := by
      rw [← CodePoint.ofNumber_number c]
      exact List.mem_map_of_mem (List.contains_iff_mem.mp h)
    have hspecial : ∀ d ∈ [0x130, 0x131, 0x17f, 0x212a].map CodePoint.ofNumber,
        Text.isDecimalDigit d.toChar = false ∧ d.toChar.isDigit = false ∧
          d.toChar ∉ ['.', '+', '-'] := by decide
    exact hspecial c hcase

/-- **No number has the form of a name.** -/
theorem not_isName_of_isNumber {cs : List CodePoint} (h : isNumber cs = true) : isName cs = false := by
  rcases cs with - | ⟨c, cs⟩
  · rfl
  · by_contra hname
    have hstart : isNameStart c = true := by
      rw [Bool.not_eq_false, isName, Bool.and_eq_true] at hname
      exact hname.1
    obtain ⟨hdecimal, hdigit, hmark⟩ := isNameStart_toChar hstart
    simp only [List.mem_cons, List.not_mem_nil, or_false, not_or] at hmark
    obtain ⟨hpoint, hplus, hminus⟩ := hmark
    rw [isNumber, List.map_cons, Numeral.plainDigit_of_not_digit hdecimal,
      Numeral.sign_cons hplus hminus, Numeral.parts?_cons_eq_none hdigit hpoint] at h
    cases h

end Operand

/-! ### Calls whose paths lead to properties -/

mutual

/-- The paths in the operand have the form of names and lead to properties of the entity type. -/
def Expr.LeadsIn (c : Catalog) (entity : EntityId) : Expr → Prop
  | .literal .. => True
  | .path p _ _ =>
    ∃ s, p.asText? = some s ∧ Operand.isName s.points ∧ (c.property? entity s).isSome
  | .call _ args _ _ => Expr.AllLeadIn c entity args

/-- The same of several operands. -/
def Expr.AllLeadIn (c : Catalog) (entity : EntityId) : List Expr → Prop
  | [] => True
  | e :: es => Expr.LeadsIn c entity e ∧ Expr.AllLeadIn c entity es

end

namespace Operand

variable {c : Catalog} {entity : EntityId}

/-- An argument is a text if it is quoted, else a number if it has the form of one, and else a path where
there is no schema. -/
theorem bare_argument_schemaless (place : Place) (hargument : place.isArgument = true)
    (hschema : place.schema = none) (cs : List CodePoint) :
    bare c place cs =
      match quotedInside? cs with
      | some inside => Expr.ofValue (Value.ofPoints inside) (some (place.hint.getD .string)) false
      | none =>
        if isNumber cs then Expr.ofValue (numberValue cs) none false
        else .ok (.path (Value.ofPoints cs) none {}) := by
  unfold bare
  rw [hargument, hschema]
  rcases quotedInside? cs with - | inside
  · rcases isNumber cs <;> rfl
  · rfl

/-- Under a schema an argument that is not quoted is a path if it is the name of a property, else a number
if it has the form of one, and else a text. -/
theorem bare_argument_schema (place : Place) (hargument : place.isArgument = true)
    (hschema : place.schema = some entity) (hreal : ¬ c.isSchemaless (some entity))
    (cs : List CodePoint) :
    bare c place cs =
      match quotedInside? cs with
      | some inside => Expr.ofValue (Value.ofPoints inside) (some (place.hint.getD .string)) false
      | none =>
        if isName cs && (c.property? entity (Text.mk cs)).isSome then
          .ok (.path (Value.ofPoints cs) none {})
        else if isNumber cs then Expr.ofValue (numberValue cs) none false
        else Expr.ofValue (Value.ofPoints cs) place.hint false := by
  unfold bare
  rw [hargument, hschema]
  rcases quotedInside? cs with - | inside
  · dsimp only
    rw [if_neg hreal]
    simp only [Bool.or_true, Bool.not_true, Bool.or_false, Bool.true_and]
  · rfl

/-- **An argument without calls is read under the schema as without one**, if it leads to a property when
it is a path. -/
theorem bare_argument_of_leadsIn {place : Place} (hargument : place.isArgument = true)
    (hreal : ¬ c.isSchemaless (some entity)) {cs : List CodePoint} {e : Expr}
    (h : bare c { place with schema := none } cs = .ok e) (he : e.LeadsIn c entity) :
    bare c { place with schema := some entity } cs = .ok e := by
  rw [bare_argument_schemaless { place with schema := none } hargument rfl] at h
  rw [bare_argument_schema { place with schema := some entity } hargument rfl hreal]
  rcases hquoted : quotedInside? cs with - | inside
  · rw [hquoted] at h
    dsimp only at h ⊢
    split at h
    · rename_i hnumber
      rw [not_isName_of_isNumber hnumber, Bool.false_and, if_neg Bool.false_ne_true, if_pos hnumber]
      exact h
    · cases h
      obtain ⟨s, hs, hname, hproperty⟩ := he
      cases hs
      rw [hname, hproperty]
      rfl
  · rw [hquoted] at h
    exact h

/-- Operands that are read one by one in one way are read so in another way, if each of them is. -/
theorem readAll_of_leadsIn {read read' : List CodePoint → Except Fault (Option Expr)}
    (hread : ∀ {cs e}, read cs = .ok (some e) → e.LeadsIn c entity → read' cs = .ok (some e)) :
    ∀ {texts : List (List CodePoint)} {es : List Expr}, readAll read texts = .ok (some es) →
      Expr.AllLeadIn c entity es → readAll read' texts = .ok (some es)
  | [], es, h, _ => h
  | cs :: rest, es, h, hes => by
    obtain ⟨e, es', rfl, he, hrest⟩ := readAll_cons_eq_some_iff.mp h
    exact readAll_cons (hread he hes.1) (readAll_of_leadsIn hread hrest hes.2)

/-- What a text with a group is read to, if all in it is read. -/
theorem expression_eq_call {l : Linear} {fuel : Nat} {place : Place} {cs name index : List CodePoint}
    {rest texts : List (List CodePoint)} {args : List Expr} {f : Function}
    (hsplit : Text.split groupMark cs = name :: index :: rest)
    (htexts : argumentTexts l index = .ok texts)
    (hargs : readAll (expression c l fuel place.argument) texts = .ok (some args))
    (hf : Function.ofName? (Text.mk (Text.trimPoints name)) = some f) :
    expression c l (fuel + 1) place cs = .ok (some (.call f args (some (.data f.resultType)) {})) := by
  have hcall : callOf? name args = some (.call f args (some (.data f.resultType)) {}) := by
    rw [callOf?, hf]
    rfl
  rw [expression_succ hsplit, htexts, ok_bind, hargs, ok_bind, Option.bind_some, hcall]
  rfl

/-- **An argument is read under the schema as without one**, at whatever depth calls are nested. -/
theorem expression_argument_of_leadsIn {l : Linear} (hreal : ¬ c.isSchemaless (some entity))
    {fuel : Nat} (place : Place) {cs : List CodePoint} {e : Expr} (hargument : place.isArgument = true)
    (h : expression c l fuel { place with schema := none } cs = .ok (some e))
    (he : e.LeadsIn c entity) :
    expression c l fuel { place with schema := some entity } cs = .ok (some e) := by
  induction fuel using Nat.strongRecOn generalizing place cs e with
  | _ fuel ih =>
    rcases expression_eq_some_cases h with ⟨hmark, token, htoken, hbare⟩ |
      ⟨less, name, index, rest, texts, args, f, rfl, hsplit, htexts, hargs, hf, rfl⟩
    · obtain ⟨piece, hpiece⟩ := exists_split_eq_singleton hmark
      unfold expression
      rw [hpiece, htoken, ok_bind, bare_argument_of_leadsIn hargument hreal hbare he]
      rfl
    · refine expression_eq_call hsplit htexts (readAll_of_leadsIn ?_ hargs he) hf
      intro cs' e' he' hleads
      exact @ih less (Nat.lt_succ_self less) place.argument cs' e' rfl he' hleads

theorem isLiteralOrPath_of_bare {place : Place} {cs : List CodePoint} {e : Expr}
    (h : bare c place cs = .ok e) : e.IsLiteralOrPath := by
  rcases bare_eq_ok_cases h with rfl | ⟨v, type, -, he, -⟩
  · trivial
  · obtain ⟨w, -, rfl⟩ := Expr.ofValue_eq_ok_iff.mp he
    trivial

/-- A call is read under the schema as without one. -/
theorem ofText?_call_of_leadsIn (hreal : ¬ c.isSchemaless (some entity)) {place : Place}
    {cs : List CodePoint} {f : Function} {args : List Expr} {type : Option TypeRef} {mark : Mark}
    (h : ofText? c { place with schema := none } cs = .ok (some (.call f args type mark)))
    (hargs : Expr.AllLeadIn c entity args) :
    ofText? c { place with schema := some entity } cs = .ok (some (.call f args type mark)) := by
  rcases expression_eq_some_cases h with ⟨-, token, -, hbare⟩ |
    ⟨less, name, index, rest, texts, args', f', hfuel, hsplit, htexts, hread, hf, hcall⟩
  · exact (isLiteralOrPath_of_bare hbare).elim
  · cases hcall
    cases hfuel
    refine expression_eq_call hsplit htexts (readAll_of_leadsIn ?_ hread hargs) hf
    intro cs' e' he' hleads
    exact expression_argument_of_leadsIn hreal place.argument rfl he' hleads

end Operand

/-! ### Checked operands -/

section

variable {c : Catalog} {entity : EntityId} {schema : Option EntityId} {context : Context}

mutual

/-- Checking an operand does not change what it says. -/
theorem Expr.outline_check : ∀ e : Expr, (e.check c schema).1.outline = e.outline
  | .literal value type explicit mark => by
    rw [Expr.check]
    split <;> rfl
  | .path p type mark => by
    rw [Expr.check]
    split
    · rfl
    · split <;> rfl
  | .call function args type mark => by
    have hargs := Expr.outlines_checkAll args
    rw [Expr.check]
    split
    · rfl
    · split
      all_goals
        rename_i hchecked
        rw [hchecked] at hargs
        exact congrArg (Expr.call function · _ _) hargs

theorem Expr.outlines_checkAll :
    ∀ es : List Expr, Expr.outlines (Expr.checkAll c schema es).1 = Expr.outlines es
  | [] => rfl
  | e :: es => by
    have he := Expr.outline_check e
    have hes := Expr.outlines_checkAll es
    rw [Expr.checkAll]
    split
    all_goals
      rename_i hchecked
      rw [hchecked] at he
    · rw [Expr.outlines, Expr.outlines, he]
    · rw [Expr.outlines, Expr.outlines, he, hes]

end

theorem Expr.outline_of_fit {e e' : Expr} (h : e.fit c schema = .ok e') : e'.outline = e.outline :=
  Expr.eq_of_fit h ▸ Expr.outline_check e

mutual

/-- An operand is compiled by what it says. -/
theorem Expr.compile_outline : ∀ e : Expr, e.outline.compile context = e.compile context
  | .literal .. | .path .. => rfl
  | .call function args _ _ => by
    rw [Expr.outline, Expr.compile, Expr.compile, Expr.compileAll_outlines args]

theorem Expr.compileAll_outlines :
    ∀ es : List Expr, Expr.compileAll context (Expr.outlines es) = Expr.compileAll context es
  | [] => rfl
  | e :: es => by
    rw [Expr.outlines, Expr.compileAll, Expr.compileAll, Expr.compile_outline e,
      Expr.compileAll_outlines es]

end

/-- What is made of an operand by checking it is compiled like the operand. -/
theorem Expr.compile_of_fit {e e' : Expr} {context' : Context} (h : e.fit c schema = .ok e')
    (haccessor : context'.accessor = context.accessor) : e'.compile context' = e.compile context := by
  rw [← Expr.compile_outline, Expr.outline_of_fit h, Expr.compile_outline, Expr.compile_congr haccessor]

mutual

theorem Expr.leadsIn_outline : ∀ e : Expr, e.outline.LeadsIn c entity ↔ e.LeadsIn c entity
  | .literal .. | .path .. => Iff.rfl
  | .call _ args _ _ => Expr.allLeadIn_outlines args

theorem Expr.allLeadIn_outlines :
    ∀ es : List Expr, Expr.AllLeadIn c entity (Expr.outlines es) ↔ Expr.AllLeadIn c entity es
  | [] => Iff.rfl
  | e :: es => and_congr (Expr.leadsIn_outline e) (Expr.allLeadIn_outlines es)

end

theorem Expr.LeadsIn.of_fit {e e' : Expr} (he : e.LeadsIn c entity) (h : e.fit c schema = .ok e') :
    e'.LeadsIn c entity := by
  rw [← Expr.leadsIn_outline, Expr.outline_of_fit h, Expr.leadsIn_outline]
  exact he

mutual

/-- **An operand whose paths lead to properties fits the schema.** -/
theorem Expr.check_of_leadsIn (hreal : ¬ c.isSchemaless (some entity)) :
    ∀ e : Expr, e.LeadsIn c entity → (e.check c (some entity)).2 = none
  | .literal value type explicit mark, _ => by
    rw [Expr.check]
    split <;> rfl
  | .path p type mark, he => by
    obtain ⟨s, hs, -, hproperty⟩ := he
    obtain ⟨property, hproperty⟩ := Option.isSome_iff_exists.mp hproperty
    have htype : Expr.checkPath c (some entity) p type = .ok (some property.target.type) := by
      unfold Expr.checkPath Expr.pathType
      rw [hs]
      dsimp only
      rw [if_neg hreal, hproperty]
      rfl
    rw [Expr.check, htype]
    split <;> rfl
  | .call function args type mark, he => by
    have hargs := Expr.checkAll_of_leadsIn hreal args he
    rw [Expr.check]
    split
    · rfl
    · split
      · rfl
      · rename_i hchecked
        rw [hchecked] at hargs
        exact hargs

theorem Expr.checkAll_of_leadsIn (hreal : ¬ c.isSchemaless (some entity)) :
    ∀ es : List Expr, Expr.AllLeadIn c entity es → (Expr.checkAll c (some entity) es).2 = none
  | [], _ => rfl
  | e :: es, hes => by
    have he := Expr.check_of_leadsIn hreal e hes.1
    rw [Expr.checkAll]
    split
    · rename_i hchecked
      rw [hchecked] at he
      cases he
    · exact Expr.checkAll_of_leadsIn hreal es hes.2

end

/-- An operand whose paths lead to properties fits the schema, and it fits where there is none. -/
theorem Expr.exists_fit_of_leadsIn (hreal : ¬ c.isSchemaless (some entity)) {e : Expr}
    (he : e.LeadsIn c entity) (hschema : schema = none ∨ schema = some entity) :
    ∃ e', e.fit c schema = .ok e' := by
  rcases hschema with rfl | rfl
  · have hnone : c.isSchemaless none := rfl
    obtain ⟨e', hfit, -⟩ := Expr.fit_of_isSchemaless hnone e
    exact ⟨e', hfit⟩
  · have hcheck := Expr.check_of_leadsIn hreal e he
    exact ⟨_, Expr.fit_eq_ok_iff.mpr (Prod.ext rfl hcheck)⟩

/-- Compiling a plain operand that fits gives a program, whose runs are those of its function. -/
theorem Node.compile_of_fit (default : Except Fault TextPolicy) {source : ContextSource} {e e' : Expr}
    {f : Expr.Reader} (hsource : Context.ofSource source = .ok context) (he : e.IsPlain)
    (hfit : e.fit c context.schema = .ok e') (hf : e.compile context = .ok f) (notes : Notes) :
    ∃ program, (outcome ((Node.expr e).compile c default source) notes).1 = .ok program ∧
      ∀ current now record, (outcome (program.run current record) now).1 = f record := by
  have hcheck : ∃ notes', outcome (Node.check c context.schema (.expr e)) notes = (.ok (), notes') := by
    have hcurrent : e.current notes = e := Expr.current_of_isPlain notes e he
    have hnone : (e.check c context.schema).2 = none :=
      congrArg Prod.snd (Expr.fit_eq_ok_iff.mp hfit)
    refine ⟨(e.check c context.schema).1.record notes, ?_⟩
    have hoperand : Node.check c context.schema (.expr e) = Check.operand c context.schema e := rfl
    rw [hoperand, Check.operand, outcome_bind_of_ok outcome_get, hcurrent]
    dsimp only
    rw [outcome_bind_of_ok (outcome_modify _), hnone]
    rfl
  obtain ⟨middle, hmiddle⟩ := hcheck
  have hvalidate := Node.validate_ok_iff.mpr ⟨middle, hmiddle, rfl⟩
  have hfunction : (Node.expr e).function c (middle.refreshed c) default context = .ok f := by
    rw [Node.function, Expr.current_of_isPlain _ e he, hf]
  have hcompile := Node.compile_ok_iff.mpr ⟨context, f, hsource, hvalidate, hfunction, rfl⟩
  refine ⟨_, congrArg Prod.fst hcompile, fun current now record => ?_⟩
  have hnode : (Node.expr e).refreshed current now = .expr e :=
    congrArg Node.expr (Expr.refreshed_of_isPlain current now e he)
  rw [Program.run, outcome_bind_of_ok outcome_get, outcome_bind_of_ok (outcome_modify _), outcome_lift]
  dsimp only [Program.refreshed, Program.result]
  rw [hnode, Node.function, Expr.current_of_isPlain _ e he, hf]
  rfl

end

/-! ### Calls under the schema and without it -/

/-- **A call is read and run under a schema as without one**, if all paths in it have the form of names
that lead to properties of the schema. Both readings give one operand. It fits the schema, and it fits
where there is none; and in whichever of the two the operands that come of it are compiled, their runs
come to the same value or to the same fault on every record, if fields are read in the same way. -/
theorem Operand.schema_agrees_on_call {c : Catalog} {entity : EntityId}
    (hreal : ¬ c.isSchemaless (some entity)) {place : Operand.Place} {cs : List CodePoint}
    {f : Function} {args : List Expr} {type : Option TypeRef} {mark : Mark}
    (h : Operand.ofText? c { place with schema := none } cs = .ok (some (.call f args type mark)))
    (hargs : Expr.AllLeadIn c entity args) :
    Operand.ofText? c { place with schema := some entity } cs =
        .ok (some (.call f args type mark)) ∧
      ∃ under without, Expr.fit c (some entity) (.call f args type mark) = .ok under ∧
        Expr.fit c none (.call f args type mark) = .ok without ∧
        ∀ (default : Except Fault TextPolicy) (source source' : ContextSource) (context context' : Context)
          (notes notes' : Notes),
          Context.ofSource source = .ok context → Context.ofSource source' = .ok context' →
          (context.schema = none ∨ context.schema = some entity) →
          (context'.schema = none ∨ context'.schema = some entity) →
          context.accessor = context'.accessor →
          ∃ program program',
            (outcome ((Node.expr under).compile c default source) notes).1 = .ok program ∧
            (outcome ((Node.expr without).compile c default source') notes').1 = .ok program' ∧
            program.RunsLike program' := by
  let e : Expr := .call f args type mark
  have hleads : e.LeadsIn c entity := hargs
  obtain ⟨under, hunder⟩ := Expr.exists_fit_of_leadsIn hreal hleads (.inr rfl)
  obtain ⟨without, hwithout⟩ := Expr.exists_fit_of_leadsIn hreal hleads (.inl rfl)
  have hplain : e.IsPlain := Operand.expression_isPlain h
  have hnamed := Operand.isNamed_of_ofText? h
  refine ⟨Operand.ofText?_call_of_leadsIn hreal h hargs, under, without, hunder, hwithout, ?_⟩
  intro default source source' context context' notes notes' hsource hsource' hschema hschema' haccessor
  obtain ⟨reader, hreader⟩ : ∃ reader, e.compile context = .ok reader := by
    rcases hk : e.compile context with fault | reader
    · exact ((Expr.compile_error e hk).2 hnamed).elim
    · exact ⟨reader, rfl⟩
  -- both operands fit whichever schema there is, and are compiled like the one that was read
  obtain ⟨_, hfit⟩ := Expr.exists_fit_of_leadsIn hreal (hleads.of_fit hunder) hschema
  obtain ⟨_, hfit'⟩ := Expr.exists_fit_of_leadsIn hreal (hleads.of_fit hwithout) hschema'
  have hfunction : under.compile context = .ok reader := (Expr.compile_of_fit hunder rfl).trans hreader
  have hfunction' := (Expr.compile_of_fit hwithout haccessor.symm).trans hreader
  obtain ⟨program, hprogram, hruns⟩ := Node.compile_of_fit default hsource
    (Expr.fit_isPlain hplain hunder) hfit hfunction notes
  obtain ⟨program', hprogram', hruns'⟩ := Node.compile_of_fit default hsource'
    (Expr.fit_isPlain hplain hwithout) hfit' hfunction' notes'
  refine ⟨program, program', hprogram, hprogram', fun current current' now now' record => ?_⟩
  rw [hruns, hruns']

/-- A call in a call, with a path and two numbers as its arguments. -/
theorem Operand.schema_agrees_on_call_of_nested :
    let c : Catalog := [⟨.text "Company", [⟨"companyName", .data .string⟩], false, none, .same⟩]
    let cs := (Text.ofString "toupper(substring(companyName, 1, 2))").points
    ∃ e under without, Operand.ofText? c {} cs = .ok (some e) ∧
      Operand.ofText? c { schema := some 0 } cs = .ok (some e) ∧
      e.fit c (some 0) = .ok under ∧ e.fit c none = .ok without ∧
      ∃ program program',
        (outcome ((Node.expr under).compile c (.ok {}) (.entity 0)) []).1 = .ok program ∧
        (outcome ((Node.expr without).compile c (.ok {}) .absent) []).1 = .ok program' ∧
        program.RunsLike program' := by
  intro c cs
  let inner : Expr := .call .substring [.path (.text "companyName") none {},
    .literal (.int 1) (some (.data .int32)) false {}, .literal (.int 2) (some (.data .int32)) false {}]
    (some (.data .string)) {}
  have hread : Operand.ofText? c {} cs =
      .ok (some (.call .toupper [inner] (some (.data .string)) {})) := rfl
  have hleads : Expr.AllLeadIn c 0 [inner] :=
    ⟨⟨⟨"companyName", rfl, by decide, by decide⟩, trivial, trivial, trivial⟩, trivial⟩
  obtain ⟨hunder, under, without, hfit, hfit', hcompile⟩ :=
    @Operand.schema_agrees_on_call c 0 (by decide) {} _ _ _ _ _ hread hleads
  refine ⟨_, under, without, hread, hunder, hfit, hfit', ?_⟩
  exact hcompile (.ok {}) (.entity 0) .absent { schema := some 0 } {} [] [] rfl rfl (.inr rfl) (.inl rfl)
    rfl

end RecordFilter
