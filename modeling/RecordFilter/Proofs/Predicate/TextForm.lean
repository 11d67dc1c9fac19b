import Mathlib
import RecordFilter.Json.Read
import RecordFilter.Proofs.Predicate.Acceptance
import RecordFilter.Proofs.Predicate.BareLiterals
import RecordFilter.Proofs.Value.Survival

/-!
# Round trips through JSON texts

A predicate is written as a JSON text, which holds a double in the place of a decimal number and a text
in the place of a date or a time. A comparison of a path with such a literal gives the same on every
record after the round trip if the literal survives in the text (`Predicate.text_round_trip`), as long as
doubles on the record are read back from their texts. It need not survive where its type has to be
inferred: without a schema a time of day becomes a text, which no time is equal to
(`Predicate.time_read_as_text`).
-/

namespace RecordFilter

/-! ### Encodings that are read as literals -/

theorem Text.isUnmarked_of_isStampChar {s : String} (hs : ∀ c ∈ s.toList, Iso.IsStampChar c) :
    (s : Text).IsUnmarked := by
  intro p hp
  obtain ⟨c, hc, rfl⟩ := List.mem_map.mp hp
  have hne : ∀ d : Char, d.isDigit = false → d ∉ [':', '.', '-', 'T', '+'] →
      CodePoint.char c ≠ .char d := fun d hdigit hd h =>
    Iso.ne_of_isStampChar (hs c hc) hdigit hd (CodePoint.char.inj h)
  refine ⟨?_, hne _ (by decide) (by decide), hne _ (by decide) (by decide),
    hne _ (by decide) (by decide), hne _ (by decide) (by decide)⟩
  unfold Operand.isQuote
  rw [Bool.or_eq_false_iff, beq_eq_false_iff_ne, beq_eq_false_iff_ne]
  exact ⟨hne _ (by decide) (by decide), hne _ (by decide) (by decide)⟩

theorem Operand.isName_of_isDigit {d : Char} (hd : d.isDigit) (cs : List CodePoint) :
    isName (.char d :: cs) = false := by
  have hbounds : 48 ≤ d.toNat ∧ d.toNat ≤ 57 := (Numeral.digitValue?_of_isDigit hd).2
  have halpha : d.isAlpha = false := by
    have hval : d.val.toNat = d.toNat := rfl
    have hupper : d.isUpper = false := by
      simp [Char.isUpper, UInt32.le_iff_toNat_le, hval]
      omega
    have hlower : d.isLower = false := by
      simp [Char.isLower, UInt32.le_iff_toNat_le, hval]
      omega
    rw [Char.isAlpha, hupper, hlower]
    rfl
  have hunderscore : CodePoint.char d ≠ '_' := by
    rintro ⟨⟩
    exact absurd hd (by decide)
  have hspecial : [0x130, 0x131, 0x17f, 0x212a].contains (CodePoint.char d).number = false := by
    have hnumber : (CodePoint.char d).number = d.toNat := rfl
    rw [List.contains_eq_mem, decide_eq_false_iff_not, hnumber]
    simp only [List.mem_cons, List.not_mem_nil, or_false]
    omega
  have hstart : isNameStart (.char d) = false := by
    unfold isNameStart
    rw [hspecial, beq_eq_false_iff_ne.mpr hunderscore, CodePoint.toChar, halpha]
    rfl
  rw [isName, hstart, Bool.false_and]

section

variable {c : Catalog} {schema : Option EntityId} {cmp : Comparison} {t : DataType} {v : Value}

/-- Under every schema the text of a date or a time is a literal. -/
theorem Value.isLiteralForm_of_isStampChar {s : String} (hs : ∀ c ∈ s.toList, Iso.IsStampChar c)
    (hfirst : ∃ d cs, s.toList = d :: cs ∧ d.isDigit) : (Value.text s).IsLiteralForm c schema where
  not_map := rfl
  not_list := fun _ h => by cases h
  text := by
    rintro entity - - s' ⟨⟩
    obtain ⟨d, cs, hcs, hd⟩ := hfirst
    refine ⟨rfl, Iso.trim_of_isStampChar hs, Text.isUnmarked_of_isStampChar hs, fun hname => ?_⟩
    rw [Text.points_ofString, hcs, List.map_cons, Operand.isName_of_isDigit hd] at hname
    cases hname

theorem Value.isLiteralForm_double (d : Double) : (Value.double d).IsLiteralForm c schema where
  not_map := rfl
  not_list := fun _ h => by cases h
  text := fun _ _ _ _ h => by cases h

theorem Value.SurvivesTyped.isLiteralForm (h : v.SurvivesTyped cmp t) :
    v.encoded.IsLiteralForm c schema := by
  cases h with
  | moment _ hm =>
    exact Value.isLiteralForm_of_isStampChar (fun _ => Iso.isStampChar_of_mem_isoText)
      (Iso.exists_toList_isoText hm)
  | time ht =>
    exact Value.isLiteralForm_of_isStampChar (fun _ => Iso.isStampChar_of_mem_time)
      (Iso.exists_toList_time ht)
  | decimal => exact Value.isLiteralForm_double _
  | ordered => exact Value.isLiteralForm_double _

/-- Where there is no schema all texts on the right are literals. -/
theorem Value.SurvivesBare.isLiteralForm (hschema : c.isSchemaless schema = true)
    (h : v.SurvivesBare cmp t) : v.encoded.IsLiteralForm c schema := by
  have htext : ∀ s : Text, (Value.text s).IsLiteralForm c schema := fun s =>
    ⟨rfl, (fun _ h => by cases h), fun _ _ hnot => by rw [hschema] at hnot; cases hnot⟩
  cases h with
  | moment => exact htext _
  | time => exact htext _
  | decimal => exact Value.isLiteralForm_double _
  | equal => exact Value.isLiteralForm_double _

end

/-! ### Comparisons of a path with a literal -/

/-- Under the operator the literal `v` of the type `t` survives in a JSON text on the right of `l`: its
type is written next to it, or is that of a property on the left, or is inferred. -/
inductive Value.Survives (c : Catalog) (schema : Option EntityId) (cmp : Comparison) (l : Expr)
    (t : DataType) (v : Value) : Bool → Prop
  | explicit (h : v.SurvivesTyped cmp t) : Survives c schema cmp l t v true
  | property (hschema : c.isSchemaless schema = false) (hl : l.type = some (.data t))
      (h : v.SurvivesTyped cmp t) : Survives c schema cmp l t v false
  | inferred (hschema : c.isSchemaless schema = true) (h : v.SurvivesBare cmp t) :
      Survives c schema cmp l t v false

theorem Value.Survives.hasJsonText {c : Catalog} {schema : Option EntityId} {cmp : Comparison}
    {l : Expr} {t : DataType} {v : Value} {explicit : Bool}
    (h : v.Survives c schema cmp l t explicit) : v.HasJsonText := by
  cases h with
  | explicit h => exact h.hasJsonText
  | property _ _ h => exact h.hasJsonText
  | inferred _ h => exact h.hasJsonText

/-- What the comparison of a path with a literal does on a record. -/
theorem Resolved.compile_pathComparison {c : Catalog} {default : Except Fault TextPolicy}
    {context : Context} {op : Operator} {cmp : Comparison} {l : Expr} {s : Text} {v : Value}
    {type : Option TypeRef} {explicit : Bool} {mark : Mark} (hop : Comparison.ofOperator op = .ok cmp)
    (hl : l.IsPathOf (.text s)) :
    (Resolved.comparison op l (.literal v type explicit mark)).compile c default context =
      (Predicate.policyOf c default context).map fun policy record =>
        cmp.holds (l.type.or type) policy
          (Expr.readPath (context.accessor.getD Record.get) s record) v := by
  cases l with
  | path p ltype m =>
    cases hl
    unfold compile Predicate.compileComparison
    rw [hop]
    cases ltype <;> cases Predicate.policyOf c default context <;> rfl
  | _ => cases hl

section

variable {c : Catalog} {schema : Option EntityId} {cmp : Comparison} {l : Expr} {t : DataType}
  {v : Value} {explicit : Bool} {mark : Mark} {s : Text}

/-- A value in the form of a literal is read as a literal of the type on the left, or else of the type
that is inferred. -/
theorem Predicate.exists_literal_of_isLiteralForm {w : Value} (hv : v.IsLiteralForm c schema)
    (ht : (hintOf l).getD (DataType.infer v) = t) (hread : t.read v = .ok w) :
    ∃ e m, rightOperand c schema l v = .ok (.literal w (some (.data t)) e m) := by
  subst ht
  obtain ⟨r, hr, hstripped⟩ :=
    rightOperand_of_isLiteralForm hv (Expr.ofValue_eq_ok_iff.mpr ⟨w, hread, rfl⟩)
  cases r with
  | literal w' type e m =>
    cases hstripped
    exact ⟨e, m, hr⟩
  | _ => cases hstripped

theorem Expr.IsPathOf.typed {p : Value} (hl : l.IsPathOf p) (type : Option TypeRef) :
    (if l.type.isNone then l.withType type else l).IsPathOf p ∧
      (if l.type.isNone then l.withType type else l).type = l.type.or type := by
  cases l with
  | path q ltype m =>
    cases ltype with
    | none => exact ⟨hl, rfl⟩
    | some => exact ⟨hl, rfl⟩
  | _ => cases hl

/-- On the record the path finds no double, or one that is read back from its text. -/
def Expr.FindsLegible (l : Expr) (record : Value) : Prop :=
  ∀ s, l.IsPathOf (.text s) → (Expr.readPath Record.get s record).IsLegible

/-- The two conditions are compiled into functions that give the same on the records, or fail alike. -/
def Resolved.SameTests (c : Catalog) (default : Except Fault TextPolicy) (context : Context)
    (records : Value → Prop) (t u : Resolved) : Prop :=
  EndAlike Eq (fun f g => ∀ record, records record → f record = g record)
    (t.compile c default context) (u.compile c default context)

/-- Comparisons of one path with literals do the same if the operator holds of the same values. -/
theorem Resolved.sameTests_of_literal {op : Operator} {v w : Value} {t t' : DataType}
    {e e' : Bool} {m m' : Mark} (hop : Comparison.ofOperator op = .ok cmp) (hl : l.IsPathOf (.text s))
    (hholds : ∀ policy {a : Value}, a.IsLegible →
      cmp.holds (l.type.or (some (.data t'))) policy a w =
        cmp.holds (l.type.or (some (.data t))) policy a v)
    (default : Except Fault TextPolicy) {left left' : Expr}
    (hleft : left = if l.type.isNone then l.withType (some (.data t)) else l)
    (hleft' : left' = if l.type.isNone then l.withType (some (.data t')) else l) :
    Resolved.SameTests c default { schema } left.FindsLegible
      (.comparison op left (.literal v (some (.data t)) e m))
      (.comparison op left' (.literal w (some (.data t')) e' m')) := by
  obtain ⟨hpath, htype⟩ := hl.typed (some (.data t))
  obtain ⟨hpath', htype'⟩ := hl.typed (some (.data t'))
  subst hleft hleft'
  unfold SameTests
  rw [compile_pathComparison hop hpath, compile_pathComparison hop hpath', htype, htype',
    Option.or_assoc, Option.or_self, Option.or_assoc, Option.or_self]
  rcases Predicate.policyOf c default { schema } with f | policy
  · exact .error rfl
  · exact .ok fun record hrecord => (hholds policy (hrecord s hpath)).symm

/-- **A literal that survives is read as one that makes no difference**: the left operand and the
encoding of the right one are read as operands of which the comparison does the same. -/
theorem Value.Survives.exists_operands {k source : Value} {op : Operator} (hk : k.isKey)
    (hoperands : Predicate.operandsOf c schema k source =
      .ok (l, .literal v (some (.data t)) explicit mark))
    (hl : l.IsPathOf (.text s)) (hs : s.IsUnmarked) (hop : Comparison.ofOperator op = .ok cmp)
    (h : v.Survives c schema cmp l t explicit) :
    ∃ form l' r',
      (Expr.literal v (some (.data t)) explicit mark).canonicalRight c { schema } = .ok form ∧
        form.HasJsonText ∧ form.encoded.IsRightForm ∧
          Predicate.operandsOf c schema (.text s) form.encoded = .ok (l', r') ∧
            ∀ default, Resolved.SameTests c default { schema } l.FindsLegible
              (.comparison op l (.literal v (some (.data t)) explicit mark))
              (.comparison op l' r') := by
  obtain ⟨l₀, hl₀, hagain, hr⟩ := Predicate.leftOperand_of_operandsOf hk hoperands hl hs
  have hleft := ((Predicate.operandsOf_of_leftOperand hl₀).mp hoperands).2
  have hpath : l₀.IsPathOf (.text s) := by
    rw [hleft] at hl
    cases l₀ <;> split at hl <;> exact hl
  -- What is read from the form is a literal that compares as the literal did.
  suffices hform : ∃ form w t' e' m',
      (Expr.literal v (some (.data t)) explicit mark).canonicalRight c { schema } = .ok form ∧
        form.HasJsonText ∧ form.encoded.IsRightForm ∧
          Predicate.rightOperand c schema l₀ form.encoded =
            .ok (.literal w (some (.data t')) e' m') ∧
            ∀ policy {a : Value}, a.IsLegible →
              cmp.holds (l₀.type.or (some (.data t'))) policy a w =
                cmp.holds (l₀.type.or (some (.data t))) policy a v by
    obtain ⟨form, w, t', e', m', hwritten, hjson, hright, hread, hholds⟩ := hform
    refine ⟨form, _, _, hwritten, hjson, hright,
      (Predicate.operandsOf_of_leftOperand hagain).mpr ⟨hread, rfl⟩, fun default =>
        Resolved.sameTests_of_literal hop hpath hholds default hleft rfl⟩
  have hbare : (Expr.literal v (some (.data t)) false mark).canonicalRight c { schema } = .ok v := rfl
  have hjson : v.HasJsonText := h.hasJsonText
  have hplain : v.encoded.IsPlain := (Value.isJson_encoded v hjson).isPlain
  cases h with
  | explicit h =>
    obtain ⟨w, hw, hholds⟩ := h.exists_read
    exact ⟨v.literalForm t, w, t, true, {}, Expr.canonicalRight_literal rfl,
      ⟨⟨⟨_, rfl⟩, hjson⟩, ⟨⟨_, rfl⟩, trivial⟩, trivial⟩, Value.isRightForm_literalForm hplain t,
      Predicate.rightOperand_literalForm l₀ hw, fun policy a _ => hholds _ policy a⟩
  | property hschema hltype h =>
    obtain ⟨w, hw, hholds⟩ := h.exists_read
    have hhint : Predicate.hintOf l₀ = some t := by
      rw [← Predicate.left_of_operandsOf hschema hl₀ hoperands hl, Predicate.hintOf, hltype]
    have hform : v.encoded.IsLiteralForm c schema := h.isLiteralForm
    obtain ⟨e', m', hr'⟩ :=
      Predicate.exists_literal_of_isLiteralForm hform (by rw [hhint]; rfl) hw
    exact ⟨v, w, t, e', m', hbare, hjson, hform.isRightForm hplain, hr',
      fun policy a _ => hholds _ policy a⟩
  | inferred hschema h =>
    obtain ⟨w, hw, hholds⟩ := h.exists_read
    have hltype : l₀.type = none := Expr.type_of_fit_schemaless hschema
      ((Operand.isSettled_of_read? (Predicate.leftOperand_eq_ok_iff.mp hl₀).1).2 _ hpath)
    have hform : v.encoded.IsLiteralForm c schema := h.isLiteralForm hschema
    obtain ⟨e', m', hr'⟩ :=
      Predicate.exists_literal_of_isLiteralForm hform (by rw [Predicate.hintOf, hltype]; rfl) hw
    refine ⟨v, w, _, e', m', hbare, hjson, hform.isRightForm hplain, hr', ?_⟩
    rw [hltype]
    exact hholds

end

/-! ### Forms of comparisons -/

theorem Operator.encoded_entryOf (op : Operator) (v : Value) :
    (op.entryOf v).encoded = op.entryOf v.encoded := by
  unfold entryOf
  split <;> rfl

theorem Operator.IsOf.hasJsonText_entryOf {op : Operator} {v : Value}
    (hop : op.IsOf Operator.comparison) (hv : v.HasJsonText) : (op.entryOf v).HasJsonText := by
  obtain ⟨m, -, rfl⟩ := hop
  unfold entryOf
  split
  · exact hv
  · exact ⟨⟨⟨_, rfl⟩, hv⟩, trivial⟩

/-- A map of one entry is read as the entry. -/
theorem Filter.shape_of_shapeEntry {k v : Value} {s : Condition} (h : shapeEntry k v = .ok s) :
    shape (.map [(k, v)]) = .ok s := by
  rw [shape, shapeEntries, h]
  rfl

theorem Condition.exists_comparison_of_resolve {c : Catalog} {schema : Option EntityId} {s : Condition}
    {op : Operator} {l r : Expr} (h : s.resolve c schema = .ok (.comparison op l r)) :
    ∃ k v, s = .comparison op k v ∧ Predicate.operandsOf c schema k v = .ok (l, r) := by
  cases s with
  | comparison op' k v =>
    obtain ⟨l', r', hoperands, heq⟩ := Condition.resolve_comparison_eq_ok_iff.mp h
    cases heq
    exact ⟨k, v, rfl, hoperands⟩
  | absent => cases h
  | passthrough => cases h
  | bare => cases h
  | unary op' operand =>
    obtain ⟨u, -, heq⟩ := Condition.resolve_unary_eq_ok_iff.mp h
    cases heq
  | logical op' children =>
    obtain ⟨us, -, heq⟩ := Condition.resolve_logical_eq_ok_iff.mp h
    cases heq
  | quantified op' collection body =>
    obtain ⟨e, u, -, -, heq⟩ := Condition.resolve_quantified_eq_ok_iff.mp h
    cases heq

/-! ### Predicates of the same results -/

/-- The two predicates compile or not together under a schema, and compiled one after the other they
give the same on each of the records, be it a truth value or a fault, at whatever times they are run. -/
def Predicate.SameResults (c : Catalog) (default : Except Fault TextPolicy) (schema : Option EntityId)
    (notes : Notes) (records : Value → Prop) (p q : Predicate) : Prop :=
  ((∃ program notes', outcome ((Node.predicate p).compile c default (.ofSchema schema)) notes =
      (.ok program, notes')) ↔
    ∃ program notes', outcome ((Node.predicate q).compile c default (.ofSchema schema)) notes =
      (.ok program, notes')) ∧
    ∀ program notes' program' notes'',
      outcome ((Node.predicate p).compile c default (.ofSchema schema)) notes =
        (.ok program, notes') →
      outcome ((Node.predicate q).compile c default (.ofSchema schema)) notes' =
        (.ok program', notes'') →
      ∀ record, records record → ∀ current now current' now',
        (outcome (program.run current record) now).1 =
          (outcome (program'.run current' record) now').1

section

variable {c : Catalog} {default : Except Fault TextPolicy} {schema : Option EntityId}
  {p q : Predicate} {notes notes' : Notes} {t u : Resolved}

/-- Predicates that are compiled into functions of the same results have the same results. -/
theorem Predicate.sameResults_of_sameTests {records : Value → Prop} (hp : p.IsPlain) (hq : q.IsPlain)
    (hpready : p.Ready c schema notes t) (hqready : q.Ready c schema notes u)
    (hdisjoint : ∀ id ∈ p.labels, id ∉ q.labels)
    (hsame : Resolved.SameTests c default { schema } records t u) :
    p.SameResults c default schema notes records q := by
  have hsource := Context.ofSource_ofSchema schema
  have hpvalid : p.Validates c schema notes t := hpready.validate hp
  have hqvalid : q.Validates c schema notes u := hqready.validate hq
  refine ⟨?_, ?_⟩
  · rw [hpvalid.compile_iff hsource, hqvalid.compile_iff hsource]
    exact EndAlike.exists_ok_iff hsame
  · intro program notes' program' notes'' hcompile hcompile' record hrecord current now current' now'
    obtain ⟨_, hused, hvalidate, -, -⟩ := Predicate.compile_ok hcompile
    rw [hsource] at hused
    cases hused
    -- Compiling the first predicate checks it again, which leaves the notes on the second one alone.
    have hqready' : q.Ready c schema notes' u :=
      hqready.validate_other hp hvalidate fun id hid hmem => hdisjoint id hmem hid
    have hqvalid' : q.Validates c schema notes' u := hqready'.validate hq
    obtain ⟨-, -, hready, rfl, -⟩ := hpvalid.program hp hsource hcompile
    obtain ⟨-, -, hready', rfl, -⟩ := hqvalid'.program hq hsource hcompile'
    rw [Program.outcome_run hp hready.held, Program.outcome_run hq hready'.held]
    exact EndAlike.bind_eq hsame fun f g hfg => congrArg (Except.map Value.bool) (hfg record hrecord)

/-- The text of the value is read as the value itself. -/
def Json.IsReadBack (v : Value) : Prop :=
  ∀ s, toText {} v = .ok s → ofText s.points = .ok v

theorem Node.toJson_of_toCanonical {n : Node} {source : ContextSource} {layout : Json.Layout} {v : Value}
    {s : Text} (hv : outcome (n.toCanonical c source) notes = (.ok v, notes'))
    (hs : Json.toText layout v = .ok s) :
    outcome (n.toJson c layout source) notes = (.ok s, notes') := by
  rw [Node.toJson, outcome_bind_of_ok hv, hs]
  rfl

variable (default) in
/-- **Round trip through a JSON text.** Take a comparison of a path with a decimal number, a date or a
time that is read from values without nodes, a filter or the items of a chain, and that is valid under a
schema, or under none. If the literal survives under the operator, the predicate is written as a JSON
text, and the value that the text is read as is read as a predicate that is valid too. Both compile or
not, and they give the same on every record on which the path finds no double, or one that is read back
from its text. That the JSON text is read as the value that it was written for is assumed of this one
text. -/
theorem Predicate.text_round_trip {fs : List Value} {b b₁ : Builder} {notes₁ : Notes} {op : Operator}
    {cmp : Comparison} {l : Expr} {v : Value} {t : DataType} {explicit : Bool} {mark : Mark}
    (hplain : ∀ f ∈ fs, f.IsPlain)
    (hread : outcome (Filter.readArguments fs) b = (.ok (some p), b₁)) (hblank : notes.Blank b.next)
    (hvalidate : outcome ((Node.predicate p).validate c schema) notes = (.ok (), notes₁))
    (ht : p.resolvedIn notes₁ =
      some (.comparison op l (.literal v (some (.data t)) explicit mark)))
    (hl : l.IsOrdinaryPath) (hop : Comparison.ofOperator op = .ok cmp)
    (hsurvives : v.Survives c schema cmp l t explicit)
    (hloads : ∀ form, (Resolved.comparison op l
      (.literal v (some (.data t)) explicit mark)).canonical c { schema } = .ok form →
        Json.IsReadBack form.encoded) :
    ∃ text notes₂ form q b₂ notes₃,
      outcome ((Node.predicate p).toJson c {} (.ofSchema schema)) notes₁ = (.ok text, notes₂) ∧
        Json.ofText text.points = .ok form ∧
          outcome (Filter.readArguments [form]) b₁ = (.ok (some q), b₂) ∧
            outcome ((Node.predicate q).validate c schema) notes₂ = (.ok (), notes₃) ∧
              p.SameResults c default schema notes₃ l.FindsLegible q := by
  obtain ⟨f, hf, hread⟩ := Filter.exists_of_readArguments Value.isPlain_list.mpr hplain hread
  obtain ⟨hp, hblank₁, t', hready, -⟩ :=
    Predicate.ready_of_read Filter.hereditary_isPlain (fun _ h => h) hf hread hblank hvalidate
  have hsame := hready.held.resolvedIn
  rw [ht] at hsame
  cases hsame
  obtain ⟨k, source, hcondition, hoperands⟩ := Condition.exists_comparison_of_resolve hready.resolve
  have hbuilt := hp.isBuilt
  rw [hcondition] at hbuilt
  obtain ⟨hknown, -, hkey, -, -⟩ := hbuilt
  obtain ⟨s, hpath, hs, hfree⟩ := hl
  obtain ⟨form, l', r', hwritten, hjson, hright, hoperands', hcompile⟩ :=
    hsurvives.exists_operands hkey hoperands hpath hs hop
  have hk : (Value.text s).IsPathForm := Value.isPathForm_text hfree
  -- The canonical form is a map of one entry, and so is what its text holds.
  let written : Value := .map [(.text s, op.entryOf form)]
  let held : Value := .map [(.text s, op.entryOf form.encoded)]
  have hcanonical : (Resolved.comparison op l (.literal v (some (.data t)) explicit mark)).canonical c
      { schema } = .ok written := by
    have hleft : l.canonical c { schema } = .ok (.text s) := by
      cases l with
      | path => cases hpath; exact Expr.canonical_path rfl _ _ _
      | _ => cases hpath
    rw [Resolved.canonical, hleft, ok_bind, hwritten, ok_bind,
      Predicate.comparisonForm_eq hknown hk.isKey]
  have hencoded : written.encoded = held :=
    congrArg (fun w => Value.map [(.text s, w)]) (op.encoded_entryOf form)
  have htextual : written.HasJsonText := ⟨⟨⟨s, rfl⟩, hknown.hasJsonText_entryOf hjson⟩, trivial⟩
  obtain ⟨text, htext, hheld⟩ := Json.exists_toText htextual
  have hloaded : Json.ofText text.points = .ok held := by
    rw [← hencoded]
    exact hloads written hcanonical text hheld
  -- What the text holds is read as the comparison of the same path with the encoded literal.
  have hshape : Filter.shape held = .ok (.comparison op (.text s) form.encoded) :=
    Filter.shape_of_shapeEntry (Filter.shapeEntry_entryOf hknown hk.isUnreserved hright)
  have hheldPlain : held.IsPlain := hknown.isPlain_entryOf hk hright.isPlain
  obtain ⟨q, b₂, hread', hq⟩ :=
    Filter.read_of_shape (fun _ h => h) hheldPlain hshape (fun h => by cases h) b₁
  have hu : q.condition.resolve c schema = .ok (.comparison op l' r') := by
    rw [hq]
    exact Condition.resolve_comparison_eq_ok_iff.mpr ⟨l', r', hoperands', rfl⟩
  have hsource : Context.ofSource (ContextSource.ofSchema schema) = .ok { schema } :=
    Context.ofSource_ofSchema schema
  have hready₁ : p.Ready c ({ schema } : Context).schema notes₁ _ := hready
  obtain ⟨notes₂, hwrite, hready₂, ⟨notes₃, hqvalidate, hqready⟩, hqplain, hdisjoint⟩ :=
    hready₁.validates_written hp.isPlain hsource hcanonical hheldPlain hread' hu hblank₁
      fun id hid => (hp.range id hid).2
  have hready₃ : p.Ready c schema notes₃ _ := hready₂.validate_other hqplain hqvalidate hdisjoint
  exact ⟨text, notes₂, held, q, b₂, notes₃, Node.toJson_of_toCanonical hwrite htext, hloaded, hread',
    hqvalidate, Predicate.sameResults_of_sameTests hp.isPlain hqplain hready₃ hqready hdisjoint
      (hcompile default)⟩

/-- The entity type of a shop with the time of day at which it opens. -/
def shop : Catalog :=
  [⟨.text "Shop", [⟨"opens", .data .time⟩], false, none, .same⟩]

theorem Json.isReadBack_opening :
    Json.IsReadBack (.map [(.text "opens", .map [(.text "ge", .text "10:30:00")])]) := by
  have htext : Json.toText {} (.map [(.text "opens", .map [(.text "ge", .text "10:30:00")])]) =
      .ok "\x7b\"opens\": \x7b\"ge\": \"10:30:00\"\x7d\x7d" := by cbv
  intro s hs
  rw [← Except.ok.inj (htext.symm.trans hs)]
  cbv

theorem Predicate.text_round_trip_of_time :
    let ge : Operator := ⟨.text "ge", [">=", "greaterthanorequal"], false⟩
    let time : TimeOfDay := ⟨⟨10, 30, 0, 0⟩, none⟩
    let f : Value := .map [(.text "opens", .map [(.text "ge", .time time)])]
    let p : Predicate := .comparison 0 ge (.text "opens") (.time time)
    let left : Expr := .path (.text "opens") (some (.data .time)) (Mark.after (some 0) {})
    outcome (Filter.readArguments [f]) {} = (.ok (some p), ⟨1, []⟩) ∧
      ∃ notes₁ text notes₂ form q b₂ notes₃,
        outcome ((Node.predicate p).validate shop (some 0)) [] = (.ok (), notes₁) ∧
          outcome ((Node.predicate p).toJson shop {} (.entity 0)) notes₁ = (.ok text, notes₂) ∧
            Json.ofText text.points = .ok form ∧
              outcome (Filter.readArguments [form]) ⟨1, []⟩ = (.ok (some q), b₂) ∧
                outcome ((Node.predicate q).validate shop (some 0)) notes₂ = (.ok (), notes₃) ∧
                  p.SameResults shop (.ok {}) (some 0) notes₃ left.FindsLegible q := by
  intro ge time f p left
  have hread : outcome (Filter.readArguments [f]) {} = (.ok (some p), ⟨1, []⟩) := rfl
  have hplain : ∀ f' ∈ [f], f'.IsPlain := by
    refine List.forall_mem_singleton.mpr ?_
    simp [f, Value.IsPlain, Value.PlainEntries, Value.isKey]
  have hp : p.IsPlain := by
    simp [p, ge, Predicate.IsPlain, Operator.IsPlain, Value.IsPlain]
  have hblank : Notes.Blank [] 0 := fun _ _ => rfl
  let t : Resolved := .comparison ge left (.literal (.time time) (some (.data .time)) false {})
  have hresolve : p.condition.resolve shop (some 0) = .ok t := by rfl
  obtain ⟨notes₁, hvalidate, hready⟩ := Predicate.validate_of_resolve [] hp
    (by simp [p, Predicate.labels]) (hblank.on_unmarked fun _ _ => Nat.zero_le _) hresolve
  have hl : left.IsOrdinaryPath := ⟨"opens", rfl, by unfold Text.IsUnmarked; decide, rfl, rfl⟩
  have hsurvives : (Value.time time).Survives shop (some 0) (.order .ge) left .time false :=
    .property rfl rfl (.time ⟨rfl, fun _ h => by cases h⟩)
  have hloads : ∀ form, t.canonical shop { schema := some 0 } = .ok form →
      Json.IsReadBack form.encoded := by
    have hcanonical : t.canonical shop { schema := some 0 } = .ok f := by rfl
    have htime : TimeOfDay.text ⟨⟨10, 30, 0, 0⟩, none⟩ = "10:30:00" := by cbv
    have hencoded : f.encoded = .map [(.text "opens", .map [(.text "ge", .text "10:30:00")])] := by
      rw [← htime]
      rfl
    intro form hform
    rw [hcanonical] at hform
    rw [← Except.ok.inj hform, hencoded]
    exact Json.isReadBack_opening
  obtain ⟨text, notes₂, form, q, b₂, notes₃, hresult⟩ :=
    Predicate.text_round_trip (.ok {}) hplain hread hblank hvalidate hready.held.resolvedIn hl rfl
      hsurvives hloads
  exact ⟨hread, notes₁, text, notes₂, form, q, b₂, notes₃, hvalidate, hresult⟩

/-- **A time of day becomes a text** where its type has to be inferred: without a schema, the time that
is looked for is found before the round trip and is not found after it. -/
theorem Predicate.time_read_as_text :
    let eq : Operator := ⟨.text "eq", ["==", "=", "equals"], false⟩
    let time : TimeOfDay := ⟨⟨10, 30, 0, 0⟩, none⟩
    let f : Value := .map [(.text "a", .time time)]
    let form : Value := .map [(.text "a", .text "10:30:00")]
    let p : Predicate := .comparison 0 eq (.text "a") (.time time)
    let q : Predicate := .comparison 1 eq (.text "a") (.text "10:30:00")
    let text : Text := "\x7b\"a\": \"10:30:00\"\x7d"
    outcome (Filter.readArguments [f]) {} = (.ok (some p), ⟨1, []⟩) ∧
      Json.ofText text.points = .ok form ∧
        outcome (Filter.readArguments [form]) ⟨1, []⟩ = (.ok (some q), ⟨2, []⟩) ∧
          ∃ notes₁ notes₂ notes₃ notes₄ program program',
            outcome ((Node.predicate p).validate [] none) [] = (.ok (), notes₁) ∧
              outcome ((Node.predicate p).toJson [] {} .absent) notes₁ = (.ok text, notes₂) ∧
                outcome ((Node.predicate p).compile [] (.ok {}) .absent) notes₂ =
                  (.ok program, notes₃) ∧
                  outcome ((Node.predicate q).compile [] (.ok {}) .absent) notes₃ =
                    (.ok program', notes₄) ∧
                    program.Returns f (.bool true) ∧ program'.Returns f (.bool false) := by
  intro eq time f form p q text
  have hp : p.IsPlain := by
    simp [p, eq, Predicate.IsPlain, Operator.IsPlain, Value.IsPlain]
  have hq : q.IsPlain := by
    simp [q, eq, Predicate.IsPlain, Operator.IsPlain, Value.IsPlain]
  let t : Resolved := .comparison eq (.path (.text "a") (some (.data .time)) (Mark.after none {}))
    (.literal (.time time) (some (.data .time)) false {})
  let u : Resolved := .comparison eq (.path (.text "a") (some (.data .string)) (Mark.after none {}))
    (.literal (.text "10:30:00") (some (.data .string)) false {})
  have ht : p.condition.resolve [] none = .ok t := by rfl
  have hu : q.condition.resolve [] none = .ok u := by rfl
  have hsource : Context.ofSource .absent = .ok {} := rfl
  have hcanonical : t.canonical [] {} = .ok f := by rfl
  have htext : Json.toText {} f = .ok text := by cbv
  have hread : Json.ofText text.points = .ok form := by cbv
  -- The first predicate is checked and written.
  have hblank : Notes.Blank [] 1 := fun _ _ => rfl
  have hpLabels : ∀ id : Nat, id ∈ p.labels → id < 1 := by simp [p, Predicate.labels]
  have hqLabels : ∀ id : Nat, id ∈ q.labels → 1 ≤ id := by simp [q, Predicate.labels]
  obtain ⟨notes₁, hvalidate, hready⟩ := Predicate.validate_of_resolve [] hp
    (by simp [p, Predicate.labels]) (fun _ _ => Note.unmarked_default) ht
  have hvalid₁ : p.Validates [] ({} : Context).schema notes₁ t := hready.validate hp
  obtain ⟨notes₂, hvalidate₂, hwritten, hready₂⟩ := hvalid₁.toCanonical hsource hcanonical
  -- The second one is new, and each is compiled without a trace on the other.
  have hblank₂ : notes₂.Blank 1 :=
    (hblank.validate hp hpLabels hvalidate).validate hp hpLabels hvalidate₂
  obtain ⟨test, htest, htrue⟩ : ∃ test, t.compile [] (.ok {}) {} = .ok test ∧ test f = .ok true :=
    ⟨_, rfl, by cbv⟩
  obtain ⟨test', htest', hfalse⟩ : ∃ test, u.compile [] (.ok {}) {} = .ok test ∧
      test f = .ok false := ⟨_, rfl, by cbv⟩
  have hvalid₂ : p.Validates [] ({} : Context).schema notes₂ t := hready₂.validate hp
  obtain ⟨program, notes₃, hcompile⟩ := (hvalid₂.compile_iff hsource).mpr ⟨test, htest⟩
  obtain ⟨g, hg, -, -, hreturns⟩ := hvalid₂.program hp hsource hcompile
  obtain ⟨_, hused, hvalidate₃, -, -⟩ := Predicate.compile_ok hcompile
  cases hused
  have hqvalid : q.Validates [] ({} : Context).schema notes₃ u :=
    Predicate.validate_of_resolve _ hq (by simp [q, Predicate.labels])
      ((hblank₂.validate hp hpLabels hvalidate₃).on_unmarked hqLabels) hu
  obtain ⟨program', notes₄, hcompile'⟩ := (hqvalid.compile_iff hsource).mpr ⟨test', htest'⟩
  obtain ⟨g', hg', -, -, hreturns'⟩ := hqvalid.program hq hsource hcompile'
  cases Except.ok.inj (hg.symm.trans htest)
  cases Except.ok.inj (hg'.symm.trans htest')
  exact ⟨rfl, hread, rfl, notes₁, notes₂, notes₃, notes₄, program, program', hvalidate,
    Node.toJson_of_toCanonical hwritten htext, hcompile, hcompile', hreturns f true htrue,
    hreturns' f false hfalse⟩

end

end RecordFilter
