import RecordFilter.Predicate.Compile
import RecordFilter.Proofs.DataType.Lenient
import RecordFilter.Proofs.Filter.Building
import RecordFilter.Proofs.Operand.CallRoundTrip
import RecordFilter.Proofs.Operand.Plain
import RecordFilter.Proofs.Operand.References

/-!
# Operands that cannot be read

What is wrong with an operand is reported as a predicate error, but for a few values that the reading
does not expect. `Operand.Breaks` lists them, each with the fault it ends in: a property that is named by
something else than a text, a number too large for an integer, and texts that spell the marks that
operand texts are divided by, or whose groups refer to each other in a circle.

`Operand.read?_error` says that there are no others. All paths in an operand that was read are texts,
unless it is such a property (`Operand.isNamed_of_read?`), and nothing else keeps an operand from being
compiled (`Expr.compile_error`).
-/

namespace RecordFilter

/-! ### Numbers that are too large -/

/-- A value whose plain text is known is read into a data type, unless it overflows. -/
theorem DataType.read_error {t : DataType} {v : Value} {fault : Fault}
    (htext : v.toText ≠ .error fault) (h : t.read v = .error fault) :
    fault = .outOfRange ∧ ∃ s, v.asText? = some s ∧ s.Overflows := by
  have hint : DataType.onText readInt v = .error fault →
      fault = .outOfRange ∧ ∃ s, v.asText? = some s ∧ s.Overflows := by
    intro h
    unfold DataType.onText at h
    split at h
    · rename_i s hs
      obtain ⟨hfault, hover⟩ := readInt_error h
      exact ⟨hfault, s, hs, hover⟩
    · cases h
  have honText : ∀ {reader : Text → Value → Value},
      DataType.onText (fun s given => .ok (reader s given)) v ≠ .error fault := by
    intro reader h
    unfold DataType.onText at h
    split at h <;> cases h
  have hstring : readString v ≠ .error fault := by
    intro h
    unfold readString at h
    split at h
    case h_5 =>
      rcases e : v.toText with f | s
      · rw [e] at h
        cases h
        exact htext e
      · rw [e] at h
        cases h
    all_goals cases h
  -- the reader of integers is the only one that can fault
  unfold read at h
  split at h
  · cases h
  · exact (hstring h).elim
  all_goals
    first
    | exact hint h
    | exact (honText h).elim
    | cases h

namespace Expr

variable {fault : Fault} {v : Value}

theorem ofValue_error {type : Option DataType} {explicit : Bool} (htext : v.toText ≠ .error fault)
    (h : ofValue v type explicit = .error fault) :
    fault = .outOfRange ∧ ∃ s, v.asText? = some s ∧ s.Overflows := by
  rcases bind_eq_error_iff.mp h with h | ⟨w, -, h⟩
  · exact DataType.read_error htext h
  · cases h

theorem literalOf_error {typeName : Value} {explicit : Bool} (htext : v.toText ≠ .error fault)
    (h : literalOf v typeName explicit = .error fault) :
    fault.isPredicateError ∨ fault = .outOfRange ∧ ∃ s, v.asText? = some s ∧ s.Overflows := by
  unfold literalOf at h
  split at h
  · exact .inr (ofValue_error htext h)
  · cases h
    exact .inl rfl

/-! ### Operands whose paths are texts -/

mutual

/-- All property paths in the operand are texts. -/
def IsNamed : Expr → Prop
  | .literal .. => True
  | .path p _ _ => p.asText?.isSome
  | .call _ args _ _ => AllNamed args

/-- All property paths in the operands are texts. -/
def AllNamed : List Expr → Prop
  | [] => True
  | e :: es => IsNamed e ∧ AllNamed es

end

theorem allNamed_iff {es : List Expr} : AllNamed es ↔ ∀ e ∈ es, e.IsNamed := by
  induction es with
  | nil => simp [AllNamed]
  | cons e es ih => simp [AllNamed, ih]

theorem IsNamed.withType {e : Expr} (h : e.IsNamed) (type : Option TypeRef) :
    (e.withType type).IsNamed := by
  cases e <;> exact h

theorem isNamed_of_ofValue {type : Option DataType} {explicit : Bool} {e : Expr}
    (h : ofValue v type explicit = .ok e) : e.IsNamed := by
  obtain ⟨w, -, rfl⟩ := ofValue_eq_ok_iff.mp h
  trivial

section

variable (c : Catalog) (schema : Option EntityId)

theorem checkPath_error {p : Value} {type : Option TypeRef} (hp : p.asText?.isSome)
    (h : checkPath c schema p type = .error fault) : fault.isPredicateError := by
  have hpath : ∀ entity, pathType c entity p = .error fault → fault.isPredicateError := by
    intro entity h
    obtain ⟨s, hs⟩ := Option.isSome_iff_exists.mp hp
    have htext : ∃ t, p.toText = .ok t := by
      cases p
      case text => exact ⟨_, rfl⟩
      case token => exact ⟨_, rfl⟩
      all_goals cases hs
    obtain ⟨t, ht⟩ := htext
    unfold pathType at h
    rw [hs, ht] at h
    dsimp only at h
    split at h
    · cases h
    · cases h
      rfl
  unfold checkPath at h
  split at h
  · cases h
  · rename_i entity
    split at h
    · cases h
    · rcases e : pathType c entity p with f | type'
      · rw [e] at h
        cases h
        exact hpath entity e
      · rw [e] at h
        cases h

mutual

/-- **Checking an operand whose paths are texts** keeps it so, and can only fail with a predicate
error. -/
theorem check_isNamed : ∀ e : Expr, e.IsNamed →
    (e.check c schema).1.IsNamed ∧
      ∀ fault, (e.check c schema).2 = some fault → fault.isPredicateError
  | .literal value type explicit mark, _ => by
    rw [check]
    split <;> exact ⟨trivial, fun _ h => nomatch h⟩
  | .path p type mark, he => by
    rw [check]
    split
    · exact ⟨he, fun _ h => nomatch h⟩
    · split
      · exact ⟨he, fun _ h => nomatch h⟩
      · rename_i f hf
        refine ⟨he, fun _ h => ?_⟩
        cases h
        exact checkPath_error c schema he hf
  | .call function args type mark, he => by
    obtain ⟨hargs, hfault⟩ := checkAll_allNamed args he
    rw [check]
    split
    · exact ⟨he, fun _ h => nomatch h⟩
    · split
      · rename_i args' hchecked
        rw [hchecked] at hargs
        exact ⟨hargs, fun _ h => nomatch h⟩
      · rename_i args' f hchecked
        rw [hchecked] at hargs hfault
        exact ⟨hargs, hfault⟩

theorem checkAll_allNamed : ∀ es : List Expr, AllNamed es →
    AllNamed (checkAll c schema es).1 ∧
      ∀ fault, (checkAll c schema es).2 = some fault → fault.isPredicateError
  | [], _ => ⟨trivial, fun _ h => nomatch h⟩
  | e :: es, hes => by
    obtain ⟨he, hfault⟩ := check_isNamed e hes.1
    obtain ⟨hrest, hfaults⟩ := checkAll_allNamed es hes.2
    rw [checkAll]
    split
    · rename_i e' f hchecked
      rw [hchecked] at he hfault
      exact ⟨⟨he, hes.2⟩, hfault⟩
    · rename_i e' hchecked
      rw [hchecked] at he
      exact ⟨⟨he, hrest⟩, hfaults⟩

end

theorem fit_error {e : Expr} (he : e.IsNamed) (h : fit c schema e = .error fault) :
    fault.isPredicateError :=
  (check_isNamed c schema e he).2 _ (fit_eq_error_iff.mp h)

/-- A path that is no text cannot be looked up. -/
theorem fit_unnamed_error {p : Value} (hp : p.asText? = none)
    (h : fit c schema (.path p none {}) = .error fault) : fault = .noMember := by
  have hcheck := fit_eq_error_iff.mp h
  rw [check] at hcheck
  split at hcheck
  · cases hcheck
  · split at hcheck
    · cases hcheck
    · rename_i f hf
      cases hcheck
      unfold checkPath at hf
      split at hf
      · cases hf
      · split at hf
        · cases hf
        · unfold pathType at hf
          rw [hp] at hf
          cases hf
          rfl

theorem isNamed_of_fit {e e' : Expr} (he : e.IsNamed) (h : fit c schema e = .ok e') : e'.IsNamed :=
  eq_of_fit h ▸ (check_isNamed c schema e he).1

end

mutual

/-- **An operand that is not compiled** holds a path that is no text. -/
theorem compile_error {context : Context} :
    ∀ e : Expr, e.compile context = .error fault → fault = .noMember ∧ ¬ e.IsNamed
  | .literal .., h => by cases h
  | .path p _ _, h => by
    rw [compile] at h
    split at h
    · cases h
    · rename_i hp
      cases h
      exact ⟨rfl, by simp [IsNamed, hp]⟩
  | .call _ args _ _, h => by
    rcases bind_eq_error_iff.mp h with h | ⟨_, -, h⟩
    · exact compileAll_error args h
    · cases h

theorem compileAll_error {context : Context} :
    ∀ es : List Expr, compileAll context es = .error fault → fault = .noMember ∧ ¬ AllNamed es
  | [], h => by cases h
  | e :: es, h => by
    rcases bind_eq_error_iff.mp h with h | ⟨_, -, h⟩
    · exact (compile_error e h).imp_right fun hnamed hall => hnamed hall.1
    rcases bind_eq_error_iff.mp h with h | ⟨_, -, h⟩
    · exact (compileAll_error es h).imp_right fun hnamed hall => hnamed hall.2
    · cases h

end

end Expr

namespace Operand

/-! ### Texts that are not divided -/

/-- No quote mark stands in the text, and its quoted parts are not more than there are numbers that can
be read. -/
structure IsMaskable (cs : List CodePoint) : Prop where
  unmarked : quoteMark ∉ cs
  short : cs.length < 10 ^ Numeral.maxIntDigits

theorem Cutting.rest_cons (c : CodePoint) (outer : List (List CodePoint)) (current : List CodePoint) :
    Cutting.rest outer (c :: current) = Cutting.rest outer current ++ [c] := by
  induction outer generalizing current with
  | nil => exact List.reverse_cons
  | cons below outer ih => exact ih _

theorem Cutting.mem_rest_of_mem {c : CodePoint} {outer : List (List CodePoint)}
    {current : List CodePoint} (h : c ∈ current) : c ∈ Cutting.rest outer current := by
  induction outer generalizing current with
  | nil => exact List.mem_reverse.mpr h
  | cons below outer ih => exact ih (List.mem_append_left _ (List.mem_append_left _ h))

/-- Reading one character adds it to the text that is left, or leaves the mark of a group there. -/
theorem Cutting.rest_step (s : Cutting) (c : CodePoint) :
    groupMark ∈ Cutting.rest (s.step c).outer (s.step c).current ∨
      Cutting.rest (s.step c).outer (s.step c).current = Cutting.rest s.outer s.current ++ [c] := by
  unfold Cutting.step
  split
  · rename_i hopen
    subst hopen
    exact .inr (Cutting.rest_cons _ _ _)
  · split
    · split
      · exact .inr (Cutting.rest_cons _ _ _)
      · exact .inl (Cutting.mem_rest_of_mem (by simp))
    · exact .inr (Cutting.rest_cons _ _ _)

/-- **If no mark of a group is left, nothing was cut out.** -/
theorem Cutting.rest_foldl (cs : List CodePoint) : ∀ s : Cutting,
    groupMark ∈ Cutting.rest (cs.foldl Cutting.step s).outer (cs.foldl Cutting.step s).current ∨
      Cutting.rest (cs.foldl Cutting.step s).outer (cs.foldl Cutting.step s).current =
        Cutting.rest s.outer s.current ++ cs := by
  induction cs with
  | nil => exact fun s => .inr (List.append_nil _).symm
  | cons c cs ih =>
    intro s
    rcases ih (s.step c) with h | h
    · exact .inl h
    rcases Cutting.rest_step s c with hmark | hstep
    · exact .inl (by rw [List.foldl_cons, h]; exact List.mem_append_left _ hmark)
    · refine .inr ?_
      rw [List.foldl_cons, h, hstep, List.append_assoc]
      rfl

/-- Putting the quoted parts back undoes the masking. -/
theorem unmasks_maskFrom {quoted : List (List CodePoint)}
    (hsmall : ∀ k < quoted.length, (Text.digits k).length ≤ Numeral.maxIntDigits) {ps : List Piece}
    (hplain : ∀ c, .plain c ∈ ps → c ≠ quoteMark) {n : Nat}
    (hquoted : IsAt quoted n (quotedParts ps)) :
    Unmasks quoted (maskFrom n ps) (ps.flatMap Piece.chars) := by
  induction ps generalizing n with
  | nil => exact Unmasks.of_not_mem (by simp [maskFrom])
  | cons p ps ih =>
    have hrest : ∀ c, .plain c ∈ ps → c ≠ quoteMark :=
      fun c hc => hplain c (List.mem_cons_of_mem _ hc)
    cases p with
    | plain c =>
      have hc : ∀ d ∈ [c], d ≠ quoteMark := by simpa using hplain c List.mem_cons_self
      exact (Unmasks.of_not_mem hc).append (ih hrest hquoted)
    | quoted q inside =>
      have hparts : IsAt quoted n ([(Piece.quoted q inside).chars] ++ quotedParts ps) := hquoted
      obtain ⟨hpart, hmore⟩ := hparts.append
      have hlt : n < quoted.length := (List.getElem?_eq_some_iff.mp hpart.getElem?).1
      exact (Unmasks.of_getElem? hpart.getElem? (hsmall n hlt)).append (ih hrest hmore)

/-- Putting the quoted parts back gives the text that was masked. -/
theorem unmask_maskFrom {cs : List CodePoint} (hcs : IsMaskable cs) :
    unmask (quotedParts (pieces cs)) (maskFrom 0 (pieces cs)) = .ok cs := by
  have hchars : (pieces cs).flatMap Piece.chars = cs := piecesFrom_chars none cs
  have hplain : ∀ c, .plain c ∈ pieces cs → c ≠ quoteMark := by
    rintro c hc rfl
    refine hcs.unmarked ?_
    rw [← hchars]
    exact List.mem_flatMap.mpr ⟨_, hc, List.mem_singleton_self _⟩
  have hsmall : ∀ k < (quotedParts (pieces cs)).length,
      (Text.digits k).length ≤ Numeral.maxIntDigits := by
    intro k hk
    have hlength := length_quotedParts_le (pieces cs)
    rw [hchars] at hlength
    exact (Nat.length_toDigits_le_iff (by decide) (by decide)).mpr
      (Nat.lt_trans (Nat.lt_of_lt_of_le hk hlength) hcs.short)
  have hunmask := (unmasks_maskFrom hsmall hplain (IsAt.self _)).unmask_eq
  rwa [hchars] at hunmask

/-- **A text that is not divided is read as it stands.** -/
theorem unmask_source {cs : List CodePoint} (hcs : IsMaskable cs)
    (hgroup : groupMark ∉ (Linear.ofText cs).source) :
    unmask (Linear.ofText cs).quoted (Linear.ofText cs).source = .ok cs := by
  have hsource : (Linear.ofText cs).source = maskFrom 0 (pieces cs) :=
    (Cutting.rest_foldl (maskFrom 0 (pieces cs)) ⟨[], [], []⟩).resolve_left hgroup
  rw [hsource]
  exact unmask_maskFrom hcs

/-! ### Faults of reading a text -/

section

variable {c : Catalog} {place : Place} {fault : Fault}

theorem quotedPart_error {quoted : List (List CodePoint)} {ds : List CodePoint}
    (h : quotedPart quoted ds = .error fault) : fault = .badIndex ∨ fault = .badValue := by
  rcases bind_eq_error_iff.mp h with h | ⟨n, -, h⟩
  · unfold number at h
    split at h
    · cases h
      exact .inr rfl
    · cases h
  · split at h
    · cases h
    · cases h
      exact .inl rfl

theorem unmaskFrom_error {quoted : List (List CodePoint)} {open? : Option (List CodePoint)}
    {cs : List CodePoint} (h : unmaskFrom quoted open? cs = .error fault) :
    fault = .badIndex ∨ fault = .badValue := by
  have hbind : ∀ {x : Except Fault (List CodePoint)} (front : List CodePoint),
      (x = .error fault → fault = .badIndex ∨ fault = .badValue) →
        (do return front ++ (← x)) = Except.error fault → fault = .badIndex ∨ fault = .badValue := by
    intro x front hx h
    rcases bind_eq_error_iff.mp h with h | ⟨_, -, h⟩
    · exact hx h
    · cases h
  fun_induction unmaskFrom quoted open? cs with
  | case1 => cases h
  | case2 => cases h
  | case3 cs ih => exact ih h
  | case4 c cs hc ih => exact hbind [c] ih h
  | case5 ds c cs hd ih => exact ih h
  | case6 ds cs hd he ih => exact hbind [quoteMark] ih h
  | case7 ds cs hd he ih =>
    rcases bind_eq_error_iff.mp h with h | ⟨part, -, h⟩
    · exact quotedPart_error h
    · exact hbind part ih h
  | case8 ds c cs hd hc ih => exact hbind ([quoteMark] ++ ds.reverse ++ [c]) ih h

/-- The text overflows, or what stands between the quotes around it does. -/
def SpellsOverflow (cs : List CodePoint) : Prop :=
  Text.Overflows ⟨cs⟩ ∨
    ∃ inside, quotedInside? (Text.trimPoints cs) = some inside ∧ Text.Overflows ⟨inside⟩

theorem overflows_of_ofPoints {cs : List CodePoint} {type : Option DataType} {explicit : Bool}
    (h : Expr.ofValue (Value.ofPoints cs) type explicit = .error fault) :
    fault = .outOfRange ∧ Text.Overflows ⟨cs⟩ := by
  obtain ⟨hfault, s, hs, hover⟩ := Expr.ofValue_error (by simp [Value.ofPoints]) h
  cases hs
  exact ⟨hfault, hover⟩

theorem overflows_trim {cs : List CodePoint} (h : Text.Overflows ⟨Text.trimPoints cs⟩) :
    Text.Overflows ⟨cs⟩ := by
  have htrim : Text.trim ⟨Text.trimPoints cs⟩ = Text.trim ⟨cs⟩ := Text.trim_trim ⟨cs⟩
  unfold Text.Overflows at h
  rwa [htrim] at h

/-- The text that an operand without calls is written as can only overflow. -/
theorem bare_error {cs : List CodePoint} (hargument : place.isArgument = false)
    (h : bare c place (Text.trimPoints cs) = .error fault) :
    fault = .outOfRange ∧ SpellsOverflow cs := by
  have hliteral : ∀ {type : Option DataType},
      Expr.ofValue (Value.ofPoints (Text.trimPoints cs)) type false = .error fault →
        fault = .outOfRange ∧ SpellsOverflow cs := fun h =>
    (overflows_of_ofPoints h).imp_right fun hover => .inl (overflows_trim hover)
  unfold bare at h
  rw [hargument] at h
  split at h
  · rename_i inside hinside
    exact (overflows_of_ofPoints h).imp_right fun hover => .inr ⟨inside, hinside, hover⟩
  · simp only [Bool.false_and, Bool.false_eq_true, if_false] at h
    split at h
    · cases h
    · split at h
      · cases h
      · split at h
        · cases h
        · exact hliteral h

/-- **Why a text is not read**: it refers to its groups in a circle, its quoted parts cannot be put back,
or it denotes a number that is too large. -/
theorem ofText?_error {cs : List CodePoint} (hargument : place.isArgument = false)
    (h : ofText? c place cs = .error fault) :
    (fault = .endlessOperand ∧ ¬ IsUnambiguous cs) ∨
      (fault ∈ [.badIndex, .badValue, .outOfRange] ∧ ¬ IsMaskable cs) ∨
        (fault = .outOfRange ∧ SpellsOverflow cs) := by
  let l := Linear.ofText cs
  by_cases hend : fault = .endlessOperand
  · subst hend
    refine .inl ⟨rfl, fun hcs => ?_⟩
    have hcircles : Circles c l place l.source := expression_eq_endless_iff_circles.mp h
    exact ends_iff_not_circles.mp (Linear.ofText_descends hcs).ends hcircles
  refine .inr ?_
  have hexpression : expression c l (l.groups.length + 1) place l.source = .error fault := h
  rcases hsplit : Text.split groupMark l.source with - | ⟨name, - | ⟨index, rest⟩⟩
  · exact (Text.split_ne_nil _ _ hsplit).elim
  · -- no group was cut out, so the text is read as it stands if it can be put together again
    have hgroup : groupMark ∉ l.source := not_mem_of_tail_split (by rw [hsplit]; rfl)
    unfold expression at hexpression
    rw [hsplit] at hexpression
    by_cases hmaskable : IsMaskable cs
    · have hunmask : unmask l.quoted l.source = .ok cs := unmask_source hmaskable hgroup
      rw [hunmask, ok_bind] at hexpression
      rcases bind_eq_error_iff.mp hexpression with hbare | ⟨e, -, hpure⟩
      · exact .inr (bare_error hargument hbare)
      · cases hpure
    · refine .inl ⟨?_, hmaskable⟩
      rcases bind_eq_error_iff.mp hexpression with hunmask | ⟨token, -, hread⟩
      · rcases unmaskFrom_error hunmask with rfl | rfl <;> simp
      rcases bind_eq_error_iff.mp hread with hbare | ⟨e, -, hpure⟩
      · rw [(bare_error hargument hbare).1]
        simp
      · cases hpure
  · -- the faults of a call are hidden, but for a circle
    rw [expression_succ hsplit] at hexpression
    unfold orNothing at hexpression
    split at hexpression
    · cases hexpression
      exact (hend rfl).elim
    · cases hexpression
    · cases hexpression

theorem isNamed_of_bare {cs : List CodePoint} {e : Expr} (h : bare c place cs = .ok e) :
    e.IsNamed := by
  rcases bare_eq_ok_cases h with rfl | ⟨v, type, -, he, -⟩
  · exact rfl
  · exact Expr.isNamed_of_ofValue he

theorem isNamed_of_ofText? {cs : List CodePoint} {e : Expr}
    (h : ofText? c place cs = .ok (some e)) : e.IsNamed :=
  expression_byCalls isNamed_of_bare (fun _ _ hargs => Expr.allNamed_iff.mpr hargs) h

end

/-! ### Faults of reading an operand -/

/-- The value under a name in a map, or null. -/
def fieldOf (entries : List (Value × Value)) (name : Text) : Value :=
  (Value.lookup? (.text name) entries).getD .null

/-- What it is about a value that makes the reading of an operand end in a fault other than a predicate
error. -/
inductive Breaks : Value → Fault → Prop
  /-- A property that is named by something else than a text. -/
  | property {entries : List (Value × Value)} {name : Value} :
      Value.lookup? (.text "value") entries = some name → name.asText? = none →
        (fieldOf entries "isProperty").truthy → Breaks (.map entries) .noMember
  /-- A number that is too large for an integer. -/
  | numeral {s : Text} : SpellsOverflow s.points → Breaks (.text s) .outOfRange
  /-- A literal that is such a number. -/
  | literal {entries : List (Value × Value)} {v : Value} {s : Text} :
      Value.lookup? (.text "value") entries = some v → v.asText? = some s → s.Overflows →
        Breaks (.map entries) .outOfRange
  /-- A text whose quoted parts cannot be put back. -/
  | mask {s : Text} {fault : Fault} : ¬ IsMaskable s.points →
      fault ∈ [.badIndex, .badValue, .outOfRange] → Breaks (.text s) fault
  /-- A text with groups that may refer to each other in a circle. -/
  | circle {s : Text} : ¬ IsUnambiguous s.points → Breaks (.text s) .endlessOperand

section

variable {c : Catalog} {place : Place} {fault : Fault} {source : Value}

theorem ofEntries_error {entries : List (Value × Value)} (hentries : Value.JsonEntries entries)
    (h : ofEntries c place entries = .error fault) :
    fault.isPredicateError ∨ Breaks (.map entries) fault := by
  unfold ofEntries at h
  dsimp only at h
  split at h
  · cases h
    exact .inl rfl
  · rename_i v hv
    have hliteral : (fault = .outOfRange ∧ ∃ s, v.asText? = some s ∧ s.Overflows) →
        Breaks (.map entries) fault := by
      rintro ⟨rfl, s, hs, hover⟩
      exact .literal hv hs hover
    have htext : v.toText ≠ .error fault := Value.toText_ne_error v (Value.isJson_of_lookup? hentries hv)
    split at h
    · rename_i hproperty
      rcases hname : v.asText? with - | s
      · refine .inr ?_
        obtain rfl : fault = .noMember := Expr.fit_unnamed_error c place.schema hname h
        exact .property hv hname hproperty
      · exact .inl (Expr.fit_error c place.schema (e := .path v none {})
          (Option.isSome_iff_exists.mpr ⟨s, hname⟩) h)
    · split at h
      · exact (Expr.literalOf_error htext h).imp_right hliteral
      · exact .inr (hliteral (Expr.ofValue_error htext h))

theorem isNamed_of_ofEntries {entries : List (Value × Value)} {e : Expr}
    (h : ofEntries c place entries = .ok e) : e.IsNamed ∨ Breaks (.map entries) .noMember := by
  obtain ⟨v, hv, ⟨hproperty, hfit⟩ | ⟨type, he⟩⟩ := ofEntries_eq_ok_cases h
  · rcases hname : v.asText? with - | s
    · exact .inr (.property hv hname hproperty)
    · exact .inl (Expr.isNamed_of_fit c place.schema (e := .path v none {})
        (Option.isSome_iff_exists.mpr ⟨s, hname⟩) hfit)
  · exact .inl (Expr.isNamed_of_ofValue he)

/-- **What is wrong with an operand is a predicate error**, or its source breaks the reading. -/
theorem read?_error (hargument : place.isArgument = false) (hsource : source.IsJson)
    (h : read? c place source = .error fault) : fault.isPredicateError ∨ Breaks source fault := by
  have hvalue : Expr.ofValue source place.hint false = .error fault → Breaks source fault := by
    intro h
    obtain ⟨rfl, s, hs, hover⟩ := Expr.ofValue_error (Value.toText_ne_error source hsource) h
    cases source
    case text =>
      cases hs
      exact .numeral (.inl hover)
    case token => exact hsource.elim
    all_goals cases hs
  have hmap : ∀ {x : Except Fault Expr}, x.map some = .error fault → x = .error fault := by
    rintro (f | e) h
    · cases h
      rfl
    · cases h
  unfold read? at h
  split at h
  · split at h
    · exact ofEntries_error hsource (hmap h)
    · exact .inr (hvalue (hmap h))
  · rename_i s hs
    obtain rfl : source = .text s := by
      cases source
      case text => cases hs; rfl
      case token => exact hsource.elim
      all_goals cases hs
    split at h
    · exact .inr (hvalue (hmap h))
    · rcases bind_eq_error_iff.mp h with h | ⟨r, hr, h⟩
      · rcases ofText?_error hargument h with ⟨rfl, hcircle⟩ | ⟨hfault, hmask⟩ | ⟨rfl, hover⟩
        · exact .inr (.circle hcircle)
        · exact .inr (.mask hmask hfault)
        · exact .inr (.numeral hover)
      · rcases r with - | e
        · dsimp only at h
          split at h
          · rcases bind_eq_error_iff.mp h with h | ⟨e, -, h⟩
            · exact .inr (hvalue h)
            · cases h
          · cases h
        · rcases bind_eq_error_iff.mp h with h | ⟨e', -, h⟩
          · exact .inl (Expr.fit_error c place.schema (isNamed_of_ofText? hr) h)
          · cases h

/-- **All paths in an operand that is read are texts**, unless its source is a property that is named by
something else. -/
theorem isNamed_of_read? {e : Expr} (h : read? c place source = .ok (some e)) :
    e.IsNamed ∨ Breaks source .noMember := by
  rcases read?_eq_some_cases h with ⟨entries, rfl, he⟩ | ⟨-, he⟩ | ⟨s, e₀, -, he₀, hfit⟩
  · exact isNamed_of_ofEntries he
  · exact .inl (Expr.isNamed_of_ofValue he)
  · exact .inl (Expr.isNamed_of_fit c place.schema (isNamed_of_ofText? he₀) hfit)

end

end Operand

end RecordFilter
