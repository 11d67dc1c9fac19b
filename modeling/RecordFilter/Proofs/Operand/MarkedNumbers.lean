import RecordFilter.Proofs.Operand.Faults

/-!
# Numbers between quote marks

While an operand text is read, each quoted part of it is a number between two quote marks. A text may
hold such marks itself, and then a number stands for whatever quoted part has it, or for none. Inside a
call that is noticed: a call that cannot be read is no call. Outside of calls it is not, and reading ends
in a fault that is no predicate error.

`Operand.markedNumbers` are the numbers that are looked up, and `Operand.IsTorn` says of a text that it
is no call and one of them is the number of no quoted part. `Operand.ofText?_faults_iff_isTorn` is the
main statement: where no type is asked of literals, reading a text that comes to an end gives an operand
or nothing, unless the text is torn; and nothing but predicate errors escapes from what is made of the
text.
-/

namespace RecordFilter

/-! ### Literals of inferred type -/

/-- The type that a text comes with never asks for an integer. -/
theorem DataType.inferText_mem (s : Text) : inferText s ∈ [guid, dateTime, string] := by
  unfold inferText
  repeat' split
  all_goals simp

theorem Expr.ofValue_asText_ne_error {v : Value} {s : Text} (hs : v.asText? = some s) (fault : Fault) :
    Expr.ofValue v none false ≠ .error fault := by
  have hinfer : DataType.infer v = DataType.inferText s := by
    cases v <;> cases hs <;> rfl
  have hread : DataType.read (DataType.inferText s) v ≠ .error fault := by
    rcases (by simpa using DataType.inferText_mem s :
      DataType.inferText s = .guid ∨ DataType.inferText s = .dateTime ∨
        DataType.inferText s = .string) with e | e | e
    all_goals
      rw [e]
      cases v <;> cases hs <;> simp [DataType.read, DataType.readString]
  intro h
  rcases bind_eq_error_iff.mp h with h | ⟨w, -, h⟩
  · rw [Option.getD_none, hinfer] at h
    exact hread h
  · cases h

namespace Operand

variable {c : Catalog} {place : Place}

/-- Without calls and without a type for literals, every text is read. -/
theorem bare_ne_error (hhint : place.hint = none) (cs : List CodePoint) (fault : Fault) :
    bare c place cs ≠ .error fault := by
  have htext : Expr.ofValue (Value.ofPoints cs) place.hint false ≠ .error fault := by
    rw [hhint]
    exact Expr.ofValue_asText_ne_error rfl fault
  have hnumber : Expr.ofValue (numberValue cs) none false ≠ .error fault := by
    unfold numberValue
    dsimp only
    split <;> simp [Expr.ofValue, DataType.infer, DataType.read, DataType.onText, Value.asText?]
  unfold bare
  dsimp only
  split
  · rw [hhint]
    simp [Expr.ofValue, DataType.read, DataType.readString, Value.ofPoints]
  · repeat' split
    all_goals
      first
      | exact htext
      | exact hnumber
      | simp

/-! ### Numbers between quote marks -/

/-- The numbers between two quote marks in a text, from left to right. A mark that ends a number does not
begin another one. The first argument holds the digits read since a mark that may begin a number, last
one first. -/
def markedNumbers : Option (List CodePoint) → List CodePoint → List (List CodePoint)
  | _, [] => []
  | none, c :: cs => if c = quoteMark then markedNumbers (some []) cs else markedNumbers none cs
  | some ds, c :: cs =>
    if Text.isDecimalDigit c.toChar then markedNumbers (some (c :: ds)) cs
    else if c = quoteMark then
      if ds.isEmpty then markedNumbers (some []) cs else ds.reverse :: markedNumbers none cs
    else markedNumbers none cs

/-- The digits are the number of a quoted part. -/
def IsPart (quoted : List (List CodePoint)) (ds : List CodePoint) : Prop :=
  ∃ n, number ds = .ok n ∧ n < quoted.length

/-- A text that is no call, with the number of no quoted part between two quote marks. -/
def IsTorn (cs : List CodePoint) : Prop :=
  groupMark ∉ (Linear.ofText cs).source ∧
    ∃ ds ∈ markedNumbers none (Linear.ofText cs).source, ¬ IsPart (Linear.ofText cs).quoted ds

instance (quoted : List (List CodePoint)) (ds : List CodePoint) : Decidable (IsPart quoted ds) :=
  match h : number ds with
  | .ok n => decidable_of_iff (n < quoted.length) (by simp [IsPart, h])
  | .error _ => .isFalse (by simp [IsPart, h])

instance (cs : List CodePoint) : Decidable (IsTorn cs) :=
  inferInstanceAs (Decidable (_ ∧ _))

theorem exists_quotedPart_iff {quoted : List (List CodePoint)} {ds : List CodePoint} :
    (∃ part, quotedPart quoted ds = .ok part) ↔ IsPart quoted ds := by
  constructor
  · rintro ⟨part, h⟩
    obtain ⟨n, hn, h⟩ := bind_eq_ok_iff.mp h
    split at h
    · rename_i e
      exact ⟨n, hn, (List.getElem?_eq_some_iff.mp e).1⟩
    · cases h
  · rintro ⟨n, hn, hlt⟩
    refine ⟨quoted[n], bind_eq_ok_iff.mpr ⟨n, hn, ?_⟩⟩
    rw [List.getElem?_eq_getElem hlt]
    rfl

/-- **The quoted parts can be put back** exactly if each number between quote marks is that of a part. -/
theorem exists_unmaskFrom_iff {quoted : List (List CodePoint)} {open? : Option (List CodePoint)}
    {cs : List CodePoint} :
    (∃ text, unmaskFrom quoted open? cs = .ok text) ↔
      ∀ ds ∈ markedNumbers open? cs, IsPart quoted ds := by
  -- what stands before a number is kept and does not matter
  have hfront : ∀ {x : Except Fault (List CodePoint)} (front : List CodePoint),
      (∃ text, (do return front ++ (← x)) = Except.ok text) ↔ ∃ text, x = Except.ok text := by
    intro x front
    rcases x with fault | text <;> simp
  fun_induction unmaskFrom quoted open? cs with
  | case1 => simp [markedNumbers]
  | case2 ds => simp [markedNumbers]
  | case3 cs ih => simpa [markedNumbers] using ih
  | case4 c cs hc ih => simpa [markedNumbers, hc] using (hfront [c]).trans ih
  | case5 ds c cs hd ih => simpa [markedNumbers, hd] using ih
  | case6 ds cs hd he ih => simpa [markedNumbers, hd, he] using (hfront [quoteMark]).trans ih
  | case7 ds cs hd he ih =>
    have hnumbers : markedNumbers (some ds) (quoteMark :: cs) = ds.reverse :: markedNumbers none cs := by
      simp [markedNumbers, hd, he]
    rw [hnumbers, List.forall_mem_cons, ← exists_quotedPart_iff]
    constructor
    · rintro ⟨text, h⟩
      obtain ⟨part, hpart, h⟩ := bind_eq_ok_iff.mp h
      exact ⟨⟨part, hpart⟩, ih.mp ((hfront part).mp ⟨text, h⟩)⟩
    · rintro ⟨⟨part, hpart⟩, hrest⟩
      obtain ⟨text, h⟩ := (hfront part).mpr (ih.mpr hrest)
      exact ⟨text, bind_eq_ok_iff.mpr ⟨part, hpart, h⟩⟩
  | case8 ds c cs hd hc ih =>
    simpa [markedNumbers, hd, hc] using (hfront ([quoteMark] ++ ds.reverse ++ [c])).trans ih

theorem exists_unmask_error_iff {quoted : List (List CodePoint)} {cs : List CodePoint} :
    (∃ fault, unmask quoted cs = .error fault) ↔
      ∃ ds ∈ markedNumbers none cs, ¬ IsPart quoted ds := by
  have h : (¬ ∃ text, unmaskFrom quoted none cs = .ok text) ↔
      ¬ ∀ ds ∈ markedNumbers none cs, IsPart quoted ds := not_congr exists_unmaskFrom_iff
  have herror : (∃ fault, unmask quoted cs = .error fault) ↔
      ¬ ∃ text, unmaskFrom quoted none cs = .ok text := by
    unfold unmask
    rcases unmaskFrom quoted none cs with fault | text <;> simp
  rw [herror, h]
  push Not
  rfl

/-- A text without quote marks is not torn. -/
theorem IsMaskable.not_isTorn {cs : List CodePoint} (hcs : IsMaskable cs) : ¬ IsTorn cs := by
  rintro ⟨hgroup, htorn⟩
  obtain ⟨fault, h⟩ := exists_unmask_error_iff.mpr htorn
  rw [unmask_source hcs hgroup] at h
  cases h

/-! ### Texts that are not read -/

/-- A text with a group is a call, or it is read to nothing. -/
theorem ofText?_ne_error_of_group {cs : List CodePoint}
    (hgroup : groupMark ∈ (Linear.ofText cs).source) {fault : Fault} (hfault : fault ≠ .endlessOperand) :
    ofText? c place cs ≠ .error fault := by
  intro h
  unfold ofText? at h
  rcases hsplit : Text.split groupMark (Linear.ofText cs).source with - | ⟨name, - | ⟨index, rest⟩⟩
  · exact Text.split_ne_nil _ _ hsplit
  · exact not_mem_of_tail_split (by rw [hsplit]; rfl) hgroup
  · dsimp only at h
    rw [expression_succ hsplit] at h
    unfold orNothing at h
    split at h
    · cases h
      exact hfault rfl
    · cases h
    · cases h

/-- A text without groups is read once its quoted parts are put back. -/
theorem ofText?_of_no_group {cs : List CodePoint} (hgroup : groupMark ∉ (Linear.ofText cs).source) :
    ofText? c place cs = do
      let token ← unmask (Linear.ofText cs).quoted (Linear.ofText cs).source
      return some (← bare c place (Text.trimPoints token)) := by
  unfold ofText?
  dsimp only
  rw [expression, split_of_not_mem]
  rintro d hd rfl
  exact hgroup hd

/-- Why a text is not read, where no type is asked of literals. -/
theorem ofText?_error_iff_isTorn (hhint : place.hint = none) {cs : List CodePoint}
    (hends : ofText? c place cs ≠ .error .endlessOperand) :
    (∃ fault, ofText? c place cs = .error fault) ↔ IsTorn cs := by
  by_cases hgroup : groupMark ∈ (Linear.ofText cs).source
  · refine iff_of_false ?_ fun htorn => htorn.1 hgroup
    rintro ⟨fault, h⟩
    refine ofText?_ne_error_of_group hgroup ?_ h
    rintro rfl
    exact hends h
  · unfold IsTorn
    rw [and_iff_right hgroup, ← exists_unmask_error_iff, ofText?_of_no_group hgroup]
    refine exists_congr fun fault => ⟨fun h => ?_, fun h => ?_⟩
    · rcases bind_eq_error_iff.mp h with h | ⟨token, -, h⟩
      · exact h
      rcases bind_eq_error_iff.mp h with h | ⟨e, -, h⟩
      · exact (bare_ne_error hhint _ _ h).elim
      · cases h
    · rw [h]
      rfl

theorem ofText?_error_mem (hhint : place.hint = none) {cs : List CodePoint}
    (hends : ofText? c place cs ≠ .error .endlessOperand) {fault : Fault}
    (h : ofText? c place cs = .error fault) : fault = .badIndex ∨ fault = .badValue := by
  obtain ⟨hgroup, -⟩ := (ofText?_error_iff_isTorn hhint hends).mp ⟨fault, h⟩
  rw [ofText?_of_no_group hgroup] at h
  rcases bind_eq_error_iff.mp h with h | ⟨token, -, h⟩
  · exact unmaskFrom_error h
  rcases bind_eq_error_iff.mp h with h | ⟨e, -, h⟩
  · exact (bare_ne_error hhint _ _ h).elim
  · cases h

/-- What is made of a text, where no type is asked of literals: all that can go wrong but a predicate error
is that the text is not read. -/
theorem read?_error_iff (hhint : place.hint = none) {source : Value} {s : Text}
    (hs : source.asText? = some s) {fault : Fault} (hfault : ¬ fault.isPredicateError) :
    read? c place source = .error fault ↔
      ofText? c place s.points = .error fault ∧ ¬ (place.isRight && c.isSchemaless place.schema) := by
  have hvalue : Expr.ofValue source place.hint false ≠ .error fault := by
    rw [hhint]
    exact Expr.ofValue_asText_ne_error hs fault
  unfold read?
  rw [hs]
  dsimp only
  split
  · rename_i hright
    refine iff_of_false (fun h => ?_) fun h => h.2 hright
    rcases e : Expr.ofValue source place.hint false with f | r
    · rw [e] at h
      cases h
      exact hvalue e
    · rw [e] at h
      cases h
  · rename_i hright
    rw [and_iff_left hright]
    refine ⟨fun h => ?_, fun h => by rw [h]; rfl⟩
    rcases bind_eq_error_iff.mp h with h | ⟨r, hr, h⟩
    · exact h
    rcases r with - | e
    · -- a text on the right that is no call is a literal
      dsimp only at h
      split at h
      · rcases bind_eq_error_iff.mp h with h | ⟨e, -, h⟩
        · exact (hvalue h).elim
        · cases h
      · cases h
    · rcases bind_eq_error_iff.mp h with h | ⟨e', -, h⟩
      · exact (hfault (Expr.fit_error c place.schema (isNamed_of_ofText? hr) h)).elim
      · cases h

/-- **Reading a text gives an operand or nothing** wherever no type is asked of literals and the reading
comes to an end, unless the text is torn. A torn text ends in an index outside the list of quoted parts or
in a number too long to be read. Nothing else than predicate errors comes of making an operand from the
text, unless it is torn and has to be read. -/
theorem ofText?_faults_iff_isTorn (hhint : place.hint = none) (cs : List CodePoint)
    (hends : ofText? c place cs ≠ .error .endlessOperand) :
    ((∃ r, ofText? c place cs = .ok r) ↔ ¬ IsTorn cs) ∧
      (∀ fault, ofText? c place cs = .error fault → fault = .badIndex ∨ fault = .badValue) ∧
      ∀ source : Value, source.asText? = some ⟨cs⟩ →
        ((∃ fault, read? c place source = .error fault ∧ ¬ fault.isPredicateError) ↔
          IsTorn cs ∧ ¬ (place.isRight && c.isSchemaless place.schema)) := by
  have hiff := ofText?_error_iff_isTorn hhint hends
  refine ⟨?_, fun fault h => ofText?_error_mem hhint hends h, fun source hs => ⟨?_, ?_⟩⟩
  · rw [← hiff]
    rcases ofText? c place cs with fault | r <;> simp
  · rintro ⟨fault, h, hfault⟩
    obtain ⟨hread, hright⟩ := (read?_error_iff hhint hs hfault).mp h
    exact ⟨hiff.mp ⟨fault, hread⟩, hright⟩
  · rintro ⟨htorn, hright⟩
    obtain ⟨fault, hread⟩ := hiff.mpr htorn
    have hfault : ¬ fault.isPredicateError := by
      rcases ofText?_error_mem hhint hends hread with rfl | rfl <;> decide
    exact ⟨fault, (read?_error_iff hhint hs hfault).mpr ⟨hread, hright⟩, hfault⟩

/-- The number of a part may stand where the part is not: in `'Ann' or ¾0¾` it is put back twice. -/
theorem ofText?_faults_iff_isTorn_of_repeated_part :
    let s : Text := "'Ann' or ¾0¾"
    (∃ r, ofText? [] {} s.points = .ok r) ∧
      ∀ fault, read? [] {} (.text s) = .error fault → fault.isPredicateError := by
  intro s
  have hends : ofText? [] {} s.points ≠ .error .endlessOperand :=
    expression_ne_endless_of_no_mark (by decide +kernel) _
  have hwhole : ¬ IsTorn s.points := by decide +kernel
  obtain ⟨hread, -, hmade⟩ := ofText?_faults_iff_isTorn (c := []) rfl s.points hends
  refine ⟨hread.mpr hwhole, fun fault hfault => ?_⟩
  by_contra herror
  exact hwhole ((hmade (.text s) rfl).mp ⟨fault, hfault, herror⟩).1

/-- **The number of no quoted part escapes**: nothing is quoted in `¾5¾`. -/
theorem missing_part_escapes :
    ¬ ∀ (c : Catalog) (place : Place) (cs : List CodePoint), place.hint = none →
      ofText? c place cs ≠ .error .endlessOperand →
        (∃ r, ofText? c place cs = .ok r) ∧
          ∀ fault, read? c place (.text ⟨cs⟩) = .error fault → fault.isPredicateError := by
  intro h
  let s : Text := "¾5¾"
  have hread : ofText? [] {} s.points = .error .badIndex := by
    have hunmask : unmask (Linear.ofText s.points).quoted (Linear.ofText s.points).source =
        .error .badIndex := by decide +kernel
    rw [ofText?_of_no_group (by decide +kernel), hunmask]
    rfl
  obtain ⟨⟨r, hr⟩, -⟩ := h [] {} s.points rfl (by simp [hread])
  rw [hread] at hr
  cases hr

end Operand

end RecordFilter
