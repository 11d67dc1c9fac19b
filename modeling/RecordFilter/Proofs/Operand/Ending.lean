import Mathlib.Data.Fintype.Pigeonhole
import Mathlib.Logic.Relation
import RecordFilter.Operand.Reading
import RecordFilter.Proofs.Outcome

/-!
# When the reading of an operand text ends

The groups of an operand text are looked up by number, and the number stands in the text next to
whatever followed the closing parenthesis. `f(g(x)1)` becomes `f¿1` with the groups `(x)` and
`(g¿01)`, and the second group refers to itself. So reading does not end for every text.

`Calls` is the relation between a text and the texts that are read next on its behalf: the arguments
of the group that it refers to, each after those before it were read. Reading ends exactly when no
chain of calls comes back to a text (`expression_eq_endless_iff_circles`), and it then goes no deeper
than there are groups, which is why the bound in `Operand.ofText?` never cuts a reading short.
-/

namespace RecordFilter.Operand

variable (c : Catalog) (l : Linear)

/-! ### Faults of the parts

No part of the reading but the calls themselves ends in `Fault.endlessOperand`. -/

theorem ofValue_ofPoints_ne_endless (cs : List CodePoint) (type : Option DataType)
    (explicit : Bool) :
    Expr.ofValue (Value.ofPoints cs) type explicit ≠ .error .endlessOperand := by
  have hread : ∀ t : DataType, t.read (Value.ofPoints cs) ≠ .error .endlessOperand := by
    intro t
    cases t <;>
      simp only [Value.ofPoints, DataType.read, DataType.readString, DataType.onText,
        Value.asText?, ne_eq, reduceCtorEq, not_false_eq_true]
    all_goals
      unfold DataType.readInt
      dsimp only
      split
      · simp
      · split
        · simp
        · split <;> simp
  intro h
  rcases bind_eq_error_iff.mp h with h | ⟨v, -, h⟩
  · exact hread _ h
  · simp at h

theorem ofValue_numberValue_ne_endless (cs : List CodePoint) :
    Expr.ofValue (numberValue cs) none false ≠ .error .endlessOperand := by
  unfold numberValue
  dsimp only
  split <;> simp [Expr.ofValue, DataType.infer, DataType.read, DataType.onText, Value.asText?]

theorem bare_ne_endless (place : Place) (cs : List CodePoint) :
    bare c place cs ≠ .error .endlessOperand := by
  unfold bare
  dsimp only
  split
  · exact ofValue_ofPoints_ne_endless _ _ _
  · repeat' split
    all_goals
      first
      | exact ofValue_ofPoints_ne_endless _ _ _
      | exact ofValue_numberValue_ne_endless _
      | simp

theorem quotedPart_ne_endless (quoted : List (List CodePoint)) (ds : List CodePoint) :
    quotedPart quoted ds ≠ .error .endlessOperand := by
  intro h
  rcases bind_eq_error_iff.mp h with h | ⟨n, -, h⟩
  · unfold number at h
    split at h <;> simp at h
  · split at h <;> simp at h

theorem unmaskFrom_ne_endless (quoted : List (List CodePoint)) (open? : Option (List CodePoint))
    (cs : List CodePoint) : unmaskFrom quoted open? cs ≠ .error .endlessOperand := by
  fun_induction unmaskFrom quoted open? cs with
  | case1 => simp
  | case2 => simp
  | case3 cs ih => exact ih
  | case4 c cs hc ih => simpa [bind_eq_error_iff] using ih
  | case5 ds c cs hd ih => exact ih
  | case6 ds cs hd he ih => simpa [bind_eq_error_iff] using ih
  | case7 ds cs hd he ih =>
    intro h
    rcases bind_eq_error_iff.mp h with h | ⟨part, -, h⟩
    · exact quotedPart_ne_endless _ _ h
    · simp [bind_eq_error_iff, ih] at h
  | case8 ds c cs hd hc ih => simpa [bind_eq_error_iff] using ih

theorem argumentTexts_ne_endless (index : List CodePoint) :
    argumentTexts l index ≠ .error .endlessOperand := by
  unfold argumentTexts
  split
  · simp
  · intro h
    rcases bind_eq_error_iff.mp h with h | ⟨cs, -, h⟩
    · exact unmaskFrom_ne_endless _ _ _ h
    · simp at h

theorem orNothing_eq_endless_iff {α : Type} {x : Except Fault (Option α)} :
    orNothing x = .error .endlessOperand ↔ x = .error .endlessOperand := by
  rcases x with f | r
  · cases f <;> simp [orNothing]
  · simp [orNothing]

/-! ### Calls -/

/-- The texts that a text refers to: the arguments of the group with its number. -/
def callees (cs : List CodePoint) : List (List CodePoint) :=
  match Text.split groupMark cs with
  | _ :: index :: _ => (argumentTexts l index).toOption.getD []
  | _ => []

/-- Reading a text goes on to read another one: an argument of the group that the text refers to,
when an operand was found for each argument before it. -/
inductive Calls (place : Place) (cs : List CodePoint) : List CodePoint → Prop
  | intro {before after : List (List CodePoint)} {arg : List CodePoint} :
      callees l cs = before ++ arg :: after →
      (∀ b ∈ before, ∃ fuel e, expression c l fuel place.argument b = .ok (some e)) →
      Calls place cs arg

variable {c l} {place : Place}

@[simp] theorem argument_argument (place : Place) : place.argument.argument = place.argument := rfl

theorem exists_split_eq_singleton {cs : List CodePoint}
    (h : (Text.split groupMark cs).tail = []) : ∃ piece, Text.split groupMark cs = [piece] := by
  rcases e : Text.split groupMark cs with - | ⟨piece, rest⟩
  · exact absurd e (Text.split_ne_nil _ _)
  · rw [e] at h
    exact ⟨piece, by rw [show rest = [] from h]⟩

/-- A text without a mark refers to nothing. -/
theorem callees_of_no_mark {cs : List CodePoint} (h : (Text.split groupMark cs).tail = []) :
    callees l cs = [] := by
  obtain ⟨piece, hs⟩ := exists_split_eq_singleton h
  unfold callees
  rw [hs]

/-- Reading a text without a mark ends at once. -/
theorem expression_ne_endless_of_no_mark {cs : List CodePoint}
    (h : (Text.split groupMark cs).tail = []) (fuel : Nat) :
    expression c l fuel place cs ≠ .error .endlessOperand := by
  obtain ⟨piece, hs⟩ := exists_split_eq_singleton h
  unfold expression
  rw [hs]
  simp [bind_eq_error_iff, bare_ne_endless, unmask, unmaskFrom_ne_endless]

/-- A text with a mark needs fuel. -/
theorem expression_zero_of_mark {cs : List CodePoint} (h : (Text.split groupMark cs).tail ≠ []) :
    expression c l 0 place cs = .error .endlessOperand := by
  rw [expression]
  rcases e : Text.split groupMark cs with - | ⟨name, - | ⟨index, rest⟩⟩
  · simp [e] at h
  · simp [e] at h
  · rfl

/-- What a text with a mark is read to: the call of its name with the operands that the texts it
refers to are read to. -/
theorem expression_succ {cs name index : List CodePoint} {rest : List (List CodePoint)}
    (h : Text.split groupMark cs = name :: index :: rest) (fuel : Nat) :
    expression c l (fuel + 1) place cs = orNothing do
      let texts ← argumentTexts l index
      let args ← readAll (expression c l fuel place.argument) texts
      return args.bind (callOf? name) := by
  rw [expression, h]

/-- Reading several texts is endless at the first of them that is not read to the end. -/
theorem readAll_eq_endless_iff {read : List CodePoint → Except Fault (Option Expr)}
    {texts : List (List CodePoint)} :
    readAll read texts = .error .endlessOperand ↔
      ∃ before arg after, texts = before ++ arg :: after ∧
        (∀ b ∈ before, ∃ e, read b = .ok (some e)) ∧ read arg = .error .endlessOperand := by
  induction texts with
  | nil => simp [readAll]
  | cons cs texts ih =>
    constructor
    · intro h
      rcases e : read cs with f | - | x
      · obtain rfl : f = .endlessOperand := by simpa [readAll, e] using h
        exact ⟨[], cs, texts, rfl, by simp, e⟩
      · simp [readAll, e] at h
      · have hrest : readAll read texts = .error .endlessOperand := by
          simpa [readAll, e, bind_eq_error_iff] using h
        obtain ⟨before, arg, after, rfl, hbefore, harg⟩ := ih.mp hrest
        refine ⟨cs :: before, arg, after, rfl, ?_, harg⟩
        intro b hb
        rcases List.mem_cons.mp hb with rfl | hb
        · exact ⟨x, e⟩
        · exact hbefore b hb
    · rintro ⟨before, arg, after, heq, hbefore, harg⟩
      rcases before with - | ⟨b, before⟩
      · obtain ⟨rfl, rfl⟩ := List.cons.inj heq
        simp [readAll, harg]
      · obtain ⟨rfl, htexts⟩ := List.cons.inj heq
        obtain ⟨x, hx⟩ := hbefore cs (by simp)
        have hrest := ih.mpr ⟨before, arg, after, htexts, fun b hb => hbefore b (by simp [hb]), harg⟩
        simp [readAll, hx, hrest]

/-- One step of an endless reading: with fuel left, it is an endless reading of a text that is read
next. -/
theorem expression_succ_eq_endless_iff {cs : List CodePoint} {fuel : Nat} :
    expression c l (fuel + 1) place cs = .error .endlessOperand ↔
      ∃ before arg after, callees l cs = before ++ arg :: after ∧
        (∀ b ∈ before, ∃ e, expression c l fuel place.argument b = .ok (some e)) ∧
        expression c l fuel place.argument arg = .error .endlessOperand := by
  by_cases hmark : (Text.split groupMark cs).tail = []
  · simp [expression_ne_endless_of_no_mark hmark, callees_of_no_mark hmark]
  · obtain ⟨name, index, rest, hs⟩ :
        ∃ name index rest, Text.split groupMark cs = name :: index :: rest := by
      rcases e : Text.split groupMark cs with - | ⟨name, - | ⟨index, rest⟩⟩
      · simp [e] at hmark
      · simp [e] at hmark
      · exact ⟨name, index, rest, rfl⟩
    rw [expression_succ hs, orNothing_eq_endless_iff, ← readAll_eq_endless_iff]
    rcases e : argumentTexts l index with f | texts
    · have hf : f ≠ .endlessOperand := by
        rintro rfl
        exact argumentTexts_ne_endless l index e
      simp [callees, hs, e, Except.toOption, hf, readAll]
    · simp [callees, hs, e, Except.toOption, bind_eq_error_iff]

/-! ### Fuel -/

/-- Readers that agree on every text that the first reads to the end agree on lists of texts. -/
theorem readAll_congr {read read' : List CodePoint → Except Fault (Option Expr)}
    (h : ∀ cs, read cs ≠ .error .endlessOperand → read' cs = read cs) {texts : List (List CodePoint)}
    (hne : readAll read texts ≠ .error .endlessOperand) :
    readAll read' texts = readAll read texts := by
  induction texts with
  | nil => rfl
  | cons cs texts ih =>
    have hcs : read cs ≠ .error .endlessOperand := by
      intro e
      exact hne (by simp [readAll, e])
    rw [readAll, readAll, h cs hcs]
    rcases e : read cs with f | - | x
    · rfl
    · rfl
    · have htexts : readAll read texts ≠ .error .endlessOperand := by
        intro e'
        exact hne (by simp [readAll, e, e'])
      simp [ih htexts]

/-- More fuel changes nothing about a reading that came to its end. -/
theorem expression_succ_fuel {cs : List CodePoint} {fuel : Nat}
    (h : expression c l fuel place cs ≠ .error .endlessOperand) :
    expression c l (fuel + 1) place cs = expression c l fuel place cs := by
  induction fuel generalizing place cs with
  | zero =>
    have hmark : (Text.split groupMark cs).tail = [] := by
      by_contra hmark
      exact h (expression_zero_of_mark hmark)
    rcases e : Text.split groupMark cs with - | ⟨piece, rest⟩
    · exact absurd e (Text.split_ne_nil _ _)
    · obtain rfl : rest = [] := by simpa [e] using hmark
      rw [expression, expression, e]
  | succ fuel ih =>
    rcases e : Text.split groupMark cs with - | ⟨name, - | ⟨index, rest⟩⟩
    · exact absurd e (Text.split_ne_nil _ _)
    · rw [expression, expression, e]
    · rw [expression_succ e, expression_succ e]
      rw [expression_succ e, ne_eq, orNothing_eq_endless_iff] at h
      rcases et : argumentTexts l index with f | texts
      · rfl
      · have hread : readAll (expression c l fuel place.argument) texts ≠
            .error .endlessOperand := by
          intro e'
          exact h (by simp [et, e'])
        rw [ok_bind, ok_bind, readAll_congr (fun cs hcs => ih hcs) hread]

theorem expression_of_le {cs : List CodePoint} {fuel more : Nat} (hle : fuel ≤ more)
    (h : expression c l fuel place cs ≠ .error .endlessOperand) :
    expression c l more place cs = expression c l fuel place cs := by
  induction hle with
  | refl => rfl
  | step _ ih => rw [expression_succ_fuel (by rwa [ih]), ih]

/-- A text that is read to an operand for some fuel is read to it or needs more fuel. -/
theorem expression_eq_some_or_endless {cs : List CodePoint} {enough : Nat} {e : Expr}
    (h : expression c l enough place cs = .ok (some e)) (fuel : Nat) :
    expression c l fuel place cs = .ok (some e) ∨
      expression c l fuel place cs = .error .endlessOperand := by
  by_cases hend : expression c l fuel place cs = .error .endlessOperand
  · exact .inr hend
  · left
    rcases Nat.le_total fuel enough with hle | hle
    · rw [← expression_of_le hle hend, h]
    · rw [expression_of_le hle (by simp [h]), h]

/-! ### Reading ends where chains of calls end -/

theorem calls_argument : Calls c l place.argument = Calls c l place := by
  funext cs arg
  apply propext
  constructor <;> exact fun ⟨h, hbefore⟩ => ⟨h, hbefore⟩

/-- A reading with one unit of fuel more than its call is endless if the call is. -/
theorem Calls.endless {cs arg : List CodePoint} {fuel : Nat} (h : Calls c l place cs arg)
    (harg : expression c l fuel place.argument arg = .error .endlessOperand) :
    expression c l (fuel + 1) place cs = .error .endlessOperand := by
  obtain ⟨heq, hbefore⟩ := h
  rename_i before after
  rw [expression_succ_eq_endless_iff, heq, ← readAll_eq_endless_iff]
  clear heq
  induction before with
  | nil => simp [readAll, harg]
  | cons b before ih =>
    obtain ⟨enough, e, he⟩ := hbefore b (by simp)
    rcases expression_eq_some_or_endless he fuel with hb | hb
    · simp [readAll, hb, ih fun b hb => hbefore b (by simp [hb])]
    · simp [readAll, hb]

/-- If reading ends for some fuel then so does every chain of calls. -/
theorem acc_of_ne_endless {cs : List CodePoint} {fuel : Nat}
    (h : expression c l fuel place cs ≠ .error .endlessOperand) :
    Acc (fun b a => Calls c l place a b) cs := by
  induction fuel generalizing place cs with
  | zero =>
    have hmark : (Text.split groupMark cs).tail = [] := by
      by_contra hmark
      exact h (expression_zero_of_mark hmark)
    refine Acc.intro cs fun arg hcall => ?_
    obtain ⟨heq, -⟩ := hcall
    rw [callees_of_no_mark hmark] at heq
    simp at heq
  | succ fuel ih =>
    refine Acc.intro cs fun arg hcall => ?_
    rw [← calls_argument]
    exact ih fun harg => h (hcall.endless harg)

/-- An endless reading makes as many calls, one from the other, as it has fuel, all of texts with
marks. -/
theorem exists_chain_of_endless {cs : List CodePoint} {fuel : Nat}
    (h : expression c l fuel place cs = .error .endlessOperand) :
    ∃ chain : Nat → List CodePoint, chain 0 = cs ∧
      ∀ i < fuel, Calls c l place (chain i) (chain (i + 1)) := by
  induction fuel generalizing place cs with
  | zero => exact ⟨fun _ => cs, rfl, by simp⟩
  | succ fuel ih =>
    obtain ⟨before, arg, after, heq, hbefore, harg⟩ := expression_succ_eq_endless_iff.mp h
    obtain ⟨chain, rfl, hchain⟩ := ih harg
    refine ⟨fun i => Nat.casesOn i cs chain, rfl, fun i hi => ?_⟩
    rcases i with - | i
    · exact ⟨heq, fun b hb => ⟨fuel, hbefore b hb⟩⟩
    · rw [← calls_argument]
      exact hchain i (by omega)

/-! ### Circles -/

/-- The place in the list of groups that a number stands for; negative numbers count from the
end. -/
def Linear.position? (l : Linear) (n : Int) : Option Nat :=
  if n < 0 then if -n ≤ l.groups.length then some (l.groups.length - n.natAbs) else none
  else some n.toNat

/-- The place of the group that a text refers to. -/
def Linear.reference? (l : Linear) (cs : List CodePoint) : Option Nat :=
  match Text.split groupMark cs with
  | _ :: index :: _ => (Numeral.int? (index.map CodePoint.toChar)).bind l.position?
  | _ => none

theorem group?_eq (n : Int) : l.group? n = (l.position? n).bind (l.groups[·]?) := by
  unfold Linear.group? Linear.position?
  split
  · split <;> simp
  · simp

/-- The arguments in a group; a group that cannot be read has none. -/
def Linear.argumentsIn (l : Linear) (group : List CodePoint) : List (List CodePoint) :=
  ((unmask l.quoted group).toOption.map fun u =>
    arguments ((Text.trimPoints u).drop 1).dropLast).getD []

/-- The texts that a text refers to are the arguments of the group at the place that it refers
to. -/
theorem callees_eq (cs : List CodePoint) :
    callees l cs = (((l.reference? cs).bind (l.groups[·]?)).map l.argumentsIn).getD [] := by
  unfold callees Linear.reference?
  rcases Text.split groupMark cs with - | ⟨name, - | ⟨index, rest⟩⟩
  · rfl
  · rfl
  · dsimp only
    unfold argumentTexts
    rcases Numeral.int? (index.map CodePoint.toChar) with - | n
    · rfl
    · simp only [Option.bind_some, group?_eq]
      rcases (l.position? n).bind (l.groups[·]?) with - | group
      · rfl
      · simp only [Option.map_some, Option.getD_some, Linear.argumentsIn]
        rcases unmask l.quoted group with f | u <;> rfl

theorem callees_congr {a b : List CodePoint} (h : l.reference? a = l.reference? b) :
    callees l a = callees l b := by
  rw [callees_eq, callees_eq, h]

theorem Calls.reference_lt {cs arg : List CodePoint} (h : Calls c l place cs arg) :
    ∃ i < l.groups.length, l.reference? cs = some i := by
  obtain ⟨heq, -⟩ := h
  rw [callees_eq] at heq
  rcases e : l.reference? cs with - | i
  · simp [e] at heq
  · rcases Nat.lt_or_ge i l.groups.length with hi | hi
    · exact ⟨i, hi, rfl⟩
    · simp [e, hi] at heq

/-- What one text calls, another text that refers to the same group calls as well. -/
theorem Calls.congr {a b arg : List CodePoint} (h : Calls c l place a arg)
    (href : l.reference? a = l.reference? b) : Calls c l place b arg := by
  obtain ⟨heq, hbefore⟩ := h
  exact ⟨callees_congr href ▸ heq, hbefore⟩

/-- A chain of calls from a text comes back to where it was. -/
def Circles (c : Catalog) (l : Linear) (place : Place) (cs : List CodePoint) : Prop :=
  ∃ a, Relation.ReflTransGen (Calls c l place) cs a ∧ Relation.TransGen (Calls c l place) a a

/-- Every chain of calls from a text ends. Since a text calls finitely many others, it then takes
finitely many calls to read it. -/
def Ends (c : Catalog) (l : Linear) (place : Place) (cs : List CodePoint) : Prop :=
  Acc (fun b a => Calls c l place a b) cs

theorem reflTransGen_of_chain {α : Type} {r : α → α → Prop} {chain : Nat → α} {n i j : Nat}
    (hchain : ∀ k < n, r (chain k) (chain (k + 1))) (hij : i ≤ j) (hj : j ≤ n) :
    Relation.ReflTransGen r (chain i) (chain j) := by
  induction hij with
  | refl => exact .refl
  | @step k hik ih => exact (ih (by omega)).tail (hchain k (by omega))

/-- More calls in a row than there are groups make a circle: two of the texts refer to one group,
so the later one calls what the earlier one did. -/
theorem circles_of_chain {chain : Nat → List CodePoint}
    (hchain : ∀ i < l.groups.length + 1, Calls c l place (chain i) (chain (i + 1))) :
    Circles c l place (chain 0) := by
  choose! ref hlt href using fun i hi => (hchain i hi).reference_lt
  let f : Fin (l.groups.length + 1) → Fin l.groups.length := fun i => ⟨ref i, hlt i i.isLt⟩
  obtain ⟨i, j, hne, hf⟩ := Fintype.exists_ne_map_eq_of_card_lt f (by simp)
  have key : ∀ i j : Nat, i < j → j < l.groups.length + 1 → ref i = ref j →
      Circles c l place (chain 0) := by
    intro i j hij hj heq
    have hback : Calls c l place (chain j) (chain (i + 1)) := by
      refine (hchain i (by omega)).congr ?_
      rw [href i (by omega), href j hj, heq]
    exact ⟨chain (i + 1), reflTransGen_of_chain hchain (by omega) (by omega),
      .tail' (reflTransGen_of_chain hchain (by omega) (by omega)) hback⟩
  have hval : ref i = ref j := congrArg Fin.val hf
  rcases Nat.lt_or_gt_of_ne fun h => hne (Fin.ext h) with hij | hij
  · exact key i j hij j.isLt hval
  · exact key j i hij i.isLt hval.symm

/-- Nothing accessible is related to itself. -/
theorem not_rel_self_of_acc {α : Type} {r : α → α → Prop} {a : α} (h : Acc r a) : ¬ r a a := by
  induction h with
  | intro a _ ih => exact fun hloop => ih a hloop hloop

theorem Ends.of_reaches {cs a : List CodePoint} (h : Ends c l place cs)
    (hreach : Relation.ReflTransGen (Calls c l place) cs a) : Ends c l place a := by
  induction hreach with
  | refl => exact h
  | tail _ hcall ih => exact ih.inv hcall

theorem Circles.not_ends {cs : List CodePoint} (h : Circles c l place cs) :
    ¬ Ends c l place cs := by
  obtain ⟨a, hreach, hloop⟩ := h
  intro hends
  exact not_rel_self_of_acc (hends.of_reaches hreach).transGen
    (Relation.transGen_swap.mpr hloop)

/-- As much fuel as there are groups, and one unit more, is enough for every reading that ends. -/
theorem expression_eq_endless_iff_circles {cs : List CodePoint} :
    expression c l (l.groups.length + 1) place cs = .error .endlessOperand ↔
      Circles c l place cs := by
  constructor
  · intro h
    obtain ⟨chain, rfl, hchain⟩ := exists_chain_of_endless h
    exact circles_of_chain hchain
  · intro h
    by_contra hne
    exact h.not_ends (acc_of_ne_endless hne)

theorem ends_iff_not_circles {cs : List CodePoint} :
    Ends c l place cs ↔ ¬ Circles c l place cs := by
  constructor
  · exact fun hends hcircles => hcircles.not_ends hends
  · intro h
    exact acc_of_ne_endless fun he => h (expression_eq_endless_iff_circles.mp he)

end RecordFilter.Operand
