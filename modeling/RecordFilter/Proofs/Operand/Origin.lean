import RecordFilter.Operand.Reading
import RecordFilter.Proofs.Outcome

/-!
# Where operands come from

What each step of reading an operand gives, in terms of the steps below it. A value that is no map is
read as a literal, or its text is read and what it denotes has to fit the schema; a map spells out a
property or a literal (`Operand.read?_eq_some_cases`, `Operand.ofEntries_eq_ok_cases`). A text denotes a
call, a path, or a literal of a text or a number (`Operand.expression_eq_some_cases`,
`Operand.bare_eq_ok_cases`). So what holds of these few operands, and is kept by checking them, holds
of every operand that is read.
-/

namespace RecordFilter

/-! ### Literals and checked operands -/

namespace Expr

theorem ofValue_eq_ok_iff {v : Value} {type : Option DataType} {explicit : Bool} {e : Expr} :
    Expr.ofValue v type explicit = .ok e ↔
      ∃ w, (type.getD (DataType.infer v)).read v = .ok w ∧
        e = .literal w (some (.data (type.getD (DataType.infer v)))) explicit {} := by
  unfold Expr.ofValue
  dsimp only
  rw [bind_eq_ok_iff]
  exact exists_congr fun w => and_congr_right fun _ => ⟨fun h => (Except.ok.inj h).symm,
    fun h => congrArg Except.ok h.symm⟩

/-- A literal whose type is named is a literal of some type. -/
theorem exists_ofValue_of_literalOf {v typeName : Value} {explicit : Bool} {e : Expr}
    (h : literalOf v typeName explicit = .ok e) : ∃ type, ofValue v type explicit = .ok e := by
  unfold literalOf at h
  split at h
  · exact ⟨_, h⟩
  · cases h

variable {c : Catalog} {schema : Option EntityId}

/-- An operand fits exactly when the check finds no fault, and it is then what the check gives. -/
theorem fit_eq_ok_iff {e e' : Expr} : e.fit c schema = .ok e' ↔ e.check c schema = (e', none) := by
  unfold fit
  rcases e.check c schema with ⟨e₀, - | fault⟩ <;> simp

theorem fit_eq_error_iff {e : Expr} {fault : Fault} :
    e.fit c schema = .error fault ↔ (e.check c schema).2 = some fault := by
  unfold fit
  rcases e.check c schema with ⟨e₀, - | fault'⟩ <;> simp

/-- An operand that fits is the one that the check gives. -/
theorem eq_of_fit {e e' : Expr} (h : e.fit c schema = .ok e') : (e.check c schema).1 = e' :=
  congrArg Prod.fst (fit_eq_ok_iff.mp h)

end Expr

namespace Operand

variable {c : Catalog} {place : Place}

/-! ### Texts without calls -/

/-- A text, an integer or a double, as which a text without calls denotes its literal. -/
inductive IsDenoted : Value → Prop
  | text (s : Text) : IsDenoted (.text s)
  | int (n : Int) : IsDenoted (.int n)
  | double (d : Double) : IsDenoted (.double d)

theorem isDenoted_numberValue (cs : List CodePoint) : IsDenoted (numberValue cs) := by
  unfold numberValue
  dsimp only
  split
  · exact .int _
  · exact .double _

/-- **A text without calls denotes** the path of that text, or a literal. The literal is of the type that
the place asks for, except for numbers among the arguments of a call. -/
theorem bare_eq_ok_cases {cs : List CodePoint} {e : Expr} (h : bare c place cs = .ok e) :
    e = .path (Value.ofPoints cs) none {} ∨
      ∃ v type, IsDenoted v ∧ Expr.ofValue v type false = .ok e ∧
        (place.isArgument = false → ∀ t, place.hint = some t → type = some t) := by
  have htext : ∀ {ds : List CodePoint}, Expr.ofValue (Value.ofPoints ds) place.hint false = .ok e →
      ∃ v type, IsDenoted v ∧ Expr.ofValue v type false = .ok e ∧
        (place.isArgument = false → ∀ t, place.hint = some t → type = some t) :=
    fun he => ⟨_, _, .text _, he, fun _ _ ht => ht⟩
  have hnumber : (place.isArgument && isNumber cs) = true →
      Expr.ofValue (numberValue cs) none false = .ok e →
        ∃ v type, IsDenoted v ∧ Expr.ofValue v type false = .ok e ∧
          (place.isArgument = false → ∀ t, place.hint = some t → type = some t) := by
    intro hargument he
    refine ⟨_, _, isDenoted_numberValue cs, he, fun hnone => ?_⟩
    rw [hnone] at hargument
    cases hargument
  unfold bare at h
  split at h
  · exact .inr ⟨_, _, .text _, h, fun _ t ht => by rw [ht]; rfl⟩
  · dsimp only at h
    repeat' split at h
    all_goals
      first
      | exact .inl (Except.ok.inj h).symm
      | exact .inr (htext h)
      | exact .inr (hnumber ‹_› h)

/-! ### Texts with calls -/

/-- Operands are read from texts exactly when one is read from the first and the others from the rest. -/
theorem readAll_cons_eq_some_iff {read : List CodePoint → Except Fault (Option Expr)}
    {cs : List CodePoint} {rest : List (List CodePoint)} {all : List Expr} :
    readAll read (cs :: rest) = .ok (some all) ↔
      ∃ e es, all = e :: es ∧ read cs = .ok (some e) ∧ readAll read rest = .ok (some es) := by
  rw [readAll]
  constructor
  · intro h
    obtain ⟨r, hr, h⟩ := bind_eq_ok_iff.mp h
    rcases r with - | e
    · cases h
    · obtain ⟨rs, hrs, h⟩ := bind_eq_ok_iff.mp h
      rcases rs with - | es
      · cases h
      · cases h
        exact ⟨e, es, rfl, hr, hrs⟩
  · rintro ⟨e, es, rfl, he, hes⟩
    rw [he, ok_bind]
    dsimp only
    rw [hes]
    rfl

theorem readAll_cons {read : List CodePoint → Except Fault (Option Expr)} {cs : List CodePoint}
    {rest : List (List CodePoint)} {e : Expr} {es : List Expr} (he : read cs = .ok (some e))
    (hes : readAll read rest = .ok (some es)) : readAll read (cs :: rest) = .ok (some (e :: es)) :=
  readAll_cons_eq_some_iff.mpr ⟨e, es, rfl, he, hes⟩

/-- What holds of the operand of each text holds of all operands that are read. -/
theorem forall_of_readAll {motive : Expr → Prop}
    {read : List CodePoint → Except Fault (Option Expr)}
    (hread : ∀ {cs e}, read cs = .ok (some e) → motive e) :
    ∀ {texts : List (List CodePoint)} {es : List Expr},
      readAll read texts = .ok (some es) → ∀ e ∈ es, motive e
  | [], es, h => by
    cases h
    simp
  | cs :: rest, es, h => by
    obtain ⟨e, es', rfl, he, hes⟩ := readAll_cons_eq_some_iff.mp h
    intro x hx
    rcases List.mem_cons.mp hx with rfl | hx
    · exact hread he
    · exact forall_of_readAll hread hes x hx

theorem orNothing_eq_some {α : Type} {x : Except Fault (Option α)} {a : α}
    (h : orNothing x = .ok (some a)) : x = .ok (some a) := by
  rcases x with f | r
  · cases f <;> simp [orNothing] at h
  · exact h

/-- What is read from a text: an operand without calls if it refers to nothing, or else the call of the
function that it names with the operands that the texts in its group are read to. -/
theorem expression_eq_some_cases {c : Catalog} {l : Linear} {fuel : Nat} {place : Place}
    {cs : List CodePoint} {e : Expr} (h : expression c l fuel place cs = .ok (some e)) :
    ((Text.split groupMark cs).tail = [] ∧ ∃ token, unmask l.quoted cs = .ok token ∧
      bare c place (Text.trimPoints token) = .ok e) ∨
    ∃ less name index rest texts args f, fuel = less + 1 ∧
      Text.split groupMark cs = name :: index :: rest ∧ argumentTexts l index = .ok texts ∧
      readAll (expression c l less place.argument) texts = .ok (some args) ∧
      Function.ofName? (Text.mk (Text.trimPoints name)) = some f ∧
      e = .call f args (some (.data f.resultType)) {} := by
  unfold expression at h
  split at h
  · rename_i name index rest hsplit
    split at h
    · cases h
    · rename_i less
      obtain ⟨texts, htexts, h⟩ := bind_eq_ok_iff.mp (orNothing_eq_some h)
      obtain ⟨args, hargs, h⟩ := bind_eq_ok_iff.mp h
      rcases args with - | args
      · cases h
      · have hcall : callOf? name args = some e := by simpa using h
        obtain ⟨f, hf, rfl⟩ := Option.map_eq_some_iff.mp hcall
        exact .inr ⟨less, name, index, rest, texts, args, f, rfl, hsplit, htexts, hargs, hf, rfl⟩
  · rename_i hnone
    obtain ⟨token, htoken, h⟩ := bind_eq_ok_iff.mp h
    obtain ⟨e', he', h⟩ := bind_eq_ok_iff.mp h
    cases h
    refine .inl ⟨?_, token, htoken, he'⟩
    rcases hsplit : Text.split groupMark cs with - | ⟨name, - | ⟨index, rest⟩⟩
    · rfl
    · rfl
    · exact (hnone name index rest hsplit).elim

/-- Induction over what is read from a text: an operand without calls, or a call of a function with
arguments that were read themselves. -/
theorem expression_byCalls {motive : Expr → Prop} {c : Catalog} {l : Linear}
    (leaf : ∀ {place cs e}, bare c place cs = .ok e → motive e)
    (call : ∀ (f : Function) (args : List Expr), (∀ e ∈ args, motive e) →
      motive (.call f args (some (.data f.resultType)) {}))
    {fuel : Nat} {place : Place} {cs : List CodePoint} {e : Expr}
    (h : expression c l fuel place cs = .ok (some e)) : motive e := by
  induction fuel using Nat.strongRecOn generalizing place cs e with
  | _ fuel ih =>
    rcases expression_eq_some_cases h with ⟨-, token, -, he⟩ | ⟨less, _, _, _, _, args, f, rfl, -, -,
      hargs, -, rfl⟩
    · exact leaf he
    · exact call f args (forall_of_readAll (fun hr => ih less (Nat.lt_succ_self less) hr) hargs)

/-! ### Operands -/

/-- **A map spells out** a property, which has to fit the schema, or a literal. -/
theorem ofEntries_eq_ok_cases {entries : List (Value × Value)} {e : Expr}
    (h : ofEntries c place entries = .ok e) :
    ∃ v, Value.lookup? (.text "value") entries = some v ∧
      (((Value.lookup? (.text "isProperty") entries).getD .null).truthy ∧
          Expr.fit c place.schema (.path v none {}) = .ok e ∨
        ∃ type, Expr.ofValue v type true = .ok e) := by
  unfold ofEntries at h
  dsimp only at h
  split at h
  · cases h
  · rename_i v hv
    refine ⟨v, hv, ?_⟩
    split at h
    · rename_i hproperty
      exact .inl ⟨hproperty, h⟩
    · split at h
      · exact .inr (Expr.exists_ofValue_of_literalOf h)
      · exact .inr ⟨_, h⟩

section

variable {source : Value} {s : Text} {e : Expr}

/-- A value that is neither text nor map is read as a literal. -/
theorem read?_of_not_text (htext : source.asText? = none) (hmap : source.isMap = false) :
    read? c place source = (Expr.ofValue source place.hint false).map some := by
  unfold read?
  rw [htext]
  cases source
  case map => cases hmap
  all_goals rfl

/-- Where there is no schema a text on the right is a literal. -/
theorem read?_of_schemaless_right (htext : source.asText? = some s) (hright : place.isRight)
    (hs : c.isSchemaless place.schema) :
    read? c place source = (Expr.ofValue source place.hint false).map some := by
  unfold read?
  rw [htext]
  dsimp only
  rw [hright, hs]
  rfl

/-- Elsewhere the operand that a text denotes has to fit the schema. -/
theorem read?_of_ofText? (h : ofText? c place s.points = .ok (some e)) (htext : source.asText? = some s)
    (hplace : place.isRight = false ∨ c.isSchemaless place.schema = false) :
    read? c place source = (e.fit c place.schema).map some := by
  unfold read?
  rw [htext]
  dsimp only
  rw [if_neg (by rcases hplace with h | h <;> simp [h]), h, ok_bind]
  dsimp only
  rcases e.fit c place.schema <;> rfl

/-- **An operand is read** from a map, as a literal of its source, or from its text. A text is read as a
literal of its own only on the right. -/
theorem read?_eq_some_cases (h : read? c place source = .ok (some e)) :
    (∃ entries, source = .map entries ∧ ofEntries c place entries = .ok e) ∨
      ((source.asText? = none ∨ place.isRight) ∧ Expr.ofValue source place.hint false = .ok e) ∨
        ∃ s e₀, source.asText? = some s ∧ ofText? c place s.points = .ok (some e₀) ∧
          e₀.fit c place.schema = .ok e := by
  have hmap : ∀ {x : Except Fault Expr}, x.map some = .ok (some e) → x = .ok e := by
    intro x hx
    obtain ⟨e', he', heq⟩ := map_eq_ok_iff.mp hx
    cases heq
    exact he'
  unfold read? at h
  split at h
  · rename_i hnone
    split at h
    · exact .inl ⟨_, rfl, hmap h⟩
    · exact .inr (.inl ⟨.inl hnone, hmap h⟩)
  · rename_i s hs
    split at h
    · rename_i hplace
      exact .inr (.inl ⟨.inr (Bool.and_eq_true_iff.mp hplace).1, hmap h⟩)
    · obtain ⟨r, hr, h⟩ := bind_eq_ok_iff.mp h
      rcases r with - | e₀
      · -- a text on the right that calls nothing is a literal
        dsimp only at h
        split at h
        · rename_i hright
          obtain ⟨e', he', h⟩ := bind_eq_ok_iff.mp h
          cases h
          exact .inr (.inl ⟨.inr hright, he'⟩)
        · cases h
      · obtain ⟨e', hfit, h⟩ := bind_eq_ok_iff.mp h
        cases h
        exact .inr (.inr ⟨s, e₀, hs, hr, hfit⟩)

end

end Operand

end RecordFilter
