import Mathlib.Data.List.Induction
import Mathlib.Data.List.Nodup
import RecordFilter.Operator.Registry
import RecordFilter.Proofs.Outcome

/-!
# Runs of registrations

A registry is made by registering one kind after the other, and all it knows can be read off the list of
registrations: a kind has the operators of its most recent one (`spellings_of_isLatest`,
`spellings_of_forall_ne`), and among these a spelling belongs to the last entry that answers to it
(`find?_ofList`). `Registry.resolve_registerAll` puts the two together, with what a run says about the
other kinds and about the names of the kinds.
-/

namespace RecordFilter

variable {φ : Type}

/-- A list with an element that has a property is cut at the last such element. -/
theorem exists_eq_append_last {α : Type} {P : α → Prop} {xs : List α} (h : ∃ x ∈ xs, P x) :
    ∃ before x after, xs = before ++ x :: after ∧ P x ∧ ∀ y ∈ after, ¬ P y := by
  induction xs with
  | nil =>
    obtain ⟨x, hx, -⟩ := h
    cases hx
  | cons x xs ih =>
    by_cases hxs : ∃ y ∈ xs, P y
    · obtain ⟨before, y, after, rfl, hy, hafter⟩ := ih hxs
      exact ⟨x :: before, y, after, rfl, hy, hafter⟩
    · obtain ⟨y, hy, hPy⟩ := h
      obtain rfl | hy := List.mem_cons.mp hy
      · exact ⟨[], y, xs, rfl, hPy, fun z hz hPz => hxs ⟨z, hz, hPz⟩⟩
      · exact absurd ⟨y, hy, hPy⟩ hxs

/-! ### The spellings of one kind -/

/-- An operator answers to a text that is its key or one of its aliases, in any letter case. -/
def MarkedOperator.AnswersTo (op : MarkedOperator φ) (token : Text) : Prop :=
  Text.lower op.key = Text.lower token ∨ ∃ a ∈ op.aliases, Text.lower a = Text.lower token

/-- The operator as it stands in a registry, with its key in small letters. -/
def MarkedOperator.lowered (op : MarkedOperator φ) : MarkedOperator φ :=
  { op with key := Text.lower op.key }

namespace Spellings

theorem find?_insert (spelling s : Text) (op : MarkedOperator φ) (known : Spellings φ) :
    (insert spelling op known).find? s = if spelling = s then some op else known.find? s := by
  induction known with
  | nil => rfl
  | cons entry rest ih =>
    obtain ⟨t, o⟩ := entry
    rw [insert]
    by_cases ht : t = spelling
    · subst ht
      rw [if_pos rfl, find?, find?]
      split <;> rfl
    · rw [if_neg ht, find?, find?, ih]
      by_cases hts : t = s
      · subst hts
        rw [if_pos rfl, if_neg (Ne.symm ht), if_pos rfl]
      · rw [if_neg hts, if_neg hts]

/-- Aliases that are added stand for the operator and leave all other spellings as they are. -/
theorem find?_foldl_aliases (s : Text) (op : MarkedOperator φ) (aliases : List Text)
    (known : Spellings φ) :
    find? s (aliases.foldl (fun known a => insert (Text.lower a) op known) known) =
      if ∃ a ∈ aliases, Text.lower a = s then some op else known.find? s := by
  induction aliases generalizing known with
  | nil => simp
  | cons a aliases ih =>
    rw [List.foldl_cons, ih, find?_insert]
    by_cases haliases : ∃ a ∈ aliases, Text.lower a = s
    · rw [if_pos haliases, if_pos (by simp [haliases])]
    · rw [if_neg haliases]
      by_cases ha : Text.lower a = s
      · rw [if_pos ha, if_pos ⟨a, List.mem_cons_self, ha⟩]
      · rw [if_neg ha, if_neg (by simpa [ha] using haliases)]

theorem find?_add_of_answersTo {op : MarkedOperator φ} {token : Text} (h : op.AnswersTo token)
    (known : Spellings φ) : (known.add op.lowered).find? (Text.lower token) = some op.lowered := by
  rw [add, find?_foldl_aliases, find?_insert]
  split
  · rfl
  · obtain hkey | halias := h
    · exact if_pos hkey
    · exact absurd halias ‹_›

theorem find?_add_of_not_answersTo {op : MarkedOperator φ} {token : Text} (h : ¬ op.AnswersTo token)
    (known : Spellings φ) :
    (known.add op.lowered).find? (Text.lower token) = known.find? (Text.lower token) := by
  have hkey : ¬ op.lowered.key = Text.lower token := mt Or.inl h
  have haliases : ¬ ∃ a ∈ op.lowered.aliases, Text.lower a = Text.lower token := mt Or.inr h
  rw [add, find?_foldl_aliases, find?_insert, if_neg haliases, if_neg hkey]

/-- Entries that do not answer to a text leave its operator as it is. -/
theorem find?_foldl_of_not_answersTo {token : Text} {ops : List (MarkedOperator φ)}
    (h : ∀ op ∈ ops, ¬ op.AnswersTo token) (known : Spellings φ) :
    find? (Text.lower token) (ops.foldl (fun known op => add known op.lowered) known) =
      known.find? (Text.lower token) := by
  induction ops generalizing known with
  | nil => rfl
  | cons op ops ih =>
    rw [List.foldl_cons, ih fun o ho => h o (List.mem_cons_of_mem op ho),
      find?_add_of_not_answersTo (h op List.mem_cons_self)]

/-- A text stands for the last entry that answers to it. -/
theorem find?_ofList {token : Text} {before after : List (MarkedOperator φ)} {op : MarkedOperator φ}
    (hop : op.AnswersTo token) (hafter : ∀ o ∈ after, ¬ o.AnswersTo token) :
    (ofList (before ++ op :: after)).find? (Text.lower token) = some op.lowered := by
  rw [ofList, List.foldl_append, List.foldl_cons]
  exact (find?_foldl_of_not_answersTo hafter _).trans (find?_add_of_answersTo hop _)

theorem find?_ofList_eq_none {token : Text} {ops : List (MarkedOperator φ)}
    (h : ∀ op ∈ ops, ¬ op.AnswersTo token) : (ofList ops).find? (Text.lower token) = none :=
  find?_foldl_of_not_answersTo h []

end Spellings

/-! ### The kinds -/

namespace Registry

theorem lookup_cons_ite (k l : Text) (s : Spellings φ) (rest : List (Text × Spellings φ)) :
    List.lookup k ((l, s) :: rest) = if k = l then some s else List.lookup k rest := by
  by_cases hk : k = l
  · simp [hk]
  · have hb : (k == l) = false := beq_eq_false_iff_ne.mpr hk
    simp [List.lookup_cons, hb, hk]

theorem lookup_put (kind k : Text) (s : Spellings φ) (entries : List (Text × Spellings φ)) :
    (put kind s entries).lookup k = if k = kind then some s else entries.lookup k := by
  induction entries with
  | nil => exact lookup_cons_ite k kind s []
  | cons entry rest ih =>
    obtain ⟨l, t⟩ := entry
    rw [put]
    by_cases hl : l = kind
    · subst hl
      rw [if_pos rfl, lookup_cons_ite, lookup_cons_ite]
      split <;> rfl
    · rw [if_neg hl, lookup_cons_ite, lookup_cons_ite, ih]
      by_cases hk : k = l
      · rw [if_pos hk, if_pos hk, if_neg (hk ▸ hl)]
      · rw [if_neg hk, if_neg hk]

theorem keys_put (kind : Text) (s : Spellings φ) (entries : List (Text × Spellings φ)) :
    (put kind s entries).map Prod.fst =
      if kind ∈ entries.map Prod.fst then entries.map Prod.fst else entries.map Prod.fst ++ [kind] := by
  induction entries with
  | nil => rfl
  | cons entry rest ih =>
    obtain ⟨k, t⟩ := entry
    rw [put]
    by_cases hk : k = kind
    · subst hk
      simp
    · rw [if_neg hk, List.map_cons, ih, List.map_cons]
      by_cases hrest : kind ∈ rest.map Prod.fst
      · rw [if_pos hrest, if_pos (List.mem_cons_of_mem k hrest)]
      · rw [if_neg hrest, if_neg (by simpa [Ne.symm hk] using hrest)]
        rfl

variable (r : Registry φ) (kind : Text) (ops : List (MarkedOperator φ))

theorem spellings_register_self : (r.register kind ops).spellings kind = Spellings.ofList ops := by
  rw [spellings, register, lookup_put, if_pos rfl]
  rfl

variable {kind} in
theorem spellings_register_of_ne {other : Text} (h : other ≠ kind) :
    (r.register kind ops).spellings other = r.spellings other := by
  rw [spellings, register, lookup_put, if_neg h]
  rfl

theorem kinds_register :
    (r.register kind ops).kinds = if kind ∈ r.kinds then r.kinds else r.kinds ++ [kind] :=
  keys_put kind _ r.entries

/-- A registry that has the same operators of a kind answers to everything in the same way. -/
theorem resolve_congr {r r' : Registry φ} {kind : Text} (h : r.spellings kind = r'.spellings kind)
    (token : Value) : r.resolve kind token = r'.resolve kind token := by
  rw [resolve, resolve, lookup, lookup, find?, find?, h]

/-- What a text is resolved to is what it stands for among the operators of the kind. -/
theorem resolve_text (token : Text) :
    r.resolve kind (.text token) = match (r.spellings kind).find? (Text.lower token) with
      | some op => .ok op
      | none => .error (.construction (.unknownOperator (Value.text token).display)) := by
  have hfind : r.find? kind (.text token) = (r.spellings kind).find? (Text.lower token) := rfl
  rw [resolve, lookup, if_pos (show canFind (.text token) = true from rfl), ok_bind, hfind]
  cases (r.spellings kind).find? (Text.lower token) <;> rfl

/-! ### Runs -/

/-- A kind with the operators that are registered for it. -/
abbrev Registration (φ : Type) := Text × List (MarkedOperator φ)

/-- The registry after some registrations. -/
def registerAll (r : Registry φ) (run : List (Registration φ)) : Registry φ :=
  run.foldl (fun r entry => r.register entry.1 entry.2) r

/-- The operators of the most recent registration of a kind. -/
def IsLatest (run : List (Registration φ)) (kind : Text) (ops : List (MarkedOperator φ)) : Prop :=
  ∃ earlier later, run = earlier ++ (kind, ops) :: later ∧ ∀ entry ∈ later, entry.1 ≠ kind

/-- The different names in a list, in order of their first occurrence. -/
structure IsListing (names kinds : List Text) : Prop where
  nodup : kinds.Nodup
  mem_iff : ∀ name, name ∈ kinds ↔ name ∈ names
  ordered : kinds.Pairwise fun a b => names.idxOf a < names.idxOf b

theorem registerAll_append (run run' : List (Registration φ)) :
    r.registerAll (run ++ run') = (r.registerAll run).registerAll run' :=
  List.foldl_append

/-- A run that does not register a kind leaves its operators as they are. -/
theorem spellings_of_forall_ne {run : List (Registration φ)} {kind : Text}
    (h : ∀ entry ∈ run, entry.1 ≠ kind) : (r.registerAll run).spellings kind = r.spellings kind := by
  induction run generalizing r with
  | nil => rfl
  | cons entry run ih =>
    rw [registerAll, List.foldl_cons, ← registerAll, ih _ fun e he => h e (List.mem_cons_of_mem _ he)]
    exact spellings_register_of_ne r entry.2 (h entry List.mem_cons_self).symm

/-- After a run a kind has the operators of its most recent registration. -/
theorem spellings_of_isLatest {run : List (Registration φ)} {kind : Text}
    {ops : List (MarkedOperator φ)} (h : IsLatest run kind ops) :
    (r.registerAll run).spellings kind = Spellings.ofList ops := by
  obtain ⟨earlier, later, rfl, hlater⟩ := h
  rw [registerAll_append, registerAll, List.foldl_cons, ← registerAll,
    spellings_of_forall_ne _ hlater, spellings_register_self]

theorem exists_isLatest {run : List (Registration φ)} {kind : Text} {entry : Registration φ}
    (hmem : entry ∈ run) (hkind : entry.1 = kind) : ∃ ops, IsLatest run kind ops := by
  obtain ⟨earlier, ⟨k, ops⟩, later, hrun, rfl, hlater⟩ :=
    exists_eq_append_last (P := fun e : Registration φ => e.1 = kind) ⟨entry, hmem, hkind⟩
  exact ⟨ops, earlier, later, hrun, hlater⟩

/-- The last entry that answers to a text, in the most recent registration of a kind. -/
structure IsChosen (run : List (Registration φ)) (kind token : Text) (op : MarkedOperator φ) : Prop where
  exists_eq : ∃ before after, IsLatest run kind (before ++ op :: after) ∧
    ∀ o ∈ after, ¬ o.AnswersTo token
  answersTo : op.AnswersTo token

variable {run : List (Registration φ)} {token : Text} {op : MarkedOperator φ}

theorem resolve_of_isChosen {kind : Text} (h : IsChosen run kind token op) :
    (registerAll ⟨[]⟩ run).resolve kind (.text token) = .ok op.lowered := by
  obtain ⟨before, after, hlatest, hafter⟩ := h.exists_eq
  rw [resolve_text, spellings_of_isLatest _ hlatest, Spellings.find?_ofList h.answersTo hafter]

/-- Where no entry of the most recent registration answers to a text, it is not known. -/
theorem resolve_of_forall_not_answersTo {kind : Text}
    (h : ∀ ops, IsLatest run kind ops → ∀ op ∈ ops, ¬ op.AnswersTo token) :
    (registerAll ⟨[]⟩ run).resolve kind (.text token) =
      .error (.construction (.unknownOperator (Value.text token).display)) := by
  have hnone : ((registerAll ⟨[]⟩ run).spellings kind).find? (Text.lower token) = none := by
    by_cases hkind : ∃ entry ∈ run, entry.1 = kind
    · obtain ⟨entry, hmem, hentry⟩ := hkind
      obtain ⟨ops, hlatest⟩ := exists_isLatest hmem hentry
      rw [spellings_of_isLatest _ hlatest, Spellings.find?_ofList_eq_none (h ops hlatest)]
    · rw [spellings_of_forall_ne _ fun entry hmem hentry => hkind ⟨entry, hmem, hentry⟩]
      rfl
  rw [resolve_text, hnone]

theorem exists_isChosen {kind : Text} {ops : List (MarkedOperator φ)} (hlatest : IsLatest run kind ops)
    (hmem : op ∈ ops) (hop : op.AnswersTo token) : ∃ o, IsChosen run kind token o := by
  obtain ⟨before, o, after, rfl, ho, hafter⟩ :=
    exists_eq_append_last (P := fun o : MarkedOperator φ => o.AnswersTo token) ⟨op, hmem, hop⟩
  exact ⟨o, ⟨before, after, hlatest, hafter⟩, ho⟩

/-- One more registration puts its kind behind the others, if it is a new one. -/
theorem IsListing.concat {names kinds : List Text} (h : IsListing names kinds) (kind : Text) :
    IsListing (names ++ [kind]) (if kind ∈ kinds then kinds else kinds ++ [kind]) := by
  have hordered : kinds.Pairwise fun a b => (names ++ [kind]).idxOf a < (names ++ [kind]).idxOf b := by
    refine h.ordered.imp_of_mem fun ha hb hab => ?_
    rwa [List.idxOf_append_of_mem ((h.mem_iff _).mp ha), List.idxOf_append_of_mem ((h.mem_iff _).mp hb)]
  by_cases hkind : kind ∈ kinds
  · rw [if_pos hkind]
    refine ⟨h.nodup, fun name => ?_, hordered⟩
    rw [List.mem_append, List.mem_singleton, ← h.mem_iff]
    exact ⟨Or.inl, fun hname => hname.elim id (· ▸ hkind)⟩
  · rw [if_neg hkind]
    refine ⟨List.nodup_append.mpr ⟨h.nodup, List.nodup_singleton kind, ?_⟩, fun name => ?_,
      List.pairwise_append.mpr ⟨hordered, List.pairwise_singleton _ kind, ?_⟩⟩
    · rintro a ha _ hb rfl
      exact hkind (List.mem_singleton.mp hb ▸ ha)
    · rw [List.mem_append, List.mem_append, h.mem_iff]
    · intro a ha b hb
      obtain rfl := List.mem_singleton.mp hb
      rw [List.idxOf_append_of_mem ((h.mem_iff a).mp ha),
        List.idxOf_append_of_notMem (mt (h.mem_iff b).mpr hkind)]
      exact Nat.lt_of_lt_of_le (List.idxOf_lt_length_of_mem ((h.mem_iff a).mp ha)) (Nat.le_add_right _ _)

theorem isListing_kinds (run : List (Registration φ)) :
    IsListing (run.map Prod.fst) (registerAll ⟨[]⟩ run).kinds := by
  induction run using List.reverseRecOn with
  | nil => exact ⟨List.nodup_nil, fun _ => Iff.rfl, List.Pairwise.nil⟩
  | append_singleton run entry ih =>
    rw [List.map_append, registerAll_append]
    exact (kinds_register _ entry.1 entry.2).symm ▸ ih.concat entry.1

/-- After any run of registrations from the empty registry:
* a text names, among the operators of a kind, the last entry that answers to it in the most recent
  registration of the kind, with its key in small letters;
* it is an unknown operator exactly where no entry of that registration answers to it;
* one more registration changes the answers for no other kind;
* each kind that was registered is listed once, in order of first registration. -/
theorem resolve_registerAll (run : List (Registration φ)) :
    (∀ kind token op, (registerAll ⟨[]⟩ run).resolve kind (.text token) = .ok op ↔
      ∃ entry, IsChosen run kind token entry ∧ op = entry.lowered) ∧
    (∀ kind token, (registerAll ⟨[]⟩ run).resolve kind (.text token) =
        .error (.construction (.unknownOperator (Value.text token).display)) ↔
      ∀ ops, IsLatest run kind ops → ∀ op ∈ ops, ¬ op.AnswersTo token) ∧
    (∀ kind ops other, other ≠ kind → ∀ token,
      ((registerAll ⟨[]⟩ run).register kind ops).resolve other token =
        (registerAll ⟨[]⟩ run).resolve other token) ∧
    IsListing (run.map Prod.fst) (registerAll ⟨[]⟩ run).kinds := by
  refine ⟨fun kind token op => ⟨fun h => ?_, ?_⟩, fun kind token => ⟨fun h => ?_, ?_⟩,
    fun kind ops other hother token => ?_, isListing_kinds run⟩
  · by_cases hchosen : ∃ entry, IsChosen run kind token entry
    · obtain ⟨entry, hentry⟩ := hchosen
      exact ⟨entry, hentry, Except.ok.inj (h.symm.trans (resolve_of_isChosen hentry))⟩
    · have hnone := resolve_of_forall_not_answersTo fun ops hlatest op hmem hop =>
        hchosen (exists_isChosen hlatest hmem hop)
      rw [h] at hnone
      cases hnone
  · rintro ⟨entry, hentry, rfl⟩
    exact resolve_of_isChosen hentry
  · intro ops hlatest op hmem hop
    obtain ⟨entry, hentry⟩ := exists_isChosen hlatest hmem hop
    rw [resolve_of_isChosen hentry] at h
    cases h
  · exact resolve_of_forall_not_answersTo
  · exact resolve_congr (spellings_register_of_ne _ ops hother) token

/-- A kind that is registered twice: the second time, two of its entries answer to the same text. -/
theorem resolve_registerAll_of_clash :
    let run : List (Registration Bool) :=
      [("logical", [⟨"and", ["&&"], false⟩]), ("unary", [⟨"not", ["!"], false⟩]),
        ("logical", [⟨"and", ["+"], false⟩, ⟨"Or", ["+"], false⟩])]
    (registerAll ⟨[]⟩ run).resolve "logical" (.text "+") = .ok ⟨"or", ["+"], false⟩ ∧
      (registerAll ⟨[]⟩ run).kinds = ["logical", "unary"] := by
  intro run
  have hlatest : IsLatest run "logical" ([⟨"and", ["+"], false⟩] ++ ⟨"Or", ["+"], false⟩ :: []) :=
    ⟨run.take 2, [], rfl, fun _ h => absurd h List.not_mem_nil⟩
  have hchosen : IsChosen run "logical" "+" ⟨"Or", ["+"], false⟩ :=
    ⟨⟨_, _, hlatest, fun _ h => absurd h List.not_mem_nil⟩,
      Or.inr ⟨"+", List.mem_singleton_self _, rfl⟩⟩
  exact ⟨((resolve_registerAll run).1 "logical" "+" _).mpr ⟨_, hchosen, rfl⟩, rfl⟩

end Registry

end RecordFilter
