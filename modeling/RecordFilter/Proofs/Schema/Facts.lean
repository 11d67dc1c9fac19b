import Mathlib.Logic.Function.Basic
import Mathlib.Tactic.Choose
import RecordFilter.Proofs.Outcome
import RecordFilter.Proofs.Value.TextKeys
import RecordFilter.Schema.Document

/-!
# What documents say

A document is a definition of an entity type with further definitions inside of it. What it says can be
told apart from how it is read: `Document.Defines` derives from a definition a list of facts, each of which
is about one entity type, called by its name. It mentions it, gives its options, or gives it a property.
Every document that is read has such a list (`Document.exists_defines`).

What facts say about one name is an outline: the entity type as it is seen without its place in a
catalog, with other entity types by their names (`Document.described`).
-/

namespace RecordFilter

/-- What a property leads to, with an entity type by its name. -/
inductive NamedTarget where
  | data (type : DataType)
  | navigation (entity : Value) (isScalar : Bool)

/-- An entity type with other entity types by their names. -/
structure Outline where
  isAnonymous : Bool := false
  policy : Option TextPolicy := none
  convention : NamingConvention := .same
  property? : Text → Option NamedTarget := fun _ => none

namespace Document

/-- The flags and options that a definition gives. -/
structure Options where
  isAnonymous : Bool
  convention : Option NamingConvention
  policy : Option TextPolicy

/-- A part of what a document says about an entity type. -/
inductive Fact where
  | mention (name : Value)
  | options (name : Value) (given : Options)
  | property (name : Value) (key : Text) (target : NamedTarget)

/-- The name of the entity type that a fact is about. -/
def Fact.name : Fact → Value
  | mention name | options name _ | property name _ _ => name

/-- The outline with what a fact adds to it. -/
def Fact.apply : Fact → Outline → Outline
  | mention _, o => o
  | options _ given, o =>
    { o with
      isAnonymous := given.isAnonymous
      convention := given.convention.getD o.convention
      policy := given.policy <|> o.policy }
  | property _ key target, o => { o with property? := Function.update o.property? key (some target) }

/-- What is known about a name after one more fact. -/
def Fact.on (name : Value) (o : Option Outline) (f : Fact) : Option Outline :=
  if Value.sameKey f.name name then some (f.apply (o.getD {})) else o

/-- What facts say about a name. -/
def described (facts : List Fact) (name : Value) : Option Outline :=
  facts.foldl (Fact.on name) none

/-- Names that are the same keys only as themselves. -/
def Distinguished (names : List Value) : Prop :=
  ∀ a ∈ names, ∀ b ∈ names, Value.sameKey a b ↔ a = b

/-! ### Definitions -/

/-- The convention that a value names. -/
def conventionOf? (v : Value) : Option NamingConvention :=
  if v.isKey then v.asText?.bind NamingConvention.ofName? else none

/-- The policy that a value describes. -/
def policyOf? : Value → Option TextPolicy
  | .map entries => some {
      caseSensitive := ((field? "caseSensitive" entries).map Value.truthy).getD false
      trimmed := ((field? "trimBeforeCompare" entries).map Value.truthy).getD true }
  | _ => none

/-- What a definition gives under a key, which may be nothing. -/
def given? {α : Type} (read? : Value → Option α) : Value → Option (Option α)
  | .null => some none
  | v => (read? v).map some

/-- The flags and options that a definition gives, if they can be read. -/
def givenOptions (entries : List (Value × Value)) : Option Options := do
  let convention ← given? conventionOf? (field "namingConvention" entries)
  let policy ← given? policyOf? (field "comparisonOptions" entries)
  return ⟨(field "isAnonymous" entries).truthy, convention, policy⟩

mutual

/-- The value is a definition of an entity type, and what it says. -/
inductive Defines : Value → Value → List Fact → Prop
  | intro {entries props : List (Value × Value)} {name : Value} {given : Options}
      {said : Value × Value → List Fact} :
      field? "name" entries = some name → name.isKey → givenOptions entries = some given →
      (field? "properties" entries).getD (.map []) = .map props →
      (∀ e ∈ props, States name e (said e)) →
      Defines (.map entries) name (.options name given :: props.flatMap said)

/-- The entry is a property of the entity type with a name, and what it says. -/
inductive States : Value → Value × Value → List Fact → Prop
  | data {owner k : Value} {s key : Text} {t : DataType} :
      k.toText = .ok key → DataType.ofName? s = some t →
      States owner (k, .text s) [.property owner key (.data t)]
  | reference {owner k : Value} {s key : Text} {property : List (Value × Value)} :
      k.toText = .ok key → field? "navigation" property = some (.text s) →
      States owner (k, .map property) [.mention (.text s),
        .property owner key (.navigation (.text s) (field "isScalar" property).truthy)]
  | inline {owner k name : Value} {key : Text} {property d : List (Value × Value)}
      {facts : List Fact} :
      k.toText = .ok key → field? "navigation" property = some (.map d) →
      Defines (.map d) name facts →
      States owner (k, .map property) (facts ++
        [.property owner key (.navigation name (field "isScalar" property).truthy)])

end

/-- The properties of a definition are given, or there are none. -/
theorem field?_properties {entries props : List (Value × Value)}
    (h : (field? "properties" entries).getD (.map []) = .map props) :
    field? "properties" entries = some (.map props) ∨
      field? "properties" entries = none ∧ props = [] := by
  rcases hfound : field? "properties" entries with - | v
  · rw [hfound] at h
    cases h
    exact .inr ⟨rfl, rfl⟩
  · rw [hfound] at h
    exact .inl (congrArg some h)

/-! ### Steps of reading -/

/-- The entity type with the flags and options of a definition. -/
def Options.fill (given : Options) (e : EntityType) : EntityType :=
  { e with
    isAnonymous := given.isAnonymous
    convention := given.convention.getD e.convention
    policy := given.policy <|> e.policy }

/-- The reading with an entity type changed. -/
def Reading.update (r : Reading) (id : EntityId) (f : EntityType → EntityType) : Reading :=
  { r with catalog := r.catalog.update id f }

variable {r r' : Reading} {id : EntityId} {f g : EntityType → EntityType}

theorem Reading.update_update : (r.update id f).update id g = r.update id (g ∘ f) := by
  rw [update, update, update, Catalog.update, Catalog.update, Catalog.update, List.modify_modify_eq]

theorem run_bind_iff {α β : Type} {m : Reader α} {k : α → Reader β} {b : β} :
    (m >>= k).run r = .ok (b, r') ↔ ∃ a r₁, m.run r = .ok (a, r₁) ∧ (k a).run r₁ = .ok (b, r') := by
  rw [StateT.run_bind, bind_eq_ok_iff, Prod.exists]

theorem run_lift {α : Type} {x : Except Fault α} {a : α} :
    (liftM x : Reader α).run r = .ok (a, r') ↔ x = .ok a ∧ r' = r := by
  rcases x with fault | b
  · exact ⟨nofun, nofun⟩
  · refine ⟨?_, ?_⟩
    · rintro ⟨⟩
      exact ⟨rfl, rfl⟩
    · rintro ⟨⟨⟩, rfl⟩
      rfl

theorem run_modifyEntity : (modifyEntity id f).run r = .ok ((), r.update id f) := rfl

theorem run_nameOf {entries : List (Value × Value)} {name : Value} :
    (nameOf entries).run r = .ok (name, r') ↔
      field? "name" entries = some name ∧ name.isKey ∧ r' = r := by
  unfold nameOf
  constructor
  · intro h
    split at h
    · cases h
    · rename_i v hfield
      split at h
      · rename_i hkey
        cases h
        exact ⟨hfield, hkey, rfl⟩
      · cases h
  · rintro ⟨hfield, hkey, rfl⟩
    rw [hfield]
    simp only [hkey, if_true]
    rfl

theorem run_convention {v : Value} {c : NamingConvention} :
    (convention v).run r = .ok (c, r') ↔ conventionOf? v = some c ∧ r' = r := by
  unfold convention conventionOf?
  rcases hkey : v.isKey with - | -
  · exact ⟨nofun, nofun⟩
  rcases hname : v.asText?.bind NamingConvention.ofName? with - | c'
  · rcases htext : v.toText with fault | s
    all_goals
      refine ⟨?_, nofun⟩
      rintro ⟨⟩
  · constructor
    · rintro ⟨⟩
      exact ⟨rfl, rfl⟩
    · rintro ⟨⟨⟩, rfl⟩
      rfl

theorem run_policy {v : Value} {p : TextPolicy} :
    (policy v).run r = .ok (p, r') ↔ policyOf? v = some p ∧ r' = r := by
  cases v
  case map entries =>
    refine ⟨?_, ?_⟩
    · rintro ⟨⟩
      exact ⟨rfl, rfl⟩
    · rintro ⟨⟨⟩, rfl⟩
      rfl
  all_goals exact ⟨nofun, nofun⟩

/-- **A definition is refused for its flags and options alone, or they are filled in.** -/
theorem run_options {entries : List (Value × Value)} :
    (options id entries).run r = .ok ((), r') ↔
      ∃ given, givenOptions entries = some given ∧ r.update id given.fill = r' := by
  unfold options givenOptions
  dsimp only
  split
  all_goals
    rename_i hconvention
    split
    all_goals
      rename_i hpolicy
  all_goals
    rcases hc : conventionOf? (field "namingConvention" entries) with - | c
    all_goals
      rcases hp : policyOf? (field "comparisonOptions" entries) with - | p
  all_goals
    simp [hconvention, hpolicy, given?, hc, hp, run_modifyEntity, run_convention, run_policy,
      bind_eq_ok_iff, Reading.update_update] <;> rfl

/-! ### Documents that are read -/

mutual

/-- **Every document that is read is a definition.** -/
theorem exists_defines : ∀ {v : Value} {r r' : Reading} {id : EntityId},
    (entity v).run r = .ok (id, r') → ∃ name facts, Defines v name facts
  | .map entries, r, r', id, h => by
    rw [entity] at h
    obtain ⟨name, r₁, hname, h⟩ := run_bind_iff.mp h
    obtain ⟨id', r₂, -, h⟩ := run_bind_iff.mp h
    obtain ⟨_, r₃, hoptions, h⟩ := run_bind_iff.mp h
    obtain ⟨_, r₄, hproperties, -⟩ := run_bind_iff.mp h
    obtain ⟨given, hgiven, -⟩ := run_options.mp hoptions
    obtain ⟨props, hprops, hstates⟩ := exists_states_field hproperties
    choose! said hsaid using hstates name
    obtain ⟨hfield, hkey, -⟩ := run_nameOf.mp hname
    exact ⟨_, _, .intro hfield hkey hgiven hprops hsaid⟩
  | .list items, r, r', id, h => by
    rw [entity] at h
    split at h <;> cases h
  | .text s, r, r', id, h => by
    rw [entity] at h
    split at h <;> cases h
  | .null, _, _, _, h | .bool _, _, _, _, h | .int _, _, _, _, h | .double _, _, _, _, h
  | .decimal _, _, _, _, h | .token _, _, _, _, h | .operator _, _, _, _, h | .date _, _, _, _, h
  | .time _, _, _, _, h | .moment _, _, _, _, h | .guid _, _, _, _, h | .object _, _, _, _, h
  | .member .., _, _, _, h | .node .., _, _, _, h => by cases h

theorem exists_states_field : ∀ {entries : List (Value × Value)} {r r' : Reading} {id : EntityId},
    (propertiesField id entries).run r = .ok ((), r') →
      ∃ props, (field? "properties" entries).getD (.map []) = .map props ∧
        ∀ owner, ∀ e ∈ props, ∃ facts, States owner e facts
  | [], _, _, _, _ => ⟨[], rfl, fun _ _ he => nomatch he⟩
  | (k, v) :: rest, r, r', id, h => by
    rw [propertiesField] at h
    rw [field?, Value.lookup?]
    split at h
    · rename_i hkey
      rw [if_pos hkey]
      exact exists_states_map h
    · rename_i hkey
      rw [if_neg hkey]
      exact exists_states_field h

theorem exists_states_map : ∀ {v : Value} {r r' : Reading} {id : EntityId},
    (properties id v).run r = .ok ((), r') →
      ∃ props, v = .map props ∧ ∀ owner, ∀ e ∈ props, ∃ facts, States owner e facts
  | .map entries, _, _, _, h => ⟨entries, rfl, exists_states_entries h⟩
  | .list _, _, _, _, h | .text _, _, _, _, h
  | .null, _, _, _, h | .bool _, _, _, _, h | .int _, _, _, _, h | .double _, _, _, _, h
  | .decimal _, _, _, _, h | .token _, _, _, _, h | .operator _, _, _, _, h | .date _, _, _, _, h
  | .time _, _, _, _, h | .moment _, _, _, _, h | .guid _, _, _, _, h | .object _, _, _, _, h
  | .member .., _, _, _, h | .node .., _, _, _, h => by cases h

theorem exists_states_entries : ∀ {entries : List (Value × Value)} {r r' : Reading} {id : EntityId},
    (propertyEntries id entries).run r = .ok ((), r') →
      ∀ owner, ∀ e ∈ entries, ∃ facts, States owner e facts
  | [], _, _, _, _ => fun _ _ he => nomatch he
  | (k, v) :: rest, r, r', id, h => by
    rw [propertyEntries] at h
    obtain ⟨key, r₁, hkey, h⟩ := run_bind_iff.mp h
    obtain ⟨found, r₂, htarget, h⟩ := run_bind_iff.mp h
    obtain ⟨_, r₃, -, h⟩ := run_bind_iff.mp h
    exact fun owner => List.forall_mem_cons.mpr
      ⟨exists_states htarget (run_lift.mp hkey).1 owner, exists_states_entries h owner⟩

theorem exists_states : ∀ {v : Value} {r r' : Reading} {key : Text} {found : PropertyTarget},
    (target key v).run r = .ok (found, r') → ∀ {k : Value}, k.toText = .ok key →
      ∀ owner, ∃ facts, States owner (k, v) facts
  | .text s, _, _, _, _, h, k, hk, owner => by
    rw [target] at h
    split at h
    · rename_i t ht
      exact ⟨_, .data hk ht⟩
    · cases h
  | .map property, _, _, _, _, h, k, hk, owner => by
    rw [target] at h
    obtain ⟨id, r₁, hnavigation, -⟩ := run_bind_iff.mp h
    rcases exists_navigation hnavigation with ⟨s, hs⟩ | ⟨d, hd, name, facts, hfacts⟩
    · exact ⟨_, .reference hk hs⟩
    · exact ⟨_, .inline hk hd hfacts⟩
  | .list _, _, _, _, _, h, _, _, _
  | .null, _, _, _, _, h, _, _, _ | .bool _, _, _, _, _, h, _, _, _ | .int _, _, _, _, _, h, _, _, _
  | .double _, _, _, _, _, h, _, _, _ | .decimal _, _, _, _, _, h, _, _, _
  | .token _, _, _, _, _, h, _, _, _ | .operator _, _, _, _, _, h, _, _, _
  | .date _, _, _, _, _, h, _, _, _ | .time _, _, _, _, _, h, _, _, _
  | .moment _, _, _, _, _, h, _, _, _ | .guid _, _, _, _, _, h, _, _, _
  | .object _, _, _, _, _, h, _, _, _ | .member .., _, _, _, _, h, _, _, _
  | .node .., _, _, _, _, h, _, _, _ => by cases h

theorem exists_navigation : ∀ {entries : List (Value × Value)} {r r' : Reading} {key : Text}
    {id : EntityId}, (navigationField key entries).run r = .ok (id, r') →
      (∃ s, field? "navigation" entries = some (.text s)) ∨
        ∃ d, field? "navigation" entries = some (.map d) ∧ ∃ name facts, Defines (.map d) name facts
  | [], _, _, _, _, h => by cases h
  | (k, v) :: rest, r, r', key, id, h => by
    unfold navigationField at h
    rw [field?, Value.lookup?]
    split at h
    · rename_i hkey
      rw [if_pos hkey]
      split at h
      · exact .inl ⟨_, rfl⟩
      · exact .inr ⟨_, rfl, exists_defines h⟩
      · cases h
    · rename_i hkey
      rw [if_neg hkey]
      exact exists_navigation h

end

end Document

end RecordFilter
