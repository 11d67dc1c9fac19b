import Mathlib.Data.List.Pairwise
import RecordFilter.Proofs.Json.Form
import RecordFilter.Proofs.Number.Order
import RecordFilter.Proofs.Schema.Facts

/-!
# Documents in another order

A document with its maps in another order says the same, in another order (`Defines.exists_perm`).
The order matters only for facts that are about one thing: two definitions of one name, or two
properties under one key. Where every name is defined once there are no such facts, and what is said
about a name is the same in any order (`described_eq_of_perm`).
-/

namespace RecordFilter

/-! ### Keys that are the same -/

theorem Number.equal_symm {a b : Number} (h : equal a b) : equal b a := by
  rw [equal, order?_eq] at h ⊢
  generalize a.value? = x, b.value? = y at h ⊢
  rcases x with - | x
  · cases h
  rcases y with - | y
  · cases h
  rw [Option.map₂_some_some] at h ⊢
  have hxy : compare x y = .eq := by simpa using h
  simp [compare_eq_iff_eq.mp hxy]

namespace Value

theorem IsJson.eq_text {v : Value} (hv : v.IsJson) {s : Text} (h : v.asText? = some s) :
    v = .text s := by
  cases v
  case text => cases h; rfl
  case token => exact hv.elim
  all_goals cases h

theorem equalNumbers_symm {n m : Number} (h : equalNumbers n m = .ok true) :
    equalNumbers m n = .ok true := by
  unfold equalNumbers at h ⊢
  split at h
  · cases h
  · rename_i hdefined
    have hdefined' : Number.equalUndefined m n = false := by
      rw [Number.equalUndefined, Bool.or_comm]
      exact Bool.eq_false_iff.mpr hdefined
    rw [hdefined', Number.equal_symm (Except.ok.inj h)]
    rfl

theorem equalScalars_symm {a b : Value} (ha : a.IsJson) (hb : b.IsJson)
    (h : equalScalars a b = .ok true) : equalScalars b a = .ok true := by
  have hnumber : ∀ {n : Number}, a.asNumber? = some n → equalScalars b a = .ok true := by
    intro n hn
    obtain ⟨m, hm⟩ := exists_asNumber?_of_equalScalars hn h
    rw [equalScalars_of_asNumber? hm hn]
    exact equalNumbers_symm ((equalScalars_of_asNumber? hn hm).symm.trans h)
  cases a
  case text s =>
    rw [hb.eq_text (Json.asText?_of_equalScalars h).symm]
    exact congrArg Except.ok (beq_self_eq_true s)
  case bool | int | double => exact hnumber rfl
  case null | list | map => cases b <;> first | rfl | cases h
  all_goals exact ha.elim

/-- JSON values are the same key in both orders. -/
theorem sameKey_symm {a b : Value} (ha : a.IsJson) (hb : b.IsJson) (h : sameKey a b) : sameKey b a := by
  rcases Json.equalScalars_of_sameKey h with h | ⟨k, as, f, l, bs, g, rfl, -⟩
  · unfold sameKey
    split
    · exact hb.elim
    · rw [equalScalars_symm ha hb h]
  · exact ha.elim

end Value

namespace Document

open Value (Reordered HasTextKeys TextKeyed)

/-! ### What definitions say in another order -/

section

variable {xs ys : List (Value × Value)} {v w : Value}

theorem exists_field?_reordered (h : Reordered (.map xs) (.map ys)) (hxs : TextKeyed xs) {s : Text}
    (hv : field? s xs = some v) : ∃ w, field? s ys = some w ∧ Reordered v w := by
  have hrel : Option.Rel Reordered (field? s xs) (field? s ys) := h.lookup? hxs s
  rw [hv] at hrel
  generalize field? s ys = y at hrel ⊢
  cases hrel with
  | some hvw => exact ⟨_, rfl, hvw⟩

theorem field_reordered (h : Reordered (.map xs) (.map ys)) (hxs : TextKeyed xs) (s : Text) :
    Reordered (field s xs) (field s ys) := by
  have hrel : Option.Rel Reordered (field? s xs) (field? s ys) := h.lookup? hxs s
  unfold field
  generalize field? s xs = x, field? s ys = y at hrel ⊢
  rcases hrel with hv | -
  · exact hv
  · exact .refl .null

theorem conventionOf?_reordered (h : Reordered v w) : conventionOf? v = conventionOf? w := by
  cases h <;> rfl

theorem policyOf?_reordered (h : Reordered v w) (hv : v.HasTextKeys) : policyOf? v = policyOf? w := by
  cases h with
  | refl => rfl
  | @map xs ys hperm hvalues =>
    have hflag : ∀ s : Text, (field? s xs).map Value.truthy = (field? s ys).map Value.truthy := by
      intro s
      have hrel : Option.Rel Reordered (field? s xs) (field? s ys) :=
        (Reordered.map hperm hvalues).lookup? hv.keyed s
      generalize field? s xs = x, field? s ys = y at hrel ⊢
      rcases hrel with hv | -
      · exact congrArg some hv.truthy_eq
      · rfl
    rw [policyOf?, policyOf?, hflag, hflag]

theorem given?_reordered {α : Type} {read? : Value → Option α} (h : Reordered v w)
    (hread : read? v = read? w) : given? read? v = given? read? w := by
  cases h with
  | refl => rfl
  | map => exact congrArg (Option.map some) hread

theorem givenOptions_reordered (h : Reordered (.map xs) (.map ys)) (hxs : HasTextKeys (.map xs)) :
    givenOptions xs = givenOptions ys := by
  have hfield := field_reordered h hxs.keyed
  have hkeys : (field "comparisonOptions" xs).HasTextKeys := by
    rcases hfound : field? "comparisonOptions" xs with - | v
    · rw [field, hfound]
      trivial
    · rw [field, hfound]
      exact hxs.of_lookup? hfound
  rw [givenOptions, givenOptions, given?_reordered (hfield _) (conventionOf?_reordered (hfield _)),
    given?_reordered (hfield _) (policyOf?_reordered (hfield _) hkeys), (hfield "isAnonymous").truthy_eq]

theorem exists_properties_reordered (h : Reordered (.map xs) (.map ys)) (hxs : HasTextKeys (.map xs))
    {props : List (Value × Value)} (hprops : (field? "properties" xs).getD (.map []) = .map props) :
    ∃ props', (field? "properties" ys).getD (.map []) = .map props' ∧
      Reordered (.map props) (.map props') ∧ HasTextKeys (.map props) := by
  rcases field?_properties hprops with hfound | ⟨hfound, rfl⟩
  · obtain ⟨_, hfound', hreordered⟩ := exists_field?_reordered h hxs.keyed hfound
    obtain ⟨props', rfl⟩ := hreordered.exists_map
    exact ⟨props', by rw [hfound', Option.getD_some], hreordered, hxs.of_lookup? hfound⟩
  · have hrel : Option.Rel Reordered (field? "properties" xs) (field? "properties" ys) :=
      h.lookup? hxs.keyed "properties"
    rw [hfound] at hrel
    generalize field? "properties" ys = y at hrel ⊢
    cases hrel
    exact ⟨[], rfl, .refl _, Value.hasTextKeys_map.mpr ⟨.nil, List.forall_mem_nil _⟩⟩

end

mutual

/-- **A definition in another order says the same in another order.** -/
theorem Defines.exists_perm {v w name : Value} {facts : List Fact} : Defines v name facts →
    v.HasTextKeys → Reordered v w → ∃ facts', Defines w name facts' ∧ facts.Perm facts'
  | @Defines.intro xs props name given said hfield hkey hgiven hprops hsaid, hv, h => by
    obtain ⟨ys, rfl⟩ := h.exists_map
    obtain ⟨name', hname, hname'⟩ := exists_field?_reordered h hv.keyed hfield
    obtain rfl : name = name' := hname'.eq_of_isKey hkey
    obtain ⟨props', hprops', hreordered, hkeys⟩ := exists_properties_reordered h hv hprops
    have hstep : ∀ e' ∈ props', ∃ facts', States name e' facts' ∧
        ∀ v, (e'.1, v) ∈ props → (said (e'.1, v)).Perm facts' := by
      rintro ⟨k, w⟩ hw
      obtain ⟨⟨_, v⟩, hv, rfl⟩ :=
        List.mem_map.mp (hreordered.keys_perm.mem_iff.mpr (List.mem_map_of_mem hw))
      obtain ⟨facts', hstates, hperm⟩ := (hsaid _ hv).exists_perm (hkeys.of_mem hv)
        (hreordered.of_mem hkeys.keyed hv hw)
      refine ⟨facts', hstates, fun v' hv' => ?_⟩
      have hsame := hkeys.keyed.lookup?_of_mem hv'
      rw [hkeys.keyed.lookup?_of_mem hv] at hsame
      cases hsame
      exact hperm
    choose! said' hsaid' using hstep
    refine ⟨_, .intro hname hkey (givenOptions_reordered h hv ▸ hgiven) hprops'
      fun e he => (hsaid' e he).1, ?_⟩
    exact .cons _ (hkeys.keyed.perm_flatMap hreordered.keys_perm
      fun k a b ha hb => (hsaid' (k, b) hb).2 a ha)

theorem States.exists_perm {owner : Value} {e : Value × Value} {facts : List Fact} {w : Value} :
    States owner e facts → e.2.HasTextKeys → Reordered e.2 w →
      ∃ facts', States owner (e.1, w) facts' ∧ facts.Perm facts'
  | @States.data owner k s key t hk ht, _, h => by
    obtain rfl := h.eq_text
    exact ⟨_, .data hk ht, .refl _⟩
  | @States.reference owner k s key property hk hfield, hv, h => by
    obtain ⟨property', rfl⟩ := h.exists_map
    obtain ⟨_, hfield', hs⟩ := exists_field?_reordered h hv.keyed hfield
    cases hs
    rw [(field_reordered h hv.keyed "isScalar").truthy_eq]
    exact ⟨_, .reference hk hfield', .refl _⟩
  | @States.inline owner k name key property d facts hk hfield hdefines, hv, h => by
    obtain ⟨property', rfl⟩ := h.exists_map
    obtain ⟨_, hfield', hd⟩ := exists_field?_reordered h hv.keyed hfield
    obtain ⟨d', rfl⟩ := hd.exists_map
    obtain ⟨facts', hdefines', hperm⟩ := hdefines.exists_perm (hv.of_lookup? hfield) hd
    rw [(field_reordered h hv.keyed "isScalar").truthy_eq]
    exact ⟨_, .inline hk hfield' hdefines', hperm.append_right _⟩

end

/-! ### The definitions of a document -/

mutual

/-- The names of all definitions in a document: its own and those of the definitions inside of it. -/
def definitions : Value → List Value
  | .map entries => (field? "name" entries).toList ++ definitions.inProperties entries
  | _ => []

/-- Those of the definitions in the properties of a definition. -/
def definitions.inProperties : List (Value × Value) → List Value
  | [] => []
  | (k, v) :: rest =>
    if Value.sameKey k (.text "properties") then definitions.inMap v else definitions.inProperties rest

/-- Those of the definitions in a map of properties. -/
def definitions.inMap : Value → List Value
  | .map entries => definitions.inEach entries
  | _ => []

/-- Those of the definitions in properties. -/
def definitions.inEach : List (Value × Value) → List Value
  | [] => []
  | (_, v) :: rest => definitions.inProperty v ++ definitions.inEach rest

/-- Those of the definitions in a property. -/
def definitions.inProperty : Value → List Value
  | .map entries => definitions.inNavigation entries
  | _ => []

/-- Those of the definitions in the navigation of a property. -/
def definitions.inNavigation : List (Value × Value) → List Value
  | [] => []
  | (k, v) :: rest =>
    if Value.sameKey k (.text "navigation") then definitions v else definitions.inNavigation rest

end

/-- Every name has at most one definition in a document. Names are compared as keys, and a value that is not
the same key as itself (of JSON values, only what is not a number) is no name. -/
structure DefinesOnce (document : Value) : Prop where
  distinct : (definitions document).Pairwise fun a b => ¬ Value.sameKey a b
  reflexive : ∀ n ∈ definitions document, Value.sameKey n n

theorem definitions.inProperties_eq (entries : List (Value × Value)) :
    definitions.inProperties entries = (field? "properties" entries).elim [] definitions.inMap := by
  induction entries with
  | nil => rfl
  | cons e entries ih =>
    obtain ⟨k, v⟩ := e
    rw [definitions.inProperties, field?, Value.lookup?]
    split
    · rfl
    · exact ih

theorem definitions.inNavigation_eq (entries : List (Value × Value)) :
    definitions.inNavigation entries = (field? "navigation" entries).elim [] definitions := by
  induction entries with
  | nil => rfl
  | cons e entries ih =>
    obtain ⟨k, v⟩ := e
    rw [definitions.inNavigation, field?, Value.lookup?]
    split
    · rfl
    · exact ih

theorem definitions.inEach_eq (entries : List (Value × Value)) :
    definitions.inEach entries = entries.flatMap fun e => definitions.inProperty e.2 := by
  induction entries with
  | nil => rfl
  | cons e entries ih => rw [definitions.inEach, List.flatMap_cons, ih]

/-- The name that a fact gives the options of. -/
def Fact.defined? : Fact → Option Value
  | options name _ => some name
  | _ => none

/-- The names that facts give the options of. -/
def definedIn (facts : List Fact) : List Value :=
  facts.filterMap Fact.defined?

theorem definedIn_options {name : Value} {given : Options} {props : List (Value × Value)}
    {said : Value × Value → List Fact} : definedIn (.options name given :: props.flatMap said) =
      name :: props.flatMap fun e => definedIn (said e) :=
  congrArg (List.cons name) List.filterMap_flatMap

theorem definedIn_property {facts : List Fact} {owner : Value} {key : Text} {target : NamedTarget} :
    definedIn (facts ++ [.property owner key target]) = definedIn facts :=
  List.filterMap_append.trans (List.append_nil _)

mutual

theorem Defines.definedIn_eq {v name : Value} {facts : List Fact} : Defines v name facts →
    definedIn facts = definitions v
  | @Defines.intro entries props name given said hfield _ _ hprops hsaid => by
    have hinside : definitions.inProperties entries =
        props.flatMap fun e => definitions.inProperty e.2 := by
      rw [← definitions.inEach_eq, definitions.inProperties_eq]
      rcases field?_properties hprops with hfound | ⟨hfound, rfl⟩
      all_goals
        rw [hfound]
        rfl
    have heach := List.flatMap_congr fun e he => (hsaid e he).definedIn_eq
    rw [definedIn_options, definitions, hfield, hinside, ← heach]
    rfl

theorem States.definedIn_eq {owner : Value} {e : Value × Value} {facts : List Fact} :
    States owner e facts → definedIn facts = definitions.inProperty e.2
  | .data _ _ => rfl
  | .reference _ hfield => by
    rw [definitions.inProperty, definitions.inNavigation_eq, hfield]
    rfl
  | .inline _ hfield hdefines => by
    rw [definitions.inProperty, definitions.inNavigation_eq, hfield, Option.elim_some,
      ← hdefines.definedIn_eq, definedIn_property]

end

/-! ### Facts that are about one thing -/

/-- What a fact decides, if it decides something: the options of an entity type, or its property under a
key. -/
def Fact.subject? : Fact → Option (Value × Option Text)
  | mention _ => none
  | options name _ => some (name, none)
  | property name key _ => some (name, some key)

/-- What facts decide. -/
def subjects (facts : List Fact) : List (Value × Option Text) :=
  facts.filterMap Fact.subject?

/-- Two facts that do not decide one thing can be told in any order. -/
theorem Fact.apply_comm {f g : Fact} (hname : f.name = g.name)
    (hsubject : f.subject? = none ∨ f.subject? ≠ g.subject?) (o : Outline) :
    g.apply (f.apply o) = f.apply (g.apply o) := by
  cases f with
  | mention => rfl
  | options name given =>
    cases g with
    | mention => rfl
    | options name' given' =>
      obtain rfl : name = name' := hname
      exact absurd rfl (hsubject.resolve_left nofun)
    | property => rfl
  | property name key target =>
    cases g with
    | mention => rfl
    | options => rfl
    | property name' key' target' =>
      obtain rfl : name = name' := hname
      have hkey : key ≠ key' := by
        rintro rfl
        exact absurd rfl (hsubject.resolve_left nofun)
      exact congrArg (Outline.mk o.isAnonymous o.policy o.convention)
        (Function.update_comm hkey _ _ _)

theorem eq_of_subject? {facts : List Fact} (hfacts : (subjects facts).Nodup) {f g : Fact} (hf : f ∈ facts)
    (hg : g ∈ facts) {s : Value × Option Text} (hfs : f.subject? = some s) (hgs : g.subject? = some s) :
    f = g := by
  by_contra hne
  have : Std.Symm fun f g : Fact =>
      ∀ s, f.subject? = some s → ∀ t, g.subject? = some t → s ≠ t :=
    ⟨fun f g h s hs t ht => (h t ht s hs).symm⟩
  exact (List.pairwise_filterMap.mp hfacts).forall hf hg hne s hfs s hgs rfl

/-- **What is said about a name does not depend on the order** in which it is said. -/
theorem described_eq_of_perm {facts facts' : List Fact} {names : List Value} {name : Value}
    (hnames : Distinguished names) (hmem : ∀ f ∈ facts, f.name ∈ names)
    (hsubjects : (subjects facts).Nodup) (hperm : facts.Perm facts') (hname : name ∈ names) :
    described facts name = described facts' name := by
  -- Only two facts about this name that decide one thing could be at odds, and there are no two of them.
  refine hperm.foldl_eq' (fun f hf g hg o => ?_) none
  rw [Fact.on, Fact.on, Fact.on, Fact.on]
  by_cases hfn : Value.sameKey f.name name
  · by_cases hgn : Value.sameKey g.name name
    · have hsame : f.name = g.name := by
        rw [(hnames _ (hmem f hf) name hname).mp hfn, (hnames _ (hmem g hg) name hname).mp hgn]
      have hswap : g.apply (f.apply (o.getD {})) = f.apply (g.apply (o.getD {})) := by
        rcases hs : f.subject? with - | s
        · exact Fact.apply_comm hsame (.inl hs) _
        · by_cases hgs : g.subject? = some s
          · rw [eq_of_subject? hsubjects hf hg hs hgs]
          · exact Fact.apply_comm hsame (.inr fun heq => hgs (heq ▸ hs)) _
      simp [hfn, hgn, hswap]
    · simp [hfn, hgn]
  · by_cases hgn : Value.sameKey g.name name <;> simp [hfn, hgn]

/-- To tell a fact again changes nothing. -/
theorem Fact.apply_apply (f : Fact) (o : Outline) : f.apply (f.apply o) = f.apply o := by
  cases f with
  | mention => rfl
  | options name given =>
    obtain ⟨isAnonymous, convention, policy⟩ := given
    cases convention <;> cases policy <;> rfl
  | property name key target =>
    exact congrArg (Outline.mk o.isAnonymous o.policy o.convention) (Function.update_idem _ _ _)

/-- **What is said about a name holds of what is known about it** in the end. -/
theorem apply_eq_of_described {facts : List Fact} {names : List Value} {f : Fact} {o : Outline}
    (hnames : Distinguished names) (hmem : ∀ f ∈ facts, f.name ∈ names)
    (hsubjects : (subjects facts).Nodup) (hf : f ∈ facts) (h : described facts f.name = some o) :
    f.apply o = o := by
  -- The fact may as well be the last one that is told.
  obtain ⟨before, after, rfl⟩ := List.append_of_mem hf
  have hlast : (before ++ f :: after).Perm (before ++ after ++ [f]) :=
    List.perm_middle.trans (List.perm_append_singleton f (before ++ after)).symm
  have hname := hmem f hf
  rw [described_eq_of_perm hnames hmem hsubjects hlast hname, described, List.foldl_append,
    List.foldl_cons, List.foldl_nil, Fact.on, if_pos ((hnames _ hname _ hname).mpr rfl)] at h
  cases h
  exact f.apply_apply _

/-! ### Documents that define every name once -/

theorem subjects_append (facts facts' : List Fact) :
    subjects (facts ++ facts') = subjects facts ++ subjects facts' :=
  List.filterMap_append

theorem subjects_options {name : Value} {given : Options} {props : List (Value × Value)}
    {said : Value × Value → List Fact} : subjects (.options name given :: props.flatMap said) =
      (name, none) :: props.flatMap fun e => subjects (said e) :=
  congrArg (List.cons (name, none)) List.filterMap_flatMap

mutual

/-- A definition decides things about the entity types that it defines. -/
theorem Defines.mem_definedIn {v name : Value} {facts : List Fact} : Defines v name facts →
    ∀ s ∈ subjects facts, s.1 ∈ definedIn facts
  | @Defines.intro entries props name given said _ _ _ _ hsaid => by
    intro s hs
    rw [subjects_options] at hs
    rw [definedIn_options]
    rcases List.mem_cons.mp hs with rfl | hs
    · exact List.mem_cons_self
    · obtain ⟨e, he, hs⟩ := List.mem_flatMap.mp hs
      rcases (hsaid e he).mem_definedIn s hs with ⟨key, -, rfl⟩ | hdefined
      · exact List.mem_cons_self
      · exact List.mem_cons_of_mem _ (List.mem_flatMap.mpr ⟨e, he, hdefined⟩)

/-- So does a property, which is one thing more that is decided. -/
theorem States.mem_definedIn {owner : Value} {e : Value × Value} {facts : List Fact} :
    States owner e facts → ∀ s ∈ subjects facts,
      (∃ key, e.1.toText = .ok key ∧ s = (owner, some key)) ∨ s.1 ∈ definedIn facts
  | .data hk _ | .reference hk _ => by
    intro s hs
    obtain rfl := List.mem_singleton.mp hs
    exact .inl ⟨_, hk, rfl⟩
  | .inline hk _ hdefines => by
    intro s hs
    rw [subjects_append] at hs
    rw [definedIn_property]
    rcases List.mem_append.mp hs with hs | hs
    · exact .inr (hdefines.mem_definedIn s hs)
    · obtain rfl := List.mem_singleton.mp hs
      exact .inl ⟨_, hk, rfl⟩

end

mutual

/-- **Where every name is defined once, everything is decided once.** -/
theorem Defines.nodup_subjects {v name : Value} {facts : List Fact} : Defines v name facts →
    v.HasTextKeys → (definedIn facts).Nodup → (subjects facts).Nodup
  | @Defines.intro entries props name given said _ _ _ hprops hsaid, hv, hnodup => by
    rw [definedIn_options] at hnodup
    rw [subjects_options]
    obtain ⟨hnew, hnodup⟩ := List.nodup_cons.mp hnodup
    obtain ⟨heach, hdisjoint⟩ := List.nodup_flatMap.mp hnodup
    have hkeys : HasTextKeys (.map props) := by
      obtain ⟨_, _, _, hkeys⟩ := exists_properties_reordered (.refl _) hv hprops
      exact hkeys
    have hnew : ∀ e ∈ props, name ∉ definedIn (said e) :=
      fun e he hmem => hnew (List.mem_flatMap.mpr ⟨e, he, hmem⟩)
    refine List.nodup_cons.mpr ⟨fun hmem => ?_, List.nodup_flatMap.mpr ⟨fun e he => ?_, ?_⟩⟩
    · obtain ⟨e, he, hmem⟩ := List.mem_flatMap.mp hmem
      rcases (hsaid e he).mem_definedIn _ hmem with ⟨key, -, heq⟩ | hdefined
      · cases heq
      · exact hnew e he hdefined
    · exact (hsaid e he).nodup_subjects (hkeys.of_mem he) (heach e he) (hnew e he)
    -- Two properties decide different things: themselves, and what is inside of the definitions in them.
    · have hdifferent : props.Pairwise fun e e' => e.1 ≠ e'.1 := List.pairwise_map.mp hkeys.keyed.nodup
      refine (hdisjoint.and hdifferent).imp_of_mem fun {e e'} he he' ⟨hdisjoint, hne⟩ s hs hs' => ?_
      rcases (hsaid e he).mem_definedIn s hs with ⟨key, hkey, rfl⟩ | hdefined
      · rcases (hsaid e' he').mem_definedIn _ hs' with ⟨key', hkey', heq⟩ | hdefined'
        · cases heq
          exact hne (hkeys.keyed.eq_of_toText he he' hkey hkey')
        · exact hnew e' he' hdefined'
      · rcases (hsaid e' he').mem_definedIn s hs' with ⟨key', -, rfl⟩ | hdefined'
        · exact hnew e he hdefined
        · exact hdisjoint hdefined hdefined'

theorem States.nodup_subjects {owner : Value} {e : Value × Value} {facts : List Fact} :
    States owner e facts → e.2.HasTextKeys → (definedIn facts).Nodup → owner ∉ definedIn facts →
      (subjects facts).Nodup
  | .data _ _, _, _, _ | .reference _ _, _, _, _ => List.nodup_singleton _
  | @States.inline owner k name key property d facts _ hfield hdefines, hv, hnodup, hnew => by
    rw [definedIn_property] at hnodup hnew
    have hinside := hdefines.nodup_subjects (hv.of_lookup? hfield) hnodup
    rw [subjects_append]
    refine List.nodup_append_comm.mpr (List.nodup_cons.mpr ⟨fun hmem => ?_, hinside⟩)
    exact hnew (hdefines.mem_definedIn _ hmem)

end

/-! ### The names in a document -/

mutual

/-- All names that a definition is about are those of definitions or texts that refer to one. -/
theorem Defines.name_mem {v name : Value} {facts : List Fact} : Defines v name facts →
    ∀ f ∈ facts, f.name ∈ definedIn facts ∨ ∃ s, f.name = .text s
  | @Defines.intro entries props name given said _ _ _ _ hsaid => by
    rw [definedIn_options]
    refine List.forall_mem_cons.mpr ⟨.inl List.mem_cons_self, fun f hf => ?_⟩
    obtain ⟨e, he, hf⟩ := List.mem_flatMap.mp hf
    rcases (hsaid e he).name_mem f hf with hown | hdefined | htext
    · exact .inl (hown ▸ List.mem_cons_self)
    · exact .inl (List.mem_cons_of_mem _ (List.mem_flatMap.mpr ⟨e, he, hdefined⟩))
    · exact .inr htext

theorem States.name_mem {owner : Value} {e : Value × Value} {facts : List Fact} :
    States owner e facts → ∀ f ∈ facts,
      f.name = owner ∨ f.name ∈ definedIn facts ∨ ∃ s, f.name = .text s
  | .data _ _ => List.forall_mem_singleton.mpr (.inl rfl)
  | .reference _ _ => List.forall_mem_cons.mpr
      ⟨.inr (.inr ⟨_, rfl⟩), List.forall_mem_singleton.mpr (.inl rfl)⟩
  | .inline _ _ hdefines => by
    rw [definedIn_property]
    exact List.forall_mem_append.mpr
      ⟨fun f hf => .inr (hdefines.name_mem f hf), List.forall_mem_singleton.mpr (.inl rfl)⟩

end

mutual

theorem Defines.isJson {v name : Value} {facts : List Fact} : Defines v name facts → v.IsJson →
    ∀ n ∈ definedIn facts, n.IsJson
  | @Defines.intro entries props name given said hfield _ _ hprops hsaid, hv => by
    have hprops' : (Value.map props).IsJson := by
      rcases field?_properties hprops with hfound | ⟨-, rfl⟩
      · exact Value.isJson_of_lookup? hv hfound
      · trivial
    rw [definedIn_options]
    refine List.forall_mem_cons.mpr ⟨Value.isJson_of_lookup? hv hfield, fun n hn => ?_⟩
    obtain ⟨e, he, hn⟩ := List.mem_flatMap.mp hn
    exact (hsaid e he).isJson (Value.jsonEntries_iff.mp hprops' e he).2.2 n hn

theorem States.isJson {owner : Value} {e : Value × Value} {facts : List Fact} :
    States owner e facts → e.2.IsJson → ∀ n ∈ definedIn facts, n.IsJson
  | .data _ _, _ | .reference _ _, _ => List.forall_mem_nil _
  | .inline _ hfield hdefines, hv => by
    rw [definedIn_property]
    exact hdefines.isJson (Value.isJson_of_lookup? hv hfield)

end

/-- **The names in a document that defines every name once are told apart.** -/
theorem Defines.distinguished {v name : Value} {facts : List Fact} (h : Defines v name facts)
    (hv : v.IsJson) (honce : DefinesOnce v) : Distinguished (facts.map Fact.name) := by
  have hdistinct : (definedIn facts).Pairwise fun a b => ¬ Value.sameKey a b ∧ ¬ Value.sameKey b a := by
    rw [h.definedIn_eq]
    refine honce.distinct.imp_of_mem fun {a b} ha hb hab => ⟨hab, fun hba => hab ?_⟩
    rw [← h.definedIn_eq] at ha hb
    exact Value.sameKey_symm (h.isJson hv b hb) (h.isJson hv a ha) hba
  have hself : ∀ n ∈ definedIn facts, Value.sameKey n n := h.definedIn_eq ▸ honce.reflexive
  have hname : ∀ n ∈ facts.map Fact.name, n ∈ definedIn facts ∨ ∃ s, n = .text s := by
    intro n hn
    obtain ⟨f, hf, rfl⟩ := List.mem_map.mp hn
    exact h.name_mem f hf
  have hjson : ∀ n ∈ facts.map Fact.name, n.IsJson := by
    intro n hn
    rcases hname n hn with hn | ⟨s, rfl⟩
    · exact h.isJson hv n hn
    · trivial
  intro a ha b hb
  constructor
  · intro hab
    rcases hname a ha with hda | ⟨s, rfl⟩
    · rcases hname b hb with hdb | ⟨t, rfl⟩
      · have : Std.Symm fun a b => ¬ Value.sameKey a b ∧ ¬ Value.sameKey b a := ⟨fun _ _ => And.symm⟩
        by_contra hne
        exact (hdistinct.forall hda hdb hne).1 hab
      · exact (hjson a ha).eq_text (Json.asText?_of_sameKey hab)
    · exact ((hjson b hb).eq_text (Json.asText?_of_sameKey hab).symm).symm
  · rintro rfl
    rcases hname a ha with hda | ⟨s, rfl⟩
    · exact hself a hda
    · simp [Value.sameKey_text]

theorem Defines.nodup_definedIn {v name : Value} {facts : List Fact} (h : Defines v name facts)
    (honce : DefinesOnce v) : (definedIn facts).Nodup := by
  rw [h.definedIn_eq]
  refine honce.distinct.imp_of_mem fun {a b} ha _ hab => ?_
  rintro rfl
  exact hab (honce.reflexive a ha)

/-- **A document in another order says the same of every name** that it mentions. -/
theorem described_of_reordered {document document' name : Value} {facts : List Fact}
    (h : Defines document name facts) (hjson : document.IsJson) (hkeys : document.HasTextKeys)
    (honce : DefinesOnce document) (hreordered : Reordered document document') :
    ∃ facts', Defines document' name facts' ∧ facts.Perm facts' ∧
      ∀ n ∈ facts.map Fact.name, described facts n = described facts' n := by
  obtain ⟨facts', h', hperm⟩ := h.exists_perm hkeys hreordered
  exact ⟨facts', h', hperm, fun n hn => described_eq_of_perm (h.distinguished hjson honce)
    (fun f hf => List.mem_map_of_mem hf) (h.nodup_subjects hkeys (h.nodup_definedIn honce)) hperm hn⟩

end Document

end RecordFilter
