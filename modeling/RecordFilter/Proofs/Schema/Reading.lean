import RecordFilter.Proofs.Schema.Facts

/-!
# Reading does what documents say

While a document is read, every name that it mentioned has its own entity type (`Reading.IsSound`), which
looks as the facts so far say: no matter whether its definition came before it was referred to, in between
or afterwards. One fact is one change of the catalog; a whole definition takes the changes of all its
facts, one after the other (`Document.exists_run_of_defines`).

Names are compared as keys, so this is about names that are told apart by that (`Document.Distinguished`).
-/

namespace RecordFilter

/-! ### Entity types by name -/

namespace Catalog

variable {c c' : Catalog} {id j : EntityId} {f : EntityType → EntityType}

/-- The name of the entity type at a place. -/
def nameOf (c : Catalog) (id : EntityId) : Value :=
  ((c.entity? id).map EntityType.name).getD .null

/-- What a property leads to, with an entity type by its name. -/
def named (c : Catalog) : PropertyTarget → NamedTarget
  | .data t => .data t
  | .navigation id isScalar => .navigation (c.nameOf id) isScalar

/-- An entity type with other entity types by their names. -/
def outline (c : Catalog) (e : EntityType) : Outline where
  isAnonymous := e.isAnonymous
  policy := e.policy
  convention := e.convention
  property? := fun key => (e.find? key).map fun p => c.named p.target

/-- The entity type at a place, with other entity types by their names. -/
def outlineAt? (c : Catalog) (id : EntityId) : Option Outline :=
  (c.entity? id).map c.outline

theorem nameOf_of_entity? {e : EntityType} (h : c.entity? id = some e) : c.nameOf id = e.name := by
  rw [nameOf, h]
  rfl

theorem entity?_update : (c.update id f).entity? j =
    (c.entity? j).map fun e => if id = j then f e else e :=
  List.getElem?_modify f id c j

theorem entity?_append_of_some {e e' : EntityType} (h : c.entity? id = some e) :
    Catalog.entity? (c ++ [e']) id = some e := by
  obtain ⟨hlt, -⟩ := List.getElem?_eq_some_iff.mp h
  exact (List.getElem?_append_left hlt).trans h

theorem entity?_append_length {e : EntityType} : Catalog.entity? (c ++ [e]) c.length = some e :=
  List.getElem?_concat_length

/-- An entity type looks the same in two catalogs that name the targets of its navigations alike. -/
theorem outline_congr {e : EntityType} (h : ∀ p ∈ e.properties, ∀ j isScalar,
    p.target = .navigation j isScalar → c'.nameOf j = c.nameOf j) : c'.outline e = c.outline e := by
  have hproperty : ∀ key, (e.find? key).map (fun p => c'.named p.target) =
      (e.find? key).map fun p => c.named p.target := by
    intro key
    rcases hfind : e.find? key with - | p
    · rfl
    · have hp := h p (List.mem_of_find?_eq_some hfind)
      rcases htarget : p.target with t | ⟨j, isScalar⟩
      · simp [htarget, named]
      · simp [htarget, named, hp j isScalar htarget]
  exact congrArg (Outline.mk e.isAnonymous e.policy e.convention) (funext hproperty)

end Catalog

namespace EntityType

variable {e : EntityType} {p q : Property} {ps : List Property} {key : Text}

theorem find?_add : (e.add p).find? key = if p.name = key then some p else e.find? key := by
  suffices h : ∀ ps, (insert p ps).find? (fun q => q.name == key) =
      if p.name = key then some p else ps.find? fun q => q.name == key from h e.properties
  intro ps
  induction ps with
  | nil => by_cases h : p.name = key <;> simp [insert, h]
  | cons q ps ih =>
    unfold insert
    by_cases hq : q.name = p.name
    · by_cases h : p.name = key
      · simp [hq, h]
      · have hqk : q.name ≠ key := fun hqk => h (hq.symm.trans hqk)
        rw [if_pos hq, if_neg h]
        simp [h, hqk]
    · by_cases h : p.name = key
      · have hqk : q.name ≠ key := fun hqk => hq (hqk.trans h.symm)
        simp [h, hqk, ih]
      · rw [if_neg hq, List.find?_cons, List.find?_cons, ih, if_neg h, if_neg h]

theorem mem_of_mem_insert (h : q ∈ insert p ps) : q = p ∨ q ∈ ps := by
  induction ps with
  | nil => exact .inl (List.mem_singleton.mp h)
  | cons r ps ih =>
    unfold insert at h
    split at h
    · exact (List.mem_cons.mp h).imp_right (List.mem_cons_of_mem r)
    · rcases List.mem_cons.mp h with rfl | h
      · exact .inr List.mem_cons_self
      · exact (ih h).imp_right (List.mem_cons_of_mem r)

theorem nodup_insert (h : (ps.map Property.name).Nodup) : ((insert p ps).map Property.name).Nodup := by
  induction ps with
  | nil => exact List.nodup_singleton _
  | cons q ps ih =>
    obtain ⟨hnew, hps⟩ := List.nodup_cons.mp h
    unfold insert
    split
    · rename_i hq
      exact List.nodup_cons.mpr ⟨hq ▸ hnew, hps⟩
    · rename_i hq
      refine List.nodup_cons.mpr ⟨fun hmem => ?_, ih hps⟩
      obtain ⟨r, hr, hname⟩ := List.mem_map.mp hmem
      rcases mem_of_mem_insert hr with rfl | hr
      · exact hq hname.symm
      · exact hnew (hname ▸ List.mem_map_of_mem hr)

end EntityType

namespace Document

theorem Distinguished.lookup?_eq_some_iff {α : Type} {names : List Value} (hnames : Distinguished names)
    {es : List (Value × α)} (hes : ∀ n ∈ es.map Prod.fst, n ∈ names) (hnodup : (es.map Prod.fst).Nodup)
    {n : Value} (hn : n ∈ names) {a : α} : Value.lookup? n es = some a ↔ (n, a) ∈ es := by
  induction es with
  | nil => simp [Value.lookup?]
  | cons e es ih =>
    obtain ⟨k, b⟩ := e
    obtain ⟨hk, hes⟩ := List.forall_mem_cons.mp hes
    obtain ⟨hnew, hnodup⟩ := List.nodup_cons.mp hnodup
    rw [Value.lookup?, List.mem_cons]
    by_cases hkn : k = n
    · subst hkn
      have hnone : (k, a) ∉ es := fun hmem => hnew (List.mem_map.mpr ⟨(k, a), hmem, rfl⟩)
      rw [if_pos ((hnames k hk k hk).mpr rfl)]
      simp [hnone, eq_comm]
    · rw [if_neg fun h => hkn ((hnames k hk n hn).mp h), ih hes hnodup]
      simp [Ne.symm hkn]

/-! ### Readings -/

namespace Reading

/-- What is known about a name. -/
def outline? (r : Reading) (name : Value) : Option Outline :=
  (Value.lookup? name r.known).bind r.catalog.outlineAt?

/-- The entity type has a name, properties with different names, and navigations to entity types that
are known. -/
structure Holds (known : List (Value × EntityId)) (name : Value) (e : EntityType) : Prop where
  name_eq : e.name = name
  nodup : (e.properties.map Property.name).Nodup
  closed : ∀ p ∈ e.properties, ∀ j isScalar, p.target = .navigation j isScalar →
    ∃ m, (m, j) ∈ known

/-- All that is known is one entity type for each name that there was so far. -/
structure IsSound (names : List Value) (r : Reading) : Prop where
  mem : ∀ n ∈ r.known.map Prod.fst, n ∈ names
  nodup : (r.known.map Prod.fst).Nodup
  holds : ∀ n id, (n, id) ∈ r.known → ∃ e, r.catalog.entity? id = some e ∧ Holds r.known n e

theorem Holds.mono {known known' : List (Value × EntityId)} {name : Value} {e : EntityType}
    (h : Holds known name e) (hsub : known ⊆ known') : Holds known' name e :=
  ⟨h.name_eq, h.nodup, fun p hp j isScalar htarget =>
    (h.closed p hp j isScalar htarget).imp fun _ hm => hsub hm⟩

/-- A reading tells facts on the way to another one: all that changes is what they say. -/
structure Tells (names : List Value) (r : Reading) (facts : List Fact) (r' : Reading) : Prop where
  sound : r'.IsSound names
  known : r.known ⊆ r'.known
  outline : ∀ n ∈ names, r'.outline? n = facts.foldl (Fact.on n) (r.outline? n)

variable {names : List Value} {r r' r'' : Reading} {facts facts' : List Fact} {name : Value}
  {id i j : EntityId}

theorem Tells.nil (h : r.IsSound names) : Tells names r [] r :=
  ⟨h, List.Subset.refl _, fun _ _ => rfl⟩

theorem Tells.trans (h : Tells names r facts r') (h' : Tells names r' facts' r'') :
    Tells names r (facts ++ facts') r'' where
  sound := h'.sound
  known := List.Subset.trans h.known h'.known
  outline := fun n hn => by rw [h'.outline n hn, h.outline n hn, List.foldl_append]

/-- To mention a name is no more than to give its options. -/
theorem Tells.options_of_mention {given : Options} (h : Tells names r [.mention name] r')
    (h' : Tells names r' [.options name given] r'') : Tells names r [.options name given] r'' where
  sound := h'.sound
  known := List.Subset.trans h.known h'.known
  outline := fun n hn => by
    rw [h'.outline n hn, h.outline n hn]
    by_cases hkey : Value.sameKey name n <;> simp [Fact.on, Fact.name, hkey, Fact.apply]

namespace IsSound

theorem nameOf (h : r.IsSound names) (hid : (name, id) ∈ r.known) : r.catalog.nameOf id = name := by
  obtain ⟨e, he, hholds⟩ := h.holds name id hid
  rw [Catalog.nameOf_of_entity? he, hholds.name_eq]

theorem mem_names (h : r.IsSound names) (hid : (name, id) ∈ r.known) : name ∈ names :=
  h.mem name (List.mem_map_of_mem hid)

theorem id_eq (h : r.IsSound names) (hi : (name, i) ∈ r.known) (hj : (name, j) ∈ r.known) : i = j :=
  congrArg Prod.snd (List.inj_on_of_nodup_map h.nodup hi hj rfl)

theorem lookup?_eq_some_iff (h : r.IsSound names) (hnames : Distinguished names) (hname : name ∈ names) :
    Value.lookup? name r.known = some id ↔ (name, id) ∈ r.known :=
  hnames.lookup?_eq_some_iff h.mem h.nodup hname

theorem outline?_of_mem (h : r.IsSound names) (hnames : Distinguished names)
    (hid : (name, id) ∈ r.known) : r.outline? name = r.catalog.outlineAt? id := by
  rw [outline?, (h.lookup?_eq_some_iff hnames (h.mem_names hid)).mpr hid, Option.bind_some]

end IsSound

/-! ### One step -/

/-- The reading with a new name. -/
def extend (r : Reading) (name : Value) : Reading :=
  ⟨r.catalog ++ [{ name := name }], r.known ++ [(name, r.catalog.length)]⟩

theorem run_entityNamed : (entityNamed name).run r =
    .ok ((Value.lookup? name r.known).elim (r.catalog.length, r.extend name) fun id => (id, r)) := by
  unfold entityNamed
  rw [StateT.run_bind, StateT.run_get, pure_eq_ok, ok_bind]
  dsimp only
  split
  all_goals
    rename_i hlookup
    rw [hlookup]
    rfl

theorem IsSound.extend (h : r.IsSound names) (hname : name ∈ names) (hnew : name ∉ r.known.map Prod.fst) :
    (r.extend name).IsSound names where
  mem := by
    rw [Reading.extend, List.map_append]
    exact List.forall_mem_append.mpr ⟨h.mem, List.forall_mem_singleton.mpr hname⟩
  nodup := by
    rw [Reading.extend, List.map_append]
    exact List.nodup_append_comm.mpr (List.nodup_cons.mpr ⟨hnew, h.nodup⟩)
  holds := by
    intro n j hj
    rcases List.mem_append.mp hj with hj | hj
    · obtain ⟨e, he, hholds⟩ := h.holds n j hj
      exact ⟨e, Catalog.entity?_append_of_some he, hholds.mono (List.subset_append_left ..)⟩
    · cases List.mem_singleton.mp hj
      exact ⟨_, Catalog.entity?_append_length, rfl, List.nodup_nil, nofun⟩

/-- What is known looks the same in a catalog in which it has the names that it had. -/
theorem outlineAt?_eq (h : r.IsSound names) (h' : r'.IsSound names) (hsub : r.known ⊆ r'.known)
    (hid : (name, id) ∈ r.known) (hsame : r'.catalog.entity? id = r.catalog.entity? id) :
    r'.catalog.outlineAt? id = r.catalog.outlineAt? id := by
  obtain ⟨e, he, hholds⟩ := h.holds name id hid
  rw [Catalog.outlineAt?, Catalog.outlineAt?, hsame, he]
  refine congrArg some (Catalog.outline_congr fun p hp j isScalar htarget => ?_)
  obtain ⟨m, hm⟩ := hholds.closed p hp j isScalar htarget
  rw [h'.nameOf (hsub hm), h.nameOf hm]

/-- All other names stand for what they stood for, and look the same. -/
theorem Tells.of_others (hnames : Distinguished names) (h : r.IsSound names) (h' : r'.IsSound names)
    (hsub : r.known ⊆ r'.known) {fact : Fact} (hfact : fact.name ∈ names)
    (hown : r'.outline? fact.name = some (fact.apply ((r.outline? fact.name).getD {})))
    (hothers : ∀ n j, (n, j) ∈ r'.known → fact.name ≠ n →
      (n, j) ∈ r.known ∧ r'.catalog.entity? j = r.catalog.entity? j) : Tells names r [fact] r' := by
  refine ⟨h', hsub, fun n hn => ?_⟩
  rw [List.foldl_cons, List.foldl_nil, Fact.on]
  split
  · rename_i hkey
    obtain rfl : fact.name = n := (hnames _ hfact n hn).mp hkey
    exact hown
  · rename_i hkey
    have hne : fact.name ≠ n := fun heq => hkey ((hnames _ hfact n hn).mpr heq)
    rcases hlookup : Value.lookup? n r'.known with - | j
    · have hnone : Value.lookup? n r.known = none := by
        refine Option.eq_none_iff_forall_ne_some.mpr fun j hj => ?_
        have hmem := hsub ((h.lookup?_eq_some_iff hnames hn).mp hj)
        rw [(h'.lookup?_eq_some_iff hnames hn).mpr hmem] at hlookup
        cases hlookup
      rw [outline?, outline?, hlookup, hnone, Option.bind_none, Option.bind_none]
    · have hj' := (h'.lookup?_eq_some_iff hnames hn).mp hlookup
      obtain ⟨hj, hsame⟩ := hothers n j hj' hne
      rw [h'.outline?_of_mem hnames hj', h.outline?_of_mem hnames hj]
      exact outlineAt?_eq h h' hsub hj hsame

/-- The entity type that a name has, or gets because the name is new. -/
theorem exists_run_entityNamed (hnames : Distinguished names) (h : r.IsSound names) (hname : name ∈ names) :
    ∃ id r', (entityNamed name).run r = .ok (id, r') ∧ (name, id) ∈ r'.known ∧
      Tells names r [.mention name] r' := by
  have hrun : (entityNamed name).run r = _ := run_entityNamed
  rcases hlookup : Value.lookup? name r.known with - | id
  -- A new name: its entity type is the last one, so what is known stays where it is.
  · rw [hlookup] at hrun
    have hnew : name ∉ r.known.map Prod.fst := by
      intro hmem
      obtain ⟨⟨n, id⟩, hid, rfl⟩ := List.mem_map.mp hmem
      rw [(h.lookup?_eq_some_iff hnames hname).mpr hid] at hlookup
      cases hlookup
    have h' := h.extend hname hnew
    have hsub : r.known ⊆ (r.extend name).known := List.subset_append_left ..
    have hid : (name, r.catalog.length) ∈ (r.extend name).known :=
      List.mem_append_right _ List.mem_cons_self
    refine ⟨_, _, hrun, hid, .of_others hnames h h' hsub hname ?_ fun n j hj hne => ?_⟩
    · change (r.extend name).outline? name = some ((r.outline? name).getD {})
      rw [h'.outline?_of_mem hnames hid, outline?, hlookup, Catalog.outlineAt?, extend,
        Catalog.entity?_append_length]
      rfl
    · rcases List.mem_append.mp hj with hj | hj
      · obtain ⟨e, he, -⟩ := h.holds n j hj
        exact ⟨hj, (Catalog.entity?_append_of_some he).trans he.symm⟩
      · cases List.mem_singleton.mp hj
        exact absurd rfl hne
  · rw [hlookup] at hrun
    have hid := (h.lookup?_eq_some_iff hnames hname).mp hlookup
    refine ⟨id, r, hrun, hid, .of_others hnames h h (List.Subset.refl _) hname ?_ fun n j hj _ => ⟨hj, rfl⟩⟩
    obtain ⟨e, he, -⟩ := h.holds name id hid
    change r.outline? name = some ((r.outline? name).getD {})
    rw [h.outline?_of_mem hnames hid, Catalog.outlineAt?, he]
    rfl

/-- An entity type that is known is changed. -/
theorem tells_update (hnames : Distinguished names) (h : r.IsSound names) (fact : Fact)
    (hid : (fact.name, id) ∈ r.known) {f : EntityType → EntityType}
    (hholds : ∀ e, Holds r.known fact.name e → Holds r.known fact.name (f e))
    (houtline : ∀ e, r.catalog.outline (f e) = fact.apply (r.catalog.outline e)) :
    Tells names r [fact] (r.update id f) := by
  obtain ⟨e, he, hwell⟩ := h.holds _ id hid
  have hentity : ∀ j, (r.update id f).catalog.entity? j =
      (r.catalog.entity? j).map fun e => if id = j then f e else e := fun j => Catalog.entity?_update
  have hchanged : (r.update id f).catalog.entity? id = some (f e) := by simp [hentity, he]
  have hothers : ∀ n j, (n, j) ∈ r.known → fact.name ≠ n →
      (r.update id f).catalog.entity? j = r.catalog.entity? j := by
    intro n j hj hne
    have hij : id ≠ j := by
      rintro rfl
      exact hne ((h.nameOf hid).symm.trans (h.nameOf hj))
    simp [hentity, hij]
  have h' : (r.update id f).IsSound names := by
    refine ⟨h.mem, h.nodup, fun n j hj => ?_⟩
    by_cases hn : fact.name = n
    · subst hn
      obtain rfl := h.id_eq hid hj
      exact ⟨f e, hchanged, hholds e hwell⟩
    · rw [hothers n j hj hn]
      exact h.holds n j hj
  refine .of_others hnames h h' (List.Subset.refl _) (h.mem_names hid) ?_ fun n j hj hne =>
    ⟨hj, hothers n j hj hne⟩
  -- No entity type changes its name, so the targets of all navigations are called what they were called.
  have hsame : (r.update id f).catalog.outline (f e) = r.catalog.outline (f e) := by
    refine Catalog.outline_congr fun p hp j isScalar htarget => ?_
    obtain ⟨m, hm⟩ := (hholds e hwell).closed p hp j isScalar htarget
    rw [h'.nameOf hm, h.nameOf hm]
  rw [h'.outline?_of_mem hnames hid, h.outline?_of_mem hnames hid, Catalog.outlineAt?, Catalog.outlineAt?,
    hchanged, he, Option.map_some, Option.map_some, Option.getD_some, hsame, houtline]

/-- An entity type that is known gets the flags and options of its definition. -/
theorem tells_options (hnames : Distinguished names) (h : r.IsSound names) (hid : (name, id) ∈ r.known)
    (given : Options) : Tells names r [.options name given] (r.update id given.fill) :=
  tells_update hnames h (.options name given) hid
    (fun _ hholds => ⟨hholds.name_eq, hholds.nodup, hholds.closed⟩) fun _ => rfl

/-- An entity type that is known gets a property. -/
theorem tells_property (hnames : Distinguished names) (h : r.IsSound names) (hid : (name, id) ∈ r.known)
    (p : Property) (htarget : ∀ j isScalar, p.target = .navigation j isScalar → ∃ m, (m, j) ∈ r.known) :
    Tells names r [.property name p.name (r.catalog.named p.target)] (r.update id fun e => e.add p) := by
  refine tells_update hnames h (.property name p.name (r.catalog.named p.target)) hid
    (fun e hholds => ⟨hholds.name_eq, ?_, ?_⟩) fun e => ?_
  · exact EntityType.nodup_insert hholds.nodup
  · intro q hq
    rcases EntityType.mem_of_mem_insert hq with rfl | hq
    · exact htarget
    · exact hholds.closed q hq
  · have hproperty : (fun key => ((e.add p).find? key).map fun q => r.catalog.named q.target) =
        Function.update (fun key => (e.find? key).map fun q => r.catalog.named q.target) p.name
          (some (r.catalog.named p.target)) := by
      funext key
      rw [EntityType.find?_add, Function.update_apply]
      by_cases hkey : p.name = key
      · simp [hkey]
      · simp [hkey, Ne.symm hkey]
    exact congrArg (Outline.mk e.isAnonymous e.policy e.convention) hproperty

/-- An entity type that is known gets a navigation to one that is known. -/
theorem tells_navigation (hnames : Distinguished names) (h : r.IsSound names)
    (hid : (name, id) ∈ r.known) {target : Value} (hj : (target, j) ∈ r.known) {key : Text}
    {isScalar : Bool} : Tells names r [.property name key (.navigation target isScalar)]
      (r.update id fun e => e.add ⟨key, .navigation j isScalar⟩) := by
  have htells := tells_property hnames h hid ⟨key, .navigation j isScalar⟩ fun _ _ heq => by
    cases heq
    exact ⟨target, hj⟩
  rwa [Catalog.named, h.nameOf hj] at htells

end Reading

/-! ### Definitions -/

open Reading

variable {names : List Value}

theorem propertiesField_eq (id : EntityId) (entries : List (Value × Value)) :
    propertiesField id entries = (field? "properties" entries).elim (pure ()) (properties id) := by
  induction entries with
  | nil => rfl
  | cons e entries ih =>
    obtain ⟨k, v⟩ := e
    rw [propertiesField, field?, Value.lookup?]
    split
    · rfl
    · exact ih

/-- The navigation of a property is the name of an entity type or its definition. -/
theorem navigationField_eq (key : Text) (entries : List (Value × Value)) :
    navigationField key entries = match field? "navigation" entries with
      | some (.text s) => entityNamed (.text s)
      | some (.map d) => entity (.map d)
      | _ => throw (.document (.badProperty key)) := by
  induction entries with
  | nil => rfl
  | cons e entries ih =>
    obtain ⟨k, v⟩ := e
    unfold navigationField
    rw [field?, Value.lookup?]
    split
    · cases v <;> rfl
    · exact ih

theorem run_propertyEntries_cons {r r' : Reading} {id : EntityId} {k v : Value} {key : Text}
    {p : PropertyTarget} {rest : List (Value × Value)} (hk : k.toText = .ok key)
    (hp : (target key v).run r = .ok (p, r')) : (propertyEntries id ((k, v) :: rest)).run r =
      (propertyEntries id rest).run (r'.update id fun e => e.add ⟨key, p⟩) := by
  rw [propertyEntries, hk, StateT.run_bind, show (liftM (Except.ok key : Except Fault Text) :
    Reader Text).run r = .ok (key, r) from rfl, ok_bind, StateT.run_bind, hp, ok_bind, StateT.run_bind,
    run_modifyEntity, ok_bind]

/-- The entry of a property is read for an entity type, and what it says is told. -/
def Adds (names : List Value) (owner : Value) (e : Value × Value) (facts : List Fact) : Prop :=
  ∀ r id, r.IsSound names → (owner, id) ∈ r.known → ∃ key p r',
    e.1.toText = .ok key ∧ (target key e.2).run r = .ok (p, r') ∧
      Tells names r facts (r'.update id fun e => e.add ⟨key, p⟩)

/-- Properties are read one after the other. -/
theorem exists_run_propertyEntries {owner : Value} {said : Value × Value → List Fact}
    {entries : List (Value × Value)} (hadds : ∀ e ∈ entries, Adds names owner e (said e)) :
    ∀ {r : Reading} {id : EntityId}, r.IsSound names → (owner, id) ∈ r.known →
      ∃ r', (propertyEntries id entries).run r = .ok ((), r') ∧ Tells names r (entries.flatMap said) r' := by
  induction entries with
  | nil => exact fun h _ => ⟨_, rfl, .nil h⟩
  | cons e entries ih =>
    intro r id h hid
    obtain ⟨hfirst, hrest⟩ := List.forall_mem_cons.mp hadds
    obtain ⟨key, p, r', hkey, hp, htells⟩ := hfirst r id h hid
    obtain ⟨r'', hrun, htells'⟩ := ih hrest htells.sound (htells.known hid)
    refine ⟨r'', (run_propertyEntries_cons hkey hp).trans hrun, ?_⟩
    rw [List.flatMap_cons]
    exact htells.trans htells'

/-- A definition that is read names its entity type, whose options and properties follow. -/
theorem run_entity {r r₁ r₂ : Reading} {entries props : List (Value × Value)} {name : Value}
    {id : EntityId} {given : Options} (hfield : field? "name" entries = some name) (hkey : name.isKey)
    (hgiven : givenOptions entries = some given)
    (hprops : (field? "properties" entries).getD (.map []) = .map props)
    (hname : (entityNamed name).run r = .ok (id, r₁))
    (hentries : (propertyEntries id props).run (r₁.update id given.fill) = .ok ((), r₂)) :
    (entity (.map entries)).run r = .ok (id, r₂) := by
  have hproperties : propertiesField id entries = propertyEntries id props := by
    rw [propertiesField_eq]
    rcases field?_properties hprops with hfound | ⟨hfound, rfl⟩
    all_goals
      rw [hfound]
      rfl
  rw [entity]
  refine run_bind_iff.mpr ⟨name, r, run_nameOf.mpr ⟨hfield, hkey, rfl⟩, ?_⟩
  refine run_bind_iff.mpr ⟨id, r₁, hname, ?_⟩
  refine run_bind_iff.mpr ⟨(), _, run_options.mpr ⟨given, hgiven, rfl⟩, ?_⟩
  rw [hproperties]
  exact run_bind_iff.mpr ⟨(), r₂, hentries, rfl⟩

mutual

/-- **A definition is read, and what it says is told.** -/
theorem exists_run_of_defines (hnames : Distinguished names) {v name : Value} {facts : List Fact} :
    Defines v name facts → (∀ f ∈ facts, f.name ∈ names) → ∀ r, r.IsSound names →
      ∃ id r', (entity v).run r = .ok (id, r') ∧ (name, id) ∈ r'.known ∧ Tells names r facts r'
  | @Defines.intro entries props name given said hfield hkey hgiven hprops hsaid, hmem, r, h => by
    obtain ⟨hown, hmem⟩ := List.forall_mem_cons.mp hmem
    have hadds := fun e he => adds_of_states hnames (hsaid e he) fun f hf =>
      hmem f (List.mem_flatMap.mpr ⟨e, he, hf⟩)
    -- The name is known before the properties are read, so they may refer back to it.
    obtain ⟨id, r₁, hname, hid, htells₁⟩ := exists_run_entityNamed hnames h hown
    have htells₂ := tells_options hnames htells₁.sound hid given
    obtain ⟨r₂, hentries, htells₃⟩ :=
      exists_run_propertyEntries hadds htells₂.sound (htells₂.known hid)
    refine ⟨id, r₂, run_entity hfield hkey hgiven hprops hname hentries, ?_, ?_⟩
    · exact htells₃.known (htells₂.known hid)
    · exact (htells₁.options_of_mention htells₂).trans htells₃

theorem adds_of_states (hnames : Distinguished names) {owner : Value} {e : Value × Value}
    {facts : List Fact} : States owner e facts → (∀ f ∈ facts, f.name ∈ names) →
      Adds names owner e facts
  | @States.data owner k s key t hk ht, _, r, id, h, hid => by
    refine ⟨key, .data t, r, hk, ?_, tells_property hnames h hid ⟨key, .data t⟩ nofun⟩
    rw [target, ht]
    rfl
  | @States.reference owner k s key property hk hfield, hmem, r, id, h, hid => by
    obtain ⟨j, r₁, hrun, hj, htells⟩ :=
      exists_run_entityNamed hnames h (hmem _ List.mem_cons_self : Value.text s ∈ names)
    refine ⟨key, .navigation j (field "isScalar" property).truthy, r₁, hk, ?_, ?_⟩
    · rw [target, navigationField_eq, hfield]
      exact run_bind_iff.mpr ⟨j, r₁, hrun, rfl⟩
    · exact htells.trans (tells_navigation hnames htells.sound (htells.known hid) hj)
  | @States.inline owner k name key property d facts hk hfield hdefines, hmem, r, id, h, hid => by
    obtain ⟨j, r₁, hrun, hj, htells⟩ := exists_run_of_defines hnames hdefines
      (fun f hf => hmem f (List.mem_append_left _ hf)) r h
    refine ⟨key, .navigation j (field "isScalar" property).truthy, r₁, hk, ?_, ?_⟩
    · rw [target, navigationField_eq, hfield]
      exact run_bind_iff.mpr ⟨j, r₁, hrun, rfl⟩
    · exact htells.trans (tells_navigation hnames htells.sound (htells.known hid) hj)

end

end Document

end RecordFilter
