import RecordFilter.CommandLine.Run
import RecordFilter.Proofs.Outcome

/-!
# Naming conventions of documents

A naming convention belongs to one entity type. A document that declares one for its root, and none
in the definitions inside of it (`Document.DeclaresAtRoot`), therefore gives a catalog in which all
other entity types have the convention that changes nothing (`Document.conventionOnlyAt_of_read`);
the same is so when the convention of the root is that of the settings
(`CommandLine.conventionOnlyAt_of_loadSchema`). An entity type that the document only refers to by
name is the root itself if it has its name.
-/

namespace RecordFilter

/-! ### The convention that changes nothing -/

/-- A code point in front of the first of several texts is one in front of all of them joined. -/
theorem Text.join_cons (separator : Text) (c : CodePoint) (cs : List CodePoint) (ts : List Text) :
    Text.join separator (⟨c :: cs⟩ :: ts) = ⟨c :: (Text.join separator (⟨cs⟩ :: ts)).points⟩ := by
  cases ts <;> rfl

/-- The segments of a path, joined again. -/
theorem Text.join_segments (path : Text) : Text.join "." (Text.segments path) = path := by
  suffices h : ∀ cs : List CodePoint, Text.join "." ((Text.split '.' cs).map Text.mk) = ⟨cs⟩ from
    h path.points
  intro cs
  induction cs with
  | nil => rfl
  | cons c cs ih =>
    obtain ⟨piece, pieces, hsplit⟩ := List.exists_cons_of_ne_nil (Text.split_ne_nil '.' cs)
    rw [hsplit, List.map_cons] at ih
    rw [Text.split, hsplit]
    split
    · rename_i hdot
      rw [List.map_cons, List.map_cons, Text.join.eq_3 _ _ _ (List.cons_ne_nil _ _), ih, hdot]
      rfl
    · rw [List.map_cons, Text.join_cons, ih]

theorem NamingConvention.convertPath_same (path : Text) :
    NamingConvention.same.convertPath path = path := by
  have hid : NamingConvention.convert .same = id := rfl
  rw [convertPath, hid, List.map_id, Text.join_segments]

/-! ### Catalogs with one convention -/

namespace Catalog

/-- All entity types but one have the convention that changes nothing. -/
def HasConventionOnlyAt (c : Catalog) (root : EntityId) : Prop :=
  ∀ id e, id ≠ root → c.entity? id = some e → e.convention = .same

variable {c : Catalog} {root : EntityId}

theorem HasConventionOnlyAt.append (h : c.HasConventionOnlyAt root) (name : Value) :
    Catalog.HasConventionOnlyAt (c ++ [{ name := name }]) root := by
  intro id e hid he
  rcases Nat.lt_or_ge id c.length with hlt | hge
  · exact h id e hid ((List.getElem?_append_left hlt).symm.trans he)
  · have hlast : [({ name := name } : EntityType)][id - c.length]? = some e :=
      (List.getElem?_append_right hge).symm.trans he
    obtain rfl : ({ name := name } : EntityType) = e :=
      List.mem_singleton.mp (List.mem_of_getElem? hlast) |>.symm
    rfl

/-- Changing an entity type leaves the others as they are, and its own convention if it is another
one than the root. -/
theorem HasConventionOnlyAt.update (h : c.HasConventionOnlyAt root) {id : EntityId}
    {f : EntityType → EntityType} (hf : id = root ∨ ∀ e, (f e).convention = e.convention) :
    (c.update id f).HasConventionOnlyAt root := by
  intro i e hi he
  obtain ⟨e', he', rfl⟩ : ∃ e', c.entity? i = some e' ∧ (if id = i then f e' else e') = e := by
    rw [entity?, Catalog.update, List.getElem?_modify] at he
    simpa [entity?] using he
  split
  · rename_i hsame
    rcases hf with hroot | hf
    · exact absurd (hsame.symm.trans hroot) hi
    · exact (hf e').trans (h i e' hi he')
  · exact h i e' hi he'

end Catalog

namespace Document

/-! ### Documents that declare a convention for their root only -/

mutual

/-- No definition in a value that is read as one declares a convention. -/
def DeclaresNone : Value → Prop
  | .map entries => field "namingConvention" entries = .null ∧ DeclaresNone.properties entries
  | _ => True

/-- No definition in the properties of a definition does. -/
def DeclaresNone.properties : List (Value × Value) → Prop
  | [] => True
  | (k, v) :: rest =>
    if Value.sameKey k (.text "properties") then DeclaresNone.propertyMap v
    else DeclaresNone.properties rest

/-- No definition in a map of properties does. -/
def DeclaresNone.propertyMap : Value → Prop
  | .map entries => DeclaresNone.propertyEntries entries
  | _ => True

/-- No definition in properties does. -/
def DeclaresNone.propertyEntries : List (Value × Value) → Prop
  | [] => True
  | (_, v) :: rest => DeclaresNone.target v ∧ DeclaresNone.propertyEntries rest

/-- No definition in a property does. -/
def DeclaresNone.target : Value → Prop
  | .map entries => DeclaresNone.navigation entries
  | _ => True

/-- No definition in the navigation of a property does. -/
def DeclaresNone.navigation : List (Value × Value) → Prop
  | [] => True
  | (k, v) :: rest =>
    if Value.sameKey k (.text "navigation") then DeclaresNone v else DeclaresNone.navigation rest

end

/-- Only the definition that the document itself is may declare a convention. -/
def DeclaresAtRoot : Value → Prop
  | .map entries => DeclaresNone.properties entries
  | _ => True

/-! ### Steps of reading -/

/-- A step of reading gives no entity type but the root a convention. -/
def Keeps {α : Type} (root : EntityId) (m : Reader α) : Prop :=
  ∀ r a r', m.run r = .ok (a, r') → r.catalog.HasConventionOnlyAt root → r'.catalog.HasConventionOnlyAt root

section

variable {α β : Type} {root id : EntityId}

theorem Keeps.pure (a : α) : Keeps root (Pure.pure a : Reader α) := by
  rintro r _ _ ⟨⟩ h
  exact h

theorem Keeps.throw (fault : Fault) : Keeps root (throw fault : Reader α) := by
  rintro r _ _ ⟨⟩

theorem Keeps.bind {m : Reader α} {f : α → Reader β} (hm : Keeps root m)
    (hf : ∀ a, Keeps root (f a)) : Keeps root (m >>= f) := by
  intro r b r' hrun h
  rw [StateT.run_bind] at hrun
  obtain ⟨⟨a, middle⟩, hfirst, hrest⟩ := bind_eq_ok_iff.mp hrun
  exact hf a middle b r' hrest (hm r a middle hfirst h)

theorem Keeps.lift (x : Except Fault α) : Keeps root (liftM x : Reader α) := by
  rcases x with fault | a
  · rintro r _ _ ⟨⟩
  · rintro r _ _ ⟨⟩ h
    exact h

theorem Keeps.modifyEntity {f : EntityType → EntityType}
    (hf : id = root ∨ ∀ e, (f e).convention = e.convention) : Keeps root (modifyEntity id f) := by
  rintro r _ _ ⟨⟩ h
  exact h.update hf

/-- An entity type that is named for the first time has no convention of its own. -/
theorem Keeps.entityNamed (name : Value) : Keeps root (entityNamed name) := by
  intro r a r' hrun h
  unfold Document.entityNamed at hrun
  rw [StateT.run_bind] at hrun
  obtain ⟨⟨_, _⟩, hget, hrun⟩ := bind_eq_ok_iff.mp hrun
  cases hget
  dsimp only at hrun
  split at hrun
  · cases hrun
    exact h
  · cases hrun
    exact h.append name

theorem Keeps.options {entries : List (Value × Value)}
    (h : id = root ∨ field "namingConvention" entries = .null) :
    Keeps root (options id entries) := by
  unfold Document.options
  refine Keeps.bind (.modifyEntity ?_) fun _ => ?_
  · exact .inr fun _ => rfl
  have hpolicy : ∀ v, Keeps root (policy v) := by
    intro v
    unfold policy
    split
    · exact .pure _
    · exact .throw _
  have hconvention : ∀ v, Keeps root (convention v) := by
    intro v
    unfold convention
    split
    · exact .throw _
    · split
      · exact .pure _
      · exact (Keeps.lift _).bind fun _ => .throw _
  have hgiven : ∀ v, Keeps root (policy v >>= fun p =>
      Document.modifyEntity id fun e => { e with policy := some p }) :=
    fun v => (hpolicy v).bind fun _ => .modifyEntity (.inr fun _ => rfl)
  dsimp only
  split
  · split
    · exact .pure ()
    · exact hgiven _
  · rename_i hdeclared
    have hroot : id = root := h.resolve_right hdeclared
    refine (hconvention _).bind fun _ => Keeps.bind (.modifyEntity (.inl hroot)) fun _ => ?_
    split
    · exact .pure ()
    · exact hgiven _

theorem Keeps.nameOf (entries : List (Value × Value)) : Keeps root (nameOf entries) := by
  unfold Document.nameOf
  split
  · exact .throw _
  · split
    · exact .pure _
    · exact .throw _

mutual

/-- Reading a definition in which no convention is declared. -/
theorem keeps_entity : ∀ v : Value, DeclaresNone v → Keeps root (entity v)
  | .map entries, h => by
    rw [entity]
    refine (Keeps.nameOf entries).bind fun name => (Keeps.entityNamed name).bind fun id => ?_
    refine (Keeps.options (.inr h.1)).bind fun _ => ?_
    exact (keeps_propertiesField entries h.2 id).bind fun _ => .pure id
  | .list items, _ => by
    rw [entity]
    split <;> exact .throw _
  | .text s, _ => by
    rw [entity]
    split <;> exact .throw _
  | .null, _ | .bool _, _ | .int _, _ | .double _, _ | .decimal _, _ | .token _, _
  | .operator _, _ | .date _, _ | .time _, _ | .moment _, _ | .guid _, _ | .object _, _
  | .member .., _ | .node .., _ => .throw _

theorem keeps_propertiesField : ∀ entries : List (Value × Value), DeclaresNone.properties entries →
    ∀ id, Keeps root (propertiesField id entries)
  | [], _, _ => .pure ()
  | (k, v) :: rest, h, id => by
    rw [DeclaresNone.properties] at h
    rw [propertiesField]
    split
    · rename_i hkey
      rw [if_pos hkey] at h
      exact keeps_properties v h id
    · rename_i hkey
      rw [if_neg hkey] at h
      exact keeps_propertiesField rest h id

theorem keeps_properties : ∀ v : Value, DeclaresNone.propertyMap v →
    ∀ id, Keeps root (properties id v)
  | .map entries, h, id => keeps_propertyEntries entries h id
  | .list _, _, _ | .text _, _, _
  | .null, _, _ | .bool _, _, _ | .int _, _, _ | .double _, _, _ | .decimal _, _, _ | .token _, _, _
  | .operator _, _, _ | .date _, _, _ | .time _, _, _ | .moment _, _, _ | .guid _, _, _
  | .object _, _, _ | .member .., _, _ | .node .., _, _ => .throw _

theorem keeps_propertyEntries : ∀ entries : List (Value × Value),
    DeclaresNone.propertyEntries entries → ∀ id, Keeps root (propertyEntries id entries)
  | [], _, _ => .pure ()
  | (k, v) :: rest, h, id => by
    rw [propertyEntries]
    refine (Keeps.lift _).bind fun name => (keeps_target v h.1 name).bind fun target => ?_
    refine Keeps.bind (.modifyEntity ?_) fun _ => keeps_propertyEntries rest h.2 id
    exact .inr fun _ => rfl

theorem keeps_target : ∀ v : Value, DeclaresNone.target v → ∀ name, Keeps root (target name v)
  | .text s, _, name => by
    rw [target]
    split
    · exact .pure _
    · exact .throw _
  | .map entries, h, name => by
    rw [target]
    exact (keeps_navigationField entries h name).bind fun _ => .pure _
  | .list _, _, _
  | .null, _, _ | .bool _, _, _ | .int _, _, _ | .double _, _, _ | .decimal _, _, _ | .token _, _, _
  | .operator _, _, _ | .date _, _, _ | .time _, _, _ | .moment _, _, _ | .guid _, _, _
  | .object _, _, _ | .member .., _, _ | .node .., _, _ => .throw _

theorem keeps_navigationField : ∀ entries : List (Value × Value), DeclaresNone.navigation entries →
    ∀ name, Keeps root (navigationField name entries)
  | [], _, _ => .throw _
  | (k, v) :: rest, h, name => by
    rw [DeclaresNone.navigation] at h
    unfold navigationField
    split
    · rename_i hkey
      rw [if_pos hkey] at h
      split
      · exact .entityNamed _
      · exact keeps_entity _ h
      · exact .throw _
    · rename_i hkey
      rw [if_neg hkey] at h
      exact keeps_navigationField rest h name

end

end

/-- **Only the root of a document has a convention**, if no definition inside of it declares one. -/
theorem conventionOnlyAt_of_read {document : Value} {root : EntityId} {c : Catalog}
    (hdocument : DeclaresAtRoot document) (h : read [] document = .ok (root, c)) :
    c.HasConventionOnlyAt root := by
  obtain ⟨⟨id, r⟩, hrun, h⟩ := bind_eq_ok_iff.mp h
  cases h
  have hempty : ∀ root, Catalog.HasConventionOnlyAt [] root := by
    intro root i e _ he
    cases he
  by_cases hmap : ∃ entries, document = .map entries
  · obtain ⟨entries, rfl⟩ := hmap
    rw [entity] at hrun
    obtain ⟨⟨name, r₁⟩, hname, hrun⟩ := bind_eq_ok_iff.mp hrun
    obtain ⟨⟨first, r₂⟩, hfirst, hrun⟩ := bind_eq_ok_iff.mp hrun
    obtain ⟨⟨_, r₃⟩, hoptions, hrun⟩ := bind_eq_ok_iff.mp hrun
    obtain ⟨⟨_, r₄⟩, hproperties, hrun⟩ := bind_eq_ok_iff.mp hrun
    cases hrun
    -- The root is the first entity type that is named, and only its options may hold a convention.
    have h₁ := Keeps.nameOf entries _ _ _ hname (hempty root)
    have h₂ := Keeps.entityNamed name _ _ _ hfirst h₁
    have h₃ := Keeps.options (.inl rfl) _ _ _ hoptions h₂
    exact keeps_propertiesField entries hdocument root _ _ _ hproperties h₃
  · have hnone : DeclaresNone document := by
      cases document
      case map entries => exact absurd ⟨entries, rfl⟩ hmap
      all_goals trivial
    exact keeps_entity document hnone _ _ _ hrun (hempty root)

end Document

namespace CommandLine

/-- **So it is when the convention of the root is that of the settings.** -/
theorem conventionOnlyAt_of_loadSchema {w : World} {s : Settings} {name : Text} {root : EntityId}
    {c : Catalog} (hdocument : ∀ cs document, w.file? name = some cs → Json.ofText cs = .ok document →
      Document.DeclaresAtRoot document) (h : loadSchema w s name = .ok (root, c)) :
    c.HasConventionOnlyAt root := by
  unfold loadSchema at h
  rcases hfile : w.file? name with - | cs
  · rw [hfile] at h
    cases h
  rw [hfile] at h
  simp only [pure_eq_ok, ok_bind] at h
  rcases hjson : Json.ofText cs with fault | document
  · rw [hjson] at h
    cases fault <;> cases h
  rw [hjson] at h
  dsimp only at h
  rcases hread : Document.read [] document with fault | ⟨id, c'⟩
  · rw [hread] at h
    cases fault <;> cases h
  rw [hread] at h
  cases h
  have honly := Document.conventionOnlyAt_of_read (hdocument cs document hfile hjson) hread
  unfold withConvention
  split
  · split
    · exact honly
    · exact honly.update (.inl rfl)
  · exact honly

end CommandLine

/-! ### Loaded schemas -/

/-- A schema that was loaded: read from a document that declares a convention for its root at most, or
from a file that holds such a document, and then with the convention of the settings unless the
document gives one. -/
inductive Catalog.IsLoaded (c : Catalog) (root : EntityId) : Prop
  | document {d : Value} : Document.DeclaresAtRoot d → Document.read [] d = .ok (root, c) →
      IsLoaded c root
  | file {w : CommandLine.World} {s : Settings} {name : Text} :
      (∀ cs d, w.file? name = some cs → Json.ofText cs = .ok d → Document.DeclaresAtRoot d) →
        CommandLine.loadSchema w s name = .ok (root, c) → IsLoaded c root

theorem Catalog.IsLoaded.conventionOnlyAt {c : Catalog} {root : EntityId} (h : c.IsLoaded root) :
    c.HasConventionOnlyAt root := by
  cases h with
  | document hdocument hread => exact Document.conventionOnlyAt_of_read hdocument hread
  | file hdocument hload => exact CommandLine.conventionOnlyAt_of_loadSchema hdocument hload

end RecordFilter
