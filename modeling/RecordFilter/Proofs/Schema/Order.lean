import RecordFilter.Proofs.Predicate.Policies
import RecordFilter.Proofs.Schema.Reading
import RecordFilter.Proofs.Schema.Reordering

/-!
# Documents mean the same in any order

A document that defines every name at most once is read to one entity type for each name, and each looks
as the document says, wherever in the document it says so. So a document with its maps in another order,
at any depth, is read as well, and to a schema that cannot be told from the first one: every path leads to
the same property, and the entity types that can be reached have the same names, flags, options and
properties (`Document.read_any_order`).
-/

namespace RecordFilter

/-! ### What can be seen of a catalog -/

namespace EntityType

variable {e : EntityType} {p : Property} {key : Text}

theorem name_eq_of_find? (h : e.find? key = some p) : p.name = key := by
  simpa using List.find?_some h

theorem find?_of_mem (h : (e.properties.map Property.name).Nodup) (hp : p ∈ e.properties) :
    e.find? p.name = some p := by
  obtain ⟨q, hq⟩ : ∃ q, e.find? p.name = some q :=
    Option.isSome_iff_exists.mp (List.find?_isSome.mpr ⟨p, hp, beq_self_eq_true p.name⟩)
  rw [hq, List.inj_on_of_nodup_map h (List.mem_of_find?_eq_some hq) hp (name_eq_of_find? hq)]

end EntityType

namespace Catalog

variable {c : Catalog} {id : EntityId} {key : Text}

/-- The name of a property and what it leads to, with an entity type by its name. -/
def answer (c : Catalog) (p : Property) : Text × NamedTarget :=
  (p.name, c.named p.target)

/-- What is found at the end of a dotted path. -/
def answer? (c : Catalog) (id : EntityId) (path : Text) : Option (Text × NamedTarget) :=
  (c.property? id path).map c.answer

/-- An entity type that can be reached has a name and looks in a way. -/
def Presents (c : Catalog) (root : EntityId) (name : Value) (o : Outline) : Prop :=
  ∃ id e, c.LeadsTo root id ∧ c.entity? id = some e ∧ e.name = name ∧ c.outline e = o

theorem mem_neighbours_iff {j : EntityId} : j ∈ c.neighbours id ↔ ∃ e, c.entity? id = some e ∧
    ∃ p ∈ e.properties, ∃ isScalar, p.target = .navigation j isScalar := by
  rw [neighbours]
  rcases c.entity? id with - | e
  · simp
  · refine List.mem_filterMap.trans ⟨?_, ?_⟩
    · rintro ⟨⟨name, target⟩, hp, htarget⟩
      cases target with
      | data => cases htarget
      | navigation k isScalar =>
        cases htarget
        exact ⟨e, rfl, _, hp, isScalar, rfl⟩
    · rintro ⟨_, ⟨⟩, ⟨name, target⟩, hp, isScalar, rfl⟩
      exact ⟨_, hp, rfl⟩

theorem bind_find?_map_named : ((c.entity? id).bind fun e => e.find? key).map (fun p => c.named p.target) =
    (c.outlineAt? id).bind fun o => o.property? key := by
  rw [outlineAt?]
  rcases c.entity? id with - | e <;> rfl

theorem bind_find?_map_answer : ((c.entity? id).bind fun e => e.find? key).map c.answer =
    ((c.outlineAt? id).bind fun o => o.property? key).map fun target => (key, target) := by
  rw [← bind_find?_map_named, Option.map_map]
  refine Option.map_congr fun p hp => ?_
  obtain ⟨e, -, hfind⟩ := Option.bind_eq_some_iff.mp hp
  rw [answer, EntityType.name_eq_of_find? hfind]
  rfl

end Catalog

namespace Document

open Value (Reordered HasTextKeys TextKeyed)

namespace Reading

variable {names : List Value} {r r' : Reading} {n : Value} {i i' j : EntityId}

/-- All that can be reached from an entity type that is known is known. -/
theorem IsSound.exists_known (h : r.IsSound names) (hi : (n, i) ∈ r.known)
    (hleads : r.catalog.LeadsTo i j) : ∃ m, (m, j) ∈ r.known := by
  induction hleads with
  | refl => exact ⟨n, hi⟩
  | tail _ hstep ih =>
    obtain ⟨m, hm⟩ := ih
    obtain ⟨e, he, hholds⟩ := h.holds m _ hm
    obtain ⟨e', he', p, hp, isScalar, htarget⟩ := Catalog.mem_neighbours_iff.mp hstep
    rw [he] at he'
    cases he'
    exact hholds.closed p hp _ isScalar htarget

/-- What can be reached is known by its name. -/
theorem IsSound.presents_iff {root : EntityId} {name : Value} {o : Outline} (h : r.IsSound names)
    (hroot : (name, root) ∈ r.known) : r.catalog.Presents root n o ↔
      ∃ i, r.catalog.LeadsTo root i ∧ (n, i) ∈ r.known ∧ r.catalog.outlineAt? i = some o := by
  constructor
  · rintro ⟨i, e, hleads, he, rfl, rfl⟩
    obtain ⟨m, hm⟩ := h.exists_known hroot hleads
    have hname : e.name = m := (Catalog.nameOf_of_entity? he).symm.trans (h.nameOf hm)
    refine ⟨i, hleads, hname ▸ hm, ?_⟩
    rw [Catalog.outlineAt?, he, Option.map_some]
  · rintro ⟨i, hleads, hi, hoi⟩
    obtain ⟨e, he, ho⟩ := Option.map_eq_some_iff.mp hoi
    exact ⟨i, e, hleads, he, (Catalog.nameOf_of_entity? he).symm.trans (h.nameOf hi), ho⟩

/-- Two readings in which every name looks the same. -/
structure Alike (names : List Value) (r r' : Reading) : Prop where
  left : r.IsSound names
  right : r'.IsSound names
  outline : ∀ n ∈ names, r.outline? n = r'.outline? n

namespace Alike

theorem symm (h : Alike names r r') : Alike names r' r :=
  ⟨h.right, h.left, fun n hn => (h.outline n hn).symm⟩

theorem outlineAt?_eq (h : Alike names r r') (hnames : Distinguished names) (hi : (n, i) ∈ r.known)
    (hi' : (n, i') ∈ r'.known) : r.catalog.outlineAt? i = r'.catalog.outlineAt? i' := by
  rw [← h.left.outline?_of_mem hnames hi, ← h.right.outline?_of_mem hnames hi',
    h.outline n (h.left.mem_names hi)]

/-- A property under one key leads to the same, if there is one. -/
theorem named_eq (h : Alike names r r') (hnames : Distinguished names) (hi : (n, i) ∈ r.known)
    (hi' : (n, i') ∈ r'.known) (key : Text) :
    ((r.catalog.entity? i).bind fun e => e.find? key).map (fun p => r.catalog.named p.target) =
      ((r'.catalog.entity? i').bind fun e => e.find? key).map fun p => r'.catalog.named p.target := by
  rw [Catalog.bind_find?_map_named, Catalog.bind_find?_map_named, h.outlineAt?_eq hnames hi hi']

theorem exists_known (h : Alike names r r') (hnames : Distinguished names) (hi : (n, i) ∈ r.known) :
    ∃ i', (n, i') ∈ r'.known := by
  have hn := h.left.mem_names hi
  obtain ⟨e, he, -⟩ := h.left.holds n i hi
  have hsome := h.outline n hn
  rw [h.left.outline?_of_mem hnames hi, Catalog.outlineAt?, he, Option.map_some, outline?] at hsome
  obtain ⟨i', hi', -⟩ := Option.bind_eq_some_iff.mp hsome.symm
  exact ⟨i', (h.right.lookup?_eq_some_iff hnames hn).mp hi'⟩

/-- Targets that are called the same have one name that is known on both sides. -/
theorem exists_target (h : Alike names r r') {p p' : Property} {isScalar : Bool} {m : Value}
    (htarget : p.target = .navigation j isScalar) (hj : (m, j) ∈ r.known) (hi' : (n, i') ∈ r'.known)
    {key : Text} (hp' : ((r'.catalog.entity? i').bind fun e => e.find? key) = some p')
    (hnamed : r.catalog.named p.target = r'.catalog.named p'.target) :
    ∃ j', p'.target = .navigation j' isScalar ∧ (m, j') ∈ r'.known := by
  rw [htarget, Catalog.named, h.left.nameOf hj] at hnamed
  rcases hcase : p'.target with t | ⟨j', isScalar'⟩
  · rw [hcase] at hnamed
    cases hnamed
  · rw [hcase, Catalog.named] at hnamed
    obtain ⟨hm, rfl⟩ := NamedTarget.navigation.inj hnamed
    obtain ⟨e, he, hfind⟩ := Option.bind_eq_some_iff.mp hp'
    obtain ⟨e', he', hholds⟩ := h.right.holds n i' hi'
    rw [he] at he'
    cases he'
    obtain ⟨m', hm'⟩ := hholds.closed p' (List.mem_of_find?_eq_some hfind) j' _ hcase
    rw [h.right.nameOf hm'] at hm
    subst hm
    exact ⟨j', rfl, hm'⟩

/-- Paths lead to the same. -/
theorem walk?_eq (h : Alike names r r') (hnames : Distinguished names) : ∀ (path : List Text)
    {n : Value} {i i' : EntityId}, (n, i) ∈ r.known → (n, i') ∈ r'.known →
      (r.catalog.walk? i path).map r.catalog.answer = (r'.catalog.walk? i' path).map r'.catalog.answer
  | [], _, _, _, _, _ => rfl
  | [key], n, i, i', hi, hi' => by
    rw [Catalog.walk?, Catalog.walk?, Catalog.bind_find?_map_answer, Catalog.bind_find?_map_answer,
      h.outlineAt?_eq hnames hi hi']
  | key :: next :: path, n, i, i', hi, hi' => by
    have hnamed := h.named_eq hnames hi hi' key
    rw [Catalog.walk?.eq_3 _ _ _ _ (List.cons_ne_nil _ _),
      Catalog.walk?.eq_3 _ _ _ _ (List.cons_ne_nil _ _)]
    rcases hp : (r.catalog.entity? i).bind fun e => e.find? key with - | ⟨found, target⟩
    · rw [hp] at hnamed
      rw [Option.map_eq_none_iff.mp hnamed.symm]
      rfl
    rw [hp] at hnamed
    obtain ⟨⟨found', target'⟩, hp', hnamed⟩ := Option.map_eq_some_iff.mp hnamed.symm
    rw [hp']
    cases target with
    | data t =>
      cases target' with
      | data => rfl
      | navigation => cases hnamed
    | navigation j isScalar =>
      obtain ⟨m, hm⟩ := h.left.exists_known hi (.of_find? hp)
      obtain ⟨j', hj', hm'⟩ := h.exists_target rfl hm hi' hp' hnamed.symm
      obtain rfl : target' = .navigation j' isScalar := hj'
      exact h.walk?_eq hnames (next :: path) hm hm'

/-- What can be reached is called the same. -/
theorem exists_leadsTo (h : Alike names r r') (hnames : Distinguished names) (hi : (n, i) ∈ r.known)
    (hi' : (n, i') ∈ r'.known) (hleads : r.catalog.LeadsTo i j) :
    ∃ m j', (m, j) ∈ r.known ∧ (m, j') ∈ r'.known ∧ r'.catalog.LeadsTo i' j' := by
  induction hleads with
  | refl => exact ⟨n, i', hi, hi', .refl⟩
  | @tail a b hleads hstep ih =>
    obtain ⟨m, a', ha, ha', hleads'⟩ := ih
    obtain ⟨k, hk⟩ := h.left.exists_known ha (.single hstep)
    obtain ⟨e, he, hholds⟩ := h.left.holds m a ha
    obtain ⟨e', he', p, hp, isScalar, htarget⟩ := Catalog.mem_neighbours_iff.mp hstep
    rw [he] at he'
    cases he'
    have hfind : ((r.catalog.entity? a).bind fun e => e.find? p.name) = some p := by
      rw [he]
      exact EntityType.find?_of_mem hholds.nodup hp
    have hnamed := h.named_eq hnames ha ha' p.name
    rw [hfind, Option.map_some] at hnamed
    obtain ⟨⟨found, target⟩, hp', hnamed⟩ := Option.map_eq_some_iff.mp hnamed.symm
    obtain ⟨b', hb', hk'⟩ := h.exists_target htarget hk ha' hp' hnamed.symm
    obtain rfl : target = .navigation b' isScalar := hb'
    exact ⟨k, b', hk, hk', hleads'.trans (Catalog.LeadsTo.of_find? hp')⟩

theorem presents {root root' : EntityId} {name : Value} {o : Outline} (h : Alike names r r')
    (hnames : Distinguished names) (hroot : (name, root) ∈ r.known) (hroot' : (name, root') ∈ r'.known)
    (hpresents : r.catalog.Presents root n o) : r'.catalog.Presents root' n o := by
  obtain ⟨i, hleads, hi, ho⟩ := (h.left.presents_iff hroot).mp hpresents
  obtain ⟨m, i', hm, hi', hleads'⟩ := h.exists_leadsTo hnames hroot hroot' hleads
  obtain rfl : m = n := (h.left.nameOf hm).symm.trans (h.left.nameOf hi)
  exact (h.right.presents_iff hroot').mpr
    ⟨i', hleads', hi', (h.outlineAt?_eq hnames hi hi').symm.trans ho⟩

end Alike

end Reading

/-! ### Reading in any order -/

open Reading

/-- A document that says something is read to entity types that look as it says. -/
theorem exists_read_of_defines (catalog : Catalog) {document name : Value} {facts : List Fact}
    {names : List Value} (hdefines : Defines document name facts) (hnames : Distinguished names)
    (hmem : ∀ f ∈ facts, f.name ∈ names) : ∃ (root : EntityId) (r : Reading),
      read catalog document = .ok (root, r.catalog) ∧ r.IsSound names ∧ (name, root) ∈ r.known ∧
        ∀ n ∈ names, r.outline? n = described facts n := by
  have hempty : (⟨catalog, []⟩ : Reading).IsSound names :=
    ⟨List.forall_mem_nil _, List.nodup_nil, fun _ _ h => nomatch h⟩
  obtain ⟨root, r, hrun, hroot, htells⟩ := exists_run_of_defines hnames hdefines hmem _ hempty
  exact ⟨root, r, bind_eq_ok_iff.mpr ⟨(root, r), hrun, rfl⟩, htells.sound, hroot, htells.outline⟩

/-- What is known when a document was read. -/
theorem exists_reading_of_read {catalog c : Catalog} {document name : Value} {root : EntityId}
    {facts : List Fact} (hread : read catalog document = .ok (root, c))
    (hdefines : Defines document name facts) (hnames : Distinguished (facts.map Fact.name)) :
    ∃ r : Reading, r.catalog = c ∧ r.IsSound (facts.map Fact.name) ∧ (name, root) ∈ r.known ∧
      ∀ n ∈ facts.map Fact.name, r.outline? n = described facts n := by
  obtain ⟨root', r, hread', hsound, hroot, houtline⟩ :=
    exists_read_of_defines catalog hdefines hnames fun f hf => List.mem_map_of_mem hf
  rw [hread] at hread'
  cases hread'
  exact ⟨r, rfl, hsound, hroot, houtline⟩

/-- **Documents mean the same in any order.** If a document is read that defines every name at most once,
then entity types that can be reached and have one name are one entity type. It looks as the document
says, and all that the document says about the name holds of it, wherever that stands. The document with
its maps in another order, at any depth, is read as well. Every path leads to the same from its root, and
the entity types that can be reached have the same names and look the same. -/
theorem read_any_order {catalog c : Catalog} {document : Value} {root : EntityId}
    (hjson : document.IsJson) (hkeys : document.HasTextKeys) (honce : DefinesOnce document)
    (hread : read catalog document = .ok (root, c)) :
    (∀ i j, c.LeadsTo root i → c.LeadsTo root j → Value.sameKey (c.nameOf i) (c.nameOf j) → i = j) ∧
    (∀ name facts, Defines document name facts → ∀ n o, c.Presents root n o →
      described facts n = some o ∧ ∀ f ∈ facts, f.name = n → f.apply o = o) ∧
    ∀ catalog' document', Value.Reordered document document' →
      ∃ root' c', read catalog' document' = .ok (root', c') ∧
        (∀ path, c'.answer? root' path = c.answer? root path) ∧
        ∀ n o, c'.Presents root' n o ↔ c.Presents root n o := by
  obtain ⟨⟨_, _⟩, hrun, -⟩ := bind_eq_ok_iff.mp hread
  obtain ⟨name, facts, hdefines⟩ := exists_defines hrun
  have hnames := hdefines.distinguished hjson honce
  obtain ⟨r, rfl, hsound, hroot, houtline⟩ := exists_reading_of_read hread hdefines hnames
  refine ⟨fun i j hi hj hsame => ?_, fun name' facts' hdefines' n o hpresents => ?_,
    fun catalog' document' hreordered => ?_⟩
  · obtain ⟨m, hm⟩ := hsound.exists_known hroot hi
    obtain ⟨n, hn⟩ := hsound.exists_known hroot hj
    rw [hsound.nameOf hm, hsound.nameOf hn] at hsame
    obtain rfl := (hnames m (hsound.mem_names hm) n (hsound.mem_names hn)).mp hsame
    exact hsound.id_eq hm hn
  · have hnames' := hdefines'.distinguished hjson honce
    obtain ⟨r', hcatalog, hsound', hroot', houtline'⟩ := exists_reading_of_read hread hdefines' hnames'
    rw [← hcatalog] at hpresents
    obtain ⟨i, -, hi, ho⟩ := (hsound'.presents_iff hroot').mp hpresents
    have hdescribed : described facts' n = some o := by
      rw [← houtline' n (hsound'.mem_names hi), hsound'.outline?_of_mem hnames' hi, ho]
    refine ⟨hdescribed, ?_⟩
    rintro f hf rfl
    exact apply_eq_of_described hnames' (fun f hf => List.mem_map_of_mem hf)
      (hdefines'.nodup_subjects hkeys (hdefines'.nodup_definedIn honce)) hf hdescribed
  · obtain ⟨facts', hdefines', hperm, hdescribed⟩ :=
      described_of_reordered hdefines hjson hkeys honce hreordered
    have hmem' : ∀ f ∈ facts', f.name ∈ facts.map Fact.name := fun f hf =>
      List.mem_map_of_mem (hperm.mem_iff.mpr hf)
    obtain ⟨root', r', hread', hsound', hroot', houtline'⟩ :=
      exists_read_of_defines catalog' hdefines' hnames hmem'
    have halike : Alike (facts.map Fact.name) r r' :=
      ⟨hsound, hsound', fun n hn => by rw [houtline n hn, houtline' n hn, hdescribed n hn]⟩
    refine ⟨root', r'.catalog, hread', fun path => ?_, fun n o => ?_⟩
    · exact (halike.walk?_eq hnames (Text.segments path) hroot hroot').symm
    · exact ⟨halike.symm.presents hnames hroot' hroot, halike.presents hnames hroot hroot'⟩

/-- Two entity types that refer to each other. One refers to the other and to itself before the definition
of the other, or after it. -/
theorem read_any_order_of_references :
    let reference (name : Text) : Value := .map [(.text "navigation", .text name)]
    let customer : Value := .map [(.text "name", .text "Customer"),
      (.text "properties", .map [(.text "age", .text "Int32"), (.text "orders", reference "Order")])]
    let early : List (Value × Value) := [(.text "previous", reference "Order"),
      (.text "payer", reference "Customer"), (.text "buyer", .map [(.text "navigation", customer)])]
    let late : List (Value × Value) := [(.text "buyer", .map [(.text "navigation", customer)]),
      (.text "payer", reference "Customer"), (.text "previous", reference "Order")]
    let order (properties : List (Value × Value)) : Value :=
      .map [(.text "name", .text "Order"), (.text "properties", .map properties)]
    ∃ root c root' c', read [] (order early) = .ok (root, c) ∧ read [] (order late) = .ok (root', c') ∧
      (∀ i j, c.LeadsTo root i → c.LeadsTo root j → Value.sameKey (c.nameOf i) (c.nameOf j) → i = j) ∧
      ∀ path, c'.answer? root' path = c.answer? root path := by
  intro reference customer early late order
  obtain ⟨root, c, hread⟩ : ∃ root c, read [] (order early) = .ok (root, c) := ⟨_, _, rfl⟩
  have hjson : (order early).IsJson := by
    simp [order, early, customer, reference, Value.IsJson, Value.JsonEntries, Value.isKey]
  have hkeys : (order early).HasTextKeys := by
    simp +decide [order, early, customer, reference, HasTextKeys, Value.EntriesHaveTextKeys,
      TextKeyed.cons_iff, TextKeyed.nil]
  have honce : DefinesOnce (order early) := by
    refine ⟨?_, ?_⟩
    · decide
    · decide
  have hreordered : Reordered (order early) (order late) := by
    have hproperties : Reordered (.map early) (.map late) :=
      .of_perm (hkeys.of_lookup? (rfl : Value.lookup? (.text "properties") _ = some (.map early))).keyed
        (List.reverse_perm early).symm
    refine .map (.refl _) fun k v w hv hw => ?_
    rcases List.mem_pair.mp hv with hv | hv
    all_goals
      rcases List.mem_pair.mp hw with hw | hw
    all_goals
      cases hv
      cases hw
    · exact .refl _
    · exact hproperties
  obtain ⟨hsame, -, horder⟩ := read_any_order hjson hkeys honce hread
  obtain ⟨root', c', hread', hanswer, -⟩ := horder [] (order late) hreordered
  exact ⟨root, c, root', c', hread, hread', hsame, hanswer⟩

end Document

end RecordFilter
