import RecordFilter.Predicate.Compile
import RecordFilter.Proofs.Outcome

/-!
# Paths that are put together

A dot puts two paths together, and what stands at the end of the whole is found in two steps: the first
path leads to some place, and the second one starts there. This is so for the properties of a schema
(`Catalog.property?_dot`), where only a navigation property leads on, and for the values of a record
(`Expr.readPath_dot`), where nothing is found behind an absent value. `paths_compose` says both, of the
functions that property paths are compiled to.

Either side comes from the same fact about walks: a walk along two lists of names is one walk after the
other (`Catalog.walk?_append`, `Record.walk_append`).
-/

namespace RecordFilter

/-! ### Segments -/

namespace Text

/-- Cutting at a mark cuts what stands in front of it and what stands behind it. -/
theorem split_append_cons (mark : CodePoint) (cs ds : List CodePoint) :
    split mark (cs ++ mark :: ds) = split mark cs ++ split mark ds := by
  induction cs with
  | nil => simp [split]
  | cons c cs ih =>
    rw [List.cons_append, split, split, ih]
    by_cases hc : c = mark
    · rw [if_pos hc, if_pos hc]
      rfl
    · rw [if_neg hc, if_neg hc]
      obtain ⟨piece, pieces, hpieces⟩ := List.exists_cons_of_ne_nil (split_ne_nil mark cs)
      rw [hpieces]
      rfl

theorem segments_ne_nil (path : Text) : segments path ≠ [] :=
  mt List.map_eq_nil_iff.mp (split_ne_nil '.' path.points)

/-- A path that is put together has the segments of both paths. -/
theorem segments_dot (p q : Text) : segments (p ++ "." ++ q) = segments p ++ segments q := by
  have hpoints : (p ++ "." ++ q).points = p.points ++ CodePoint.char '.' :: q.points := by
    rw [points_append, points_append, List.append_assoc]
    rfl
  rw [segments, hpoints, split_append_cons, List.map_append]
  rfl

/-- A path of one segment is that segment. -/
theorem eq_of_segments {path name : Text} (h : segments path = [name]) : name = path := by
  have hsplit : ∀ cs piece : List CodePoint, split '.' cs = [piece] → piece = cs := by
    intro cs
    induction cs with
    | nil =>
      intro piece h
      exact (List.cons.inj h).1.symm
    | cons c cs ih =>
      intro piece h
      rw [split] at h
      split at h
      · exact absurd (List.cons.inj h).2 (split_ne_nil '.' cs)
      · split at h
        · rename_i first pieces hfirst
          obtain ⟨rfl, rfl⟩ := List.cons.inj h
          rw [ih first hfirst]
        · exact absurd ‹_› (split_ne_nil '.' cs)
  obtain ⟨piece, hpiece, rfl⟩ := List.map_eq_singleton_iff.mp h
  rw [hsplit path.points piece hpiece]

end Text

/-! ### Schemas -/

namespace Catalog

variable (c : Catalog)

/-- The property at the end of a path that starts where a property leads. A data property leads
nowhere. -/
def propertyFrom? (property : Property) (path : Text) : Option Property :=
  match property.target with
  | .navigation target _ => c.property? target path
  | .data _ => none

/-- A walk along names goes on where the walk along the first of them has come to. -/
theorem walk?_append {path more : List Text} (hpath : path ≠ []) (hmore : more ≠ []) (id : EntityId) :
    c.walk? id (path ++ more) = (c.walk? id path).bind fun property =>
      match property.target with
      | .navigation target _ => c.walk? target more
      | .data _ => none := by
  induction path generalizing id with
  | nil => exact absurd rfl hpath
  | cons name path ih =>
    cases path with
    | nil =>
      -- the first path ends at a property of the entity type itself
      rw [List.singleton_append, walk?.eq_3 _ _ _ _ hmore, walk?]
      rcases (c.entity? id).bind fun e => e.find? name with - | ⟨found, - | ⟨target, isScalar⟩⟩ <;> rfl
    | cons next path =>
      have hrest := ih (List.cons_ne_nil next path)
      rw [List.cons_append, walk?.eq_3 _ _ _ _ (List.append_ne_nil_of_right_ne_nil _ hmore),
        walk?.eq_3 _ _ _ _ (List.cons_ne_nil next path)]
      rcases (c.entity? id).bind fun e => e.find? name with - | ⟨found, - | ⟨target, isScalar⟩⟩
      · rfl
      · rfl
      · exact hrest target

/-- **A path is resolved in two steps** wherever it is divided. -/
theorem property?_dot (id : EntityId) (p q : Text) :
    c.property? id (p ++ "." ++ q) =
      (c.property? id p).bind fun property => c.propertyFrom? property q := by
  rw [property?, Text.segments_dot]
  exact c.walk?_append (Text.segments_ne_nil p) (Text.segments_ne_nil q) id

end Catalog

/-! ### Records -/

/-- The accessor finds nothing in an absent record. -/
def Accessor.KeepsNull (access : Accessor) : Prop :=
  ∀ name, access .null name = .null

theorem Record.keepsNull_get : Accessor.KeepsNull Record.get := fun _ => rfl

theorem Record.keepsNull_getUpper : Accessor.KeepsNull Record.getUpper := fun _ => rfl

section

variable {access : Accessor}

theorem Record.walk_null (path : List Text) : Record.walk access .null path = .null := by
  cases path <;> rfl

/-- A walk from a record that may be absent begins with the field of the first name. -/
theorem Record.walk_cons (hnull : access.KeepsNull) (record : Value) (name : Text) (path : List Text) :
    Record.walk access record (name :: path) = Record.walk access (access record name) path := by
  cases record
  case null => rw [walk_null, hnull name, walk_null]
  all_goals rfl

/-- A walk along names goes on from the value that the walk along the first of them has come to. -/
theorem Record.walk_append (hnull : access.KeepsNull) (record : Value) (path more : List Text) :
    Record.walk access record (path ++ more) =
      Record.walk access (Record.walk access record path) more := by
  induction path generalizing record with
  | nil => rfl
  | cons name path ih => rw [List.cons_append, walk_cons hnull, walk_cons hnull, ih]

/-- **Reading a single field is a walk** along one name. -/
theorem Expr.readPath_eq_walk (hnull : access.KeepsNull) (path : Text) (record : Value) :
    Expr.readPath access path record = Record.walk access record (Text.segments path) := by
  rw [readPath]
  split
  · rename_i name hname
    rw [hname, Record.walk_cons hnull, Text.eq_of_segments hname]
    rfl
  · rfl

/-- **A path is read in two steps** wherever it is divided. -/
theorem Expr.readPath_dot (hnull : access.KeepsNull) (p q : Text) (record : Value) :
    Expr.readPath access (p ++ "." ++ q) record =
      Expr.readPath access q (Expr.readPath access p record) := by
  rw [readPath_eq_walk hnull, readPath_eq_walk hnull, readPath_eq_walk hnull, Text.segments_dot,
    Record.walk_append hnull]

end

/-! ### Paths -/

/-- **Paths compose**, in schemas and in records alike. Of two paths with a dot between them a schema
knows the property that the second one leads to from where the first one points at, and none if the first
one is no navigation property. In a context whose accessor finds nothing in an absent record (or is the
usual one) all three paths are compiled, a single name being read as by a walk along it, and the function
of the whole is that of the second path on the value of the first one. As soon as that value is absent,
so is the whole. -/
theorem paths_compose {context : Context}
    (hnull : ∀ access, context.accessor = some access → access.KeepsNull) (p q : Text) :
    (∀ (c : Catalog) (id : EntityId), c.property? id (p ++ "." ++ q) =
      match c.property? id p with
      | some ⟨_, .navigation target _⟩ => c.property? target q
      | _ => none) ∧
    ∀ (type type' type'' : Option TypeRef) (mark mark' mark'' : Mark),
      ∃ whole first second : Expr.Reader,
        (Expr.path (.text (p ++ "." ++ q)) type mark).compile context = .ok whole ∧
        (Expr.path (.text p) type' mark').compile context = .ok first ∧
        (Expr.path (.text q) type'' mark'').compile context = .ok second ∧
        ∀ record,
          whole record = (do second (← first record)) ∧
          (first record = .ok .null → whole record = .ok .null) ∧
          first .null = .ok .null ∧
          first record =
            .ok (Record.walk (context.accessor.getD Record.get) record (Text.segments p)) := by
  let access := context.accessor.getD Record.get
  have haccess : access.KeepsNull := by
    rcases h : context.accessor with - | given
    · simpa [access, h] using Record.keepsNull_get
    · simpa [access, h] using hnull given h
  refine ⟨fun c id => ?_, fun _ _ _ _ _ _ => ⟨_, _, _, rfl, rfl, rfl, fun record => ?_⟩⟩
  · rw [c.property?_dot]
    rcases c.property? id p with - | ⟨name, - | ⟨target, isScalar⟩⟩ <;> rfl
  · have hwhole := Expr.readPath_dot haccess p q record
    refine ⟨congrArg Except.ok hwhole, fun h => ?_, ?_, ?_⟩
    · have hfirst : Expr.readPath access p record = .null := Except.ok.inj h
      rw [hfirst, Expr.readPath_eq_walk haccess q, Record.walk_null] at hwhole
      exact congrArg Except.ok hwhole
    · have habsent := Expr.readPath_eq_walk haccess p .null
      rw [Record.walk_null] at habsent
      exact congrArg Except.ok habsent
    · exact congrArg Except.ok (Expr.readPath_eq_walk haccess p record)

/-- Orders and customers lead to each other, and fields are read in capital letters. -/
theorem paths_compose_of_cycle :
    let c : Catalog := [⟨.text "Order", [⟨"customer", .navigation 1 true⟩], false, none, .same⟩,
      ⟨.text "Customer", [⟨"order", .navigation 0 true⟩, ⟨"name", .data .string⟩], false, none, .same⟩]
    let context : Context := { accessor := some Record.getUpper }
    let record : Value := .map [(.text "CUSTOMER", .map [(.text "NAME", .text "Ann")])]
    c.property? 0 ("customer.order" ++ "." ++ "customer.name" : Text) = some ⟨"name", .data .string⟩ ∧
      (∀ access, context.accessor = some access → access.KeepsNull) ∧
      ∃ f, (Expr.path (.text ("customer" ++ "." ++ "name" : Text)) none {}).compile context = .ok f ∧
        f record = .ok (.text "Ann") ∧ f (.map []) = .ok .null := by
  intro c context record
  have hnull : ∀ access, context.accessor = some access → access.KeepsNull := by
    rintro _ ⟨⟩
    exact Record.keepsNull_getUpper
  have hcycle := (paths_compose hnull "customer.order" "customer.name").1 c 0
  obtain ⟨f, customer, name, hf, hcustomer, hname, hruns⟩ :=
    (paths_compose hnull "customer" "name").2 none none none {} {} {}
  cases hcustomer
  cases hname
  refine ⟨hcycle.trans (by decide), hnull, f, hf, ?_, ?_⟩
  · rw [(hruns record).1]
    rfl
  · exact (hruns (.map [])).2.1 rfl

end RecordFilter
