import RecordFilter.Proofs.Filter.Building
import RecordFilter.Proofs.Predicate.Using

/-!
# Validating a predicate again

A node that bears the mark of a schema is skipped when it is validated against this schema again. For
a predicate in which no node occurs twice this is a mere shortcut. After any successful validations
the notes on its nodes are those that the last one would have left on a fresh copy of the predicate,
and those that the same validations leave when no node is ever skipped
(`Predicate.validate_transparent`).

The invariant is that of the whole tree: either nothing is known about any node, or the notes on all
nodes are those of one check against one schema, with the schema of the elements below a quantifier
(`Predicate.IsKept`). What one check leaves is a function of the resolved condition alone
(`Resolved.notes`), so it does not matter what was there before.
-/

namespace RecordFilter

/-! ### What a check leaves -/

mutual

/-- The notes that a check against a schema leaves on the nodes of a resolved condition, in the order
of their labels. -/
def Resolved.notes (schema : Option EntityId) : Resolved → List Note
  | .passthrough _ => [Note.markedFor schema {}]
  | .unary _ operand => Note.markedFor schema {} :: Resolved.notes schema operand
  | .logical _ children => Note.markedFor schema {} :: Resolved.notesAll schema children
  | .comparison _ left right => [Note.markedFor schema (Note.withOperands left right {})]
  | .quantified _ collection body =>
    Note.markedFor schema (Note.withCollection collection {}) ::
      Resolved.notes collection.entity? body

/-- The notes that a check against a schema leaves on the nodes of resolved conditions. -/
def Resolved.notesAll (schema : Option EntityId) : List Resolved → List Note
  | [] => []
  | t :: ts => Resolved.notes schema t ++ Resolved.notesAll schema ts

end

namespace Predicate

section

variable (c : Catalog) (schema : Option EntityId) (notes : Notes)

/-- The notes on the nodes of the predicate are those that one check against the schema leaves. -/
def IsValidated (p : Predicate) : Prop :=
  ∃ t, p.condition.resolve c schema = .ok t ∧ p.labels.map notes.note = t.notes schema

/-- The same of a predicate that must be there. -/
def IsValidatedOption (p : Option Predicate) : Prop :=
  ∃ t, (conditionOf p).resolve c schema = .ok t ∧ (labelsOf p).map notes.note = t.notes schema

/-- The same of several predicates. -/
def IsValidatedAll (ps : List (Option Predicate)) : Prop :=
  ∃ ts, Condition.resolveAll c schema (conditions ps) = .ok ts ∧
    (labelsAll ps).map notes.note = Resolved.notesAll schema ts

end

/-- Nothing is known about the nodes with these labels. -/
def IsUnknown (ids : List Label) (notes : Notes) : Prop :=
  ∀ id ∈ ids, notes.note id = {}

/-- The predicate was never validated, or was validated as a whole against some schema. -/
def IsKept (c : Catalog) (notes : Notes) (p : Predicate) : Prop :=
  IsUnknown p.labels notes ∨ ∃ schema, p.IsValidated c schema notes

/-- The same of a predicate that must be there. -/
def IsKeptOption (c : Catalog) (notes : Notes) (p : Option Predicate) : Prop :=
  IsUnknown (labelsOf p) notes ∨ ∃ schema, IsValidatedOption c schema notes p

/-- The same of several predicates. -/
def IsKeptAll (c : Catalog) (notes : Notes) (ps : List (Option Predicate)) : Prop :=
  IsUnknown (labelsAll ps) notes ∨ ∃ schema, IsValidatedAll c schema notes ps

variable {c : Catalog} {notes notes' : Notes} {schema : Option EntityId}

/-! ### One note for each label -/

mutual

theorem length_notes : ∀ (p : Predicate) {schema : Option EntityId} {t : Resolved},
    p.condition.resolve c schema = .ok t → (t.notes schema).length = p.labels.length
  | .passthrough id text, schema, t, h => by
    cases h
    rfl
  | .unary id op operand, schema, t, h => by
    obtain ⟨u, hu, rfl⟩ := Condition.resolve_unary_eq_ok_iff.mp h
    exact congrArg (· + 1) (length_notesOption operand hu)
  | .logical id op children, schema, t, h => by
    obtain ⟨us, hus, rfl⟩ := Condition.resolve_logical_eq_ok_iff.mp h
    exact congrArg (· + 1) (length_notesAll children hus)
  | .comparison id op left right, schema, t, h => by
    obtain ⟨l, r, -, rfl⟩ := Condition.resolve_comparison_eq_ok_iff.mp h
    rfl
  | .quantified id op collection body, schema, t, h => by
    obtain ⟨e, u, -, hu, rfl⟩ := Condition.resolve_quantified_eq_ok_iff.mp h
    exact congrArg (· + 1) (length_notesOption body hu)
  | .bare _, schema, t, h => by cases h

theorem length_notesOption : ∀ (p : Option Predicate) {schema : Option EntityId} {t : Resolved},
    (conditionOf p).resolve c schema = .ok t → (t.notes schema).length = (labelsOf p).length
  | none, _, _, h => by cases h
  | some p, _, _, h => length_notes p h

theorem length_notesAll : ∀ (ps : List (Option Predicate)) {schema : Option EntityId}
    {ts : List Resolved}, Condition.resolveAll c schema (conditions ps) = .ok ts →
      (Resolved.notesAll schema ts).length = (labelsAll ps).length
  | [], _, _, h => by
    cases h
    rfl
  | p :: ps, schema, ts, h => by
    obtain ⟨u, us, hu, hus, rfl⟩ := Condition.resolveAll_cons_eq_ok_iff.mp h
    rw [Resolved.notesAll, labelsAll, List.length_append, List.length_append,
      length_notesOption p hu, length_notesAll ps hus]

end

/-! ### Notes on parts -/

theorem isValidatedAll_cons_iff {p : Option Predicate} {ps : List (Option Predicate)} :
    IsValidatedAll c schema notes (p :: ps) ↔
      IsValidatedOption c schema notes p ∧ IsValidatedAll c schema notes ps := by
  constructor
  · rintro ⟨ts, hts, hnotes⟩
    obtain ⟨u, us, hu, hus, rfl⟩ := Condition.resolveAll_cons_eq_ok_iff.mp hts
    rw [labelsAll, List.map_append, Resolved.notesAll] at hnotes
    have hlength : ((labelsOf p).map notes.note).length = (u.notes schema).length := by
      rw [List.length_map, length_notesOption p hu]
    obtain ⟨hfirst, hrest⟩ := List.append_inj hnotes hlength
    exact ⟨⟨u, hu, hfirst⟩, us, hus, hrest⟩
  · rintro ⟨⟨u, hu, hfirst⟩, us, hus, hrest⟩
    refine ⟨u :: us, Condition.resolveAll_cons_eq_ok_iff.mpr ⟨u, us, hu, hus, rfl⟩, ?_⟩
    rw [labelsAll, List.map_append, hfirst, hrest, Resolved.notesAll]

theorem IsValidatedOption.congr {p : Option Predicate} (h : IsValidatedOption c schema notes p)
    (hsame : ∀ id ∈ labelsOf p, notes'.note id = notes.note id) :
    IsValidatedOption c schema notes' p := by
  obtain ⟨t, ht, hnotes⟩ := h
  exact ⟨t, ht, (List.map_congr_left hsame).trans hnotes⟩

theorem IsValidatedAll.congr {ps : List (Option Predicate)} (h : IsValidatedAll c schema notes ps)
    (hsame : ∀ id ∈ labelsAll ps, notes'.note id = notes.note id) :
    IsValidatedAll c schema notes' ps := by
  obtain ⟨ts, hts, hnotes⟩ := h
  exact ⟨ts, hts, (List.map_congr_left hsame).trans hnotes⟩

section

variable {id : Label} {op : Operator}

theorem isValidated_passthrough_iff {text : Value} :
    IsValidated c schema notes (.passthrough id text) ↔
      notes.note id = Note.markedFor schema {} := by
  constructor
  · rintro ⟨t, ht, hnotes⟩
    cases ht
    exact (List.cons.inj hnotes).1
  · intro hid
    exact ⟨_, rfl, congrArg (· :: []) hid⟩

theorem isValidated_unary_iff {operand : Option Predicate} :
    IsValidated c schema notes (.unary id op operand) ↔
      notes.note id = Note.markedFor schema {} ∧ IsValidatedOption c schema notes operand := by
  constructor
  · rintro ⟨t, ht, hnotes⟩
    obtain ⟨u, hu, rfl⟩ := Condition.resolve_unary_eq_ok_iff.mp ht
    obtain ⟨hid, hrest⟩ := List.cons.inj hnotes
    exact ⟨hid, u, hu, hrest⟩
  · rintro ⟨hid, u, hu, hrest⟩
    refine ⟨.unary op u, Condition.resolve_unary_eq_ok_iff.mpr ⟨u, hu, rfl⟩, ?_⟩
    rw [labels, List.map_cons, hid, hrest]
    rfl

theorem isValidated_logical_iff {children : List (Option Predicate)} :
    IsValidated c schema notes (.logical id op children) ↔
      notes.note id = Note.markedFor schema {} ∧ IsValidatedAll c schema notes children := by
  constructor
  · rintro ⟨t, ht, hnotes⟩
    obtain ⟨us, hus, rfl⟩ := Condition.resolve_logical_eq_ok_iff.mp ht
    obtain ⟨hid, hrest⟩ := List.cons.inj hnotes
    exact ⟨hid, us, hus, hrest⟩
  · rintro ⟨hid, us, hus, hrest⟩
    refine ⟨.logical op us, Condition.resolve_logical_eq_ok_iff.mpr ⟨us, hus, rfl⟩, ?_⟩
    rw [labels, List.map_cons, hid, hrest]
    rfl

theorem isValidated_comparison_iff {left right : Value} :
    IsValidated c schema notes (.comparison id op left right) ↔
      ∃ l r, operandsOf c schema left right = .ok (l, r) ∧
        notes.note id = Note.markedFor schema (Note.withOperands l r {}) := by
  constructor
  · rintro ⟨t, ht, hnotes⟩
    obtain ⟨l, r, hlr, rfl⟩ := Condition.resolve_comparison_eq_ok_iff.mp ht
    exact ⟨l, r, hlr, (List.cons.inj hnotes).1⟩
  · rintro ⟨l, r, hlr, hid⟩
    exact ⟨.comparison op l r, Condition.resolve_comparison_eq_ok_iff.mpr ⟨l, r, hlr, rfl⟩,
      congrArg (· :: []) hid⟩

theorem isValidated_quantified_iff {collection : Value} {body : Option Predicate} :
    IsValidated c schema notes (.quantified id op collection body) ↔
      ∃ e, collectionOf c schema op collection = .ok e ∧
        notes.note id = Note.markedFor schema (Note.withCollection e {}) ∧
          IsValidatedOption c e.entity? notes body := by
  constructor
  · rintro ⟨t, ht, hnotes⟩
    obtain ⟨e, u, he, hu, rfl⟩ := Condition.resolve_quantified_eq_ok_iff.mp ht
    obtain ⟨hid, hrest⟩ := List.cons.inj hnotes
    exact ⟨e, he, hid, u, hu, hrest⟩
  · rintro ⟨e, he, hid, u, hu, hrest⟩
    refine ⟨.quantified op e u, Condition.resolve_quantified_eq_ok_iff.mpr ⟨e, u, he, hu, rfl⟩, ?_⟩
    rw [labels, List.map_cons, hid, hrest]
    rfl

end

/-- The note on the topmost node bears the mark of the schema that the predicate was validated
against. -/
theorem IsValidated.checked {p : Predicate} {id : Label} (h : p.IsValidated c schema notes)
    (hid : p.label = some id) : (notes.note id).checked = schema := by
  cases p
  case passthrough =>
    cases hid
    rw [isValidated_passthrough_iff.mp h]
    rfl
  case unary =>
    cases hid
    rw [(isValidated_unary_iff.mp h).1]
    rfl
  case logical =>
    cases hid
    rw [(isValidated_logical_iff.mp h).1]
    rfl
  case comparison =>
    cases hid
    obtain ⟨l, r, -, hnote⟩ := isValidated_comparison_iff.mp h
    rw [hnote]
    rfl
  case quantified =>
    cases hid
    obtain ⟨e, -, hnote, -⟩ := isValidated_quantified_iff.mp h
    rw [hnote]
    rfl
  case bare =>
    obtain ⟨t, ht, -⟩ := h
    cases ht

/-- **The shortcut is sound.** A predicate whose topmost node may be skipped was validated as a whole
against the schema. -/
theorem IsKept.of_skips {p : Predicate} {id : Label} (h : p.IsKept c notes) (hid : p.label = some id)
    (hmem : id ∈ p.labels) (hskip : Check.Skips schema id notes) :
    p.IsValidated c schema notes := by
  obtain ⟨hsome, hchecked⟩ := hskip
  rcases h with hunknown | ⟨s, hvalid⟩
  · rw [hunknown id hmem] at hchecked
    subst hchecked
    cases hsome
  · have hs : s = schema := (hvalid.checked hid).symm.trans hchecked
    exact hs ▸ hvalid

/-! ### Parts of what was kept -/

theorem IsUnknown.mono {ids others : List Label} (h : IsUnknown ids notes) (hsub : others ⊆ ids) :
    IsUnknown others notes :=
  fun id hid => h id (hsub hid)

theorem IsUnknown.congr {ids : List Label} (h : IsUnknown ids notes)
    (hsame : ∀ id ∈ ids, notes'.note id = notes.note id) : IsUnknown ids notes' :=
  fun id hid => (hsame id hid).trans (h id hid)

theorem IsKeptOption.congr {p : Option Predicate} (h : IsKeptOption c notes p)
    (hsame : ∀ id ∈ labelsOf p, notes'.note id = notes.note id) : IsKeptOption c notes' p :=
  h.imp (fun hunknown => hunknown.congr hsame) fun ⟨s, hvalid⟩ => ⟨s, hvalid.congr hsame⟩

theorem IsKeptAll.congr {ps : List (Option Predicate)} (h : IsKeptAll c notes ps)
    (hsame : ∀ id ∈ labelsAll ps, notes'.note id = notes.note id) : IsKeptAll c notes' ps :=
  h.imp (fun hunknown => hunknown.congr hsame) fun ⟨s, hvalid⟩ => ⟨s, hvalid.congr hsame⟩

section

variable {id : Label} {op : Operator}

theorem IsKept.passthrough {text : Value} (h : IsKept c notes (.passthrough id text))
    (schema : Option EntityId) :
    Note.markedFor schema (notes.note id) = Note.markedFor schema {} := by
  rcases h with hunknown | ⟨s, hvalid⟩
  · rw [hunknown id List.mem_cons_self]
  · rw [isValidated_passthrough_iff.mp hvalid]
    rfl

theorem IsKept.unary {operand : Option Predicate} (h : IsKept c notes (.unary id op operand))
    (schema : Option EntityId) :
    Note.markedFor schema (notes.note id) = Note.markedFor schema {} ∧
      IsKeptOption c notes operand := by
  rcases h with hunknown | ⟨s, hvalid⟩
  · refine ⟨?_, .inl (hunknown.mono (List.subset_cons_self _ _))⟩
    rw [hunknown id List.mem_cons_self]
  · obtain ⟨hnote, hinner⟩ := isValidated_unary_iff.mp hvalid
    refine ⟨?_, .inr ⟨s, hinner⟩⟩
    rw [hnote]
    rfl

theorem IsKept.logical {children : List (Option Predicate)}
    (h : IsKept c notes (.logical id op children)) (schema : Option EntityId) :
    Note.markedFor schema (notes.note id) = Note.markedFor schema {} ∧
      IsKeptAll c notes children := by
  rcases h with hunknown | ⟨s, hvalid⟩
  · refine ⟨?_, .inl (hunknown.mono (List.subset_cons_self _ _))⟩
    rw [hunknown id List.mem_cons_self]
  · obtain ⟨hnote, hinner⟩ := isValidated_logical_iff.mp hvalid
    refine ⟨?_, .inr ⟨s, hinner⟩⟩
    rw [hnote]
    rfl

theorem IsKept.comparison {left right : Value} (h : IsKept c notes (.comparison id op left right))
    (schema : Option EntityId) (l r : Expr) :
    Note.markedFor schema ((notes.note id).withOperands l r) =
      Note.markedFor schema (Note.withOperands l r {}) := by
  rcases h with hunknown | ⟨s, hvalid⟩
  · rw [hunknown id List.mem_cons_self]
  · obtain ⟨l', r', -, hnote⟩ := isValidated_comparison_iff.mp hvalid
    rw [hnote]
    rfl

theorem IsKept.quantified {collection : Value} {body : Option Predicate}
    (h : IsKept c notes (.quantified id op collection body)) (schema : Option EntityId) (e : Expr) :
    Note.markedFor schema ((notes.note id).withCollection e) =
        Note.markedFor schema (Note.withCollection e {}) ∧
      IsKeptOption c notes body := by
  rcases h with hunknown | ⟨s, hvalid⟩
  · refine ⟨?_, .inl (hunknown.mono (List.subset_cons_self _ _))⟩
    rw [hunknown id List.mem_cons_self]
  · obtain ⟨e', -, hnote, hinner⟩ := isValidated_quantified_iff.mp hvalid
    refine ⟨?_, .inr ⟨_, hinner⟩⟩
    rw [hnote]
    rfl

theorem IsKeptAll.cons {p : Option Predicate} {ps : List (Option Predicate)}
    (h : IsKeptAll c notes (p :: ps)) : IsKeptOption c notes p ∧ IsKeptAll c notes ps := by
  rcases h with hunknown | ⟨s, hvalid⟩
  · exact ⟨.inl (hunknown.mono (List.subset_append_left _ _)),
      .inl (hunknown.mono (List.subset_append_right _ _))⟩
  · obtain ⟨hp, hps⟩ := isValidatedAll_cons_iff.mp hvalid
    exact ⟨.inr ⟨s, hp⟩, .inr ⟨s, hps⟩⟩

end

/-! ### One check -/

mutual

/-- **What one check leaves.** After a successful check, with skipping or without, the notes on a
predicate that was kept are those that the check of a fresh copy leaves. -/
theorem isValidated_of_checkBy {skipping : Bool} {schema : Option EntityId} {notes notes' : Notes} :
    ∀ p : Predicate, p.labels.Nodup → p.IsKept c notes →
      outcome (checkBy c skipping schema p) notes = (.ok (), notes') → p.IsValidated c schema notes'
  | .passthrough id text, _, hkept, h => by
    obtain ⟨⟨-, hskip⟩, rfl⟩ | ⟨-, middle, hstep, rfl⟩ := Check.gate_ok_iff.mp h
    -- A node is skipped only if its mark is the schema, and then its note is the one to be left.
    · exact hkept.of_skips rfl List.mem_cons_self hskip
    · cases hstep
      rw [isValidated_passthrough_iff, Notes.note_change_self]
      exact hkept.passthrough schema
  | .unary id op operand, hnodup, hkept, h => by
    obtain ⟨hid, hnodup⟩ := List.nodup_cons.mp hnodup
    obtain ⟨⟨-, hskip⟩, rfl⟩ | ⟨-, middle, hoperand, rfl⟩ := Check.gate_ok_iff.mp h
    · exact hkept.of_skips rfl List.mem_cons_self hskip
    · obtain ⟨hnote, hinner⟩ := hkept.unary schema
      have ih := isValidatedOption_of_checkPresentBy operand hnodup hinner hoperand
      have hothers := Notes.frame_others middle (Note.markedFor schema) hid
      have hsame : middle.note id = notes.note id := checkPresentBy_frame operand hoperand id hid
      rw [isValidated_unary_iff, Notes.note_change_self, hsame]
      exact ⟨hnote, ih.congr hothers⟩
  | .logical id op children, hnodup, hkept, h => by
    obtain ⟨hid, hnodup⟩ := List.nodup_cons.mp hnodup
    obtain ⟨⟨-, hskip⟩, rfl⟩ | ⟨-, middle, hchildren, rfl⟩ := Check.gate_ok_iff.mp h
    · exact hkept.of_skips rfl List.mem_cons_self hskip
    · obtain ⟨hnote, hinner⟩ := hkept.logical schema
      have ih := isValidatedAll_of_checkAllBy children hnodup hinner hchildren
      have hothers := Notes.frame_others middle (Note.markedFor schema) hid
      have hsame : middle.note id = notes.note id := checkAllBy_frame children hchildren id hid
      rw [isValidated_logical_iff, Notes.note_change_self, hsame]
      exact ⟨hnote, ih.congr hothers⟩
  | .comparison id op left right, _, hkept, h => by
    obtain ⟨⟨-, hskip⟩, rfl⟩ | ⟨-, l, r, hlr, rfl⟩ := checkBy_comparison_ok_iff.mp h
    · exact hkept.of_skips rfl List.mem_cons_self hskip
    · rw [isValidated_comparison_iff, Notes.note_change_self, Notes.note_change_self]
      exact ⟨l, r, hlr, hkept.comparison schema l r⟩
  | .quantified id op collection body, hnodup, hkept, h => by
    obtain ⟨hid, hnodup⟩ := List.nodup_cons.mp hnodup
    obtain ⟨⟨-, hskip⟩, rfl⟩ | ⟨-, e, middle, he, hbody, rfl⟩ := checkBy_quantified_ok_iff.mp h
    · exact hkept.of_skips rfl List.mem_cons_self hskip
    · obtain ⟨hnote, hinner⟩ := hkept.quantified schema e
      -- the collection is noted before the body is checked
      have hbefore := Notes.frame_others notes (Note.withCollection e) hid
      have ih := isValidatedOption_of_checkPresentBy body hnodup (hinner.congr hbefore) hbody
      have hothers := Notes.frame_others middle (Note.markedFor schema) hid
      have hsame : middle.note id = (notes.note id).withCollection e := by
        rw [checkPresentBy_frame body hbody id hid, Notes.note_change_self]
      rw [isValidated_quantified_iff, Notes.note_change_self, hsame]
      exact ⟨e, he, hnote, ih.congr hothers⟩
  | .bare _, _, _, h => by cases h

theorem isValidatedOption_of_checkPresentBy {skipping : Bool} {schema : Option EntityId}
    {notes notes' : Notes} : ∀ p : Option Predicate, (labelsOf p).Nodup → IsKeptOption c notes p →
      outcome (checkPresentBy c skipping schema p) notes = (.ok (), notes') →
        IsValidatedOption c schema notes' p
  | none, _, _, h => by cases h
  | some p, hnodup, hkept, h => isValidated_of_checkBy p hnodup hkept h

theorem isValidatedAll_of_checkAllBy {skipping : Bool} {schema : Option EntityId}
    {notes notes' : Notes} : ∀ ps : List (Option Predicate), (labelsAll ps).Nodup →
      IsKeptAll c notes ps → outcome (checkAllBy c skipping schema ps) notes = (.ok (), notes') →
        IsValidatedAll c schema notes' ps
  | [], _, _, _ => ⟨[], rfl, rfl⟩
  | p :: ps, hnodup, hkept, h => by
    obtain ⟨hnodupP, hnodupPs, hdisjoint⟩ := List.nodup_append'.mp hnodup
    obtain ⟨middle, hfirst, hrest⟩ := checkAllBy_cons_ok_iff.mp h
    obtain ⟨hkeptP, hkeptPs⟩ := hkept.cons
    -- No node occurs twice, so what is checked first does not touch the notes of the others.
    have hframe : ∀ id ∈ labelsAll ps, middle.note id = notes.note id :=
      fun id hid => checkPresentBy_frame p hfirst id fun hid' => hdisjoint hid' hid
    have hframe' : ∀ id ∈ labelsOf p, notes'.note id = middle.note id :=
      fun id hid => checkAllBy_frame ps hrest id fun hid' => hdisjoint hid hid'
    have hp := isValidatedOption_of_checkPresentBy p hnodupP hkeptP hfirst
    have hps := isValidatedAll_of_checkAllBy ps hnodupPs (hkeptPs.congr hframe) hrest
    exact isValidatedAll_cons_iff.mpr ⟨hp.congr hframe', hps⟩

end

/-! ### Plain notes -/

mutual

theorem isPlain_of_mem_notes : ∀ (p : Predicate) {schema : Option EntityId} {t : Resolved},
    p.IsPlain → p.condition.resolve c schema = .ok t → ∀ note ∈ t.notes schema, note.IsPlain
  | .passthrough id text, schema, t, _, h => by
    cases h
    intro note hnote
    cases List.mem_singleton.mp hnote
    exact (Note.isPlain_default.markedFor schema).plain
  | .unary id op operand, schema, t, hp, h => by
    obtain ⟨u, hu, rfl⟩ := Condition.resolve_unary_eq_ok_iff.mp h
    exact List.forall_mem_cons.mpr ⟨(Note.isPlain_default.markedFor schema).plain,
      isPlain_of_mem_notesOption operand hp.2 hu⟩
  | .logical id op children, schema, t, hp, h => by
    obtain ⟨us, hus, rfl⟩ := Condition.resolve_logical_eq_ok_iff.mp h
    exact List.forall_mem_cons.mpr ⟨(Note.isPlain_default.markedFor schema).plain,
      isPlain_of_mem_notesAll children hp.2 hus⟩
  | .comparison id op left right, schema, t, hp, h => by
    obtain ⟨l, r, hlr, rfl⟩ := Condition.resolve_comparison_eq_ok_iff.mp h
    obtain ⟨hl, hr⟩ := operandsOf_isPlain hp.2.1 hp.2.2 hlr
    intro note hnote
    cases List.mem_singleton.mp hnote
    exact ((Note.isPlain_default.withOperands hl hr).markedFor schema).plain
  | .quantified id op collection body, schema, t, hp, h => by
    obtain ⟨e, u, he, hu, rfl⟩ := Condition.resolve_quantified_eq_ok_iff.mp h
    have hcollection := collectionOf_isPlain hp.2.1 he
    exact List.forall_mem_cons.mpr
      ⟨((Note.isPlain_default.withCollection hcollection).markedFor schema).plain,
        isPlain_of_mem_notesOption body hp.2.2 hu⟩
  | .bare _, _, _, hp, _ => hp.elim

theorem isPlain_of_mem_notesOption : ∀ (p : Option Predicate) {schema : Option EntityId}
    {t : Resolved}, PlainOption p → (conditionOf p).resolve c schema = .ok t →
      ∀ note ∈ t.notes schema, note.IsPlain
  | none, _, _, _, h => by cases h
  | some p, _, _, hp, h => isPlain_of_mem_notes p hp h

theorem isPlain_of_mem_notesAll : ∀ (ps : List (Option Predicate)) {schema : Option EntityId}
    {ts : List Resolved}, PlainAll ps → Condition.resolveAll c schema (conditions ps) = .ok ts →
      ∀ note ∈ Resolved.notesAll schema ts, note.IsPlain
  | [], _, _, _, h => by
    cases h
    intro note hnote
    cases hnote
  | p :: ps, schema, ts, hp, h => by
    obtain ⟨u, us, hu, hus, rfl⟩ := Condition.resolveAll_cons_eq_ok_iff.mp h
    intro note hnote
    rcases List.mem_append.mp hnote with hnote | hnote
    · exact isPlain_of_mem_notesOption p hp.1 hu note hnote
    · exact isPlain_of_mem_notesAll ps hp.2 hus note hnote

end

/-- Notes on a plain predicate that was validated stay as they are when they are brought up to date. -/
theorem IsValidated.refreshed {p : Predicate} (hp : p.IsPlain) (h : p.IsValidated c schema notes) :
    p.IsValidated c schema (notes.refreshed c) := by
  obtain ⟨t, ht, hnotes⟩ := h
  refine ⟨t, ht, ?_⟩
  rw [← hnotes]
  refine List.map_congr_left fun id hid => Notes.note_refreshed c notes ?_
  refine isPlain_of_mem_notes p hp ht _ ?_
  rw [← hnotes]
  exact List.mem_map_of_mem hid

/-! ### One validation -/

variable (c) in
/-- Validates a predicate with or without skipping nodes. -/
def validateBy (skipping : Bool) (p : Predicate) (schema : Option EntityId) : Check Unit :=
  Check.settled c (checkBy c skipping schema p)

section

variable {skipping : Bool} {p : Predicate}

theorem validateBy_ok_iff : outcome (validateBy c skipping p schema) notes = (.ok (), notes') ↔
    ∃ middle, outcome (checkBy c skipping schema p) notes = (.ok (), middle) ∧
      notes' = middle.refreshed c := by
  rw [validateBy, Check.outcome_settled]
  rcases outcome (checkBy c skipping schema p) notes with ⟨r, middle⟩
  constructor
  · rintro ⟨⟩
    exact ⟨middle, rfl, rfl⟩
  · rintro ⟨_, ⟨⟩, rfl⟩
    rfl

/-- Validating a plain predicate means to skip nodes. -/
theorem validate_ok_iff_validateBy (hp : p.IsPlain) :
    outcome ((Node.predicate p).validate c schema) notes = (.ok (), notes') ↔
      outcome (validateBy c true p schema) notes = (.ok (), notes') := by
  rw [Node.validate_ok_iff, validateBy_ok_iff]
  exact exists_congr fun middle => and_congr_left fun _ => check_iff_checkBy p hp

theorem isValidated_of_validateBy (hp : p.IsPlain) (hnodup : p.labels.Nodup)
    (hkept : p.IsKept c notes)
    (h : outcome (validateBy c skipping p schema) notes = (.ok (), notes')) :
    p.IsValidated c schema notes' := by
  obtain ⟨middle, hcheck, rfl⟩ := validateBy_ok_iff.mp h
  exact (isValidated_of_checkBy p hnodup hkept hcheck).refreshed hp

theorem validateBy_ok_of_resolve {t : Resolved} (skipping : Bool) (notes : Notes)
    (h : p.condition.resolve c schema = .ok t) :
    ∃ notes', outcome (validateBy c skipping p schema) notes = (.ok (), notes') := by
  obtain ⟨middle, hcheck⟩ := checkBy_ok_of_resolve p notes h
  exact ⟨_, validateBy_ok_iff.mpr ⟨middle, hcheck, rfl⟩⟩

/-! ### Many validations -/

theorem forM_cons_ok_iff {α : Type} {f : α → Check Unit} {a : α} {as : List α} :
    outcome ((a :: as).forM f) notes = (.ok (), notes') ↔
      ∃ middle, outcome (f a) notes = (.ok (), middle) ∧
        outcome (as.forM f) middle = (.ok (), notes') :=
  outcome_seq_eq_ok_iff

theorem forM_concat_ok_iff {α : Type} {f : α → Check Unit} {as : List α} {last : α} :
    outcome ((as ++ [last]).forM f) notes = (.ok (), notes') ↔
      ∃ middle, outcome (as.forM f) notes = (.ok (), middle) ∧
        outcome (f last) middle = (.ok (), notes') := by
  have happend : (as ++ [last]).forM f = (do as.forM f; [last].forM f) := List.forM_append
  rw [happend, outcome_seq_eq_ok_iff]
  refine exists_congr fun middle => and_congr_right fun _ => ?_
  rw [forM_cons_ok_iff]
  constructor
  · rintro ⟨final, hlast, hnil⟩
    cases hnil
    exact hlast
  · intro hlast
    exact ⟨notes', hlast, rfl⟩

/-- Validating a plain predicate many times means to skip nodes each time. -/
theorem forM_validate_ok_iff (hp : p.IsPlain) (schemas : List (Option EntityId)) :
    outcome (schemas.forM fun schema => (Node.predicate p).validate c schema) notes =
        (.ok (), notes') ↔
      outcome (schemas.forM (validateBy c true p)) notes = (.ok (), notes') := by
  induction schemas generalizing notes with
  | nil =>
    show outcome (pure () : Check Unit) notes = _ ↔ outcome (pure () : Check Unit) notes = _
    exact Iff.rfl
  | cons schema schemas ih =>
    rw [forM_cons_ok_iff, forM_cons_ok_iff]
    exact exists_congr fun middle => and_congr (validate_ok_iff_validateBy hp) ih

/-- **Validations keep the invariant**, and they succeed only against schemas under which the
predicate can be resolved. -/
theorem isKept_of_validations (hp : p.IsPlain) (hnodup : p.labels.Nodup) (hkept : p.IsKept c notes)
    (schemas : List (Option EntityId))
    (h : outcome (schemas.forM (validateBy c skipping p)) notes = (.ok (), notes')) :
    p.IsKept c notes' ∧ ∀ schema ∈ schemas, ∃ t, p.condition.resolve c schema = .ok t := by
  induction schemas generalizing notes with
  | nil =>
    cases h
    exact ⟨hkept, by simp⟩
  | cons schema schemas ih =>
    obtain ⟨middle, hfirst, hrest⟩ := forM_cons_ok_iff.mp h
    have hvalid := isValidated_of_validateBy hp hnodup hkept hfirst
    obtain ⟨hkept', hresolve⟩ := ih (.inr ⟨schema, hvalid⟩) hrest
    obtain ⟨t, ht, -⟩ := hvalid
    exact ⟨hkept', List.forall_mem_cons.mpr ⟨⟨t, ht⟩, hresolve⟩⟩

/-- Validations against schemas under which the predicate can be resolved succeed. -/
theorem validations_ok_of_resolve (skipping : Bool) (notes : Notes) (schemas : List (Option EntityId))
    (h : ∀ schema ∈ schemas, ∃ t, p.condition.resolve c schema = .ok t) :
    ∃ notes', outcome (schemas.forM (validateBy c skipping p)) notes = (.ok (), notes') := by
  induction schemas generalizing notes with
  | nil => exact ⟨notes, rfl⟩
  | cons schema schemas ih =>
    obtain ⟨⟨t, ht⟩, hrest⟩ := List.forall_mem_cons.mp h
    obtain ⟨middle, hfirst⟩ := validateBy_ok_of_resolve skipping notes ht
    obtain ⟨notes', hnotes'⟩ := ih middle hrest
    exact ⟨notes', forM_cons_ok_iff.mpr ⟨middle, hfirst, hnotes'⟩⟩

/-- After several validations the notes are those of the last one. -/
theorem isValidated_of_validations (hp : p.IsPlain) (hnodup : p.labels.Nodup)
    (hkept : p.IsKept c notes) (schemas : List (Option EntityId)) (last : Option EntityId)
    (h : outcome ((schemas ++ [last]).forM (validateBy c skipping p)) notes = (.ok (), notes')) :
    p.IsValidated c last notes' := by
  -- Whatever the schemas before it were, they keep the invariant that the last validation needs.
  obtain ⟨middle, hmiddle, hlast⟩ := forM_concat_ok_iff.mp h
  obtain ⟨hkept', -⟩ := isKept_of_validations hp hnodup hkept schemas hmiddle
  exact isValidated_of_validateBy hp hnodup hkept' hlast

/-- Two predicates of one condition that were validated against one schema bear the same notes. -/
theorem IsValidated.map_note_eq {q : Predicate} (hp : p.IsValidated c schema notes)
    (hq : q.IsValidated c schema notes') (hsame : q.condition = p.condition) :
    q.labels.map notes'.note = p.labels.map notes.note := by
  obtain ⟨t, ht, hnotes⟩ := hp
  obtain ⟨u, hu, hnotes'⟩ := hq
  have htu : u = t := by
    rw [hsame, ht] at hu
    exact (Except.ok.inj hu).symm
  rw [hnotes', hnotes, htu]

end

/-! ### Validating is transparent -/

theorem IsUnknown.of_blank {p : Predicate} {b b' : Builder} {V : Value → Prop}
    (hread : Filter.IsRead V b b' p) (h : notes.Blank b.next) : IsUnknown p.labels notes :=
  fun id hid => h id (hread.range id hid).1

variable (c) in
/-- **Validating is transparent.** A predicate is read from a value without nodes and validated
against several schemas in turn, each time with success. A copy that is read from the same value and
validated against the last schema alone is valid too, and the notes on its nodes are the same, at
every depth. So they are when the validations of the predicate are made without skipping any node. -/
theorem validate_transparent {f : Value} {b b₁ b' b₁' : Builder} {p q : Predicate}
    (schemas : List (Option EntityId)) (last : Option EntityId) (hplain : f.IsPlain)
    (hread : outcome (Filter.readArguments [f]) b = (.ok (some p), b₁)) (hblank : notes.Blank b.next)
    (hvalidate : outcome ((schemas ++ [last]).forM fun schema =>
      (Node.predicate p).validate c schema) notes = (.ok (), notes'))
    {fresh : Notes} (hcopy : outcome (Filter.readArguments [f]) b' = (.ok (some q), b₁'))
    (hfresh : fresh.Blank b'.next) :
    q.condition = p.condition ∧
      (∃ once, outcome ((Node.predicate q).validate c last) fresh = (.ok (), once) ∧
        q.labels.map once.note = p.labels.map notes'.note) ∧
      ∃ again, outcome ((schemas ++ [last]).forM (validateBy c false p)) notes = (.ok (), again) ∧
        p.labels.map again.note = p.labels.map notes'.note := by
  obtain ⟨hshape, hp⟩ := Filter.read_ok Filter.hereditary_isPlain (fun _ h => h) hplain hread
  obtain ⟨hshape', hq⟩ := Filter.read_ok Filter.hereditary_isPlain (fun _ h => h) hplain hcopy
  have hsame : q.condition = p.condition := Except.ok.inj (hshape'.symm.trans hshape)
  have hkept : p.IsKept c notes := .inl (IsUnknown.of_blank hp hblank)
  have hkept' : q.IsKept c fresh := .inl (IsUnknown.of_blank hq hfresh)
  rw [forM_validate_ok_iff hp.isPlain] at hvalidate
  have hvalid := isValidated_of_validations hp.isPlain hp.nodup hkept schemas last hvalidate
  obtain ⟨-, hresolve⟩ := isKept_of_validations hp.isPlain hp.nodup hkept _ hvalidate
  refine ⟨hsame, ?_, ?_⟩
  · obtain ⟨t, ht⟩ := hresolve last (by simp)
    obtain ⟨once, honce⟩ := validateBy_ok_of_resolve true fresh (hsame ▸ ht)
    have hvalid' := isValidated_of_validateBy hq.isPlain hq.nodup hkept' honce
    exact ⟨once, (validate_ok_iff_validateBy hq.isPlain).mpr honce, hvalid.map_note_eq hvalid' hsame⟩
  · obtain ⟨again, hagain⟩ := validations_ok_of_resolve false notes _ hresolve
    have hvalid' := isValidated_of_validations hp.isPlain hp.nodup hkept schemas last hagain
    exact ⟨again, hagain, hvalid.map_note_eq hvalid' rfl⟩

theorem validate_transparent_of_quantifier :
    let c : Catalog := [⟨.text "Order", [⟨"items", .navigation 2 false⟩], false, none, .same⟩,
      ⟨.text "Cart", [⟨"items", .navigation 2 false⟩], false, none, .same⟩,
      ⟨.text "Item", [⟨"qty", .data .int32⟩], false, none, .same⟩]
    let f : Value := .map [(.text "items", .map [(.text "any", .map [(.text "qty",
      .map [(.text "gt", .int 5)])])])]
    let p (id : Label) : Predicate := .quantified (id + 1) ⟨.text "any", ["some"], false⟩
      (.text "items")
      (some (.comparison id ⟨.text "gt", [">", "greaterthan"], false⟩ (.text "qty") (.int 5)))
    outcome (Filter.readArguments [f]) {} = (.ok (some (p 0)), ⟨2, []⟩) ∧
      outcome (Filter.readArguments [f]) ⟨2, []⟩ = (.ok (some (p 2)), ⟨4, []⟩) ∧
      ∃ notes once : Notes,
        outcome (([some 0, some 1] ++ [some 0]).forM fun schema =>
          (Node.predicate (p 0)).validate c schema) [] = (.ok (), notes) ∧
        outcome ((Node.predicate (p 2)).validate c (some 0)) [] = (.ok (), once) ∧
        [3, 2].map once.note = [1, 0].map notes.note := by
  intro c f p
  have hread : outcome (Filter.readArguments [f]) {} = (.ok (some (p 0)), ⟨2, []⟩) := rfl
  have hcopy : outcome (Filter.readArguments [f]) ⟨2, []⟩ = (.ok (some (p 2)), ⟨4, []⟩) := rfl
  have hplain : f.IsPlain := by
    simp [f, Value.IsPlain, Value.PlainEntries, Value.isKey]
  have hp : (p 0).IsPlain := by
    simp [p, IsPlain, PlainOption, Operator.IsPlain]
  have hblank : ∀ n, Notes.Blank [] n := fun _ _ _ => rfl
  -- both schemas lead to the same elements
  let t (schema : EntityId) : Resolved :=
    .quantified ⟨.text "any", ["some"], false⟩
      (.path (.text "items") (some (.entity 2)) (Mark.after (some schema) {}))
      (.comparison ⟨.text "gt", [">", "greaterthan"], false⟩
        (.path (.text "qty") (some (.data .int32)) (Mark.after (some 2) {}))
        (.literal (.int 5) (some (.data .int32)) false {}))
  have hfirst : (p 0).condition.resolve c (some 0) = .ok (t 0) := by rfl
  have hsecond : (p 0).condition.resolve c (some 1) = .ok (t 1) := by rfl
  have hresolve : ∀ schema ∈ [some 0, some 1] ++ [some 0],
      ∃ t, (p 0).condition.resolve c schema = .ok t := by
    intro schema hschema
    simp only [List.cons_append, List.nil_append, List.mem_cons, List.not_mem_nil, or_false]
      at hschema
    rcases hschema with rfl | rfl | rfl
    · exact ⟨t 0, hfirst⟩
    · exact ⟨t 1, hsecond⟩
    · exact ⟨t 0, hfirst⟩
  obtain ⟨notes, hnotes⟩ := validations_ok_of_resolve true [] ([some 0, some 1] ++ [some 0]) hresolve
  have hvalidate : outcome (([some 0, some 1] ++ [some 0]).forM fun schema =>
      (Node.predicate (p 0)).validate c schema) [] = (.ok (), notes) :=
    (forM_validate_ok_iff hp _).mpr hnotes
  obtain ⟨-, ⟨once, honce, hsame⟩, -⟩ := validate_transparent c [some 0, some 1] (some 0) hplain hread
    (hblank _) hvalidate hcopy (hblank _)
  exact ⟨hread, hcopy, notes, once, hvalidate, honce, hsame⟩

end Predicate

end RecordFilter
