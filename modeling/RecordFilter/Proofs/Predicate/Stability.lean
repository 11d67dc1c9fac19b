import RecordFilter.Proofs.Json.Form
import RecordFilter.Proofs.Predicate.RoundTrip

/-!
# Canonical forms that are written again

Without a schema a predicate that is read from a JSON value is written in a canonical form that is read
and written again. The second form is the first one exactly if no map in the first one joins more than
two conditions (`Predicate.rewritten_eq_iff`). Maps under `and` are merged two at a time, so nested
conjunctions can make a map of three entries; it is read as one conjunction of three conditions, and
these are written one by one in a list (`Predicate.flattened_conjunction`).
-/

namespace RecordFilter

open Json (IsKey IsOperand IsCollection IsOperatorEntry IsEntry IsForm IsReread)

section

variable (c : Catalog)

/-- Where there is no schema the value is read as the path of a text. -/
def Value.IsReadAs (v : Value) (path : Text) : Prop :=
  Operand.read? c {} v = .ok (some (.path (.text path) none (Mark.after none {})))

/-- If the value is a text, it is read as a path, of which the text is read as the same path and is not
spelled like a joining operator or a negation. -/
def Value.IsSteady (v : Value) : Prop :=
  ∀ s, v.asText? = some s →
    ∃ path, v.IsReadAs c path ∧ (Value.text path).IsReadAs c path ∧ (Value.text path).IsUnreserved

end

/-- The value is no list. -/
def Value.IsNoList (v : Value) : Prop :=
  ∀ vs, v ≠ .list vs

section

variable {c : Catalog}

/-! ### Operands -/

/-- A text without quotes, parentheses and marks is steady, unless it is spelled like a joining operator
or a negation when the blanks at its ends are taken away. -/
theorem Value.isSteady_of_isUnmarked {s : Text} (hs : s.IsUnmarked)
    (hfree : (Value.text (Text.trim s)).IsUnreserved) : (Value.text s).IsSteady c := by
  rintro _ ⟨⟩
  refine ⟨Text.trim s, Operand.read?_of_isUnmarked rfl hs, ?_, hfree⟩
  have hagain := Operand.read?_of_isUnmarked (c := c) (k := .text (Text.trim s)) rfl hs.trim
  rw [Text.trim_trim] at hagain
  exact hagain

/-- A map on the right of a comparison spells out an operand. -/
theorem Predicate.isRightForm_of_rightOperand {l r : Expr} {v : Value} (hjson : v.IsJson)
    (hlist : v.IsNoList) (h : rightOperand c none l v = .ok r) : v.IsRightForm where
  isPlain := hjson.isPlain
  not_list := hlist
  isWrapper := by
    intro hmap
    cases v
    case map es =>
      obtain ⟨e, he, -⟩ := map_eq_ok_iff.mp (rightOperand_eq_ok_iff.mp h)
      obtain ⟨value, hvalue, -⟩ := Operand.ofEntries_eq_ok_cases he
      rw [Filter.isWrapper, hvalue]
      rfl
    all_goals cases hmap

/-- Where there is no schema the right operand of a comparison is written in a form that is read as an
operand of the same form. -/
theorem Predicate.exists_rewritten {l r : Expr} {v : Value} (hl : hintOf l = none) (hjson : v.IsJson)
    (hlist : v.IsNoList) (h : rightOperand c none l v = .ok r) :
    ∃ w r', r.canonicalRight c {} = .ok w ∧ w.IsRightForm ∧ rightOperand c none l w = .ok r' ∧
      r'.canonicalRight c {} = .ok w := by
  have hform := isRightForm_of_rightOperand hjson hlist h
  by_cases hmap : v.isMap
  · have hspelled : r.IsSpelledOut :=
      Operand.isSpelledOut_of_isMap hmap (rightOperand_eq_ok_iff.mp h)
    obtain ⟨hsettled, hfit⟩ := Operand.isSettled_of_read? (rightOperand_eq_ok_iff.mp h)
    have hplain := rightOperand_isPlain hform.isPlain h
    -- A literal is written with its type, a path as a property; both are read on any left operand.
    cases r
    case literal value type explicit mark =>
      obtain ⟨t, rfl, hread⟩ := hsettled
      cases hspelled
      exact ⟨value.literalForm t, _, Expr.canonicalRight_literal rfl,
        Value.isRightForm_literalForm hplain.1 t, rightOperand_literalForm l hread,
        Expr.canonicalRight_literal rfl⟩
    case path p type mark =>
      have hwritten : (Expr.path p type mark).canonicalRight c {} = .ok p.propertyForm :=
        Expr.canonicalRight_path rfl rfl
      exact ⟨p.propertyForm, _, hwritten, Value.isRightForm_propertyForm hplain.1,
        rightOperand_propertyForm l (hfit p rfl), hwritten⟩
    case call => exact hspelled.elim
  · obtain ⟨w, t, rfl, hw, hread⟩ :=
      rightOperand_scalar hl hjson hform (by simpa using hmap) h
    exact ⟨w, _, rfl, hw, hread, rfl⟩

namespace Json

/-- A steady left operand is written as the text of its path, and beside it the right operand is read as
one of the same form. -/
theorem exists_isOperand {k v : Value} {l r : Expr} (hk : k.isKey) (hsteady : k.IsSteady c)
    (hjson : v.IsJson) (hlist : v.IsNoList) (h : Predicate.operandsOf c none k v = .ok (l, r)) :
    ∃ k' v', l.canonical c {} = .ok k' ∧ r.canonicalRight c {} = .ok v' ∧ IsKey k' ∧
      IsOperand c k' v' := by
  obtain ⟨l₀, hl₀, hr₀, rfl⟩ := Predicate.operandsOf_eq_ok_iff.mp h
  obtain ⟨s, hs⟩ := Predicate.exists_asText?_of_leftOperand (Value.isMap_of_isKey hk) hl₀
  obtain ⟨path, hread, hagain, hfree⟩ := hsteady s hs
  have hpath := (Predicate.leftOperand_eq_ok_iff.mp hl₀).1
  rw [hread] at hpath
  cases hpath
  obtain ⟨w, r', hw, hform, hr', hw'⟩ := Predicate.exists_rewritten rfl hjson hlist hr₀
  have hl' : Predicate.leftOperand c none (.text path) =
      .ok (.path (.text path) none (Mark.after none {})) :=
    Predicate.leftOperand_eq_ok_iff.mpr ⟨hagain, id⟩
  refine ⟨.text path, w, rfl, hw, ⟨Value.isPathForm_text hfree, trivial⟩, hform,
    .path (.text path) r'.type (Mark.after none {}), r', ?_, rfl, hw'⟩
  exact (Predicate.operandsOf_of_leftOperand hl').mpr ⟨hr', rfl⟩

/-- A steady collection is written as a collection of the same form. -/
theorem exists_isCollection {op : Operator} {k : Value} {e : Expr} (hfree : k.IsUnreserved)
    (hk : k.isKey) (hjson : k.IsJson) (hsteady : k.IsSteady c)
    (h : Predicate.collectionOf c none op k = .ok e) :
    ∃ k', e.canonical c {} = .ok k' ∧ IsKey k' ∧ IsCollection c k' := by
  have hoperand := (Predicate.collectionOf_eq_ok_iff.mp h).1
  rcases htext : k.asText? with - | s
  · -- a scalar that is no text is a literal, whatever it is the collection of
    have hkey : IsKey k := ⟨⟨hk, hjson.isPlain, hfree⟩, hjson⟩
    obtain ⟨e', he', hcanonical⟩ := hkey.isCollection (c := c) htext
    rw [hoperand] at he'
    cases he'
    exact ⟨k, hcanonical, hkey, e, hoperand, hcanonical⟩
  · obtain ⟨path, hread, hagain, hpathFree⟩ := hsteady s htext
    have hpath : ∀ {k' : Value}, k'.IsReadAs c path → Predicate.collectionOperand c none k' =
        .ok (.path (.text path) none (Mark.after none {})) := by
      intro k' hk'
      exact Predicate.collectionOperand_eq_ok_iff.mpr ⟨_, hk', rfl⟩
    rw [hpath hread] at hoperand
    cases hoperand
    exact ⟨.text path, rfl, ⟨Value.isPathForm_text hpathFree, trivial⟩, _, hpath hagain, rfl⟩

/-! ### Forms of conditions -/

theorem IsForm.single {e : Value × Value} (h : IsEntry c e) : IsForm c [e] where
  ne_nil := List.cons_ne_nil _ _
  distinct := List.pairwise_singleton _ _
  entries := List.forall_mem_singleton.mpr h

theorem IsForm.operator {k : Value} {e : Value × Value} (hk : IsKey k) (h : IsOperatorEntry c k e) :
    IsForm c [(k, .map [e])] :=
  .single (.operators hk (List.cons_ne_nil _ _) (List.pairwise_singleton _ _)
    (List.forall_mem_singleton.mpr h) fun hmany => absurd hmany (Nat.lt_irrefl 1))

variable (c) in
/-- The value is a text or a canonical form. -/
def IsWritten : Value → Prop
  | .text _ => True
  | .map es => IsForm c es
  | _ => False

/-- What is written is read and written again. -/
theorem IsWritten.isReread {v : Value} (h : IsWritten c v) : IsReread c v := by
  cases v
  case text s =>
    refine ⟨trivial, trivial, .text s, ⟨.passthrough (.text s), .passthrough (.text s), rfl, ?_, rfl,
      rfl⟩, trivial, rfl, fun _ => rfl⟩
    rintro ⟨⟩
  case map es => exact IsForm.isReread h
  all_goals exact h.elim

theorem IsWritten.of_comparison {op : Operator} {k v : Value} (hop : op.IsOf Operator.comparison)
    (hk : IsKey k) (hv : IsOperand c k v) :
    ∃ w, Predicate.comparisonForm op k v = .ok w ∧ IsWritten c w := by
  obtain ⟨hkey, -⟩ := hop.comparison_key
  by_cases heq : op.key.isText "eq"
  · refine ⟨.map [(k, v)], ?_, IsForm.single (.equality hop heq hk hv)⟩
    rw [Predicate.comparisonForm, if_pos heq, Predicate.entry_of_isKey hk.isPathForm.isKey]
  · refine ⟨.map [(k, .map [(op.key, v)])], ?_, IsForm.operator hk (.comparison hop heq hv)⟩
    rw [Predicate.comparisonForm, if_neg heq, Predicate.entry_of_isKey hkey, ok_bind,
      Predicate.entry_of_isKey hk.isPathForm.isKey]

theorem IsWritten.joined {op : Operator} {vs : List Value} (hop : op.IsOf Operator.logical)
    (hlength : 2 ≤ vs.length) (h : ∀ v ∈ vs, IsWritten c v) :
    ∃ w, Predicate.joined op vs = .ok w ∧ IsWritten c w := by
  obtain ⟨hkey, -⟩ := hop.logical_key
  have hreread : ∀ v ∈ vs, IsReread c v := fun v hv => (h v hv).isReread
  rcases Predicate.joined_cases hkey fun v hv => (hreread v hv).isClause with
    hlist | ⟨xs, ys, zs, -, rfl, hmerge, hmap⟩
  · exact ⟨_, hlist, IsForm.single (.joined hop hlength hreread hlist)⟩
  · have hxs : IsForm c xs := h (.map xs) (by simp)
    have hys : IsForm c ys := h (.map ys) (by simp)
    exact ⟨.map zs, hmap, hxs.merge hys hmerge⟩

end Json

end

/-! ### Conditions that are written -/

variable (c : Catalog)

/-- If its operands are steady and no lists, the condition is written without a schema, as a text or in
a canonical form. -/
def Condition.IsWritable (s : Condition) : Prop :=
  ∀ t, s.HasSources (Value.IsSteady c) Value.IsNoList → s.resolve c none = .ok t →
    ∃ v, t.canonical c {} = .ok v ∧ Json.IsWritten c v

namespace Condition.IsWritable

variable {c} {op : Operator} {k v : Value} {s : Condition} {ss : List Condition}

theorem unary (hop : op.IsOf Operator.unary) (hs : s.IsWritable c) : (unary op s).IsWritable c := by
  intro t hsources ht
  obtain ⟨u, hu, rfl⟩ := Condition.resolve_unary_eq_ok_iff.mp ht
  obtain ⟨w, hw, hwritten⟩ := hs u hsources hu
  obtain ⟨hkey, -⟩ := hop.unary_key
  refine ⟨.map [(op.key, w)], ?_, IsForm.single (.negation hop hwritten.isReread)⟩
  rw [Resolved.canonical, hw, ok_bind, Predicate.entry_of_isKey hkey]

theorem exists_all (hss : ∀ s ∈ ss, s.IsWritable c)
    (hsources : AllHaveSources (Value.IsSteady c) Value.IsNoList ss) {ts : List Resolved}
    (h : resolveAll c none ss = .ok ts) :
    ∃ vs, Resolved.canonicalAll c {} ts = .ok vs ∧ vs.length = ss.length ∧
      ∀ v ∈ vs, Json.IsWritten c v := by
  induction ss generalizing ts with
  | nil =>
    cases h
    exact ⟨[], rfl, rfl, List.forall_mem_nil _⟩
  | cons s ss ih =>
    obtain ⟨t, ts', ht, hts, rfl⟩ := Condition.resolveAll_cons_eq_ok_iff.mp h
    obtain ⟨hs, hss⟩ := List.forall_mem_cons.mp hss
    obtain ⟨v, hv, hwritten⟩ := hs t hsources.1 ht
    obtain ⟨vs, hvs, hlength, hwrittens⟩ := ih hss hsources.2 hts
    refine ⟨v :: vs, ?_, by simp [hlength], List.forall_mem_cons.mpr ⟨hwritten, hwrittens⟩⟩
    rw [Resolved.canonicalAll, hv, hvs]
    rfl

theorem logical (hop : op.IsOf Operator.logical) (hlength : 2 ≤ ss.length)
    (hss : ∀ s ∈ ss, s.IsWritable c) : (logical op ss).IsWritable c := by
  intro t hsources ht
  obtain ⟨us, hus, rfl⟩ := Condition.resolve_logical_eq_ok_iff.mp ht
  obtain ⟨vs, hvs, hsame, hwrittens⟩ := exists_all hss hsources hus
  obtain ⟨w, hw, hwritten⟩ := Json.IsWritten.joined hop (hsame ▸ hlength) hwrittens
  exact ⟨w, by rw [Resolved.canonical, hvs, ok_bind, hw], hwritten⟩

theorem comparison (hop : op.IsOf Operator.comparison) (hk : k.isKey) (hv : v.IsJson) :
    (comparison op k v).IsWritable c := by
  intro t hsources ht
  obtain ⟨l, r, hoperands, rfl⟩ := Condition.resolve_comparison_eq_ok_iff.mp ht
  obtain ⟨k', v', hl, hr, hk', hv'⟩ :=
    Json.exists_isOperand hk hsources.1 hv hsources.2 hoperands
  obtain ⟨w, hw, hwritten⟩ := Json.IsWritten.of_comparison hop hk' hv'
  exact ⟨w, by rw [Resolved.canonical, hl, ok_bind, hr, ok_bind, hw], hwritten⟩

theorem quantified (hop : op.IsOf Operator.quantified) (hfree : k.IsUnreserved) (hk : k.isKey)
    (hjson : k.IsJson) (hs : s.IsWritable c) : (quantified op k s).IsWritable c := by
  intro t hsources ht
  obtain ⟨e, u, he, hu, rfl⟩ := Condition.resolve_quantified_eq_ok_iff.mp ht
  have hentity : e.entity? = none := Predicate.entity?_of_isSchemaless rfl he
  have hscope : ({} : Context).withSchema none = {} := rfl
  obtain ⟨k', hk', hkey, hcollection⟩ := Json.exists_isCollection hfree hk hjson hsources.1 he
  rw [hentity] at hu
  obtain ⟨w, hw, hwritten⟩ := hs u hsources.2 hu
  refine ⟨.map [(k', .map [(op.key, w)])], ?_,
    IsForm.operator hkey (.quantified hop hcollection hwritten.isReread)⟩
  rw [Resolved.canonical, hk', ok_bind, hentity, hscope, hw, ok_bind,
    Predicate.entry_of_isKey hop.quantified_key.1, ok_bind, Predicate.entry_of_isKey hkey.isPathForm.isKey]

end Condition.IsWritable

/-- **What is read from a JSON value is written**, if its operands are steady and no lists. -/
theorem Condition.formation_isWritable :
    Filter.Formation Value.IsJson (Condition.IsWritable c) where
  absent := fun _ _ h => by cases h
  passthrough := by
    rintro v hjson htext t - h
    cases h
    cases v
    case text s => exact ⟨.text s, rfl, trivial⟩
    case token => exact hjson.elim
    all_goals cases htext
  unary := .unary
  logical := .logical
  comparison := fun hop hk hv => .comparison hop hk.2.1 hv
  quantified := fun hop hk hs => .quantified hop hk.1 hk.2.1 hk.2.2 hs

/-! ### Predicates that are written again -/

variable {c}

/-- **The second canonical form.** Take a predicate that is read from a JSON value and valid without a
schema, whose left operands and collections are steady and whose right operands are no lists. Its
canonical form is read as a predicate that has a canonical form as well. The two forms are the same
exactly if no map in the first one joins more than two conditions. -/
theorem Predicate.rewritten_eq_iff {f : Value} {b b₁ : Builder} {p : Predicate}
    {notes notes₁ : Notes} (hjson : f.IsJson)
    (hread : outcome (Filter.readArguments [f]) b = (.ok (some p), b₁))
    (hsources : p.condition.HasSources (Value.IsSteady c) Value.IsNoList)
    (hblank : notes.Blank b.next)
    (hvalidate : outcome ((Node.predicate p).validate c none) notes = (.ok (), notes₁)) :
    ∃ v notes₂ q b₂ w notes₃,
      outcome ((Node.predicate p).toCanonical c .absent) notes₁ = (.ok v, notes₂) ∧
        outcome (Filter.readArguments [v]) b₁ = (.ok (some q), b₂) ∧
          outcome ((Node.predicate q).toCanonical c .absent) notes₂ = (.ok w, notes₃) ∧
            (w = v ↔ v.crowds = 0) := by
  have hsource : Context.ofSource .absent = .ok {} := rfl
  obtain ⟨hp, hblank₁, t, hready, -⟩ :=
    Predicate.ready_of_read Filter.hereditary_isJson (fun _ h => h.isPlain) hjson hread hblank
      hvalidate
  obtain ⟨hshape, -⟩ :=
    Filter.read_ok Filter.hereditary_isJson (fun _ h => h.isPlain) hjson hread
  have hwritable : p.condition.IsWritable c :=
    Filter.shape_formation (Condition.formation_isWritable c) Filter.hereditary_isJson f hjson hshape
  -- The first form, and what is read of it.
  obtain ⟨v, hv, hwritten⟩ := hwritable t hsources hready.resolve
  obtain ⟨-, hplain, w, ⟨s, u, hs, hpresent, hu, hw⟩, -, hlong, hsame⟩ := hwritten.isReread
  obtain ⟨q, b₂, hread', rfl⟩ := Filter.read_of_shape (fun _ h => h) hplain hs hpresent b₁
  -- Both are checked where nothing is noted of the new predicate.
  obtain ⟨notes₂, hcanonical, -, hqvalid, -⟩ :=
    hready.validates_written hp.isPlain hsource hv hplain hread' hu hblank₁
      fun id hid => (hp.range id hid).2
  obtain ⟨notes₃, -, hrewritten, -⟩ := hqvalid.toCanonical hsource hw
  refine ⟨v, notes₂, q, b₂, w, notes₃, hcanonical, hread', hrewritten, ?_, hsame⟩
  -- if the forms are the same, they have the same long lists
  rintro rfl
  omega

theorem Predicate.rewritten_range :
    let gt : Operator := ⟨.text "gt", [">", "greaterthan"], false⟩
    let le : Operator := ⟨.text "le", ["<=", "lessthanorequal"], false⟩
    let f : Value := .map [(.text "and", .list [.map [(.text "qty", .map [(.text "gt", .int 10)])],
      .map [(.text "qty", .map [(.text "le", .int 50)])]])]
    let p : Predicate := .logical 2 ⟨.text "and", ["&&"], false⟩
      [some (.comparison 0 gt (.text "qty") (.int 10)),
        some (.comparison 1 le (.text "qty") (.int 50))]
    let v : Value := .map [(.text "qty", .map [(.text "gt", .int 10), (.text "le", .int 50)])]
    outcome (Filter.readArguments [f]) {} = (.ok (some p), ⟨3, []⟩) ∧
      ∃ notes₁ notes₂ q b₂ notes₃,
        outcome ((Node.predicate p).validate [] none) [] = (.ok (), notes₁) ∧
          outcome ((Node.predicate p).toCanonical [] .absent) notes₁ = (.ok v, notes₂) ∧
            outcome (Filter.readArguments [v]) ⟨3, []⟩ = (.ok (some q), b₂) ∧
              outcome ((Node.predicate q).toCanonical [] .absent) notes₂ = (.ok v, notes₃) := by
  intro gt le f p v
  have hread : outcome (Filter.readArguments [f]) {} = (.ok (some p), ⟨3, []⟩) := rfl
  have hjson : f.IsJson := by
    simp [f, Value.IsJson, Value.JsonEntries, Value.JsonItems, Value.isKey]
  have hqty : (Value.text "qty").IsSteady [] :=
    Value.isSteady_of_isUnmarked (by unfold Text.IsUnmarked; decide) ⟨rfl, rfl⟩
  have hnumber : ∀ n : Int, (Value.int n).IsNoList := fun _ _ h => by cases h
  have hsources : p.condition.HasSources (Value.IsSteady []) Value.IsNoList :=
    ⟨⟨hqty, hnumber 10⟩, ⟨hqty, hnumber 50⟩, trivial⟩
  have hblank : Notes.Blank [] 0 := fun _ _ => rfl
  have hplain : p.IsPlain := by
    simp [p, gt, le, Predicate.IsPlain, Predicate.PlainAll, Predicate.PlainOption, Operator.IsPlain,
      Value.isPlain_int]
  let comparison (op : Operator) (n : Int) : Resolved :=
    .comparison op (.path (.text "qty") (some (.data .int32)) (Mark.after none {}))
      (.literal (.int n) (some (.data .int32)) false {})
  let t : Resolved := .logical ⟨.text "and", ["&&"], false⟩ [comparison gt 10, comparison le 50]
  have ht : p.condition.resolve [] none = .ok t := by rfl
  have hv : t.canonical [] {} = .ok v := by rfl
  obtain ⟨notes₁, hvalidate, hready⟩ := Predicate.validate_of_resolve [] hplain
    (by simp [p, Predicate.labels, Predicate.labelsAll, Predicate.labelsOf])
    (hblank.on_unmarked fun _ _ => Nat.zero_le _) ht
  have hvalid : p.Validates [] ({} : Context).schema notes₁ t := hready.validate hplain
  have hsource : Context.ofSource .absent = .ok {} := rfl
  obtain ⟨notes₂, -, hcanonical, -⟩ := hvalid.toCanonical hsource hv
  obtain ⟨v', notes₂', q, b₂, w, notes₃, hcanonical', hread', hrewritten, hsame⟩ :=
    Predicate.rewritten_eq_iff hjson hread hsources hblank hvalidate
  rw [hcanonical] at hcanonical'
  cases hcanonical'
  obtain rfl : w = v := hsame.mpr rfl
  exact ⟨hread, notes₁, notes₂, q, b₂, notes₃, hvalidate, hcanonical, hread', hrewritten⟩

/-- Nested conjunctions of two make a map of three entries, which is read as one conjunction of three.
That one is not merged. -/
theorem Predicate.flattened_conjunction :
    let and : Operator := ⟨.text "and", ["&&"], false⟩
    let eq : Operator := ⟨.text "eq", ["==", "=", "equals"], false⟩
    let entry (k : Text) (n : Int) : Value := .map [(.text k, .int n)]
    let f : Value := .map [(.text "and", .list
      [.map [(.text "and", .list [entry "a" 1, entry "b" 2])], entry "c" 3])]
    let p : Predicate := .logical 4 and
      [some (.logical 2 and [some (.comparison 0 eq (.text "a") (.int 1)),
        some (.comparison 1 eq (.text "b") (.int 2))]), some (.comparison 3 eq (.text "c") (.int 3))]
    let v : Value := .map [(.text "a", .int 1), (.text "b", .int 2), (.text "c", .int 3)]
    let q : Predicate := .logical 8 and [some (.comparison 5 eq (.text "a") (.int 1)),
      some (.comparison 6 eq (.text "b") (.int 2)), some (.comparison 7 eq (.text "c") (.int 3))]
    let w : Value := .map [(.text "and", .list [entry "a" 1, entry "b" 2, entry "c" 3])]
    outcome (Filter.readArguments [f]) {} = (.ok (some p), ⟨5, []⟩) ∧
      outcome (Filter.readArguments [v]) ⟨5, []⟩ = (.ok (some q), ⟨9, []⟩) ∧
        ∃ notes₁ notes₂ notes₃,
          outcome ((Node.predicate p).validate [] none) [] = (.ok (), notes₁) ∧
            outcome ((Node.predicate p).toCanonical [] .absent) notes₁ = (.ok v, notes₂) ∧
              outcome ((Node.predicate q).toCanonical [] .absent) notes₂ = (.ok w, notes₃) ∧
                Value.equal w v = .ok false := by
  intro and eq entry f p v q w
  have hread : outcome (Filter.readArguments [v]) ⟨5, []⟩ = (.ok (some q), ⟨9, []⟩) := rfl
  have hp : p.IsPlain := by
    simp [p, and, eq, Predicate.IsPlain, Predicate.PlainAll, Predicate.PlainOption, Operator.IsPlain,
      Value.isPlain_int]
  have hv : v.IsPlain := by
    have hkeys : (Value.text "a").isKey ∧ (Value.text "b").isKey ∧ (Value.text "c").isKey :=
      ⟨rfl, rfl, rfl⟩
    simp [v, hkeys, Value.isPlain_int]
  have hpLabels : p.labels = [4, 2, 0, 1, 3] := rfl
  let equality (k : Text) (n : Int) : Resolved :=
    .comparison eq (.path (.text k) (some (.data .int32)) (Mark.after none {}))
      (.literal (.int n) (some (.data .int32)) false {})
  let t : Resolved :=
    .logical and [.logical and [equality "a" 1, equality "b" 2], equality "c" 3]
  let u : Resolved := .logical and [equality "a" 1, equality "b" 2, equality "c" 3]
  have ht : p.condition.resolve [] none = .ok t := by rfl
  have hu : q.condition.resolve [] none = .ok u := by rfl
  have htv : t.canonical [] {} = .ok v := by rfl
  have huw : u.canonical [] {} = .ok w := by rfl
  have hblank : Notes.Blank [] 5 := fun _ _ => rfl
  have hbelow : ∀ id : Nat, id ∈ p.labels → id < 5 := by simp [hpLabels]
  have hsource : Context.ofSource .absent = .ok {} := rfl
  obtain ⟨notes₁, hvalidate, hready⟩ := Predicate.validate_of_resolve [] hp (by simp [hpLabels])
    (fun _ _ => Note.unmarked_default) ht
  obtain ⟨notes₂, hcanonical, -, hqvalid, -⟩ := hready.validates_written hp hsource htv hv hread hu
    (hblank.validate hp hbelow hvalidate) hbelow
  obtain ⟨notes₃, -, hrewritten, -⟩ := hqvalid.toCanonical hsource huw
  have hdiffer : Value.equal w v = .ok false := by
    rw [Value.equal]
    rfl
  exact ⟨rfl, hread, notes₁, notes₂, notes₃, hvalidate, hcanonical, hrewritten, hdiffer⟩

end RecordFilter
