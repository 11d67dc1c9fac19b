import RecordFilter.Proofs.Predicate.Rereading

/-!
# Canonical forms that are read and written again

A canonical form is a text or a map of entries that are written as they are read. What is read of it
without a schema is written as one clause again (`Json.IsReread`): the same form if none of its maps
joins more than two conditions, and else a form with one more long list for each map that does
(`Json.IsForm.isReread`). Joining two forms into one map keeps them forms (`Json.IsForm.merge`).
-/

namespace RecordFilter

/-! ### Keys that are the same -/

namespace Decimal

theorem compareMagnitude_self (c : Nat) (e : Int) : compareMagnitude c e c e = .eq := by
  have hleading : compare (leading c e) (leading c e) = .eq := Std.ReflCmp.compare_self
  unfold compareMagnitude
  split
  · exact Std.ReflCmp.compare_self
  · rw [hleading]
    simp

theorem compareFinite_self (n : Bool) (c : Nat) (e : Int) : compareFinite n c e n c e = .eq := by
  unfold compareFinite
  cases n && c != 0 <;> exact compareMagnitude_self c e

/-- A number that can be compared is equal to itself. -/
theorem compare?_self {d e : Decimal} (h : (d.compare? e).isSome) : d.compare? d = some .eq := by
  cases d with
  | nan => cases h
  | infinite n => simp [compare?]
  | finite n c e => exact congrArg some (compareFinite_self n c e)

end Decimal

theorem Number.order?_self {a b : Number} (h : (order? a b).isSome) : order? a a = some .eq := by
  cases a with
  | int n => exact congrArg some Std.ReflCmp.compare_self
  | double d => cases b <;> exact Decimal.compare?_self h
  | decimal d => cases b <;> exact Decimal.compare?_self h

namespace Value

theorem equalScalars_of_asNumber? {a b : Value} {n m : Number} (hn : a.asNumber? = some n)
    (hm : b.asNumber? = some m) : equalScalars a b = equalNumbers n m := by
  unfold equalScalars
  split
  · rename_i x y hx hy
    rw [Option.some.inj (hx.symm.trans hn), Option.some.inj (hy.symm.trans hm)]
  · rename_i hnone
    exact (hnone n m hn hm).elim

theorem exists_asNumber?_of_equalScalars {a b : Value} {n : Number} (hn : a.asNumber? = some n)
    (h : equalScalars a b = .ok true) : ∃ m, b.asNumber? = some m := by
  cases b
  case bool | int | double | decimal => exact ⟨_, rfl⟩
  all_goals cases a <;> first | (cases hn; done) | cases h

theorem equalNumbers_self {n m : Number} (h : equalNumbers n m = .ok true) :
    equalNumbers n n = .ok true := by
  unfold equalNumbers at h ⊢
  split at h
  · cases h
  · rename_i hdefined
    have horder : Number.order? n m = some .eq := eq_of_beq (Except.ok.inj h)
    have hself : Number.equalUndefined n n = false := by
      simp_all [Number.equalUndefined]
    have hequal : Number.equal n n := by
      rw [Number.equal, Number.order?_self (by rw [horder]; rfl)]
      rfl
    rw [hself, hequal]
    rfl

theorem equalScalars_self {a b : Value} (ha : a.IsJson) (h : equalScalars a b = .ok true) :
    equalScalars a a = .ok true := by
  have hnumber : ∀ {n : Number}, a.asNumber? = some n → equalScalars a a = .ok true := by
    intro n hn
    obtain ⟨m, hm⟩ := exists_asNumber?_of_equalScalars hn h
    rw [equalScalars_of_asNumber? hn hn]
    exact equalNumbers_self ((equalScalars_of_asNumber? hn hm).symm.trans h)
  cases a
  case null => rfl
  case text s => exact congrArg Except.ok (beq_self_eq_true s)
  case bool | int | double => exact hnumber rfl
  case list | map => cases b <;> cases h
  all_goals exact ha.elim

/-- A JSON value that is the same key as some value is the same key as itself. -/
theorem sameKey_self {a b : Value} (ha : a.IsJson) (h : sameKey a b) : sameKey a a := by
  rcases Json.equalScalars_of_sameKey h with h | ⟨k, as, f, l, bs, g, rfl, -⟩
  · have hself := equalScalars_self ha h
    unfold sameKey
    split
    · exact ha.elim
    · rw [hself]
  · exact ha.elim

end Value

namespace Json

open Filter (shape shapeEntry shapeEntries shapeAll shapeOperators joinShapes conjunction equalShape
  comparisonShape operatorOf isWrapper andOperator)

variable {c : Catalog}

/-! ### What is written back -/

variable (c) in
/-- What is read is a condition that is written as `w`, without a schema. -/
def WritesBack (read : Except Fault Condition) (w : Value) : Prop :=
  ∃ s u, read = .ok s ∧ s ≠ .absent ∧ s.resolve c none = .ok u ∧ u.canonical c {} = .ok w

variable (c) in
/-- What is read of `v` is written back with one more long list for each of `n` crowded maps, and as
`v` if there are none. -/
def Settles (read : Except Fault Condition) (v : Value) (n : Nat) : Prop :=
  ∃ w, WritesBack c read w ∧ w.IsClause ∧ w.longLists = v.longLists + n ∧ (n = 0 → w = v)

theorem exists_conditions {α : Type} {g : α → Except Fault Condition} {xs : List α}
    {ws : List Value} (h : List.Forall₂ (fun x w => WritesBack c (g x) w) xs ws) :
    ∃ ss us, xs.mapM g = .ok ss ∧ ss.length = xs.length ∧ (∀ s ∈ ss, s ≠ .absent) ∧
      Condition.resolveAll c none ss = .ok us ∧ Resolved.canonicalAll c {} us = .ok ws := by
  induction h with
  | nil => exact ⟨[], [], rfl, rfl, List.forall_mem_nil _, rfl, rfl⟩
  | cons hhead _ ih =>
    obtain ⟨s, u, hs, hpresent, hu, hw⟩ := hhead
    obtain ⟨ss, us, hss, hlength, hall, hus, hws⟩ := ih
    refine ⟨s :: ss, u :: us, ?_, by simp [hlength], List.forall_mem_cons.mpr ⟨hpresent, hall⟩,
      ?_, ?_⟩
    · rw [List.mapM_cons, hs, hss]
      rfl
    · rw [Condition.resolveAll, hu, hus]
      rfl
    · rw [Resolved.canonicalAll, hw, hws]
      rfl

/-- Things that are read and joined by an operator are written back as their forms are joined. -/
theorem writesBack_joined {α : Type} {g : α → Except Fault Condition} {xs : List α} {op : Operator}
    {ws : List Value} {w : Value} (hlength : 2 ≤ xs.length)
    (h : List.Forall₂ (fun x w => WritesBack c (g x) w) xs ws)
    (hw : Predicate.joined op ws = .ok w) :
    WritesBack c (do return joinShapes op (← xs.mapM g)) w := by
  obtain ⟨ss, us, hss, hsame, hall, hus, hws⟩ := exists_conditions h
  obtain ⟨s, s', rest, rfl⟩ : ∃ s s' rest, ss = s :: s' :: rest := by
    rcases ss with - | ⟨s, - | ⟨s', rest⟩⟩
    · simp only [List.length_nil] at hsame
      omega
    · simp only [List.length_cons, List.length_nil] at hsame
      omega
    · exact ⟨s, s', rest, rfl⟩
  refine ⟨.logical op (s :: s' :: rest), .logical op us, by rw [hss]; rfl, by simp, ?_, ?_⟩
  · rw [Condition.resolve, hus]
    rfl
  · rw [Resolved.canonical, hws]
    exact hw

/-- The same of entries of a map, of which a single one stands for itself. -/
theorem writesBack_conjunction {α : Type} {g : α → Except Fault Condition} {xs : List α}
    {ws : List Value} {w : Value} (hlength : 2 ≤ xs.length)
    (h : List.Forall₂ (fun x w => WritesBack c (g x) w) xs ws)
    (hw : Predicate.joined andOperator ws = .ok w) :
    WritesBack c (do return conjunction (← xs.mapM g)) w := by
  obtain ⟨ss, us, hss, hsame, hall, -, -⟩ := exists_conditions h
  have hfilter : ss.filter Filter.isPresent = ss :=
    List.filter_eq_self.mpr fun s hs => isPresent_iff.mpr (hall s hs)
  have hmany : conjunction ss = joinShapes andOperator ss := by
    rcases ss with - | ⟨s, - | ⟨s', rest⟩⟩
    · rfl
    · rfl
    · show joinShapes andOperator ((s :: s' :: rest).filter Filter.isPresent) = _
      rw [hfilter]
  have hread : (do return conjunction (← xs.mapM g) : Except Fault Condition) =
      do return joinShapes andOperator (← xs.mapM g) := by
    rw [hss]
    exact congrArg Except.ok hmany
  rw [hread]
  exact writesBack_joined hlength h hw

theorem writesBack_single {α : Type} {g : α → Except Fault Condition} {x : α} {w : Value}
    (h : WritesBack c (g x) w) : WritesBack c (do return conjunction (← [x].mapM g)) w := by
  obtain ⟨s, u, hs, hpresent, hu, hw⟩ := h
  refine ⟨s, u, ?_, hpresent, hu, hw⟩
  rw [List.mapM_cons, hs]
  rfl

theorem isClause_of_joined {op : Operator} {vs : List Value} {w : Value} (hkey : op.key.isKey)
    (hvs : ∀ v ∈ vs, v.IsClause) (h : Predicate.joined op vs = .ok w) : w.IsClause := by
  rcases Predicate.joined_cases hkey hvs with hlist | ⟨xs, ys, zs, -, rfl, -, hmap⟩
  · rw [hlist] at h
    cases h
    trivial
  · rw [hmap] at h
    cases h
    trivial

theorem exists_joined {op : Operator} {vs : List Value} (hkey : op.key.isKey)
    (hvs : ∀ v ∈ vs, v.IsClause) : ∃ w, Predicate.joined op vs = .ok w := by
  rcases Predicate.joined_cases hkey hvs with hlist | ⟨xs, ys, zs, -, -, -, hmap⟩
  · exact ⟨_, hlist⟩
  · exact ⟨_, hmap⟩

/-- The forms in which things are written back, one by one. -/
theorem exists_forms {α : Type} {g : α → Except Fault Condition} {one : α → Value} {n : α → Nat}
    {xs : List α} (h : ∀ x ∈ xs, Settles c (g x) (one x) (n x)) :
    ∃ ws, List.Forall₂ (fun x w => WritesBack c (g x) w) xs ws ∧ (∀ w ∈ ws, w.IsClause) ∧
      (ws.map Value.longLists).sum = (xs.map fun x => (one x).longLists).sum + (xs.map n).sum ∧
        ((xs.map n).sum = 0 → ws = xs.map one) := by
  induction xs with
  | nil => exact ⟨[], .nil, List.forall_mem_nil _, rfl, fun _ => rfl⟩
  | cons x xs ih =>
    obtain ⟨⟨w, hw, hclause, hlong, hsame⟩, hxs⟩ := List.forall_mem_cons.mp h
    obtain ⟨ws, hws, hclauses, hlongs, hsames⟩ := ih hxs
    refine ⟨w :: ws, .cons hw hws, List.forall_mem_cons.mpr ⟨hclause, hclauses⟩, ?_, ?_⟩
    · simp only [List.map_cons, List.sum_cons]
      omega
    · intro hzero
      rw [List.map_cons, List.sum_cons] at hzero
      rw [List.map_cons, hsame (by omega), hsames (by omega)]

/-- **Entries that are joined settle as they do one by one**, with one more long list if they are more
than two. -/
theorem settles_conjunction {α : Type} {g : α → Except Fault Condition} {one : α → Value}
    {n : α → Nat} {xs : List α} {v : Value} (hne : xs ≠ [])
    (h : ∀ x ∈ xs, Settles c (g x) (one x) (n x))
    (hlong : v.longLists = (xs.map fun x => (one x).longLists).sum)
    (hone : ∀ x, xs = [x] → one x = v)
    (htwo : ∀ x y, xs = [x, y] → Predicate.joined andOperator [one x, one y] = .ok v) :
    Settles c (do return conjunction (← xs.mapM g)) v (Value.crowd xs.length + (xs.map n).sum) := by
  rcases xs with - | ⟨x, - | ⟨y, rest⟩⟩
  · exact (hne rfl).elim
  · -- a single entry stands for itself
    obtain ⟨w, hw, hclause, hlongs, hsame⟩ := h x List.mem_cons_self
    refine ⟨w, writesBack_single hw, hclause, ?_, fun hzero => ?_⟩
    · simpa [hlong, Value.crowd] using hlongs
    · rw [hsame (by simpa [Value.crowd] using hzero), hone x rfl]
  · obtain ⟨ws, hws, hclauses, hlongs, hsames⟩ := exists_forms h
    have hkey : andOperator.key.isKey := rfl
    obtain ⟨w, hw⟩ := exists_joined hkey hclauses
    refine ⟨w, writesBack_conjunction (by simp) hws hw, isClause_of_joined hkey hclauses hw, ?_, ?_⟩
    · rw [Predicate.longLists_joined hkey hclauses hw, hlongs, hlong, hws.length_eq]
      omega
    · -- without a crowd there are two entries, and these are merged again
      intro hzero
      obtain ⟨hcrowd, hsum⟩ := Nat.add_eq_zero_iff.mp hzero
      rw [Value.crowd_eq_zero_iff] at hcrowd
      obtain rfl : rest = [] := List.length_eq_zero_iff.mp (by simpa using hcrowd)
      rw [hsames hsum] at hw
      exact Except.ok.inj (hw.symm.trans (htwo x y rfl))

/-! ### The entries of canonical forms -/

/-- The value can be the path of an entry. -/
structure IsKey (k : Value) : Prop where
  isPathForm : k.IsPathForm
  isJson : k.IsJson

section

variable (c)

/-- The clause is read and written again. -/
structure IsReread (v : Value) : Prop where
  isClause : v.IsClause
  isPlain : v.IsPlain
  settles : Settles c (shape v) v v.crowds

/-- The path `k` on the left and the operand `v` on the right are read as operands that are written like
this again. -/
def IsOperand (k v : Value) : Prop :=
  v.IsRightForm ∧ ∃ l r, Predicate.operandsOf c none k v = .ok (l, r) ∧
    l.canonical c {} = .ok k ∧ r.canonicalRight c {} = .ok v

/-- The value is read as a collection that is written like this again. -/
def IsCollection (k : Value) : Prop :=
  ∃ e, Predicate.collectionOperand c none k = .ok e ∧ e.canonical c {} = .ok k

/-- An entry under the path `k`: an operator with its operand, or a quantifier with its body. -/
inductive IsOperatorEntry (k : Value) : Value × Value → Prop
  | comparison {op : Operator} {v : Value} : op.IsOf Operator.comparison → ¬ op.key.isText "eq" →
      IsOperand c k v → IsOperatorEntry k (op.key, v)
  | quantified {op : Operator} {v : Value} : op.IsOf Operator.quantified → IsCollection c k →
      IsReread c v → IsOperatorEntry k (op.key, v)

/-- An entry of a canonical form, of which the clauses inside are read and written again. -/
inductive IsEntry : Value × Value → Prop
  | negation {op : Operator} {v : Value} : op.IsOf Operator.unary → IsReread c v →
      IsEntry (op.key, v)
  | joined {op : Operator} {vs : List Value} : op.IsOf Operator.logical → 2 ≤ vs.length →
      (∀ v ∈ vs, IsReread c v) →
      Predicate.joined op vs = .ok (.map [(op.key, .list vs)]) → IsEntry (op.key, .list vs)
  | equality {op : Operator} {k v : Value} : op.IsOf Operator.comparison → op.key.isText "eq" →
      IsKey k → IsOperand c k v → IsEntry (k, v)
  | operators {k : Value} {ops : List (Value × Value)} : IsKey k → ops ≠ [] → DistinctKeys ops →
      (∀ e ∈ ops, IsOperatorEntry c k e) →
      (1 < ops.length → isScoped k = false ∧ Value.sameKey k k) → IsEntry (k, .map ops)

/-- The entries make up a canonical form. -/
structure IsForm (es : List (Value × Value)) : Prop where
  ne_nil : es ≠ []
  distinct : DistinctKeys es
  entries : ∀ e ∈ es, IsEntry c e

end

/-! #### Entries under a path -/

namespace IsOperatorEntry

variable {k : Value} {e : Value × Value}

theorem not_value (h : IsOperatorEntry c k e) : Value.sameKey e.1 (.text "value") = false := by
  cases h with
  | comparison hop => exact hop.comparison_key.2.2.2.2.2
  | quantified hop => exact hop.quantified_key.2.2.2.2

theorem settles (hk : IsKey k) (h : IsOperatorEntry c k e) :
    Settles c (operatorShape k e) (.map [(k, .map [e])]) (Value.crowdsOperator e) := by
  have hkey : k.isKey := hk.isPathForm.isKey
  cases h with
  | @comparison op v hop hne hv =>
    obtain ⟨hform, l, r, hoperands, hl, hr⟩ := hv
    obtain ⟨hopKey, -, hoperator, hknown, hquantified, -⟩ := hop.comparison_key
    have hcrowds : Value.crowdsOperator (op.key, v) = 0 := by
      simp [Value.crowdsOperator, hquantified]
    have hshape : operatorShape k (op.key, v) = .ok (.comparison op k v) := by
      simp [operatorShape, comparisonShape, hquantified, hknown, hoperator]
    rw [hcrowds]
    refine ⟨.map [(k, .map [(op.key, v)])], ⟨_, .comparison op l r, hshape, by simp, ?_, ?_⟩, trivial,
      rfl, fun _ => rfl⟩
    · rw [Condition.resolve, hoperands]
      rfl
    · rw [Resolved.canonical, hl, ok_bind, hr, ok_bind, Predicate.comparisonForm, if_neg hne,
        Predicate.entry_of_isKey hopKey, ok_bind, Predicate.entry_of_isKey hkey]
  | @quantified op v hop hcollection hbody =>
    obtain ⟨e, he, hcanonical⟩ := hcollection
    obtain ⟨-, -, w, ⟨s, u, hs, hpresent, hu, hw⟩, -, hlong, hsame⟩ := hbody
    obtain ⟨hopKey, -, hoperator, hknown, -⟩ := hop.quantified_key
    have hcrowds : Value.crowdsOperator (op.key, v) = v.crowds := if_pos hknown
    have hshape : operatorShape k (op.key, v) = .ok (.quantified op k s) := by
      simp [operatorShape, hknown, hoperator, hs]
    have hcollectionOf : Predicate.collectionOf c none op k = .ok e :=
      Predicate.collectionOf_eq_ok_iff.mpr ⟨he, Predicate.misfit?_of_isSchemaless rfl⟩
    have hentity : e.entity? = none := Predicate.entity?_of_isSchemaless rfl hcollectionOf
    have hscope : ({} : Context).withSchema none = {} := rfl
    rw [hcrowds]
    refine ⟨.map [(k, .map [(op.key, w)])], ⟨_, .quantified op e u, hshape, by simp, ?_, ?_⟩,
      trivial, ?_, fun hzero => ?_⟩
    · rw [Condition.resolve, hcollectionOf, ok_bind, hentity, hu]
      rfl
    · rw [Resolved.canonical, hcanonical, ok_bind, hentity, hscope, hw, ok_bind,
        Predicate.entry_of_isKey hopKey, ok_bind, Predicate.entry_of_isKey hkey]
    · simpa using hlong
    · rw [hsame hzero]

end IsOperatorEntry

/-! #### Entries of maps of conditions -/

namespace IsEntry

theorem settles_negation {op : Operator} {v : Value} (hop : op.IsOf Operator.unary)
    (h : IsReread c v) :
    Settles c (shapeEntry op.key v) (.map [(op.key, v)]) (Value.crowdsUnder op.key v) := by
  obtain ⟨hclause, -, w, ⟨s, u, hs, hpresent, hu, hw⟩, -, hlong, hsame⟩ := h
  obtain ⟨hkey, -, hoperator, hunary, hlogical⟩ := hop.unary_key
  have hshape : shapeEntry op.key v = .ok (.unary op s) := by
    cases v
    case text t =>
      show Filter.scalarEntryShape op.key (.text t) = _
      have hscalar : Filter.scalarShape (.text t) = .ok s := hs
      simp [Filter.scalarEntryShape, hlogical, hunary, hoperator, hscalar]
    case map es => exact Filter.shapeEntry_not hop hs
    all_goals exact hclause.elim
  have hcrowds : Value.crowdsUnder op.key v = v.crowds := by
    cases v
    case map es => exact if_pos hunary
    all_goals rfl
  rw [hcrowds]
  refine ⟨.map [(op.key, w)], ⟨_, .unary op u, hshape, by simp, ?_, ?_⟩, trivial, ?_, fun hzero => ?_⟩
  · rw [Condition.resolve, hu]
    rfl
  · rw [Resolved.canonical, hw, ok_bind, Predicate.entry_of_isKey hkey]
  · simpa using hlong
  · rw [hsame hzero]

theorem shapeAll_of_isClause {vs : List Value} (h : ∀ v ∈ vs, v.IsClause) :
    shapeAll vs = vs.mapM shape := by
  induction vs with
  | nil => rfl
  | cons v vs ih =>
    obtain ⟨hv, hvs⟩ := List.forall_mem_cons.mp h
    have hcons : shapeAll (v :: vs) = do
        let t ← shape v
        return t :: (← shapeAll vs) := by
      cases v
      case null => exact hv.elim
      all_goals rfl
    rw [hcons, ih hvs, List.mapM_cons]

theorem settles_joined {op : Operator} {vs : List Value} (hop : op.IsOf Operator.logical)
    (hlength : 2 ≤ vs.length) (h : ∀ v ∈ vs, IsReread c v)
    (hjoined : Predicate.joined op vs = .ok (.map [(op.key, .list vs)])) :
    Settles c (shapeEntry op.key (.list vs)) (.map [(op.key, .list vs)])
      (Value.crowdsUnder op.key (.list vs)) := by
  obtain ⟨hkey, -⟩ := hop.logical_key
  obtain ⟨ws, hws, hclauses, hlongs, hsame⟩ := exists_forms fun v hv => (h v hv).settles
  replace hlongs : (ws.map Value.longLists).sum =
      (vs.map Value.longLists).sum + (vs.map Value.crowds).sum := hlongs
  obtain ⟨w, hw⟩ := exists_joined hkey hclauses
  have hcrowds : Value.crowdsUnder op.key (.list vs) = (vs.map Value.crowds).sum :=
    Value.crowdsItems_eq vs
  rw [hcrowds, Filter.shapeEntry_logical hop hlength, shapeAll_of_isClause fun v hv => (h v hv).isClause]
  refine ⟨w, writesBack_joined hlength hws hw, isClause_of_joined hkey hclauses hw, ?_, ?_⟩
  · rw [Predicate.longLists_joined hkey hclauses hw, hlongs, Value.longLists_entry,
      Value.longLists_list, hws.length_eq]
    omega
  · intro hzero
    rw [hsame hzero, List.map_id'] at hw
    exact Except.ok.inj (hw.symm.trans hjoined)

theorem settles_equality {op : Operator} {k v : Value} (hop : op.IsOf Operator.comparison)
    (heq : op.key.isText "eq") (hk : IsKey k) (h : IsOperand c k v) :
    Settles c (shapeEntry k v) (.map [(k, v)]) (Value.crowdsUnder k v) := by
  obtain ⟨hform, l, r, hoperands, hl, hr⟩ := h
  have hshape : shapeEntry k v = .ok (.comparison op k v) := by
    rw [Filter.shapeEntry_right hk.isPathForm.isUnreserved hform, equalShape, hop.operatorOf_eq heq]
    rfl
  have hcrowds : Value.crowdsUnder k v = 0 := by
    have hunary : ¬ (Operator.unary? k).isSome := by simp [hk.isPathForm.isUnreserved.unary]
    cases v
    case list vs => exact (hform.not_list vs rfl).elim
    case map es =>
      rw [Value.crowdsUnder, if_neg hunary, if_pos (hform.isWrapper rfl)]
    all_goals rfl
  rw [hcrowds]
  refine ⟨.map [(k, v)], ⟨_, .comparison op l r, hshape, by simp, ?_, ?_⟩, trivial, rfl, fun _ => rfl⟩
  · rw [Condition.resolve, hoperands]
    rfl
  · rw [Resolved.canonical, hl, ok_bind, hr, ok_bind, Predicate.comparisonForm, if_pos heq,
      Predicate.entry_of_isKey hk.isPathForm.isKey]

theorem settles_operators {k : Value} {ops : List (Value × Value)} (hk : IsKey k) (hne : ops ≠ [])
    (hdistinct : DistinctKeys ops) (hops : ∀ e ∈ ops, IsOperatorEntry c k e)
    (hmany : 1 < ops.length → isScoped k = false ∧ Value.sameKey k k) :
    Settles c (shapeEntry k (.map ops)) (.map [(k, .map ops)]) (Value.crowdsUnder k (.map ops)) := by
  have hlogical : ¬ (Operator.logical? k).isSome := by simp [hk.isPathForm.isUnreserved.logical]
  have hunary : ¬ (Operator.unary? k).isSome := by simp [hk.isPathForm.isUnreserved.unary]
  have hwrapper : ∀ {es : List (Value × Value)}, (∀ e ∈ es, IsOperatorEntry c k e) →
      isWrapper (.map es) = false := by
    intro es hes
    have hnone : Value.lookup? (.text "value") es = none :=
      lookup?_eq_none_iff.mpr fun e he => (hes e he).not_value
    rw [isWrapper, hnone]
    rfl
  have hshape : shapeEntry k (.map ops) = do
      return conjunction (← ops.mapM (operatorShape k)) := by
    rw [shapeEntry, if_neg hlogical, if_neg hunary, if_neg (by simp [hwrapper hops]),
      shapeOperators_eq_mapM]
  have hcrowds : Value.crowdsUnder k (.map ops) =
      Value.crowd ops.length + (ops.map Value.crowdsOperator).sum := by
    rw [Value.crowdsUnder, if_neg hunary, if_neg (by simp [hwrapper hops]), Value.crowdsOperators_eq]
  rw [hshape, hcrowds]
  apply settles_conjunction hne fun e he => (hops e he).settles hk
  · simp [Value.longLists_map]
  · rintro e rfl
    rfl
  · -- Two operators under one path are read as two maps with this path, which are merged if the path is
    -- the same key as itself.
    rintro e e' rfl
    obtain ⟨hfree, hself⟩ := hmany (by simp)
    have hdiffer : Value.sameKey e.1 e'.1 = false := by
      simpa [DistinctKeys] using hdistinct
    have hboth : merge [e] [e'] = some [e, e'] := merge_of_sameKey_eq_false hdiffer
    obtain ⟨he, he'⟩ := List.forall_mem_cons.mp hops
    exact Predicate.joined_of_merge rfl (merge_of_sameKey hself hfree
      (hwrapper (List.forall_mem_singleton.mpr he)) (hwrapper he') hboth)

/-- **An entry of a canonical form settles.** -/
theorem settles {e : Value × Value} (h : IsEntry c e) :
    Settles c (shapeEntry e.1 e.2) (.map [e]) (Value.crowdsUnder e.1 e.2) := by
  cases h with
  | negation hop hv => exact settles_negation hop hv
  | joined hop hlength hvs hjoined => exact settles_joined hop hlength hvs hjoined
  | equality hop heq hk hv => exact settles_equality hop heq hk hv
  | operators hk hne hdistinct hops hmany =>
    exact settles_operators hk hne hdistinct hops hmany

end IsEntry

theorem IsOperatorEntry.isPlain {k : Value} {e : Value × Value} (h : IsOperatorEntry c k e) :
    e.1.isKey ∧ e.1.IsPlain ∧ e.2.IsPlain := by
  cases h with
  | comparison hop _ hv =>
    obtain ⟨hkey, hplain, -⟩ := hop.comparison_key
    exact ⟨hkey, hplain, hv.1.isPlain⟩
  | quantified hop _ hv =>
    obtain ⟨hkey, hplain, -⟩ := hop.quantified_key
    exact ⟨hkey, hplain, hv.isPlain⟩

theorem IsEntry.isPlain {e : Value × Value} (h : IsEntry c e) :
    e.1.isKey ∧ e.1.IsPlain ∧ e.2.IsPlain := by
  cases h with
  | negation hop hv =>
    obtain ⟨hkey, hplain, -⟩ := hop.unary_key
    exact ⟨hkey, hplain, hv.isPlain⟩
  | joined hop _ hvs =>
    obtain ⟨hkey, hplain, -⟩ := hop.logical_key
    exact ⟨hkey, hplain, Value.isPlain_list.mpr fun v hv => (hvs v hv).isPlain⟩
  | equality _ _ hk hv => exact ⟨hk.isPathForm.isKey, hk.isPathForm.isPlain, hv.1.isPlain⟩
  | operators hk _ _ hops =>
    exact ⟨hk.isPathForm.isKey, hk.isPathForm.isPlain,
      Value.isPlain_map.mpr fun e he => (hops e he).isPlain⟩

theorem IsForm.isPlain {es : List (Value × Value)} (h : IsForm c es) : (Value.map es).IsPlain :=
  Value.isPlain_map.mpr fun e he => (h.entries e he).isPlain

/-- **A canonical form is read and written again.** -/
theorem IsForm.isReread {es : List (Value × Value)} (h : IsForm c es) : IsReread c (.map es) := by
  refine ⟨trivial, h.isPlain, ?_⟩
  have hshape : shape (.map es) = do
      return conjunction (← es.mapM fun e => shapeEntry e.1 e.2) := by
    rw [shape, shapeEntries_eq_mapM]
  rw [hshape, Value.crowds_map]
  apply settles_conjunction h.ne_nil fun e he => (h.entries e he).settles
  · simp [Value.longLists_map]
  · rintro e rfl
    rfl
  · rintro e e' rfl
    have hdiffer : Value.sameKey e.1 e'.1 = false := by
      simpa [DistinctKeys] using h.distinct
    exact Predicate.joined_of_merge rfl (merge_of_sameKey_eq_false hdiffer)

/-! ### Forms that are merged -/

namespace IsKey

variable {k k' : Value}

/-- Keys that are the same and texts are one text. -/
theorem eq_or_asText?_eq_none (hk : IsKey k) (hk' : IsKey k') (h : Value.sameKey k' k) :
    k' = k ∨ k.asText? = none ∧ k'.asText? = none := by
  have htext := asText?_of_sameKey h
  rcases e : k.asText? with - | s
  · exact .inr ⟨rfl, htext.trans e⟩
  · rw [e] at htext
    have hform : ∀ {v : Value}, v.IsJson → v.asText? = some s → v = .text s := by
      intro v hv hs
      cases v
      case text => cases hs; rfl
      case token => exact hv.elim
      all_goals cases hs
    exact .inl ((hform hk'.isJson htext).trans (hform hk.isJson e).symm)

/-- A key that is no text is a collection that is written as it is. -/
theorem isCollection (hk : IsKey k) (htext : k.asText? = none) : IsCollection c k := by
  have hjson := hk.isJson
  have hkey := hk.isPathForm.isKey
  refine ⟨.literal k none false {}, ?_, rfl⟩
  cases k
  case null | bool | int | double => rfl
  case text => cases htext
  case list => cases hkey
  case map => cases hkey
  all_goals exact hjson.elim

end IsKey

namespace IsOperatorEntry

variable {k k' : Value} {e : Value × Value}

theorem of_sameKey (hk : IsKey k) (hk' : IsKey k') (hsame : Value.sameKey k' k)
    (h : IsOperatorEntry c k e) : IsOperatorEntry c k' e := by
  rcases hk.eq_or_asText?_eq_none hk' hsame with rfl | ⟨htext, htext'⟩
  · exact h
  · cases h with
    | comparison hop hne hv =>
      -- on the left of a comparison a literal is refused
      have hmap : k.isMap = false := Value.isMap_of_isKey hk.isPathForm.isKey
      obtain ⟨-, l, r, hoperands, -⟩ := hv
      obtain ⟨l₀, hl₀, -⟩ := Predicate.operandsOf_eq_ok_iff.mp hoperands
      exact (Condition.leftOperand_ne_ok htext hmap l₀ hl₀).elim
    | quantified hop _ hbody => exact .quantified hop (hk'.isCollection htext') hbody

/-- Entries under one path are never merged. -/
theorem mergeValues_eq_none {op op' v known : Value} (hsame : Value.sameKey op' op)
    (hfree : ¬ isScoped op) (hknown : ¬ isWrapper known) (h : IsOperatorEntry c k (op', known)) :
    mergeValues known v = none := by
  rw [Option.eq_none_iff_forall_ne_some]
  intro both hboth
  obtain ⟨xs, ys, zs, rfl, -⟩ := mergeValues_eq_some hboth
  generalize hentry : (op', Value.map xs) = e at h
  cases h with
  | comparison hop hne hv =>
    cases hentry
    exact hknown (hv.1.isWrapper rfl)
  | quantified hop =>
    cases hentry
    rw [← isScoped_of_sameKey hsame] at hfree
    exact hfree (by simp [isScoped, hop.quantified_key.2.2.2.1])

end IsOperatorEntry

/-- A map that stands under a path and is no operand holds operators. -/
theorem IsEntry.operators_of_map {k : Value} {es : List (Value × Value)}
    (h : IsEntry c (k, .map es)) (hfree : ¬ isScoped k) (hes : ¬ isWrapper (.map es)) :
    IsKey k ∧ es ≠ [] ∧ DistinctKeys es ∧ ∀ e ∈ es, IsOperatorEntry c k e := by
  generalize hentry : (k, Value.map es) = e at h
  cases h with
  | negation hop =>
    cases hentry
    rw [hop.key_eq] at hfree
    exact (hfree rfl).elim
  | joined => cases hentry
  | equality hop heq hk hv =>
    cases hentry
    exact (hes (hv.1.isWrapper rfl)).elim
  | operators hk hne hdistinct hops =>
    cases hentry
    exact ⟨hk, hne, hdistinct, hops⟩

/-- **Two entries of canonical forms that are merged make an entry of a canonical form.** -/
theorem IsEntry.merge {k' k known v both : Value} (hsame : Value.sameKey k' k)
    (hfree : ¬ isScoped k) (hknown : ¬ isWrapper known) (hv : ¬ isWrapper v)
    (hboth : mergeValues known v = some both) (h' : IsEntry c (k', known)) (h : IsEntry c (k, v)) :
    IsEntry c (k', both) := by
  obtain ⟨xs, ys, zs, rfl, rfl, rfl, hmerge⟩ := mergeValues_eq_some hboth
  have hfree' : ¬ isScoped k' := by rwa [isScoped_of_sameKey hsame]
  obtain ⟨hk', hxsNe, hxsDistinct, hxs⟩ := h'.operators_of_map hfree' hknown
  obtain ⟨hk, -, -, hys⟩ := h.operators_of_map hfree hv
  refine .operators hk' (merge_ne_nil hmerge hxsNe) (distinctKeys_merge hmerge hxsDistinct) ?_ ?_
  · -- No two operators are merged in turn, so the operators of the merge are those of the two maps.
    refine merge_forall ?_ hmerge hxs fun e he => (hys e he).of_sameKey hk hk' hsame
    intro op' op known v both hop hopFree hopKnown _ hmerged hentry _
    rw [hentry.mergeValues_eq_none hop hopFree hopKnown] at hmerged
    cases hmerged
  · exact fun _ => ⟨by simpa using hfree', Value.sameKey_self hk'.isJson hsame⟩

/-- **Canonical forms that are merged make a canonical form.** -/
theorem IsForm.merge {xs ys zs : List (Value × Value)} (hxs : IsForm c xs) (hys : IsForm c ys)
    (h : merge xs ys = some zs) : IsForm c zs where
  ne_nil := merge_ne_nil h hxs.ne_nil
  distinct := distinctKeys_merge h hxs.distinct
  entries := merge_forall IsEntry.merge h hxs.entries hys.entries

end Json

end RecordFilter
