import Mathlib
import RecordFilter.Proofs.Predicate.FirstUse
import RecordFilter.Proofs.Predicate.RoundTrip
import RecordFilter.Proofs.Schema.Naming

/-!
# Writing with the names of the server

A path that is written with the names of the server is translated by the convention of the entity
type in scope, and in the body of a quantifier that is the entity type of the elements. So the form of
a condition with the names of the server is the plain form of a condition in which all paths are
renamed, scope by scope (`Resolved.canonical_server`): nothing else changes, and what is merged is
what the renamed condition merges.

Where only the root of a schema has a convention, paths are renamed in the scopes of the root and
nowhere else (`Predicate.server_form`). That is the translation of all paths by the convention of the
root exactly when the convention leaves the paths in all other scopes as they are
(`Resolved.renamed?_eq_iff`). A dotted path is translated as a whole, so one property has two names
for the server: one at the end of a path and one in the body of a quantifier
(`Predicate.untranslated_body`).
-/

namespace RecordFilter

/-- The conventions of scopes. Without one the paths in a scope are not looked at. -/
abbrev Naming := Option EntityId → Option NamingConvention

/-- The convention of the entity type in scope. -/
def Catalog.naming (c : Catalog) : Naming := fun scope =>
  (scope.bind c.entity?).map EntityType.convention

/-- A convention for one entity type, and the one that changes nothing for all others. -/
def Catalog.namingAt (c : Catalog) (root : EntityId) (k : NamingConvention) : Naming := fun scope =>
  if scope = some root then some k else (scope.bind c.entity?).map fun _ => .same

theorem Catalog.HasConventionOnlyAt.naming {c : Catalog} {root : EntityId} {e : EntityType}
    (h : c.HasConventionOnlyAt root) (he : c.entity? root = some e) :
    c.naming = c.namingAt root e.convention := by
  funext scope
  rw [Catalog.naming, namingAt]
  split
  · rename_i hscope
    rw [hscope, Option.bind_some, he, Option.map_some]
  · rename_i hscope
    rcases scope with - | id
    · rfl
    · rw [Option.bind_some]
      rcases he' : c.entity? id with - | e'
      · rfl
      · have hid : id ≠ root := fun hid => hscope (congrArg some hid)
        exact congrArg some (h id e' hid he')

/-! ### Renaming paths -/

namespace Expr

variable (k : Option NamingConvention)

mutual

/-- The operand with all paths in it translated; there is none when a path is no text. -/
def renamed? : Expr → Option Expr
  | literal value type explicit mark => some (literal value type explicit mark)
  | path p type mark =>
    match k with
    | none => some (path p type mark)
    | some k => p.asText?.map fun s => path (.text (k.convertPath s)) type mark
  | call function args type mark => (renamedAll? args).map fun args => call function args type mark

/-- The operands with all paths in them translated. -/
def renamedAll? : List Expr → Option (List Expr)
  | [] => some []
  | e :: es => do return (← renamed? e) :: (← renamedAll? es)

end

end Expr

namespace Resolved

variable (k : Naming)

mutual

/-- The condition with all paths in it translated, by the convention of the scope that they stand
in. -/
def renamed? (scope : Option EntityId) : Resolved → Option Resolved
  | passthrough text => some (passthrough text)
  | unary op operand => (renamed? scope operand).map (unary op)
  | logical op children => (renamedAll? scope children).map (logical op)
  | comparison op left right => do
    return comparison op (← left.renamed? (k scope)) (← right.renamed? (k scope))
  | quantified op collection body => do
    return quantified op (← collection.renamed? (k scope)) (← renamed? collection.entity? body)

/-- The conditions with all paths in them translated. -/
def renamedAll? (scope : Option EntityId) : List Resolved → Option (List Resolved)
  | [] => some []
  | t :: ts => do return (← renamed? scope t) :: (← renamedAll? scope ts)

end

end Resolved

/-! ### The names of the server -/

/-- The same context, in which paths are written as they are. -/
def Context.plain (context : Context) : Context :=
  { context with server := .bool false }

section

variable {c : Catalog} {context : Context} {scope : Option EntityId}

/-- A path is translated as it is written for the server. -/
theorem Expr.renamed?_path (hserver : context.server.truthy = true) (p : Value)
    (type : Option TypeRef) (mark : Mark) :
    (Expr.path p type mark).renamed? (c.naming scope) =
      (Expr.writtenPath c (context.withSchema scope) p).toOption.map fun q => .path q type mark := by
  have htruthy : (context.withSchema scope).server.truthy = true := hserver
  have hscope : (context.withSchema scope).schema = scope := rfl
  unfold Expr.renamed? Catalog.naming writtenPath
  rw [htruthy, hscope]
  rcases scope.bind c.entity? with - | e
  · rfl
  · rw [Option.map_some]
    dsimp only
    rcases p.asText? with - | s <;> rfl

theorem Expr.exists_renamed?_path (hserver : context.server.truthy = true) {p : Value}
    {type : Option TypeRef} {mark : Mark} {u : Expr}
    (h : (Expr.path p type mark).renamed? (c.naming scope) = some u) :
    ∃ q, u = .path q type mark ∧ writtenPath c (context.withSchema scope) p = .ok q := by
  rw [Expr.renamed?_path hserver] at h
  obtain ⟨q, hq, rfl⟩ := Option.map_eq_some_iff.mp h
  refine ⟨q, rfl, ?_⟩
  rcases hpath : writtenPath c (context.withSchema scope) p with fault | q'
  · rw [hpath] at hq
    cases hq
  · rw [hpath] at hq
    cases hq
    rfl

/-- Renaming keeps the types of operands. -/
theorem Expr.type_of_renamed? {k : Option NamingConvention} {e u : Expr}
    (h : e.renamed? k = some u) : u.type = e.type := by
  cases e
  case literal =>
    cases h
    rfl
  case path p type mark =>
    unfold Expr.renamed? at h
    split at h
    · cases h
      rfl
    · obtain ⟨s, -, rfl⟩ := Option.map_eq_some_iff.mp h
      rfl
  case call =>
    obtain ⟨us, -, rfl⟩ := Option.map_eq_some_iff.mp h
    rfl

theorem Expr.entity?_of_renamed? {k : Option NamingConvention} {e u : Expr}
    (h : e.renamed? k = some u) : u.entity? = e.entity? := by
  rw [Expr.entity?, Expr.entity?, Expr.type_of_renamed? h]

section

variable (hserver : context.server.truthy = true)

include hserver

set_option linter.unusedSectionVars false in
mutual

theorem Expr.argumentForm_of_renamed? : ∀ (e : Expr) {u : Expr},
    e.renamed? (c.naming scope) = some u →
      e.argumentForm c (context.withSchema scope) = u.argumentForm c (context.plain.withSchema scope)
  | .literal .., u, h => by
    cases h
    rfl
  | .path p type mark, u, h => by
    obtain ⟨q, rfl, hq⟩ := Expr.exists_renamed?_path hserver h
    rw [Expr.argumentForm, hq]
    rfl
  | .call function args type mark, u, h => by
    obtain ⟨us, hus, rfl⟩ := Option.map_eq_some_iff.mp h
    rw [Expr.argumentForm, Expr.argumentForm, Expr.argumentForms_of_renamedAll? args hus]

theorem Expr.argumentForms_of_renamedAll? : ∀ (es : List Expr) {us : List Expr},
    Expr.renamedAll? (c.naming scope) es = some us →
      Expr.argumentForms c (context.withSchema scope) es =
        Expr.argumentForms c (context.plain.withSchema scope) us
  | [], us, h => by
    cases h
    rfl
  | e :: es, us, h => by
    obtain ⟨u, hu, h⟩ := Option.bind_eq_some_iff.mp h
    obtain ⟨us, hus, h⟩ := Option.bind_eq_some_iff.mp h
    cases h
    rw [Expr.argumentForms, Expr.argumentForms, Expr.argumentForm_of_renamed? e hu,
      Expr.argumentForms_of_renamedAll? es hus]

end

/-- An operand is written for the server as the renamed one is written otherwise. -/
theorem Expr.canonical_of_renamed? {e u : Expr} (h : e.renamed? (c.naming scope) = some u) :
    e.canonical c (context.withSchema scope) = u.canonical c (context.plain.withSchema scope) := by
  cases e
  case literal =>
    cases h
    rfl
  case path p type mark =>
    obtain ⟨q, rfl, hq⟩ := Expr.exists_renamed?_path hserver h
    rw [Expr.canonical, hq]
    rfl
  case call function args type mark =>
    obtain ⟨us, hus, rfl⟩ := Option.map_eq_some_iff.mp h
    rw [Expr.canonical, Expr.canonical, Expr.argumentForms_of_renamedAll? hserver args hus]

theorem Expr.canonicalRight_of_renamed? {e u : Expr} (h : e.renamed? (c.naming scope) = some u) :
    e.canonicalRight c (context.withSchema scope) = u.canonicalRight c (context.plain.withSchema scope) := by
  rw [canonicalRight, canonicalRight, Expr.canonical_of_renamed? hserver h]
  cases e
  case literal =>
    cases h
    rfl
  case path p type mark =>
    obtain ⟨q, rfl, -⟩ := Expr.exists_renamed?_path hserver h
    rfl
  case call function args type mark =>
    obtain ⟨us, -, rfl⟩ := Option.map_eq_some_iff.mp h
    rfl

set_option linter.unusedSectionVars false in
mutual

/-- **A condition is written for the server as the renamed one is written otherwise.** -/
theorem Resolved.canonical_of_renamed? : ∀ (t : Resolved) {scope : Option EntityId} {u : Resolved},
    t.renamed? c.naming scope = some u →
      t.canonical c (context.withSchema scope) = u.canonical c (context.plain.withSchema scope)
  | .passthrough _, _, u, h => by
    cases h
    rfl
  | .unary op operand, _, u, h => by
    obtain ⟨v, hv, rfl⟩ := Option.map_eq_some_iff.mp h
    rw [Resolved.canonical, Resolved.canonical, Resolved.canonical_of_renamed? operand hv]
  | .logical op children, _, u, h => by
    obtain ⟨vs, hvs, rfl⟩ := Option.map_eq_some_iff.mp h
    rw [Resolved.canonical, Resolved.canonical, Resolved.canonicalAll_of_renamedAll? children hvs]
  | .comparison op left right, scope, u, h => by
    obtain ⟨l, hl, h⟩ := Option.bind_eq_some_iff.mp h
    obtain ⟨r, hr, h⟩ := Option.bind_eq_some_iff.mp h
    cases h
    rw [Resolved.canonical, Resolved.canonical, Expr.canonical_of_renamed? hserver hl,
      Expr.canonicalRight_of_renamed? hserver hr]
  | .quantified op collection body, scope, u, h => by
    obtain ⟨e, he, h⟩ := Option.bind_eq_some_iff.mp h
    obtain ⟨v, hv, h⟩ := Option.bind_eq_some_iff.mp h
    cases h
    have hbody : body.canonical c (context.withSchema collection.entity?) =
        v.canonical c (context.plain.withSchema e.entity?) := by
      rw [Expr.entity?_of_renamed? he]
      exact Resolved.canonical_of_renamed? body hv
    rw [Resolved.canonical, Resolved.canonical, Expr.canonical_of_renamed? hserver he]
    simp only [Context.withSchema] at hbody ⊢
    rw [hbody]

theorem Resolved.canonicalAll_of_renamedAll? : ∀ (ts : List Resolved) {scope : Option EntityId}
    {us : List Resolved}, Resolved.renamedAll? c.naming scope ts = some us →
      Resolved.canonicalAll c (context.withSchema scope) ts =
        Resolved.canonicalAll c (context.plain.withSchema scope) us
  | [], _, us, h => by
    cases h
    rfl
  | t :: ts, _, us, h => by
    obtain ⟨v, hv, h⟩ := Option.bind_eq_some_iff.mp h
    obtain ⟨vs, hvs, h⟩ := Option.bind_eq_some_iff.mp h
    cases h
    rw [Resolved.canonicalAll, Resolved.canonicalAll, Resolved.canonical_of_renamed? t hv,
      Resolved.canonicalAll_of_renamedAll? ts hvs]

end

/-! ### Paths that are no text -/

theorem Expr.exists_renamed?_of_writtenPath {p q : Value} {type : Option TypeRef} {mark : Mark}
    (h : Expr.writtenPath c (context.withSchema scope) p = .ok q) :
    ∃ u, (Expr.path p type mark).renamed? (c.naming scope) = some u := by
  rw [Expr.renamed?_path hserver, h]
  exact ⟨_, rfl⟩

set_option linter.unusedSectionVars false in
mutual

theorem Expr.exists_renamed?_of_argumentForm : ∀ (e : Expr) {v : Value},
    e.argumentForm c (context.withSchema scope) = .ok v → ∃ u, e.renamed? (c.naming scope) = some u
  | .literal .., _, _ => ⟨_, rfl⟩
  | .path .., _, h => Expr.exists_renamed?_of_writtenPath hserver h
  | .call function args type mark, _, h => by
    obtain ⟨vs, hvs, -⟩ := bind_eq_ok_iff.mp h
    obtain ⟨us, hus⟩ := Expr.exists_renamedAll?_of_argumentForms args hvs
    exact ⟨_, congrArg (Option.map _) hus⟩

theorem Expr.exists_renamedAll?_of_argumentForms : ∀ (es : List Expr) {vs : List Value},
    Expr.argumentForms c (context.withSchema scope) es = .ok vs →
      ∃ us, Expr.renamedAll? (c.naming scope) es = some us
  | [], _, _ => ⟨_, rfl⟩
  | e :: es, _, h => by
    obtain ⟨v, hv, h⟩ := bind_eq_ok_iff.mp h
    obtain ⟨vs, hvs, -⟩ := bind_eq_ok_iff.mp h
    obtain ⟨u, hu⟩ := Expr.exists_renamed?_of_argumentForm e hv
    obtain ⟨us, hus⟩ := Expr.exists_renamedAll?_of_argumentForms es hvs
    exact ⟨u :: us, by rw [Expr.renamedAll?, hu, hus]; rfl⟩

end

theorem Expr.exists_renamed?_of_canonical {e : Expr} {v : Value}
    (h : e.canonical c (context.withSchema scope) = .ok v) :
    ∃ u, e.renamed? (c.naming scope) = some u := by
  cases e
  case literal => exact ⟨_, rfl⟩
  case path => exact Expr.exists_renamed?_of_writtenPath hserver h
  case call function args type mark =>
    obtain ⟨vs, hvs, -⟩ := bind_eq_ok_iff.mp h
    obtain ⟨us, hus⟩ := Expr.exists_renamedAll?_of_argumentForms hserver args hvs
    exact ⟨_, congrArg (Option.map _) hus⟩

set_option linter.unusedSectionVars false in
mutual

/-- What has a form for the server has a renamed condition. -/
theorem Resolved.exists_renamed?_of_canonical : ∀ (t : Resolved) {scope : Option EntityId}
    {v : Value}, t.canonical c (context.withSchema scope) = .ok v →
      ∃ u, t.renamed? c.naming scope = some u
  | .passthrough _, _, _, _ => ⟨_, rfl⟩
  | .unary op operand, _, _, h => by
    obtain ⟨w, hw, -⟩ := bind_eq_ok_iff.mp h
    obtain ⟨u, hu⟩ := Resolved.exists_renamed?_of_canonical operand hw
    exact ⟨_, congrArg (Option.map _) hu⟩
  | .logical op children, _, _, h => by
    obtain ⟨ws, hws, -⟩ := bind_eq_ok_iff.mp h
    obtain ⟨us, hus⟩ := Resolved.exists_renamedAll?_of_canonicalAll children hws
    exact ⟨_, congrArg (Option.map _) hus⟩
  | .comparison op left right, scope, _, h => by
    obtain ⟨l, hl, h⟩ := bind_eq_ok_iff.mp h
    obtain ⟨r, hr, -⟩ := bind_eq_ok_iff.mp h
    obtain ⟨r', hr', -⟩ := bind_eq_ok_iff.mp hr
    obtain ⟨u, hu⟩ := Expr.exists_renamed?_of_canonical hserver hl
    obtain ⟨w, hw⟩ := Expr.exists_renamed?_of_canonical hserver hr'
    exact ⟨.comparison op u w, by rw [Resolved.renamed?, hu, hw]; rfl⟩
  | .quantified op collection body, scope, _, h => by
    obtain ⟨e, he, h⟩ := bind_eq_ok_iff.mp h
    obtain ⟨w, hw, -⟩ := bind_eq_ok_iff.mp h
    obtain ⟨u, hu⟩ := Expr.exists_renamed?_of_canonical hserver he
    obtain ⟨x, hx⟩ := Resolved.exists_renamed?_of_canonical body hw
    exact ⟨.quantified op u x, by rw [Resolved.renamed?, hu, hx]; rfl⟩

theorem Resolved.exists_renamedAll?_of_canonicalAll : ∀ (ts : List Resolved)
    {scope : Option EntityId} {vs : List Value},
    Resolved.canonicalAll c (context.withSchema scope) ts = .ok vs →
      ∃ us, Resolved.renamedAll? c.naming scope ts = some us
  | [], _, _, _ => ⟨_, rfl⟩
  | t :: ts, _, _, h => by
    obtain ⟨v, hv, h⟩ := bind_eq_ok_iff.mp h
    obtain ⟨vs, hvs, -⟩ := bind_eq_ok_iff.mp h
    obtain ⟨u, hu⟩ := Resolved.exists_renamed?_of_canonical t hv
    obtain ⟨us, hus⟩ := Resolved.exists_renamedAll?_of_canonicalAll ts hvs
    exact ⟨u :: us, by rw [Resolved.renamedAll?, hu, hus]; rfl⟩

end

end

end

/-! ### One convention for all scopes -/

namespace Expr

mutual

/-- All paths in the operand are texts. -/
def HasTextPaths : Expr → Prop
  | literal .. => True
  | path p _ _ => ∃ s, p = .text s
  | call _ args _ _ => AllHaveTextPaths args

/-- All paths in the operands are texts. -/
def AllHaveTextPaths : List Expr → Prop
  | [] => True
  | e :: es => HasTextPaths e ∧ AllHaveTextPaths es

end

section

variable (k : NamingConvention)

mutual

/-- The convention leaves all paths in the operand as they are. -/
def IsKept : Expr → Prop
  | literal .. => True
  | path p _ _ => ∀ s, p.asText? = some s → k.convertPath s = s
  | call _ args _ _ => AreKept args

/-- The convention leaves all paths in the operands as they are. -/
def AreKept : List Expr → Prop
  | [] => True
  | e :: es => IsKept e ∧ AreKept es

end

end

mutual

/-- Where paths are not looked at they stay. -/
theorem renamed?_none : ∀ e : Expr, e.renamed? none = some e
  | literal .. | path .. => by rw [renamed?]
  | call function args type mark => by rw [renamed?, renamedAll?_none args, Option.map_some]

theorem renamedAll?_none : ∀ es : List Expr, renamedAll? none es = some es
  | [] => rfl
  | e :: es => by
    rw [renamedAll?, renamed?_none e, renamedAll?_none es]
    rfl

end

section

variable (k : NamingConvention)

mutual

/-- An operand with texts for paths is renamed to itself exactly when its paths are kept. -/
theorem exists_renamed? : ∀ e : Expr, e.HasTextPaths →
    ∃ u, e.renamed? (some k) = some u ∧ (e = u ↔ e.IsKept k)
  | literal .., _ => ⟨_, rfl, fun _ => trivial, fun _ => rfl⟩
  | path p type mark, ⟨s, hs⟩ => by
    subst hs
    refine ⟨path (.text (k.convertPath s)) type mark, rfl, fun h => ?_, fun h => ?_⟩
    · rintro s' ⟨⟩
      injection h with hp
      injection hp with hs
      exact hs.symm
    · rw [h s rfl]
  | call function args type mark, h => by
    obtain ⟨us, hus, hiff⟩ := exists_renamedAll? args h
    refine ⟨call function us type mark, by rw [renamed?, hus, Option.map_some], ?_⟩
    rw [IsKept, ← hiff]
    exact ⟨fun h => by injection h, fun h => by rw [h]⟩

theorem exists_renamedAll? : ∀ es : List Expr, AllHaveTextPaths es →
    ∃ us, renamedAll? (some k) es = some us ∧ (es = us ↔ AreKept k es)
  | [], _ => ⟨[], rfl, fun _ => trivial, fun _ => rfl⟩
  | e :: es, h => by
    obtain ⟨u, hu, hiff⟩ := exists_renamed? e h.1
    obtain ⟨us, hus, hiffs⟩ := exists_renamedAll? es h.2
    refine ⟨u :: us, by rw [renamedAll?, hu, hus]; rfl, ?_⟩
    rw [AreKept, ← hiff, ← hiffs, List.cons.injEq]

end

end

mutual

theorem isKept_same : ∀ e : Expr, e.IsKept .same
  | literal .. => trivial
  | path .. => fun s _ => NamingConvention.convertPath_same s
  | call _ args _ _ => areKept_same args

theorem areKept_same : ∀ es : List Expr, AreKept .same es
  | [] => trivial
  | e :: es => ⟨isKept_same e, areKept_same es⟩

end

/-- Out of the scopes of the root no path is translated. -/
theorem renamed?_namingAt {c : Catalog} {root : EntityId} {k : NamingConvention}
    {scope : Option EntityId} (hscope : scope ≠ some root) {e : Expr} (he : e.HasTextPaths) :
    e.renamed? (c.namingAt root k scope) = some e := by
  rw [Catalog.namingAt, if_neg hscope]
  rcases scope.bind c.entity? with - | entity
  · exact renamed?_none e
  · obtain ⟨u, hu, hiff⟩ := exists_renamed? .same e he
    rw [Option.map_some, hu, hiff.mpr (isKept_same e)]

/-- The convention of a scope translates an operand like that of the root does in the scopes of the
root, and where nothing is to be translated. -/
theorem exists_renamed?_eq_iff (c : Catalog) (root : EntityId) (k : NamingConvention)
    (scope : Option EntityId) {e : Expr} (he : e.HasTextPaths) :
    ∃ u w, e.renamed? (c.namingAt root k scope) = some u ∧ e.renamed? (some k) = some w ∧
      (u = w ↔ scope = some root ∨ e.IsKept k) := by
  obtain ⟨w, hw, hiff⟩ := exists_renamed? k e he
  by_cases hscope : scope = some root
  · refine ⟨w, w, ?_, hw, fun _ => .inl hscope, fun _ => rfl⟩
    rw [Catalog.namingAt, if_pos hscope, hw]
  · refine ⟨e, w, renamed?_namingAt hscope he, hw, ?_⟩
    rw [hiff, or_iff_right hscope]

end Expr

namespace Resolved

mutual

/-- All paths in the condition are texts. -/
def HasTextPaths : Resolved → Prop
  | passthrough _ => True
  | unary _ operand => HasTextPaths operand
  | logical _ children => AllHaveTextPaths children
  | comparison _ left right => left.HasTextPaths ∧ right.HasTextPaths
  | quantified _ collection body => collection.HasTextPaths ∧ HasTextPaths body

/-- All paths in the conditions are texts. -/
def AllHaveTextPaths : List Resolved → Prop
  | [] => True
  | t :: ts => HasTextPaths t ∧ AllHaveTextPaths ts

end

section

variable (k : NamingConvention) (root : EntityId)

mutual

/-- The convention leaves all paths as they are that stand in another scope than the root. -/
def IsKeptOutside (scope : Option EntityId) : Resolved → Prop
  | passthrough _ => True
  | unary _ operand => IsKeptOutside scope operand
  | logical _ children => AreKeptOutside scope children
  | comparison _ left right => scope = some root ∨ left.IsKept k ∧ right.IsKept k
  | quantified _ collection body =>
    (scope = some root ∨ collection.IsKept k) ∧ IsKeptOutside collection.entity? body

/-- The same for several conditions. -/
def AreKeptOutside (scope : Option EntityId) : List Resolved → Prop
  | [] => True
  | t :: ts => IsKeptOutside scope t ∧ AreKeptOutside scope ts

end

end

section

variable {c : Catalog} {root : EntityId} {k : NamingConvention}

mutual

theorem exists_renamed?_eq_iff : ∀ (t : Resolved) (scope : Option EntityId), t.HasTextPaths →
    ∃ u w, t.renamed? (c.namingAt root k) scope = some u ∧ t.renamed? (fun _ => some k) scope = some w ∧
      (u = w ↔ t.IsKeptOutside k root scope)
  | passthrough _, scope, _ => ⟨_, _, rfl, rfl, fun _ => trivial, fun _ => rfl⟩
  | unary op operand, scope, h => by
    obtain ⟨u, w, hu, hw, hiff⟩ := exists_renamed?_eq_iff operand scope h
    refine ⟨unary op u, unary op w, congrArg (Option.map _) hu, congrArg (Option.map _) hw, ?_⟩
    rw [IsKeptOutside, ← hiff, unary.injEq, and_iff_right rfl]
  | logical op children, scope, h => by
    obtain ⟨us, ws, hus, hws, hiff⟩ := exists_renamedAll?_eq_iff children scope h
    refine ⟨logical op us, logical op ws, congrArg (Option.map _) hus, congrArg (Option.map _) hws, ?_⟩
    rw [IsKeptOutside, ← hiff, logical.injEq, and_iff_right rfl]
  | comparison op left right, scope, h => by
    obtain ⟨l, l', hl, hl', hleft⟩ := Expr.exists_renamed?_eq_iff c root k scope h.1
    obtain ⟨r, r', hr, hr', hright⟩ := Expr.exists_renamed?_eq_iff c root k scope h.2
    refine ⟨comparison op l r, comparison op l' r', by rw [renamed?, hl, hr]; rfl,
      by rw [renamed?, hl', hr']; rfl, ?_⟩
    rw [IsKeptOutside, comparison.injEq, and_iff_right rfl, hleft, hright, or_and_left]
  | quantified op collection body, scope, h => by
    obtain ⟨e, e', he, he', hcollection⟩ := Expr.exists_renamed?_eq_iff c root k scope h.1
    obtain ⟨u, w, hu, hw, hbody⟩ := exists_renamed?_eq_iff body collection.entity? h.2
    refine ⟨quantified op e u, quantified op e' w, by rw [renamed?, he, hu]; rfl,
      by rw [renamed?, he', hw]; rfl, ?_⟩
    rw [IsKeptOutside, quantified.injEq, and_iff_right rfl, hcollection, hbody]

theorem exists_renamedAll?_eq_iff : ∀ (ts : List Resolved) (scope : Option EntityId),
    AllHaveTextPaths ts →
      ∃ us ws, renamedAll? (c.namingAt root k) scope ts = some us ∧
        renamedAll? (fun _ => some k) scope ts = some ws ∧
          (us = ws ↔ AreKeptOutside k root scope ts)
  | [], _, _ => ⟨[], [], rfl, rfl, fun _ => trivial, fun _ => rfl⟩
  | t :: ts, scope, h => by
    obtain ⟨u, w, hu, hw, hiff⟩ := exists_renamed?_eq_iff t scope h.1
    obtain ⟨us, ws, hus, hws, hiffs⟩ := exists_renamedAll?_eq_iff ts scope h.2
    refine ⟨u :: us, w :: ws, by rw [renamedAll?, hu, hus]; rfl, by rw [renamedAll?, hw, hws]; rfl, ?_⟩
    rw [AreKeptOutside, List.cons.injEq, hiff, hiffs]

end

/-- **The convention of the root is that of all scopes** exactly when it leaves all paths in other
scopes as they are. -/
theorem renamed?_eq_iff (t : Resolved) (scope : Option EntityId) (h : t.HasTextPaths) :
    t.renamed? (c.namingAt root k) scope = t.renamed? (fun _ => some k) scope ↔
      t.IsKeptOutside k root scope := by
  obtain ⟨u, w, hu, hw, hiff⟩ := @exists_renamed?_eq_iff c root k t scope h
  rw [hu, hw, Option.some.injEq, hiff]

end

end Resolved

/-! ### Predicates -/

section

variable {c : Catalog} {source : ContextSource} {context : Context} {p : Predicate} {notes : Notes}
  {t : Resolved}

/-- What writing a predicate comes to that is ready for use. -/
theorem Predicate.Ready.outcome_toCanonical (hp : p.IsPlain)
    (h : p.Ready c context.schema notes t) (hsource : Context.ofSource source = .ok context) :
    (outcome ((Node.predicate p).toCanonical c source) notes).1 = t.canonical c context := by
  obtain ⟨notes', hvalidate, hready⟩ := h.validate hp
  have htell : outcome ((Node.predicate p).tellArguments c) notes' = (.ok (), notes') := rfl
  have hform : p.canonical c notes' context = t.canonical c context :=
    Predicate.canonical_of_resolvedIn c notes' context p hready.held.resolvedIn
  rw [Node.toCanonical, Node.inContext, hsource, outcome_bind_of_ok (outcome_lift _),
    outcome_bind_of_ok hvalidate, outcome_bind_of_ok htell, outcome_bind_of_ok outcome_get,
    outcome_lift]
  exact hform

/-- The form of a filter, from its shape and the operands in it. -/
theorem Filter.canonical_eq {f v : Value} {b : Builder} {s : Condition} (hf : f.IsPlain)
    (hblank : notes.Blank b.next) (hshape : shape f = .ok s)
    (hsource : Context.ofSource source = .ok context) (ht : s.resolve c context.schema = .ok t)
    (hv : t.canonical c context = .ok v) : canonical c source f b notes = .ok v := by
  have hform : EndAlike Eq Eq (canonical c source f b notes)
      (do Predicate.formOf c source (← shape f)) := endAlike_canonical hf hblank
  rw [hshape, ok_bind, Predicate.formOf, hsource, ok_bind, ht, ok_bind, hv] at hform
  generalize canonical c source f b notes = form at hform ⊢
  cases hform with
  | ok hsame => exact congrArg Except.ok hsame

/-- The context of a schema in which paths are written with the names of the server. -/
def ContextSource.server (root : EntityId) : ContextSource :=
  .ready { schema := some root, server := .bool true }

/-- **What the names of the server change.** A filter is read, and validated against a schema of which
only the root has a convention. Its form with the names of the server is the plain form of the
condition in which the paths that stand in scopes of the root are translated, segment by segment, by
that convention, and all other paths are left as they are; there is no such form when a path in the
scope of an entity type is no text. This is the condition in which all paths are translated exactly
when the convention leaves those as they are that stand in the bodies of quantifiers over other entity
types than the root. -/
theorem Predicate.server_form {root : EntityId} {e : EntityType} {f : Value} {b b₁ : Builder}
    {notes₁ : Notes} (hloaded : c.IsLoaded root) (he : c.entity? root = some e) (hf : f.IsPlain)
    (hread : outcome (Filter.readArguments [f]) b = (.ok (some p), b₁)) (hblank : notes.Blank b.next)
    (hvalidate : outcome ((Node.predicate p).validate c (some root)) notes = (.ok (), notes₁)) :
    ∃ t, p.condition.resolve c (some root) = .ok t ∧
      (outcome ((Node.predicate p).toCanonical c (.entity root)) notes₁).1 =
        t.canonical c { schema := some root } ∧
      (∀ v, (outcome ((Node.predicate p).toCanonical c (.server root)) notes₁).1 = .ok v ↔
        ∃ u, t.renamed? (c.namingAt root e.convention) (some root) = some u ∧
          u.canonical c { schema := some root } = .ok v) ∧
      (t.HasTextPaths →
        (t.renamed? (c.namingAt root e.convention) (some root) =
            t.renamed? (fun _ => some e.convention) (some root) ↔
          t.IsKeptOutside e.convention root (some root))) := by
  obtain ⟨hp, -, t, hready, -⟩ :=
    Predicate.ready_of_read Filter.hereditary_isPlain (fun _ h => h) hf hread hblank hvalidate
  let context : Context := { server := .bool true }
  have hserver : context.server.truthy = true := rfl
  have hplain : Context.ofSource (.entity root) = .ok { schema := some root } := rfl
  have hsource : Context.ofSource (.server root) = .ok (context.withSchema (some root)) := rfl
  have hform : (outcome ((Node.predicate p).toCanonical c (.server root)) notes₁).1 =
      t.canonical c (context.withSchema (some root)) :=
    Predicate.Ready.outcome_toCanonical hp.isPlain hready hsource
  refine ⟨t, hready.resolve, Predicate.Ready.outcome_toCanonical hp.isPlain hready hplain,
    fun v => ?_, Resolved.renamed?_eq_iff t (some root)⟩
  rw [← hloaded.conventionOnlyAt.naming he, hform]
  constructor
  · intro hv
    obtain ⟨u, hu⟩ := Resolved.exists_renamed?_of_canonical hserver t hv
    exact ⟨u, hu, (Resolved.canonical_of_renamed? hserver t hu).symm.trans hv⟩
  · rintro ⟨u, hu, hv⟩
    exact (Resolved.canonical_of_renamed? hserver t hu).trans hv

/-- A quantifier over entities of the root: the paths in its body are translated as well. -/
theorem Predicate.server_form_of_back_reference :
    let d : Value := .map [(.text "name", .text "Order"),
      (.text "namingConvention", .text "camel_case"),
      (.text "properties", .map [(.text "code", .text "Int32"),
        (.text "parts", .map [(.text "navigation", .text "Order")])])]
    let c : Catalog := [⟨.text "Order", [⟨"code", .data .int32⟩, ⟨"parts", .navigation 0 false⟩], false,
      none, .capitalized⟩]
    let f : Value := .map [(.text "parts", .map [(.text "any", .map [(.text "code", .int 5)])])]
    let p : Predicate := .quantified 1 ⟨.text "any", ["some"], false⟩ (.text "parts")
      (some (.comparison 0 ⟨.text "eq", ["==", "=", "equals"], false⟩ (.text "code") (.int 5)))
    Document.read [] d = .ok (0, c) ∧ outcome (Filter.readArguments [f]) {} = (.ok (some p), ⟨2, []⟩) ∧
      ∃ notes₁, outcome ((Node.predicate p).validate c (some 0)) [] = (.ok (), notes₁) ∧
        (outcome ((Node.predicate p).toCanonical c (.server 0)) notes₁).1 =
          .ok (.map [(.text "Parts", .map [(.text "any", .map [(.text "Code", .int 5)])])]) := by
  intro d c f p
  have hdocument : Document.read [] d = .ok (0, c) := by rfl
  have hread : outcome (Filter.readArguments [f]) {} = (.ok (some p), ⟨2, []⟩) := by rfl
  have hroot : Document.DeclaresAtRoot d := by
    show True ∧ True ∧ True
    exact ⟨trivial, trivial, trivial⟩
  have hf : f.IsPlain := by
    simp [f, Value.IsPlain, Value.PlainEntries, Value.isKey]
  have hp : p.IsPlain := by
    simp [p, Predicate.IsPlain, Predicate.PlainOption, Operator.IsPlain, Value.isPlain_int]
  let t : Resolved := .quantified ⟨.text "any", ["some"], false⟩
    (.path (.text "parts") (some (.entity 0)) (Mark.after (some 0) {}))
    (.comparison ⟨.text "eq", ["==", "=", "equals"], false⟩
      (.path (.text "code") (some (.data .int32)) (Mark.after (some 0) {}))
      (.literal (.int 5) (some (.data .int32)) false {}))
  have ht : p.condition.resolve c (some 0) = .ok t := by cbv
  obtain ⟨notes₁, hvalidate, -⟩ := Predicate.validate_of_resolve [] hp
    (by simp [p, Predicate.labels, Predicate.labelsOf]) (fun _ _ => Note.unmarked_default) ht
  obtain ⟨t', ht', -, hserver, -⟩ := Predicate.server_form (.document hroot hdocument) rfl hf hread
    (fun _ _ => rfl) hvalidate
  cases ht.symm.trans ht'
  exact ⟨hdocument, hread, notes₁, hvalidate, (hserver _).mpr ⟨_, rfl, rfl⟩⟩

/-- **The body of a quantifier over another entity type is not translated**: the price of an
order line is `Price` for the server at the end of a path, and not so in the body of a
quantifier. -/
theorem Predicate.untranslated_body :
    let d : Value := .map [(.text "name", .text "Order"),
      (.text "namingConvention", .text "camel_case"),
      (.text "properties", .map [(.text "lines", .map [(.text "navigation",
        .map [(.text "name", .text "Line"),
          (.text "properties", .map [(.text "price", .text "Int32")])])])])]
    let c : Catalog := [⟨.text "Order", [⟨"lines", .navigation 1 false⟩], false, none,
        .capitalized⟩,
      ⟨.text "Line", [⟨"price", .data .int32⟩], false, none, .same⟩]
    let line (path : Text) : Value := .map [(.text path, .int 5)]
    let f : Value := .map [(.text "lines", .map [(.text "any", line "price")])]
    Document.read [] d = .ok (0, c) ∧
      Filter.canonical c (.server 0) (line "lines.price") {} [] =
        .ok (line "Lines.Price") ∧
      Filter.canonical c (.server 0) f {} [] =
        .ok (.map [(.text "Lines", .map [(.text "any", line "price")])]) := by
  intro d c line f
  let eq : Operator := ⟨.text "eq", ["==", "=", "equals"], false⟩
  let any : Operator := ⟨.text "any", ["some"], false⟩
  let comparison (path : Text) (scope : EntityId) : Resolved :=
    .comparison eq (.path (.text path) (some (.data .int32)) (Mark.after (some scope) {}))
      (.literal (.int 5) (some (.data .int32)) false {})
  have hline : ∀ path : Text, (line path).IsPlain := fun path => by
    simp [line, Value.IsPlain, Value.PlainEntries, Value.isKey]
  have hf : f.IsPlain := by
    simp [f, line, Value.IsPlain, Value.PlainEntries, Value.isKey]
  have hblank : Notes.Blank [] 0 := fun _ _ => rfl
  let dotted : Condition := .comparison eq (.text "lines.price") (.int 5)
  let quantified : Condition :=
    .quantified any (.text "lines") (.comparison eq (.text "price") (.int 5))
  have hdotted : Filter.shape (line "lines.price") = .ok dotted := by rfl
  have hquantified : Filter.shape f = .ok quantified := by rfl
  have hdotted' : dotted.resolve c (some 0) = .ok (comparison "lines.price" 0) := by cbv
  have hquantified' : quantified.resolve c (some 0) =
      .ok (.quantified any (.path (.text "lines") (some (.entity 1)) (Mark.after (some 0) {}))
        (comparison "price" 1)) := by rfl
  refine ⟨by rfl, ?_, ?_⟩
  · exact Filter.canonical_eq (hline _) hblank hdotted rfl hdotted' (by cbv)
  · exact Filter.canonical_eq hf hblank hquantified rfl hquantified' (by cbv)

end

end RecordFilter
