import RecordFilter.Proofs.Predicate.Schemaless
import RecordFilter.Proofs.Schema.Policies
import RecordFilter.Proofs.Value.Policies

/-!
# Where policies come from

A comparison looks its policy up in its scope: the context may give one, the entity type in scope may
say one, and else there is a default (`PolicySources`). The comparisons of a node, each with its scope
(`Node.comparisons`), are all of the node that looks policies up. If none of them is told apart by two
sources of policies, the node is compiled to the same function (`Node.function_eq`), which takes the
texts of the same nodes (`Node.told_eq`), so programs of the node run alike, whatever happens to nodes
in between (`PolicySources.sameRuns_program`). Policies are not looked up before that, so validating and
compiling the node come to the same as well (`Node.compile_of_isSame`).
-/

namespace RecordFilter

/-! ### Sources of policies -/

/-- Where policies for comparing texts come from. -/
structure PolicySources where
  /-- What the context gives, whatever the entity types say. -/
  given : Option TextPolicy
  catalog : Catalog
  /-- What is used when neither the context nor the entity type in scope says anything. -/
  default : Except Fault TextPolicy

namespace PolicySources

/-- The policy for comparing texts in a scope. -/
def policy (s : PolicySources) (scope : Option EntityId) : Except Fault TextPolicy :=
  Predicate.policyOf s.catalog s.default { schema := scope, policy := s.given }

/-- The context with the policy that is given. -/
def under (s : PolicySources) (context : Context) : Context :=
  { context with policy := s.given }

/-- The program of a node in a context. -/
def program (s : PolicySources) (n : Node) (context : Context) (notes : Notes) : Program :=
  { node := n, context := s.under context, catalog := s.catalog, notes, default := s.default }

theorem policy_of_given {s : PolicySources} {o : TextPolicy} (h : s.given = some o)
    (scope : Option EntityId) : s.policy scope = .ok o := by
  rw [policy, Predicate.policyOf, h]

end PolicySources

/-! ### Comparisons in their scopes -/

/-- A comparison of a node: the scope that it stands in, what its operator stands for, if anything, and
the type that it compares by, if its operands are known. -/
structure ScopedComparison where
  scope : Option EntityId
  comparison : Option Comparison
  type : Option (Option TypeRef)
deriving DecidableEq

namespace ScopedComparison

/-- The test of values that the comparison makes under a policy. -/
def test (x : ScopedComparison) (policy : TextPolicy) :
    Option (Value → Value → Except Fault Bool) := do
  return (← x.comparison).holds (← x.type) policy

/-- What two policies must have in common for the comparison to be the same. -/
def IsSameUnder (x : ScopedComparison) (q o : TextPolicy) : Prop :=
  ∀ k type, x.comparison = some k → x.type = some type → k.IsSameUnder type q o

theorem test_eq_iff {x : ScopedComparison} {q o : TextPolicy} :
    x.test q = x.test o ↔ x.IsSameUnder q o := by
  rcases x with ⟨scope, - | k, - | type⟩
  · exact iff_of_true rfl fun _ _ hk => by cases hk
  · exact iff_of_true rfl fun _ _ hk => by cases hk
  · exact iff_of_true rfl fun _ _ _ htype => by cases htype
  · have hholds : k.holds type q = k.holds type o ↔ k.IsSameUnder type q o := by
      rw [← Comparison.holds_eq_iff, funext_iff]
      simp only [funext_iff]
    constructor
    · rintro h _ _ ⟨⟩ ⟨⟩
      exact hholds.mp (Option.some.inj h)
    · exact fun h => congrArg some (hholds.mpr (h k type rfl rfl))

/-- The comparison is the same, whichever of two sources its policy comes from. -/
def IsSame (x : ScopedComparison) (s s' : PolicySources) : Prop :=
  ∃ q o, s.policy x.scope = .ok q ∧ s'.policy x.scope = .ok o ∧ x.IsSameUnder q o

/-- The comparison is one for equality or order of values of a type that compares by value. -/
def IsByValue (x : ScopedComparison) : Prop :=
  ∃ k t, x.comparison = some k ∧ (k = .eq ∨ k = .ne ∨ ∃ r, k = .order r) ∧
    x.type = some (some (.data t)) ∧ t.isByValue

theorem IsByValue.isSameUnder {x : ScopedComparison} (h : x.IsByValue) (q o : TextPolicy) :
    x.IsSameUnder q o := by
  obtain ⟨k, t, hk, hkind, ht, hvalue⟩ := h
  intro k' type hk' htype
  cases hk.symm.trans hk'
  cases ht.symm.trans htype
  rcases hkind with rfl | rfl | ⟨r, rfl⟩
  · exact .inl hvalue
  · exact .inl hvalue
  · exact trivial

end ScopedComparison

section

variable (notes : Notes)

mutual

/-- The comparisons of a predicate in a scope. The scope of the body of a quantifier is the entity type
of the collection. -/
def Predicate.comparisons (scope : Option EntityId) : Predicate → List ScopedComparison
  | .passthrough .. => []
  | .unary _ _ operand => Predicate.comparisonsOf scope operand
  | .logical _ _ children => Predicate.comparisonsAll scope children
  | .comparison id op _ _ =>
    [⟨scope, Comparison.ofOperator? op,
      (Predicate.comparedType (notes.note id).left (notes.note id).right).toOption⟩]
  | .quantified id _ _ body =>
    Predicate.comparisonsOf ((notes.note id).collection.bind Expr.entity?) body
  | .bare n => Node.comparisons scope n
termination_by structural p => p

/-- The comparisons of a predicate that may be absent. -/
def Predicate.comparisonsOf (scope : Option EntityId) : Option Predicate → List ScopedComparison
  | none => []
  | some p => Predicate.comparisons scope p
termination_by structural p => p

/-- The comparisons of several predicates. -/
def Predicate.comparisonsAll (scope : Option EntityId) :
    List (Option Predicate) → List ScopedComparison
  | [] => []
  | p :: ps => Predicate.comparisonsOf scope p ++ Predicate.comparisonsAll scope ps
termination_by structural ps => ps

/-- The comparisons of a node. -/
def Node.comparisons (scope : Option EntityId) : Node → List ScopedComparison
  | .predicate p => Predicate.comparisons scope p
  | .expr _ => []
  | .call _ _ args => Node.comparisonsAll scope args
termination_by structural n => n

/-- The comparisons of several nodes. -/
def Node.comparisonsAll (scope : Option EntityId) : List (Option Node) → List ScopedComparison
  | [] => []
  | none :: ns => Node.comparisonsAll scope ns
  | some n :: ns => Node.comparisons scope n ++ Node.comparisonsAll scope ns
termination_by structural ns => ns

end

end

/-! ### Functions -/

/-- Only known operators stand for comparisons. -/
theorem Comparison.ofOperator?_of_ofOperator {op : Operator} {k : Comparison}
    (h : ofOperator op = .ok k) : ofOperator? op = some k := by
  unfold ofOperator at h
  split at h
  · rename_i hk
    cases h
    exact hk
  · split at h
    · obtain ⟨_, -, h⟩ := bind_eq_ok_iff.mp h
      cases h
    · cases h

section

variable {s s' : PolicySources}

/-- Operands are compiled without regard to policies. -/
theorem Expr.compile_under (s s' : PolicySources) (context : Context) (e : Expr) :
    e.compile (s.under context) = e.compile (s'.under context) := by
  have haccessor : (s.under context).accessor = (s'.under context).accessor := rfl
  exact Expr.compile_congr haccessor e

theorem Expr.compileFound_under (s s' : PolicySources) (context : Context) (e : Option Expr) :
    Expr.compileFound (s.under context) e = Expr.compileFound (s'.under context) e := by
  cases e with
  | none => rfl
  | some e => exact Expr.compile_under s s' context e

theorem Predicate.compileComparison_eq {context : Context} {op : Operator} {left right : Option Expr}
    (h : ScopedComparison.IsSame
      ⟨context.schema, Comparison.ofOperator? op, (comparedType left right).toOption⟩ s s') :
    compileComparison s.catalog s.default (s.under context) op left right =
      compileComparison s'.catalog s'.default (s'.under context) op left right := by
  obtain ⟨q, o, hq, ho, hsame⟩ := h
  have hq : policyOf s.catalog s.default (s.under context) = .ok q := hq
  have ho : policyOf s'.catalog s'.default (s'.under context) = .ok o := ho
  rw [compileComparison, compileComparison, hq, ho, Expr.compileFound_under s s' context left,
    Expr.compileFound_under s s' context right]
  rcases htype : comparedType left right with f | type
  · rw [error_bind, error_bind]
  · rcases hk : Comparison.ofOperator op with f | k
    · simp only [ok_bind, error_bind]
    · -- only here do the two policies meet the values
      have hholds := (Comparison.holds_eq_iff k).mpr
        (hsame k type (Comparison.ofOperator?_of_ofOperator hk) (congrArg Except.toOption htype))
      simp only [ok_bind, hholds]

section

variable (notes : Notes)

mutual

/-- **A predicate whose comparisons are the same is compiled to the same function.** -/
theorem Predicate.compile_eq : ∀ (p : Predicate) (context : Context),
    (∀ x ∈ p.comparisons notes context.schema, x.IsSame s s') →
      p.compile s.catalog notes s.default (s.under context) =
        p.compile s'.catalog notes s'.default (s'.under context)
  | .passthrough .., _, _ => rfl
  | .unary _ op operand, context, h => by
    rw [Predicate.compile, Predicate.compile, Predicate.compilePresent_eq operand context h]
  | .logical _ op children, context, h => by
    rw [Predicate.compile, Predicate.compile, Predicate.compileAll_eq children context h]
  | .comparison id op _ _, context, h =>
    Predicate.compileComparison_eq (h _ List.mem_cons_self)
  | .quantified id op _ body, context, h => by
    have hbody := Predicate.compilePresent_eq body
      (context.withSchema ((notes.note id).collection.bind Expr.entity?)) h
    rw [Predicate.compile, Predicate.compile, Expr.compileFound_under s s' context]
    exact congrArg _ (funext fun _ => congrArg (· >>= _) hbody)
  | .bare n, context, h => by
    rw [Predicate.compile, Predicate.compile, Node.function_eq n context h]

theorem Predicate.compilePresent_eq : ∀ (p : Option Predicate) (context : Context),
    (∀ x ∈ Predicate.comparisonsOf notes context.schema p, x.IsSame s s') →
      Predicate.compilePresent s.catalog notes s.default (s.under context) p =
        Predicate.compilePresent s'.catalog notes s'.default (s'.under context) p
  | none, _, _ => rfl
  | some p, context, h => Predicate.compile_eq p context h

theorem Predicate.compileAll_eq : ∀ (ps : List (Option Predicate)) (context : Context),
    (∀ x ∈ Predicate.comparisonsAll notes context.schema ps, x.IsSame s s') →
      Predicate.compileAll s.catalog notes s.default (s.under context) ps =
        Predicate.compileAll s'.catalog notes s'.default (s'.under context) ps
  | [], _, _ => rfl
  | p :: ps, context, h => by
    obtain ⟨hp, hps⟩ := List.forall_mem_append.mp h
    rw [Predicate.compileAll, Predicate.compileAll, Predicate.compilePresent_eq p context hp,
      Predicate.compileAll_eq ps context hps]

/-- **A node whose comparisons are the same has the same function.** -/
theorem Node.function_eq : ∀ (n : Node) (context : Context),
    (∀ x ∈ n.comparisons notes context.schema, x.IsSame s s') →
      n.function s.catalog notes s.default (s.under context) =
        n.function s'.catalog notes s'.default (s'.under context)
  | .predicate p, context, h => by
    rw [Node.function, Node.function, Predicate.compile_eq p context h]
  | .expr e, context, _ => Expr.compile_under s s' context (e.current notes)
  | .call _ function args, context, h => by
    rw [Node.function, Node.function, Node.functions_eq args context h]

theorem Node.functions_eq : ∀ (ns : List (Option Node)) (context : Context),
    (∀ x ∈ Node.comparisonsAll notes context.schema ns, x.IsSame s s') →
      Node.functions s.catalog notes s.default (s.under context) ns =
        Node.functions s'.catalog notes s'.default (s'.under context) ns
  | [], _, _ => rfl
  | none :: _, _, _ => rfl
  | some n :: ns, context, h => by
    obtain ⟨hn, hns⟩ := List.forall_mem_append.mp h
    rw [Node.functions, Node.functions, Node.function_eq n context hn,
      Node.functions_eq ns context hns]

end

end

/-! ### Texts that are taken -/

theorem Expr.valueOn_under (s s' : PolicySources) (context : Context) (record : Value) :
    Expr.valueOn (s.under context) record = Expr.valueOn (s'.under context) record := by
  funext e
  rw [Expr.valueOn, Expr.valueOn, Expr.compile_under s s' context e]

mutual

theorem Expr.told_under (s s' : PolicySources) (context : Context) (record : Value) : ∀ e : Expr,
    e.told (s.under context) record = e.told (s'.under context) record
  | .literal .. | .path .. => rfl
  | .call function args _ _ => by
    rw [Expr.told, Expr.told, Expr.toldAll_under s s' context record args,
      Expr.valueOn_under s s' context record]

theorem Expr.toldAll_under (s s' : PolicySources) (context : Context) (record : Value) :
    ∀ es : List Expr,
      Expr.toldAll (s.under context) record es = Expr.toldAll (s'.under context) record es
  | [] => rfl
  | e :: es => by
    rw [Expr.toldAll, Expr.toldAll, Expr.told_under s s' context record e,
      Expr.toldAll_under s s' context record es, Expr.valueOn_under s s' context record]

end

theorem Predicate.comparisonTold_under (s s' : PolicySources) (context : Context) (record : Value)
    (op : Operator) (left right : Expr) :
    comparisonTold (s.under context) record op left right =
      comparisonTold (s'.under context) record op left right := by
  simp only [comparisonTold, Expr.told_under s s' context record, Expr.valueOn_under s s' context record]

section

variable (notes : Notes)

theorem Predicate.testOn_eq (p : Option Predicate) (context : Context)
    (h : ∀ x ∈ Predicate.comparisonsOf notes context.schema p, x.IsSame s s') (record : Value) :
    Predicate.testOn s.catalog notes s.default (s.under context) record p =
      Predicate.testOn s'.catalog notes s'.default (s'.under context) record p := by
  rw [Predicate.testOn, Predicate.testOn, Predicate.compilePresent_eq notes p context h]

theorem Node.valueOn_eq (n : Node) (context : Context)
    (h : ∀ x ∈ n.comparisons notes context.schema, x.IsSame s s') (record : Value) :
    Node.valueOn s.catalog notes s.default (s.under context) record (some n) =
      Node.valueOn s'.catalog notes s'.default (s'.under context) record (some n) := by
  rw [Node.valueOn, Node.valueOn, Node.function_eq notes n context h]

theorem Node.valuesOn_eq (context : Context) (record : Value) : ∀ ns : List (Option Node),
    (∀ x ∈ Node.comparisonsAll notes context.schema ns, x.IsSame s s') →
      ns.mapM (Node.valueOn s.catalog notes s.default (s.under context) record) =
        ns.mapM (Node.valueOn s'.catalog notes s'.default (s'.under context) record)
  | [], _ => rfl
  | none :: _, _ => rfl
  | some n :: ns, h => by
    obtain ⟨hn, hns⟩ := List.forall_mem_append.mp h
    rw [List.mapM_cons, List.mapM_cons, Node.valueOn_eq notes n context hn record,
      Node.valuesOn_eq context record ns hns]

mutual

/-- **A predicate whose comparisons are the same takes the texts of the same nodes.** -/
theorem Predicate.told_eq : ∀ (p : Predicate) (context : Context) (record : Value),
    (∀ x ∈ p.comparisons notes context.schema, x.IsSame s s') →
      p.told s.catalog notes s.default (s.under context) record =
        p.told s'.catalog notes s'.default (s'.under context) record
  | .passthrough .., _, _, _ => rfl
  | .unary _ op operand, context, record, h => by
    rw [Predicate.told, Predicate.told, Predicate.toldPresent_eq operand context record h]
  | .logical _ op children, context, record, h => by
    rw [Predicate.told, Predicate.told]
    rcases Predicate.logicalExtent op with f | extent
    · rfl
    · exact Predicate.toldAll_eq extent children context record h
  | .comparison id op _ _, context, record, h => by
    rw [Predicate.told, Predicate.told]
    rcases (notes.note id).left with - | left
    · rfl
    · rcases (notes.note id).right with - | right
      · rfl
      · exact Predicate.comparisonTold_under s s' context record op left right
  | .quantified id op _ body, context, record, h => by
    rw [Predicate.told, Predicate.told]
    rw [Predicate.comparisons] at h
    rcases hcollection : (notes.note id).collection with - | e
    · rfl
    · rw [hcollection] at h
      rcases Predicate.quantifiedExtent op with f | extent
      · rfl
      · -- every element is looked at in the scope of the body
        have htold := funext fun v => Predicate.toldPresent_eq body (context.withSchema e.entity?) v h
        have htest := funext (Predicate.testOn_eq notes body (context.withSchema e.entity?) h)
        dsimp only
        rw [Expr.told_under s s' context record, Expr.valueOn_under s s' context record]
        refine congrArg (Expr.told (s'.under context) record e ++ ·) ?_
        rcases ((e.valueOn (s'.under context) record).bind Value.elements) with f | vs
        · rfl
        · exact congrArg₂ (fun nodes test => extent.told nodes test vs) htold htest
  | .bare n, context, record, h => by
    rw [Predicate.told, Predicate.told, Node.told_eq n context record h]

theorem Predicate.toldPresent_eq : ∀ (p : Option Predicate) (context : Context) (record : Value),
    (∀ x ∈ Predicate.comparisonsOf notes context.schema p, x.IsSame s s') →
      Predicate.toldPresent s.catalog notes s.default (s.under context) record p =
        Predicate.toldPresent s'.catalog notes s'.default (s'.under context) record p
  | none, _, _, _ => rfl
  | some p, context, record, h => Predicate.told_eq p context record h

theorem Predicate.toldAll_eq (extent : Predicate.Extent) :
    ∀ (ps : List (Option Predicate)) (context : Context) (record : Value),
      (∀ x ∈ Predicate.comparisonsAll notes context.schema ps, x.IsSame s s') →
        Predicate.toldAll s.catalog notes s.default extent (s.under context) record ps =
          Predicate.toldAll s'.catalog notes s'.default extent (s'.under context) record ps
  | [], _, _, _ => rfl
  | p :: ps, context, record, h => by
    obtain ⟨hp, hps⟩ := List.forall_mem_append.mp h
    rw [Predicate.toldAll, Predicate.toldAll, Predicate.toldPresent_eq p context record hp,
      Predicate.testOn_eq notes p context hp record, Predicate.toldAll_eq extent ps context record hps]

/-- **A node whose comparisons are the same takes the texts of the same nodes.** -/
theorem Node.told_eq : ∀ (n : Node) (context : Context) (record : Value),
    (∀ x ∈ n.comparisons notes context.schema, x.IsSame s s') →
      n.told s.catalog notes s.default (s.under context) record =
        n.told s'.catalog notes s'.default (s'.under context) record
  | .predicate p, context, record, h => Predicate.told_eq p context record h
  | .expr e, context, record, _ => Expr.told_under s s' context record (e.current notes)
  | .call _ function args, context, record, h => by
    rw [Node.told, Node.told, Node.toldAll_eq args context record h,
      Node.valuesOn_eq notes context record args h]

theorem Node.toldAll_eq : ∀ (ns : List (Option Node)) (context : Context) (record : Value),
    (∀ x ∈ Node.comparisonsAll notes context.schema ns, x.IsSame s s') →
      Node.toldAll s.catalog notes s.default (s.under context) record ns =
        Node.toldAll s'.catalog notes s'.default (s'.under context) record ns
  | [], _, _, _ => rfl
  | none :: _, _, _, _ => rfl
  | some n :: ns, context, record, h => by
    obtain ⟨hn, hns⟩ := List.forall_mem_append.mp h
    rw [Node.toldAll, Node.toldAll, Node.told_eq n context record hn,
      Node.valueOn_eq notes n context hn record, Node.toldAll_eq ns context record hns]

end

end

/-! ### Values that are brought up to date -/

section

variable (c : Catalog) (current notes : Notes)

theorem Value.asText?_refreshed (v : Value) : (v.refreshed c current).asText? = v.asText? := by
  cases v <;> rfl

theorem Comparison.ofOperator?_refreshed (op : Operator) :
    ofOperator? (op.refreshed c current) = ofOperator? op := by
  obtain ⟨key, aliases, isFunction⟩ := op
  rw [Operator.refreshed, ofOperator?, ofOperator?, Value.asText?_refreshed]

theorem Expr.type_refreshed (e : Expr) : (e.refreshed c current).type = e.type := by
  cases e <;> rfl

theorem Predicate.comparedType_refreshed (left right : Option Expr) :
    comparedType (left.map (Expr.refreshed c current)) (right.map (Expr.refreshed c current)) =
      comparedType left right := by
  rcases left with - | l
  · rfl
  · simp only [comparedType, Option.map_some, Expr.type_refreshed]
    rcases right with - | r
    · rfl
    · simp only [Option.map_some, Expr.type_refreshed]

theorem Notes.note_shownBy_eq (id : Label) : (current.shownBy c notes).note id =
    (notes.note id).mapOperands (Expr.refreshed c current) :=
  Notes.note_map (Note.mapOperands (Expr.refreshed c current)) notes id rfl

theorem Option.bind_entity?_refreshed (e : Option Expr) :
    (e.map (Expr.refreshed c current)).bind Expr.entity? = e.bind Expr.entity? := by
  rcases e with - | e
  · rfl
  · simp only [Option.map_some, Option.bind_some, Expr.entity?, Expr.type_refreshed]

mutual

/-- Values that are brought up to date leave the comparisons as they are. -/
theorem Predicate.comparisons_refreshed : ∀ (p : Predicate) (scope : Option EntityId),
    (p.refreshed c current).comparisons (current.shownBy c notes) scope = p.comparisons notes scope
  | .passthrough .., _ => rfl
  | .unary _ _ operand, scope => Predicate.comparisonsOf_refreshed operand scope
  | .logical _ _ children, scope => Predicate.comparisonsAll_refreshed children scope
  | .comparison id op _ _, scope => by
    simp only [Predicate.refreshed, Predicate.comparisons, Comparison.ofOperator?_refreshed,
      Notes.note_shownBy_eq, Note.mapOperands, Predicate.comparedType_refreshed]
  | .quantified id _ _ body, scope => by
    simp only [Predicate.refreshed, Predicate.comparisons, Notes.note_shownBy_eq, Note.mapOperands,
      Option.bind_entity?_refreshed, Predicate.comparisonsOf_refreshed body]
  | .bare n, scope => Node.comparisons_refreshed n scope

theorem Predicate.comparisonsOf_refreshed : ∀ (p : Option Predicate) (scope : Option EntityId),
    Predicate.comparisonsOf (current.shownBy c notes) scope (Predicate.refreshedOption c current p) =
      Predicate.comparisonsOf notes scope p
  | none, _ => rfl
  | some p, scope => Predicate.comparisons_refreshed p scope

theorem Predicate.comparisonsAll_refreshed :
    ∀ (ps : List (Option Predicate)) (scope : Option EntityId),
      Predicate.comparisonsAll (current.shownBy c notes) scope (Predicate.refreshedAll c current ps) =
        Predicate.comparisonsAll notes scope ps
  | [], _ => rfl
  | p :: ps, scope => by
    rw [Predicate.refreshedAll, Predicate.comparisonsAll, Predicate.comparisonsAll,
      Predicate.comparisonsOf_refreshed p, Predicate.comparisonsAll_refreshed ps]

theorem Node.comparisons_refreshed : ∀ (n : Node) (scope : Option EntityId),
    (n.refreshed c current).comparisons (current.shownBy c notes) scope = n.comparisons notes scope
  | .predicate p, scope => Predicate.comparisons_refreshed p scope
  | .expr _, _ => rfl
  | .call _ _ args, scope => Node.comparisonsAll_refreshed args scope

theorem Node.comparisonsAll_refreshed : ∀ (ns : List (Option Node)) (scope : Option EntityId),
    Node.comparisonsAll (current.shownBy c notes) scope (Node.refreshedAll c current ns) =
      Node.comparisonsAll notes scope ns
  | [], _ => rfl
  | none :: ns, scope => Node.comparisonsAll_refreshed ns scope
  | some n :: ns, scope => by
    rw [Node.refreshedAll, Node.comparisonsAll, Node.comparisonsAll,
      Node.comparisons_refreshed n, Node.comparisonsAll_refreshed ns]

end

end

/-! ### Programs -/

/-- Two programs come to the same on every record, in their results and in what they note, whenever
they are run and whatever policies the entity types have by then. -/
def Program.SameRuns (program program' : Program) : Prop :=
  ∀ current current' : Catalog, current.SameButPolicies current' →
    ∀ record, program.run current record = program'.run current' record

theorem PolicySources.refreshed_program (c : Catalog) (n : Node) (context : Context)
    (current notes : Notes) : (s.program n context notes).refreshed c current =
      s.program (n.refreshed c current) context (current.shownBy c notes) := rfl

/-- **Programs of a node whose comparisons are the same run alike.** -/
theorem PolicySources.sameRuns_program {n : Node} {context : Context} {notes : Notes}
    (h : ∀ x ∈ n.comparisons notes context.schema, x.IsSame s s') :
    (s.program n context notes).SameRuns (s'.program n context notes) := by
  intro current current' hcurrent record
  have hcatalogs : (s'.program n context notes).run current record =
      (s'.program n context notes).run current' record := by
    rw [← Program.run_withoutPolicies, hcurrent, Program.run_withoutPolicies]
  rw [← hcatalogs, Program.run, Program.run]
  refine congrArg (get >>= ·) (funext fun known => ?_)
  -- the run sees the node as it is shown by then, which changes none of its comparisons
  have hrefreshed : ∀ x ∈ (n.refreshed current known).comparisons (known.shownBy current notes)
      context.schema, x.IsSame s s' := by
    rw [Node.comparisons_refreshed]
    exact h
  have htold : (s.program (n.refreshed current known) context (known.shownBy current notes)).told record =
      (s'.program (n.refreshed current known) context (known.shownBy current notes)).told record :=
    Node.told_eq _ _ context record hrefreshed
  have hresult :
      (s.program (n.refreshed current known) context (known.shownBy current notes)).result record =
        (s'.program (n.refreshed current known) context (known.shownBy current notes)).result record :=
    congrArg (fun f : Except Fault Node.Result => do (← f) record)
      (Node.function_eq _ _ context hrefreshed)
  rw [PolicySources.refreshed_program, PolicySources.refreshed_program]
  dsimp only
  rw [htold, hresult]

/-! ### Nodes that are compiled -/

namespace Node

/-- **A node whose comparisons are the same is compiled alike.** Two sources of policies, whose entity
types differ in nothing else, do not tell any comparison apart that validating the node finds. Then
compiling the node comes to the same fault under both, or to programs that run alike, and leaves the
same notes. -/
theorem compile_of_isSame (hcatalogs : s.catalog.SameButPolicies s'.catalog)
    {source source' : ContextSource} {context : Context}
    (hsource : Context.ofSource source = .ok (s.under context))
    (hsource' : Context.ofSource source' = .ok (s'.under context)) {n : Node} {notes : Notes}
    (hsame : ∀ notes', outcome (n.validate s.catalog context.schema) notes = (.ok (), notes') →
      ∀ x ∈ n.comparisons notes' context.schema, x.IsSame s s') :
    EndAlike Eq Program.SameRuns (outcome (n.compile s.catalog s.default source) notes).1
        (outcome (n.compile s'.catalog s'.default source') notes).1 ∧
      (outcome (n.compile s.catalog s.default source) notes).2 =
        (outcome (n.compile s'.catalog s'.default source') notes).2 := by
  -- validation looks no policy up, so it ends alike and leaves the same notes
  have hvalidate : n.validate s.catalog context.schema = n.validate s'.catalog context.schema := by
    rw [← validate_withoutPolicies, hcatalogs, validate_withoutPolicies]
  rw [compile, compile, inContext, inContext, hsource, hsource',
    outcome_bind_of_ok (outcome_lift _), outcome_bind_of_ok (outcome_lift _)]
  have hschema : (s.under context).schema = context.schema := rfl
  have hschema' : (s'.under context).schema = context.schema := rfl
  rw [hschema, hschema', ← hvalidate]
  rcases hchecked : outcome (n.validate s.catalog context.schema) notes with ⟨f | ⟨⟩, notes'⟩
  · rw [outcome_bind_of_error hchecked, outcome_bind_of_error hchecked]
    exact ⟨.error rfl, rfl⟩
  · have hfunction := function_eq notes' n context (hsame notes' hchecked)
    rw [outcome_bind_of_ok hchecked, outcome_bind_of_ok hchecked, outcome_bind_of_ok outcome_get,
      outcome_bind_of_ok outcome_get, ← hfunction]
    rcases n.function s.catalog notes' s.default (s.under context) with f | test
    · -- the fault may quote plain texts of nodes, which take validations and no policies
      have hrefuse : (Check.settled s.catalog (n.refuse s.catalog f) : Check Program) =
          Check.settled s'.catalog (n.refuse s'.catalog f) := by
        rw [← Check.settled_withoutPolicies, ← refuse_withoutPolicies, hcatalogs,
          Check.settled_withoutPolicies, refuse_withoutPolicies]
      dsimp only
      rw [hrefuse, Check.outcome_settled]
      rcases hrefused : outcome (n.refuse s'.catalog f : Check Program) notes' with ⟨g | program, notes''⟩
      · exact ⟨.error rfl, rfl⟩
      · exact (refuse_ne_ok f program hrefused).elim
    · exact ⟨.ok (PolicySources.sameRuns_program (hsame notes' hchecked)), rfl⟩

end Node

end

end RecordFilter
