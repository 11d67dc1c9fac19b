import RecordFilter.Node.Use

/-!
# Entity types and their policies

How texts are compared is all that the policy of an entity type says, so nothing that comes before a
run reads it: operands are read, predicates are checked, written and shown alike when the policies
are taken away (`Node.validate_withoutPolicies`, `Node.toJson_withoutPolicies`). Two catalogs that
differ in the policies of their entity types only (`Catalog.SameButPolicies`) are therefore one for
everything but running.
-/

namespace RecordFilter

/-! ### Entity types -/

/-- The entity type without its policy. -/
def EntityType.withoutPolicy (e : EntityType) : EntityType :=
  { e with policy := none }

namespace Catalog

/-- The entity types without their policies. -/
def withoutPolicies (c : Catalog) : Catalog :=
  c.map EntityType.withoutPolicy

/-- Two catalogs differ in the policies of their entity types only. -/
def SameButPolicies (c c' : Catalog) : Prop :=
  c.withoutPolicies = c'.withoutPolicies

variable (c : Catalog)

@[simp] theorem entity?_withoutPolicies (id : EntityId) :
    c.withoutPolicies.entity? id = (c.entity? id).map EntityType.withoutPolicy :=
  List.getElem?_map

theorem map_entity?_withoutPolicies {α : Type} (f : EntityType → α) (hf : ∀ e, f e.withoutPolicy = f e)
    (id : EntityId) : (c.withoutPolicies.entity? id).map f = (c.entity? id).map f := by
  rw [entity?_withoutPolicies, Option.map_map]
  exact congrArg (Option.map · _) (funext hf)

@[simp] theorem isSchemaless_withoutPolicies (schema : Option EntityId) :
    c.withoutPolicies.isSchemaless schema = c.isSchemaless schema := by
  cases schema with
  | none => rfl
  | some id =>
    rw [isSchemaless, isSchemaless, map_entity?_withoutPolicies c _ fun _ => rfl]

@[simp] theorem nameText_withoutPolicies (id : EntityId) :
    c.withoutPolicies.nameText id = c.nameText id := by
  rw [nameText, nameText, entity?_withoutPolicies]
  cases c.entity? id <;> rfl

/-- A path of names leads to the same property. -/
theorem walk?_withoutPolicies : ∀ (path : List Text) (id : EntityId),
    c.withoutPolicies.walk? id path = c.walk? id path
  | [], _ => rfl
  | [name], id => by
    rw [walk?, walk?, entity?_withoutPolicies]
    cases c.entity? id <;> rfl
  | name :: next :: path, id => by
    have hfind : ((c.withoutPolicies.entity? id).bind fun e => e.find? name) =
        (c.entity? id).bind fun e => e.find? name := by
      rw [entity?_withoutPolicies]
      cases c.entity? id <;> rfl
    rw [walk?, walk?, hfind]
    · split
      · exact walk?_withoutPolicies (next :: path) _
      · rfl
    all_goals simp

@[simp] theorem property?_withoutPolicies (id : EntityId) (path : Text) :
    c.withoutPolicies.property? id path = c.property? id path :=
  walk?_withoutPolicies c (Text.segments path) id

end Catalog

variable (c : Catalog)

/-! ### Operands -/

namespace Expr

@[simp] theorem pathType_withoutPolicies (entity : EntityId) (path : Value) :
    pathType c.withoutPolicies entity path = pathType c entity path := by
  simp only [pathType, Catalog.property?_withoutPolicies, Catalog.nameText_withoutPolicies]

@[simp] theorem checkPath_withoutPolicies (schema : Option EntityId) (path : Value)
    (type : Option TypeRef) :
    checkPath c.withoutPolicies schema path type = checkPath c schema path type := by
  simp only [checkPath, Catalog.isSchemaless_withoutPolicies, pathType_withoutPolicies]

mutual

@[simp] theorem check_withoutPolicies (schema : Option EntityId) :
    ∀ e : Expr, e.check c.withoutPolicies schema = e.check c schema
  | .literal .. => rfl
  | .path p type mark => by
    simp only [check, checkPath_withoutPolicies]
  | .call function args type mark => by
    simp only [check, checkAll_withoutPolicies schema args]

@[simp] theorem checkAll_withoutPolicies (schema : Option EntityId) :
    ∀ es : List Expr, checkAll c.withoutPolicies schema es = checkAll c schema es
  | [] => rfl
  | e :: es => by
    simp only [checkAll, check_withoutPolicies schema e, checkAll_withoutPolicies schema es]

end

@[simp] theorem fit_withoutPolicies (schema : Option EntityId) (e : Expr) :
    e.fit c.withoutPolicies schema = e.fit c schema := by
  simp only [fit, check_withoutPolicies]

end Expr

namespace Operand

@[simp] theorem bare_withoutPolicies (place : Place) (cs : List CodePoint) :
    bare c.withoutPolicies place cs = bare c place cs := by
  simp only [bare, Catalog.isSchemaless_withoutPolicies, Catalog.property?_withoutPolicies]

@[simp] theorem expression_withoutPolicies (l : Linear) (fuel : Nat) :
    expression c.withoutPolicies l fuel = expression c l fuel := by
  induction fuel with
  | zero =>
    funext place cs
    simp only [expression, bare_withoutPolicies]
  | succ fuel ih =>
    funext place cs
    simp only [expression, bare_withoutPolicies, ih]

@[simp] theorem ofText?_withoutPolicies (place : Place) (cs : List CodePoint) :
    ofText? c.withoutPolicies place cs = ofText? c place cs := by
  simp only [ofText?, expression_withoutPolicies]

@[simp] theorem ofEntries_withoutPolicies (place : Place) (entries : List (Value × Value)) :
    ofEntries c.withoutPolicies place entries = ofEntries c place entries := by
  have hname : c.withoutPolicies.nameText = c.nameText :=
    funext fun id => Catalog.nameText_withoutPolicies c id
  simp only [ofEntries, hname, Expr.fit_withoutPolicies]

/-- **Operands are read without regard to policies.** -/
@[simp] theorem read?_withoutPolicies (place : Place) (source : Value) :
    read? c.withoutPolicies place source = read? c place source := by
  simp only [read?, ofEntries_withoutPolicies, ofText?_withoutPolicies, Expr.fit_withoutPolicies,
    Catalog.isSchemaless_withoutPolicies]

end Operand

namespace Predicate

@[simp] theorem leftOperand_withoutPolicies (schema : Option EntityId) (source : Value) :
    leftOperand c.withoutPolicies schema source = leftOperand c schema source := by
  simp only [leftOperand, Operand.read?_withoutPolicies]

@[simp] theorem rightOperand_withoutPolicies (schema : Option EntityId) (left : Expr)
    (source : Value) :
    rightOperand c.withoutPolicies schema left source = rightOperand c schema left source := by
  simp only [rightOperand, Operand.read?_withoutPolicies]

@[simp] theorem isSingle_withoutPolicies (entity : EntityId) (e : Expr) :
    isSingle c.withoutPolicies entity e = isSingle c entity e := by
  have hproperty : c.withoutPolicies.property? entity = c.property? entity :=
    funext fun path => Catalog.property?_withoutPolicies c entity path
  cases e <;> simp only [isSingle, hproperty]

@[simp] theorem misfit?_withoutPolicies (schema : Option EntityId) (e : Expr) :
    misfit? c.withoutPolicies schema e = misfit? c schema e := by
  cases schema <;> simp only [misfit?, Catalog.isSchemaless_withoutPolicies,
    isSingle_withoutPolicies, Catalog.nameText_withoutPolicies]

@[simp] theorem collectionOperand_withoutPolicies (schema : Option EntityId) (source : Value) :
    collectionOperand c.withoutPolicies schema source = collectionOperand c schema source := by
  simp only [collectionOperand, Operand.read?_withoutPolicies, Catalog.isSchemaless_withoutPolicies]

end Predicate

/-! ### How nodes are shown -/

@[simp] theorem TypeRef.display_withoutPolicies (type : Option TypeRef) :
    TypeRef.display c.withoutPolicies type = TypeRef.display c type := by
  rcases type with - | (type | id)
  · rfl
  · rfl
  · rw [TypeRef.display, TypeRef.display, Catalog.map_entity?_withoutPolicies c _ fun _ => rfl]

namespace Expr

mutual

@[simp] theorem display_withoutPolicies :
    ∀ e : Expr, e.display c.withoutPolicies = e.display c
  | .literal .. => by simp only [display, TypeRef.display_withoutPolicies]
  | .path .. => by simp only [display, TypeRef.display_withoutPolicies]
  | .call _ args _ _ => by
    simp only [display, displayCall, TypeRef.display_withoutPolicies, displayAll_withoutPolicies args]

@[simp] theorem displayAll_withoutPolicies :
    ∀ es : List Expr, displayAll c.withoutPolicies es = displayAll c es
  | [] => rfl
  | e :: es => by
    simp only [displayAll, display_withoutPolicies e, displayAll_withoutPolicies es]

end

@[simp] theorem displayOption_withoutPolicies (e : Option Expr) :
    displayOption c.withoutPolicies e = displayOption c e := by
  cases e <;> simp only [displayOption, display_withoutPolicies]

end Expr

section

variable (notes : Notes)

mutual

@[simp] theorem Predicate.display_withoutPolicies :
    ∀ p : Predicate, p.display c.withoutPolicies notes = p.display c notes
  | .passthrough .. => rfl
  | .unary _ _ operand => by
    simp only [Predicate.display, Predicate.displayOption_withoutPolicies operand]
  | .logical _ _ children => by
    simp only [Predicate.display, Predicate.displayAll_withoutPolicies children]
  | .comparison .. => by
    simp only [Predicate.display, Expr.displayOption_withoutPolicies]
  | .quantified _ _ _ body => by
    simp only [Predicate.display, Expr.displayOption_withoutPolicies,
      Predicate.displayOption_withoutPolicies body]
  | .bare n => Node.display_withoutPolicies n

theorem Predicate.displayOption_withoutPolicies : ∀ p : Option Predicate,
    Predicate.displayOption c.withoutPolicies notes p = Predicate.displayOption c notes p
  | none => rfl
  | some p => Predicate.display_withoutPolicies p

theorem Predicate.displayAll_withoutPolicies : ∀ ps : List (Option Predicate),
    Predicate.displayAll c.withoutPolicies notes ps = Predicate.displayAll c notes ps
  | [] => rfl
  | p :: ps => by
    simp only [Predicate.displayAll, Predicate.displayOption_withoutPolicies p,
      Predicate.displayAll_withoutPolicies ps]

@[simp] theorem Node.display_withoutPolicies :
    ∀ n : Node, n.display c.withoutPolicies notes = n.display c notes
  | .predicate p => Predicate.display_withoutPolicies p
  | .expr e => Expr.display_withoutPolicies c (e.current notes)
  | .call _ _ args => by
    simp only [Node.display, Expr.displayCall, TypeRef.display_withoutPolicies,
      Node.displayAll_withoutPolicies args]

theorem Node.displayOption_withoutPolicies : ∀ n : Option Node,
    Node.displayOption c.withoutPolicies notes n = Node.displayOption c notes n
  | none => rfl
  | some n => Node.display_withoutPolicies n

theorem Node.displayAll_withoutPolicies : ∀ ns : List (Option Node),
    Node.displayAll c.withoutPolicies notes ns = Node.displayAll c notes ns
  | [] => rfl
  | n :: ns => by
    simp only [Node.displayAll, Node.displayOption_withoutPolicies n,
      Node.displayAll_withoutPolicies ns]

end

mutual

@[simp] theorem Value.refreshed_withoutPolicies :
    ∀ v : Value, v.refreshed c.withoutPolicies notes = v.refreshed c notes
  | .list items => by
    simp only [Value.refreshed, Value.refreshedItems_withoutPolicies items]
  | .map entries => by
    simp only [Value.refreshed, Value.refreshedEntries_withoutPolicies entries]
  | .object fields => by
    simp only [Value.refreshed, Value.refreshedFields_withoutPolicies fields]
  | .operator o => by
    simp only [Value.refreshed, Operator.refreshed_withoutPolicies o]
  | .node n shown => by
    simp only [Value.refreshed, Node.refreshed_withoutPolicies n, Node.display_withoutPolicies]
  | .null | .bool _ | .int _ | .double _ | .decimal _ | .text _ | .token _ | .date _ | .time _
  | .moment _ | .guid _ | .member .. => rfl

@[simp] theorem Operator.refreshed_withoutPolicies :
    ∀ o : Operator, o.refreshed c.withoutPolicies notes = o.refreshed c notes
  | ⟨key, _, _⟩ => by
    simp only [Operator.refreshed, Value.refreshed_withoutPolicies key]

theorem Value.refreshedItems_withoutPolicies (items : List Value) :
    Value.refreshedItems c.withoutPolicies notes items = Value.refreshedItems c notes items := by
  rcases items with - | ⟨v, vs⟩
  · rfl
  · simp only [Value.refreshedItems, Value.refreshed_withoutPolicies v,
      Value.refreshedItems_withoutPolicies vs]

theorem Value.refreshedEntries_withoutPolicies (entries : List (Value × Value)) :
    Value.refreshedEntries c.withoutPolicies notes entries =
      Value.refreshedEntries c notes entries := by
  rcases entries with - | ⟨⟨k, v⟩, rest⟩
  · rfl
  · simp only [Value.refreshedEntries, Value.refreshed_withoutPolicies k,
      Value.refreshed_withoutPolicies v, Value.refreshedEntries_withoutPolicies rest]

theorem Value.refreshedFields_withoutPolicies : ∀ fields : List (Text × Value),
    Value.refreshedFields c.withoutPolicies notes fields = Value.refreshedFields c notes fields
  | [] => rfl
  | (name, v) :: rest => by
    simp only [Value.refreshedFields, Value.refreshed_withoutPolicies v,
      Value.refreshedFields_withoutPolicies rest]

@[simp] theorem Node.refreshed_withoutPolicies :
    ∀ n : Node, n.refreshed c.withoutPolicies notes = n.refreshed c notes
  | .predicate p => by
    simp only [Node.refreshed, Predicate.refreshed_withoutPolicies p]
  | .expr e => by
    simp only [Node.refreshed, Expr.refreshed_withoutPolicies e]
  | .call _ _ args => by
    simp only [Node.refreshed, Node.refreshedAll_withoutPolicies args]

theorem Node.refreshedAll_withoutPolicies : ∀ ns : List (Option Node),
    Node.refreshedAll c.withoutPolicies notes ns = Node.refreshedAll c notes ns
  | [] => rfl
  | none :: ns => by
    simp only [Node.refreshedAll, Node.refreshedAll_withoutPolicies ns]
  | some n :: ns => by
    simp only [Node.refreshedAll, Node.refreshed_withoutPolicies n,
      Node.refreshedAll_withoutPolicies ns]

@[simp] theorem Predicate.refreshed_withoutPolicies :
    ∀ p : Predicate, p.refreshed c.withoutPolicies notes = p.refreshed c notes
  | .passthrough _ text => by
    simp only [Predicate.refreshed, Value.refreshed_withoutPolicies text]
  | .unary _ op operand => by
    simp only [Predicate.refreshed, Operator.refreshed_withoutPolicies op,
      Predicate.refreshedOption_withoutPolicies operand]
  | .logical _ op children => by
    simp only [Predicate.refreshed, Operator.refreshed_withoutPolicies op,
      Predicate.refreshedAll_withoutPolicies children]
  | .comparison _ op left right => by
    simp only [Predicate.refreshed, Operator.refreshed_withoutPolicies op,
      Value.refreshed_withoutPolicies left, Value.refreshed_withoutPolicies right]
  | .quantified _ op collection body => by
    simp only [Predicate.refreshed, Operator.refreshed_withoutPolicies op,
      Value.refreshed_withoutPolicies collection, Predicate.refreshedOption_withoutPolicies body]
  | .bare n => by
    simp only [Predicate.refreshed, Node.refreshed_withoutPolicies n]

theorem Predicate.refreshedOption_withoutPolicies : ∀ p : Option Predicate,
    Predicate.refreshedOption c.withoutPolicies notes p = Predicate.refreshedOption c notes p
  | none => rfl
  | some p => congrArg some (Predicate.refreshed_withoutPolicies p)

theorem Predicate.refreshedAll_withoutPolicies : ∀ ps : List (Option Predicate),
    Predicate.refreshedAll c.withoutPolicies notes ps = Predicate.refreshedAll c notes ps
  | [] => rfl
  | p :: ps => by
    simp only [Predicate.refreshedAll, Predicate.refreshedOption_withoutPolicies p,
      Predicate.refreshedAll_withoutPolicies ps]

@[simp] theorem Expr.refreshed_withoutPolicies :
    ∀ e : Expr, e.refreshed c.withoutPolicies notes = e.refreshed c notes
  | .literal value _ _ _ => by
    simp only [Expr.refreshed, Value.refreshed_withoutPolicies value]
  | .path p _ _ => by
    simp only [Expr.refreshed, Value.refreshed_withoutPolicies p]
  | .call _ args _ _ => by
    simp only [Expr.refreshed, Expr.refreshedAll_withoutPolicies args]

theorem Expr.refreshedAll_withoutPolicies : ∀ es : List Expr,
    Expr.refreshedAll c.withoutPolicies notes es = Expr.refreshedAll c notes es
  | [] => rfl
  | e :: es => by
    simp only [Expr.refreshedAll, Expr.refreshed_withoutPolicies e,
      Expr.refreshedAll_withoutPolicies es]

end

end

@[simp] theorem Notes.shownBy_withoutPolicies (current notes : Notes) :
    current.shownBy c.withoutPolicies notes = current.shownBy c notes := by
  have hexpr : Expr.refreshed c.withoutPolicies current = Expr.refreshed c current :=
    funext (Expr.refreshed_withoutPolicies c current)
  simp only [Notes.shownBy, hexpr]

@[simp] theorem Notes.refreshed_withoutPolicies :
    Notes.refreshed c.withoutPolicies = Notes.refreshed c := by
  funext notes
  have hoperand : notes.operand c.withoutPolicies = notes.operand c := by
    funext e
    simp only [Notes.operand, Expr.refreshed_withoutPolicies]
  simp only [Notes.refreshed, hoperand]

/-! ### Canonical forms -/

section

variable (context : Context)

namespace Expr

@[simp] theorem typeName_withoutPolicies (type : Option TypeRef) :
    typeName c.withoutPolicies type = typeName c type := by
  rcases type with - | (type | id)
  · rfl
  · rfl
  · rw [typeName, typeName, Catalog.map_entity?_withoutPolicies c _ fun _ => rfl]

@[simp] theorem writtenPath_withoutPolicies (path : Value) :
    writtenPath c.withoutPolicies context path = writtenPath c context path := by
  unfold writtenPath
  rcases context.schema with - | id
  · rfl
  · rw [Option.bind_some, Option.bind_some, Catalog.entity?_withoutPolicies]
    -- the convention is all that is read of an entity type
    rcases c.entity? id with - | e
    · rfl
    · cases context.server.truthy <;> rfl

mutual

@[simp] theorem canonical_withoutPolicies :
    ∀ e : Expr, e.canonical c.withoutPolicies context = e.canonical c context
  | .literal .. => by simp only [canonical, typeName_withoutPolicies]
  | .path .. => by simp only [canonical, writtenPath_withoutPolicies]
  | .call _ args _ _ => by simp only [canonical, argumentForms_withoutPolicies args]

theorem argumentForms_withoutPolicies :
    ∀ es : List Expr, argumentForms c.withoutPolicies context es = argumentForms c context es
  | [] => rfl
  | e :: es => by
    simp only [argumentForms, argumentForm_withoutPolicies e, argumentForms_withoutPolicies es]

@[simp] theorem argumentForm_withoutPolicies :
    ∀ e : Expr, e.argumentForm c.withoutPolicies context = e.argumentForm c context
  | .literal .. => rfl
  | .path .. => by simp only [argumentForm, writtenPath_withoutPolicies]
  | .call _ args _ _ => by simp only [argumentForm, argumentForms_withoutPolicies args]

end

@[simp] theorem canonicalRight_withoutPolicies (e : Expr) :
    e.canonicalRight c.withoutPolicies context = e.canonicalRight c context := by
  simp only [canonicalRight, canonical_withoutPolicies]

end Expr

end

section

variable (notes : Notes)

mutual

@[simp] theorem Predicate.canonical_withoutPolicies (context : Context) :
    ∀ p : Predicate, p.canonical c.withoutPolicies notes context = p.canonical c notes context
  | .passthrough .. => rfl
  | .unary _ _ operand => by
    simp only [Predicate.canonical, Predicate.canonicalPresent_withoutPolicies context operand]
  | .logical _ _ children => by
    simp only [Predicate.canonical, Predicate.canonicalAll_withoutPolicies context children]
  | .comparison .. => by
    simp only [Predicate.canonical, Expr.canonical_withoutPolicies,
      Expr.canonicalRight_withoutPolicies]
  | .quantified _ _ _ body => by
    simp only [Predicate.canonical, Expr.canonical_withoutPolicies,
      fun context => Predicate.canonicalPresent_withoutPolicies context body]
  | .bare n => Node.canonical_withoutPolicies context n

theorem Predicate.canonicalPresent_withoutPolicies (context : Context) : ∀ p : Option Predicate,
    Predicate.canonicalPresent c.withoutPolicies notes context p =
      Predicate.canonicalPresent c notes context p
  | none => rfl
  | some p => Predicate.canonical_withoutPolicies context p

theorem Predicate.canonicalAll_withoutPolicies (context : Context) :
    ∀ ps : List (Option Predicate), Predicate.canonicalAll c.withoutPolicies notes context ps =
      Predicate.canonicalAll c notes context ps
  | [] => rfl
  | p :: ps => by
    simp only [Predicate.canonicalAll, Predicate.canonicalPresent_withoutPolicies context p,
      Predicate.canonicalAll_withoutPolicies context ps]

@[simp] theorem Node.canonical_withoutPolicies (context : Context) :
    ∀ n : Node, n.canonical c.withoutPolicies notes context = n.canonical c notes context
  | .predicate p => Predicate.canonical_withoutPolicies context p
  | .expr e => Expr.canonical_withoutPolicies c context (e.current notes)
  | .call _ _ args => by
    simp only [Node.canonical, Node.argumentForms_withoutPolicies context args]

theorem Node.argumentForms_withoutPolicies (context : Context) : ∀ ns : List (Option Node),
    Node.argumentForms c.withoutPolicies notes context ns = Node.argumentForms c notes context ns
  | [] => rfl
  | none :: _ => rfl
  | some (.predicate p) :: ns => by
    simp only [Node.argumentForms, Node.canonical_withoutPolicies context (.predicate p),
      Node.argumentForms_withoutPolicies context ns]
  | some (.expr e) :: ns => by
    simp only [Node.argumentForms, Expr.argumentForm_withoutPolicies,
      Node.argumentForms_withoutPolicies context ns]
  | some (.call id f args) :: ns => by
    simp only [Node.argumentForms, Node.canonical_withoutPolicies context (.call id f args),
      Node.argumentForms_withoutPolicies context ns]

end

end

/-! ### Checking -/

namespace Check

@[simp] theorem operand_withoutPolicies (schema : Option EntityId) (e : Expr) :
    operand c.withoutPolicies schema e = operand c schema e := by
  simp only [operand, Expr.check_withoutPolicies]

@[simp] theorem source_withoutPolicies (place : Operand.Place) (given : Value)
    (told : Check Value) :
    source c.withoutPolicies place given told = source c place given told := by
  simp only [source, Value.refreshed_withoutPolicies]

@[simp] theorem written_withoutPolicies (n : Node) :
    written c.withoutPolicies n = written c n := by
  simp only [written, Node.canonical_withoutPolicies]

@[simp] theorem settled_withoutPolicies {α : Type} (step : Check α) :
    settled c.withoutPolicies step = settled c step := by
  simp only [settled, Notes.refreshed_withoutPolicies]

end Check

mutual

/-- **Predicates are checked without regard to policies.** -/
@[simp] theorem Predicate.check_withoutPolicies (schema : Option EntityId) :
    ∀ p : Predicate, p.check c.withoutPolicies schema = p.check c schema
  | .passthrough .. => by simp only [Predicate.check]
  | .unary _ _ operand => by
    simp only [Predicate.check, Predicate.checkPresent_withoutPolicies schema operand]
  | .logical _ _ children => by
    simp only [Predicate.check, Predicate.checkAll_withoutPolicies schema children]
  | .comparison _ _ left right => by
    simp only [Predicate.check, Predicate.leftOperand_withoutPolicies,
      Predicate.rightOperand_withoutPolicies, Check.source_withoutPolicies,
      Value.tell_withoutPolicies true left, Value.tell_withoutPolicies true right]
  | .quantified _ ⟨key, _, _⟩ collection body => by
    simp only [Predicate.check, Predicate.collectionOperand_withoutPolicies,
      Predicate.misfit?_withoutPolicies, Check.source_withoutPolicies,
      Value.tell_withoutPolicies true collection, Value.tell_withoutPolicies false collection,
      Value.tell_withoutPolicies false key,
      fun schema => Predicate.checkPresent_withoutPolicies schema body]
  | .bare n => by
    simp only [Predicate.check, Node.check_withoutPolicies schema n]

theorem Predicate.checkPresent_withoutPolicies (schema : Option EntityId) :
    ∀ p : Option Predicate,
      Predicate.checkPresent c.withoutPolicies schema p = Predicate.checkPresent c schema p
  | none => by simp only [Predicate.checkPresent]
  | some p => by
    simp only [Predicate.checkPresent, Predicate.check_withoutPolicies schema p]

theorem Predicate.checkAll_withoutPolicies (schema : Option EntityId) :
    ∀ ps : List (Option Predicate),
      Predicate.checkAll c.withoutPolicies schema ps = Predicate.checkAll c schema ps
  | [] => by simp only [Predicate.checkAll]
  | p :: ps => by
    simp only [Predicate.checkAll, Predicate.checkPresent_withoutPolicies schema p,
      Predicate.checkAll_withoutPolicies schema ps]

@[simp] theorem Node.check_withoutPolicies (schema : Option EntityId) :
    ∀ n : Node, n.check c.withoutPolicies schema = n.check c schema
  | .predicate p => by
    simp only [Node.check, Predicate.check_withoutPolicies schema p]
  | .expr e => by
    simp only [Node.check, Check.operand_withoutPolicies]
  | .call _ _ args => by
    simp only [Node.check, Node.checkAll_withoutPolicies schema args]

theorem Node.checkAll_withoutPolicies (schema : Option EntityId) :
    ∀ ns : List (Option Node),
      Node.checkAll c.withoutPolicies schema ns = Node.checkAll c schema ns
  | [] => by simp only [Node.checkAll]
  | none :: _ => by simp only [Node.checkAll]
  | some n :: ns => by
    simp only [Node.checkAll, Node.check_withoutPolicies schema n,
      Node.checkAll_withoutPolicies schema ns]

@[simp] theorem Value.tell_withoutPolicies (wrapped : Bool) :
    ∀ v : Value, v.tell c.withoutPolicies wrapped = v.tell c wrapped
  | .node n shown => by
    simp only [Value.tell, Node.check_withoutPolicies none n,
      Node.tellArguments_withoutPolicies n, Check.written_withoutPolicies]
  | .map entries => by
    simp only [Value.tell, Value.tellEntries_withoutPolicies entries]
  | .null | .bool _ | .int _ | .double _ | .decimal _ | .text _ | .token _ | .operator _ | .date _
  | .time _ | .moment _ | .guid _ | .list _ | .object _ | .member .. => by simp only [Value.tell]

theorem Value.tellEntries_withoutPolicies (entries : List (Value × Value)) :
    Value.tellEntries c.withoutPolicies entries = Value.tellEntries c entries := by
  rcases entries with - | ⟨⟨k, v⟩, rest⟩
  · simp only [Value.tellEntries]
  · simp only [Value.tellEntries, Value.tell_withoutPolicies false v,
      Value.tellEntries_withoutPolicies rest]

@[simp] theorem Node.tellArguments_withoutPolicies :
    ∀ n : Node, n.tellArguments c.withoutPolicies = n.tellArguments c
  | .expr e => by
    simp only [Node.tellArguments, Expr.tellArguments_withoutPolicies e]
  | .call _ _ args => by
    simp only [Node.tellArguments, Node.tellAll_withoutPolicies args]
  | .predicate _ => by simp only [Node.tellArguments]

theorem Expr.tellArguments_withoutPolicies :
    ∀ e : Expr, e.tellArguments c.withoutPolicies = e.tellArguments c
  | .call _ args _ _ => by
    simp only [Expr.tellArguments, Expr.tellAll_withoutPolicies args]
  | .literal .. | .path .. => by simp only [Expr.tellArguments]

theorem Expr.tellAll_withoutPolicies :
    ∀ es : List Expr, Expr.tellAll c.withoutPolicies es = Expr.tellAll c es
  | [] => by simp only [Expr.tellAll]
  | .literal v _ _ _ :: es => by
    simp only [Expr.tellAll, Value.tell_withoutPolicies false v, Expr.tellAll_withoutPolicies es]
  | .path p type mark :: es => by
    simp only [Expr.tellAll, Expr.tellArguments_withoutPolicies (.path p type mark),
      Expr.tellAll_withoutPolicies es]
  | .call f args type mark :: es => by
    simp only [Expr.tellAll, Expr.tellArguments_withoutPolicies (.call f args type mark),
      Expr.tellAll_withoutPolicies es]

theorem Node.tellAll_withoutPolicies : ∀ ns : List (Option Node),
    Node.tellAll c.withoutPolicies ns = Node.tellAll c ns
  | [] => by simp only [Node.tellAll]
  | none :: _ => by simp only [Node.tellAll]
  | some (.expr (.literal v _ _ _)) :: ns => by
    simp only [Node.tellAll, Value.tell_withoutPolicies false v, Node.tellAll_withoutPolicies ns]
  | some (.expr (.path p type mark)) :: ns => by
    simp only [Node.tellAll, Node.tellArguments_withoutPolicies (.expr (.path p type mark)),
      Node.tellAll_withoutPolicies ns]
  | some (.expr (.call f args type mark)) :: ns => by
    simp only [Node.tellAll, Node.tellArguments_withoutPolicies (.expr (.call f args type mark)),
      Node.tellAll_withoutPolicies ns]
  | some (.predicate p) :: ns => by
    simp only [Node.tellAll, Node.tellArguments_withoutPolicies (.predicate p),
      Node.tellAll_withoutPolicies ns]
  | some (.call id f args) :: ns => by
    simp only [Node.tellAll, Node.tellArguments_withoutPolicies (.call id f args),
      Node.tellAll_withoutPolicies ns]

end

/-! ### Using nodes -/

namespace Node

@[simp] theorem validate_withoutPolicies (schema : Option EntityId) (n : Node) :
    n.validate c.withoutPolicies schema = n.validate c schema := by
  simp only [validate, Check.settled_withoutPolicies, check_withoutPolicies]

@[simp] theorem inContext_withoutPolicies {α : Type} (source : ContextSource) (n : Node)
    (use : Context → Check α) :
    n.inContext c.withoutPolicies source use = n.inContext c source use := by
  simp only [inContext, validate_withoutPolicies]

@[simp] theorem toCanonical_withoutPolicies (source : ContextSource) (n : Node) :
    n.toCanonical c.withoutPolicies source = n.toCanonical c source := by
  simp only [toCanonical, inContext_withoutPolicies, tellArguments_withoutPolicies,
    canonical_withoutPolicies]

/-- **Predicates are written without regard to policies.** -/
@[simp] theorem toJson_withoutPolicies (layout : Json.Layout) (source : ContextSource) (n : Node) :
    n.toJson c.withoutPolicies layout source = n.toJson c layout source := by
  simp only [toJson, toCanonical_withoutPolicies]

@[simp] theorem say_withoutPolicies (n : Node) : n.say c.withoutPolicies = n.say c :=
  toJson_withoutPolicies c {} .absent n

@[simp] theorem refuse_withoutPolicies {α : Type} (n : Node) (fault : Fault) :
    (n.refuse c.withoutPolicies fault : Check α) = n.refuse c fault := by
  simp only [refuse, Value.tell_withoutPolicies]

end Node

@[simp] theorem Notes.afterTelling_withoutPolicies (notes : Notes) (nodes : List Node) :
    notes.afterTelling c.withoutPolicies nodes = notes.afterTelling c nodes := by
  simp only [Notes.afterTelling, Node.say_withoutPolicies]

@[simp] theorem Program.refreshed_withoutPolicies (notes : Notes) (program : Program) :
    program.refreshed c.withoutPolicies notes = program.refreshed c notes := by
  simp only [Program.refreshed, Node.refreshed_withoutPolicies, Notes.shownBy_withoutPolicies]

/-- What a program knows of entity types it knows since it was compiled. -/
@[simp] theorem Program.run_withoutPolicies (program : Program) (record : Value) :
    program.run c.withoutPolicies record = program.run c record := by
  simp only [Program.run, Program.refreshed_withoutPolicies, Notes.afterTelling_withoutPolicies]

end RecordFilter
