import RecordFilter.Proofs.Predicate.Comparisons
import RecordFilter.Proofs.Schema.Naming

/-!
# The fields that a node reads

Of a record a node reads the fields that its property paths begin with, and in the body of a quantifier
the paths are those of elements and not of the record (`Node.reads`). Two records that agree on these
fields are one to the function of the node (`Node.function_agree`) and therefore to every run of its
program (`Node.run_sees_only_reads`).
-/

namespace RecordFilter

/-! ### Records that agree -/

/-- Two records have the same values in some fields. -/
def Record.AgreeOn (names : List Text) (record record' : Value) : Prop :=
  ∀ name ∈ names, Record.get record name = Record.get record' name

namespace Record.AgreeOn

variable {names more : List Text} {record record' : Value}

theorem mono (h : AgreeOn more record record') (hsub : names ⊆ more) : AgreeOn names record record' :=
  fun name hname => h name (hsub hname)

theorem left (h : AgreeOn (names ++ more) record record') : AgreeOn names record record' :=
  h.mono (List.subset_append_left _ _)

theorem right (h : AgreeOn (names ++ more) record record') : AgreeOn more record record' :=
  h.mono (List.subset_append_right _ _)

end Record.AgreeOn

/-- A walk goes on from the first field, also from a record that is absent. -/
theorem Record.walk_cons_cons (record : Value) (name next : Text) (path : List Text) :
    Record.walk Record.get record (name :: next :: path) =
      Record.walk Record.get (Record.get record name) (next :: path) := by
  cases record <;> rfl

/-- The names that a path begins with: its first segment. -/
def Text.firstSegment (path : Text) : List Text :=
  (Text.segments path).take 1

/-- Reading a path looks at the field that it begins with. -/
theorem Expr.readPath_agree {path : Text} {record record' : Value}
    (h : Record.AgreeOn path.firstSegment record record') :
    Expr.readPath Record.get path record = Expr.readPath Record.get path record' := by
  have hjoin := Text.join_segments path
  unfold Expr.readPath
  unfold Text.firstSegment at h
  rcases hsegments : Text.segments path with - | ⟨name, - | ⟨next, rest⟩⟩
  · exact absurd (List.map_eq_nil_iff.mp hsegments) (Text.split_ne_nil _ _)
  · -- a path of one segment is that segment
    rw [hsegments] at h hjoin
    obtain rfl : name = path := hjoin
    exact h name List.mem_cons_self
  · rw [hsegments] at h
    dsimp only
    rw [Record.walk_cons_cons, Record.walk_cons_cons, h name List.mem_cons_self]

/-! ### Fields -/

mutual

/-- The fields that an operand reads. -/
def Expr.reads : Expr → List Text
  | .literal .. => []
  | .path p _ _ => p.asText?.toList.flatMap Text.firstSegment
  | .call _ args _ _ => Expr.readsAll args

/-- The fields that operands read. -/
def Expr.readsAll : List Expr → List Text
  | [] => []
  | e :: es => Expr.reads e ++ Expr.readsAll es

end

/-- The fields that an operand reads, if checking has found it. -/
def Expr.readsOf : Option Expr → List Text
  | none => []
  | some e => e.reads

section

variable (notes : Notes)

mutual

/-- The fields that a predicate reads. The body of a quantifier reads fields of elements, not of the
record. -/
def Predicate.reads : Predicate → List Text
  | .passthrough .. => []
  | .unary _ _ operand => Predicate.readsOf operand
  | .logical _ _ children => Predicate.readsAll children
  | .comparison id _ _ _ =>
    Expr.readsOf (notes.note id).left ++ Expr.readsOf (notes.note id).right
  | .quantified id _ _ _ => Expr.readsOf (notes.note id).collection
  | .bare n => Node.reads n
termination_by structural p => p

/-- The fields that a predicate reads, if there is one. -/
def Predicate.readsOf : Option Predicate → List Text
  | none => []
  | some p => Predicate.reads p
termination_by structural p => p

/-- The fields that predicates read. -/
def Predicate.readsAll : List (Option Predicate) → List Text
  | [] => []
  | p :: ps => Predicate.readsOf p ++ Predicate.readsAll ps
termination_by structural ps => ps

/-- The fields that a node reads. -/
def Node.reads : Node → List Text
  | .predicate p => Predicate.reads p
  | .expr e => e.reads
  | .call _ _ args => Node.readsAll args
termination_by structural n => n

/-- The fields that nodes read. -/
def Node.readsAll : List (Option Node) → List Text
  | [] => []
  | none :: ns => Node.readsAll ns
  | some n :: ns => Node.reads n ++ Node.readsAll ns
termination_by structural ns => ns

end

end

/-! ### Nodes that are brought up to date -/

mutual

/-- What the notes know of an operand is not what it reads. -/
theorem Expr.reads_current (notes : Notes) : ∀ e : Expr, (e.current notes).reads = e.reads
  | .literal .. => rfl
  | .path .. => rfl
  | .call _ args _ _ => Expr.readsAll_current notes args

theorem Expr.readsAll_current (notes : Notes) :
    ∀ es : List Expr, Expr.readsAll (Expr.currentAll notes es) = Expr.readsAll es
  | [] => rfl
  | e :: es => by
    rw [Expr.currentAll, Expr.readsAll, Expr.readsAll, Expr.reads_current notes e,
      Expr.readsAll_current notes es]

end

section

variable (c : Catalog) (current : Notes)

mutual

theorem Expr.reads_refreshed : ∀ e : Expr, (e.refreshed c current).reads = e.reads
  | .literal .. => rfl
  | .path p _ _ => by
    rw [Expr.refreshed, Expr.reads, Expr.reads, Value.asText?_refreshed]
  | .call _ args _ _ => Expr.readsAll_refreshed args

theorem Expr.readsAll_refreshed :
    ∀ es : List Expr, Expr.readsAll (Expr.refreshedAll c current es) = Expr.readsAll es
  | [] => rfl
  | e :: es => by
    rw [Expr.refreshedAll, Expr.readsAll, Expr.readsAll, Expr.reads_refreshed e,
      Expr.readsAll_refreshed es]

end

theorem Expr.readsOf_refreshed (e : Option Expr) :
    Expr.readsOf (e.map (Expr.refreshed c current)) = Expr.readsOf e := by
  cases e with
  | none => rfl
  | some e => exact Expr.reads_refreshed c current e

variable (notes : Notes)

mutual

/-- Values that are brought up to date leave the fields as they are. -/
theorem Predicate.reads_refreshed : ∀ p : Predicate,
    (p.refreshed c current).reads (current.shownBy c notes) = p.reads notes
  | .passthrough .. => rfl
  | .unary _ _ operand => Predicate.readsOf_refreshed operand
  | .logical _ _ children => Predicate.readsAll_refreshed children
  | .comparison id _ _ _ => by
    simp only [Predicate.refreshed, Predicate.reads, Notes.note_shownBy_eq, Note.mapOperands,
      Expr.readsOf_refreshed]
  | .quantified id _ _ _ => by
    simp only [Predicate.refreshed, Predicate.reads, Notes.note_shownBy_eq, Note.mapOperands,
      Expr.readsOf_refreshed]
  | .bare n => Node.reads_refreshed n

theorem Predicate.readsOf_refreshed : ∀ p : Option Predicate,
    Predicate.readsOf (current.shownBy c notes) (Predicate.refreshedOption c current p) =
      Predicate.readsOf notes p
  | none => rfl
  | some p => Predicate.reads_refreshed p

theorem Predicate.readsAll_refreshed : ∀ ps : List (Option Predicate),
    Predicate.readsAll (current.shownBy c notes) (Predicate.refreshedAll c current ps) =
      Predicate.readsAll notes ps
  | [] => rfl
  | p :: ps => by
    rw [Predicate.refreshedAll, Predicate.readsAll, Predicate.readsAll,
      Predicate.readsOf_refreshed p, Predicate.readsAll_refreshed ps]

theorem Node.reads_refreshed : ∀ n : Node,
    (n.refreshed c current).reads (current.shownBy c notes) = n.reads notes
  | .predicate p => Predicate.reads_refreshed p
  | .expr e => Expr.reads_refreshed c current e
  | .call _ _ args => Node.readsAll_refreshed args

theorem Node.readsAll_refreshed : ∀ ns : List (Option Node),
    Node.readsAll (current.shownBy c notes) (Node.refreshedAll c current ns) =
      Node.readsAll notes ns
  | [] => rfl
  | none :: ns => Node.readsAll_refreshed ns
  | some n :: ns => by
    rw [Node.refreshedAll, Node.readsAll, Node.readsAll, Node.reads_refreshed n,
      Node.readsAll_refreshed ns]

end

end

/-! ### Functions -/

section

variable {context : Context} {record record' : Value}

/-- Functions that agree on two records have the same values. -/
theorem Expr.valuesOn_congr {fs : List Expr.Reader} (h : ∀ f ∈ fs, f record = f record') :
    Expr.valuesOn record fs = Expr.valuesOn record' fs := by
  induction fs with
  | nil => rfl
  | cons f fs ih =>
    obtain ⟨hf, hfs⟩ := List.forall_mem_cons.mp h
    rw [Expr.valuesOn, Expr.valuesOn, hf, ih hfs]

/-- Tests that agree on things give the same when they are repeated. -/
theorem Predicate.Extent.holds_congr {α : Type} (extent : Extent) {test test' : α → Except Fault Bool}
    {as : List α} (h : ∀ a ∈ as, test a = test' a) : extent.holds test as = extent.holds test' as := by
  induction as with
  | nil => rfl
  | cons a as ih =>
    obtain ⟨ha, has⟩ := List.forall_mem_cons.mp h
    rw [holds, holds, ha, ih has]

section

variable (haccessor : context.accessor = none)

include haccessor

set_option linter.unusedSectionVars false in
mutual

/-- The value of an operand depends on its fields only. -/
theorem Expr.compile_agree : ∀ (e : Expr) {f : Expr.Reader}, e.compile context = .ok f →
    Record.AgreeOn e.reads record record' → f record = f record'
  | .literal .., f, hf, _ => by
    cases hf
    rfl
  | .path p _ _, f, hf, h => by
    rw [Expr.compile] at hf
    rw [Expr.reads] at h
    rcases hp : p.asText? with - | path
    · rw [hp] at hf
      cases hf
    · rw [hp, haccessor] at hf
      rw [hp, Option.toList_some, List.flatMap_singleton] at h
      cases hf
      exact congrArg Except.ok (Expr.readPath_agree h)
  | .call function args _ _, f, hf, h => by
    obtain ⟨fs, hfs, hf⟩ := bind_eq_ok_iff.mp hf
    cases hf
    have hvalues := Expr.valuesOn_congr (Expr.compileAll_agree args hfs h)
    dsimp only
    rw [hvalues]

theorem Expr.compileAll_agree : ∀ (es : List Expr) {fs : List Expr.Reader},
    Expr.compileAll context es = .ok fs → Record.AgreeOn (Expr.readsAll es) record record' →
      ∀ f ∈ fs, f record = f record'
  | [], fs, hfs, _ => by
    cases hfs
    simp
  | e :: es, fs, hfs, h => by
    obtain ⟨f, hf, hfs⟩ := bind_eq_ok_iff.mp hfs
    obtain ⟨fs', hfs', hfs⟩ := bind_eq_ok_iff.mp hfs
    cases hfs
    exact List.forall_mem_cons.mpr
      ⟨Expr.compile_agree e hf h.left, Expr.compileAll_agree es hfs' h.right⟩

end

theorem Expr.compileFound_agree {e : Option Expr} {f : Expr.Reader}
    (hf : Expr.compileFound context e = .ok f) (h : Record.AgreeOn (Expr.readsOf e) record record') :
    f record = f record' := by
  cases e with
  | none => cases hf
  | some e => exact Expr.compile_agree haccessor e hf h

section

variable {c : Catalog} {notes : Notes} {default : Except Fault TextPolicy}

theorem Predicate.compileComparison_agree {op : Operator} {left right : Option Expr} {f : Test}
    (hf : compileComparison c default context op left right = .ok f)
    (h : Record.AgreeOn (Expr.readsOf left ++ Expr.readsOf right) record record') :
    f record = f record' := by
  obtain ⟨type, -, hf⟩ := bind_eq_ok_iff.mp hf
  obtain ⟨policy, -, hf⟩ := bind_eq_ok_iff.mp hf
  obtain ⟨k, -, hf⟩ := bind_eq_ok_iff.mp hf
  obtain ⟨l, hl, hf⟩ := bind_eq_ok_iff.mp hf
  obtain ⟨r, hr, hf⟩ := bind_eq_ok_iff.mp hf
  cases hf
  dsimp only
  rw [Expr.compileFound_agree haccessor hl h.left, Expr.compileFound_agree haccessor hr h.right]

set_option linter.unusedSectionVars false in
mutual

/-- **What a predicate says of a record depends on its fields only.** -/
theorem Predicate.compile_agree : ∀ (p : Predicate) {f : Predicate.Test},
    p.compile c notes default context = .ok f → Record.AgreeOn (p.reads notes) record record' →
      f record = f record'
  | .passthrough _ text, f, hf, _ => by
    obtain ⟨_, -, hf⟩ := bind_eq_ok_iff.mp hf
    cases hf
  | .unary _ op operand, f, hf, h => by
    rw [Predicate.compile] at hf
    split at hf
    · obtain ⟨g, hg, hf⟩ := bind_eq_ok_iff.mp hf
      cases hf
      exact congrArg (Except.map not) (Predicate.compilePresent_agree operand hg h)
    · obtain ⟨_, -, hf⟩ := bind_eq_ok_iff.mp hf
      cases hf
  | .logical _ op children, f, hf, h => by
    obtain ⟨fs, hfs, hf⟩ := bind_eq_ok_iff.mp hf
    obtain ⟨extent, -, hf⟩ := bind_eq_ok_iff.mp hf
    cases hf
    exact extent.holds_congr (Predicate.compileAll_agree children hfs h)
  | .comparison id op _ _, f, hf, h => Predicate.compileComparison_agree haccessor hf h
  | .quantified id op _ body, f, hf, h => by
    obtain ⟨elements, helements, hf⟩ := bind_eq_ok_iff.mp hf
    obtain ⟨g, -, hf⟩ := bind_eq_ok_iff.mp hf
    obtain ⟨extent, -, hf⟩ := bind_eq_ok_iff.mp hf
    cases hf
    -- the elements are the same, so whatever the body reads of them is the same
    dsimp only
    rw [Expr.compileFound_agree haccessor helements h]
  | .bare n, f, hf, h => by
    obtain ⟨g, hg, hf⟩ := bind_eq_ok_iff.mp hf
    cases hf
    exact congrArg (Except.map Value.truthy) (Node.function_agree n hg h)

theorem Predicate.compilePresent_agree : ∀ (p : Option Predicate) {f : Predicate.Test},
    Predicate.compilePresent c notes default context p = .ok f →
      Record.AgreeOn (Predicate.readsOf notes p) record record' → f record = f record'
  | none, f, hf, _ => by cases hf
  | some p, f, hf, h => Predicate.compile_agree p hf h

theorem Predicate.compileAll_agree : ∀ (ps : List (Option Predicate)) {fs : List Predicate.Test},
    Predicate.compileAll c notes default context ps = .ok fs →
      Record.AgreeOn (Predicate.readsAll notes ps) record record' → ∀ f ∈ fs, f record = f record'
  | [], fs, hfs, _ => by
    cases hfs
    simp
  | p :: ps, fs, hfs, h => by
    obtain ⟨f, hf, hfs⟩ := bind_eq_ok_iff.mp hfs
    obtain ⟨fs', hfs', hfs⟩ := bind_eq_ok_iff.mp hfs
    cases hfs
    exact List.forall_mem_cons.mpr
      ⟨Predicate.compilePresent_agree p hf h.left, Predicate.compileAll_agree ps hfs' h.right⟩

/-- **What the function of a node gives depends on the fields of the node only.** -/
theorem Node.function_agree : ∀ (n : Node) {f : Node.Result},
    n.function c notes default context = .ok f → Record.AgreeOn (n.reads notes) record record' →
      f record = f record'
  | .predicate p, f, hf, h => by
    obtain ⟨test, htest, hf⟩ := bind_eq_ok_iff.mp hf
    cases hf
    exact congrArg (Except.map Value.bool) (Predicate.compile_agree p htest h)
  | .expr e, f, hf, h => by
    refine Expr.compile_agree haccessor (e.current notes) hf ?_
    rwa [Expr.reads_current]
  | .call _ function args, f, hf, h => by
    obtain ⟨fs, hfs, hf⟩ := bind_eq_ok_iff.mp hf
    cases hf
    have hvalues := Expr.valuesOn_congr (Node.functions_agree args hfs h)
    dsimp only
    rw [hvalues]

theorem Node.functions_agree : ∀ (ns : List (Option Node)) {fs : List Node.Result},
    Node.functions c notes default context ns = .ok fs →
      Record.AgreeOn (Node.readsAll notes ns) record record' → ∀ f ∈ fs, f record = f record'
  | [], fs, hfs, _ => by
    cases hfs
    simp
  | none :: _, fs, hfs, _ => by cases hfs
  | some n :: ns, fs, hfs, h => by
    obtain ⟨f, hf, hfs⟩ := bind_eq_ok_iff.mp hfs
    obtain ⟨fs', hfs', hfs⟩ := bind_eq_ok_iff.mp hfs
    cases hfs
    exact List.forall_mem_cons.mpr
      ⟨Node.function_agree n hf h.left, Node.functions_agree ns hfs' h.right⟩

end

end

end

end

/-! ### Programs -/

namespace Node

/-- **A run sees only the fields that the node reads.** Compiling a node in a context without an
accessor of its own finds the paths that the node reads. A run of the program comes to the same value or
the same fault on two records that agree on the fields that these paths begin with, quantifier bodies
apart, whatever else the records hold and whenever they are looked at. -/
theorem run_sees_only_reads {c : Catalog} {default : Except Fault TextPolicy} {source : ContextSource}
    {context : Context} (hsource : Context.ofSource source = .ok context)
    (haccessor : context.accessor = none) {n : Node} {program : Program} {notes notes' : Notes}
    (hcompile : outcome (n.compile c default source) notes = (.ok program, notes'))
    {record record' : Value} (h : Record.AgreeOn (n.reads notes') record record') (current : Catalog)
    (now : Notes) : (outcome (program.run current record) now).1 =
      (outcome (program.run current record') now).1 := by
  obtain ⟨context', f, hsource', -, -, rfl⟩ := compile_ok_iff.mp hcompile
  cases hsource.symm.trans hsource'
  rw [Program.run, Program.run, outcome_bind_of_ok outcome_get, outcome_bind_of_ok outcome_get,
    outcome_bind_of_ok (outcome_modify _), outcome_bind_of_ok (outcome_modify _), outcome_lift,
    outcome_lift]
  dsimp only [Program.refreshed, Program.result]
  rcases hfunction : (n.refreshed current now).function c (now.shownBy current notes') default context
    with fault | g
  · rfl
  · -- the node of the program is up to date by now, and reads what it read before
    have hreads : Record.AgreeOn ((n.refreshed current now).reads (now.shownBy current notes'))
        record record' := by
      rwa [reads_refreshed]
    exact function_agree haccessor _ hfunction hreads

/-- The totals of lines are read, and that of the order itself is not. -/
theorem run_sees_only_reads_of_call :
    let any : Operator := ⟨.text "any", ["some"], false⟩
    let eq : Operator := ⟨.text "eq", ["==", "=", "equals"], false⟩
    let n : Node := .predicate (.logical 3 ⟨.text "and", ["&&"], false⟩
      [some (.comparison 0 eq (.text "toupper(customer.name)") (.text "'ANN'")),
        some (.quantified 2 any (.text "lines") (some (.comparison 1 eq (.text "total") (.int 5))))])
    let record (total : Int) : Value := .map [(.text "total", .int total),
      (.text "customer", .map [(.text "name", .text "Ann")]),
      (.text "lines", .list [.map [(.text "total", .int 5)]])]
    ∃ program, (outcome (n.compile [] (.ok {}) .absent) []).1 = .ok program ∧
      (outcome (program.run [] (record 1)) []).1 = (outcome (program.run [] (record 2)) []).1 := by
  intro any eq n record
  have hok : (outcome (n.compile [] (.ok {}) .absent) []).1.isOk := by decide +kernel
  obtain ⟨program, hprogram⟩ := exists_outcome_of_isOk hok
  have hreads : n.reads (outcome (n.compile [] (.ok {}) .absent) []).2 = ["customer", "lines"] := by
    decide +kernel
  refine ⟨program, congrArg Prod.fst hprogram, run_sees_only_reads rfl rfl hprogram ?_ [] []⟩
  rw [hreads]
  intro name hname
  rcases List.mem_cons.mp hname with rfl | hname
  · rfl
  · cases List.mem_singleton.mp hname
    rfl

end Node

end RecordFilter
