import RecordFilter.Predicate.Compile

/-!
# Texts that are taken in a run

Running a predicate on a record takes the plain texts of some values: of arguments of functions on
texts, and of values that are compared as texts. When such a value is a node, that leaves traces at
the node (`RecordFilter.Predicate.Check`). `Node.told` lists the nodes whose texts a run takes, in
order. It follows the run: what comes behind a fault or a decision is left out.
-/

namespace RecordFilter

/-- The nodes among values whose plain texts are taken one after the other, up to the first
text that does not exist. -/
def Value.toldNodes : List Value → List Node
  | [] => []
  | .node n shown :: vs =>
    match shown.text with
    | .ok _ => n :: Value.toldNodes vs
    | .error _ => [n]
  | _ :: vs => Value.toldNodes vs

/-- The arguments of which a function takes the plain texts. -/
def Function.texts : Function → List Value → List Value
  | concat, [front, back] => [front, back]
  | substringof, [.null, _] | substringof, [_, .null] => []
  | substringof, [find, source] => [find, source]
  | toupper, [source] | tolower, [source] | trim, [source] => [source]
  | substring, [source, _] | substring, [source, _, _] => [source]
  | replace, .null :: _ | startswith, .null :: _ | endswith, .null :: _ | indexof, .null :: _ => []
  | replace, [source, find, replacement] => [source, find, replacement]
  | startswith, [source, find] | endswith, [source, find] | indexof, [source, find] =>
    [source, find]
  | _, _ => []

/-- The values of which a comparison takes the plain texts. -/
def Comparison.texts (type : Option TypeRef) : Comparison → Value → Value → List Value
  | eq, a, b | ne, a, b => if a.isNonemptyText && !isByValue type then [a, b] else []
  | order _, _, _ => []
  | startsWith, a, b | endsWith, a, b | contains, a, b => [a, b]

namespace Expr

/-- The value of an operand on a record. -/
def valueOn (context : Context) (record : Value) (e : Expr) : Except Fault Value := do
  (← e.compile context) record

mutual

/-- The nodes whose texts an operand takes on a record. -/
def told (context : Context) (record : Value) : Expr → List Node
  | call function args _ _ =>
    toldAll context record args ++
      match args.mapM (valueOn context record) with
      | .ok vs => Value.toldNodes (function.texts vs)
      | .error _ => []
  | _ => []

/-- The nodes whose texts operands take on a record, up to the first that has no value. -/
def toldAll (context : Context) (record : Value) : List Expr → List Node
  | [] => []
  | e :: es =>
    told context record e ++
      match valueOn context record e with
      | .ok _ => toldAll context record es
      | .error _ => []

end

end Expr

namespace Predicate

/-- What tests that are tried in order tell, up to the one that decides. -/
def Extent.told {α : Type} (extent : Extent) (nodes : α → List Node)
    (test : α → Except Fault Bool) : List α → List Node
  | [] => []
  | a :: as =>
    nodes a ++
      match test a with
      | .ok b => if b == (extent == .all) then extent.told nodes test as else []
      | .error _ => []

/-- The nodes whose texts a comparison takes on a record. -/
def comparisonTold (context : Context) (record : Value) (op : Operator) (left right : Expr) :
    List Node :=
  left.told context record ++
    match left.valueOn context record with
    | .error _ => []
    | .ok a =>
      right.told context record ++
        match right.valueOn context record, Comparison.ofOperator? op with
        | .ok b, some test =>
          let type := if left.type.isSome then left.type else right.type
          Value.toldNodes (test.texts type a b)
        | _, _ => []

end Predicate

section

variable (c : Catalog) (notes : Notes) (default : Except Fault TextPolicy)

/-- Whether a predicate holds on a record. -/
def Predicate.testOn (context : Context) (record : Value) (p : Option Predicate) :
    Except Fault Bool := do
  (← Predicate.compilePresent c notes default context p) record

/-- The value of a node on a record. -/
def Node.valueOn (context : Context) (record : Value) (n : Option Node) :
    Except Fault Value := do
  match n with
  | some n => (← n.function c notes default context) record
  | none => throw .noMember

mutual

/-- The nodes whose texts a predicate takes on a record. -/
def Predicate.told (context : Context) (record : Value) : Predicate → List Node
  | .passthrough .. => []
  | .unary _ _ operand => Predicate.toldPresent context record operand
  | .logical _ op children =>
    match Predicate.logicalExtent op with
    | .ok extent => Predicate.toldAll extent context record children
    | .error _ => []
  | .comparison id op _ _ =>
    match (notes.note id).left, (notes.note id).right with
    | some left, some right => Predicate.comparisonTold context record op left right
    | _, _ => []
  | .quantified id op _ body =>
    match (notes.note id).collection, Predicate.quantifiedExtent op with
    | some e, .ok extent =>
      let inner := context.withSchema e.entity?
      e.told context record ++
        match (e.valueOn context record).bind Value.elements with
        | .ok vs =>
          extent.told (fun v => Predicate.toldPresent inner v body)
            (fun v => Predicate.testOn c notes default inner v body) vs
        | .error _ => []
    | _, _ => []
  | .bare n => Node.told context record n
termination_by structural p => p

/-- The nodes whose texts a predicate that must be there takes on a record. -/
def Predicate.toldPresent (context : Context) (record : Value) : Option Predicate → List Node
  | none => []
  | some p => Predicate.told context record p
termination_by structural p => p

/-- The nodes whose texts predicates take on a record, up to the one that decides. -/
def Predicate.toldAll (extent : Predicate.Extent) (context : Context) (record : Value) :
    List (Option Predicate) → List Node
  | [] => []
  | p :: ps =>
    Predicate.toldPresent context record p ++
      match Predicate.testOn c notes default context record p with
      | .ok b =>
        if b == (extent == .all) then Predicate.toldAll extent context record ps else []
      | .error _ => []
termination_by structural ps => ps

/-- The nodes whose texts a node takes on a record. -/
def Node.told (context : Context) (record : Value) : Node → List Node
  | .predicate p => Predicate.told context record p
  | .expr e => (e.current notes).told context record
  | .call _ function args =>
    Node.toldAll context record args ++
      match args.mapM (Node.valueOn c notes default context record) with
      | .ok vs => Value.toldNodes (function.texts vs)
      | .error _ => []
termination_by structural n => n

/-- The nodes whose texts nodes take on a record, up to the first that has no value. -/
def Node.toldAll (context : Context) (record : Value) : List (Option Node) → List Node
  | [] => []
  | none :: _ => []
  | some n :: ns =>
    Node.told context record n ++
      match Node.valueOn c notes default context record (some n) with
      | .ok _ => Node.toldAll context record ns
      | .error _ => []
termination_by structural ns => ns

end

end

end RecordFilter
