import RecordFilter.Value.Compare
import RecordFilter.Value.Text

/-!
# Registries of operators

A registry knows, for each kind of predicate, the operators of that kind under every spelling: the
key and the aliases in small letters. A later entry takes over the spellings it shares with an
earlier one, and registering a kind again replaces all its operators. Registering gives a new
registry; the old one is unchanged.
-/

namespace RecordFilter

/-- The operators of one kind by their spellings, in order of first insertion. -/
abbrev Spellings (φ : Type) := List (Text × MarkedOperator φ)

namespace Spellings

variable {φ : Type}

/-- Gives a spelling to an operator. A spelling that is known keeps its place. -/
def insert (spelling : Text) (op : MarkedOperator φ) : Spellings φ → Spellings φ
  | [] => [(spelling, op)]
  | (s, o) :: rest =>
    if s = spelling then (s, op) :: rest else (s, o) :: insert spelling op rest

/-- The operator with a spelling. -/
def find? (spelling : Text) : Spellings φ → Option (MarkedOperator φ)
  | [] => none
  | (s, o) :: rest => if s = spelling then some o else find? spelling rest

/-- Adds an operator under its key and its aliases. -/
def add (spellings : Spellings φ) (op : MarkedOperator φ) : Spellings φ :=
  op.aliases.foldl (fun known a => insert (Text.lower a) op known) (insert op.key op spellings)

/-- The operators with their keys in small letters, under all their spellings. -/
def ofList (ops : List (MarkedOperator φ)) : Spellings φ :=
  ops.foldl (fun known op => add known { op with key := Text.lower op.key }) []

/-- The operators with different keys, in order of first insertion. -/
def operators (spellings : Spellings φ) : List (MarkedOperator φ) :=
  spellings.foldl (fun seen (_, op) =>
    if seen.any fun o => o.key == op.key then seen else seen ++ [op]) []

end Spellings

/-- The kinds of predicates with their operators, in order of first registration. -/
structure Registry (φ : Type) where
  entries : List (Text × Spellings φ) := []

namespace Registry

variable {φ ψ : Type}

/-- Puts the operators of a kind into a list of kinds; a known kind keeps its place. -/
def put (kind : Text) (spellings : Spellings φ) :
    List (Text × Spellings φ) → List (Text × Spellings φ)
  | [] => [(kind, spellings)]
  | (k, s) :: rest =>
    if k = kind then (k, spellings) :: rest else (k, s) :: put kind spellings rest

/-- The registry that knows these operators for a kind and all others as before. -/
def register (r : Registry φ) (kind : Text) (ops : List (MarkedOperator φ)) : Registry φ :=
  ⟨put kind (Spellings.ofList ops) r.entries⟩

/-- The same registry with other marks on its operators. -/
def mapMarks (f : φ → ψ) (r : Registry φ) : Registry ψ :=
  ⟨r.entries.map fun (kind, spellings) =>
    (kind, spellings.map fun (s, op) => (s, ⟨op.key, op.aliases, f op.isFunction⟩))⟩

/-- The names of the kinds. -/
def kinds (r : Registry φ) : List Text :=
  r.entries.map Prod.fst

/-- The operators of a kind under their spellings; an unknown kind has none. -/
def spellings (r : Registry φ) (kind : Text) : Spellings φ :=
  (r.entries.lookup kind).getD []

/-- The different operators of a kind. -/
def operators (r : Registry φ) (kind : Text) : List (MarkedOperator φ) :=
  (r.spellings kind).operators

/-- The spelling under which a value names an operator: an operator by its key as it is, a text or
a constant in small letters. -/
def spellingOf? : Value → Option Text
  | .operator o => o.key.asText?
  | v => v.asText?.map Text.lower

/-- A value can be looked up: it is no operator with a key that cannot be one of a map. -/
def canFind : Value → Bool
  | .operator o => o.key.isKey
  | _ => true

/-- The operator of a kind that a value names. -/
def find? (r : Registry φ) (kind : Text) (token : Value) : Option (MarkedOperator φ) :=
  (spellingOf? token).bind fun s => (r.spellings kind).find? s

/-- The operator of a kind that a value names, if it names one. -/
def lookup (r : Registry φ) (kind : Text) (token : Value) :
    Except Fault (Option (MarkedOperator φ)) :=
  if canFind token then .ok (r.find? kind token) else .error .wrongType

/-- The operator of a kind that a value names, which must exist. -/
def resolve (r : Registry φ) (kind : Text) (token : Value) : Except Fault (MarkedOperator φ) := do
  match ← r.lookup kind token with
  | some op => return op
  | none => throw (.construction (.unknownOperator token.display))

end Registry

namespace Operator

/-- The operator of negations. -/
def unary : List (MarkedOperator Bool) :=
  [⟨"not", ["!", "~"], false⟩]

/-- The operators that join predicates. -/
def logical : List (MarkedOperator Bool) :=
  [⟨"and", ["&&"], false⟩, ⟨"or", ["||"], false⟩]

/-- The operators of comparisons. -/
def comparison : List (MarkedOperator Bool) :=
  [⟨"eq", ["==", "=", "equals"], false⟩,
    ⟨"ne", ["!=", "~=", "notequals"], false⟩,
    ⟨"lt", ["<", "lessthan"], false⟩,
    ⟨"le", ["<=", "lessthanorequal"], false⟩,
    ⟨"gt", [">", "greaterthan"], false⟩,
    ⟨"ge", [">=", "greaterthanorequal"], false⟩,
    ⟨"startswith", [], true⟩,
    ⟨"endswith", [], true⟩,
    ⟨"contains", ["substringof"], true⟩]

/-- The operators that test the elements of a collection. -/
def quantified : List (MarkedOperator Bool) :=
  [⟨"any", ["some"], false⟩, ⟨"all", ["every"], false⟩]

end Operator

/-- The registry of the operators of filters. -/
def Registry.standard : Registry Bool :=
  ((((Registry.mk []).register "unary" Operator.unary).register "logical"
    Operator.logical).register "comparison" Operator.comparison).register "quantified"
      Operator.quantified

namespace Operator

/-- The operator of negations that a value names. -/
def unary? (token : Value) : Option (MarkedOperator Bool) :=
  Registry.standard.find? "unary" token

/-- The joining operator that a value names. -/
def logical? (token : Value) : Option (MarkedOperator Bool) :=
  Registry.standard.find? "logical" token

/-- The comparison that a value names. -/
def comparison? (token : Value) : Option (MarkedOperator Bool) :=
  Registry.standard.find? "comparison" token

/-- The quantifier that a value names. -/
def quantified? (token : Value) : Option (MarkedOperator Bool) :=
  Registry.standard.find? "quantified" token

end Operator

end RecordFilter
