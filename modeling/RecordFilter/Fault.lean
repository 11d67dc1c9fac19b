import RecordFilter.Text.Basic

/-!
# Faults

Everything that can go wrong, by cause. The first groups say why an input is no predicate, why a
predicate does not fit a schema, why it cannot be run on records and why a context is unusable;
`Fault.message` is their wording. The other faults are those of single values: an operation that a
value does not support, a member it does not have, a text that is no number, and so on. Texts and
displays of offending values are taken when the fault arises, so a fault holds only text.
-/

namespace RecordFilter

/-- Why a value names no data type. -/
inductive TypeNameError where
  | unknown (name : Text)
  | notAName (shown : Text)
deriving DecidableEq, Repr

/-- Why an input cannot be turned into a predicate or operand. -/
inductive ConstructionError where
  | noInput
  | unknownOperator (shown : Text)
  | notAPredicate (shown : Text)
  | wrongLength (shown : Text)
  | noPredicateAfter (phrase : Text)
  | noPredicateForOperator (phrase operator operand : Text)
  | dataType (error : TypeNameError)
  | unknownFunction (name : Text)
deriving DecidableEq, Repr

/-- Why a predicate does not fit a schema. -/
inductive ValidationError where
  | noValue (shown entity : Text)
  | unresolvedOperand (shown : Text)
  | literalOperand (shown : Text)
  | unresolvedCollection (shown : Text)
  | notNavigation (collection entity operator : Text)
  | singleEntity (collection entity operator : Text)
  | unresolvedPath (entity path : Text)
deriving DecidableEq, Repr

/-- Why a predicate cannot be run on records. -/
inductive EvaluationError where
  | passthrough (text : Text)
  | unaryOperator (key : Text)
  | logicalOperator (key : Text)
  | unknownOperator (key : Text)
deriving DecidableEq, Repr

/-- Why a context cannot be used. -/
inductive ContextError where
  | noSchemaField
  | unknownFields (names : List Text)
  | notAContext (shown : Text)
deriving DecidableEq, Repr

/-- Why a schema document is refused. -/
inductive DocumentError where
  | noName
  | unknownConvention (name : Text)
  | unknownDataType (definition property : Text)
  | badProperty (name : Text)
deriving DecidableEq, Repr

/-- A failure of any part of the library. -/
inductive Fault where
  | construction (error : ConstructionError)
  | validation (error : ValidationError)
  | evaluation (error : EvaluationError)
  | context (error : ContextError)
  | document (error : DocumentError)
  | incompleteBackend (name : Text) (missing : List Text)
  /-- The operation does not apply to a value of this kind. -/
  | wrongType
  /-- The value has no such member. -/
  | noMember
  /-- The value is of the right kind but cannot be converted. -/
  | badValue
  /-- The number is too large for the conversion. -/
  | outOfRange
  /-- The index lies outside a list. -/
  | badIndex
  /-- The comparison of decimal numbers is undefined. -/
  | undefinedComparison
  /-- The settings are invalid. -/
  | invalidSettings
  /-- The parts of an operand refer to each other in a circle. -/
  | endlessOperand
deriving DecidableEq, Repr

/-- The wording of a type name error. -/
def TypeNameError.message : TypeNameError → Text
  | unknown name => "Unable to resolve a dataType named: " ++ name
  | notAName shown => "Not a DataType: " ++ shown

/-- The wording of a construction error. -/
def ConstructionError.message : ConstructionError → Text
  | noInput => "create_predicate() requires at least one argument"
  | unknownOperator shown => "Unable to resolve operator: " ++ shown
  | notAPredicate shown => "Unable to convert to a predicate: " ++ shown
  | wrongLength shown =>
    "Unable to convert to a predicate, expected 3 or 5 elements: " ++ shown
  | noPredicateAfter phrase => "Unable to resolve predicate after the phrase: " ++ phrase
  | noPredicateForOperator phrase operator operand =>
    "Unable to resolve predicate after the phrase: '" ++ phrase ++ "' for operator: '" ++
      operator ++ "' and value: '" ++ operand ++ "'"
  | dataType error => error.message
  | unknownFunction name => "Unknown function: " ++ name

/-- The wording of a validation error. -/
def ValidationError.message : ValidationError → Text
  | noValue shown entity =>
    "Unable to resolve an expression for: " ++ shown ++ " on entity type: " ++ entity
  | unresolvedOperand shown => "Unable to validate 1st expression: " ++ shown
  | literalOperand shown =>
    "The left hand side of a comparison cannot be a literal expression, it must be " ++
      "a valid property or function expression: " ++ shown
  | unresolvedCollection shown => "Unable to validate collection expression: " ++ shown
  | notNavigation collection entity operator =>
    "'" ++ collection ++ "' on entity type '" ++ entity ++ "' is not a navigation " ++
      "property and cannot be used with '" ++ operator ++ "'"
  | singleEntity collection entity operator =>
    "'" ++ collection ++ "' on entity type '" ++ entity ++ "' is a single related " ++
      "entity, not a collection, and cannot be used with '" ++ operator ++ "'"
  | unresolvedPath entity path =>
    "Unable to resolve property path. Entity type: '" ++ entity ++ "' Property path: '" ++
      path ++ "'"

/-- The text that an evaluation error quotes. -/
def EvaluationError.quoted : EvaluationError → Text
  | passthrough text => text
  | unaryOperator key | logicalOperator key | unknownOperator key => key

/-- The same evaluation error with another text that it quotes. -/
def EvaluationError.quoting (text : Text) : EvaluationError → EvaluationError
  | passthrough _ => passthrough text
  | unaryOperator _ => unaryOperator text
  | logicalOperator _ => logicalOperator text
  | unknownOperator _ => unknownOperator text

/-- The wording of an evaluation error. -/
def EvaluationError.message : EvaluationError → Text
  | passthrough text =>
    "Cannot execute a passthrough predicate against local records: " ++ text
  | unaryOperator key => "Invalid unary operator: " ++ key
  | logicalOperator key => "Invalid boolean operator: " ++ key
  | unknownOperator key => "Unknown operator: " ++ key

/-- The wording of a context error. -/
def ContextError.message : ContextError → Text
  | noSchemaField =>
    "Backends must be called with a context containing at least a 'schema' field"
  | unknownFields names => "Unknown context fields: " ++ Text.join ", " names
  | notAContext shown => "Invalid backend context: " ++ shown

/-- The wording of a document error. -/
def DocumentError.message : DocumentError → Text
  | noName => "Entity type definition requires a 'name'"
  | unknownConvention name => "Unknown naming convention: " ++ name
  | unknownDataType definition property =>
    "Unknown data type '" ++ definition ++ "' for property '" ++ property ++ "'"
  | badProperty name => "Property '" ++ name ++ "' must be a data type name or a navigation"

/-- The wording of a fault, for the faults that have one. -/
def Fault.message? : Fault → Option Text
  | construction e => some e.message
  | validation e => some e.message
  | evaluation e => some e.message
  | context e => some e.message
  | document e => some e.message
  | incompleteBackend name missing =>
    some ("Backend '" ++ name ++ "' has no handler for: " ++ Text.join ", " missing)
  | _ => none

/-- The fault is one that filters are expected to raise: everything about predicates, schemas and
contexts, and nothing about single values. -/
def Fault.isPredicateError : Fault → Bool
  | construction _ | validation _ | evaluation _ | context _ => true
  | _ => false

end RecordFilter
