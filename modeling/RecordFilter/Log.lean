import RecordFilter.Value.Compare

/-!
# Log events and log variables

An event is a map that steps change on its way to a log line. Variables that go into every line are
bound by a `Scope` on entering it. Leaving a scope removes the names it has bound, whoever bound
them last, and leaving a scope that is not entered does nothing.
-/

namespace RecordFilter.Log

/-! ### Events -/

/-- An event on its way to a log line. -/
abbrev Event := List (Value × Value)

/-- A step that changes events. -/
inductive Step where
  /-- Names the logger under `logger`. -/
  | addLoggerName
  /-- Puts what stands under `event` under `message`. -/
  | renameMessage
deriving DecidableEq, Repr

/-- The name of a logger that has none. -/
def defaultName : Value :=
  .text "filterexpr"

/-- The name of the logger of an event: the name in the event if there is one, else the name of the
logger that is used. -/
def loggerName (logger : Option Value) (event : Event) : Value :=
  let given := (Value.lookup? (.text "logger_name") event).getD .null
  if given.truthy then given else logger.getD defaultName

/-- The event after a step; `logger` is the name of the logger that is used, if it has one. -/
def Step.apply (logger : Option Value) (step : Step) (event : Event) : Event :=
  match step with
  | addLoggerName =>
    let rest := Value.remove (.text "logger_name") event
    match Value.lookup? (.text "logger") rest with
    | some _ => rest
    | none => rest ++ [(.text "logger", loggerName logger event)]
  | renameMessage =>
    match Value.lookup? (.text "event") event with
    | some v => Value.insert (.text "message") v (Value.remove (.text "event") event)
    | none => event

/-! ### Variables -/

/-- Variables with their values; the names are distinct. -/
abbrev Bindings := List (Text × Value)

/-- Gives a value to a variable. -/
def Bindings.bind (bindings : Bindings) (name : Text) (v : Value) : Bindings :=
  bindings.filter (fun b => b.1 != name) ++ [(name, v)]

/-- Removes a variable. -/
def Bindings.unbind (bindings : Bindings) (name : Text) : Bindings :=
  bindings.filter fun b => b.1 != name

/-- Variables that are bound while a scope is entered. -/
structure Scope where
  values : Bindings
  isBound : Bool := false

/-- All scopes by name, and the variables that are bound. -/
structure State where
  scopes : List (Text × Scope) := []
  bindings : Bindings := []

/-- What can be done with scopes. -/
inductive Action where
  | create (name : Text) (values : Bindings)
  | enter (name : Text)
  | leave (name : Text)
  | clear

/-- Replaces a scope, or adds it at the end. -/
def putScope (name : Text) (scope : Scope) : List (Text × Scope) → List (Text × Scope)
  | [] => [(name, scope)]
  | (n, s) :: rest =>
    if n = name then (n, scope) :: rest else (n, s) :: putScope name scope rest

/-- The state after an action. -/
def State.act (s : State) : Action → State
  | .create name values => { s with scopes := putScope name { values := values } s.scopes }
  | .enter name =>
    match s.scopes.lookup name with
    | none => s
    | some scope =>
      { scopes := putScope name { scope with isBound := true } s.scopes
        bindings := scope.values.foldl (fun b (n, v) => b.bind n v) s.bindings }
  | .leave name =>
    match s.scopes.lookup name with
    | none => s
    | some scope =>
      if scope.isBound then
        { scopes := putScope name { scope with isBound := false } s.scopes
          bindings := scope.values.foldl (fun b (n, _) => b.unbind n) s.bindings }
      else s
  | .clear => { s with bindings := [] }

/-- The variables that are bound, sorted by name. -/
def State.sorted (s : State) : Bindings :=
  s.bindings.mergeSort fun a b => a.1.le b.1

end RecordFilter.Log
