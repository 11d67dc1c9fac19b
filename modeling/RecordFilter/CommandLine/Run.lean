import RecordFilter.CommandLine.Arguments
import RecordFilter.Json.Read
import RecordFilter.Node.Use
import RecordFilter.Schema.Document
import RecordFilter.Settings

/-!
# The command line

Two commands: `serialize` prints the canonical form of a filter, and `evaluate` prints those records
of a JSON list that match a filter. Both take a schema document.

`CommandLine.run` is a function of the arguments and of a `World`: the files, the standard input and
the environment. Mistakes are found in a fixed order: options of the program, the name of the
command, the settings, the words behind the command, and last what the command does.
-/

namespace RecordFilter.CommandLine

/-- What a run of the program can see. -/
structure World where
  files : List (Text × Text) := []
  input : Text := ""
  environment : Settings.Environment := []

/-- Why a run fails. -/
inductive Failure where
  | usage (error : UsageError)
  /-- The run stops with a message. -/
  | message (text : Text)
  /-- A schema document is no JSON. -/
  | malformed
  | fault (fault : Fault)
deriving DecidableEq, Repr

/-- How a run ends before its command does anything: with a failure, or with a text. -/
inductive Stop where
  | failure (failure : Failure)
  | printed (text : Text)

/-- Steps of a run. -/
abbrev Run := Except Stop

/-- Stops with a failure. -/
def fail {α : Type} (f : Failure) : Run α :=
  .error (.failure f)

/-- Stops with a mistake in the use of a command. -/
def misuse {α : Type} (e : UsageError) : Run α :=
  fail (.usage e)

/-- Stops with a fault. Faults of filters stop with their message. -/
def orFault {α : Type} : Except Fault α → Run α
  | .ok a => .ok a
  | .error f =>
    match f.isPredicateError, f.message? with
    | true, some text => fail (.message text)
    | _, _ => fail (.fault f)

/-! ### Files -/

/-- The code points of a text file, in which every end of a line is a single character. -/
def plainLines : List CodePoint → List CodePoint
  | [] => []
  | .char '\r' :: .char '\n' :: cs => .char '\n' :: plainLines cs
  | .char '\r' :: cs => .char '\n' :: plainLines cs
  | c :: cs => c :: plainLines cs

/-- The name of a file without the steps into its own directory in front. -/
def plainName : List CodePoint → List CodePoint
  | .char '.' :: .char '/' :: cs => plainName cs
  | cs => cs

namespace World

/-- The text of a file. -/
def file? (w : World) (name : Text) : Option (List CodePoint) :=
  let name := Text.mk (plainName name.points)
  (w.files.find? fun f => f.1 == name).map fun f => plainLines f.2.points

/-- The text that an argument names: a file, or the standard input. -/
def text? (w : World) (name : Text) : Option (List CodePoint) :=
  if name = "-" then some (plainLines w.input.points) else w.file? name

end World

/-! ### Inputs -/

/-- A filter as it is given on the command line: JSON, or else a text that is passed through. -/
def filterOf (s : Text) : Except Fault Value :=
  match Json.ofText s.points with
  | .ok v => .ok v
  | .error .longInteger => .error .badValue
  | .error (.malformed ..) => .ok (.text s)

/-- A schema with the naming convention of the settings, unless its document gives one. -/
def withConvention (s : Settings) (document : Value) (schema : EntityId × Catalog) : Catalog :=
  match document with
  | .map entries =>
    match Value.lookup? (.text "namingConvention") entries with
    | some _ => schema.2
    | none => schema.2.update schema.1 fun e => { e with convention := s.convention }
  | _ => schema.2

/-- Reads the schema document in a file. -/
def loadSchema (w : World) (s : Settings) (name : Text) : Run (EntityId × Catalog) := do
  let cs ←
    match w.file? name with
    | some cs => pure cs
    | none => misuse .badParameter
  match Json.ofText cs with
  | .error (.malformed ..) => fail .malformed
  | .error .longInteger => fail (.fault .badValue)
  | .ok document =>
    match Document.read [] document with
    | .error (.document e) =>
      fail (.message ("Invalid schema " ++ name ++ ": " ++ e.message))
    | .error f => fail (.fault f)
    | .ok schema => return (schema.1, withConvention s document schema)

/-- The schema of a command, if one is given. -/
def schemaOf (w : World) (s : Settings) (name : Option Text) :
    Run (Option EntityId × Catalog) :=
  match name with
  | none => .ok (none, [])
  | some name => (loadSchema w s name).map fun (id, c) => (some id, c)

/-- Reads the predicate that a filter on the command line means. -/
def predicateOf (s : Text) : Run Predicate := do
  let filter ← orFault (filterOf s)
  match ← orFault ((Filter.read filter).run.run {}).1 with
  | some p => return p
  | none => fail (.fault .noMember)

/-- The list of records in a JSON text. -/
def recordsOf (cs : List CodePoint) : Run (List Value) :=
  match Json.ofText cs with
  | .error (.malformed reason position) =>
    fail (.message ("RECORDS is not valid JSON: " ++ Json.malformedText cs reason position))
  | .error .longInteger => fail (.fault .badValue)
  | .ok (.list records) => .ok records
  | .ok _ => fail (.message "RECORDS must be a JSON array")

/-! ### Commands -/

/-- Prints the canonical form of a filter. -/
def serialize (w : World) (s : Settings) (filter : Text) (schemaName : Option Text)
    (server : Bool) (explicitType : Option Bool) : Run Text := do
  let (schema, c) ← schemaOf w s schemaName
  let p ← predicateOf filter
  let context : Context :=
    { schema, server := .bool server, explicitType := .bool (explicitType.getD s.explicitType) }
  orFault (((Node.predicate p).toJson c {} (.ready context)).run.run []).1

/-- The policy that a flag on letter case asks for. -/
def flagPolicy (s : Settings) (caseSensitive : Option Bool) : Option TextPolicy :=
  caseSensitive.map fun caseSensitive => { caseSensitive, trimmed := s.trimmed }

/-- The records on which a test holds. -/
def select (test : Value → Except Fault Bool) : List Value → Except Fault (List Value)
  | [] => .ok []
  | r :: rs => do
    if ← test r then return r :: (← select test rs) else select test rs

/-- Prints the records that match a filter. -/
def evaluate (w : World) (s : Settings) (filter : Text) (records : List CodePoint)
    (schemaName : Option Text) (caseSensitive : Option Bool) : Run Text := do
  let records ← recordsOf records
  let (schema, c) ← schemaOf w s schemaName
  let p ← predicateOf filter
  let context : Context := { schema, policy := flagPolicy s caseSensitive }
  let program ←
    orFault (((Node.predicate p).compile c (.ok s.policy) (.ready context)).run.run []).1
  let selected ← orFault (select (fun r => (program.result r).map Value.truthy) records)
  orFault (Json.toText {} (.list selected))

/-! ### Words -/

/-- The options of the program. -/
def programOptions : Spellings :=
  [("--version", false), ("--log-level", true), ("--help", false)]

/-- The options of `serialize`. -/
def serializeOptions : Spellings :=
  [("--schema", true), ("--server", false), ("--explicit-data-type", false),
    ("--no-explicit-data-type", false), ("--help", false)]

/-- The options of `evaluate`. -/
def evaluateOptions : Spellings :=
  [("--schema", true), ("--case-sensitive", false), ("--case-insensitive", false),
    ("--help", false)]

/-- What `--version` prints. -/
def versionText : Text :=
  "filterexpr, version 0.1.0\n"

/-- A short account of the program. -/
def helpText : Text :=
  "Usage: filterexpr [--version] [--log-level LEVEL] COMMAND ...\n\n" ++
    "  serialize FILTER [--schema FILE] [--server] [--explicit-data-type]\n" ++
    "  evaluate FILTER RECORDS [--schema FILE] [--case-sensitive]\n"

/-- Sorts out words of a command. -/
def sorted (mixed : Bool) (spellings : Spellings) (words : List Text) : Run Words :=
  match sortWords mixed spellings words with
  | .ok w => .ok w
  | .error e => misuse e

/-- Acts on the options of the program and gives the words from the command on. -/
def programWords (words : List Text) : Run (List Text) := do
  let w ← sorted false programOptions words
  match w.first? ["--version", "--help"] with
  | some name => throw (.printed (if name = "--version" then versionText else helpText))
  | none =>
    match w.value? "--log-level" with
    | some level =>
      if (LogLevel.names.lookup level).isSome then return w.arguments
      else misuse .badParameter
    | none => return w.arguments

/-- The value of a flag with two spellings, of which the last one counts. -/
def flag? (w : Words) (on off : Text) : Option Bool :=
  (w.last? [on, off]).map (· == on)

/-- The name of the schema document, which must be there. -/
def schemaName (world : World) (w : Words) : Run (Option Text) :=
  match w.value? "--schema" with
  | none => .ok none
  | some name => if (world.file? name).isSome then .ok (some name) else misuse .badParameter

/-- Runs `serialize` with the words behind it. -/
def runSerialize (world : World) (s : Settings) (words : List Text) : Run Text := do
  let w ← sorted true serializeOptions words
  if (w.value? "--help").isSome then throw (.printed helpText)
  else
    let schema ← schemaName world w
    match w.arguments with
    | [] => misuse .missingParameter
    | [filter] =>
      serialize world s filter schema (w.value? "--server").isSome
        (flag? w "--explicit-data-type" "--no-explicit-data-type")
    | _ => misuse .general

/-- Runs `evaluate` with the words behind it. -/
def runEvaluate (world : World) (s : Settings) (words : List Text) : Run Text := do
  let w ← sorted true evaluateOptions words
  if (w.value? "--help").isSome then throw (.printed helpText)
  else
    let schema ← schemaName world w
    match w.arguments with
    | [] | [_] => misuse .missingParameter
    | filter :: records :: more =>
      match world.text? records with
      | none => misuse .badParameter
      | some cs =>
        if more.isEmpty then
          evaluate world s filter cs schema (flag? w "--case-sensitive" "--case-insensitive")
        else misuse .general

/-- The command with a name. -/
def command? (name : Text) : Option (World → Settings → List Text → Run Text) :=
  if name = "serialize" then some runSerialize
  else if name = "evaluate" then some runEvaluate
  else none

/-- The settings of the environment. -/
def settingsOf (world : World) : Run Settings :=
  match Settings.load world.environment with
  | .ok s => .ok s
  | .error _ => fail (.fault .invalidSettings)

/-- Runs the program up to the line that it prints. -/
def runWords (world : World) (words : List Text) : Run Text := do
  if words.isEmpty then misuse .noArguments
  else
    match ← programWords words with
    | [] => misuse .general
    | name :: rest =>
      match command? name with
      | some command =>
        let s ← settingsOf world
        return (← command world s rest) ++ "\n"
      | none =>
        if isOption name then
          let _ ← programWords (name :: rest)
        misuse .noSuchCommand

/-- Runs the program: what it prints, or why it fails. -/
def run (world : World) (words : List Text) : Except Failure Text :=
  match runWords world words with
  | .ok text => .ok text
  | .error (.printed text) => .ok text
  | .error (.failure f) => .error f

end RecordFilter.CommandLine
