import RecordFilter.Schema

/-!
# Settings

Settings come from variables of the environment whose names begin with `FILTEREXPR_`, in any letter
case; of several spellings of one name the last counts. A variable that is absent leaves the
default. `Settings.load` gives the settings or the names of all fields that were refused.
-/

namespace RecordFilter

/-- What the program is run for. -/
inductive Stage where
  | development | production | testing
deriving DecidableEq, Repr, Inhabited

/-- How much is logged. -/
inductive LogLevel where
  | debug | info | warning | error | critical
deriving DecidableEq, Repr, Inhabited

/-- How log lines are written. -/
inductive LogFormat where
  | json | console
deriving DecidableEq, Repr, Inhabited

/-- The names of the stages. -/
def Stage.names : List (Text × Stage) :=
  [("development", .development), ("production", .production), ("testing", .testing)]

/-- The names of the log levels. -/
def LogLevel.names : List (Text × LogLevel) :=
  [("DEBUG", .debug), ("INFO", .info), ("WARNING", .warning), ("ERROR", .error),
    ("CRITICAL", .critical)]

/-- The names of the log formats. -/
def LogFormat.names : List (Text × LogFormat) :=
  [("json", .json), ("console", .console)]

/-- The name of a stage. -/
def Stage.name : Stage → Text
  | development => "development"
  | production => "production"
  | testing => "testing"

/-- The name of a log level. -/
def LogLevel.name : LogLevel → Text
  | debug => "DEBUG"
  | info => "INFO"
  | warning => "WARNING"
  | error => "ERROR"
  | critical => "CRITICAL"

/-- The name of a log format. -/
def LogFormat.name : LogFormat → Text
  | json => "json"
  | console => "console"

/-- The settings of a run. -/
structure Settings where
  appName : Text := "filterexpr"
  appVersion : Text := "0.1.0"
  stage : Stage := .development
  debug : Bool := false
  logLevel : LogLevel := .info
  logFormat : LogFormat := .console
  caseSensitive : Bool := false
  trimmed : Bool := true
  explicitType : Bool := false
  convention : NamingConvention := .same
deriving DecidableEq, Repr, Inhabited

namespace Settings

/-- The variables of an environment, in order. -/
abbrev Environment := List (Text × Text)

/-- Sets a variable; a name that is known keeps its place. -/
def Environment.put (name value : Text) : Environment → Environment
  | [] => [(name, value)]
  | (n, v) :: rest => if n = name then (n, value) :: rest else (n, v) :: put name value rest

/-- How the name of every variable begins. -/
def namePrefix : Text :=
  "FILTEREXPR_"

/-- The value of the variable for a field. -/
def valueOf? (env : Environment) (field : Text) : Option Text :=
  (env.reverse.find? fun v => Text.lower v.1 == Text.lower (namePrefix ++ field)).map Prod.snd

/-- The truth value that a word stands for, in any letter case of ASCII. -/
def boolOf? (word : Text) : Option Bool :=
  let small := Text.mk (word.points.map Text.lowerAscii)
  let words (words : List Text) : Bool := words.contains small
  if words ["1", "on", "t", "true", "y", "yes"] then some true
  else if words ["0", "off", "f", "false", "n", "no"] then some false
  else none

/-- A field with its reader: the settings with the field set to a value, if the value is one that
the field can have. -/
structure Field where
  name : Text
  set? : Settings → Text → Option Settings

/-- A field that is a truth value. -/
def boolField (name : Text) (set : Settings → Bool → Settings) : Field :=
  ⟨name, fun s v => (boolOf? v).map (set s)⟩

/-- All fields, in the order in which they are shown. -/
def fields : List Field :=
  [⟨"app_name", fun s v => some { s with appName := v }⟩,
    ⟨"app_version", fun s v => some { s with appVersion := v }⟩,
    ⟨"environment", fun s v => (Stage.names.lookup v).map fun stage => { s with stage }⟩,
    boolField "debug" fun s debug => { s with debug },
    ⟨"log_level", fun s v =>
      (LogLevel.names.lookup (Text.upper v)).map fun logLevel => { s with logLevel }⟩,
    ⟨"log_format", fun s v => (LogFormat.names.lookup v).map fun logFormat => { s with logFormat }⟩,
    boolField "string_case_sensitive" fun s caseSensitive => { s with caseSensitive },
    boolField "string_trim_before_compare" fun s trimmed => { s with trimmed },
    boolField "explicit_data_type" fun s explicitType => { s with explicitType },
    ⟨"naming_convention", fun s v =>
      (NamingConvention.ofName? v).map fun convention => { s with convention }⟩]

/-- The settings with one field loaded, and the fields refused so far. -/
def loadField (env : Environment) (state : Settings × List Text) (field : Field) :
    Settings × List Text :=
  match valueOf? env field.name with
  | none => state
  | some v =>
    match field.set? state.1 v with
    | some s => (s, state.2)
    | none => (state.1, state.2 ++ [field.name])

/-- The settings that an environment gives, or the names of the fields that are refused. -/
def load (env : Environment) : Except (List Text) Settings :=
  match fields.foldl (loadField env) ({}, []) with
  | (s, []) => .ok s
  | (_, refused) => .error refused

/-- The settings as a record: all fields, and what they say about the stage. -/
def toRecord (s : Settings) : List (Text × Value) :=
  [("app_name", .text s.appName), ("app_version", .text s.appVersion),
    ("environment", .text s.stage.name), ("debug", .bool s.debug),
    ("log_level", .text s.logLevel.name), ("log_format", .text s.logFormat.name),
    ("string_case_sensitive", .bool s.caseSensitive),
    ("string_trim_before_compare", .bool s.trimmed),
    ("explicit_data_type", .bool s.explicitType),
    ("naming_convention", .text s.convention.name),
    ("is_production", .bool (s.stage == .production)),
    ("is_development", .bool (s.stage == .development)),
    ("is_testing", .bool (s.stage == .testing))]

/-- How texts are compared where neither context nor schema says so. -/
def policy (s : Settings) : TextPolicy :=
  { caseSensitive := s.caseSensitive, trimmed := s.trimmed }

/-- The policy of the settings that an environment gives. -/
def policyIn (env : Environment) : Except Fault TextPolicy :=
  match load env with
  | .ok s => .ok s.policy
  | .error _ => .error .invalidSettings

end Settings

end RecordFilter
