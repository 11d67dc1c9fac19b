import RecordFilter.Text.Basic

/-!
# Arguments of commands

Splits the words behind a command into options and arguments. An option begins with a hyphen, may
take a value, which is given after an equals sign or as the next word, and may stand anywhere; two
hyphens alone end the options. For a command with commands of its own, the first word that is no
option ends them too.
-/

namespace RecordFilter.CommandLine

/-- Mistakes in the use of a command. -/
inductive UsageError where
  /-- The words do not fit the command. -/
  | general
  | noArguments
  | noSuchCommand
  | noSuchOption
  /-- An option lacks its value, or has one that it does not take. -/
  | badOption
  | missingParameter
  /-- The value of an option or argument is not one that it can have. -/
  | badParameter
deriving DecidableEq, Repr

/-- The options that a command knows, each with whether it takes a value. -/
abbrev Spellings := List (Text × Bool)

/-- The words behind a command, sorted out. -/
structure Words where
  /-- The options with their values, in order. -/
  options : List (Text × Text) := []
  arguments : List Text := []
deriving DecidableEq, Repr, Inhabited

/-- The words with an option in front. -/
def Words.addOption (w : Words) (name value : Text) : Words :=
  { w with options := (name, value) :: w.options }

/-- The words with an argument in front. -/
def Words.addArgument (w : Words) (argument : Text) : Words :=
  { w with arguments := argument :: w.arguments }

/-- The value that an option was last given. -/
def Words.value? (w : Words) (name : Text) : Option Text :=
  w.options.reverse.lookup name

/-- The option among some names that was given first. -/
def Words.first? (w : Words) (names : List Text) : Option Text :=
  (w.options.find? fun o => names.contains o.1).map Prod.fst

/-- The option among some names that was given last. -/
def Words.last? (w : Words) (names : List Text) : Option Text :=
  (w.options.reverse.find? fun o => names.contains o.1).map Prod.fst

/-- A word that is meant as an option. -/
def isOption (word : Text) : Bool :=
  word.points.head? == some (.char '-') && 1 < word.length

/-- The name in an option and the value after its equals sign. -/
def splitOption (word : Text) : Text × Option Text :=
  let (name, rest) := word.points.span (· != CodePoint.char '=')
  match rest with
  | [] => (word, none)
  | _ :: value => (⟨name⟩, some ⟨value⟩)

/-- Sorts out the words behind a command; `mixed` tells whether options may stand behind
arguments. -/
def sortWords (mixed : Bool) (spellings : Spellings) : List Text → Except UsageError Words
  | [] => .ok {}
  | word :: rest =>
    if word = "--" then .ok { arguments := rest }
    else if isOption word then
      let (name, given) := splitOption word
      match spellings.lookup name, given with
      | none, _ => .error .noSuchOption
      | some false, some _ => .error .badOption
      | some false, none => (sortWords mixed spellings rest).map (·.addOption name "")
      | some true, some v => (sortWords mixed spellings rest).map (·.addOption name v)
      | some true, none =>
        match rest with
        | [] => .error .badOption
        | v :: rest => (sortWords mixed spellings rest).map (·.addOption name v)
    else if mixed then (sortWords mixed spellings rest).map (·.addArgument word)
    else .ok { arguments := word :: rest }

end RecordFilter.CommandLine
