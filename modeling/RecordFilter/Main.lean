import RecordFilter.CommandLine.Run

/-!
# The program

Gathers what a run can see, runs it and prints the outcome: a text on the standard output, or a
message on the standard error with an exit code.
-/

open RecordFilter CommandLine

namespace RecordFilter.Program

/-- The words that may name files: every argument, and the value in every option. -/
def fileNames (words : List Text) : List Text :=
  words ++ words.filterMap fun w => (splitOption w).2

/-- The files among some names that can be read. -/
def readFiles : List Text → IO (List (Text × Text))
  | [] => return []
  | name :: rest => do
    let others ← readFiles rest
    try
      let text ← IO.FS.readFile name.toString
      return (⟨plainName name.points⟩, ↑text) :: others
    catch _ => return others

/-- The variables of the environment that the settings know. -/
def readEnvironment : List Settings.Field → IO Settings.Environment
  | [] => return []
  | field :: rest => do
    let name := Text.upper (Settings.namePrefix ++ field.name)
    let others ← readEnvironment rest
    match ← IO.getEnv name.toString with
    | some v => return (name, ↑v) :: others
    | none => return others

/-- The standard input up to its end, as far as some lines go. -/
partial def readInput (input : IO.FS.Stream) (read : String) : IO String := do
  let line ← input.getLine
  if line.isEmpty then return read else readInput input (read ++ line)

/-- The standard input, if an argument asks for it. -/
def inputFor (words : List Text) : IO String := do
  if words.contains "-" then readInput (← IO.getStdin) "" else return ""

/-- The line that explains a failure. -/
def failureText : Failure → Text
  | .usage _ => "Error: the words do not fit; see filterexpr --help"
  | .message text => "Error: " ++ text
  | .malformed => "Error: the schema document is no JSON"
  | .fault f => "Error: " ++ (f.message?).getD "the filter cannot be used"

/-- The exit code of a failure. -/
def exitCode : Failure → UInt32
  | .usage _ => 2
  | _ => 1

end RecordFilter.Program

open RecordFilter.Program in
/-- Runs the program with its arguments. -/
def main (words : List String) : IO UInt32 := do
  let words := words.map Text.ofString
  let world : World :=
    { files := ← readFiles (fileNames words)
      input := .ofString (← inputFor words)
      environment := ← readEnvironment Settings.fields }
  match run world words with
  | .ok text =>
    (← IO.getStdout).putStr text.toString
    return 0
  | .error failure =>
    (← IO.getStderr).putStrLn (failureText failure).toString
    return exitCode failure
