import TypeSketch.CommandLine.Run

/-!
# The program

Reads the words of the command line and runs the command on the files at hand.
-/

namespace TypeSketch.CommandLine

/-- The result of an action, if it does not fail. -/
def attempt {α : Type} (action : IO α) : IO (Option α) := do
  try return some (← action) catch _ => return none

/-- The names in a folder, if there is one. -/
def namesIn? (path : String) : IO (Option (List String)) :=
  attempt do
    let place := (← IO.currentDir) / path
    return (← place.readDir).toList.map (·.fileName)

/-- The files at hand. -/
def filesAtHand : Files IO where
  read? path := attempt (IO.FS.readFile path)
  isFolder? path := do
    if (← namesIn? path).isSome then return some true
    else return (← attempt (IO.FS.readFile path)).map fun _ => false
  names path := return (← namesIn? path).getD []
  makeFolder path := return (← attempt (IO.FS.createDirAll path)).isSome
  write path text := return (← attempt (IO.FS.writeFile path text)).isSome
  print := IO.print

/-- The words for a step of a failure. -/
def troubleText : Trouble → String
  | .doing text => text
  | .error e => e.message
  | .json .unfinished => "the text ends too early"
  | .json .malformed => "the text is malformed"
  | .files => "the file system refused"
  | .filter => "the filter failed"
  | .pattern => "the pattern is malformed"

/-- The words for a misused command line. -/
def usageText : UsageError → String
  | .nothingGiven | .helpWanted => "commands: emit, schema, targets"
  | .missingCommand => "a command is required"
  | .unknownCommand name => "there is no command `" ++ name ++ "`"
  | .unknownArgument word => "unexpected argument `" ++ word ++ "`"
  | .missingArgument name => "`--" ++ name ++ "` is required"
  | .badValue name => "`--" ++ name ++ "` needs a value"
  | .conflict name => "`--" ++ name ++ "` cannot be given like this"
  | .surplusValue name => "`--" ++ name ++ "` takes no value"

end TypeSketch.CommandLine

open TypeSketch.CommandLine

/-- Runs the words of the command line; the exit code is 0, 1 for a failure, 2 for misuse. -/
def main (args : List String) : IO UInt32 := do
  match Command.ofArgs args with
  | .error e =>
    IO.eprintln (usageText e)
    return 2
  | .ok command =>
    match ← (run filesAtHand command).run with
    | .ok () => return 0
    | .error failure =>
      IO.eprintln ("error: " ++ String.intercalate ": " (failure.map troubleText))
      return 1
