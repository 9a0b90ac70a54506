import TypeSketch.CommandLine.Switch

/-!
# Commands

The words of a command line, read as a command.
-/

namespace TypeSketch.CommandLine

/-- What to make models from. -/
structure Inputs where
  /-- Every line is a document. -/
  ndjson : Bool
  pointer? : Option String
  filter? : Option String
  /-- The inputs are definitions. -/
  models : Bool
  format : String
  lang? : Option String
  name? : Option String
  /-- Paths, and patterns of paths. -/
  paths : List String

/-- What to do. -/
inductive Command
  /-- Write every model for a target. -/
  | emit (inputs : Inputs) (target : String) (out? : Option String)
  /-- Show what was read of every model. -/
  | schema (inputs : Inputs) (out? : Option String)
  /-- List the emitters. -/
  | targets

/-- The switches of every command. -/
def commonSwitches : List Switch := [{ name := "verbose", letter? := some 'v' }, help]

/-- The switches of the commands that make models. -/
def inputSwitches : List Switch := [
  { name := "ndjson" },
  { name := "json-pointer", arity := .one },
  { name := "jq-expr", arity := .one },
  { name := "models" },
  { name := "format", arity := .one },
  { name := "lang", arity := .one },
  { name := "name", arity := .one },
  { name := "input", letter? := some 'i', arity := .many },
  { name := "out", letter? := some 'o', arity := .one, filled := true }] ++ commonSwitches

/-- The switches of `emit`. -/
def emitSwitches : List Switch :=
  { name := "target", letter? := some 't', arity := .one } :: inputSwitches

/-- Read the switches of a command, which takes no other words. -/
def readCommand (switches : List Switch) (words : List String) : Except UsageError Given := do
  let rest ← readSwitches switches {} words
  match rest.words with
  | [] => return rest.given
  | word :: _ => throw (.unknownArgument word)

/-- The inputs given. -/
def Inputs.ofGiven (g : Given) : Inputs where
  ndjson := g.has "ndjson"
  pointer? := g.value? "json-pointer"
  filter? := g.value? "jq-expr"
  models := g.has "models"
  format := (g.value? "format").getD "json"
  lang? := g.value? "lang"
  name? := g.value? "name"
  paths := g.all "input"

/-- A format excludes a language, and some switches are required. -/
def checkGiven (g : Given) (required : List String) : Except UsageError Unit :=
  if g.has "format" && g.has "lang" then throw (.conflict "format")
  else
    match required.find? (!g.has ·) with
    | some name => throw (.missingArgument name)
    | none => return ()

/-- The names of the commands. -/
def commandNames : List String := ["emit", "schema", "targets", "help"]

/-- Read the command of a name. -/
def Command.ofName (name : String) (words : List String) : Except UsageError Command := do
  if name == "emit" then
    let g ← readCommand emitSwitches words
    checkGiven g ["input", "target"]
    return .emit (.ofGiven g) ((g.value? "target").getD "") (g.value? "out")
  else if name == "schema" then
    let g ← readCommand inputSwitches words
    checkGiven g ["input"]
    return .schema (.ofGiven g) (g.value? "out")
  else if name == "targets" then
    let _ ← readCommand commonSwitches words
    return .targets
  else if name == "help" then
    match words with
    | [] => throw .helpWanted
    | [topic] =>
      if commandNames.contains topic then throw .helpWanted else throw (.unknownCommand topic)
    | topic :: subtopic :: _ =>
      throw (.unknownCommand (if commandNames.contains topic then subtopic else topic))
  else throw (.unknownCommand name)

/-- Read the words of a command line. -/
def Command.ofArgs (args : List String) : Except UsageError Command := do
  let rest ← readSwitches commonSwitches {} args
  match rest.words with
  | [] => throw (if rest.given.values.isEmpty then .nothingGiven else .missingCommand)
  | name :: words =>
    if rest.behindDashes then
      if commandNames.contains name then throw (.unknownArgument name)
      else throw (.unknownCommand name)
    else ofName name words

end TypeSketch.CommandLine
