import TypeSketch.CommandLine.Command
import TypeSketch.CommandLine.Path
import TypeSketch.CommandLine.Pattern
import TypeSketch.Emit.Emitter
import TypeSketch.Input.Standard
import TypeSketch.Json.Pointer
import TypeSketch.Model.Decode
import TypeSketch.Query.Reader

/-!
# Running commands

A command makes models of its inputs, in order, and writes or shows them. A failure is told from the
outside in: what was being done, and what went wrong.
-/

namespace TypeSketch.CommandLine

/-- A step of a failure. -/
inductive Trouble
  /-- What was being done. -/
  | doing (text : String)
  | error (e : Error)
  | json (flaw : Json.Flaw)
  | files
  | filter
  | pattern

/-- What went wrong, from the outside in. -/
abbrev Failure := List Trouble

namespace Failure

/-- The failure that an error is. Malformed JSON is a cause of its own. -/
def ofError : Error → Failure
  | .json flaw => [.error (.json flaw), .json flaw]
  | e => [.error e]

end Failure

/-- The result of doing something, told in a failure. -/
def doing {α : Type} (text : String) : Except Failure α → Except Failure α
  | .ok a => .ok a
  | .error failure => .error (.doing text :: failure)

/-- A result that fails for a cause. -/
def orFail {α : Type} (failure : Failure) : Option α → Except Failure α
  | some a => .ok a
  | none => .error failure

/-- A result that may fail with an error. -/
def orError {α : Type} : Except Error α → Except Failure α
  | .ok a => .ok a
  | .error e => .error (.ofError e)

/-! ### Documents -/

namespace Inputs

/-- The documents are read and written again, which loses their comments. -/
def isPreprocessed (inputs : Inputs) : Bool :=
  inputs.ndjson || inputs.pointer?.isSome || inputs.filter?.isSome

/-- The values in a text, one a line or one in all. -/
def values (inputs : Inputs) (path text : String) : Except Failure (List Json) :=
  let read (task : String) (s : String) : Except Failure Json :=
    match Json.parse s with
    | .ok j => .ok j
    | .error flaw => .error [.doing task, .json flaw]
  if inputs.ndjson then
    let numbered := (Text.lines text.toList).zipIdx.filter fun (l, _) => !(Text.trim l).isEmpty
    numbered.mapM fun (l, i) =>
      read (path ++ ":" ++ toString (i + 1) ++ ": invalid JSON line") (String.ofList l)
  else return [← read (path ++ ": invalid JSON") text]

/-- The documents in a text: what the pointer leads to in every value, and what the filter makes of
that. -/
def documents (inputs : Inputs) (filter? : Option Filter) (path text : String) :
    Except Failure (List Json) := do
  let values ← inputs.values path text
  let values ←
    match inputs.pointer? with
    | none => pure values
    | some pointer =>
      values.mapM fun j =>
        orFail [.doing (path ++ ": nothing at JSON pointer " ++ pointer)] (j.pointer? pointer)
  match filter? with
  | none => return values
  | some filter =>
    return (← values.mapM fun j =>
      orFail [.doing (path ++ ": jq failed"), .filter] (filter.outputs? j)).flatten

/-- The name of the model of a file. -/
def modelName (inputs : Inputs) (path : String) : String :=
  inputs.name?.getD ((Path.stem? path).getD "root")

/-- The models of a file. -/
def modelsOf (inputs : Inputs) (filter? : Option Filter) (path text : String) :
    Except Failure (List Definition) := do
  let name := inputs.modelName path
  if inputs.models then
    doing (path ++ ": invalid model definitions") (orError (Definition.readAll text))
  else
    match inputs.lang? with
    | some lang => return [.ofSource name lang text]
    | none =>
      if !inputs.isPreprocessed then return [.ofSample name inputs.format text]
      else
        let documents ← inputs.documents filter? path text
        let nameOf (i : Nat) : String :=
          if documents.length > 1 then name ++ "_" ++ toString i else name
        return documents.zipIdx.map fun (j, i) => .ofSample (nameOf i) inputs.format j.compact

end Inputs

/-! ### Models -/

/-- Work on every model in turn, and tell which one failed. -/
def forModels {α : Type} (f : Definition → Draft α) (models : List Definition) :
    Except Failure (List α) :=
  let one (d : Definition) : ExceptT Failure (StateM Supply) α := fun supply =>
    let (result, supply) := (f d).outcome supply
    (doing ("model `" ++ d.name ++ "`") (orError result), supply)
  ((models.mapM one).run {}).1

/-- Write models for a target. -/
def emitAll (target : String) (models : List Definition) : Except Failure String := do
  let emitter ← orFail (.ofError (.noEmitter target)) (Emitter.find? Emitter.standard target)
  let texts ← forModels (emitter.emit InputReader.standard .standard target) models
  return Text.joinWith "\n" (texts.filter (!·.isEmpty))

/-- Show what was read of models: of a single one itself, else a list. -/
def schemaAll (models : List Definition) : Except Failure String := do
  match ← forModels (·.parse InputReader.standard .standard) models with
  | [parsed] => return parsed.toJson.pretty
  | parsed => return (Json.arr (parsed.map (·.toJson))).pretty

/-- The emitters with their targets. -/
def targetList : String :=
  String.join (Emitter.standard.map fun e => e.name ++ ": " ++ Text.joinWith ", " e.targets ++ "\n")

/-! ### Commands -/

section

variable {m : Type → Type} [Monad m] (files : Files m)

/-- The paths that a word means: itself, or all that it matches if it is meant as a pattern. -/
def pathsOf (word : String) : ExceptT Failure m (List String) := do
  if Pattern.isPattern word then
    match Pattern.ofText? word with
    | none => throw [.doing ("invalid glob pattern: " ++ word), .pattern]
    | some pattern =>
      let paths : List String ← (pattern.paths files (word.toList.head? == some '/') : m _)
      if paths.isEmpty then throw [.doing ("glob pattern matched no files: " ++ word)]
      else return paths
  else return [word]

/-- Read a file. -/
def readFile (path : String) : ExceptT Failure m String := do
  match ← files.read? path with
  | some text => return text
  | none => throw [.doing ("failed to read " ++ path), .files]

/-- The models of all inputs. -/
def loadModels (inputs : Inputs) : ExceptT Failure m (List Definition) := do
  let filter? ←
    match inputs.filter? with
    | none => pure none
    | some text => some <$> ExceptT.mk (pure (orFail [.filter] (Filter.ofText? text)))
  let paths := (← inputs.paths.mapM (pathsOf files)).flatten
  return (← paths.mapM fun path => do
    let text ← readFile files path
    ExceptT.mk (pure (inputs.modelsOf filter? path text))).flatten

/-- Write a text to a file, or print it as a line. -/
def writeOut (out? : Option String) (text : String) : ExceptT Failure m Unit := do
  match out? with
  | none => files.print (text ++ "\n")
  | some path =>
    match Path.parent? path with
    | none => pure ()
    | some parent =>
      if !(← files.makeFolder parent) then throw [.doing ("failed to create " ++ parent), .files]
    if !(← files.write path text) then throw [.doing ("failed to write " ++ path), .files]

/-- Run a command. -/
def run : Command → ExceptT Failure m Unit
  | .targets => files.print targetList
  | .emit inputs target out? => do
    let models ← loadModels files inputs
    writeOut files out? (← ExceptT.mk (pure (emitAll target models)))
  | .schema inputs out? => do
    let models ← loadModels files inputs
    writeOut files out? (← ExceptT.mk (pure (schemaAll models)))

end

end TypeSketch.CommandLine
