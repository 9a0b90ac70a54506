import TypeSketch.Inference.Run
import TypeSketch.Model.Definition

/-!
# From definitions to shapes and programs

The first input that some reader accepts is read, the overlays are added, and a whole program gets
its shapes inferred.
-/

namespace TypeSketch.Definition

/-- The first input of the model that some reader accepts, with the reader. -/
def choose? (readers : List InputReader) (d : Definition) : Option (InputReader × Input) :=
  d.inputs.findSome? fun input =>
    (InputReader.find? readers input).map fun reader => (reader, input)

/-- Infer the shapes of a whole program. -/
def inferred : Parsed → Except Error Parsed
  | .node n =>
    if Inference.accepts n then return .node (← Inference.run Rule.standard n).1 else return .node n
  | .shape s => return .shape s

/-- Read a model. -/
def parse (readers : List InputReader) (registry : Registry) (d : Definition) : Draft Parsed := do
  if d.inputs.isEmpty then throw (.noInput d.name)
  match d.choose? readers with
  | none => throw (.noParser d.name)
  | some (reader, input) =>
    let parsed ← reader.read d.name input registry
    Draft.ofExcept do
      inferred (← (d.overlays registry).foldlM (fun parsed e => parsed.append e) parsed)

end TypeSketch.Definition
