import TypeSketch.CommandLine.Run
import TypeSketch.Job

/-!
# Models at the same time

The models of an emit command are read and written at the same time. Only the structs of JSON
samples take numbers; everything else that is done for a model depends on the model alone.
-/

namespace TypeSketch

/-! ### Reading -/

namespace Shape

mutual

/-- The shape that a JSON value implies below a path of names, as a job. -/
def jsonJob (path : String) : Json → Job Shape
  | .null => return nothing
  | .bool _ => return bool
  | .str s => return ofText s
  | .int n => .done (ofInt n path)
  | .float _ => return f64
  | .arr [] => return vector allValue
  | .arr (x :: _) => return vector (← jsonJob path x)
  | .obj members => do
    let fields ← membersJob path members
    let n ← Job.number
    return struct ("struct_" ++ toString n) fields

/-- The field entries that members imply, as a job. -/
def membersJob (path : String) : List (String × Json) → Job (List Shape)
  | [] => return []
  | (name, v) :: rest => do
    let below := Text.joinName path name
    let s ← jsonJob below v
    let fields ← membersJob path rest
    return field name (nameAfter below s) :: fields

end

/-- The shape that a sample implies, as a job. -/
def sampleJob (sample : Json) (path : String) : Job Shape := do
  let s ← jsonJob path sample
  return (s.copy.adding Trait.fromJson.present).adding (Trait.rawValue.entry (.json sample))

end Shape

/-- Reading a JSON sample with comments, as a job. -/
def CommentedJson.job (model : String) (sample : Sample) : Job Parsed :=
  match Json.parse (strip sample.text) with
  | .error flaw => .done (.error (.json flaw))
  | .ok value => do
    let s ← Shape.sampleJob value model
    if s.flag Trait.struct && !model.isEmpty then
      let s ← Job.done (s.replace (Trait.name.entry (.str model)))
      return .shape (← Job.done (annotate (comments sample.text) s))
    else return .shape s

/-- Reading an input with the readers at hand, as a job. -/
def Input.job (model : String) (registry : Registry) : Input → Job Parsed
  | .sample s => CommentedJson.job model s
  | .fields entries => .done (return .shape (← FieldList.read model registry entries))
  | .variants entries => .done (return .shape (← VariantList.read model entries))
  | .source _ => .done (.error (.noParser model))

/-- Reading a model with the readers at hand, as a job. -/
def Definition.job (registry : Registry) (d : Definition) : Job Parsed :=
  if d.inputs.isEmpty then .done (.error (.noInput d.name))
  else
    match d.choose? InputReader.standard with
    | none => .done (.error (.noParser d.name))
    | some (_, input) => do
      let parsed ← input.job d.name registry
      Job.done do
        inferred (← (d.overlays registry).foldlM (fun parsed e => parsed.append e) parsed)

/-! ### Writing -/

/-- Reading a model and writing it, as a job. -/
def Emitter.job (emitter : Emitter) (registry : Registry) (target : String) (d : Definition) :
    Job String := do
  let parsed ← d.job registry
  Job.done (emitter.writeModel target d parsed)

namespace Pool

/-- The pool of an emit command: a job for every model. -/
def ofModels (counter : Nat) (emitter : Emitter) (target : String) (models : List Definition) :
    Pool String :=
  ⟨counter, models.map (emitter.job .standard target)⟩

/-- The texts of all models, one behind the other, if all of them were written. -/
def joined? (pool : Pool String) : Option String :=
  (pool.jobs.mapM Job.result?).map fun texts => Text.joinWith "\n" (texts.filter (!·.isEmpty))

end Pool

end TypeSketch
