import TypeSketch.Emit.JsonSchema
import TypeSketch.Emit.RustData
import TypeSketch.Emit.Sql
import TypeSketch.Model.Parse

/-!
# Emitters

An emitter answers to some targets and writes shapes and models. The first one that answers to a
target writes it.
-/

namespace TypeSketch

/-- A writer of shapes, and of models that have been read. -/
structure Emitter where
  name : String
  targets : List String
  writeShape : (target : String) → Shape → Except Error String
  writeModel : (target : String) → Definition → Parsed → Except Error String

namespace Emitter

/-- A writer of models by their shapes only. -/
def ofShapes (name : String) (targets : List String)
    (writeShape : (target : String) → Shape → Except Error String) : Emitter where
  name := name
  targets := targets
  writeShape := writeShape
  writeModel target d
    | .shape s => writeShape target s
    | .node n =>
      .error (.emit d.name (name ++ " emits types, got a `" ++ n.kind ++ "` program node"))

/-- Data types in Rust. -/
def rustData : Emitter where
  name := "rust_data"
  targets := ["rust_data", "rust"]
  writeShape _ s := (Rust.writeDeclarations s).text
  writeModel _ d
    | .shape s => (Rust.writeModel d s).text
    | .node _ => .error (.emit d.name "program nodes have no data model")

/-- Columns, tables and enum types. -/
def sql : Emitter where
  name := "sql"
  targets := ["sql"]
  writeShape _ s := Sql.columns s
  writeModel _ d
    | .shape s => if s.flag Trait.enum then Sql.createType s else Sql.createTable s
    | .node _ => .error (.emit d.name "program nodes have no table layout")

/-- Schemas. -/
def jsonSchema : Emitter :=
  ofShapes "json_schema" ["schema", "json_schema"] fun _ s => Schema.document s

/-- Nothing at all, for models that are only to be checked. -/
def empty : Emitter where
  name := "empty"
  targets := ["no_target"]
  writeShape _ _ := .ok ""
  writeModel _ _ _ := .ok ""

/-- The emitters, in the order in which they are asked. -/
def standard : List Emitter := [rustData, sql, jsonSchema, empty]

/-- The emitter answers to a target, however it is capitalized. -/
def answersTo (emitter : Emitter) (target : String) : Bool :=
  emitter.targets.any fun t => Text.eqIgnoreAsciiCase t target

/-- The first emitter that answers to a target. -/
def find? (emitters : List Emitter) (target : String) : Option Emitter :=
  emitters.find? (·.answersTo target)

/-- Read a model and write it. -/
def emit (emitter : Emitter) (readers : List InputReader) (registry : Registry) (target : String)
    (d : Definition) : Draft String := do
  let parsed ← d.parse readers registry
  Draft.ofExcept (emitter.writeModel target d parsed)

end Emitter

end TypeSketch
