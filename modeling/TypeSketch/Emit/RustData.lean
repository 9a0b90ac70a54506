import TypeSketch.Dispatch
import TypeSketch.Emit.Page
import TypeSketch.Emit.RustType
import TypeSketch.Emit.Sql
import TypeSketch.Model.Definition
import TypeSketch.Shape.Timestamp

/-!
# Data types in Rust

A struct is declared with every struct inside it, an enum by itself. Behind the declarations of a
model stand its sample and its columns.
-/

namespace TypeSketch.Rust

/-- What every struct derives. -/
def structDerive : List String := ["Clone", "Debug", "Serialize", "Deserialize", "PartialEq"]

/-- What every enum derives. -/
def enumDerive : List String :=
  ["Copy", "Clone", "Debug", "Serialize", "Deserialize", "PartialEq", "Eq", "EnumString", "Display"]

/-- The line that derives. -/
def deriveLine (names : List String) : String := "#[derive(" ++ Text.joinWith ", " names ++ ")]"

/-- The line that keeps the name that data goes by. -/
def renameLine (name : String) : String := "#[serde(rename = \"" ++ name ++ "\")]"

/-! ### Fields -/

/-- The date of the sample of a timestamp. -/
def sampleDate? (unit : String) (s : Shape) : Option String := do
  let sample ← (← s.field? Trait.rawValue).asJson?
  Timestamp.sampleDate? unit (← sample.asInt64?)

/-- The comment on a timestamp. -/
def timestampComment (unit : String) (s : Shape) : String :=
  match sampleDate? unit s with
  | some date => "/// timestamp in " ++ unit ++ ", e.g. " ++ date
  | none => "/// timestamp in " ++ unit

/-- The comments on a field, those of its entry before those of its shape. -/
def fieldComments (f : Shape) : List String :=
  (f.strs Trait.beforeLineComment ++ f.content.strs Trait.beforeLineComment).flatMap fun comment =>
    (Text.lines comment.toList).map fun l => "/// " ++ String.ofList l

/-- The lines before the field itself. -/
def fieldHead (f : Shape) : List String :=
  let s := f.content
  fieldComments f ++ ((s.str? Trait.tsUnit).map fun unit => timestampComment unit s).toList ++
    (if s.flag Trait.stringWrapped then ["#[serde_as(as = \"DisplayFromStr\")]"] else []) ++
    (if fieldName f.label != f.label then [renameLine f.label] else [])

/-- Write lines. -/
def writeLines (lines : List String) : Writing Error Unit := lines.forM Writing.line

/-- Write a field. -/
def writeField (f : Shape) : Writing Error Unit := do
  writeLines (fieldHead f)
  let type ← Writing.ofExcept (typeOf f.content)
  Writing.line ("pub " ++ fieldName f.label ++ ": " ++ type ++ ",")

/-! ### Declarations -/

/-- Declare a struct. -/
def writeStruct (s : Shape) : Writing Error Unit := do
  if s.fields.any fun f => f.content.flag Trait.stringWrapped then Writing.line "#[serde_as]"
  Writing.line (deriveLine (structDerive ++ s.strs Trait.derive))
  Writing.block ("pub struct " ++ Text.pascalCase s.name) "" (s.fields.forM writeField)

/-- The lines of a variant. Its other names are read too, the primary one last. -/
def variantLines (v : Shape) : List String :=
  let names := v.strs Trait.variantNames
  let primary := names.headD v.name
  let mapped := variantName primary
  let serialize := names.reverse.map fun n => "serialize = \"" ++ n ++ "\""
  (if names.length > 1 || mapped != primary then
      ["#[strum(" ++ Text.joinWith ", " serialize ++ ")]"]
    else []) ++
    (if mapped != primary then [renameLine primary] else []) ++ [mapped ++ ","]

/-- Declare an enum. -/
def writeEnum (s : Shape) : Writing Error Unit := do
  Writing.line (deriveLine enumDerive)
  Writing.block ("pub enum " ++ Text.pascalCase s.name) ""
    (writeLines (s.variants.flatMap variantLines))

/-- Everything else has no declaration. -/
def notDeclarable (s : Shape) : Writing Error Unit :=
  throw (.emit s.name ("must be a struct or enum, found kind `" ++ s.kind ++ "`"))

/-- How to declare a shape, by its kind. -/
def declarations : Dispatcher (Shape → Writing Error Unit) :=
  ((({} : Dispatcher _).on "struct" writeStruct).on "enum" writeEnum).otherwise notDeclarable

/-- Add a struct and those inside it to the ones found, each once. A struct that is defined
elsewhere is not added, but shapes are still looked for in what it is made of. -/
def collect (s : Shape) (found : List Shape) : List Shape :=
  let found :=
    if s.flag Trait.struct && !s.has Trait.typeRef then
      let found := if found.any (·.same s) then found else found ++ [s]
      s.fields.attach.foldl (fun found ⟨f, _⟩ => collect f.content found) found
    else found
  s.generics.attach.foldl (fun found ⟨t, _⟩ => collect t found) found
termination_by s.depth
decreasing_by
  · exact Nat.lt_of_le_of_lt (Shape.depth_content_le _) (Shape.depth_lt_of_mem_fields ‹_›)
  · exact Shape.depth_lt_of_mem_generics ‹_›

/-- The structs in a shape, itself included. -/
def structsOf (s : Shape) : List Shape := collect s []

/-- Declare a shape. -/
def writeDeclaration (s : Shape) : Writing Error Unit := do
  (← Writing.ofExcept (declarations.resolve s.kind)) s

/-- Declare shapes, with an empty line between two. -/
def writeApart : List Shape → Writing Error Unit
  | [] => return ()
  | [s] => writeDeclaration s
  | s :: rest => do
    writeDeclaration s
    Writing.line ""
    writeApart rest

/-- Declare a shape and all that it needs. -/
def writeDeclarations (s : Shape) : Writing Error Unit :=
  writeApart (if s.flag Trait.struct then structsOf s else [s])

/-! ### Models -/

/-- The lines on what a model is. -/
def modelHead (d : Definition) : List String :=
  ([("type", d.kind), ("url", d.url), ("ref", d.ref), ("note", d.note)].filter fun (_, text) =>
    !text.isEmpty && text != "untyped").map fun (key, text) => "/// " ++ key ++ ": " ++ text

/-- Write a function that gives a text. -/
def writeTextFunction (name text : String) : Writing Error Unit :=
  Writing.block ("pub fn " ++ name ++ "() -> &'static str") "" (Writing.line (rawLiteral text))

/-- Write the functions of a struct: its sample, and its columns if it has any. -/
def writeFunctions (s : Shape) (sample : String) : Writing Error Unit := do
  let columns? := (Sql.columns s).toOption
  if sample.isEmpty && columns?.isNone then return ()
  else
    Writing.line ""
    Writing.block ("impl " ++ Text.pascalCase s.name) "" do
      if !sample.isEmpty then writeTextFunction "get_raw_data" sample
      match columns? with
      | some columns => writeTextFunction "get_sql_ddl" columns
      | none => return ()

/-- Write a model that is a shape. -/
def writeModel (d : Definition) (s : Shape) : Writing Error Unit := do
  writeLines (modelHead d)
  writeDeclarations s
  if s.flag Trait.struct then writeFunctions s d.raw

end TypeSketch.Rust
