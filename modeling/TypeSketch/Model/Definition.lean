import TypeSketch.Input.Basic
import TypeSketch.Json.Printer

/-!
# Model definitions

A definition names a model, says what it is made from, and lays traits over the result.
-/

namespace TypeSketch

/-- A trait laid over a model. -/
structure Overlay where
  name : String
  value : Json := .bool true

/-- What a model is and what it is made from. -/
structure Definition where
  kind : String := "untyped"
  name : String
  url : String := ""
  ref : String := ""
  note : String := ""
  /-- The text of the sample that generated code shows. -/
  raw : String := ""
  traits : List Overlay := []
  sample? : Option Sample := none
  fields? : Option (List Members) := none
  variants? : Option (List Members) := none
  source? : Option Source := none

namespace Definition

/-- The pretty form of a JSON text, or the text itself if it is not JSON. -/
def prettyOrSame (text : String) : String :=
  match Json.parse text with
  | .ok value => value.pretty
  | .error _ => text

/-- A JSON sample also serves as the raw text if there is none. -/
def fillRaw (d : Definition) : Definition :=
  match d.sample? with
  | some sample =>
    if d.raw.isEmpty && Text.eqIgnoreAsciiCase sample.format "json" then
      { d with raw := prettyOrSame sample.text }
    else d
  | none => d

/-- The definition of a model by a sample. -/
def ofSample (name format text : String) : Definition :=
  fillRaw { name, sample? := some ⟨format, text⟩ }

/-- The definition of a model by a fragment of a program. -/
def ofSource (name lang code : String) : Definition := { name, source? := some ⟨lang, code⟩ }

/-- What the model can be made from, the preferred input first. -/
def inputs (d : Definition) : List Input :=
  (d.sample?.map .sample).toList ++ (d.fields?.map .fields).toList ++
    (d.source?.map .source).toList ++ (d.variants?.map .variants).toList

/-- The overlays as entries. A name that is no trait takes any value. -/
def overlays (d : Definition) (registry : Registry) : List Entry :=
  d.traits.map fun overlay =>
    ((registry.trait? overlay.name).getD (.any overlay.name)).ofJson overlay.value

/-- The definition as JSON. -/
def toJson (d : Definition) : Json :=
  let overlay (o : Overlay) : Json := .obj [("name", .str o.name), ("value", o.value)]
  let entries (es : List Members) : Json := .arr (es.map .obj)
  .obj ([("type", .str d.kind), ("name", .str d.name), ("url", .str d.url), ("ref", .str d.ref),
      ("note", .str d.note), ("raw", .str d.raw), ("traits", .arr (d.traits.map overlay))] ++
    (d.sample?.map fun s =>
      ("example", Json.obj [("format", .str s.format), ("text", .str s.text)])).toList ++
    (d.fields?.map fun es => ("fields", entries es)).toList ++
    (d.variants?.map fun es => ("variants", entries es)).toList ++
    (d.source?.map fun s =>
      ("source", Json.obj [("lang", .str s.lang), ("code", .str s.code)])).toList)

end Definition

end TypeSketch
