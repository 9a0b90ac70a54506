import TypeSketch.Model.Definition
import TypeSketch.Model.Form

/-!
# Reading definitions

A text holds definitions one after the other, and arrays of them. A definition has no members but
those of its form; the records inside it may have others, which mean nothing.
-/

namespace TypeSketch

/-- The form of an overlay. -/
def Overlay.form : Form Overlay where
  name := "TraitOverlay"
  closed := false
  slots := [
    .of "name" true (·.text) fun s o => { o with name := s },
    .of "value" false (·.value) fun v o => { o with value := v }]

/-- The form of a sample. -/
def Sample.form : Form Sample where
  name := "ExampleInput"
  closed := false
  slots := [
    .of "format" true (·.text) fun s x => { x with format := s },
    .of "text" true (·.text) fun s x => { x with text := s }]

/-- The form of a fragment of a program. -/
def Source.form : Form Source where
  name := "SourceInput"
  closed := false
  slots := [
    .of "lang" true (·.text) fun s x => { x with lang := s },
    .of "code" true (·.text) fun s x => { x with code := s }]

namespace Definition

/-- The form of a definition. -/
def form : Form Definition where
  name := "ModelDefinition"
  closed := true
  slots := [
    .of "type" false (·.text) fun s d => { d with kind := s },
    .of "name" true (·.text) fun s d => { d with name := s },
    .of "url" false (·.text) fun s d => { d with url := s },
    .of "ref" false (·.text) fun s d => { d with ref := s },
    .of "note" false (·.text) fun s d => { d with note := s },
    .of "raw" false (·.text) fun s d => { d with raw := s },
    .of "traits" false (·.list (Overlay.form.read ⟨"", .bool true⟩)) fun ts d =>
      { d with traits := ts },
    .of "example" false (·.optional (Sample.form.read ⟨"", ""⟩)) fun x d => { d with sample? := x },
    .of "fields" false (·.optional (·.list (·.map))) fun es d => { d with fields? := es },
    .of "variants" false (·.optional (·.list (·.map))) fun es d => { d with variants? := es },
    .of "source" false (·.optional (Source.form.read ⟨"", ""⟩)) fun x d => { d with source? := x }]

/-- The definition that a value is. Its place is told behind `start` if it does not fit. -/
def ofOutline (start : String) (o : Json.Outline) : Except Error Definition :=
  (form.read { name := "" } o).mapError (·.toError start)

/-- The definition that a JSON value is. -/
def ofJson (j : Json) : Except Error Definition := ofOutline "" (.ofJson j)

/-- The definition at the start of a text, as it is written: a repeated name does not fit, and what
comes after the definition is not looked at. -/
def ofText (text : String) : Except Error Definition := ofOutline "" (.ofText text)

/-- The documents of a sequence of values: those of an array stand for themselves. -/
def documents (values : List Json) : List Json :=
  values.flatMap fun
    | .arr items => items
    | j => [j]

/-- The definitions in a text. -/
def readAll (text : String) : Except Error (List Definition) := do
  match Json.parseAll text with
  | .error flaw => throw (.json flaw)
  | .ok values =>
    (documents values).zipIdx.mapM fun (j, i) =>
      return (← ofOutline ("#" ++ toString i ++ "/") (.ofJson j)).fillRaw

end Definition

end TypeSketch
