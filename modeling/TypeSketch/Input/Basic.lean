import TypeSketch.Program.Node
import TypeSketch.Shape.Registry

/-!
# Inputs

What a model is made from, and what reading it gives.
-/

namespace TypeSketch

/-- A sample of data in some format. -/
structure Sample where
  format : String
  text : String

/-- A fragment of a program in some language. -/
structure Source where
  lang : String
  code : String

/-- The members of a JSON object. -/
abbrev Members := List (String × Json)

/-- What a model is made from. -/
inductive Input
  | sample (s : Sample)
  | source (s : Source)
  | fields (entries : List Members)
  | variants (entries : List Members)

/-- The text of an input in messages. -/
def Input.describe : Input → String
  | .sample s => "example (" ++ s.format ++ ")"
  | .source s => "source (" ++ s.lang ++ ")"
  | .fields entries => "fields (" ++ toString entries.length ++ " entries)"
  | .variants entries => "variants (" ++ toString entries.length ++ " entries)"

/-- What reading an input gives. -/
inductive Parsed
  | shape (s : Shape)
  | node (n : Node)

namespace Parsed

/-- Add an entry to what was read. -/
def append (e : Entry) : Parsed → Except Error Parsed
  | shape s => return shape (← s.append e)
  | node n => return node (← n.append e)

/-- The JSON view of what was read. -/
def toJson : Parsed → Json
  | shape s => s.toValue.toJson
  | node n => n.toValue.toJson

end Parsed

/-- A way to read some inputs: its name, the inputs it accepts, and what a model of some name is. -/
structure InputReader where
  name : String
  accepts : Input → Bool
  read : (model : String) → Input → Registry → Draft Parsed

/-- The first reader that accepts an input. -/
def InputReader.find? (readers : List InputReader) (input : Input) : Option InputReader :=
  readers.find? (·.accepts input)

end TypeSketch
