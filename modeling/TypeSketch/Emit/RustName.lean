import TypeSketch.Text.Case

/-!
# Names in Rust

Identifiers and text literals as Rust code needs them.
-/

namespace TypeSketch.Rust

/-- Words that are no identifiers. -/
def keywords : List String := [
  "as", "async", "await", "break", "const", "continue", "crate", "dyn", "else", "enum", "extern",
  "false", "fn", "for", "if", "impl", "in", "let", "loop", "match", "mod", "move", "mut", "pub",
  "ref", "return", "self", "Self", "static", "struct", "super", "trait", "true", "unsafe", "use",
  "where", "while"]

/-- The name of a field: snake case, with an underscore before a digit that comes first. A keyword
is written as a raw identifier, and `type` becomes `ty`. -/
def fieldName (name : String) : String :=
  if (name.toList.head?.map Text.isAsciiDigit).getD false then "_" ++ name
  else if name == "type" then "ty"
  else if keywords.contains name then "r#" ++ name
  else Text.snakeCase name

/-- The name of a variant: Pascal case. A name in capitals stays. -/
def variantName (name : String) : String :=
  if name.toList.any Text.isAlphabetic && !name.toList.any Text.isLowercase then name
  else Text.pascalCase name

/-! ### Raw text literals -/

/-- So many hash marks. -/
def marks (n : Nat) : List Char := List.replicate n '#'

/-- How many hash marks a raw literal of a text has on each side: one more as long as the text has a
quotation mark with that many behind it, which would end the literal. -/
def marksFrom (text : List Char) (n : Nat) : Nat :=
  if Text.occursIn ('"' :: marks n) text then marksFrom text (n + 1) else n
termination_by text.length - n
decreasing_by
  -- a text is longer than the marks behind a quotation mark in it
  have hlength := (Text.occursIn_iff.mp ‹_›).length_le
  simp only [marks, List.length_cons, List.length_replicate] at hlength
  omega

/-- A text as a raw literal. -/
def rawLiteral (text : String) : String :=
  let marks := String.ofList (marks (marksFrom text.toList 1))
  "r" ++ marks ++ "\"" ++ text ++ "\"" ++ marks

end TypeSketch.Rust
