import TypeSketch.Json.Printer
import TypeSketch.Shape.Basic
import TypeSketch.Text.Lines

/-!
# Schemas

The schema of the data that a shape describes, as JSON.
-/

namespace TypeSketch.Schema

/-- The schema that only says what sort of data there is. -/
def ofType (name : String) : Json := .obj [("type", .str name)]

/-- The schema of data defined elsewhere. -/
def reference (name : String) : Json := .obj [("$ref", .str ("#/$defs/" ++ name))]

/-- The schema of data that may be absent. -/
def orNull (schema : Json) : Json :=
  if schema.same (ofType "null") then schema
  else .obj [("oneOf", .arr [schema, ofType "null"])]

/-- The schema with a description, if there is something to say. -/
def described (schema : Json) (comments : List String) : Json :=
  if comments.isEmpty then schema
  else schema.set "description" (.str (Text.joinWith "\n" comments))

/-- The comments on a field entry, before those on its shape. -/
def commentsOf (f : Shape) : List String :=
  f.strs Trait.beforeLineComment ++ f.content.strs Trait.beforeLineComment

/-- The schema of a struct, given the schemas of its fields. -/
def ofFields (name : String) (fields : List (Shape × Except Error Json)) : Except Error Json := do
  let properties ← fields.mapM fun (f, schema) =>
    return (f.label, described (← schema) (commentsOf f))
  let required := (fields.map (·.1)).filter fun f =>
    !f.flag Trait.nullable && !f.content.flag Trait.nullable
  return .obj ([("type", .str "object"), ("properties", .obj (Assoc.ofList properties))] ++
    (if required.isEmpty then []
      else [("required", .arr (required.map fun f => .str f.label))]) ++
    [("title", .str name)])

/-- The schema of a number of some format. -/
def number (type format : String) : Json := .obj [("type", .str type), ("format", .str format)]

/-- The schema of present data, given those of the fields and of the shapes a shape is made of. -/
def present (s : Shape) (fields : List (Shape × Except Error Json))
    (generics : List (Except Error Json)) : Except Error Json :=
  let generic (i : Nat) : Except Error Json := (generics[i]?).getD (.ok (.obj []))
  let reference? := (s.str? Trait.typeRef).map reference
  if s.flag Trait.null then .ok (ofType "null")
  else if let (true, some schema) := (s.flag Trait.struct || s.flag Trait.enum, reference?) then
    .ok schema
  else if s.flag Trait.struct then ofFields s.name fields
  else if s.flag Trait.enum then
    .ok (.obj [("type", .str "string"), ("title", .str s.name),
      ("enum", .arr (s.variants.map fun v => .str v.name))])
  else if s.flag Trait.tuple then do
    let items ← generics.mapM id
    return .obj [("type", .str "array"), ("prefixItems", .arr items),
      ("minItems", .int items.length), ("maxItems", .int items.length)]
  else if s.flag Trait.vector then return .obj [("type", .str "array"), ("items", ← generic 0)]
  else if s.flag Trait.map then
    return .obj [("type", .str "object"), ("additionalProperties", ← generic 1)]
  else if s.flag Trait.bool then .ok (ofType "boolean")
  else if let some unit := s.str? Trait.tsUnit then .ok (number "integer" ("timestamp/" ++ unit))
  else if s.flag Trait.integer then .ok (number "integer" s.name)
  else if s.flag Trait.floating then .ok (number "number" s.name)
  else if s.flag Trait.string then .ok (ofType "string")
  else if s.flag Trait.allValue then .ok (.obj [])
  else if let some schema := reference? then .ok schema
  else .error (.emit ("`" ++ s.name ++ "` as schema") "no schema for it")

/-- The schema of a shape. A number inside a text is described behind the text. -/
def ofShape (s : Shape) : Except Error Json := do
  let schema ← present s (s.fields.attach.map fun ⟨f, _⟩ => (f, ofShape f.content))
    (s.generics.attach.map fun ⟨t, _⟩ => ofShape t)
  let schema :=
    if s.flag Trait.stringWrapped then
      Json.obj [("type", .str "string"), ("contentSchema", schema)]
    else schema
  return if s.flag Trait.nullable then orNull schema else schema
termination_by s.depth
decreasing_by
  · exact Nat.lt_of_le_of_lt (Shape.depth_content_le _) (Shape.depth_lt_of_mem_fields ‹_›)
  · exact Shape.depth_lt_of_mem_generics ‹_›

/-- The schema of a shape as a document. -/
def document (s : Shape) : Except Error String :=
  return ((← ofShape s).set "$schema"
    (.str "https://json-schema.org/draft/2020-12/schema")).pretty

end TypeSketch.Schema
