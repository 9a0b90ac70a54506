import TypeSketch.Input.Basic

/-!
# Field lists

A list of entries, each with the name of a field and a reference to its shape, describes a struct.
Every other key of an entry is a trait of the field's shape.
-/

namespace TypeSketch.FieldList

/-- The text under a key that an entry must have. -/
def required (entry : Members) (key : String) : Except Error String :=
  match (entry.lookup key).bind Json.asStr? with
  | some s => .ok s
  | none => .error (.invalidArgument ("field entry needs a string `" ++ key ++ "`"))

/-- Add the traits among the members of an entry. -/
def addTraits (registry : Registry) (name : String) : Members → Shape → Except Error Shape
  | [], s => return s
  | (key, v) :: rest, s =>
    if key == "name" || key == "type" then addTraits registry name rest s
    else
      match registry.trait? key with
      | none =>
        throw (.invalidArgument ("unknown trait `" ++ key ++ "` on field `" ++ name ++ "`"))
      | some f => do addTraits registry name rest (← s.append (f.ofJson v))

/-- The shape that a reference means: that of the registry, or else a mere reference. -/
def resolve (registry : Registry) (name reference : String) : Shape :=
  match registry.shape? reference with
  | some s => s.copy
  | none =>
    (Shape.ofNameKind name Trait.typeRef.key).adding (Trait.typeRef.entry (.str reference))

/-- The field entry that an entry of the list describes. -/
def field (registry : Registry) (entry : Members) : Except Error Shape := do
  let name ← required entry "name"
  let reference ← required entry "type"
  return Shape.field name (← addTraits registry name entry (resolve registry name reference))

/-- The struct of some name that a list describes. -/
def read (model : String) (registry : Registry) (entries : List Members) : Except Error Shape :=
  return Shape.struct model (← entries.mapM (field registry))

/-- The reader of field lists. -/
def reader : InputReader where
  name := "fields"
  accepts
    | .fields _ => true
    | _ => false
  read model input registry :=
    match input with
    | .fields entries => Draft.ofExcept (return .shape (← read model registry entries))
    | _ => throw (.noParser model)

end TypeSketch.FieldList
