import TypeSketch.Input.Basic

/-!
# Variant lists

A list of entries, each with the names of a variant between blanks, describes an enum.
-/

namespace TypeSketch.VariantList

/-- The names of the variant that an entry describes. -/
def names (entry : Members) : List String :=
  match (entry.lookup "name").bind Json.asStr? with
  | some s => (Text.words s.toList).map String.ofList
  | none => []

/-- The variant that an entry describes. -/
def variant (model : String) (entry : Members) : Except Error Shape :=
  match names entry with
  | [] => .error (.invalidArgument ("variant of `" ++ model ++ "` needs a name"))
  | names => .ok (Shape.variant names)

/-- The enum of some name that a list describes. -/
def read (model : String) (entries : List Members) : Except Error Shape :=
  return Shape.enum model (← entries.mapM (variant model))

/-- The reader of variant lists. -/
def reader : InputReader where
  name := "variants"
  accepts
    | .variants _ => true
    | _ => false
  read model input _ :=
    match input with
    | .variants entries => Draft.ofExcept (return .shape (← read model entries))
    | _ => throw (.noParser model)

end TypeSketch.VariantList
