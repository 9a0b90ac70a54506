import TypeSketch.Emit.RustName
import TypeSketch.Shape.Basic

/-!
# Types in Rust

The spelling of the type of a field. A shape that does not say what sort of data it is has none
(`unmappable`).
-/

namespace TypeSketch.Rust

/-- No type says what the shape is. -/
def unmappable (s : Shape) : Error := .emit ("`" ++ s.name ++ "` as rust") "no rust type for it"

/-- The type of any data at all. -/
def anyType : String := "serde_json::Value"

/-- A letter and the number of bits. -/
def sizedType (letter : String) (s : Shape) : Except Error String :=
  match s.int? Trait.bitSize with
  | some bits => .ok (letter ++ toString bits)
  | none => .error (unmappable s)

/-- The type of a text, which may be borrowed. -/
def textType (s : Shape) : String :=
  if s.flag Trait.reference then
    match s.str? Trait.lifetime with
    | some lifetime => "&'" ++ lifetime ++ " str"
    | none => "&str"
  else "String"

/-- The type of the data of a shape, given the types of the shapes it is made of. -/
def presentType (s : Shape) (generics : List (Except Error String)) : Except Error String :=
  let generic (i : Nat) : Except Error String := (generics[i]?).getD (.ok anyType)
  if s.flag Trait.null then .ok "String"
  else if s.has Trait.tsUnit then .ok "i64"
  else if s.flag Trait.struct then .ok ((s.str? Trait.typeRef).getD (Text.pascalCase s.name))
  else if s.flag Trait.enum then .ok (variantName ((s.str? Trait.typeRef).getD s.name))
  else if s.flag Trait.tuple then do
    return "(" ++ Text.joinWith ", " (← generics.mapM id) ++ ")"
  else if s.flag Trait.vector then return "Vec<" ++ (← generic 0) ++ ">"
  else if s.flag Trait.bool then .ok "bool"
  else if s.flag Trait.allValue then .ok anyType
  else if s.flag Trait.integer then sizedType (if s.flag Trait.signed then "i" else "u") s
  else if s.flag Trait.floating then sizedType "f" s
  else if s.flag Trait.map then return "HashMap<" ++ (← generic 0) ++ ", " ++ (← generic 1) ++ ">"
  else if s.flag Trait.string then .ok (textType s)
  else if s.flag Trait.unit then .ok "()"
  else
    match s.str? Trait.typeRef with
    | some reference => .ok reference
    | none => .error (unmappable s)

/-- The type of a shape. Data that may be absent is optional. -/
def typeOf (s : Shape) : Except Error String := do
  let present ← presentType s (s.generics.attach.map fun ⟨t, _⟩ => typeOf t)
  return if s.flag Trait.nullable then "Option<" ++ present ++ ">" else present
termination_by s.depth
decreasing_by exact Shape.depth_lt_of_mem_generics ‹_›

end TypeSketch.Rust
