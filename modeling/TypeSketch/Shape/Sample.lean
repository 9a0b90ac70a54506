import TypeSketch.Shape.Build
import TypeSketch.Shape.Timestamp
import TypeSketch.Supply
import TypeSketch.Text.Case

/-!
# Shapes of samples

A sample of JSON data implies a shape. A text may carry a number, and a whole number under a name
that speaks of time is a timestamp. An array has the shape of its first element for all of them.
Every object takes a fresh number after its members have been looked at; a struct below a member is
named after the path of names to it instead.
-/

namespace TypeSketch.Shape

/-- The name at the end of a path speaks of time. -/
def isTimeLike (path : String) : Bool :=
  let cs := Text.snakeChars path.toList
  Text.occursIn "_ts".toList cs || Text.occursIn "time".toList cs || Text.occursIn "_at".toList cs

/-- The shape of a text. -/
def ofText (s : String) : Shape :=
  let cs := s.toList
  if Text.isPointDecimal cs then f64.stringWrapped
  else if (Text.readInt64? cs).isSome then i64.stringWrapped
  else string

/-- The shape of a whole number. -/
def ofInt (n : Int) (path : String) : Except Error Shape :=
  if n > Json.maxInt then .ok u64
  else if !isTimeLike path then .ok i64
  else do
    let unit ← Timestamp.unitOf (Binary64.ofInt n)
    return ((i64.copy.adding (Trait.tsUnit.entry (.str unit))).adding
      (Trait.name.entry (.str "timestamp"))).adding (Trait.rawValue.entry (.json (.int n)))

/-- A vector whose element, if it is a struct, is named after the path, less a final `s`. -/
def nameElements (path : String) (s : Shape) : Shape :=
  let singular :=
    match Text.dropSuffix? ['s'] path.toList with
    | some cs => String.ofList cs
    | none => path
  let rename (g : Shape) : Shape :=
    if g.flag Trait.struct then g.copy.adding (Trait.name.entry (.str singular)) else g
  s.adding (Trait.generics.entry (listOf (s.generics.map rename)))

/-- The shape of a member, with the structs in it named after the path of names to it. -/
def nameAfter (path : String) (s : Shape) : Shape :=
  let s := if s.flag Trait.struct then s.adding (Trait.name.entry (.str path)) else s
  if s.flag Trait.vector then nameElements path s else s

mutual

/-- The shape that a JSON value implies below a path of names. -/
def ofJson (path : String) : Json → Draft Shape
  | .null => return nothing
  | .bool _ => return bool
  | .str s => return ofText s
  | .int n => Draft.ofExcept (ofInt n path)
  | .float _ => return f64
  | .arr [] => return vector allValue
  | .arr (x :: _) => return vector (← ofJson path x)
  | .obj members => do
    let fields ← ofMembers path members
    let n ← Draft.shapeNumber
    return struct ("struct_" ++ toString n) fields

/-- The field entries that members imply. -/
def ofMembers (path : String) : List (String × Json) → Draft (List Shape)
  | [] => return []
  | (name, v) :: rest => do
    let below := Text.joinName path name
    let s ← ofJson below v
    let fields ← ofMembers path rest
    return field name (nameAfter below s) :: fields

end

/-- The shape that a sample implies. It is open, and carries the sample. -/
def ofSample (sample : Json) (path : String) : Draft Shape := do
  let s ← ofJson path sample
  return (s.copy.adding Trait.fromJson.present).adding (Trait.rawValue.entry (.json sample))

end TypeSketch.Shape
