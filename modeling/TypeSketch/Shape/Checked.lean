import TypeSketch.Shape.Sample

/-!
# Shapes of samples by checked changes

`Shape.ofSample` writes into the shapes that it has just made. Here the same shapes are changed by
the operations that may fail: on a frozen shape, on a value of another kind, or where something is
appended to a single value.
-/

namespace TypeSketch.Shape.Checked

/-- The shape of a whole number. -/
def ofInt (n : Int) (path : String) : Except Error Shape :=
  if n > Json.maxInt then .ok u64
  else if !isTimeLike path then .ok i64
  else do
    let unit ← Timestamp.unitOf (Binary64.ofInt n)
    let s ← i64.copy.append (Trait.tsUnit.entry (.str unit))
    let s ← s.replace (Trait.name.entry (.str "timestamp"))
    s.append (Trait.rawValue.entry (.json (.int n)))

/-- An element under a name, if it is a struct. -/
def rename (name : String) (g : Shape) : Except Error Shape :=
  if g.flag Trait.struct then g.copy.put (Trait.name.entry (.str name)) else .ok g

/-- A vector whose element, if it is a struct, is named after the path, less a final `s`. -/
def nameElements (path : String) (s : Shape) : Except Error Shape := do
  let singular :=
    match Text.dropSuffix? ['s'] path.toList with
    | some cs => String.ofList cs
    | none => path
  let elements ← s.generics.mapM (rename singular)
  s.replace (Trait.generics.entry (listOf elements))

/-- A struct under the path of names to it. -/
def nameStruct (path : String) (s : Shape) : Except Error Shape :=
  if s.flag Trait.struct then s.replace (Trait.name.entry (.str path)) else .ok s

/-- The shape of a member, with the structs in it named after the path of names to it. -/
def nameAfter (path : String) (s : Shape) : Except Error Shape := do
  let s ← nameStruct path s
  if s.flag Trait.vector then nameElements path s else return s

mutual

/-- The shape that a JSON value implies below a path of names. -/
def ofJson (path : String) : Json → Draft Shape
  | .null => return nothing
  | .bool _ => return bool
  | .str s => return ofText s
  | .int n => Draft.ofExcept (ofInt n path)
  | .float _ => return f64
  | .arr [] => return vector allValue
  | .arr (x :: _) => return vector (← ofJson path x)
  | .obj members => do
    let fields ← ofMembers path members
    let n ← Draft.shapeNumber
    return struct ("struct_" ++ toString n) fields

/-- The field entries that members imply. Each is named before the next member is looked at. -/
def ofMembers (path : String) : List (String × Json) → Draft (List Shape)
  | [] => return []
  | (name, v) :: rest => do
    let below := Text.joinName path name
    let s ← ofJson below v
    let s ← Draft.ofExcept (nameAfter below s)
    let fields ← ofMembers path rest
    return field name s :: fields

end

/-- The shape that a sample implies. It is open, and carries the sample. -/
def ofSample (sample : Json) (path : String) : Draft Shape := do
  let s ← ofJson path sample
  let s ← Draft.ofExcept (s.copy.append Trait.fromJson.present)
  Draft.ofExcept (s.replace (Trait.rawValue.entry (.json sample)))

end TypeSketch.Shape.Checked
