import TypeSketch.Shape.Build
import TypeSketch.Text.Case

/-!
# Names of shapes

A registry holds shapes under their names and traits under their keys; what is there never changes.
A name that is not there may still be a reference that one of its detectors understands.
-/

namespace TypeSketch

namespace Shape

/-- The shapes named between commas, if all of them are canonical. -/
def ofNames? (names : List Char) : Option (List Shape) :=
  (Text.pieces ',' names).mapM fun name => canonical? (String.ofList (Text.trim name))

/-- What stands between the first and the last character, if these are parentheses. -/
def insideParens? : List Char → Option (List Char)
  | '(' :: rest => Text.dropSuffix? [')'] rest
  | _ => none

/-- The shape that a text refers to: a tuple of canonical shapes between parentheses, a text under
one of its other names, `timestamp/` with a unit, an enum defined elsewhere if the text mentions
one, and else a struct defined elsewhere. -/
def ofReference? (text : String) : Option Shape :=
  let cs := Text.trim text.toList
  let text := String.ofList cs
  match insideParens? cs with
  | some inner => (ofNames? inner).map (tuple text)
  | none =>
    if ["String", "string", "str", "&str"].contains text then some string
    else
      match Text.dropStart? "timestamp/".toList cs with
      | some unit => some (i64.copy.adding (Trait.tsUnit.entry (.str (String.ofList unit))))
      | none =>
        if cs.isEmpty then none
        else if Text.occursIn "enum".toList (Text.snakeChars cs) then
          let name := String.ofList (cs.takeWhile (· != '/'))
          some ((enum name []).adding (Trait.typeRef.entry (.str name)))
        else some ((struct text []).adding (Trait.typeRef.entry (.str text)))

end Shape

/-- Shapes and traits by name, and detectors for other names. -/
structure Registry where
  shapes : List (String × Shape) := []
  traits : List (String × Field) := []
  detectors : List (String → Option Shape) := []

namespace Registry

/-- Register a frozen shape under its name. -/
def insertShape (registry : Registry) (s : Shape) : Except Error Registry :=
  if !s.frozen then throw (.notFrozen s.name)
  else
    match registry.shapes.lookup s.name with
    | none => return { registry with shapes := registry.shapes ++ [(s.name, s)] }
    | some t => if t.same s then return registry else throw (.alreadyExists s.name)

/-- Register a trait under its key. -/
def insertTrait (registry : Registry) (f : Field) : Except Error Registry :=
  match registry.traits.lookup f.key with
  | none => return { registry with traits := registry.traits ++ [(f.key, f)] }
  | some g => if g.same f then return registry else throw (.traitAlreadyExists f.key)

/-- Add a detector after the others. -/
def addDetector (registry : Registry) (detector : String → Option Shape) : Registry :=
  { registry with detectors := registry.detectors ++ [detector] }

/-- The shape registered under a name, or else the first that a detector finds for it. -/
def shape? (registry : Registry) (name : String) : Option Shape :=
  match registry.shapes.lookup name with
  | some s => some s
  | none => registry.detectors.findSome? (· name)

/-- The trait registered under a key. -/
def trait? (registry : Registry) (key : String) : Option Field := registry.traits.lookup key

/-- The canonical shapes, every trait, and references. -/
def standard : Registry where
  shapes := Shape.canonical.map fun s => (s.name, s)
  traits := Trait.all.map fun f => (f.key, f)
  detectors := [Shape.ofReference?]

end Registry

end TypeSketch
