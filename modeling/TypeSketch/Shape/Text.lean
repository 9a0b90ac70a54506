import TypeSketch.Json.Printer
import TypeSketch.Shape.Basic
import TypeSketch.Text.Lines
import TypeSketch.Text.Quoted

/-!
# The text of values

Single values show as literals, a list between brackets, a record between braces. A shape shows as
its name, followed by the shapes it is made of unless it is an object.
-/

namespace TypeSketch

namespace Value

mutual

/-- The text of a value. -/
def text : Value → String
  | bool b => if b then "true" else "false"
  | int n => toString n
  | float x => x.toText
  | str s => Text.quoted s
  | shape r => shapeText r
  | node _ r => recordText r
  | json j => j.compact
  | list xs => "[" ++ Text.joinWith ", " (itemTexts xs) ++ "]"

/-- The text of a shape. -/
def shapeText : Record Value → String
  | ⟨declared, extra, frozen⟩ =>
    let r : Record Value := ⟨declared, extra, frozen⟩
    let name := (r.str? Trait.name).getD ""
    let generics := (genericTexts declared).getD ((genericTexts extra).getD [])
    if generics.isEmpty || r.flag Trait.object then name
    else name ++ "<" ++ Text.joinWith ", " generics ++ ">"

/-- The text of a record. -/
def recordText : Record Value → String
  | ⟨declared, extra, _⟩ =>
    "\x7b" ++ Text.joinWith ", " (entryTexts declared ++ entryTexts extra) ++ "\x7d"

/-- The texts of entries. -/
def entryTexts : List (String × Value) → List String
  | [] => []
  | (k, v) :: rest => (k ++ ": " ++ text v) :: entryTexts rest

/-- The texts of items. -/
def itemTexts : List Value → List String
  | [] => []
  | x :: xs => text x :: itemTexts xs

/-- The texts of the shapes under the key of generics, if the key is there. -/
def genericTexts : List (String × Value) → Option (List String)
  | [] => none
  | (k, list xs) :: rest =>
    if k == Trait.generics.key then some (shapeTexts xs) else genericTexts rest
  | (k, _) :: rest => if k == Trait.generics.key then some [] else genericTexts rest

/-- The texts of the shapes among items. -/
def shapeTexts : List Value → List String
  | [] => []
  | shape r :: xs => shapeText r :: shapeTexts xs
  | _ :: xs => shapeTexts xs

end

end Value

/-- The text of a shape: `map<string, i64>`. -/
def Shape.text (s : Shape) : String := Value.shapeText s.toRecord

/-- The text of a record: `{name: "x", count: 3}`. -/
def Record.text (r : Record Value) : String := Value.recordText r

/-- The text of an entry. -/
def Entry.text (e : Entry) : String := e.key ++ ": " ++ e.value.text

end TypeSketch
