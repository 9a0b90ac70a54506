import TypeSketch.Json.Printer
import TypeSketch.Json.Reader

/-!
# Filters

A filter makes any number of values of one, or fails. The members of a value that is no object, the
items of one that is no array, and the contents of a single value do not exist, and a filter that
asks for them fails; a member or an item that is merely not there is `null`.
-/

namespace TypeSketch

/-- A filter of JSON values. -/
inductive Filter
  /-- The value itself. -/
  | self
  | member (name : String)
  | item (i : Nat)
  /-- Everything an array or an object holds. -/
  | each
  /-- The value, once for every result of `condition` that is neither `false` nor `null`. -/
  | select (condition : Filter)
  /-- The second filter on every result of the first. -/
  | pipe (first second : Filter)
  /-- The results of the first filter, then those of the second. -/
  | both (first second : Filter)

namespace Filter

/-- Neither `false` nor `null`. -/
def holds : Json → Bool
  | .null => false
  | .bool b => b
  | _ => true

/-- The results of a filter; nothing if it fails. -/
def run? : Filter → Json → Option (List Json)
  | self, j => some [j]
  | member name, .obj members => some [(members.lookup name).getD .null]
  | member _, _ => none
  | item i, .arr items => some [(items[i]?).getD .null]
  | item _, _ => none
  | each, .arr items => some items
  | each, .obj members => some (members.map (·.2))
  | each, _ => none
  | select condition, j =>
    (condition.run? j).map fun results => (results.filter holds).map fun _ => j
  | pipe first second, j => do
    let results ← first.run? j
    return (← results.mapM second.run?).flatten
  | both first second, j => do
    let left ← first.run? j
    return left ++ (← second.run? j)

/-- The results of a filter as they read once they are written. -/
def outputs? (f : Filter) (j : Json) : Option (List Json) := do
  (← f.run? j).mapM fun result => (Json.parse result.compact).toOption

end Filter

end TypeSketch
