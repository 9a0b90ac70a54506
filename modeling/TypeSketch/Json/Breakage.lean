import TypeSketch.Json.Reader

/-!
# Outlines of texts that break

What can be told of a text before its first flaw: the values read so far, and where the text breaks.
A reader of definitions works on such outlines, so that a misfit before the flaw is found first and
the flaw has a place of its own. Lapses stay where they are: only who reads them minds.
-/

namespace TypeSketch.Json.Outline

/-- The outline of what breaks inside the `stack`. Nothing is told of it if it lies too deep. -/
def breaking (stack : List Frame) (o : Outline) : Outline :=
  if stack.length < Reader.maxDepth then o else .broken

/-- The outline of the innermost open value: what breaks, if it is not the value itself. `atEnd`
says that the text has ended. -/
def innermost (place : Place) (atEnd closes : Bool) : List Frame → Option Outline × List Frame
  | .arr items :: rest =>
    let inside :=
      match place with
      | .firstItem => !atEnd
      | .value => !atEnd && !closes
      | _ => false
    let o : Outline :=
      if inside then .arr (items.reverse ++ [.broken]) false else .arr items.reverse true
    (some (breaking rest o), rest)
  | .obj members name :: rest =>
    let o : Outline :=
      match place, name with
      | .value, _ => .obj (members.reverse ++ [(name, .broken)]) none
      | .colon, some name => .obj members.reverse (some (.colon name))
      | _, _ => .obj members.reverse (some .name)
    (some (breaking rest o), rest)
  | [] => (none, [])

/-- The outline of the open values around one that breaks. -/
def around (o : Outline) : List Frame → Outline
  | [] => o
  | .arr items :: rest => around (breaking rest (.arr (items.reverse ++ [o]) false)) rest
  | .obj members name :: rest =>
    around (breaking rest (.obj (members.reverse ++ [(name, o)]) none)) rest

/-- The outline that a reader leaves where it stops. `closes` says that the token it stops at ends
an array. -/
def ofStopped (reader : Reader) (atEnd closes : Bool) : Outline :=
  match innermost reader.place atEnd closes reader.stack with
  | (some o, rest) => around o rest
  | (none, _) => .broken

/-- The outline of the first value of the tokens. -/
def ofTokens (reader : Reader) : List Token → Outline
  | [] => ofStopped reader true false
  | t :: ts =>
    match reader.step false t with
    | .error _ => ofStopped reader false (t matches .endArr)
    | .ok next =>
      match next.place with
      | .done o => o
      | _ => ofTokens next ts

/-- The outline of the first value of a text. -/
def ofText (text : String) : Outline := ofTokens {} (tokens text)

end TypeSketch.Json.Outline
