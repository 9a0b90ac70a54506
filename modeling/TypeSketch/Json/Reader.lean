import TypeSketch.Json.Outline
import TypeSketch.Json.Token

/-!
# Reading JSON

A reader goes over the tokens once and keeps the open arrays and objects on a stack. A strict reader
stops at a lapse and lets at most 127 arrays and objects be open at a time. One that is not strict
goes on, and leaves a lapse for every value that a strict one would not have read.
-/

namespace TypeSketch.Json

/-- An open array or object. Items and members stand in reverse; `name` belongs to the value that is
read next. -/
inductive Frame
  | arr (items : List Outline)
  | obj (members : List (Option String × Outline)) (name : Option String)

/-- What the reader waits for. -/
inductive Place
  | value
  | firstItem
  | firstName
  | name
  | colon
  | next
  | done (value : Outline)

/-- The state of a reader. -/
structure Reader where
  stack : List Frame := []
  place : Place := .value

namespace Reader

/-- The most arrays and objects that may be open. -/
def maxDepth : Nat := 127

/-- A value has been read. -/
def complete (stack : List Frame) (o : Outline) : Reader :=
  match stack with
  | [] => ⟨[], .done o⟩
  | .arr items :: rest => ⟨.arr (o :: items) :: rest, .next⟩
  | .obj members name :: rest => ⟨.obj ((name, o) :: members) name :: rest, .next⟩

/-- An array or an object has been read inside the `stack`. It is a lapse if it lies too deep. -/
def close (stack : List Frame) (o : Outline) : Reader :=
  complete stack (if stack.length < maxDepth then o else .lapse)

/-- Open an array or an object. -/
def enter (strict : Bool) (stack : List Frame) (frame : Frame) (place : Place) :
    Except Flaw Reader :=
  if strict && maxDepth ≤ stack.length then .error .malformed else .ok ⟨frame :: stack, place⟩

/-- Read the first token of a value. -/
def startValue (strict : Bool) (stack : List Frame) : Token → Except Flaw Reader
  | .atom (some v) _ => .ok (complete stack (.scalar v))
  | .text (some s) => .ok (complete stack (.scalar (.str s)))
  | .atom none _ | .text none =>
    if strict then .error .malformed else .ok (complete stack .lapse)
  | .beginArr => enter strict stack (.arr []) .firstItem
  | .beginObj => enter strict stack (.obj [] none) .firstName
  | .flawed flaw | .flawedText flaw => .error flaw
  | _ => .error .malformed

/-- Read the name of a member. -/
def readName (strict : Bool) (stack : List Frame) : Token → Except Flaw Reader
  | .text s =>
    match stack with
    | .obj members _ :: rest =>
      if strict && s.isNone then .error .malformed else .ok ⟨.obj members s :: rest, .colon⟩
    | _ => .error .malformed
  | .flawedText flaw => .error flaw
  | _ => .error .malformed

/-- Read one token. -/
def step (strict : Bool) : Reader → Token → Except Flaw Reader
  | reader, .lapse => if strict then .error .malformed else .ok reader
  | ⟨stack, .value⟩, t => startValue strict stack t
  | ⟨.arr items :: rest, .firstItem⟩, .endArr => .ok (close rest (.arr items.reverse false))
  | ⟨stack, .firstItem⟩, t => startValue strict stack t
  | ⟨.obj members _ :: rest, .firstName⟩, .endObj =>
    .ok (close rest (.obj members.reverse none))
  | ⟨stack, .firstName⟩, t => readName strict stack t
  | ⟨stack, .name⟩, t => readName strict stack t
  | ⟨stack, .colon⟩, .colon => .ok ⟨stack, .value⟩
  | ⟨.arr items :: rest, .next⟩, .comma => .ok ⟨.arr items :: rest, .value⟩
  | ⟨.arr items :: rest, .next⟩, .endArr => .ok (close rest (.arr items.reverse false))
  | ⟨.obj members name :: rest, .next⟩, .comma => .ok ⟨.obj members name :: rest, .name⟩
  | ⟨.obj members _ :: rest, .next⟩, .endObj => .ok (close rest (.obj members.reverse none))
  | _, _ => .error .malformed

end Reader

/-- The value of an outline that a strict reader has completed. -/
def settled (o : Outline) : Except Flaw Json :=
  match o.settle? with
  | some v => .ok v
  | none => .error .malformed

/-- The value that a text holds, and nothing after it. -/
def parse (text : String) : Except Flaw Json := do
  match (← (tokens text).foldlM (Reader.step true) {}).place with
  | .done o => settled o
  | _ => throw .unfinished

/-! ### A sequence of values -/

/-- A token that sets itself apart from the one after it. -/
def Token.isApart : Token → Bool
  | .atom _ apart => apart
  | _ => true

/-- The values read so far, in reverse, and the reader of the next one if it has begun. -/
abbrev Sequence := List Json × Option Reader

/-- Read one token of a sequence of values. An atom between values must be set apart. -/
def Sequence.step : Sequence → Token → Except Flaw Sequence
  | (done, reader), t => do
    let reader ← (reader.getD {}).step true t
    match reader.place with
    | .done o => if t.isApart then return ((← settled o) :: done, none) else throw .malformed
    | _ => return (done, some reader)

/-- The values that a text holds one after the other. -/
def parseAll (text : String) : Except Flaw (List Json) := do
  match ← (tokens text).foldlM Sequence.step ([], none) with
  | (done, none) => return done.reverse
  | (_, some _) => throw .unfinished

end TypeSketch.Json
