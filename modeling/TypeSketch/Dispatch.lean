import TypeSketch.Program.Node
import TypeSketch.Text.Case

/-!
# Choosing a handler by tag

A handler is registered under a name. It answers for the tags that are its name in snake case or end
in an underscore and its name; of several that answer for a tag the one with the longest name is
chosen, and of equally long ones the first registered.
-/

namespace TypeSketch

/-- Handlers by the length of their names, longest first, and one for all other tags. -/
structure Dispatcher (α : Type) where
  handlers : List (String × α) := []
  fallback : Option α := none

namespace Dispatcher

variable {α : Type}

/-- A tag is a name, or ends in an underscore and the name. -/
def answers (tag name : String) : Bool :=
  match Text.dropSuffix? name.toList tag.toList with
  | some rest => rest.isEmpty || rest.getLast? == some '_'
  | none => false

/-- A handler put behind all whose names are not shorter. -/
def insert (name : String) (handler : α) : List (String × α) → List (String × α)
  | [] => [(name, handler)]
  | (n, h) :: rest =>
    if n.utf8ByteSize ≥ name.utf8ByteSize then (n, h) :: insert name handler rest
    else (name, handler) :: (n, h) :: rest

/-- Register a handler. -/
def on (d : Dispatcher α) (name : String) (handler : α) : Dispatcher α :=
  { d with handlers := insert (Text.snakeCase name) handler d.handlers }

/-- Set the handler for all other tags. -/
def otherwise (d : Dispatcher α) (handler : α) : Dispatcher α := { d with fallback := some handler }

/-- The names that answer for a tag, the longest first. -/
def candidates (d : Dispatcher α) (tag : String) : List String :=
  (d.handlers.filter fun (name, _) => answers (Text.snakeCase tag) name).map (·.1)

/-- The handler chosen for a tag. -/
def resolve (d : Dispatcher α) (tag : String) : Except Error α :=
  match d.handlers.find? fun (name, _) => answers (Text.snakeCase tag) name with
  | some (_, handler) => .ok handler
  | none =>
    match d.fallback with
    | some handler => .ok handler
    | none => .error (.noHandler tag)

end Dispatcher

/-- The tag of a value: the kind of a shape or a node, and what sort of value any other one is. -/
def Value.tag : Value → String
  | .shape r => (r.str? Trait.kind).getD ""
  | .node _ r => (r.str? Attr.kind).getD ""
  | v => v.kind.name

end TypeSketch
