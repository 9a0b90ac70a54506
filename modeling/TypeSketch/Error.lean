import TypeSketch.Json.Reader
import TypeSketch.Record.Value

/-!
# Errors

Why an operation of the library fails, and the words that say so.
-/

namespace TypeSketch

/-- The causes of failure. -/
inductive Error
  /-- A frozen record was to be changed. -/
  | frozen (key : String)
  /-- A declared field was to be removed. -/
  | removeDeclared (key : String)
  /-- Something was to be appended to a single value. -/
  | notSequence (key : String)
  | kindMismatch (key : String) (expected found : Kind)
  /-- The kind of a node was to be changed. -/
  | immutableKind
  /-- A builder was given a field that its record does not take. -/
  | misuse (key : String)
  | invalidArgument (reason : String)
  /-- A different shape is registered under the name. -/
  | alreadyExists (name : String)
  | notFrozen (name : String)
  /-- A different trait is registered under the key. -/
  | traitAlreadyExists (key : String)
  | ambiguousTimestamp (x : Binary64)
  /-- Two paths that must agree have different shapes. -/
  | conflict (left leftShape right rightShape : String)
  /-- A relation that nothing can unify. -/
  | noUnifier (relation : String)
  | memberExpression (reason : String)
  | noHandler (tag : String)
  | json (flaw : Json.Flaw)
  | definition (path message : String)
  | noParser (model : String)
  | noInput (model : String)
  | noEmitter (target : String)
  | emit (what reason : String)

/-- The words for an error. -/
def Error.message : Error → String
  | frozen key => "cannot mutate field `" ++ key ++ "`: entity is frozen"
  | removeDeclared key => "field `" ++ key ++ "` is statically declared and cannot be removed"
  | notSequence key =>
    "field `" ++ key ++ "` already holds a non-sequence value, cannot be appended"
  | kindMismatch key expected found =>
    "field `" ++ key ++ "` expects a " ++ expected.name ++ " value, found " ++ found.name
  | immutableKind => "the kind of an IR node is set once and cannot be altered"
  | misuse key => "field `" ++ key ++ "` does not fit the record under construction"
  | invalidArgument reason => "invalid argument: " ++ reason
  | alreadyExists name => "type `" ++ name ++ "` already exists with different content"
  | notFrozen name => "type `" ++ name ++ "` must be frozen before registration"
  | traitAlreadyExists key => "trait `" ++ key ++ "` already exists with a different definition"
  | ambiguousTimestamp x =>
    "ambiguous timestamp " ++ x.toText ++
      ": expected a more recent date? you are missing 1 digit"
  | conflict left leftShape right rightShape =>
    "type conflict between `" ++ left ++ "` (" ++ leftShape ++ ") and `" ++ right ++ "` (" ++
      rightShape ++ ")"
  | noUnifier relation => "relation `" ++ relation ++ "` has no unifier"
  | memberExpression reason => "could not process member expression: " ++ reason
  | noHandler tag => "no handler registered for `" ++ tag ++ "` and no fallback"
  | json .unfinished => "invalid JSON: the text ends too early"
  | json .malformed => "invalid JSON: the text is malformed"
  | definition path message =>
    "invalid model definition at JSON path " ++ path ++ ": " ++ message
  | noParser model => "no parser accepts input of model `" ++ model ++ "`"
  | noInput model => "model `" ++ model ++ "` has no example, fields, variants or source input"
  | noEmitter target => "no emitter accepts target `" ++ target ++ "`"
  | emit what reason => "cannot emit " ++ what ++ ": " ++ reason

end TypeSketch
