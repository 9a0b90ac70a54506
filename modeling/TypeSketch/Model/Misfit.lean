import TypeSketch.Error
import TypeSketch.Json.Breakage
import TypeSketch.Json.Printer
import TypeSketch.Text.Lines

/-!
# Misfits

A value that does not fit a form has one first place that does not: the steps that lead there from
the whole value, and the reason.
-/

namespace TypeSketch

/-- A step to a value inside a value. An unknown step leads to where a name should stand. -/
inductive Step
  | name (name : String)
  | index (i : Nat)
  | unknown

/-- The text of steps. An index stands in brackets; any other step stands behind a dot unless it is
the first. -/
def Step.textOf (dot : String) : List Step → String
  | [] => ""
  | .name k :: rest => dot ++ k ++ textOf "." rest
  | .index i :: rest => "[" ++ toString i ++ "]" ++ textOf "." rest
  | .unknown :: rest => dot ++ "?" ++ textOf "." rest

/-- The text of a path: `traits[1].name`. The empty path is a single dot. -/
def Step.pathText : List Step → String
  | [] => "."
  | steps => textOf "" steps

/-- Why a value does not fit. -/
inductive Misfit.Reason
  | wrongType (found expected : String)
  | missing (name : String)
  | unknown (name : String) (known : List String)
  | duplicate (name : String)
  | tooShort (size : Nat) (form : String) (expected : Nat)
  | tooLong (size : Nat)
  /-- The text breaks off or is malformed. -/
  | broken

/-- The words for a reason. -/
def Misfit.Reason.message : Misfit.Reason → String
  | wrongType found expected => "invalid type: " ++ found ++ ", expected " ++ expected
  | missing name => "missing field `" ++ name ++ "`"
  | unknown name known =>
    "unknown field `" ++ name ++ "`, expected one of " ++
      Text.joinWith ", " (known.map fun k => "`" ++ k ++ "`")
  | duplicate name => "duplicate field `" ++ name ++ "`"
  | tooShort size form expected =>
    "invalid length " ++ toString size ++ ", expected struct " ++ form ++ " with " ++
      toString expected ++ " elements"
  | tooLong size => "invalid length " ++ toString size ++ ", expected fewer elements in array"
  | broken => "the text is broken"

/-- The first place that does not fit, and why. -/
structure Misfit where
  path : List Step
  reason : Misfit.Reason

namespace Misfit

/-- A misfit of the value at hand. -/
def here {α : Type} (reason : Reason) : Except Misfit α := .error ⟨[], reason⟩

/-- The result for a value inside another, seen from the other. -/
def under {α : Type} (step : Step) : Except Misfit α → Except Misfit α
  | .ok a => .ok a
  | .error m => .error { m with path := step :: m.path }

/-- The misfit as an error of a definition, whose path starts with `start`. -/
def toError (start : String) (m : Misfit) : Error :=
  .definition (start ++ Step.pathText m.path) m.reason.message

end Misfit

/-! ### Values of any form -/

namespace Json.Outline

/-- What a value is, in messages. -/
def describe : Outline → String
  | .scalar .null => "null"
  | .scalar (.bool b) => "boolean `" ++ (if b then "true" else "false") ++ "`"
  | .scalar (.float x) => "floating point `" ++ Json.floatText x ++ "`"
  | .scalar (.str s) => "string " ++ Text.quoted s
  | .scalar j => "integer `" ++ j.compact ++ "`"
  | .arr _ _ => "sequence"
  | .obj _ _ => "map"
  | .lapse | .broken => "nothing"

/-- A value of another type was expected. -/
def reject {α : Type} (expected : String) : Outline → Except Misfit α
  | .lapse | .broken => Misfit.here .broken
  | o => Misfit.here (.wrongType o.describe expected)

/-- The place where an object breaks. -/
def Gap.misfit : Gap → Misfit
  | .name => ⟨[.unknown], .broken⟩
  | .colon _ => ⟨[], .broken⟩

mutual

/-- The value of an outline that has no lapse and does not break. -/
def value : Outline → Except Misfit Json
  | .scalar v => return v
  | .arr items cut => do
    let items ← values 0 items
    if cut then Misfit.here .broken else return .arr items
  | .obj members cut => do
    let members ← memberValues members
    match cut with
    | none => return .obj (Assoc.ofList members)
    | some gap => throw (Gap.misfit gap)
  | .lapse | .broken => Misfit.here .broken

/-- The values of items, the first of which is the `i`-th. -/
def values (i : Nat) : List Outline → Except Misfit (List Json)
  | [] => return []
  | o :: os => do
    let x ← Misfit.under (.index i) (value o)
    return x :: (← values (i + 1) os)

/-- The values of members. -/
def memberValues : List (Option String × Outline) → Except Misfit (List (String × Json))
  | [] => return []
  | (none, _) :: _ => throw (Gap.misfit .name)
  | (some k, o) :: ms => do
    let x ← Misfit.under (.name k) (value o)
    return (k, x) :: (← memberValues ms)

end

/-- A text. -/
def text : Outline → Except Misfit String
  | .scalar (.str s) => return s
  | o => o.reject "a string"

/-- A sequence of values that `read` reads. -/
def list {α : Type} (read : Outline → Except Misfit α) : Outline → Except Misfit (List α)
  | .arr items cut => do
    let items ← items.zipIdx.mapM fun (o, i) => Misfit.under (.index i) (read o)
    if cut then Misfit.here .broken else return items
  | o => o.reject "a sequence"

/-- The members of an object of any form. -/
def map (o : Outline) : Except Misfit (List (String × Json)) := do
  match o with
  | .obj _ _ =>
    match ← o.value with
    | .obj members => return members
    | _ => return []
  | o => o.reject "a map"

/-- A value that `read` reads, unless it is `null`. -/
def optional {α : Type} (read : Outline → Except Misfit α) : Outline → Except Misfit (Option α)
  | .scalar .null => return none
  | o => return some (← read o)

end Json.Outline

end TypeSketch
