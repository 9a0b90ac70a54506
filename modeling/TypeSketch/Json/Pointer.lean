import TypeSketch.Json.Basic
import TypeSketch.Text.Integer
import TypeSketch.Text.Lines

/-!
# Pointers into JSON

A pointer is empty or a sequence of steps, each behind a slash. In a step `~1` stands for a slash
and `~0` for a tilde. A step into an array is an index without a sign and without leading zeros.
-/

namespace TypeSketch.Json

/-- Every occurrence of `~` and `digit` replaced by `c`, from left to right. -/
def unescapeStep (digit c : Char) : List Char → List Char
  | '~' :: d :: rest =>
    if d == digit then c :: unescapeStep digit c rest else '~' :: unescapeStep digit c (d :: rest)
  | d :: rest => d :: unescapeStep digit c rest
  | [] => []

/-- The index that a step writes. -/
def stepIndex? (step : List Char) : Option Nat :=
  if step.head? == some '0' && step.length != 1 then none
  else (Text.readNat? step).filter (· < Nat.pow 2 64)

/-- One step down. -/
def descend? (j : Json) (step : List Char) : Option Json :=
  match j with
  | obj members => members.lookup (String.ofList step)
  | arr items => (stepIndex? step).bind fun i => items[i]?
  | _ => none

/-- The value a pointer leads to. -/
def pointer? (pointer : String) (j : Json) : Option Json :=
  match pointer.toList with
  | [] => some j
  | '/' :: rest =>
    ((Text.pieces '/' rest).map fun step => unescapeStep '0' '~' (unescapeStep '1' '/' step)).foldlM
      descend? j
  | _ => none

end TypeSketch.Json
