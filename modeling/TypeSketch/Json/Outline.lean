import TypeSketch.Json.Basic

/-!
# Outlines

What a reader makes of a text, before it is a value: an object keeps repeated names, a value that
cannot be read leaves its place behind, and the last of it may break off. `settle?` is the value, in
which every name of an object has its last value.
-/

namespace TypeSketch.Json

/-- Where an object breaks: where a name should stand, or behind a name. -/
inductive Gap
  | name
  | colon (name : String)

/-- A raw value that may break off. A `lapse` can be passed over but not read. A value of which
nothing was read is `broken`. A name that cannot be read is missing. -/
inductive Outline
  | scalar (value : Json)
  | arr (items : List Outline) (cut : Bool)
  | obj (members : List (Option String × Outline)) (cut : Option Gap)
  | lapse
  | broken
deriving Inhabited

namespace Outline

/-! ### Outlines of values -/

mutual

/-- The outline of a value, which does not break. -/
def ofJson : Json → Outline
  | .arr items => .arr (ofItems items) false
  | .obj members => .obj (ofMembers members) none
  | j => .scalar j

/-- The outlines of items. -/
def ofItems : List Json → List Outline
  | [] => []
  | x :: xs => ofJson x :: ofItems xs

/-- The outlines of members. -/
def ofMembers : List (String × Json) → List (Option String × Outline)
  | [] => []
  | (k, v) :: ms => (some k, ofJson v) :: ofMembers ms

end

/-! ### Values of outlines -/

mutual

/-- The value of an outline that has no lapse and does not break. Every name of an object keeps its
first place and its last value. -/
def settle? : Outline → Option Json
  | .scalar v => some v
  | .arr items false => (settleItems? items).map .arr
  | .obj members none => (settleMembers? members).map fun ms => .obj (Assoc.ofList ms)
  | _ => none

/-- The values of items. -/
def settleItems? : List Outline → Option (List Json)
  | [] => some []
  | o :: os => do
    let x ← settle? o
    return x :: (← settleItems? os)

/-- The values of members. -/
def settleMembers? : List (Option String × Outline) → Option (List (String × Json))
  | [] => some []
  | (k, o) :: ms => do
    let name ← k
    let v ← settle? o
    return (name, v) :: (← settleMembers? ms)

end

/-! ### Passing over -/

mutual

/-- The outline can be passed over: it does not break. -/
def isWhole : Outline → Bool
  | .scalar _ | .lapse => true
  | .arr items cut => areWhole items && !cut
  | .obj members cut => membersAreWhole members && cut.isNone
  | .broken => false

/-- Every item can be passed over. -/
def areWhole : List Outline → Bool
  | [] => true
  | o :: os => isWhole o && areWhole os

/-- Every member can be passed over. -/
def membersAreWhole : List (Option String × Outline) → Bool
  | [] => true
  | (_, o) :: ms => isWhole o && membersAreWhole ms

end

end Outline

end TypeSketch.Json
