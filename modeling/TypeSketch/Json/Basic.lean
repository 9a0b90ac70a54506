import TypeSketch.Assoc
import TypeSketch.Number.Layout

/-!
# JSON values

Whole numbers and floating numbers are kept apart, as their literals are. The members of an object
stand in the order in which their names first came.
-/

namespace TypeSketch

/-- A JSON value. -/
inductive Json
  | null
  | bool (b : Bool)
  | int (n : Int)
  | float (x : Binary64)
  | str (s : String)
  | arr (items : List Json)
  | obj (members : List (String × Json))
deriving Inhabited

namespace Json

/-- The least whole number that is written as one. -/
def minInt : Int := -9223372036854775808

/-- The greatest signed whole number. -/
def maxInt : Int := 9223372036854775807

/-- The greatest whole number that is written as one. -/
def maxNat : Int := 18446744073709551615

/-- A whole number that fits a signed word of 64 bits. -/
def asInt64? : Json → Option Int
  | int n => if n ≤ maxInt then some n else none
  | _ => none

def asStr? : Json → Option String
  | str s => some s
  | _ => none

def asBool? : Json → Option Bool
  | bool b => some b
  | _ => none

def asArr? : Json → Option (List Json)
  | arr xs => some xs
  | _ => none

def asObj? : Json → Option (List (String × Json))
  | obj ms => some ms
  | _ => none

/-- A number as a floating one. -/
def asFloat? : Json → Option Binary64
  | int n => some (Binary64.ofInt n)
  | float x => some x
  | _ => none

/-- The member of an object with a name. -/
def get? (name : String) : Json → Option Json
  | obj ms => ms.lookup name
  | _ => none

/-- The object with a member written. -/
def set (j : Json) (name : String) (v : Json) : Json :=
  match j with
  | obj ms => obj (Assoc.put name v ms)
  | j => j

/-! ### Equality

Members compare without regard to their order. -/

mutual

/-- Two values are the same but for the order of members. -/
def same : Json → Json → Bool
  | null, null => true
  | bool a, bool b => a == b
  | int a, int b => a == b
  | float a, float b => a.same b
  | str a, str b => a == b
  | arr xs, arr ys => sameItems xs ys
  | obj ms, obj ns => ms.length == ns.length && sameMembers ms ns
  | _, _ => false

/-- Items compare one by one. -/
def sameItems : List Json → List Json → Bool
  | [], [] => true
  | x :: xs, y :: ys => same x y && sameItems xs ys
  | _, _ => false

/-- Every member on the left has one of its name and value on the right. -/
def sameMembers : List (String × Json) → List (String × Json) → Bool
  | [], _ => true
  | (k, v) :: ms, ns =>
    (match ns.lookup k with
      | some w => same v w
      | none => false) && sameMembers ms ns

end

end Json

end TypeSketch
