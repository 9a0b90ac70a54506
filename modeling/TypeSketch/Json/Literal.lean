import TypeSketch.Json.Basic
import TypeSketch.Text.Integer

/-!
# Number literals

A literal without fraction and exponent is a whole number if it fits 64 bits. Every other one is a
floating number computed from a significand of 64 bits and a power of ten: digits are collected into
the significand while it fits, the rest are dropped, and the significand is multiplied or divided
once by the power of ten. The result can differ from the nearest number in its last place.
-/

namespace TypeSketch.Json

/-- The parts of a number literal, as digits. -/
structure Literal where
  negative : Bool := false
  whole : List Char := []
  fraction : Option (List Char) := none
  /-- Sign and digits of the exponent; `true` is minus. -/
  exponent : Option (Bool × List Char) := none

namespace Literal

/-- Digits added to a significand while it fits 64 bits: the significand, how many digits went in,
and how many were left out. -/
def collect (significand : Nat) : List Char → Nat × Nat × Nat
  | [] => (significand, 0, 0)
  | c :: cs =>
    let next := significand * 10 + Text.digitValue c
    if next < Nat.pow 2 64 then
      let (s, taken, left) := collect next cs
      (s, taken + 1, left)
    else (significand, 0, (c :: cs).length)

/-- The powers of ten from `10^0` to `10^308`, each the nearest number. -/
def powTen (k : Nat) : Binary64 := Binary64.ofNat (Nat.pow 10 k)

/-- A number divided by `10^k`, in steps of at most `10^308`. -/
def divPowTen (x : Binary64) (k : Nat) : Binary64 :=
  if k ≤ 308 then x.div (powTen k)
  else if x.isZero then x
  else divPowTen (x.div (powTen 308)) (k - 308)
termination_by k

/-- `significand · 10^exponent`; nothing if it is too large. -/
def scaled? (significand : Nat) (exponent : Int) : Option Binary64 :=
  let x := Binary64.ofNat significand
  if exponent < 0 then some (divPowTen x exponent.natAbs)
  else if exponent.natAbs ≤ 308 then
    let y := x.mul (powTen exponent.natAbs)
    if y.isFinite then some y else none
  else if x.isZero then some x
  else none

/-- The largest exponent that is computed with. -/
def maxExponent : Nat := 2147483647

/-- The value of a literal; nothing if it is too large. -/
def value? (l : Literal) : Option Json :=
  let (s, _, dropped) := collect 0 l.whole
  let sign (x : Binary64) : Json := .float (if l.negative then x.neg else x)
  match l.fraction, l.exponent with
  | none, none =>
    if dropped == 0 then
      if !l.negative then some (.int s)
      else if s == 0 || s > Nat.pow 2 63 then some (sign (Binary64.ofNat s))
      else some (.int (-(s : Int)))
    else (scaled? s dropped).map sign
  | fraction, exponent =>
    let (s, taken, _) := collect s (fraction.getD [])
    let start : Int := (dropped : Int) - taken
    match exponent with
    | none => (scaled? s start).map sign
    | some (minus, digits) =>
      let k := Text.digitsValue digits
      if k > maxExponent then
        if s != 0 && !minus then none else some (sign (Binary64.zero false))
      else (scaled? s (if minus then start - k else start + k)).map sign

end Literal

end TypeSketch.Json
