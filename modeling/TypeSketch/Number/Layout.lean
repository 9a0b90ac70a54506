import TypeSketch.Number.Shortest

/-!
# Written floating numbers

A style says which decimals are written positionally and whether a whole number keeps a point. The
other decimals are written with one digit before the point and a signed exponent.
-/

namespace TypeSketch.Binary64

/-- How the digits of a number are laid out. -/
structure Style where
  /-- Which of two equally near decimals is meant. -/
  tie : Tie
  /-- The exponents of the first digit that are written positionally. -/
  positional : Int → Bool
  /-- A whole number ends in `.0`. -/
  wholePoint : Bool

/-- `n` zeros. -/
def zeros (n : Nat) : String := String.ofList (List.replicate n '0')

/-- A decimal in positional notation. -/
def Style.positionally (style : Style) (d : Decimal) : String :=
  let digits := (toString d.digits).toList
  let before := d.exponent + digits.length
  let wholeEnd := if style.wholePoint then ".0" else ""
  if d.exponent ≥ 0 then String.ofList digits ++ zeros d.exponent.toNat ++ wholeEnd
  else if before ≤ 0 then "0." ++ zeros (-before).toNat ++ String.ofList digits
  else String.ofList (digits.take before.toNat) ++ "." ++ String.ofList (digits.drop before.toNat)

/-- A decimal with one digit before the point and an exponent. -/
def scientific (d : Decimal) : String :=
  let digits := (toString d.digits).toList
  let exponent := d.exponent + digits.length - 1
  let sign := if exponent < 0 then "e-" else "e+"
  let point := if digits.length > 1 then "." else ""
  String.ofList (digits.take 1) ++ point ++ String.ofList (digits.drop 1) ++ sign ++
    toString exponent.natAbs

/-- A finite number in a style. -/
def Style.write (style : Style) (negative : Bool) (m : Nat) (e : Int) : String :=
  let sign := if negative then "-" else ""
  let d := if m == 0 then ⟨0, 0⟩ else shortest style.tie m e
  let first := d.exponent + (toString d.digits).length - 1
  sign ++ if style.positional first then style.positionally d else scientific d

/-- Always positional, and a whole number without a point. -/
def plain : Style := ⟨.away, fun _ => true, false⟩

/-- Positional from `10^-5` to below `10^16`, and a whole number with a point. -/
def pointed : Style := ⟨.toEven, fun first => -5 ≤ first && first < 16, true⟩

/-- The plain text of a number: `3`, `0.1`, `-0`, `NaN`, `inf`, `-inf`. -/
def toText : Binary64 → String
  | .nan => "NaN"
  | .infinite negative => if negative then "-inf" else "inf"
  | .finite negative m e => plain.write negative m e

end TypeSketch.Binary64
