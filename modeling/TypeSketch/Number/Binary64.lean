/-!
# Binary floating numbers of 64 bits

A number is `± m · 2^e` with a mantissa of at most 53 bits, an infinity, or the one value that is no
number. Every operation rounds the exact result once, to the nearest number and on a tie to the one
with the even mantissa (`Binary64.ofRatio`). Powers of natural numbers are written `Nat.pow`, so
that their meaning does not depend on what a module imports.
-/

namespace TypeSketch

/-- A floating number. A finite one has `m < 2^53` and `-1074 ≤ e ≤ 971`, with `2^52 ≤ m` unless `e`
is `-1074`. -/
inductive Binary64
  | nan
  | infinite (negative : Bool)
  | finite (negative : Bool) (mantissa : Nat) (exponent : Int)
deriving DecidableEq, Inhabited

namespace Binary64

/-- `num / den` to the nearest whole number, a half to the even one. -/
def roundHalfEven (num den : Nat) : Nat :=
  let q := num / den
  let r := num % den
  if 2 * r > den || (2 * r == den && q % 2 == 1) then q + 1 else q

/-- `num / (den · 2^e)` as a ratio of natural numbers. -/
def scaleDown (num den : Nat) (e : Int) : Nat × Nat :=
  if e ≥ 0 then (num, den * Nat.pow 2 e.toNat) else (num * Nat.pow 2 (-e).toNat, den)

/-- Zero with a sign. -/
def zero (negative : Bool) : Binary64 := .finite negative 0 (-1074)

/-- The least exponent that gives `num / den` a mantissa of 53 bits, but never below `-1074`. -/
def exponentOf (num den : Nat) : Int :=
  let e : Int := (num.log2 : Int) - den.log2 - 52
  let (a, b) := scaleDown num den e
  max (if a / b < Nat.pow 2 52 then e - 1 else e) (-1074)

/-- The number nearest to `± num / den`. -/
def ofRatio (negative : Bool) (num den : Nat) : Binary64 :=
  if num = 0 then zero negative
  else
    let e := exponentOf num den
    let (a, b) := scaleDown num den e
    let m := roundHalfEven a b
    let (m, e) := if m = Nat.pow 2 53 then (Nat.pow 2 52, e + 1) else (m, e)
    if e > 971 then .infinite negative else .finite negative m e

/-- The number nearest to a natural number. -/
def ofNat (n : Nat) : Binary64 := ofRatio false n 1

/-- The number nearest to a whole number. -/
def ofInt (n : Int) : Binary64 := ofRatio (n < 0) n.natAbs 1

/-- The number of the other sign. -/
def neg : Binary64 → Binary64
  | .nan => .nan
  | .infinite s => .infinite (!s)
  | .finite s m e => .finite (!s) m e

/-- The product of two finite numbers. -/
def mul : Binary64 → Binary64 → Binary64
  | .finite s m e, .finite s' m' e' =>
    let (a, b) := scaleDown (m * m') 1 (-(e + e'))
    ofRatio (s != s') a b
  | _, _ => .nan

/-- The quotient of two finite numbers, the second not zero. -/
def div : Binary64 → Binary64 → Binary64
  | .finite s m e, .finite s' m' e' =>
    if m' = 0 then .nan
    else
      let (a, b) := scaleDown m m' (e' - e)
      ofRatio (s != s') a b
  | _, _ => .nan

/-- Neither infinite nor `nan`. -/
def isFinite : Binary64 → Bool
  | .finite .. => true
  | _ => false

/-- Zero of either sign. -/
def isZero : Binary64 → Bool
  | .finite _ m _ => m == 0
  | _ => false

/-- A finite number counted in units of `2^-1074`, which makes it whole. -/
def units (negative : Bool) (m : Nat) (e : Int) : Int :=
  let n := m * Nat.pow 2 (e + 1074).toNat
  if negative then -(n : Int) else n

/-- The number is at least `k`. -/
def atLeast (x : Binary64) (k : Int) : Bool :=
  match x with
  | .nan => false
  | .infinite s => !s
  | .finite s m e => k * Nat.pow 2 1074 ≤ units s m e

/-- The number is at most `k`. -/
def atMost (x : Binary64) (k : Int) : Bool :=
  match x with
  | .nan => false
  | .infinite s => s
  | .finite s m e => units s m e ≤ k * Nat.pow 2 1074

/-- Equality of what is meant: both zeros are one, and `nan` is itself. -/
def same : Binary64 → Binary64 → Bool
  | .nan, .nan => true
  | .infinite s, .infinite s' => s == s'
  | .finite s m e, .finite s' m' e' => units s m e == units s' m' e'
  | _, _ => false

end Binary64

end TypeSketch
