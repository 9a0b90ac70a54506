import TypeSketch.Number.Binary64

/-!
# Shortest decimal digits

The decimals that read back as a given floating number form an interval around it. Among those with
the fewest digits the nearest one is written; when two are equally near, the format says which.
-/

namespace TypeSketch.Binary64

/-- Which of two equally near decimals is written. -/
inductive Tie
  | toEven
  | away

/-- A decimal `digits · 10^exponent`. -/
structure Decimal where
  digits : Nat
  exponent : Int

/-- `2^e` as a ratio. -/
def powTwo (e : Int) : Nat × Nat := (Nat.pow 2 e.toNat, Nat.pow 2 (-e).toNat)

/-- `10^e` as a ratio. -/
def powTen (e : Int) : Nat × Nat := (Nat.pow 10 e.toNat, Nat.pow 10 (-e).toNat)

/-- The exponent of the first decimal digit of `num / den`. -/
def decimalExponent (num den : Nat) : Int :=
  let k : Int := ((num.log2 : Int) - den.log2) * 30103 / 100000
  let below (k : Int) : Bool := let (a, b) := powTen k; a * den ≤ num * b
  if !below k then k - 1 else if below (k + 1) then k + 1 else k

/-- The decimal on the grid of `10^g` that reads back as `m · 2^e`, the nearer if there are two.
Lengths are counted in quarters of `2^e`, the half gap below a power of two being one quarter
only. -/
def onGrid? (tie : Tie) (m : Nat) (e g : Int) : Option Decimal :=
  let (un, ud) := powTwo (e - 2)
  let (tn, td) := powTen g
  let point (c : Nat) : Nat := c * tn * ud
  let length (q : Nat) : Nat := q * un * td
  let low := length (4 * m - if m == Nat.pow 2 52 && e > -1074 then 1 else 2)
  let high := length (4 * m + 2)
  let closed := m % 2 == 0
  let inside (c : Nat) : Bool :=
    (low < point c && point c < high) || (closed && (low == point c || point c == high))
  let value := length (4 * m)
  let c := value / (tn * ud)
  let up : Bool :=
    if 2 * value == point (2 * c + 1) then
      match tie with
      | .toEven => c % 2 == 1
      | .away => true
    else 2 * value > point (2 * c + 1)
  match inside c, inside (c + 1) with
  | true, true => some ⟨if up then c + 1 else c, g⟩
  | true, false => some ⟨c, g⟩
  | false, true => some ⟨c + 1, g⟩
  | false, false => none

/-- A decimal without trailing zeros among its digits. -/
def Decimal.strip (d : Decimal) : Decimal :=
  if h : d.digits ≠ 0 ∧ d.digits % 10 = 0 then strip ⟨d.digits / 10, d.exponent + 1⟩ else d
termination_by d.digits
decreasing_by omega

/-- The shortest decimal that reads back as `m · 2^e`: the first of the grids of one to seventeen
digits that has one. -/
def shortest (tie : Tie) (m : Nat) (e : Int) : Decimal :=
  let (un, ud) := powTwo e
  let k := decimalExponent (m * un) ud
  match (List.range 17).findSome? fun (n : Nat) => onGrid? tie m e (k - n) with
  | some d => d.strip
  | none => ⟨m * un / ud, 0⟩

end TypeSketch.Binary64
