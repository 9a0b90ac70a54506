import TypeSketch.Text.CharClass

/-!
# Numbers in text

Reading whole numbers in decimal notation, and telling which texts are decimal fractions.
-/

namespace TypeSketch.Text

/-- The value of a decimal digit. -/
def digitValue (c : Char) : Nat := c.toNat - 48

/-- The number that digits write. -/
def digitsValue (cs : List Char) : Nat := cs.foldl (fun n c => n * 10 + digitValue c) 0

/-- A text of at least one decimal digit and nothing else, as a number. -/
def readNat? (cs : List Char) : Option Nat :=
  if !cs.isEmpty && cs.all isAsciiDigit then some (digitsValue cs) else none

/-- A whole number with at most one sign before it. -/
def readInt? : List Char → Option Int
  | '-' :: cs => (readNat? cs).map fun n => -(n : Int)
  | '+' :: cs => (readNat? cs).map Int.ofNat
  | cs => (readNat? cs).map Int.ofNat

/-- `n` is a signed number of 64 bits. -/
def inInt64 (n : Int) : Bool := -9223372036854775808 ≤ n && n ≤ 9223372036854775807

/-- A whole number that fits 64 bits, with at most one sign before it. -/
def readInt64? (cs : List Char) : Option Int := (readInt? cs).filter inInt64

/-- `cs` without one sign before it. -/
def dropSign : List Char → List Char
  | '-' :: cs => cs
  | '+' :: cs => cs
  | cs => cs

/-- Nothing, or `e` or `E` followed by a whole number. -/
def isExponent : List Char → Bool
  | [] => true
  | c :: cs => (c == 'e' || c == 'E') && (readNat? (dropSign cs)).isSome

/-- A decimal fraction: at most one sign, digits on at least one side of exactly one point, and at
most one exponent. -/
def isPointDecimal (cs : List Char) : Bool :=
  let whole := (dropSign cs).takeWhile isAsciiDigit
  match (dropSign cs).dropWhile isAsciiDigit with
  | '.' :: rest =>
    let part := rest.takeWhile isAsciiDigit
    (!whole.isEmpty || !part.isEmpty) && isExponent (rest.dropWhile isAsciiDigit)
  | _ => false

end TypeSketch.Text
