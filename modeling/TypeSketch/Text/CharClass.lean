import TypeSketch.Text.CaseTables
import TypeSketch.Text.ClassTables

/-!
# Classes of characters

Letter case, alphabetic and word characters, blanks, and the characters a quoted text spells out.
ASCII is decided by rule; beyond ASCII the classes are the Unicode properties of the tables.
-/

namespace TypeSketch.Text

/-- `n` lies on one of the runs. -/
def onRun (runs : List (Nat × Nat × Nat)) (n : Nat) : Bool :=
  runs.any fun (first, last, step) => first ≤ n && n ≤ last && (n - first) % step == 0

/-- A decimal digit of ASCII. -/
def isAsciiDigit (c : Char) : Bool := '0' ≤ c && c ≤ '9'

/-- A capital letter of ASCII. -/
def isAsciiUpper (c : Char) : Bool := 'A' ≤ c && c ≤ 'Z'

/-- A small letter of ASCII. -/
def isAsciiLower (c : Char) : Bool := 'a' ≤ c && c ≤ 'z'

/-- Property `Uppercase`. -/
def isUppercase (c : Char) : Bool :=
  if c.toNat < 128 then isAsciiUpper c else onRun uppercaseRuns c.toNat

/-- Property `Lowercase`. -/
def isLowercase (c : Char) : Bool :=
  if c.toNat < 128 then isAsciiLower c else onRun lowercaseRuns c.toNat

/-- Property `Alphabetic`. -/
def isAlphabetic (c : Char) : Bool :=
  if c.toNat < 128 then isAsciiUpper c || isAsciiLower c else onRun alphabeticRuns c.toNat

/-- A character of a word: alphabetic, a mark, a decimal digit, connecting punctuation or a joiner.
What counts is edition 16 of Unicode. -/
def isWord (c : Char) : Bool :=
  if c.toNat < 128 then isAsciiUpper c || isAsciiLower c || isAsciiDigit c || c == '_'
  else (onRun alphabeticRuns c.toNat || onRun wordMarkRuns c.toNat) && !onRun lateWordRuns c.toNat

/-- Property `White_Space`. -/
def isBlank (c : Char) : Bool :=
  let n := c.toNat
  (9 ≤ n && n ≤ 13) || n == 0x20 || n == 0x85 || n == 0xA0 || n == 0x1680 ||
    (0x2000 ≤ n && n ≤ 0x200A) || n == 0x2028 || n == 0x2029 || n == 0x202F || n == 0x205F ||
    n == 0x3000

/-- The two half-width voicing marks, which stand beside the character before them. -/
def isHalfWidthMark (c : Char) : Bool := c.toNat == 0xFF9E || c.toNat == 0xFF9F

/-- A character that would not be seen, or would change the one before it, if a quoted text showed
it as it is. -/
def isInvisible (c : Char) : Bool :=
  if c.toNat < 128 then c.toNat < 32 || c.toNat == 127
  else onRun invisibleRuns c.toNat || (onRun graphemeExtendRuns c.toNat && !isHalfWidthMark c)

/-! ### Letter case of one character -/

/-- The image of `n` under a run that holds it. -/
def alongRun? (runs : List (Nat × Nat × Nat × Int)) (n : Nat) : Option Nat :=
  (runs.find? fun (first, last, step, _) => first ≤ n && n ≤ last && (n - first) % step == 0).map
    fun (_, _, _, distance) => (n + distance).toNat

/-- The characters `c` is written with in the other case; `c` itself when it has none. -/
def mapCase (sequences : List (Nat × List Nat)) (runs : List (Nat × Nat × Nat × Int)) (c : Char) :
    List Char :=
  match sequences.lookup c.toNat with
  | some ns => ns.map Char.ofNat
  | none =>
    match alongRun? runs c.toNat with
    | some n => [Char.ofNat n]
    | none => [c]

/-- Full lower case mapping; several characters for a few letters. -/
def toLower (c : Char) : List Char :=
  if c.toNat < 128 then (if isAsciiUpper c then [Char.ofNat (c.toNat + 32)] else [c])
  else mapCase toLowerSequences toLowerRuns c

/-- Full upper case mapping; several characters for a few letters. -/
def toUpper (c : Char) : List Char :=
  if c.toNat < 128 then (if isAsciiLower c then [Char.ofNat (c.toNat - 32)] else [c])
  else mapCase toUpperSequences toUpperRuns c

end TypeSketch.Text
