import TypeSketch.Json.Literal

/-!
# Tokens of a JSON text

A text is cut into tokens one character at a time. The first place where no token can be read leaves
a flawed token and ends the cutting, so that a reader meets what comes before it first.

A lapse is less than a flaw: a code that is no character, or a number that is too large. The cutting
goes on, and the token has no value.
-/

namespace TypeSketch.Json

/-- Why a text is not JSON: it ends too early, or it goes on in a way that it must not. -/
inductive Flaw
  | unfinished
  | malformed
deriving DecidableEq

/-- A token. An atom is a literal other than a text; it is `apart` when a blank, a punctuation mark
or the end of the text follows it. A text has a token `lapse` before it for every lapse in it. -/
inductive Token
  | beginArr
  | endArr
  | beginObj
  | endObj
  | comma
  | colon
  | text (s : Option String)
  | atom (value : Option Json) (apart : Bool)
  | lapse
  | flawedText (flaw : Flaw)
  | flawed (flaw : Flaw)

/-- How far a number literal has been read. -/
inductive Part
  | sign
  | zero
  | whole
  | point
  | fraction
  | mark
  | markSign
  | exponent
deriving DecidableEq

/-- The part is one that a literal may end with. -/
def Part.complete : Part → Bool
  | .zero | .whole | .fraction | .exponent => true
  | _ => false

/-- What has been read of the token at hand. Characters of a text stand in reverse; there are none
after a lapse. -/
inductive Scan
  | between
  | word (rest : List Char) (value : Json)
  | number (part : Part) (literal : Literal)
  | text (done : Option (List Char))
  | escape (done : Option (List Char))
  /-- Inside the four places of a code: how many bytes they take so far, whether all are digits, and
  their value. `high` is the first half of a pair. -/
  | code (done : Option (List Char)) (high : Option Nat) (bytes : Nat) (digits : Bool) (value : Nat)
  /-- Before the backslash of the second half of a pair. -/
  | pairSlash (done : Option (List Char)) (high : Nat)
  /-- Before the `u` of the second half of a pair. -/
  | pairMark (done : Option (List Char)) (high : Nat)
  | stopped

/-- The blanks between tokens. -/
def isGap (c : Char) : Bool := c == ' ' || c == '\t' || c == '\n' || c == '\r'

/-- A character that sets an atom apart from what follows. -/
def endsAtom (c : Char) : Bool :=
  isGap c || c == '"' || c == '[' || c == ']' || c == '\x7b' || c == '\x7d' || c == ',' || c == ':'

/-- The value of a digit of base sixteen. -/
def hexValue? (c : Char) : Option Nat :=
  if Text.isAsciiDigit c then some (c.toNat - 48)
  else if 'a' ≤ c && c ≤ 'f' then some (c.toNat - 87)
  else if 'A' ≤ c && c ≤ 'F' then some (c.toNat - 55)
  else none

/-- Read the first character of a token, or a blank. -/
def Scan.start (c : Char) : Scan × List Token :=
  if isGap c then (.between, [])
  else if c == '[' then (.between, [.beginArr])
  else if c == ']' then (.between, [.endArr])
  else if c == '\x7b' then (.between, [.beginObj])
  else if c == '\x7d' then (.between, [.endObj])
  else if c == ',' then (.between, [.comma])
  else if c == ':' then (.between, [.colon])
  else if c == '"' then (.text (some []), [])
  else if c == 't' then (.word ['r', 'u', 'e'] (.bool true), [])
  else if c == 'f' then (.word ['a', 'l', 's', 'e'] (.bool false), [])
  else if c == 'n' then (.word ['u', 'l', 'l'] .null, [])
  else if c == '-' then (.number .sign ⟨true, [], none, none⟩, [])
  else if c == '0' then (.number .zero ⟨false, [c], none, none⟩, [])
  else if Text.isAsciiDigit c then (.number .whole ⟨false, [c], none, none⟩, [])
  else (.stopped, [.flawed .malformed])

/-- End an atom before `c` and read `c`. -/
def Scan.endAtom (value : Option Json) (c : Char) : Scan × List Token :=
  let (scan, tokens) := start c
  (scan, .atom value (endsAtom c) :: tokens)

/-- The part and the literal after one more character; nothing if the literal cannot hold it. -/
def Literal.extend? (part : Part) (l : Literal) (c : Char) : Option (Part × Literal) :=
  let digit := Text.isAsciiDigit c
  let mark := c == 'e' || c == 'E'
  let addWhole := { l with whole := l.whole ++ [c] }
  let addFraction := { l with fraction := some (l.fraction.getD [] ++ [c]) }
  let addExponent :=
    let (negative, digits) := l.exponent.getD (false, [])
    { l with exponent := some (negative, digits ++ [c]) }
  match part with
  | .sign =>
    if c == '0' then some (.zero, addWhole) else if digit then some (.whole, addWhole) else none
  | .zero =>
    if c == '.' then some (.point, { l with fraction := some [] })
    else if mark then some (.mark, { l with exponent := some (false, []) })
    else none
  | .whole =>
    if digit then some (.whole, addWhole)
    else if c == '.' then some (.point, { l with fraction := some [] })
    else if mark then some (.mark, { l with exponent := some (false, []) })
    else none
  | .point => if digit then some (.fraction, addFraction) else none
  | .fraction =>
    if digit then some (.fraction, addFraction)
    else if mark then some (.mark, { l with exponent := some (false, []) })
    else none
  | .mark =>
    if c == '+' then some (.markSign, l)
    else if c == '-' then some (.markSign, { l with exponent := some (true, []) })
    else if digit then some (.exponent, addExponent)
    else none
  | .markSign => if digit then some (.exponent, addExponent) else none
  | .exponent => if digit then some (.exponent, addExponent) else none

/-- The text after one more character. -/
def Scan.add (done : Option (List Char)) (c : Char) : Scan := .text (done.map (c :: ·))

/-- End the code of a text after its four places. -/
def Scan.endCode (done : Option (List Char)) (high : Option Nat) (digits : Bool) (n : Nat) :
    Scan × List Token :=
  let low := 0xDC00 ≤ n && n ≤ 0xDFFF
  if !digits then (.stopped, [.flawedText .malformed])
  else
    match high with
    | none =>
      if low then (.text none, [.lapse])
      else if 0xD800 ≤ n && n ≤ 0xDBFF then (.pairSlash done n, [])
      else (add done (Char.ofNat n), [])
    | some h =>
      if low then (add done (Char.ofNat (0x10000 + (h - 0xD800) * 0x400 + (n - 0xDC00))), [])
      else (.text none, [.lapse])

/-- The character that a backslash and `c` stand for, codes apart. -/
def escaped? (c : Char) : Option Char :=
  if c == '"' || c == '\\' || c == '/' then some c
  else if c == 'b' then some (Char.ofNat 8)
  else if c == 'f' then some (Char.ofNat 12)
  else if c == 'n' then some '\n'
  else if c == 'r' then some '\r'
  else if c == 't' then some '\t'
  else none

/-- Read a character of a text. -/
def Scan.stepText (done : Option (List Char)) (c : Char) : Scan × List Token :=
  if c == '"' then (.between, [.text (done.map fun cs => String.ofList cs.reverse)])
  else if c == '\\' then (.escape done, [])
  else if c.toNat < 32 then (.stopped, [.flawedText .malformed])
  else (add done c, [])

/-- Read the character of a text behind a backslash. -/
def Scan.stepEscape (done : Option (List Char)) (c : Char) : Scan × List Token :=
  if c == 'u' then (.code done none 0 true 0, [])
  else
    match escaped? c with
    | some c => (add done c, [])
    | none => (.stopped, [.flawedText .malformed])

/-- What was read shows that the text has a lapse. -/
def Scan.lapsed : Scan × List Token → Scan × List Token
  | (scan, tokens) => (scan, .lapse :: tokens)

/-- Read one character. -/
def Scan.step : Scan → Char → Scan × List Token
  | .between, c => start c
  | .word [] value, c => endAtom (some value) c
  | .word (e :: rest) value, c =>
    if c == e then (.word rest value, []) else (.stopped, [.flawed .malformed])
  | .number part literal, c =>
    match literal.extend? part c with
    | some (part, literal) => (.number part literal, [])
    | none =>
      if part.complete && !(part == .zero && Text.isAsciiDigit c) then endAtom literal.value? c
      else (.stopped, [.flawed .malformed])
  | .text done, c => stepText done c
  | .escape done, c => stepEscape done c
  | .code done high bytes digits value, c =>
    let bytes := bytes + c.utf8Size
    let (digits, value) :=
      match hexValue? c with
      | some d => (digits, value * 16 + d)
      | none => (false, value)
    if bytes ≥ 4 then endCode done high digits value else (.code done high bytes digits value, [])
  | .pairSlash done high, c =>
    if c == '\\' then (.pairMark done high, []) else lapsed (stepText none c)
  | .pairMark done high, c =>
    if c == 'u' then (.code done (some high) 0 true 0, []) else lapsed (stepEscape none c)
  | .stopped, _ => (.stopped, [])

/-- The last token, at the end of the text. -/
def Scan.finish : Scan → List Token
  | .between | .stopped => []
  | .word [] value => [.atom (some value) true]
  | .word _ _ => [.flawed .unfinished]
  | .number part literal =>
    if part.complete then [.atom literal.value? true] else [.flawed .unfinished]
  | _ => [.flawedText .unfinished]

/-- The tokens of the rest of a text. -/
def tokensFrom : Scan → List Char → List Token
  | scan, [] => scan.finish
  | scan, c :: cs =>
    let (scan, tokens) := scan.step c
    tokens ++ tokensFrom scan cs

/-- The tokens of a text. -/
def tokens (text : String) : List Token := tokensFrom .between text.toList

end TypeSketch.Json
