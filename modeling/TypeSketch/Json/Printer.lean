import TypeSketch.Json.Basic
import TypeSketch.Text.Quoted

/-!
# Printed JSON

The compact form has no blanks. The pretty form puts every item and member on a line of its own,
indented by two blanks a level.
-/

namespace TypeSketch.Json

/-- One character inside a JSON text. -/
def escapeChar (c : Char) : List Char :=
  if c == '"' then ['\\', '"']
  else if c == '\\' then ['\\', '\\']
  else if c.toNat ≥ 32 then [c]
  else if c.toNat == 8 then ['\\', 'b']
  else if c == '\t' then ['\\', 't']
  else if c == '\n' then ['\\', 'n']
  else if c.toNat == 12 then ['\\', 'f']
  else if c == '\r' then ['\\', 'r']
  else ['\\', 'u', '0', '0', Text.hexDigit (c.toNat / 16), Text.hexDigit (c.toNat % 16)]

/-- A text as a JSON text. -/
def quote (s : String) : String := String.ofList ('"' :: s.toList.flatMap escapeChar ++ ['"'])

/-- The text of a floating number; what is not finite is `null`. -/
def floatText : Binary64 → String
  | .finite negative m e => Binary64.pointed.write negative m e
  | _ => "null"

mutual

/-- The compact form. -/
def compact : Json → String
  | null => "null"
  | bool b => if b then "true" else "false"
  | int n => toString n
  | float x => floatText x
  | str s => quote s
  | arr [] => "[]"
  | arr (x :: xs) => "[" ++ compact x ++ compactItems xs ++ "]"
  | obj [] => "\x7b\x7d"
  | obj ((k, v) :: ms) => "\x7b" ++ quote k ++ ":" ++ compact v ++ compactMembers ms ++ "\x7d"

/-- Items after the first, each behind a comma. -/
def compactItems : List Json → String
  | [] => ""
  | x :: xs => "," ++ compact x ++ compactItems xs

/-- Members after the first, each behind a comma. -/
def compactMembers : List (String × Json) → String
  | [] => ""
  | (k, v) :: ms => "," ++ quote k ++ ":" ++ compact v ++ compactMembers ms

end

/-- A line end and the indentation of a level. -/
def newLine (level : Nat) : String := "\n" ++ String.ofList (List.replicate (2 * level) ' ')

mutual

/-- The pretty form at a level of indentation. -/
def prettyAt (level : Nat) : Json → String
  | null => "null"
  | bool b => if b then "true" else "false"
  | int n => toString n
  | float x => floatText x
  | str s => quote s
  | arr [] => "[]"
  | arr (x :: xs) =>
    "[" ++ newLine (level + 1) ++ prettyAt (level + 1) x ++ prettyItems (level + 1) xs ++
      newLine level ++ "]"
  | obj [] => "\x7b\x7d"
  | obj ((k, v) :: ms) =>
    "\x7b" ++ newLine (level + 1) ++ quote k ++ ": " ++ prettyAt (level + 1) v ++
      prettyMembers (level + 1) ms ++ newLine level ++ "\x7d"

/-- Items after the first, each behind a comma on a new line. -/
def prettyItems (level : Nat) : List Json → String
  | [] => ""
  | x :: xs => "," ++ newLine level ++ prettyAt level x ++ prettyItems level xs

/-- Members after the first, each behind a comma on a new line. -/
def prettyMembers (level : Nat) : List (String × Json) → String
  | [] => ""
  | (k, v) :: ms =>
    "," ++ newLine level ++ quote k ++ ": " ++ prettyAt level v ++ prettyMembers level ms

end

/-- The pretty form. -/
def pretty (j : Json) : String := prettyAt 0 j

end TypeSketch.Json
