import TypeSketch.Text.CharClass

/-!
# Cutting text

Pieces between separators, lines, words between blanks, and a text without the blanks around it.
-/

namespace TypeSketch.Text

/-- The pieces between the characters that `p` holds of: one more than there are such characters. -/
def splitWhere (p : Char → Bool) : List Char → List (List Char)
  | [] => [[]]
  | c :: cs =>
    if p c then [] :: splitWhere p cs
    else
      match splitWhere p cs with
      | [] => [[c]]
      | piece :: pieces => (c :: piece) :: pieces

/-- The pieces between the occurrences of `sep`. -/
def pieces (sep : Char) (cs : List Char) : List (List Char) := splitWhere (· == sep) cs

/-- A line whose line feed is gone loses the carriage return before it too. -/
def dropReturn (line : List Char) : List Char :=
  if line.getLast? == some '\r' then line.dropLast else line

/-- The lines of pieces cut at line feeds. The last piece has no line feed after it, so it keeps a
carriage return, and it is a line only if it is not empty. -/
def linesOfPieces : List (List Char) → List (List Char)
  | [] => []
  | [last] => if last.isEmpty then [] else [last]
  | line :: rest => dropReturn line :: linesOfPieces rest

/-- The lines of a text, without their line ends. -/
def lines (cs : List Char) : List (List Char) := linesOfPieces (pieces '\n' cs)

/-- The text from its first character that is not blank on. -/
def trimStart (cs : List Char) : List Char := cs.dropWhile isBlank

/-- The text without the blanks around it. -/
def trim (cs : List Char) : List Char := (trimStart (trimStart cs).reverse).reverse

/-- The maximal runs of characters that are not blank. -/
def words (cs : List Char) : List (List Char) := (splitWhere isBlank cs).filter (!·.isEmpty)

/-- `cs` without the suffix `suffix`, if it ends in it. -/
def dropSuffix? (suffix cs : List Char) : Option (List Char) :=
  if suffix.isSuffixOf cs then some (cs.take (cs.length - suffix.length)) else none

/-- `cs` without `start`, if it starts with it. -/
def dropStart? : List Char → List Char → Option (List Char)
  | [], cs => some cs
  | _ :: _, [] => none
  | s :: start, c :: cs => if s == c then dropStart? start cs else none

/-- `part` occurs in `cs` as a run of consecutive characters. -/
def occursIn (part : List Char) : List Char → Bool
  | [] => part.isEmpty
  | c :: cs => part.isPrefixOf (c :: cs) || occursIn part cs

theorem occursIn_iff {part cs : List Char} : occursIn part cs = true ↔ part <:+: cs := by
  induction cs with
  | nil => rw [occursIn, List.isEmpty_iff, List.infix_nil]
  | cons c cs ih =>
    rw [occursIn, Bool.or_eq_true, List.isPrefixOf_iff_prefix, ih, List.infix_cons_iff]

/-- The pieces joined with `sep` between them. -/
def joinWith (sep : String) : List String → String
  | [] => ""
  | [s] => s
  | s :: rest => s ++ sep ++ joinWith sep rest

/-- Letters of ASCII compare without regard to case. -/
def eqIgnoreAsciiCase (a b : String) : Bool :=
  let fold := fun c : Char => if isAsciiUpper c then Char.ofNat (c.toNat + 32) else c
  a.toList.map fold == b.toList.map fold

end TypeSketch.Text
