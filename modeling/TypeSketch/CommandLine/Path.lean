import TypeSketch.Text.Lines

/-!
# Paths

The last name of a path without its ending, and the folder that a path lies in. Slashes and single
dots at the end of a path do not count.
-/

namespace TypeSketch.CommandLine.Path

/-- A piece that does not count at the end of a path. -/
def isIdle (piece : List Char) : Bool := piece.isEmpty || piece == ['.']

/-- The pieces of a path up to the last one that counts, in reverse. -/
def reversePieces (path : String) : List (List Char) :=
  (Text.pieces '/' path.toList).reverse.dropWhile isIdle

/-- The last name of a path. -/
def lastName? (path : String) : Option (List Char) :=
  (reversePieces path).head?.filter (· != ['.', '.'])

/-- A name without its ending: all before the last dot, unless that is nothing. -/
def withoutEnding (name : List Char) : List Char :=
  let front := (name.reverse.dropWhile (· != '.')).tail.reverse
  if front.isEmpty then name else front

/-- The last name of a path without its ending. -/
def stem? (path : String) : Option String :=
  (lastName? path).map fun name => String.ofList (withoutEnding name)

/-- Pieces with slashes between them. -/
def ofPieces (pieces : List (List Char)) : String := Text.joinWith "/" (pieces.map String.ofList)

/-- The folder that a path names, if it names one. -/
def parent? (path : String) : Option String :=
  let before := (reversePieces path).tail.reverse
  let start := before.takeWhile (·.isEmpty)
  let rest := (before.dropWhile (·.isEmpty)).reverse
  let last := rest.dropWhile isIdle
  let pieces := if last.isEmpty then rest.getLast?.toList else last.reverse
  if pieces.isEmpty then (if start.isEmpty then none else some "/")
  else some (ofPieces (start ++ pieces))

end TypeSketch.CommandLine.Path
