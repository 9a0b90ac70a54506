import TypeSketch.CommandLine.Files

/-!
# Patterns of paths

In a pattern `?` stands for any character of a name, `*` for any run of them, and brackets for one
of some characters or, behind an exclamation mark, for any other. A part `**` stands for any number
of folders. What a pattern matches comes in alphabetical order, a folder before what is in it.
-/

namespace TypeSketch.CommandLine

/-- What stands for characters of a name. -/
inductive Wildcard
  | char (c : Char)
  | anyChar
  | anyRun
  /-- A character on one of some ranges, or on none of them if `negated`. -/
  | ranges (negated : Bool) (bounds : List (Char × Char))

/-- A part of a pattern between slashes. -/
inductive PatternPart
  | literal (name : String)
  | wild (wildcards : List Wildcard)
  | anyFolders

namespace PatternPart

/-- The ranges between brackets. A hyphen between two characters makes a range of them. -/
def boundsOf : List Char → List (Char × Char)
  | a :: '-' :: b :: cs => (a, b) :: boundsOf cs
  | a :: cs => (a, a) :: boundsOf cs
  | [] => []

/-- Where the reader of a part is. -/
inductive Place
  | outside
  | afterStar
  /-- Behind an opening bracket. -/
  | opened
  /-- Behind an opening bracket and an exclamation mark. -/
  | negated
  /-- Behind some characters between brackets. -/
  | listing (negated : Bool) (cs : List Char)

/-- The wildcards of the rest of a part; nothing if a bracket stays open or a star follows
another. -/
def wildcards? : Place → List Char → Option (List Wildcard)
  | .outside, [] | .afterStar, [] => some []
  | _, [] => none
  | .opened, c :: cs =>
    if c == '!' then wildcards? .negated cs else wildcards? (.listing false [c]) cs
  | .negated, c :: cs => wildcards? (.listing true [c]) cs
  | .listing negated listed, c :: cs =>
    if c == ']' then (wildcards? .outside cs).map (.ranges negated (boundsOf listed) :: ·)
    else wildcards? (.listing negated (listed ++ [c])) cs
  | .outside, c :: cs =>
    if c == '*' then (wildcards? .afterStar cs).map (.anyRun :: ·)
    else if c == '?' then (wildcards? .outside cs).map (.anyChar :: ·)
    else if c == '[' then wildcards? .opened cs
    else (wildcards? .outside cs).map (.char c :: ·)
  | .afterStar, c :: cs =>
    if c == '*' then none
    else if c == '?' then (wildcards? .outside cs).map (.anyChar :: ·)
    else if c == '[' then wildcards? .opened cs
    else (wildcards? .outside cs).map (.char c :: ·)

/-- The characters of wildcards that are nothing else. -/
def literal? (wildcards : List Wildcard) : Option (List Char) :=
  wildcards.mapM fun
    | .char c => some c
    | _ => none

/-- Read a part. -/
def ofText? (cs : List Char) : Option PatternPart :=
  if cs == ['*', '*'] then some .anyFolders
  else
    (wildcards? .outside cs).map fun ws =>
      match literal? ws with
      | some name => .literal (String.ofList name)
      | none => .wild ws

/-- One character fits a wildcard. -/
def fits (c : Char) : Wildcard → Bool
  | .char d => c == d
  | .anyChar | .anyRun => true
  | .ranges negated bounds => bounds.any (fun (a, b) => a ≤ c && c ≤ b) != negated

/-- A text and what is left of it after each of its characters. -/
def suffixes : List Char → List (List Char)
  | [] => [[]]
  | c :: cs => (c :: cs) :: suffixes cs

/-- Wildcards match a name. -/
def matchAll : List Wildcard → List Char → Bool
  | [], cs => cs.isEmpty
  | .anyRun :: ws, cs => (suffixes cs).any (matchAll ws)
  | w :: ws, c :: cs => fits c w && matchAll ws cs
  | _ :: _, [] => false

/-- A part matches a name. -/
def matchesName (name : String) : PatternPart → Bool
  | .literal text => name == text
  | .wild ws => matchAll ws name.toList
  | .anyFolders => true

end PatternPart

/-- A pattern: its parts, and whether it only matches folders. -/
structure Pattern where
  parts : List PatternPart
  foldersOnly : Bool

namespace Pattern

/-- A text is meant as a pattern. -/
def isPattern (text : String) : Bool := text.toList.any ['*', '?', '[', '\x7b'].contains

/-- The parts of a pattern, where any number of folders behind any number of folders are just
that. -/
def collapse : List PatternPart → List PatternPart
  | .anyFolders :: .anyFolders :: parts => collapse (.anyFolders :: parts)
  | part :: parts => part :: collapse parts
  | [] => []

/-- Read a pattern. -/
def ofText? (text : String) : Option Pattern := do
  let pieces := (text.splitOn "/").filter (!·.isEmpty)
  let parts ← pieces.mapM fun piece => PatternPart.ofText? piece.toList
  return ⟨collapse parts, text.toList.getLast? == some '/'⟩

/-- A name below a path. The empty path is the folder at hand. -/
def join (path name : String) : String :=
  if path.isEmpty then name
  else if path.toList.getLast? == some '/' then path ++ name
  else path ++ "/" ++ name

section

variable {m : Type → Type} [Monad m] (files : Files m)

/-- The path, if it may be one of the results. -/
def result (foldersOnly : Bool) (path : String) : m (List String) := do
  if foldersOnly then
    return if (← files.isFolder? path) == some true then [path] else []
  else return [path]

/-- There is a folder at a path. -/
def isFolderAt (path : String) : m Bool :=
  if path.isEmpty then return true else return (← files.isFolder? path) == some true

/-- The results of `f` for every path, one after the other. -/
def forEach (paths : List String) (f : String → m (List String)) : m (List String) :=
  return (← paths.mapM f).flatten

/-- The two names that every folder has, where a part that begins with a dot matches them. -/
def dotNames (path : String) : PatternPart → List String
  | .wild (.char '.' :: ws) =>
    let here := if path.isEmpty then "." else path
    let matching := fun (name : String) => PatternPart.matchAll (.char '.' :: ws) name.toList
    (["..", "."].filter matching).map (join here)
  | _ => []

/-- What some parts match below a path. The search goes `fuel` steps down. -/
def search (foldersOnly : Bool) : Nat → List PatternPart → String → m (List String)
  | 0, _, _ => return []
  | _ + 1, [], path => result files foldersOnly path
  | fuel + 1, part :: parts, path => do
    match part with
    | .literal name =>
      if name == "." && path.isEmpty && !parts.isEmpty then search foldersOnly fuel parts path
      else if (← files.isFolder? (join path name)).isSome then
        search foldersOnly fuel parts (join path name)
      else return []
    | .wild _ =>
      if ← isFolderAt files path then
        let names := (← files.names path).mergeSort
        let found := (names.filter fun name => part.matchesName name).map (join path)
        forEach (dotNames path part ++ found) (search foldersOnly fuel parts)
      else return []
    | .anyFolders =>
      if ← isFolderAt files path then
        forEach ((← files.names path).mergeSort) fun name => do
          let child := join path name
          let inner :=
            if ← isFolderAt files child then search foldersOnly fuel (part :: parts) child
            else return []
          match parts with
          | [] =>
            if ← isFolderAt files child then return child :: (← inner) else return []
          | next :: parts =>
            let here := if next.matchesName name then search foldersOnly fuel parts child
              else return []
            return (← here) ++ (← inner)
      else return []

/-- How far down a search goes. -/
def maxSteps : Nat := 1024

/-- The paths that a pattern matches. -/
def paths (pattern : Pattern) (absolute : Bool) : m (List String) :=
  search files pattern.foldersOnly maxSteps pattern.parts (if absolute then "/" else "")

end

end Pattern

end TypeSketch.CommandLine
