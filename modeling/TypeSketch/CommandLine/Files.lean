/-!
# Files

What a command needs of the place it runs in, and a folder in memory that provides it.
-/

namespace TypeSketch.CommandLine

/-- Access to files by path, and a place to print. A write that does not succeed gives `false`. -/
structure Files (m : Type → Type) where
  read? : (path : String) → m (Option String)
  /-- Whether there is a folder at a path, if there is anything. -/
  isFolder? : (path : String) → m (Option Bool)
  /-- The names in a folder. -/
  names : (path : String) → m (List String)
  /-- Make a folder, with those around it. -/
  makeFolder : (path : String) → m Bool
  write : (path text : String) → m Bool
  print : (text : String) → m Unit

/-- The names of a path from the outermost on. -/
abbrev Place := List String

/-- Files and empty folders by place, and what was printed. -/
structure Folder where
  files : List (Place × String) := []
  folders : List Place := []
  printed : String := ""

namespace Folder

/-- The pieces of a path between slashes. -/
def piecesOf (path : String) : List String := path.splitOn "/"

/-- There is a folder at a place: an empty one, or one around a file. -/
def isFolder (folder : Folder) (place : Place) : Bool :=
  place.isEmpty || folder.folders.any place.isPrefixOf ||
    folder.files.any fun (p, _) => place.isPrefixOf p && place != p

/-- Follow the pieces of a path. Only a folder leads on, and nothing leads out of the outermost
one. -/
def follow? (folder : Folder) (place : Place) : List String → Option Place
  | [] => some place
  | piece :: rest =>
    if !folder.isFolder place then none
    else if piece == "" || piece == "." then follow? folder place rest
    else if piece == ".." then
      if place.isEmpty then none else follow? folder place.dropLast rest
    else follow? folder (place ++ [piece]) rest

/-- The place of a path. -/
def place? (folder : Folder) (path : String) : Option Place :=
  match piecesOf path with
  | "" :: _ => none
  | pieces => folder.follow? [] pieces

/-- The text of the file at a path. -/
def read? (folder : Folder) (path : String) : Option String :=
  (folder.place? path).bind fun place => folder.files.lookup place

/-- Whether there is a folder at a path, if there is anything. -/
def isFolder? (folder : Folder) (path : String) : Option Bool :=
  (folder.place? path).bind fun place =>
    if folder.isFolder place then some true
    else if (folder.files.lookup place).isSome then some false
    else none

/-- The name that a longer place has below a place. -/
def nameBelow? (place longer : Place) : Option String :=
  if place.isPrefixOf longer then (longer.drop place.length).head? else none

/-- The names in the folder at a path. -/
def names (folder : Folder) (path : String) : List String :=
  match if path.isEmpty then some [] else folder.place? path with
  | none => []
  | some place =>
    ((folder.files.map (·.1) ++ folder.folders).filterMap (nameBelow? place)).eraseDups

/-- Make the folders that the pieces of a path lead through. -/
def makeFrom (folder : Folder) (place : Place) : List String → Option Folder
  | [] => some folder
  | piece :: rest =>
    if piece == "" || piece == "." then makeFrom folder place rest
    else if piece == ".." then
      if place.isEmpty then none else makeFrom folder place.dropLast rest
    else
      let place := place ++ [piece]
      if (folder.files.lookup place).isSome then none
      else makeFrom { folder with folders := folder.folders ++ [place] } place rest

/-- Make the folder at a path. -/
def makeFolder? (folder : Folder) (path : String) : Option Folder :=
  match piecesOf path with
  | "" :: _ => none
  | pieces => folder.makeFrom [] pieces

/-- Write a file, over the old one if there is one. -/
def write? (folder : Folder) (path text : String) : Option Folder := do
  let place ← folder.place? path
  if folder.isFolder place then none
  else return { folder with files := folder.files.filter (·.1 != place) ++ [(place, text)] }

/-- The folder after a change, and whether the change was possible. -/
def change (f : Folder → Option Folder) : StateM Folder Bool := fun folder =>
  match f folder with
  | some folder => (true, folder)
  | none => (false, folder)

end Folder

/-- Files in memory. -/
def Files.inMemory : Files (StateM Folder) where
  read? path := return (← get).read? path
  isFolder? path := return (← get).isFolder? path
  names path := return (← get).names path
  makeFolder path := Folder.change (·.makeFolder? path)
  write path text := Folder.change (·.write? path text)
  print text := modify fun folder => { folder with printed := folder.printed ++ text }

end TypeSketch.CommandLine
