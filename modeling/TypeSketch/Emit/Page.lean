/-!
# Pages of code

Code is written a line at a time. The lines inside a block are indented by four blanks, and a block
that was opened is closed even if writing what is inside it fails.
-/

namespace TypeSketch

/-- The lines written so far, and how many blocks are open. -/
structure Page where
  lines : List String := []
  level : Nat := 0

/-- Writing that may fail. What was written before it failed stays. -/
abbrev Writing (ε : Type) := ExceptT ε (StateM Page)

namespace Page

/-- A text at a level of indentation. An empty text is not indented. -/
def indented (level : Nat) (text : String) : String :=
  if text.isEmpty then "" else String.ofList (List.replicate (4 * level) ' ') ++ text

/-- The page with one more text, at the level of the open blocks. -/
def add (page : Page) (text : String) : Page :=
  { page with lines := page.lines ++ [indented page.level text] }

/-- The text of a page: every line with its line feed. -/
def text (page : Page) : String := String.join (page.lines.map fun l => l ++ "\n")

end Page

namespace Writing

variable {ε : Type}

/-- Write a line. -/
def line (text : String) : Writing ε Unit := fun page => (.ok (), page.add text)

/-- Write a block behind a head. -/
def block (head tail : String) (body : Writing ε Unit) : Writing ε Unit := fun page =>
  let page := page.add (head ++ " \x7b")
  let (result, page) := body { page with level := page.level + 1 }
  (result, { page with level := page.level - 1 }.add ("\x7d" ++ tail))

/-- A result that writes nothing. -/
def ofExcept {α : Type} (x : Except ε α) : Writing ε α := ExceptT.mk (pure x)

/-- The outcome of writing on an empty page, and the text. -/
def outcome (w : Writing ε Unit) : Except ε Unit × String :=
  let (result, page) := w {}
  (result, page.text)

/-- The text, if writing does not fail. -/
def text (w : Writing ε Unit) : Except ε String :=
  match w.outcome with
  | (.ok _, text) => .ok text
  | (.error e, _) => .error e

end Writing

end TypeSketch
