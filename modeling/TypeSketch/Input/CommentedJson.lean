import TypeSketch.Input.Basic
import TypeSketch.Shape.Sample
import TypeSketch.Shape.Walk

/-!
# JSON samples with comments

A line of a sample may end in a comment behind two slashes. The comments since the last key belong
to the next key that stands first on a line, the comment behind that key included. A key is told
from others of its name by how often the name has stood first on a line before.
-/

namespace TypeSketch.CommentedJson

/-- The code of a line and its comment, if it has one. `inText` says that the line goes on inside a
text, `escaped` that the next character stands behind a backslash there. -/
def splitFrom (inText escaped : Bool) : List Char → List Char × Option (List Char)
  | [] => ([], none)
  | '/' :: '/' :: rest =>
    if inText then
      let (code, comment) := splitFrom true false ('/' :: rest)
      ('/' :: code, comment)
    else ([], some rest)
  | c :: rest =>
    let (inText', escaped') :=
      if inText then
        if escaped then (true, false)
        else if c == '\\' then (true, true)
        else (c != '"', false)
      else (c == '"', false)
    let (code, comment) := splitFrom inText' escaped' rest
    (c :: code, comment)

/-- The code of a line and its comment, if it has one. -/
def split (line : List Char) : List Char × Option (List Char) := splitFrom false false line

/-- A text without its comments. -/
def strip (text : String) : String :=
  String.ofList ((Text.lines text.toList).flatMap fun line => (split line).1 ++ ['\n'])

/-- A character of a key. -/
def isKeyChar (c : Char) : Bool := Text.isWord c || c == '-'

/-- The key that starts behind a quotation mark, if a colon follows it. -/
def keyAt? (cs : List Char) : Option String :=
  let key := cs.takeWhile isKeyChar
  match cs.dropWhile isKeyChar with
  | '"' :: rest =>
    if !key.isEmpty && (Text.trimStart rest).head? == some ':' then some (String.ofList key)
    else none
  | _ => none

/-- The first key of a line. -/
def firstKey? : List Char → Option String
  | [] => none
  | c :: rest => if c == '"' then (keyAt? rest).or (firstKey? rest) else firstKey? rest

/-- Comments by key: how often the name has stood first on a line, this time included, and the
name. -/
abbrev Comments := List ((Nat × String) × List String)

/-- What has been seen of a text: how often each name stood first on a line, comments that wait for
a key, and those that have one. -/
structure Seen where
  counts : List (String × Nat) := []
  waiting : List String := []
  comments : Comments := []

/-- Look at one line. -/
def Seen.line (seen : Seen) (line : List Char) : Seen :=
  let (code, comment) := split line
  let waiting :=
    seen.waiting ++ (comment.map fun cs => String.ofList (Text.trim cs)).toList
  match firstKey? code with
  | none => { seen with waiting }
  | some key =>
    let nth := (seen.counts.lookup key).getD 0 + 1
    let counts := Assoc.put key nth seen.counts
    if waiting.isEmpty then { seen with counts }
    else ⟨counts, [], seen.comments ++ [((nth, key), waiting)]⟩

/-- The comments of a text. -/
def comments (text : String) : Comments :=
  ((Text.lines text.toList).foldl Seen.line {}).comments

/-- Put comments onto the field entries of their keys. -/
def annotate (comments : Comments) (s : Shape) : Except Error Shape :=
  let visit (_ nth : Nat) (name : String) (s : Shape) (_ : Unit) : Shape × Unit × Option Error :=
    match comments.lookup (nth, name) with
    | none => (s, (), none)
    | some lines =>
      match s.append (Trait.beforeLineComment.entry (.list (lines.map .str))) with
      | .ok s => (s, (), none)
      | .error e => (s, (), some e)
  match s.editNumbered visit () with
  | (s, _, none) => .ok s
  | (_, _, some e) => .error e

/-- Read a sample as a model of some name, which a struct takes over. -/
def read (model : String) (sample : Sample) : Draft Parsed := do
  match Json.parse (strip sample.text) with
  | .error flaw => throw (.json flaw)
  | .ok value =>
    let s ← Shape.ofSample value model
    if s.flag Trait.struct && !model.isEmpty then
      let s ← Draft.ofExcept (s.replace (Trait.name.entry (.str model)))
      return .shape (← Draft.ofExcept (annotate (comments sample.text) s))
    else return .shape s

/-- The reader of JSON samples. -/
def reader : InputReader where
  name := "json"
  accepts
    | .sample s => Text.eqIgnoreAsciiCase s.format "json"
    | _ => false
  read model input _ :=
    match input with
    | .sample s => read model s
    | _ => throw (.noParser model)

end TypeSketch.CommentedJson
