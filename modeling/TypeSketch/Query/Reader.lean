import TypeSketch.Query.Filter
import TypeSketch.Text.CharClass
import TypeSketch.Text.Integer

/-!
# Reading filters

Filters are written as paths such as `.a.b[0]` and `.a[]`, put together by commas and, looser, by
bars, and grouped by parentheses. `select` stands before a group. The reader goes over the tokens
once and keeps the open groups on a stack.
-/

namespace TypeSketch.Filter

/-- A token of a filter. -/
inductive Token
  | dot
  | member (name : String)
  | word (name : String)
  | number (n : Nat)
  | mark (c : Char)

/-- A character of a name or a number. -/
def isNameChar (c : Char) : Bool := c.isAlphanum || c == '_'

/-- The token that a run of characters makes, a dot before it included. -/
def token? (cs : List Char) : Option Token :=
  let isName (cs : List Char) : Bool := !(cs.head?.map Text.isAsciiDigit).getD true
  match cs with
  | ['.'] => some .dot
  | '.' :: name => if isName name then some (.member (String.ofList name)) else none
  | cs => if isName cs then some (.word (String.ofList cs)) else (Text.readNat? cs).map .number

/-- The token of the characters that have been put by, if there are any. -/
def flush? (pending : List Char) : Option (List Token) :=
  if pending.isEmpty then some [] else (token? pending).map fun t => [t]

/-- The tokens of the rest of a filter, of whose first token some characters have been put by. -/
def tokens? (pending : List Char) : List Char → Option (List Token)
  | [] => flush? pending
  | c :: cs =>
    if isNameChar c then tokens? (pending ++ [c]) cs
    else do
      let before ← flush? pending
      if c == '.' then return before ++ (← tokens? ['.'] cs)
      else if Text.isBlank c then return before ++ (← tokens? [] cs)
      else return before ++ .mark c :: (← tokens? [] cs)

/-- What has been read of a group: the filters before the last bar, those before the last comma
behind it, and the path behind that. -/
structure Group where
  selects : Bool := false
  piped : Option Filter := none
  listed : Option Filter := none
  path : Option Filter := none

/-- What the reader is in the middle of, if it is not between tokens of a group. -/
inductive Midst
  | between
  /-- Behind `select`. -/
  | afterSelect
  /-- Behind an opening bracket. -/
  | inBrackets
  /-- Behind a number between brackets. -/
  | afterIndex (i : Nat)

/-- The groups that are open, the innermost first and apart. -/
structure Reader where
  group : Group := {}
  outer : List Group := []
  midst : Midst := .between

namespace Group

/-- The filters of a list with the path behind the last comma. -/
def list? (g : Group) : Option Filter :=
  g.path.map fun path => (g.listed.map fun f => both f path).getD path

/-- The filter of a group that ends here. -/
def result? (g : Group) : Option Filter :=
  g.list?.map fun list => (g.piped.map fun f => pipe f list).getD list

/-- Begin a path, which must not follow another. -/
def start? (g : Group) (f : Filter) : Option Group :=
  match g.path with
  | none => some { g with path := some f }
  | some _ => none

/-- Go on with the path. -/
def extend? (g : Group) (f : Filter) : Option Group :=
  g.path.map fun path => { g with path := some (pipe path f) }

end Group

namespace Reader

/-- The reader with its innermost group changed, between tokens. -/
def within (r : Reader) (g : Option Group) : Option Reader :=
  g.map fun group => { r with group, midst := .between }

/-- Open a group. -/
def enter (r : Reader) (selects : Bool) : Option Reader :=
  match r.group.path with
  | none => some ⟨{ selects }, r.group :: r.outer, .between⟩
  | some _ => none

/-- Close the innermost group. -/
def leave? (r : Reader) : Option Reader := do
  let inner ← r.group.result?
  match r.outer with
  | [] => none
  | g :: outer =>
    return ⟨← g.start? (if r.group.selects then select inner else inner), outer, .between⟩

/-- Read a token that stands by itself. -/
def stepBetween (r : Reader) : Token → Option Reader
  | .dot => r.within (r.group.start? self)
  | .member name =>
    r.within ((r.group.extend? (member name)).or (r.group.start? (member name)))
  | .word name =>
    if name == "select" && r.group.path.isNone then some { r with midst := .afterSelect } else none
  | .number _ => none
  | .mark c =>
    if c == '[' then
      if r.group.path.isSome then some { r with midst := .inBrackets } else none
    else if c == '(' then r.enter false
    else if c == ')' then r.leave?
    else if c == ',' then
      r.within (r.group.list?.map fun f => { r.group with listed := some f, path := none })
    else if c == '|' then
      r.within (r.group.result?.map fun f => { selects := r.group.selects, piped := some f })
    else none

/-- Read one token. -/
def step (r : Reader) (t : Token) : Option Reader :=
  match r.midst, t with
  | .between, t => r.stepBetween t
  | .afterSelect, .mark '(' => r.enter true
  | .inBrackets, .mark ']' => r.within (r.group.extend? each)
  | .inBrackets, .number i => some { r with midst := .afterIndex i }
  | .afterIndex i, .mark ']' => r.within (r.group.extend? (item i))
  | _, _ => none

/-- The filter of a reader at the end of the text. -/
def finish? (r : Reader) : Option Filter :=
  match r.midst, r.outer with
  | .between, [] => r.group.result?
  | _, _ => none

end Reader

/-- The filter that a text writes. -/
def ofText? (text : String) : Option Filter := do
  let reader ← (← tokens? [] text.toList).foldlM Reader.step {}
  reader.finish?

end TypeSketch.Filter
