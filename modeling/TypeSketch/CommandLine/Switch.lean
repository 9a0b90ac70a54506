/-!
# Switches

A switch is given by its name behind two dashes or by its letter behind one, where letters without
values may share a dash. A value stands in the next word, behind an equals sign, or right behind the
letter. A switch that takes many values takes every word up to the next dash, if the first one is a
word of its own. Two dashes alone end the switches.
-/

namespace TypeSketch.CommandLine

/-- What is wrong with the words of a command line. -/
inductive UsageError
  /-- There is neither a command nor a switch. -/
  | nothingGiven
  /-- Help is asked for. -/
  | helpWanted
  | missingCommand
  | unknownCommand (name : String)
  | unknownArgument (word : String)
  | missingArgument (name : String)
  | badValue (name : String)
  /-- The switch is given twice, or with another that excludes it. -/
  | conflict (name : String)
  | surplusValue (name : String)

/-- How many values a switch takes. -/
inductive Arity
  | none
  | one
  | many
deriving DecidableEq

/-- A switch. One that takes a `filled` value takes no empty text. -/
structure Switch where
  name : String
  letter? : Option Char := none
  arity : Arity := .none
  filled : Bool := false

/-- The switches given so far with their values, and the last one while it waits for words. -/
structure Given where
  values : List (String × List String) := []
  waiting : Option (Switch × List String) := none

namespace Given

/-- The switch is given. -/
def has (g : Given) (name : String) : Bool := (g.values.lookup name).isSome

/-- The only value of a switch. -/
def value? (g : Given) (name : String) : Option String := (g.values.lookup name).bind List.head?

/-- All values of a switch, however often it is given. -/
def all (g : Given) (name : String) : List String :=
  (g.values.filter (·.1 == name)).flatMap (·.2)

/-- The number of values is right. -/
def countFits (s : Switch) (values : List String) : Bool := s.arity = .none || !values.isEmpty

/-- Add a switch with its values. -/
def add (g : Given) (s : Switch) (values : List String) : Except UsageError Given :=
  if !countFits s values then throw (.badValue s.name)
  else if g.has s.name && s.arity ≠ .many then throw (.conflict s.name)
  else if s.filled && values.contains "" then throw (.badValue s.name)
  else return { g with values := g.values ++ [(s.name, values)] }

/-- Add the switch that waits for words, which comes to an end. -/
def settle (g : Given) : Except UsageError Given :=
  match g.waiting with
  | some (s, values) => { g with waiting := none }.add s values
  | none => return g

/-- Settle, and add another switch. -/
def give (g : Given) (s : Switch) (values : List String) : Except UsageError Given := do
  (← g.settle).add s values

/-- Settle, and let another switch wait for words. -/
def await (g : Given) (s : Switch) : Except UsageError Given := do
  return { ← g.settle with waiting := some (s, []) }

/-- The switch that waits takes a word, if it can. -/
def take? (g : Given) (word : String) : Option Given :=
  match g.waiting with
  | some (s, values) =>
    if s.arity = .many || values.isEmpty then
      some { g with waiting := some (s, values ++ [word]) }
    else none
  | none => none

end Given

/-- The switch that asks for help. -/
def help : Switch := { name := "help", letter? := some 'h' }

/-- A switch without a value. -/
def giveFlag (g : Given) (s : Switch) : Except UsageError Given := do
  let g ← g.give s []
  if s.name == help.name then throw .helpWanted else return g

/-- Read a name, which may have an equals sign and a value behind it. -/
def readName (switches : List Switch) (g : Given) (cs : List Char) : Except UsageError Given :=
  let name := String.ofList (cs.takeWhile (· != '='))
  let value? := (cs.dropWhile (· != '=')).tail?
  match switches.find? (·.name == name), value? with
  | none, _ => throw (.unknownArgument name)
  | some s, none => if s.arity = .none then giveFlag g s else g.await s
  | some s, some value =>
    if s.arity = .none then throw (.surplusValue name) else g.give s [String.ofList value]

/-- Read letters, the last of which may have a value behind it. -/
def readLetters (switches : List Switch) (g : Given) : List Char → Except UsageError Given
  | [] => return g
  | c :: cs =>
    match switches.find? (·.letter? == some c) with
    | none => throw (.unknownArgument (String.ofList [c]))
    | some s =>
      if s.arity = .none then do readLetters switches (← giveFlag g s) cs
      else
        match cs with
        | [] => g.await s
        | '=' :: value => g.give s [String.ofList value]
        | value => g.give s [String.ofList value]

/-- Where the switches end: at a word that none of them takes, which may stand behind two dashes. -/
structure Rest where
  given : Given
  words : List String
  behindDashes : Bool

/-- Read switches as far as they go. -/
def readSwitches (switches : List Switch) (g : Given) : List String → Except UsageError Rest
  | [] => return ⟨← g.settle, [], false⟩
  | word :: words => do
    match word.toList with
    | ['-', '-'] => if words.isEmpty then return ⟨← g.settle, [], true⟩ else return ⟨g, words, true⟩
    | '-' :: '-' :: name => readSwitches switches (← readName switches g name) words
    | '-' :: c :: cs => readSwitches switches (← readLetters switches g (c :: cs)) words
    | _ =>
      match g.take? word with
      | some g => readSwitches switches g words
      | none => return ⟨g, word :: words, false⟩

end TypeSketch.CommandLine
