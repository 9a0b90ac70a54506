import TypeSketch.Record.Edit

/-!
# Changing a record in place

A record in one place is changed step by step: a step looks at the record, writes it, or fails, and
what earlier steps have written stays when a later one fails. A course of changes goes on after a
change that failed, with the record that it left.
-/

namespace TypeSketch

/-- Steps that change the record in one place. -/
abbrev Edit := ExceptT Error (StateM (Record Value))

namespace Edit

/-- What comes of the steps, and what becomes of the record. -/
def outcome {α : Type} (edit : Edit α) (r : Record Value) : Except Error α × Record Value :=
  ExceptT.run edit r

/-- Fail unless something holds. -/
def ensure (holds : Bool) (err : Error) : Edit Unit := if holds then return () else throw err

/-- The record must not be frozen. -/
def ensureOpen (key : String) : Edit Unit := do
  ensure (!(← get).frozen) (.frozen key)

/-- The record must not be frozen, and the value be of the kind of its key. -/
def check (e : Entry) : Edit Unit := do
  ensureOpen e.key
  ensure (e.kind.admits e.value) (.kindMismatch e.key e.kind e.value.kind)

/-- Write a value under a key. -/
def write (key : String) (v : Value) : Edit Unit := modify (·.set key v)

/-- Add to the list under a key, or fill the key if it is absent. -/
def append (e : Entry) : Edit Unit := do
  check e
  match (← get).get? e.key with
  | some (.list items) => write e.key (.list (items ++ e.value.elements))
  | some _ => throw (.notSequence e.key)
  | none => write e.key e.stored

/-- Overwrite the value under a key. -/
def replace (e : Entry) : Edit Unit := do
  check e
  write e.key e.stored

/-- Clear an extra key; an absent one is cleared already. -/
def remove (f : Field) : Edit Unit := do
  ensureOpen f.key
  ensure (!Assoc.has f.key (← get).declared) (.removeDeclared f.key)
  if Assoc.has f.key (← get).extra then
    modify fun r => { r with extra := Assoc.erase f.key r.extra }

/-- Overwrite the value under a key of a record under construction. -/
def put (e : Entry) : Edit Unit := do
  ensure (!(← get).frozen) (.misuse e.key)
  ensure (e.kind.admits e.value) (.misuse e.key)
  write e.key e.stored

end Edit

/-- A change of a record. -/
inductive Change
  | append (e : Entry)
  | replace (e : Entry)
  | put (e : Entry)
  | remove (f : Field)
  | freeze
  /-- Go on with a copy. -/
  | copy

namespace Change

/-- The key that a change is about. -/
def key? : Change → Option String
  | append e | replace e | put e => some e.key
  | remove f => some f.key
  | freeze | copy => none

/-- The entry that a change brings. -/
def entry? : Change → Option Entry
  | append e | replace e | put e => some e
  | remove _ | freeze | copy => none

/-- The record that a change makes of another. -/
def apply (r : Record Value) : Change → Except Error (Record Value)
  | append e => r.append e
  | replace e => r.replace e
  | put e => r.put e
  | remove f => r.remove f
  | freeze => .ok r.freeze
  | copy => .ok r.copy

/-- The steps of a change in place. -/
def edit : Change → Edit Unit
  | append e => .append e
  | replace e => .replace e
  | put e => .put e
  | remove f => .remove f
  | freeze => modify Record.freeze
  | copy => modify Record.copy

end Change

/-- The record after some changes in place, whatever came of each. -/
def Record.after (r : Record Value) (changes : List Change) : Record Value :=
  changes.foldl (fun r c => (c.edit.outcome r).2) r

end TypeSketch
