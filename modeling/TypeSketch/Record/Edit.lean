import TypeSketch.Error
import TypeSketch.Record.Field

/-!
# Changing records

Every change of a record goes through one of four operations. `append` adds to a list or fills an
absent key, `replace` overwrites, `remove` clears an extra key, and `put` overwrites while a record
is built. A change that fails leaves no trace, a frozen record takes none, and no change touches
another key.
-/

namespace TypeSketch.Record

/-- A record with declared fields only. Their kinds are not looked at. -/
def ofDeclared (entries : List Entry) : Record Value :=
  { declared := Assoc.ofList (entries.map fun e => (e.key, e.value)) }

/-- The record may change, and the entry is of its kind. -/
def check (r : Record Value) (e : Entry) : Except Error Unit :=
  if r.frozen then throw (.frozen e.key)
  else if e.kind.admits e.value then return ()
  else throw (.kindMismatch e.key e.kind e.value.kind)

/-- Add to the list under a key, or fill the key if it is absent. -/
def append (r : Record Value) (e : Entry) : Except Error (Record Value) := do
  r.check e
  match r.get? e.key with
  | some (.list items) => return r.set e.key (.list (items ++ e.value.elements))
  | some _ => throw (.notSequence e.key)
  | none => return r.set e.key e.stored

/-- Overwrite the value under a key. -/
def replace (r : Record Value) (e : Entry) : Except Error (Record Value) := do
  r.check e
  return r.set e.key e.stored

/-- Clear an extra key; an absent one is cleared already. -/
def remove (r : Record Value) (f : Field) : Except Error (Record Value) :=
  if r.frozen then throw (.frozen f.key)
  else if Assoc.has f.key r.declared then throw (.removeDeclared f.key)
  else return { r with extra := Assoc.erase f.key r.extra }

/-- Overwrite the value under a key of a record under construction. -/
def put (r : Record Value) (e : Entry) : Except Error (Record Value) :=
  if r.frozen || !e.kind.admits e.value then throw (.misuse e.key) else return r.set e.key e.stored

/-- Put entries one after the other. -/
def putAll (r : Record Value) (entries : List Entry) : Except Error (Record Value) :=
  entries.foldlM put r

end TypeSketch.Record
