import TypeSketch.Model.Misfit

/-!
# Forms

A form lists the members of a record, each with a way to read it. A record is written as an object,
with its members in any order, or as an array of their values in the order of the form; the last
ones may be missing there if they are not required. The first misfit in the order of the text is the
one that counts, and members that are missing come last.
-/

namespace TypeSketch

/-- A member of a record that is put together in a `σ`. -/
structure Slot (σ : Type) where
  name : String
  required : Bool
  read : Json.Outline → σ → Except Misfit σ

/-- The members of a record. A closed form has no others. -/
structure Form (σ : Type) where
  name : String
  closed : Bool
  slots : List (Slot σ)

namespace Slot

variable {σ α : Type}

/-- A member that `value` reads and `put` takes. -/
def of (name : String) (required : Bool) (value : Json.Outline → Except Misfit α)
    (put : α → σ → σ) : Slot σ :=
  ⟨name, required, fun o s => return put (← value o) s⟩

end Slot

namespace Form

variable {σ : Type}

/-- Read a member with a name, after those that have been `seen`. A member that the form does not
have is passed over, if the form is not closed. -/
def readNamed (form : Form σ) (seen : List String) (s : σ) (name : String) (o : Json.Outline) :
    Except Misfit (List String × σ) := do
  match form.slots.find? (·.name == name) with
  | some slot =>
    if seen.contains name then Misfit.here (.duplicate name)
    else return (name :: seen, ← Misfit.under (.name name) (slot.read o s))
  | none =>
    if form.closed then
      Misfit.under (.name name) (Misfit.here (.unknown name (form.slots.map (·.name))))
    else if o.isWhole then return (seen, s)
    else Misfit.under (.name name) (Misfit.here .broken)

/-- Read a member, after those that have been seen. -/
def readMember (form : Form σ) (state : List String × σ) (member : Option String × Json.Outline) :
    Except Misfit (List String × σ) :=
  match member with
  | (some name, o) => form.readNamed state.1 state.2 name o
  | (none, _) => throw (Json.Outline.Gap.misfit .name)

/-- The members are all that is required. -/
def checkRequired (form : Form σ) (seen : List String) : Except Misfit Unit :=
  match form.slots.find? fun slot => slot.required && !seen.contains slot.name with
  | some slot => Misfit.here (.missing slot.name)
  | none => return ()

/-- Where an object that breaks off does not fit: a name that the form does not know comes first. -/
def gap (form : Form σ) : Json.Gap → Misfit
  | .colon name =>
    if form.closed && !(form.slots.map (·.name)).contains name then
      ⟨[.name name], .unknown name (form.slots.map (·.name))⟩
    else ⟨[], .broken⟩
  | .name => ⟨[.unknown], .broken⟩

/-- Read values in the order of the members, the first of which is the `i`-th. -/
def readValues (form : Form σ) (i : Nat) : List (Slot σ) → List Json.Outline → σ → Except Misfit σ
  | slot :: slots, o :: os, s => do
    readValues form (i + 1) slots os (← Misfit.under (.index i) (slot.read o s))
  | slot :: slots, [], s =>
    if slot.required then Misfit.here (.tooShort i form.name form.slots.length)
    else readValues form (i + 1) slots [] s
  | [], os, s => if os.isEmpty then return s else Misfit.here (.tooLong (i + os.length))

/-- Read a record, whose members stand in `start` for those that are not written. -/
def read (form : Form σ) (start : σ) : Json.Outline → Except Misfit σ
  | .obj members cut => do
    let (seen, s) ← members.foldlM form.readMember ([], start)
    match cut with
    | some gap => throw (form.gap gap)
    | none =>
      form.checkRequired seen
      return s
  | .arr items cut => do
    let s ← form.readValues 0 form.slots items start
    if cut then Misfit.here .broken else return s
  | o => o.reject ("struct " ++ form.name)

end Form

end TypeSketch
