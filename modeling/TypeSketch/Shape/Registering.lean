import TypeSketch.Shape.Registry

/-!
# Registering in place

A registry in one place is changed step by step: a registration looks at the registry, writes it, or
fails, and what has been written stays. A course of registrations goes on after one that failed,
with the registry that it left.
-/

namespace TypeSketch

namespace Registry

/-- Steps that change the registry in one place. -/
abbrev Update := ExceptT Error (StateM Registry)

namespace Update

/-- What comes of the steps, and what becomes of the registry. -/
def outcome {α : Type} (update : Update α) (registry : Registry) : Except Error α × Registry :=
  ExceptT.run update registry

/-- Go on if something holds, else fail. -/
def ensure (holds : Bool) (err : Error) : Update Unit := if holds then pure () else throw err

/-- Register a frozen shape under its name. -/
def insertShape (s : Shape) : Update Unit := do
  ensure s.frozen (.notFrozen s.name)
  match (← get).shapes.lookup s.name with
  | none => modify fun registry => { registry with shapes := registry.shapes ++ [(s.name, s)] }
  | some t => ensure (t.same s) (.alreadyExists s.name)

/-- Register a trait under its key. -/
def insertTrait (f : Field) : Update Unit := do
  match (← get).traits.lookup f.key with
  | none => modify fun registry => { registry with traits := registry.traits ++ [(f.key, f)] }
  | some g => ensure (g.same f) (.traitAlreadyExists f.key)

/-- Add a detector after the others. -/
def addDetector (detector : String → Option Shape) : Update Unit :=
  modify fun registry => { registry with detectors := registry.detectors ++ [detector] }

end Update

/-- Something to register. -/
inductive Registration
  | shape (s : Shape)
  | trait (f : Field)
  | detector (detect : String → Option Shape)

/-- The steps of a registration in place. -/
def Registration.update : Registration → Update Unit
  | shape s => .insertShape s
  | trait f => .insertTrait f
  | detector detect => .addDetector detect

/-- The registry that a registration makes of another. -/
def Registration.apply (registry : Registry) : Registration → Except Error Registry
  | shape s => registry.insertShape s
  | trait f => registry.insertTrait f
  | detector detect => .ok (registry.addDetector detect)

/-- The registry after some registrations in place, whatever came of each. -/
def after (registry : Registry) (calls : List Registration) : Registry :=
  calls.foldl (fun registry call => (call.update.outcome registry).2) registry

end Registry

end TypeSketch
