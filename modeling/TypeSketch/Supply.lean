import TypeSketch.Error

/-!
# Fresh numbers

Shapes without a name and nodes are numbered as they are made. A draft is a computation that takes
such numbers and may fail; the numbers it took stay taken when it fails.
-/

namespace TypeSketch

/-- The next number of an unnamed shape and of a node. -/
structure Supply where
  shapes : Nat := 0
  nodes : Nat := 0

/-- A computation that takes fresh numbers and may fail. -/
abbrev Draft := ExceptT Error (StateM Supply)

namespace Draft

/-- The number of the next unnamed shape. -/
def shapeNumber : Draft Nat :=
  modifyGet fun supply => (supply.shapes, { supply with shapes := supply.shapes + 1 })

/-- The number of the next node. -/
def nodeNumber : Draft Nat :=
  modifyGet fun supply => (supply.nodes, { supply with nodes := supply.nodes + 1 })

/-- A result that takes no numbers. -/
def ofExcept {α : Type} (x : Except Error α) : Draft α := ExceptT.mk (pure x)

/-- The outcome of a draft, with the numbers that are left. -/
def outcome {α : Type} (draft : Draft α) (supply : Supply) : Except Error α × Supply :=
  ExceptT.run draft supply

end Draft

end TypeSketch
