import TypeSketch.Program.Node

/-!
# Walks over programs

A node with everything below it is a tree, and a walk visits it from the top, children in order. A
walk that changes nodes looks for children only after the visit, and passes by what is frozen.
-/

namespace TypeSketch

/-- A node and the trees of its children. -/
inductive Tree
  | mk (node : Node) (children : List Tree)
deriving Inhabited

namespace Tree

mutual

/-- The trees of the nodes that a value is or lists. -/
def ofValue : Value → List Tree
  | .node id r => [mk ⟨r, id⟩ (ofRecord r)]
  | .list items => ofItems items
  | _ => []

/-- The trees of the nodes in a record. -/
def ofRecord : Record Value → List Tree
  | ⟨declared, extra, _⟩ => ofEntries declared ++ ofEntries extra

/-- The trees of the nodes in entries. -/
def ofEntries : List (String × Value) → List Tree
  | [] => []
  | (_, v) :: rest => ofValue v ++ ofEntries rest

/-- The trees of the nodes among items. -/
def ofItems : List Value → List Tree
  | [] => []
  | .node id r :: rest => mk ⟨r, id⟩ (ofRecord r) :: ofItems rest
  | _ :: rest => ofItems rest

end

mutual

/-- The nodes of a tree from the top, without what is below the nodes that `skip` holds of. -/
def visits (skip : Node → Bool) : Tree → List Node
  | mk n ts => n :: if skip n then [] else visitsAll skip ts

/-- The nodes of trees, one tree after the other. -/
def visitsAll (skip : Node → Bool) : List Tree → List Node
  | [] => []
  | t :: ts => visits skip t ++ visitsAll skip ts

end

end Tree

namespace Node

/-- The tree of a node. -/
def tree (n : Node) : Tree := .mk n (Tree.ofRecord n.toRecord)

/-- How deep records are nested in a node. -/
def depth (n : Node) : Nat := Value.recordDepth n.toRecord

/-- The value with the nodes that it is or lists changed by `f`. -/
def editChildren {m : Type → Type} [Monad m] (f : Node → m Node) : Value → m Value
  | .node id r => return (← f ⟨r, id⟩).toValue
  | .list items => return .list (← items.mapM fun
    | .node id r => return (← f ⟨r, id⟩).toValue
    | v => return v)
  | v => return v

/-- Walk `n`, changing what is visited. The walk goes down `fuel` nodes. -/
def editWithin {m : Type → Type} [Monad m] (visit : Node → m Node) : Nat → Node → m Node
  | 0, n => return n
  | fuel + 1, n => do
    if n.frozen then return n
    else
      let n ← visit n
      if n.frozen then return n
      else return { n with toRecord := ← n.mapValues (editChildren (editWithin visit fuel)) }

/-- Walk `n`, changing what is visited. -/
def edit {m : Type → Type} [Monad m] (visit : Node → m Node) (n : Node) : m Node :=
  editWithin visit (n.depth + 1) n

end Node

end TypeSketch
