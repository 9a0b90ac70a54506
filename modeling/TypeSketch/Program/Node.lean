import TypeSketch.Program.Attr
import TypeSketch.Shape.Text
import TypeSketch.Supply

/-!
# Nodes of a program

A node is a numbered record. Its kind is its one declared field and never changes; everything else
about it is an attribute, and its children are the nodes among the values of its attributes. Two
nodes are the same when their records are: the number only ties a node to one place of a program.
-/

namespace TypeSketch

/-- A numbered record. -/
structure Node extends Record Value where
  id : Nat
deriving Inhabited

/-- The node as a value. -/
def Node.toValue (n : Node) : Value := .node n.id n.toRecord

/-- The node that a value is. -/
def Value.asNode? : Value → Option Node
  | .node id r => some ⟨r, id⟩
  | _ => none

namespace Record

/-- The node under a field. -/
def node? (r : Record Value) (f : Field) : Option Node := (r.field? f).bind Value.asNode?

/-- The nodes among the items of a list field. -/
def nodes (r : Record Value) (f : Field) : List Node := (r.items f).filterMap Value.asNode?

end Record

namespace Node

/-- The kind of a node. -/
def kind (n : Node) : String := (n.str? Attr.kind).getD ""

/-- A node of a kind, with the next number. -/
def ofKind (kind : String) : Draft Node := do
  let id ← Draft.nodeNumber
  return ⟨{ declared := [(Attr.kind.key, .str kind)] }, id⟩

/-- The node with an entry of a field that takes its value. -/
def adding (n : Node) (e : Entry) : Node := { n with toRecord := n.toRecord.set e.key e.stored }

/-- The node with an entry put into it. -/
def put (n : Node) (e : Entry) : Except Error Node :=
  if e.key == Attr.kind.key then throw (.misuse e.key)
  else return { n with toRecord := ← n.toRecord.put e }

/-- A node whose kind is the key of its first attribute. -/
def ofEntry (e : Entry) : Draft Node := do
  let n ← ofKind e.key
  Draft.ofExcept (n.put e)

/-- A frozen node like `n`. -/
def freeze (n : Node) : Node := { n with toRecord := n.toRecord.freeze }

/-- A node like `n` that is not frozen, with the next number. -/
def copy (n : Node) : Draft Node := do
  let id ← Draft.nodeNumber
  return ⟨n.toRecord.copy, id⟩

/-- The kind of a node is not to be changed. -/
def checkKey (key : String) : Except Error Unit :=
  if key == Attr.kind.key then throw .immutableKind else return ()

def append (n : Node) (e : Entry) : Except Error Node := do
  checkKey e.key
  return { n with toRecord := ← n.toRecord.append e }

def replace (n : Node) (e : Entry) : Except Error Node := do
  checkKey e.key
  return { n with toRecord := ← n.toRecord.replace e }

def remove (n : Node) (f : Field) : Except Error Node := do
  checkKey f.key
  return { n with toRecord := ← n.toRecord.remove f }

end Node

/-- The nodes that a value is or lists. -/
def Value.childNodes : Value → List Node
  | .node id r => [⟨r, id⟩]
  | .list items => items.filterMap Value.asNode?
  | _ => []

/-- The children of a node, in the order of its attributes. -/
def Node.children (n : Node) : List Node := n.entries.flatMap fun (_, v) => v.childNodes

end TypeSketch
