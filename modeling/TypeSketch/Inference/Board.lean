import TypeSketch.Inference.Scope

/-!
# The board

What is known of the paths of a program while shapes are inferred: the shapes of some paths,
relations between paths, and call-backs that put the shape of a path onto a node.
-/

namespace TypeSketch

/-- Shapes by path. -/
abbrev Known := List (String × Shape)

/-- A node and the field that the shape of a path goes to. -/
structure Callback where
  node : Nat
  field : Field

/-- How the members of a relation determine each other. A unifier says whether the relation is
settled, and gives the shapes known after it. -/
inductive Unifier
  /-- An object, and its length. -/
  | length
  /-- An object, the key of a member, and the member. -/
  | member
  | custom (unify : List (String × String) → Known → Except Error (Bool × Known))

/-- A named relation between paths. It is tried until it is unified. -/
structure Relation where
  name : String
  members : List (String × String)
  unifier : Option Unifier := none
  unified : Bool := false

namespace Relation

/-- The name of the relation between paths of one shape. -/
def equalsTo : String := "equals_to"

/-- Both paths have one shape. -/
def equal (left right : String) : Relation := ⟨equalsTo, [("n1", left), ("n2", right)], none, false⟩

/-- The path of a member. -/
def member? (r : Relation) (key : String) : Option String := r.members.lookup key

/-- The text of a relation in messages. -/
def text (r : Relation) : String :=
  let member := fun (key, path) => Text.quoted key ++ ": " ++ Text.quoted path
  "NodeGroup \x7b name: " ++ Text.quoted r.name ++ ", members: \x7b" ++
    Text.joinWith ", " (r.members.map member) ++ "\x7d, unified: " ++
    (if r.unified then "true" else "false") ++ " \x7d"

end Relation

/-- What one rule has to say of one node. -/
structure Facts where
  nodes : List (String × Nat) := []
  callbacks : List (String × List Callback) := []
  known : Known := []
  relations : List Relation := []

namespace Facts

/-- The path has a node. -/
def addNode (facts : Facts) (site : Site) : Facts :=
  { facts with nodes := Assoc.put site.path site.node facts.nodes }

/-- A relation between paths. -/
def relate (facts : Facts) (r : Relation) : Facts :=
  { facts with relations := facts.relations ++ [r] }

/-- Two sites have one shape. -/
def equate (facts : Facts) (left right : Site) : Facts :=
  ((facts.addNode left).addNode right).relate (.equal left.path right.path)

/-- A shape without the sample it came from. -/
def withoutSample (s : Shape) : Except Error Shape := do
  (← s.copy.remove Trait.rawValue).remove Trait.fromJson

/-- The shape of a path is known. Where it came from is dropped, so that shapes of different samples
compare. -/
def know (facts : Facts) (path : String) (s : Shape) : Except Error Facts := do
  return { facts with known := Assoc.put path (← withoutSample s).freeze facts.known }

/-- The call-backs of paths, with one more. -/
def addTo (path : String) (callback : List Callback) (callbacks : List (String × List Callback)) :
    List (String × List Callback) :=
  Assoc.put path ((callbacks.lookup path).getD [] ++ callback) callbacks

/-- The shape of a path goes to a node. -/
def callBack (facts : Facts) (path : String) (callback : Callback) : Facts :=
  { facts with callbacks := addTo path [callback] facts.callbacks }

end Facts

/-- All that is known, related and asked for. -/
structure Board where
  known : Known := []
  callbacks : List (String × List Callback) := []
  nodes : List (String × Nat) := []
  relations : List Relation := []

namespace Board

/-- The board with facts added to it. A shape known before gives way. -/
def merge (b : Board) (facts : Facts) : Board where
  known := Assoc.putAll facts.known b.known
  callbacks := facts.callbacks.foldl (fun cs (path, more) => Facts.addTo path more cs) b.callbacks
  nodes := Assoc.putAll facts.nodes b.nodes
  relations := b.relations ++ facts.relations

/-- The board with the shape of a path, which is frozen: every node that gets it shares it. -/
def learn (b : Board) (path : String) (s : Shape) : Board :=
  { b with known := Assoc.put path s.freeze b.known }

/-- The shape of a path. -/
def shape? (b : Board) (path : String) : Option Shape := b.known.lookup path

/-- The node of a path. -/
def node? (b : Board) (path : String) : Option Nat := b.nodes.lookup path

/-- The call-backs whose path has a shape, with it. -/
def assignments (b : Board) : List (Callback × Shape) :=
  b.callbacks.flatMap fun (path, callbacks) =>
    match b.shape? path with
    | some s => callbacks.map fun c => (c, s)
    | none => []

/-- How many relations are not unified. -/
def pending (relations : List Relation) : Nat := (relations.filter (!·.unified)).length

end Board

end TypeSketch
