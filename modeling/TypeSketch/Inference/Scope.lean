import TypeSketch.Program.Walk
import TypeSketch.Text.Lines

/-!
# Scopes

A program declares classes, functions, arguments and variables. Every node has a path: the names of
the class and the function around it and a name of its own, joined with dots. An identifier takes
the path of the declaration it resolves to, and a node without a name is told apart by its kind and
number.
-/

namespace TypeSketch

/-- A node and the path it is known by. -/
structure Site where
  path : String
  node : Nat

/-- A function, with its class if it is declared inside one. -/
structure FunctionScope where
  name : String
  node : Nat
  class? : Option Nat
  arguments : List (String × Site) := []
  locals : List (String × Site) := []

/-- A class, with the members assigned through `this` and the functions declared inside it. -/
structure ClassScope where
  name : String
  node : Nat
  properties : List String := []
  functions : List Nat := []

/-- The class and the function around a node, as places in the list of all. -/
structure Scope where
  class? : Option Nat := none
  function? : Option Nat := none

/-- Every declaration of a program, in the order in which a walk meets them. -/
structure Scopes where
  classes : List ClassScope := []
  functions : List FunctionScope := []
  globals : List (String × Site) := []

namespace Scopes

/-- The names of the class and the function of a scope. -/
def names (env : Scopes) (scope : Scope) : List String :=
  ((scope.class?.bind fun c => env.classes[c]?).map (·.name)).toList ++
    ((scope.function?.bind fun f => env.functions[f]?).map (·.name)).toList

/-- The class that a name means in a scope; `this` and `self` mean the class around it. -/
def findClass? (env : Scopes) (scope : Scope) (name : String) : Option ClassScope :=
  if name == "this" || name == "self" then scope.class?.bind fun c => env.classes[c]?
  else env.classes.find? (·.name == name)

/-- The declaration that an identifier resolves to: a variable of the function, then an argument of
it, then a variable outside all functions. -/
def declaration? (env : Scopes) (n : Node) (scope : Scope) : Option Site := do
  let name ← n.str? Attr.identifier
  let inFunction? : Option Site := do
    let f ← env.functions[← scope.function?]?
    (f.locals.lookup name).or (f.arguments.lookup name)
  inFunction?.or (env.globals.lookup name)

/-- The last name of a node's path. -/
def ownName (n : Node) : String :=
  match n.str? Attr.identifier with
  | some name => name
  | none =>
    match n.str? Attr.variableDeclarationId with
    | some name => name
    | none =>
      match n.str? Attr.argumentName with
      | some name => name
      | none => n.kind ++ "@" ++ toString n.id

/-- The path of a node by the names around it; that of `this` is the class. -/
def globalPath (env : Scopes) (n : Node) (scope : Scope) : String :=
  let inside := Text.joinWith "." (env.names scope ++ [ownName n])
  if n.flag Attr.thisExpression then
    match scope.class? with
    | some c => ((env.classes[c]?).map (·.name)).getD ""
    | none => inside
  else inside

/-- The path that a node is known by, with the node that it belongs to. -/
def site (env : Scopes) (n : Node) (scope : Scope) : Site :=
  let own : Site := ⟨env.globalPath n scope, n.id⟩
  if n.has Attr.identifier then (env.declaration? n scope).getD own else own

/-! ### Recording declarations -/

/-- The member of `this` that a node assigns to. -/
def assignedProperty? (n : Node) : Option String := do
  let left ← n.node? Attr.assignExpressionLeft
  let object ← left.node? Attr.memberExpressionObject
  if object.flag Attr.thisExpression then
    let property ← left.node? Attr.memberExpressionProperty
    property.str? Attr.identifier
  else none

/-- Record an argument of a function. -/
def declareArgument (f : Nat) (inner : Scope) (env : Scopes) (argument : Node) : Scopes :=
  match argument.str? Attr.argumentName with
  | some name =>
    let site := env.site argument inner
    { env with functions := env.functions.modify f fun s =>
        { s with arguments := s.arguments ++ [(name, site)] } }
  | none => env

/-- Record what a node declares. The result has the scope inside the node too. -/
def declareNode (n : Node) (scope : Scope) (env : Scopes) : Scope × Scopes :=
  if n.flag Attr.classDeclaration then
    (⟨some env.classes.length, none⟩,
      { env with classes := env.classes ++ [⟨(n.str? Attr.name).getD "", n.id, [], []⟩] })
  else if n.flag Attr.functionDecl then
    let f := env.functions.length
    let inner : Scope := ⟨scope.class?, some f⟩
    let functions := env.functions ++ [⟨(n.str? Attr.name).getD "", n.id, scope.class?, [], []⟩]
    let classes :=
      match scope.class? with
      | some c => env.classes.modify c fun s => { s with functions := s.functions ++ [f] }
      | none => env.classes
    (inner,
      (n.nodes Attr.arguments).foldl (declareArgument f inner) { env with functions, classes })
  else if n.flag Attr.variableDeclaration then
    let entry := ((n.str? Attr.variableDeclarationId).getD "", env.site n scope)
    match scope.function? with
    | some f =>
      (scope, { env with functions := env.functions.modify f fun s =>
        { s with locals := s.locals ++ [entry] } })
    | none => (scope, { env with globals := env.globals ++ [entry] })
  else
    match scope.class?, assignedProperty? n with
    | some c, some name =>
      (scope, { env with classes := env.classes.modify c fun s =>
        if s.properties.contains name then s else { s with properties := s.properties ++ [name] } })
    | _, _ => (scope, env)

mutual

/-- Record what a tree declares. -/
def declareTree (scope : Scope) : Tree → Scopes → Scopes
  | .mk n ts, env =>
    let (inner, env) := declareNode n scope env
    declareTrees inner ts env

/-- Record what trees declare, one tree after the other. -/
def declareTrees (scope : Scope) : List Tree → Scopes → Scopes
  | [], env => env
  | t :: ts, env => declareTrees scope ts (declareTree scope t env)

end

/-- The declarations of a program. -/
def ofNode (root : Node) : Scopes := declareTree {} root.tree {}

/-! ### Walking in scope -/

/-- The scope inside a node, from the one around it. -/
def enter (env : Scopes) (n : Node) (scope : Scope) : Scope :=
  if n.flag Attr.classDeclaration then
    ⟨(env.classes.findIdx? (·.node == n.id)).or scope.class?, none⟩
  else if n.flag Attr.functionDecl then
    ⟨scope.class?, (env.functions.findIdx? (·.node == n.id)).or scope.function?⟩
  else scope

mutual

/-- The nodes of a tree from the top, each in its scope, without what is below the nodes that `skip`
holds of. A class or a function is in its own scope. -/
def visits (env : Scopes) (skip : Node → Bool) (scope : Scope) : Tree → List (Node × Scope)
  | .mk n ts =>
    let inner := env.enter n scope
    (n, inner) :: if skip n then [] else visitsAll env skip inner ts

/-- The nodes of trees, one tree after the other. -/
def visitsAll (env : Scopes) (skip : Node → Bool) (scope : Scope) : List Tree → List (Node × Scope)
  | [] => []
  | t :: ts => visits env skip scope t ++ visitsAll env skip scope ts

end

end Scopes

end TypeSketch
