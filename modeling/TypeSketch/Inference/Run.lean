import TypeSketch.Inference.Rules
import TypeSketch.Inference.Solver

/-!
# Inferring the shapes of a program

The rules state facts about every node in its scope, the solver finds the shapes that follow, and
the shapes go back onto the nodes that asked for them. Paths that nothing determines stay without a
shape.
-/

namespace TypeSketch

/-- What a run did. -/
structure Report where
  passes : Nat
  resolved : Nat
  pending : Nat
  writtenBack : Nat

namespace Inference

/-- Only whole programs are inferred. -/
def accepts (root : Node) : Bool := root.flag Attr.program

/-- The facts of the rules about one node. -/
def factsOf (rules : List Rule) (env : Scopes) (n : Node) (scope : Scope) :
    Except Error (List (Rule × Facts)) :=
  (rules.filter (·.accepts n)).mapM fun rule => return (rule, ← rule.facts env scope n)

/-- The board of a program: the facts about every node, in the order of a walk. -/
def boardOf (rules : List Rule) (root : Node) : Except Error Board :=
  let env := Scopes.ofNode root
  (env.visits (fun _ => false) {} root.tree).foldlM (fun b (n, scope) =>
    return (← factsOf rules env n scope).foldl (fun b (_, facts) => b.merge facts) b) {}

/-- Infer the shapes of a program by some rules. -/
def run (rules : List Rule) (root : Node) : Except Error (Node × Report) := do
  let (b, passes) := (← boardOf rules root).infer
  let passes ← passes
  let (root, written) := b.writeBack root
  return (root, {
    passes
    resolved := b.known.length
    pending := Board.pending b.relations
    writtenBack := ← written })

/-- Infer the shapes of a program in place: what becomes of the program, and what the run did. The
program is not touched before all shapes are found. -/
def infer (rules : List Rule) (root : Node) : Node × Except Error Report :=
  match boardOf rules root with
  | .error e => (root, .error e)
  | .ok b =>
    let (b, passes) := b.infer
    match passes with
    | .error e => (root, .error e)
    | .ok passes =>
      let (root, written) := b.writeBack root
      (root, written.map fun written => {
        passes
        resolved := b.known.length
        pending := Board.pending b.relations
        writtenBack := written })

end Inference

end TypeSketch
