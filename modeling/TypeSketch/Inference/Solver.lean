import TypeSketch.Inference.Board
import TypeSketch.Shape.Build
import TypeSketch.Tour

/-!
# Solving relations

A pass tries every relation that is not unified yet, in order, and a relation that determines a
shape or finds its paths agree is unified for good. Passes repeat while they unify something, so
there are at most as many as there were relations to unify, and one.
-/

namespace TypeSketch

namespace Relation

/-- One side determines the other, and two known sides must agree. -/
def unifyEqual (left right : String) (known : Known) : Except Error (Bool × Known) :=
  match known.lookup left, known.lookup right with
  | some s, none => .ok (true, Assoc.put right s.freeze known)
  | none, some s => .ok (true, Assoc.put left s.freeze known)
  | some s, some t =>
    if s.same t then .ok (true, known) else .error (.conflict left s.text right t.text)
  | none, none => .ok (false, known)

/-- The shape of any sequence. -/
def anyVector : Shape := Shape.vector .allValue

/-- An object of unknown shape is a sequence, and a length is a whole number. -/
def unifyLength (object member : String) (known : Known) : Bool × Known :=
  let (a, known) :=
    if Assoc.has object known then (false, known)
    else (true, Assoc.put object anyVector.freeze known)
  let (b, known) :=
    if Assoc.has member known then (false, known)
    else (true, Assoc.put member Shape.i64.freeze known)
  (a || b, known)

/-- The shape of what a container holds, if it says more than that it can be anything. -/
def elementOf? (container : Shape) : Option Shape :=
  let element? :=
    if container.flag Trait.vector then container.generics[0]?
    else if container.flag Trait.object || container.flag Trait.map then container.generics[1]?
    else none
  element?.filter fun element => !element.flag Trait.allValue

/-- The shapes of an object and a key as far as one says something of the other: sequences have
whole numbers as keys, and objects have texts. -/
def unifyKey (object key : String) (known : Known) : Bool × Known :=
  match known.lookup object, known.lookup key with
  | none, some k =>
    if k.flag Trait.integer then (true, Assoc.put object anyVector.freeze known)
    else if k.flag Trait.string then (true, Assoc.put object Shape.object.copy.freeze known)
    else (false, known)
  | some o, none =>
    if o.flag Trait.vector then (true, Assoc.put key Shape.i64.freeze known)
    else if o.flag Trait.object || o.flag Trait.map then
      (true, Assoc.put key Shape.string.freeze known)
    else (false, known)
  | _, _ => (false, known)

/-- What is known of the object says what the key is, or the other way round, and what the member
is. -/
def unifyMember (object key member : String) (known : Known) : Bool × Known :=
  let (a, known) := unifyKey object key known
  if Assoc.has member known then (a, known)
  else
    match (known.lookup object).bind elementOf? with
    | some element => (true, Assoc.put member element.freeze known)
    | none => (a, known)

/-- Try a relation. -/
def unify (r : Relation) (known : Known) : Except Error (Bool × Known) :=
  let objectAndMember (f : String → String → Bool × Known) : Except Error (Bool × Known) :=
    match r.member? "obj", r.member? "member_expr" with
    | some object, some member => .ok (f object member)
    | _, _ => .error (.memberExpression r.text)
  if r.name == equalsTo then
    match r.member? "n1", r.member? "n2" with
    | some left, some right => unifyEqual left right known
    | _, _ => .error (.noUnifier r.text)
  else
    match r.unifier with
    | some .length => objectAndMember fun object member => unifyLength object member known
    | some .member =>
      objectAndMember fun object member =>
        unifyMember object ((r.member? "prop").getD "") member known
    | some (.custom f) => f r.members known
    | none => .error (.noUnifier r.name)

end Relation

namespace Board

/-- Try every relation that is not unified, in order, until one fails. -/
def pass : List Relation → Known → List Relation × Known × Option Error
  | [], known => ([], known, none)
  | r :: rest, known =>
    if r.unified then
      let (rest, known, error) := pass rest known
      (r :: rest, known, error)
    else
      match r.unify known with
      | .error e => (r :: rest, known, some e)
      | .ok (unified, known) =>
        let (rest, known, error) := pass rest known
        ({ r with unified } :: rest, known, error)

/-- Passes as long as they unify something: the relations and the shapes known at the end, and how
many passes there were. -/
def solve (passes : Nat) (relations : List Relation) (known : Known) :
    List Relation × Known × Except Error Nat :=
  let next := pass relations known
  match next.2.2 with
  | some e => (next.1, next.2.1, .error e)
  | none =>
    if pending next.1 < pending relations then solve (passes + 1) next.1 next.2.1
    else (next.1, next.2.1, .ok (passes + 1))
termination_by pending relations

/-- Solve the relations of a board. What was found out before a failure stays. -/
def infer (b : Board) : Board × Except Error Nat :=
  let (relations, known, passes) := solve 0 b.relations b.known
  ({ b with relations, known }, passes)

/-! ### Writing back -/

/-- Put shapes onto a node until one does not go there, and count those that did. -/
def assign (n : Node) (count : Nat) : List (Callback × Shape) → Node × Nat × Option Error
  | [] => (n, count, none)
  | (callback, s) :: rest =>
    match n.replace (callback.field.entry s.toValue) with
    | .ok n => assign n (count + 1) rest
    | .error e => (n, count, some e)

/-- Put the shapes of the board onto every node of a program that a call-back names. The nodes
written before a failure stay written. -/
def writeBack (b : Board) (root : Node) : Node × Except Error Nat :=
  let due := b.assignments
  let visit (n : Node) (count : Nat) : Node × Nat × Option Error :=
    assign n count (due.filter fun (callback, _) => callback.node == n.id)
  let (root, tour) := (root.edit (Tour.visit visit)).run ⟨0, none⟩
  (root, match tour.stopped with
    | some e => .error e
    | none => .ok tour.state)

end Board

end TypeSketch
