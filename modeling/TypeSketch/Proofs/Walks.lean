import TypeSketch.Proofs.Program.Editing
import TypeSketch.Proofs.Shape.Visiting

/-!
# Walks — what they visit

A walk in scope visits what a walk visits, and a walk that changes nodes visits that but for what is
frozen and everything below it.  It may only be told what it does where its visits are mild: they go
on, leave a node open and keep the nodes below it (`Node.Mild`).  Then it is a walk that meets the
open nodes in the same order and leaves the frozen ones in place (`Node.edit_of_mild`), and for
shapes it is the same (`Shape.carries_edit`).  `walks_agree` puts the walks side by side.
-/

namespace TypeSketch

namespace Node

/-- A walk visits what the walk that changes nodes meets, and goes on below what is frozen. -/
theorem all_eq_flatMap (n : Node) :
    n.all = (n.tree.visits (·.frozen)).flatMap fun m => if m.frozen then m.all else [m] := by
  induction n using induction_on_children with
  | step n ih =>
    rw [visits_tree, List.flatMap_cons]
    cases hf : n.frozen with
    | true => rw [if_pos rfl, if_pos rfl, List.flatMap_nil, List.append_nil]
    | false =>
      rw [if_neg Bool.false_ne_true, if_neg Bool.false_ne_true, List.flatMap_assoc, all_eq]
      exact congrArg (n :: ·) (List.flatMap_congr ih)

section

variable {σ : Type} {visit : Node → σ → Node × σ × Option Error} {n n' : Node}

/-- A visit that is never stopped, leaves a node open, and keeps the nodes below it. -/
structure Mild (visit : Node → σ → Node × σ × Option Error) : Prop where
  goesOn : ∀ n state, n.frozen = false → (visit n state).2.2 = none
  staysOpen : ∀ n state, n.frozen = false → (visit n state).1.frozen = false
  keepsChildren : ∀ n state, n.frozen = false → (visit n state).1.children = n.children

/-- To note what a visit is called with does not make it less mild. -/
theorem Mild.noting (h : Mild visit) : Mild (Tour.noting (fun n => n) visit) where
  goesOn n state hopen := h.goesOn n state.2 hopen
  staysOpen n state hopen := h.staysOpen n state.2 hopen
  keepsChildren n state hopen := h.keepsChildren n state.2 hopen

/-- What a visit makes of the state. -/
def after (visit : Node → σ → Node × σ × Option Error) (state : σ) (n : Node) : σ :=
  (visit n state).2.1

/-- What a walk that changes nodes meets in two nodes is frozen in the same places, and what is
frozen is the same. -/
def KeepsFrozen (n n' : Node) : Prop :=
  List.Forall₂ (fun m m' => m'.frozen = m.frozen ∧ (m.frozen = true → m' = m))
    (n.tree.visits (·.frozen)) (n'.tree.visits (·.frozen))

/-- Open nodes keep what is frozen if their children do. -/
theorem keepsFrozen_of_children (hopen : n.frozen = false) (hopen' : n'.frozen = false)
    (hchildren : List.Forall₂ KeepsFrozen n.children n'.children) : KeepsFrozen n n' := by
  rw [KeepsFrozen, visits_tree, visits_tree, hopen, hopen', if_neg Bool.false_ne_true,
    if_neg Bool.false_ne_true]
  refine .cons ⟨hopen'.trans hopen.symm, fun hf => ?_⟩ (List.rel_flatMap hchildren fun _ _ h => h)
  rw [hopen] at hf
  cases hf

/-- A walk whose visits are mild visits what it reaches, and what is frozen stays. -/
theorem edit_of_mild (hvisit : Mild visit) (n : Node) :
    Tour.Carries (after visit) (n.edit (Tour.visit visit)) (KeepsFrozen n) n.reached := by
  refine carries_edit (G := fun _ => True) (R := fun _ _ => True) (fun _ _ _ _ _ => trivial)
    (fun n _ hopen => Tour.carries_visit fun state => ?_) (fun n _ _ => ?_) ?_ trivial
  · exact ⟨⟨trivial, hvisit.staysOpen n state hopen, hvisit.keepsChildren n state hopen⟩,
      Prod.ext rfl (hvisit.goesOn n state hopen)⟩
  · exact List.forall₂_same.mpr fun _ _ => ⟨rfl, fun _ => rfl⟩
  · intro n n' r _ hopen _ hopen' hchildren hedited
    refine keepsFrozen_of_children hopen (hedited.frozen.trans hopen') ?_
    rw [← hchildren]
    exact hedited.children

end

end Node

/-- Walks over nodes, and walks over shapes, agree on what they visit.

A walk and a walk in scope visit the same nodes.  A walk whose visits may change the nodes, and are
mild, visits those but for what is frozen and everything below it: it carries any state through the
visits of these nodes, and what the visits note is these nodes.  What is frozen stays as it is, in
its place.  The same holds of shapes, where the visits are also those of a walk over the shape
without what is frozen. -/
theorem walks_agree :
    (∀ (env : Scopes) (scope : Scope) (n : Node),
      (env.visits (fun _ => false) scope n.tree).map Prod.fst = n.tree.visits fun _ => false) ∧
    (∀ n : Node, (n.tree.visits fun _ => false) = (n.tree.visits (·.frozen)).flatMap fun m =>
      if m.frozen then m.tree.visits fun _ => false else [m]) ∧
    (∀ {σ : Type} (visit : Node → σ → Node × σ × Option Error), Node.Mild visit →
      ∀ (n : Node) (state : σ),
        ((n.edit (Tour.visit visit)).run ⟨state, none⟩).2 =
          ⟨n.reached.foldl (fun state m => (visit m state).2.1) state, none⟩ ∧
        ((n.edit (Tour.visit (Tour.noting (fun m => m) visit))).run ⟨([], state), none⟩).2.state.1 =
          n.reached ∧
        n.KeepsFrozen ((n.edit (Tour.visit visit)).run ⟨state, none⟩).1) ∧
    (∀ s : Shape, s.visits 0 = (s.met 0).flatMap (fun c =>
        if c.2.frozen then c.2.visits c.1 else [c]) ∧
      (s.frozen = true → s.reached 0 = []) ∧
      (s.frozen = false → s.pruned.visits 0 = (s.reached 0).map fun c => (c.1, c.2.pruned))) ∧
    ∀ {σ : Type} (visit : Nat → Shape → σ → Shape × σ × Option Error), Shape.Mild visit →
      ∀ (s : Shape) (state : σ),
        ((s.edit fun level => Tour.visit (visit level)).run ⟨state, none⟩).2 =
          ⟨(s.reached 0).foldl (fun state c => (visit c.1 c.2 state).2.1) state, none⟩ ∧
        ((s.edit fun level => Tour.visit (Tour.noting (fun t => (level, t)) (visit level))).run
          ⟨([], state), none⟩).2.state.1 = s.reached 0 ∧
        Shape.KeepsFrozen 0 s
          ((s.edit fun level => Tour.visit (visit level)).run ⟨state, none⟩).1 := by
  refine ⟨Scopes.map_fst_walk, Node.all_eq_flatMap, fun visit hvisit n state => ?_,
    fun s => ⟨s.visits_eq_flatMap_met 0, fun hf => Shape.reached_of_frozen hf 0,
      Shape.visits_pruned 0 s⟩, fun visit hvisit s state => ?_⟩
  · obtain ⟨hfrozen, hcalls⟩ := Node.edit_of_mild hvisit n state
    obtain ⟨-, hnoted⟩ := Node.edit_of_mild hvisit.noting n ([], state)
    refine ⟨hcalls, ?_, hfrozen⟩
    -- What a visit notes of itself are the nodes that the walk reaches.
    rw [hnoted]
    exact congrArg Prod.fst (Tour.foldl_noting (Node.after visit) n.reached [] state)
  · obtain ⟨hfrozen, hcalls⟩ := Shape.carries_edit hvisit s state
    obtain ⟨-, hnoted⟩ := Shape.carries_edit hvisit.noting s ([], state)
    refine ⟨hcalls, ?_, hfrozen⟩
    rw [hnoted]
    exact congrArg Prod.fst (Tour.foldl_noting (Shape.after visit) (s.reached 0) [] state)

/-- A program with a block that is frozen, and a node in the block. -/
def partlyFrozen : Node :=
  ⟨{ declared := [("kind", .str "program")],
     extra := [("body", .list [
       .node 1 { declared := [("kind", .str "block")],
                 extra := [("inside", .node 2 { declared := [("kind", .str "leaf")] })],
                 frozen := true },
       .node 3 { declared := [("kind", .str "leaf")] }])] }, 0⟩

/-- A field of a frozen shape. -/
def idField : Shape := .field "id" Shape.i64

/-- The walk meets the field and the frozen shape. -/
theorem met_idField : idField.met 0 = [(0, idField), (0, Shape.i64)] := by
  have hleaf : idField.isComposite = false := rfl
  have htype : idField.fieldType? = some Shape.i64 := rfl
  rw [Shape.met_of_open rfl, Shape.own, hleaf, if_neg Bool.false_ne_true, Shape.below_of_leaf hleaf,
    htype, Option.toList_some, List.map_singleton, List.flatMap_singleton,
    Shape.met_of_frozen rfl]
  rfl

/-- Two of the four nodes are visited, and of the field and its shape the field alone. -/
theorem walks_agree_partlyFrozen :
    (partlyFrozen.tree.visits fun _ => false).length = 4 ∧
    ((partlyFrozen.edit (Tour.visit fun n count => (n, count + 1, none))).run ⟨0, none⟩).2 =
      ⟨2, none⟩ ∧
    ((idField.edit fun _ => Tour.visit fun s count => (s, count + 1, none)).run ⟨0, none⟩).2 =
      ⟨1, none⟩ := by
  have hnode : Node.Mild fun n (count : Nat) => (n, count + 1, none) :=
    ⟨fun _ _ _ => rfl, fun _ _ h => h, fun _ _ _ => rfl⟩
  have hshape : Shape.Mild fun _ s (count : Nat) => (s, count + 1, none) :=
    ⟨fun _ _ _ _ => rfl, fun _ _ _ h => h, fun _ _ _ _ _ _ => rfl⟩
  refine ⟨by decide +kernel, (walks_agree.2.2.1 _ hnode partlyFrozen 0).1.trans rfl,
    (walks_agree.2.2.2.2 _ hshape idField 0).1.trans ?_⟩
  rw [Shape.reached, met_idField]
  rfl

end TypeSketch
