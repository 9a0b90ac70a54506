import Mathlib.Data.List.Nodup
import TypeSketch.Inference.Scope
import TypeSketch.Proofs.Record.Sameness

/-!
# Programs — walks

A walk by a node and its children, where the definitions go by its tree: `Node.tree_eq` and the
equations of `visits` after it.  Below every visited node its children are visited, each in the
scope it enters (`Scopes.mem_walk_of_child`), and in a program whose nodes have numbers of their
own a number is visited once (`Scopes.visit_unique`).

The proofs about walks go by `induction_on_children`, and those about scopes by the equations of
`walk` (`Scopes.walk_eq`), so that neither depths nor trees are met again after this module. That
every node of a program has a number of its own is `Node.Apart`; it is used to tell a node by its
number (`Node.Apart.eq_of_id`).
-/

namespace TypeSketch

/-! ### Trees -/

namespace Tree

theorem ofItems_eq (items : List Value) :
    ofItems items = (items.filterMap Value.asNode?).map Node.tree := by
  induction items with
  | nil => rfl
  | cons v rest ih => cases v <;> simp [ofItems, List.filterMap_cons, Value.asNode?, Node.tree, ih]

theorem ofValue_eq (v : Value) : ofValue v = v.childNodes.map Node.tree := by
  cases v <;> simp [ofValue, Value.childNodes, Node.tree, ofItems_eq]

theorem ofEntries_eq (entries : List (String × Value)) :
    ofEntries entries = (entries.flatMap fun (_, v) => v.childNodes).map Node.tree := by
  induction entries with
  | nil => rfl
  | cons e rest ih => simp [ofEntries, ofValue_eq, ih]

theorem ofRecord_eq (r : Record Value) :
    ofRecord r = (r.entries.flatMap fun (_, v) => v.childNodes).map Node.tree := by
  obtain ⟨declared, extra, frozen⟩ := r
  simp [ofRecord, ofEntries_eq, Record.entries]

theorem visitsAll_eq (skip : Node → Bool) (ts : List Tree) :
    visitsAll skip ts = ts.flatMap (visits skip) := by
  induction ts with
  | nil => rfl
  | cons t ts ih => rw [visitsAll, ih, List.flatMap_cons]

end Tree

namespace Node

/-- The tree of a node is the node above the trees of its children. -/
theorem tree_eq (n : Node) : n.tree = .mk n (n.children.map tree) := by
  rw [tree, Tree.ofRecord_eq, children]

/-- A node that a value is or lists is less deep. -/
theorem depth_lt_of_childNodes {v : Value} {c : Node} (h : c ∈ v.childNodes) :
    c.depth < v.depth := by
  cases v with
  | node id r =>
    rw [Value.childNodes, List.mem_singleton] at h
    subst h
    simp [depth, Value.depth]
  | list items =>
    obtain ⟨v, hv, hc⟩ := List.mem_filterMap.mp h
    cases v with
    | node id r =>
      cases hc
      have := Value.depth_le_itemsDepth hv
      simp only [Value.depth] at this
      exact this
    | _ => cases hc
  | _ => cases h

/-- An entry is no deeper than the deepest of them. -/
theorem depth_le_entriesDepth {e : String × Value} :
    ∀ {entries : List (String × Value)}, e ∈ entries → e.2.depth ≤ Value.entriesDepth entries
  | (k, v) :: rest, h => by
    rw [Value.entriesDepth]
    rcases List.mem_cons.mp h with rfl | h
    · exact Nat.le_max_left ..
    · exact Nat.le_trans (depth_le_entriesDepth h) (Nat.le_max_right ..)

/-- A child is less deep than the node above it. -/
theorem depth_lt_of_mem_children {n c : Node} (h : c ∈ n.children) : c.depth < n.depth := by
  obtain ⟨e, he, hc⟩ := List.mem_flatMap.mp h
  have hlt := depth_lt_of_childNodes hc
  obtain ⟨⟨declared, extra, frozen⟩, id⟩ := n
  refine Nat.lt_of_lt_of_le hlt ?_
  rw [depth, Value.recordDepth]
  rcases List.mem_append.mp he with he | he
  · exact Nat.le_trans (depth_le_entriesDepth he) (Nat.le_max_left ..)
  · exact Nat.le_trans (depth_le_entriesDepth he) (Nat.le_max_right ..)

/-- What holds of a node if it holds of its children holds of every node. -/
theorem induction_on_children {P : Node → Prop} (step : ∀ n, (∀ c ∈ n.children, P c) → P n)
    (n : Node) : P n :=
  step n fun c hc =>
    have := depth_lt_of_mem_children hc
    induction_on_children step c
termination_by n.depth

theorem mem_children_of_get? {n c : Node} {key : String} {v : Value} (h : n.get? key = some v)
    (hc : c ∈ v.childNodes) : c ∈ n.children :=
  List.mem_flatMap.mpr ⟨_, Record.mem_of_get? h, hc⟩

/-- The node under a field is below the node. -/
theorem mem_children_of_node? {n c : Node} {f : Field}
    (hf : f.absent?.bind Value.asNode? = none) (h : n.node? f = some c) : c ∈ n.children := by
  rw [Record.node?, Record.field?] at h
  cases hget : n.get? f.key with
  | none => rw [hget, Option.none_or, hf] at h; cases h
  | some v =>
    rw [hget] at h
    refine mem_children_of_get? hget ?_
    cases v with
    | node id r => cases h; exact List.mem_singleton_self _
    | _ => cases h

/-- What a field lists is below the node. -/
theorem nodes_subset_children (n : Node) (f : Field) (hf : f.absent? = some (.list [])) :
    n.nodes f ⊆ n.children := by
  intro c hc
  obtain ⟨v, hv, hc⟩ := List.mem_filterMap.mp hc
  rw [Record.items, Record.field?, hf] at hv
  cases hget : n.get? f.key with
  | none => simp [hget, Value.asList?] at hv
  | some w =>
    rw [hget] at hv
    refine mem_children_of_get? hget ?_
    cases w with
    | list items => exact List.mem_filterMap.mpr ⟨v, hv, hc⟩
    | _ => cases hv

/-- A node and every node below it, from the top. -/
def all (n : Node) : List Node := n.tree.visits fun _ => false

theorem visits_tree (skip : Node → Bool) (n : Node) :
    n.tree.visits skip = n :: if skip n then [] else n.children.flatMap (·.tree.visits skip) := by
  rw [tree_eq, Tree.visits, Tree.visitsAll_eq, List.flatMap_map]

theorem all_eq (n : Node) : n.all = n :: n.children.flatMap all := by
  rw [all, visits_tree]
  rfl

/-- A walk that passes nodes by visits nodes of the whole walk. -/
theorem visits_subset_all (skip : Node → Bool) (n : Node) : n.tree.visits skip ⊆ n.all := by
  induction n using induction_on_children with
  | step n ih =>
    rw [visits_tree, all_eq]
    refine List.cons_subset_cons _ ?_
    split
    · exact List.nil_subset _
    · intro m hm
      obtain ⟨c, hc, hm⟩ := List.mem_flatMap.mp hm
      exact List.mem_flatMap.mpr ⟨c, hc, ih c hc hm⟩

theorem mem_all_self (n : Node) : n ∈ n.all := by
  rw [all_eq]
  exact List.mem_cons_self

theorem mem_all_of_child {n c m : Node} (hc : c ∈ n.children) (hm : m ∈ c.all) : m ∈ n.all := by
  rw [all_eq]
  exact List.mem_cons_of_mem _ (List.mem_flatMap.mpr ⟨c, hc, hm⟩)

/-- What holds of a node and goes down to children holds of every node below. -/
theorem forall_mem_all {P : Node → Prop} (down : ∀ n, P n → ∀ c ∈ n.children, P c) {n : Node}
    (hn : P n) : ∀ m ∈ n.all, P m := by
  induction n using induction_on_children with
  | step n ih =>
    intro m hm
    rw [all_eq] at hm
    rcases List.mem_cons.mp hm with rfl | hm
    · exact hn
    · obtain ⟨c, hc, hm⟩ := List.mem_flatMap.mp hm
      exact ih c hc (down n hn c hc) m hm

/-- The nodes of a program have numbers of their own. -/
def Apart (n : Node) : Prop := (n.all.map (·.id)).Nodup

theorem Apart.eq_of_id {n m m' : Node} (h : n.Apart) (hm : m ∈ n.all) (hm' : m' ∈ n.all)
    (hid : m.id = m'.id) : m = m' :=
  List.inj_on_of_nodup_map h hm hm' hid

end Node

/-! ### Walks in scope -/

namespace Scopes

variable {env : Scopes}

theorem visitsAll_eq (skip : Node → Bool) (scope : Scope) (ts : List Tree) :
    env.visitsAll skip scope ts = ts.flatMap (env.visits skip scope) := by
  induction ts with
  | nil => rfl
  | cons t ts ih => rw [visitsAll, ih, List.flatMap_cons]

theorem visits_tree (skip : Node → Bool) (scope : Scope) (n : Node) :
    env.visits skip scope n.tree = (n, env.enter n scope) ::
      if skip n then []
      else n.children.flatMap fun c => env.visits skip (env.enter n scope) c.tree := by
  rw [Node.tree_eq, visits, visitsAll_eq, List.flatMap_map]

/-- Every node of a program, each in its scope. -/
def walk (env : Scopes) (scope : Scope) (n : Node) : List (Node × Scope) :=
  env.visits (fun _ => false) scope n.tree

theorem walk_eq (env : Scopes) (scope : Scope) (n : Node) :
    env.walk scope n =
      (n, env.enter n scope) :: n.children.flatMap (env.walk (env.enter n scope)) := by
  rw [walk, visits_tree]
  rfl

/-- A walk in scope visits what a walk visits. -/
theorem map_fst_walk (env : Scopes) (scope : Scope) (n : Node) :
    (env.walk scope n).map Prod.fst = n.all := by
  induction n using Node.induction_on_children generalizing scope with
  | step n ih =>
    rw [walk_eq, List.map_cons, Node.all_eq, List.map_flatMap]
    refine congrArg (n :: ·) (List.flatMap_congr fun c hc => ih c hc _)

theorem mem_all_of_walk {scope s : Scope} {n m : Node} (h : (m, s) ∈ env.walk scope n) :
    m ∈ n.all :=
  map_fst_walk env scope n ▸ List.mem_map_of_mem (f := Prod.fst) h

/-- A walk in scope visits every node in some scope. -/
theorem exists_walk_of_mem_all (env : Scopes) (scope : Scope) {n m : Node} (h : m ∈ n.all) :
    ∃ s, (m, s) ∈ env.walk scope n := by
  rw [← map_fst_walk env scope n] at h
  obtain ⟨⟨_, s⟩, hwalk, rfl⟩ := List.mem_map.mp h
  exact ⟨s, hwalk⟩

/-- Below a visited node its children are visited. -/
theorem mem_walk_of_child {scope s : Scope} {n m c : Node} (h : (m, s) ∈ env.walk scope n)
    (hc : c ∈ m.children) : (c, env.enter c s) ∈ env.walk scope n := by
  induction n using Node.induction_on_children generalizing scope with
  | step n ih =>
    rw [walk_eq] at h ⊢
    rcases List.mem_cons.mp h with h | h
    · cases h
      refine List.mem_cons_of_mem _ (List.mem_flatMap.mpr ⟨c, hc, ?_⟩)
      rw [walk_eq]
      exact List.mem_cons_self
    · obtain ⟨d, hd, h⟩ := List.mem_flatMap.mp h
      exact List.mem_cons_of_mem _ (List.mem_flatMap.mpr ⟨d, hd, ih d hd h⟩)

/-- A number is visited once. -/
theorem visit_unique {scope s s' : Scope} {n m m' : Node} (hn : n.Apart)
    (h : (m, s) ∈ env.walk scope n) (h' : (m', s') ∈ env.walk scope n) (hid : m.id = m'.id) :
    m = m' ∧ s = s' := by
  have hnodup : ((env.walk scope n).map fun p => p.1.id).Nodup := by
    rw [Node.Apart, ← map_fst_walk env scope n, List.map_map] at hn
    exact hn
  exact Prod.mk.inj (List.inj_on_of_nodup_map hnodup h h' hid)

end Scopes

end TypeSketch
