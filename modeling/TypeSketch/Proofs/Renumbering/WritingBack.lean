import TypeSketch.Proofs.Inference.WritingBack
import TypeSketch.Proofs.Renumbering.Rules

/-!
# Renumbering — writing back

A walk that changes nodes and takes no notice of their numbers makes of a renumbered program what it
makes of the program, renumbered (`Node.edit_renumber`).  Shapes are put on nodes by their numbers,
which stay apart, so each node of a renumbered program gets what the node gets
(`Board.writeBack_renumber`).

The walk is by depth, so renumbering must keep depths (`depth_renumber`). Then a walk goes through a
list, a value and a record as the visit goes through a node (`editItem_renumber`,
`editChildren_renumber`, `mapValues_renumber`), and `edit_renumber` ties the knot. What is due at a
node is found by its number, and here it matters that no two numbers become one (`dueAt_renumber`).
-/

namespace TypeSketch

variable {σ : Nat → Nat}

/-! ### Depths -/

namespace Value

mutual

theorem depth_renumber (σ : Nat → Nat) : ∀ v : Value, (v.renumber σ).depth = v.depth
  | .node id r => by rw [renumber, depth, depth, recordDepth_renumber σ r]
  | .list items => by rw [renumber, depth, depth, itemsDepth_renumber σ items]
  | .bool _ | .int _ | .float _ | .str _ | .shape _ | .json _ => rfl

theorem recordDepth_renumber (σ : Nat → Nat) :
    ∀ r : Record Value, recordDepth (renumberRecord σ r) = recordDepth r
  | ⟨declared, extra, frozen⟩ => by
    rw [renumberRecord, recordDepth, recordDepth, entriesDepth_renumber σ declared,
      entriesDepth_renumber σ extra]

/-- Renumbered entries are as deep as before. -/
theorem entriesDepth_renumber (σ : Nat → Nat) :
    ∀ es : List (String × Value), entriesDepth (renumberEntries σ es) = entriesDepth es
  | [] => rfl
  | (k, v) :: rest => by
    rw [renumberEntries, entriesDepth, entriesDepth, depth_renumber σ v,
      entriesDepth_renumber σ rest]

/-- Renumbered items are as deep as before. -/
theorem itemsDepth_renumber (σ : Nat → Nat) :
    ∀ items : List Value, itemsDepth (renumberItems σ items) = itemsDepth items
  | [] => rfl
  | .node id r :: rest => by
    rw [renumberItems, itemsDepth, itemsDepth, depth, depth, recordDepth_renumber σ r,
      itemsDepth_renumber σ rest]
  | .bool _ :: rest | .int _ :: rest | .float _ :: rest | .str _ :: rest | .shape _ :: rest
  | .json _ :: rest | .list _ :: rest => by
    rw [renumberItems, itemsDepth, itemsDepth, itemsDepth_renumber σ rest]
    all_goals exact nofun

end

end Value

/-! ### Walks -/

/-- Going through a list and its image, where what is done at an image is what is done at the item,
changed after it. -/
theorem mapM_map_of {m : Type → Type} [Monad m] [LawfulMonad m] {α α' β β' : Type} {f : α → m β}
    {f' : α' → m β'} {φ : α → α'} {g : β → β'} {xs : List α}
    (h : ∀ x ∈ xs, f' (φ x) = g <$> f x) : (xs.map φ).mapM f' = List.map g <$> xs.mapM f := by
  induction xs with
  | nil => simp
  | cons x xs ih =>
    rw [List.forall_mem_cons] at h
    simp [List.mapM_cons, h.1, ih h.2]

namespace Node

variable {m : Type → Type} [Monad m] [LawfulMonad m]

/-- An item of a list, changed by `f` if it is a node. -/
def editItem (f : Node → m Node) (v : Value) : m Value :=
  match v.asNode? with
  | some n => toValue <$> f n
  | none => pure v

theorem editChildren_list (f : Node → m Node) (items : List Value) :
    editChildren f (.list items) = Value.list <$> items.mapM (editItem f) := by
  rw [editChildren, map_eq_pure_bind]
  refine congrArg (fun g => items.mapM g >>= fun vs => pure (Value.list vs)) (funext fun v => ?_)
  cases v <;> simp [editItem, Value.asNode?]

/-- A change that makes of a renumbered node what it makes of the node does so with an item. -/
theorem editItem_renumber {f f' : Node → m Node}
    (h : ∀ n : Node, f' (n.renumber σ) = Node.renumber σ <$> f n) (v : Value) :
    editItem f' (Value.renumberItem σ v) = Value.renumberItem σ <$> editItem f v := by
  rw [editItem, editItem, Value.asNode?_renumberItem]
  cases hv : v.asNode? with
  | some n =>
    simp only [Option.map_some, h, Functor.map_map]
    rfl
  | none => simp [Value.renumberItem, hv]

/-- A change that makes of a renumbered node what it makes of the node does so with the children in
a value. -/
theorem editChildren_renumber {f f' : Node → m Node}
    (h : ∀ n : Node, f' (n.renumber σ) = Node.renumber σ <$> f n) (v : Value) :
    editChildren f' (v.renumber σ) = Value.renumber σ <$> editChildren f v := by
  cases v with
  | node id r =>
    have hnode : f' ⟨Value.renumberRecord σ r, σ id⟩ = Node.renumber σ <$> f ⟨r, id⟩ := h ⟨r, id⟩
    simp [editChildren, Value.renumber, hnode]
  | list items =>
    rw [Value.renumber_list, editChildren_list, editChildren_list,
      mapM_map_of fun v _ => editItem_renumber h v]
    simp
  | _ => simp [editChildren, Value.renumber]

/-- A change that makes of a renumbered value what it makes of the value does so with a record. -/
theorem mapValues_renumber {f f' : Value → m Value} {r : Record Value}
    (h : ∀ v, f' (v.renumber σ) = Value.renumber σ <$> f v) :
    (r.renumber σ).mapValues f' = Record.renumber σ <$> r.mapValues f := by
  have hentries (es : List (String × Value)) :
      (es.map fun e => (e.1, e.2.renumber σ)).mapM (fun e => return (e.1, ← f' e.2)) =
        List.map (fun e => (e.1, e.2.renumber σ)) <$> es.mapM fun e => return (e.1, ← f e.2) :=
    mapM_map_of fun e _ => by simp [h]
  rw [Record.mapValues, Record.mapValues, Record.renumber_eq, hentries, hentries]
  simp [Record.renumber_eq]

/-- A walk that makes of each renumbered node what it makes of the node, renumbered, does so with a
whole program. -/
theorem edit_renumber {visit visit' : Node → m Node}
    (h : ∀ n : Node, visit' (n.renumber σ) = Node.renumber σ <$> visit n) (n : Node) :
    edit visit' (n.renumber σ) = Node.renumber σ <$> edit visit n := by
  have hwithin : ∀ (fuel : Nat) (n : Node),
      editWithin visit' fuel (n.renumber σ) = Node.renumber σ <$> editWithin visit fuel n := by
    intro fuel
    induction fuel with
    | zero => intro n; simp [editWithin]
    | succ fuel ih =>
      intro n
      simp only [editWithin, toRecord_renumber, Record.frozen_renumber]
      split
      · simp
      · simp only [h, map_bind, bind_map_left]
        refine congrArg (visit n >>= ·) (funext fun n' => ?_)
        simp only [toRecord_renumber, Record.frozen_renumber,
          mapValues_renumber (editChildren_renumber ih)]
        split
        · simp
        · simp only [bind_pure_comp, Functor.map_map, id_renumber]
          rfl
  have hdepth : (n.renumber σ).depth = n.depth := Value.recordDepth_renumber σ n.toRecord
  rw [edit, edit, hdepth]
  exact hwithin _ n

end Node

/-! ### Writing -/

/-- A renumbered value is written into a renumbered record. -/
theorem Record.set_renumber (r : Record Value) (key : String) (v : Value) :
    (r.renumber σ).set key (v.renumber σ) = (r.set key v).renumber σ := by
  have hhas : Assoc.has key (r.renumber σ).declared = Assoc.has key r.declared := by
    rw [Assoc.has, renumber_eq, Assoc.lookup_mapValues, Option.isSome_map]
    rfl
  rw [set, set, hhas]
  split
  · simp only [renumber_eq, Assoc.put_mapValues]
  · simp only [renumber_eq, Assoc.put_mapValues]

/-- A shape that goes to a field holds no node. -/
theorem Field.stored_renumber (f : Field) (s : Shape) :
    (f.entry s.toValue).stored.renumber σ = (f.entry s.toValue).stored := by
  rw [Field.entry, Entry.stored]
  cases f.kind <;> rfl

/-- A shape is put onto a renumbered node as onto the node. -/
theorem Node.replace_renumber (n : Node) (f : Field) (s : Shape) :
    (n.renumber σ).replace (f.entry s.toValue) =
      (n.replace (f.entry s.toValue)).map (Node.renumber σ) := by
  have hset := Record.set_renumber (σ := σ) n.toRecord f.key (f.entry s.toValue).stored
  rw [Field.stored_renumber] at hset
  have hcheck (e : Entry) : (n.toRecord.renumber σ).check e = n.check e := by
    rw [Record.check, Record.check, Record.frozen_renumber]
  simp only [replace, Record.replace, toRecord_renumber, hcheck]
  cases checkKey (f.entry s.toValue).key with
  | error e => rfl
  | ok =>
    cases n.check (f.entry s.toValue) with
    | error e => rfl
    | ok => exact congrArg (fun r => Except.ok (⟨r, σ n.id⟩ : Node)) hset

namespace Board

/-- The shapes that are due are put onto a renumbered node as onto the node. -/
theorem assign_renumber (n : Node) (count : Nat) (due : List (Callback × Shape)) :
    assign (n.renumber σ) count (due.map fun d => (d.1.renumber σ, d.2)) =
      ((assign n count due).1.renumber σ, (assign n count due).2) := by
  induction due generalizing n count with
  | nil => rfl
  | cons d due ih =>
    obtain ⟨callback, s⟩ := d
    have hreplace : (n.renumber σ).replace ((callback.renumber σ).field.entry s.toValue) =
        (n.replace (callback.field.entry s.toValue)).map (Node.renumber σ) :=
      n.replace_renumber callback.field s
    simp only [List.map_cons, assign, hreplace]
    cases n.replace (callback.field.entry s.toValue) with
    | error e => rfl
    | ok n' => exact ih n' (count + 1)

variable (hσ : Function.Injective σ)
include hσ

/-- What is to be put onto nodes goes to the renumbered ones. -/
theorem assignments_renumber (b : Board) :
    (b.renumber σ).assignments = b.assignments.map fun d => (d.1.renumber σ, d.2) := by
  have hshape (path : String) : (b.renumber σ).shape? (Text.renumber σ path) = b.shape? path :=
    Known.lookup_renumber hσ b.known path
  have hcallbacks : (b.renumber σ).callbacks = b.callbacks.map fun e =>
    (Text.renumber σ e.1, e.2.map (Callback.renumber σ)) := rfl
  rw [assignments, assignments, hcallbacks, List.flatMap_map, List.map_flatMap]
  refine List.flatMap_congr fun e _ => ?_
  simp only [hshape]
  cases b.shape? e.1 with
  | none => rfl
  | some s => simp

theorem dueAt_renumber (b : Board) (n : Node) :
    (b.renumber σ).dueAt (n.renumber σ) = (b.dueAt n).map fun d => (d.1.renumber σ, d.2) := by
  have hbeq (i : Nat) : (σ i == σ n.id) = (i == n.id) := hσ.beq_eq
  rw [dueAt, dueAt, assignments_renumber hσ, List.filter_map]
  simp only [Function.comp_def, Callback.renumber, Node.id_renumber, hbeq]

/-- Each node of a renumbered program gets what the node gets. -/
theorem writeBack_renumber (b : Board) (root : Node) :
    (b.renumber σ).writeBack (root.renumber σ) =
      ((b.writeBack root).1.renumber σ, (b.writeBack root).2) := by
  have hvisit (n : Node) : Tour.visit
      (fun n count => assign n count ((b.renumber σ).dueAt n)) (n.renumber σ) =
        Node.renumber σ <$> Tour.visit (fun n count => assign n count (b.dueAt n)) n := by
    funext tour
    obtain ⟨count, stopped⟩ := tour
    cases stopped with
    | some e => rfl
    | none =>
      have hassign := assign_renumber (σ := σ) n count (b.dueAt n)
      rw [← dueAt_renumber hσ] at hassign
      exact congrArg (fun out : Node × Nat × Option Error => (out.1, Tour.mk out.2.1 out.2.2))
        hassign
  rw [writeBack_eq, writeBack_eq, Node.edit_renumber hvisit]
  rfl

end Board

end TypeSketch
