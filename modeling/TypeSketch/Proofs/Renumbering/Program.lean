import Mathlib.Algebra.Order.BigOperators.Group.List
import Mathlib.Algebra.Order.Group.Nat
import TypeSketch.Proofs.Program.Walk
import TypeSketch.Proofs.Table

/-!
# Renumbering — programs

`Node.renumber σ` gives every node of a program the number that `σ` makes of its own, and changes
nothing else.  Whatever is read off a node but its number stays, and walks visit the same nodes,
renumbered.  Two programs are the same but for the numbers if they are the same once every number is
`0` (`Node.unnumbered`); where both have numbers of their own, the one is the other renumbered
(`exists_renumber`).

That a program can be put together from the nodes without numbers and the numbers in the order of a
walk is `Node.eq_of_unnumbered`: such a program is determined. So the map that takes the numbers of
one program to those of the other, which exists where numbers do not come twice
(`exists_injective_map`), takes the program to the other.
-/

namespace TypeSketch

variable {σ : Nat → Nat}

/-! ### Renumbering data -/

mutual

/-- The value with the nodes that it is or lists, and those below them, renumbered. -/
def Value.renumber (σ : Nat → Nat) : Value → Value
  | .node id r => .node (σ id) (Value.renumberRecord σ r)
  | .list items => .list (Value.renumberItems σ items)
  | v => v

/-- The record with the nodes in it renumbered. -/
def Value.renumberRecord (σ : Nat → Nat) : Record Value → Record Value
  | ⟨declared, extra, frozen⟩ =>
    ⟨Value.renumberEntries σ declared, Value.renumberEntries σ extra, frozen⟩

/-- The entries with the nodes in them renumbered. -/
def Value.renumberEntries (σ : Nat → Nat) : List (String × Value) → List (String × Value)
  | [] => []
  | (k, v) :: rest => (k, Value.renumber σ v) :: Value.renumberEntries σ rest

/-- The items with the nodes among them renumbered. -/
def Value.renumberItems (σ : Nat → Nat) : List Value → List Value
  | [] => []
  | .node id r :: rest =>
    .node (σ id) (Value.renumberRecord σ r) :: Value.renumberItems σ rest
  | v :: rest => v :: Value.renumberItems σ rest

end

/-- The record with the nodes in it renumbered. -/
def Record.renumber (σ : Nat → Nat) (r : Record Value) : Record Value := Value.renumberRecord σ r

/-- The node and all below it renumbered. -/
def Node.renumber (σ : Nat → Nat) (n : Node) : Node := ⟨n.toRecord.renumber σ, σ n.id⟩

/-- An item, renumbered if it is a node. -/
def Value.renumberItem (σ : Nat → Nat) (v : Value) : Value :=
  match v.asNode? with
  | some n => (n.renumber σ).toValue
  | none => v

/-- Items are renumbered one by one. -/
theorem Value.renumberItems_eq (σ : Nat → Nat) (items : List Value) :
    Value.renumberItems σ items = items.map (Value.renumberItem σ) := by
  induction items with
  | nil => rfl
  | cons v rest ih =>
    cases v <;> simp [Value.renumberItems, ih] <;> rfl

theorem Value.renumberEntries_eq (σ : Nat → Nat) (es : List (String × Value)) :
    Value.renumberEntries σ es = es.map fun e => (e.1, e.2.renumber σ) := by
  induction es with
  | nil => rfl
  | cons e rest ih => simp [Value.renumberEntries, ih]

theorem Record.renumber_eq (σ : Nat → Nat) (r : Record Value) :
    r.renumber σ = ⟨r.declared.map fun e => (e.1, e.2.renumber σ),
      r.extra.map fun e => (e.1, e.2.renumber σ), r.frozen⟩ := by
  obtain ⟨declared, extra, frozen⟩ := r
  rw [Record.renumber, Value.renumberRecord, Value.renumberEntries_eq, Value.renumberEntries_eq]

/-! ### Reading values -/

namespace Value

@[simp] theorem renumber_toValue (n : Node) : n.toValue.renumber σ = (n.renumber σ).toValue := rfl

@[simp] theorem renumber_list (items : List Value) :
    (Value.list items).renumber σ = .list (items.map (renumberItem σ)) := by
  rw [renumber, renumberItems_eq]

@[simp] theorem asBool?_renumber (v : Value) : (v.renumber σ).asBool? = v.asBool? := by
  cases v <;> rfl

@[simp] theorem asStr?_renumber (v : Value) : (v.renumber σ).asStr? = v.asStr? := by
  cases v <;> rfl

@[simp] theorem asShape?_renumber (v : Value) : (v.renumber σ).asShape? = v.asShape? := by
  cases v <;> rfl

@[simp] theorem asNode?_renumber (v : Value) :
    (v.renumber σ).asNode? = v.asNode?.map (Node.renumber σ) := by
  cases v <;> rfl

@[simp] theorem asNode?_renumberItem (v : Value) :
    (renumberItem σ v).asNode? = v.asNode?.map (Node.renumber σ) := by
  cases v <;> rfl

@[simp] theorem asList?_renumber (v : Value) :
    (v.renumber σ).asList? = v.asList?.map (List.map (renumberItem σ)) := by
  cases v with
  | list items => rw [renumber_list]; rfl
  | _ => rfl

theorem filterMap_asNode?_renumberItem (items : List Value) :
    (items.map (renumberItem σ)).filterMap asNode? =
      (items.filterMap asNode?).map (Node.renumber σ) := by
  rw [List.filterMap_map, List.map_filterMap]
  exact congrArg (fun f => items.filterMap f) (funext asNode?_renumberItem)

@[simp] theorem childNodes_renumber (v : Value) :
    (v.renumber σ).childNodes = v.childNodes.map (Node.renumber σ) := by
  cases v with
  | list items =>
    rw [renumber_list]
    exact filterMap_asNode?_renumberItem items
  | _ => rfl

end Value

/-! ### Reading records -/

namespace Record

variable (r : Record Value)

@[simp] theorem frozen_renumber : (r.renumber σ).frozen = r.frozen := by rw [renumber_eq]

@[simp] theorem get?_renumber (key : String) :
    (r.renumber σ).get? key = (r.get? key).map (Value.renumber σ) := by
  rw [renumber_eq, get?, get?, Assoc.lookup_mapValues, Assoc.lookup_mapValues]
  cases r.declared.lookup key <;> rfl

@[simp] theorem has_renumber (f : Field) : (r.renumber σ).has f = r.has f := by simp [has]

@[simp] theorem flag_renumber (f : Field) : (r.renumber σ).flag f = r.flag f := by
  rw [flag, flag, field?, field?, get?_renumber]
  cases r.get? f.key <;> simp

@[simp] theorem str?_renumber (f : Field) : (r.renumber σ).str? f = r.str? f := by
  rw [str?, str?, field?, field?, get?_renumber]
  cases r.get? f.key <;> simp

@[simp] theorem shape?_renumber (f : Field) : (r.renumber σ).shape? f = r.shape? f := by
  rw [shape?, shape?, field?, field?, get?_renumber]
  cases r.get? f.key <;> simp

/-- A field that stands for no node when it is absent. -/
theorem node?_renumber {f : Field} (hf : f.absent?.bind Value.asNode? = none) :
    (r.renumber σ).node? f = (r.node? f).map (Node.renumber σ) := by
  rw [node?, node?, field?, field?, get?_renumber]
  cases r.get? f.key <;> simp [hf]

/-- A field that stands for an empty list when it is absent. -/
theorem nodes_renumber {f : Field} (hf : f.absent? = some (.list [])) :
    (r.renumber σ).nodes f = (r.nodes f).map (Node.renumber σ) := by
  rw [nodes, nodes, items, items, field?, field?, get?_renumber, hf]
  cases r.get? f.key with
  | none => rfl
  | some v =>
    simp only [Option.map_some, Option.some_or, Option.bind_some, Value.asList?_renumber]
    cases v.asList? with
    | none => rfl
    | some items => exact Value.filterMap_asNode?_renumberItem items

end Record

namespace Node

variable (n : Node)

@[simp] theorem id_renumber : (n.renumber σ).id = σ n.id := rfl

@[simp] theorem toRecord_renumber : (n.renumber σ).toRecord = n.toRecord.renumber σ := rfl

@[simp] theorem kind_renumber : (n.renumber σ).kind = n.kind := by simp [kind]

@[simp] theorem children_renumber :
    (n.renumber σ).children = n.children.map (Node.renumber σ) := by
  rw [children, children, toRecord_renumber, Record.renumber_eq, Record.entries, Record.entries,
    ← List.map_append, List.flatMap_map, List.map_flatMap]
  simp

/-! ### Walks -/

/-- A walk that skips nodes whatever their numbers visits the same, renumbered. -/
theorem visits_renumber {skip : Node → Bool} (hskip : ∀ n : Node, skip (n.renumber σ) = skip n) :
    (n.renumber σ).tree.visits skip = (n.tree.visits skip).map (Node.renumber σ) := by
  induction n using induction_on_children with
  | step n ih =>
    rw [visits_tree, visits_tree, hskip, List.map_cons, children_renumber, List.flatMap_map]
    refine congrArg (n.renumber σ :: ·) ?_
    split
    · rfl
    · rw [List.map_flatMap]
      exact List.flatMap_congr ih

@[simp] theorem all_renumber : (n.renumber σ).all = n.all.map (Node.renumber σ) :=
  visits_renumber n fun _ => rfl

/-! ### Renumbering twice -/

/-- To renumber twice is to renumber once. -/
theorem renumber_renumber (σ τ : Nat → Nat) (n : Node) :
    (n.renumber σ).renumber τ = n.renumber (τ ∘ σ) := by
  induction n using induction_on_children with
  | step n ih =>
    have hvalue : ∀ e ∈ n.entries, (e.2.renumber σ).renumber τ = e.2.renumber (τ ∘ σ) := by
      intro e he
      have hchild : ∀ c ∈ e.2.childNodes, (c.renumber σ).renumber τ = c.renumber (τ ∘ σ) :=
        fun c hc => ih c (List.mem_flatMap.mpr ⟨e, he, hc⟩)
      -- A value has nodes only if it is one or lists them.
      generalize e.2 = v at hchild
      cases v with
      | node id r => exact congrArg toValue (hchild ⟨r, id⟩ (List.mem_singleton_self _))
      | list items =>
        rw [Value.renumber_list, Value.renumber_list, Value.renumber_list, List.map_map]
        refine congrArg Value.list (List.map_congr_left fun v hv => ?_)
        cases v with
        | node id r =>
          exact congrArg toValue (hchild ⟨r, id⟩ (List.mem_filterMap.mpr ⟨_, hv, rfl⟩))
        | _ => rfl
      | _ => rfl
    have hentries : ∀ es : List (String × Value), (∀ e ∈ es, e ∈ n.entries) →
        ((es.map fun e => (e.1, e.2.renumber σ)).map fun e => (e.1, e.2.renumber τ)) =
          es.map fun e => (e.1, e.2.renumber (τ ∘ σ)) := by
      intro es hes
      rw [List.map_map]
      exact List.map_congr_left fun e he => congrArg (Prod.mk e.1) (hvalue e (hes e he))
    simp only [renumber, Record.renumber_eq, hentries n.declared fun e he =>
      List.mem_append_left _ he, hentries n.extra fun e he => List.mem_append_right _ he,
      Function.comp_apply]

/-! ### The same but for the numbers -/

/-- The node with every number `0`. -/
def unnumbered (n : Node) : Node := n.renumber fun _ => 0

@[simp] theorem unnumbered_renumber (σ : Nat → Nat) (n : Node) :
    (n.renumber σ).unnumbered = n.unnumbered :=
  renumber_renumber σ _ n

theorem length_all_eq {n m : Node} (h : n.unnumbered = m.unnumbered) :
    n.all.length = m.all.length := by
  have := congrArg (fun n => n.all.length) h
  simpa [unnumbered] using this

end Node

/-! ### Putting numbers back -/

/-- Lists whose items agree under `f`, and under `g` as it is put together, are the same. -/
theorem eq_of_map_of_flatMap {α β γ : Type} {f : α → β} {g : α → List γ} {as bs : List α}
    (hf : as.map f = bs.map f) (hg : as.flatMap g = bs.flatMap g)
    (length : ∀ a b, f a = f b → (g a).length = (g b).length)
    (inj : ∀ a ∈ as, ∀ b, f a = f b → g a = g b → a = b) : as = bs := by
  induction as generalizing bs with
  | nil => exact (List.map_eq_nil_iff.mp hf.symm).symm
  | cons a as ih =>
    cases bs with
    | nil => cases hf
    | cons b bs =>
      obtain ⟨hab, hf⟩ := List.cons.inj hf
      rw [List.flatMap_cons, List.flatMap_cons] at hg
      obtain ⟨hga, hg⟩ := List.append_inj hg (length a b hab)
      rw [inj a List.mem_cons_self b hab hga,
        ih hf hg fun a ha => inj a (List.mem_cons_of_mem _ ha)]

namespace Value

/-- An item is told from the others by the node it is, if it is one, and the rest of it. -/
theorem eq_of_asNode? {v w : Value} (h : renumberItem (fun _ => 0) v = renumberItem (fun _ => 0) w)
    (hn : v.asNode? = w.asNode?) : v = w := by
  cases v with
  | node id r =>
    cases w with
    | node id' r' => cases hn; rfl
    | _ => cases hn
  | _ =>
    cases w with
    | node id' r' => cases hn
    | _ => exact h

/-- Values that are the same but for the numbers, and whose nodes are the same, are the same. -/
theorem eq_of_childNodes {v w : Value} (h : (v.renumber fun _ => 0) = w.renumber fun _ => 0)
    (hc : v.childNodes = w.childNodes) : v = w := by
  cases v with
  | node id r =>
    cases w with
    | node id' r' => cases hc; rfl
    | list => rw [renumber_list] at h; cases h
    | _ => cases h
  | list items =>
    cases w with
    | list items' =>
      rw [renumber_list, renumber_list, Value.list.injEq] at h
      refine congrArg Value.list (eq_of_map_of_flatMap (g := fun v => v.asNode?.toList) h ?_
        (fun v w hvw => ?_)
        fun v _ w hvw hn => eq_of_asNode? hvw (by simpa using congrArg List.head? hn))
      · rw [childNodes, childNodes, List.filterMap_eq_flatMap_toList,
          List.filterMap_eq_flatMap_toList] at hc
        exact hc
      · have hn := congrArg (fun v => v.asNode?.isSome) hvw
        rw [asNode?_renumberItem, asNode?_renumberItem, Option.isSome_map, Option.isSome_map] at hn
        rw [Option.length_toList, Option.length_toList, hn]
    | _ => rw [renumber_list] at h; cases h
  | _ =>
    cases w with
    | list => rw [renumber_list] at h; cases h
    | node => cases h
    | _ => exact h

end Value

/-- Records that are the same but for the numbers, and whose nodes are the same, are the same. -/
theorem Record.eq_of_childNodes {r r' : Record Value}
    (h : (r.renumber fun _ => 0) = r'.renumber fun _ => 0)
    (hc : r.entries.flatMap (·.2.childNodes) = r'.entries.flatMap (·.2.childNodes)) : r = r' := by
  rw [renumber_eq, renumber_eq, Record.mk.injEq] at h
  obtain ⟨hdeclared, hextra, hfrozen⟩ := h
  have hentries : r.entries = r'.entries := by
    refine eq_of_map_of_flatMap (f := fun e => (e.1, e.2.renumber fun _ => 0)) ?_ hc
      (fun e e' he => ?_) fun e _ e' he hn => ?_
    · rw [entries, entries, List.map_append, List.map_append, hdeclared, hextra]
    · have := congrArg (fun e => e.2.childNodes.length) he
      simpa using this
    · obtain ⟨hkey, hvalue⟩ := Prod.mk.inj he
      exact Prod.ext hkey (Value.eq_of_childNodes hvalue hn)
  have hlength : r.declared.length = r'.declared.length := by
    simpa using congrArg List.length hdeclared
  obtain ⟨hd, he⟩ := List.append_inj hentries hlength
  obtain ⟨declared, extra, frozen⟩ := r
  obtain ⟨declared', extra', frozen'⟩ := r'
  cases hd
  cases he
  cases hfrozen
  rfl

namespace Node

theorem map_id_all (n : Node) :
    n.all.map (·.id) = n.id :: n.children.flatMap fun c => c.all.map (·.id) := by
  rw [all_eq, List.map_cons, List.map_flatMap]

/-- Programs that are the same but for the numbers, with the same numbers, are the same. -/
theorem eq_of_unnumbered {n m : Node} (h : n.unnumbered = m.unnumbered)
    (hid : n.all.map (·.id) = m.all.map (·.id)) : n = m := by
  induction n using induction_on_children generalizing m with
  | step n ih =>
    rw [map_id_all, map_id_all, List.cons.injEq] at hid
    have hbelow : n.children.map unnumbered = m.children.map unnumbered := by
      have := congrArg children h
      rwa [unnumbered, unnumbered, children_renumber, children_renumber] at this
    have hchildren : n.children = m.children :=
      eq_of_map_of_flatMap hbelow hid.2
        (fun c c' hc => by rw [List.length_map, List.length_map, length_all_eq hc])
        fun c hc c' => ih c hc
    obtain ⟨r, id⟩ := n
    obtain ⟨r', id'⟩ := m
    obtain rfl : id = id' := hid.1
    exact congrArg (mk · id) (Record.eq_of_childNodes (congrArg toRecord h) hchildren)

end Node

/-- Numbers can be replaced by as many others without making any two the same. -/
theorem exists_injective_map {l l' : List Nat} (hl : l.Nodup) (hl' : l'.Nodup)
    (h : l.length = l'.length) : ∃ σ : Nat → Nat, Function.Injective σ ∧ l.map σ = l' := by
  -- every other number goes beyond all that are given
  let σ (i : Nat) : Nat := (l'[l.idxOf i]?).getD (l'.sum + 1 + i)
  have hin : ∀ i ∈ l, ∃ hi : l.idxOf i < l'.length, σ i = l'[l.idxOf i] := fun i hi => by
    have hlt : l.idxOf i < l'.length := h ▸ List.idxOf_lt_length_of_mem hi
    exact ⟨hlt, by simp [σ, List.getElem?_eq_getElem hlt]⟩
  have hout : ∀ i, i ∉ l → σ i = l'.sum + 1 + i := fun i hi => by
    simp [σ, List.idxOf_eq_length hi, h]
  have hle : ∀ i ∈ l, σ i ≤ l'.sum := fun i hi => by
    obtain ⟨hlt, heq⟩ := hin i hi
    rw [heq]
    exact List.le_sum_of_mem (List.getElem_mem hlt)
  refine ⟨σ, fun i j hij => ?_, List.ext_getElem (by simpa using h) fun k hk hk' => ?_⟩
  · by_cases hi : i ∈ l <;> by_cases hj : j ∈ l
    · obtain ⟨hlt, hi'⟩ := hin i hi
      obtain ⟨hlt', hj'⟩ := hin j hj
      rw [hi', hj', hl'.getElem_inj_iff] at hij
      exact (List.idxOf_inj hi).mp hij
    · have := hle i hi
      have := hout j hj
      omega
    · have := hle j hj
      have := hout i hi
      omega
    · have := hout i hi
      have := hout j hj
      omega
  · have hk : k < l.length := by simpa using hk
    obtain ⟨_, heq⟩ := hin l[k] (List.getElem_mem hk)
    rw [List.getElem_map, heq]
    simp [hl.idxOf_getElem]

/-- Of two programs that are the same but for the numbers, which are the nodes' own in both, one is
the other renumbered. -/
theorem Node.Apart.exists_renumber {n m : Node} (hn : n.Apart) (hm : m.Apart)
    (h : n.unnumbered = m.unnumbered) : ∃ σ, Function.Injective σ ∧ m = n.renumber σ := by
  obtain ⟨σ, hσ, hids⟩ := exists_injective_map hn hm (by
    rw [List.length_map, List.length_map, length_all_eq h])
  refine ⟨σ, hσ, eq_of_unnumbered ?_ ?_⟩
  · rw [unnumbered_renumber, h]
  · rw [all_renumber, ← hids, List.map_map, List.map_map]
    rfl

end TypeSketch
