import Mathlib.Algebra.GroupWithZero.Nat
import TypeSketch.Proofs.Program.Walk
import TypeSketch.Proofs.Record.Sameness
import TypeSketch.Proofs.Tour

/-!
# Programs — walks that change nodes

A walk whose visits are not stopped, leave a node open and keep the nodes below it visits the nodes
that it reaches (`Node.reached`), each once, in the order of the tree: those that are not frozen,
nor below what is.  What it makes of a node is what the visit made of it, but for the nodes below
(`Record.Edited`, `Node.carries_edit`).  `Tour.Runs x Q count` says of a tour that counts that it is
not stopped, comes out as something that meets `Q` and adds `count` (`Node.runs_edit`).
-/

namespace TypeSketch

namespace Tour

variable {α γ : Type}

/-- Unless it has stopped before, the tour goes on, comes out as something that meets `Q`, and adds
`count` to what it counts. -/
def Runs (x : StateM (Tour Nat) α) (Q : α → Prop) (count : Nat) : Prop :=
  ∀ start : Nat, Q (x.run ⟨start, none⟩).1 ∧ (x.run ⟨start, none⟩).2 = ⟨start + count, none⟩

variable {Q : α → Prop} {n : Nat} {x : StateM (Tour Nat) α} {cost : γ → Nat}

/-- A visit that no error stops goes on. -/
theorem runs_visit {f : α → Nat → α × Nat × Option Error} {a : α}
    (h : ∀ start, Q (f a start).1 ∧ (f a start).2 = (start + n, none)) :
    Runs (visit f a) Q n := by
  intro start
  obtain ⟨ha, hs⟩ := h start
  exact ⟨ha, congrArg (fun s : Nat × Option Error => Tour.mk s.1 s.2) hs⟩

theorem foldl_add_cost (cost : γ → Nat) (calls : List γ) (start : Nat) :
    calls.foldl (fun k c => k + cost c) start = start + (calls.map cost).sum := by
  induction calls generalizing start with
  | nil => rfl
  | cons c calls ih => rw [List.foldl_cons, ih, List.map_cons, List.sum_cons, Nat.add_assoc]

/-- A tour that counts what its calls cost. -/
theorem Carries.runs {calls : List γ} (h : Carries (fun k c => k + cost c) x Q calls) :
    Runs x Q (calls.map cost).sum := by
  intro start
  rw [← foldl_add_cost]
  exact h start

theorem Runs.carries {c : γ} (h : Runs x Q (cost c)) :
    Carries (fun k c => k + cost c) x Q [c] := h

end Tour

/-! ### Nodes below changed -/

namespace Value

/-- An item of a list whose nodes are changed. -/
inductive EditedItem (P : Node → Node → Prop) : Value → Value → Prop
  | node {n m : Node} (h : P n m) : EditedItem P n.toValue m.toValue
  | other {v : Value} (h : v.asNode? = none) : EditedItem P v v

/-- A value whose nodes are changed: each node it is or lists is replaced by a related one, and
nothing else is. -/
inductive Edited (P : Node → Node → Prop) : Value → Value → Prop
  | node {n m : Node} (h : P n m) : Edited P n.toValue m.toValue
  | list {items items' : List Value} (h : List.Forall₂ (EditedItem P) items items') :
      Edited P (.list items) (.list items')
  | other {v : Value} (h : v.childNodes = []) : Edited P v v

variable {P : Node → Node → Prop} {v w : Value}

theorem EditedItem.node_rel (h : EditedItem P v w) : Option.Rel P v.asNode? w.asNode? := by
  cases h with
  | node h => exact .some h
  | other h => rw [h]; exact .none

theorem Edited.nodes (h : Edited P v w) : List.Forall₂ P v.childNodes w.childNodes := by
  cases h with
  | node h => exact .cons h .nil
  | list h => exact List.rel_filterMap (fun _ _ h => h.node_rel) h
  | other h => rw [h]; exact .nil

/-- A value without nodes stays. -/
theorem Edited.plain (h : Edited P v w) (hv : v.childNodes = []) : w = v := by
  cases h with
  | node h => cases hv
  | other => rfl
  | list h =>
    rw [childNodes, List.filterMap_eq_nil_iff] at hv
    congr 1
    induction h with
    | nil => rfl
    | cons hw _ ih =>
      rw [List.forall_mem_cons] at hv
      obtain ⟨hitem, hitems⟩ := hv
      rw [ih hitems]
      cases hw with
      | node => cases hitem
      | other => rfl

end Value

namespace Record

/-- A record whose nodes are changed, under the same keys. -/
structure Edited (P : Node → Node → Prop) (r r' : Record Value) : Prop where
  declared : List.Forall₂ (fun e e' => e'.1 = e.1 ∧ Value.Edited P e.2 e'.2) r.declared r'.declared
  extra : List.Forall₂ (fun e e' => e'.1 = e.1 ∧ Value.Edited P e.2 e'.2) r.extra r'.extra
  frozen : r'.frozen = r.frozen

end Record

namespace Node

/-- A node after the nodes below it have been changed. -/
structure Kept (n m : Node) : Prop where
  id_eq : m.id = n.id
  plain : ∀ key, (∀ v, n.get? key = some v → v.childNodes = []) → m.get? key = n.get? key

end Node

namespace Record

variable {P : Node → Node → Prop} {r r' : Record Value}

/-- Entries that are changed one by one are found under the same keys. -/
theorem lookup_of_edited {es es' : List (String × Value)}
    (h : List.Forall₂ (fun e e' => e'.1 = e.1 ∧ Value.Edited P e.2 e'.2) es es') (key : String) :
    Option.Rel (Value.Edited P) (es.lookup key) (es'.lookup key) := by
  induction h with
  | nil => exact .none
  | @cons e e' es es' he _ ih =>
    obtain ⟨k, v⟩ := e
    obtain ⟨k', w⟩ := e'
    obtain ⟨hk, hv⟩ := he
    cases hk
    rw [List.lookup_cons, List.lookup_cons]
    cases key == k with
    | true => exact .some hv
    | false => exact ih

theorem Edited.get? (h : r.Edited P r') (key : String) :
    Option.Rel (Value.Edited P) (r.get? key) (r'.get? key) := by
  rw [get?_eq_lookup, get?_eq_lookup]
  exact lookup_of_edited (List.rel_append h.declared h.extra) key

/-- A record whose nodes are changed is kept but for them. -/
theorem Edited.kept {id : Nat} (h : r.Edited P r') : Node.Kept ⟨r, id⟩ ⟨r', id⟩ where
  id_eq := rfl
  plain key hplain := by
    have hrel := h.get? key
    change r'.get? key = r.get? key
    cases hv : r.get? key with
    | none =>
      rw [hv] at hrel
      cases hw : r'.get? key with
      | none => rfl
      | some w => rw [hw] at hrel; cases hrel
    | some v =>
      rw [hv] at hrel
      cases hw : r'.get? key with
      | none => rw [hw] at hrel; cases hrel
      | some w =>
        rw [hw] at hrel
        cases hrel with
        | some he => rw [he.plain (hplain v hv)]

theorem Edited.children {id : Nat} (h : r.Edited P r') :
    List.Forall₂ P (Node.children ⟨r, id⟩) (Node.children ⟨r', id⟩) :=
  List.rel_flatMap (List.rel_append h.declared h.extra) fun _ _ he => he.2.nodes

end Record

namespace Node

/-! ### Walks -/

/-- The nodes that a walk that changes nodes reaches: those that are not frozen, nor below what
is. -/
def reached (n : Node) : List Node := (n.tree.visits (·.frozen)).filter (!·.frozen)

theorem reached_of_frozen {n : Node} (h : n.frozen = true) : n.reached = [] := by
  simp [reached, visits_tree, h]

theorem reached_of_open {n : Node} (h : n.frozen = false) :
    n.reached = n :: n.children.flatMap reached := by
  rw [reached, visits_tree, List.filter_cons_of_pos (by simp [h]), h, if_neg (by simp),
    List.filter_flatMap]
  rfl

section

variable {σ γ : Type} {act : σ → γ → σ} {P : Node → Node → Prop} {callsOf : Node → List γ}

/-- A walk into a value goes through the nodes that it is or lists. -/
theorem carries_editChildren {f : Node → StateM (Tour σ) Node} {v : Value}
    (h : ∀ n ∈ v.childNodes, Tour.Carries act (f n) (P n) (callsOf n)) :
    Tour.Carries act (editChildren f v) (Value.Edited P v) (v.childNodes.flatMap callsOf) := by
  cases v with
  | node id r =>
    have hn := h ⟨r, id⟩ (List.mem_singleton_self _)
    exact (Tour.carries_map hn fun m hm => .node hm).of_eq (by simp [Value.childNodes])
  | list items =>
    refine Tour.carries_map (P := List.Forall₂ (Value.EditedItem P) items)
      (Tour.carries_mapM_parts fun v hv => ?_) fun ws hws => .list hws
    -- an item is a node that is replaced, or stays
    cases v with
    | node id r =>
      have hmem : (⟨r, id⟩ : Node) ∈ (Value.list items).childNodes :=
        List.mem_filterMap.mpr ⟨_, hv, rfl⟩
      exact (Tour.carries_map (h _ hmem) fun m hm => .node hm).of_eq (by simp [Value.asNode?])
    | _ => exact Tour.carries_pure (.other rfl)
  | _ => exact Tour.carries_pure (.other rfl)

/-- A walk into a record goes through the nodes in it, key by key. -/
theorem carries_mapValues {f : Value → StateM (Tour σ) Value} {k : Value → List γ}
    {r : Record Value}
    (h : ∀ e ∈ r.entries, Tour.Carries act (f e.2) (Value.Edited P e.2) (k e.2)) :
    Tour.Carries act (r.mapValues f) (r.Edited P) (r.entries.flatMap fun e => k e.2) := by
  have hentries : ∀ es : List (String × Value), (∀ e ∈ es, e ∈ r.entries) →
      Tour.Carries act (es.mapM fun e => return (e.1, ← f e.2))
        (List.Forall₂ (fun e e' => e'.1 = e.1 ∧ Value.Edited P e.2 e'.2) es)
        (es.flatMap fun e => k e.2) := fun es hes =>
    Tour.carries_mapM fun e he => Tour.carries_map (h e (hes e he)) fun w hw => ⟨rfl, hw⟩
  rw [Record.entries, List.flatMap_append]
  refine Tour.carries_bind (hentries _ fun e he => List.mem_append_left _ he) fun declared hd => ?_
  exact Tour.carries_map (hentries _ fun e he => List.mem_append_right _ he)
    fun extra he => ⟨hd, he, rfl⟩

end

section

variable {σ : Type} {act : σ → Node → σ} {visit : Node → StateM (Tour σ) Node} {G : Node → Prop}
  {P R : Node → Node → Prop}

/-- A walk into a node visits it, and then those below, as far as they are open. -/
theorem carries_editWithin (down : ∀ n, G n → n.frozen = false → ∀ c ∈ n.children, G c)
    (hvisit : ∀ n, G n → n.frozen = false → Tour.Carries act (visit n) (fun n' =>
      R n n' ∧ n'.frozen = false ∧ n'.children = n.children) [n])
    (frozen : ∀ n, G n → n.frozen = true → P n n)
    (opened : ∀ n n' r, G n → n.frozen = false → R n n' → n'.frozen = false →
      n'.children = n.children → n'.Edited P r → P n ⟨r, n'.id⟩) :
    ∀ (fuel : Nat) (n : Node), n.depth < fuel → G n →
      Tour.Carries act (editWithin visit fuel n) (P n) n.reached
  | fuel + 1, n, hdepth, hn => by
    rw [editWithin]
    cases hf : n.frozen with
    | true =>
      rw [reached_of_frozen hf]
      exact Tour.carries_pure (frozen n hn hf)
    | false =>
      rw [reached_of_open hf, ← List.singleton_append]
      refine Tour.carries_bind (hvisit n hn hf) fun n' ⟨hr, hopen, hchildren⟩ => ?_
      rw [hopen]
      have hrecord : Tour.Carries act (n'.mapValues (editChildren (editWithin visit fuel)))
          (n'.Edited P) (n.children.flatMap reached) := by
        refine (carries_mapValues (k := fun v => v.childNodes.flatMap reached) fun e he =>
          carries_editChildren fun c hc => ?_).of_eq ?_
        -- the visit has kept the children, which are less deep than the node was
        · have hmem : c ∈ n.children := hchildren ▸ List.mem_flatMap.mpr ⟨e, he, hc⟩
          have hlt := depth_lt_of_mem_children hmem
          exact carries_editWithin down hvisit frozen opened fuel c (by omega) (down n hn hf c hmem)
        · rw [← hchildren, children, List.flatMap_assoc]
      exact Tour.carries_map hrecord fun r hedited =>
        opened n n' r hn hf hr hopen hchildren hedited

/-- A walk whose visits leave a node open, and keep the nodes below it, visits every node that it
reaches. -/
theorem carries_edit (down : ∀ n, G n → n.frozen = false → ∀ c ∈ n.children, G c)
    (hvisit : ∀ n, G n → n.frozen = false → Tour.Carries act (visit n) (fun n' =>
      R n n' ∧ n'.frozen = false ∧ n'.children = n.children) [n])
    (frozen : ∀ n, G n → n.frozen = true → P n n)
    (opened : ∀ n n' r, G n → n.frozen = false → R n n' → n'.frozen = false →
      n'.children = n.children → n'.Edited P r → P n ⟨r, n'.id⟩)
    {n : Node} (hn : G n) : Tour.Carries act (edit visit n) (P n) n.reached :=
  carries_editWithin down hvisit frozen opened _ n (Nat.lt_succ_self _) hn

end

/-- Such a walk counts what each visit adds. -/
theorem runs_edit {visit : Node → StateM (Tour Nat) Node} {G : Node → Prop}
    {P R : Node → Node → Prop} {cost : Node → Nat}
    (down : ∀ n, G n → n.frozen = false → ∀ c ∈ n.children, G c)
    (hvisit : ∀ n, G n → n.frozen = false → Tour.Runs (visit n) (fun n' =>
      R n n' ∧ n'.frozen = false ∧ n'.children = n.children) (cost n))
    (frozen : ∀ n, G n → n.frozen = true → P n n)
    (opened : ∀ n n' r, G n → n.frozen = false → R n n' → n'.Edited P r → P n ⟨r, n'.id⟩)
    {n : Node} (hn : G n) :
    Tour.Runs (edit visit n) (P n) (n.reached.map cost).sum :=
  (carries_edit down (fun n hn hf => (hvisit n hn hf).carries) frozen
    (fun n n' r hn hf hr _ _ hedited => opened n n' r hn hf hr hedited) hn).runs

end Node

end TypeSketch
