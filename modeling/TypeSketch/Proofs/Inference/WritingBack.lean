import TypeSketch.Proofs.Inference.Stating
import TypeSketch.Proofs.Program.Editing

/-!
# Inference — writing back

Shapes are written to nodes that stay open, under keys that hold shapes and never nodes.  So no
write fails and none changes what the walk goes on to (`Board.assign_spec`), and in the program that
comes out every node is where it was, with what was due to it (`Board.writeBack_spec`).

The walk that writes is a walk that changes what it visits (`Node.edit`), so it looks for the
children of a node only after it has written to it. That the writing leaves them is the first half
here: shapes hold no nodes, neither does what they take the place of (`Writable`), and then the
nodes below a record are the same before and after (`Record.flatMap_entries_set`).
-/

namespace TypeSketch

/-! ### Writing a key -/

/-- What is read off a table one entry after the other stays if nothing is read off the entry that
is written. -/
theorem Assoc.flatMap_put {α β : Type} {k : String} {v : α} {t : List (String × α)}
    {g : α → List β} (hv : g v = []) (h : ∀ w, t.lookup k = some w → g w = []) :
    (put k v t).flatMap (fun e => g e.2) = t.flatMap fun e => g e.2 := by
  induction t with
  | nil => simp [put, hv]
  | cons e rest ih =>
    obtain ⟨k', w⟩ := e
    by_cases hk : k' = k
    · subst hk
      simp [put, hv, h w (by simp)]
    · have hk' : (k == k') = false := by simpa using fun e => hk e.symm
      have hrest : ∀ w, rest.lookup k = some w → g w = [] := fun w hw =>
        h w (by rw [List.lookup_cons, hk']; exact hw)
      simp [put, hk, ih hrest]

/-- What is read off a record one entry after the other stays if nothing is read off the entry that
is written. -/
theorem Record.flatMap_entries_set {β : Type} {r : Record Value} {k : String} {v : Value}
    {g : Value → List β} (hv : g v = []) (h : ∀ w, r.get? k = some w → g w = []) :
    (r.set k v).entries.flatMap (fun e => g e.2) = r.entries.flatMap fun e => g e.2 := by
  rw [set]
  split
  · next hk =>
    obtain ⟨w, hw⟩ := Option.isSome_iff_exists.mp hk
    have hg : ∀ w, r.declared.lookup k = some w → g w = [] := fun w hw => h w (by simp [get?, hw])
    simp only [entries, List.flatMap_append, Assoc.flatMap_put hv hg]
  · next hk =>
    have hnone : r.declared.lookup k = none := Option.not_isSome_iff_eq_none.mp hk
    have hg : ∀ w, r.extra.lookup k = some w → g w = [] := fun w hw =>
      h w (by simp [get?, hnone, hw])
    simp only [entries, List.flatMap_append, Assoc.flatMap_put hv hg]

/-- The record with values written to it one after the other. -/
def Record.setAll (r : Record Value) (ws : List (String × Value)) : Record Value :=
  ws.foldl (fun r w => r.set w.1 w.2) r

/-- The last value written to a key is found under it. -/
theorem Record.get?_setAll (r : Record Value) (ws : List (String × Value)) (key : String) :
    (r.setAll ws).get? key = (ws.reverse.lookup key).or (r.get? key) := by
  induction ws generalizing r with
  | nil => rfl
  | cons w ws ih =>
    obtain ⟨k, v⟩ := w
    have hset : (r.set k v).get? key = ([(k, v)].lookup key).or (r.get? key) := by
      by_cases hk : key = k
      · subst hk
        simp [get?_set_self]
      · have hk' : (key == k) = false := by simpa using hk
        simp [get?_set_of_ne hk, List.lookup_cons, hk']
    calc ((r.set k v).setAll ws).get? key
        = (ws.reverse.lookup key).or ((r.set k v).get? key) := ih _
      _ = (ws.reverse.lookup key).or (([(k, v)].lookup key).or (r.get? key)) := by rw [hset]
      _ = (((k, v) :: ws).reverse.lookup key).or (r.get? key) := by
        rw [List.reverse_cons, List.lookup_append, Option.or_assoc]

/-- An entry is a shape under a key that inference writes. -/
def IsWritten (e : String × Value) : Prop :=
  (∃ f ∈ Attr.written, f.key = e.1) ∧ ∃ s : Shape, e.2 = s.toValue

namespace Record

/-- Entries in their places, where shapes may be written over. -/
def Overwritten (es es' : List (String × Value)) : Prop :=
  List.Forall₂ (fun e e' => e'.1 = e.1 ∧ (e' = e ∨ IsWritten e')) es es'

theorem overwritten_self (es : List (String × Value)) : Overwritten es es :=
  List.forall₂_same.mpr fun _ _ => ⟨rfl, .inl rfl⟩

theorem Overwritten.map_fst {es es' : List (String × Value)} (h : Overwritten es es') :
    es'.map Prod.fst = es.map Prod.fst := by
  induction h with
  | nil => rfl
  | cons he _ ih => rw [List.map_cons, List.map_cons, he.1, ih]

/-- An entry that is there may be written over again. -/
theorem Overwritten.put {es es' : List (String × Value)} (h : Overwritten es es') {k : String}
    {v : Value} (hv : IsWritten (k, v)) (hk : k ∈ es'.map Prod.fst) :
    Overwritten es (Assoc.put k v es') := by
  refine forall₂_trans_of_mem h (Assoc.forall₂_put v hk)
    fun e _ e' _ e'' _ ⟨hkey, he⟩ ⟨hkey', he'⟩ => ⟨hkey'.trans hkey, ?_⟩
  rcases he' with rfl | rfl
  · exact he
  · exact .inr hv

/-- A record in which shapes are written over what was there, or added after it under keys that were
not. -/
structure Restated (r r' : Record Value) : Prop where
  declared : Overwritten r.declared r'.declared
  extra : ∃ kept new, r'.extra = kept ++ new ∧ Overwritten r.extra kept ∧
    (new.map Prod.fst).Nodup ∧ ∀ e ∈ new, IsWritten e ∧ r.get? e.1 = none
  frozen : r'.frozen = r.frozen

variable {r r' : Record Value}

theorem restated_self (r : Record Value) : r.Restated r :=
  ⟨overwritten_self _, ⟨_, [], (List.append_nil _).symm, overwritten_self _, .nil, nofun⟩, rfl⟩

/-- One more shape may be written to a record. -/
theorem Restated.set (h : r.Restated r') {k : String} {v : Value} (hv : IsWritten (k, v)) :
    r.Restated (r'.set k v) := by
  obtain ⟨kept, new, hextra, hkept, hnodup, hnew⟩ := h.extra
  refine ⟨?_, ?_, (frozen_set ..).trans h.frozen⟩ <;> rw [Record.set] <;> split
  · next hk => exact h.declared.put hv (Assoc.lookup_isSome_iff.mp hk)
  · exact h.declared
  · exact h.extra
  · next hk =>
    dsimp only
    rw [hextra, Assoc.put_append]
    split
    · next hmem => exact ⟨_, new, rfl, hkept.put hv hmem, hnodup, hnew⟩
    · next hmem =>
      -- the key stood nowhere before anything was added
      have hdeclared : r.declared.lookup k = none := by
        rw [Assoc.lookup_eq_none_iff, ← h.declared.map_fst, ← Assoc.lookup_eq_none_iff]
        exact Option.not_isSome_iff_eq_none.mp hk
      have habsent : r.get? k = none := by
        rw [get?, hdeclared]
        exact Assoc.lookup_eq_none_iff.mpr (hkept.map_fst ▸ hmem)
      refine ⟨kept, _, rfl, hkept, ?_, fun e he => ?_⟩
      · rw [Assoc.map_fst_put]
        split
        · exact hnodup
        · next hfresh => exact List.concat_eq_append ▸ hnodup.concat hfresh
      · rcases Assoc.mem_of_mem_put he with rfl | he
        · exact ⟨hv, habsent⟩
        · exact hnew e he

end Record

/-- The node with the shapes that are due to it. -/
def Node.given (n : Node) (due : List (Callback × Shape)) : Node :=
  { n with toRecord := n.toRecord.setAll (due.map fun d => (d.1.field.key, d.2.toValue)) }

namespace Board

/-! ### Writing to a node -/

/-- A node is open, and what inference writes to holds no nodes. -/
structure Writable (n : Node) : Prop where
  frozen : n.frozen = false
  plain : ∀ f ∈ Attr.written, ∀ v, n.get? f.key = some v → v.childNodes = []

theorem written_spec {f : Field} (hf : f ∈ Attr.written) :
    f.kind = .shape ∧ f.key ≠ Attr.kind.key := by
  simp only [Attr.written, List.mem_cons, List.not_mem_nil, or_false] at hf
  rcases hf with rfl | rfl | rfl <;> exact ⟨rfl, by decide⟩

theorem written_eq_of_key {f g : Field} (hf : f ∈ Attr.written) (hg : g ∈ Attr.written)
    (h : f.key = g.key) : f = g := by
  simp only [Attr.written, List.mem_cons, List.not_mem_nil, or_false] at hf hg
  rcases hf with rfl | rfl | rfl <;> rcases hg with rfl | rfl | rfl <;>
    first | rfl | exact absurd h (by decide)

/-- A shape can be written to an open node. -/
theorem replace_shape {n : Node} {f : Field} (hn : n.frozen = false) (hf : f ∈ Attr.written)
    (s : Shape) :
    n.replace (f.entry s.toValue) = .ok { n with toRecord := n.toRecord.set f.key s.toValue } := by
  obtain ⟨hkind, hkey⟩ := written_spec hf
  have hk : (f.key == Attr.kind.key) = false := by simpa using hkey
  simp [Node.replace, Node.checkKey, Record.replace, Record.check, Field.entry, hn, hkind, hk,
    Kind.admits, Entry.stored, Shape.toValue, Value.kind, bind, Except.bind, pure, Except.pure]

/-- A node stays writable when a shape is written to it. -/
theorem Writable.set {n : Node} (hn : Writable n) (f : Field) (s : Shape) :
    Writable { n with toRecord := n.toRecord.set f.key s.toValue } := by
  refine ⟨?_, fun g hg v hv => ?_⟩
  · exact (Record.frozen_set ..).trans hn.frozen
  · by_cases hk : g.key = f.key
    · rw [hk, Record.get?_set_self] at hv
      cases hv
      rfl
    · rw [Record.get?_set_of_ne hk] at hv
      exact hn.plain g hg v hv

/-- What has become of a node to which shapes were due. -/
structure Assigned (due : List (Callback × Shape)) (n n' : Node) : Prop where
  id_eq : n'.id = n.id
  frozen : n'.frozen = false
  children_eq : n'.children = n.children
  restated : n.Restated n'.toRecord
  get?_eq : ∀ key x, (∀ d ∈ due, d.1.field.key = key → some d.2.toValue = x) →
    (n.get? key = x ∨ ∃ d ∈ due, d.1.field.key = key) → n'.get? key = x

theorem isWritten_of_field {f : Field} (hf : f ∈ Attr.written) (s : Shape) :
    IsWritten (f.key, s.toValue) := ⟨⟨f, hf, rfl⟩, s, rfl⟩

/-- What is due to a node is written over what was there, or after it. -/
theorem restated_assign {due : List (Callback × Shape)}
    (hdue : ∀ d ∈ due, d.1.field ∈ Attr.written) {r : Record Value} {n : Node} (hn : Writable n)
    (h : r.Restated n.toRecord) (count : Nat) : r.Restated (assign n count due).1.toRecord := by
  induction due generalizing n count with
  | nil => exact h
  | cons d due ih =>
    have hd := hdue d List.mem_cons_self
    rw [assign, replace_shape hn.frozen hd]
    exact ih (fun d hd => hdue d (List.mem_cons_of_mem _ hd)) (hn.set d.1.field d.2)
      (h.set (isWritten_of_field hd d.2)) _

/-- Shapes that are due to a writable node go to it without fail, and each of them counts. -/
theorem assign_spec {due : List (Callback × Shape)} (hdue : ∀ d ∈ due, d.1.field ∈ Attr.written)
    {n : Node} (hn : Writable n) (count : Nat) :
    Assigned due n (assign n count due).1 ∧
      (assign n count due).2 = (count + due.length, none) := by
  induction due generalizing n count with
  | nil =>
    exact ⟨⟨rfl, hn.frozen, rfl, Record.restated_self _, fun key x _ hx =>
      hx.resolve_right (by simp)⟩, rfl⟩
  | cons d due ih =>
    have hd := hdue d List.mem_cons_self
    -- the first shape goes to the node, and the others to what becomes of it
    rw [assign, replace_shape hn.frozen hd]
    obtain ⟨h, hgoes⟩ := ih (fun d hd => hdue d (List.mem_cons_of_mem _ hd)) (hn.set d.1.field d.2)
      (count + 1)
    have hrestated := restated_assign (fun d hd => hdue d (List.mem_cons_of_mem _ hd))
      (hn.set d.1.field d.2) ((Record.restated_self _).set (isWritten_of_field hd d.2)) (count + 1)
    refine ⟨⟨h.id_eq, h.frozen, h.children_eq.trans ?_, hrestated, fun key x hsame hx => ?_⟩, ?_⟩
    · exact Record.flatMap_entries_set rfl (hn.plain _ hd)
    · refine h.get?_eq key x (fun d hd => hsame d (List.mem_cons_of_mem _ hd)) ?_
      by_cases hk : key = d.1.field.key
      · left
        rw [hk, Record.get?_set_self]
        exact hsame d List.mem_cons_self hk.symm
      · rcases hx with hx | ⟨d', hd', hk'⟩
        · left
          rw [Record.get?_set_of_ne hk]
          exact hx
        · rcases List.mem_cons.mp hd' with rfl | hd'
          · exact absurd hk'.symm hk
          · exact .inr ⟨d', hd', hk'⟩
    · rw [List.length_cons, Nat.add_comm due.length, ← Nat.add_assoc]
      exact hgoes

/-- Each shape that is due goes to the node, and counts. -/
theorem assign_eq {due : List (Callback × Shape)} (hdue : ∀ d ∈ due, d.1.field ∈ Attr.written)
    {n : Node} (hn : Writable n) (count : Nat) :
    assign n count due = (n.given due, count + due.length, none) := by
  induction due generalizing n count with
  | nil => rfl
  | cons d due ih =>
    rw [assign, replace_shape hn.frozen (hdue d List.mem_cons_self)]
    refine (ih (fun d hd => hdue d (List.mem_cons_of_mem _ hd)) (hn.set d.1.field d.2) _).trans ?_
    rw [List.length_cons, Nat.add_comm due.length, ← Nat.add_assoc]
    rfl

theorem assigned_given {due : List (Callback × Shape)} (hdue : ∀ d ∈ due, d.1.field ∈ Attr.written)
    {n : Node} (hn : Writable n) : Assigned due n (n.given due) := by
  have h := (assign_spec hdue hn 0).1
  rwa [assign_eq hdue hn] at h

theorem writable_of_made {n : Node} (hn : n.Made) : Writable n :=
  ⟨hn.frozen, fun _ hf _ hv => hn.childNodes_of_written hf hv⟩

/-! ### Writing to a program -/

/-- What is due to a node. -/
def dueAt (b : Board) (n : Node) : List (Callback × Shape) :=
  b.assignments.filter fun (callback, _) => callback.node == n.id

variable {b : Board} {root n n' m : Node}

theorem mem_dueAt {c : Callback} {s : Shape} : (c, s) ∈ b.dueAt n ↔
    c.node = n.id ∧ ∃ path, Facts.Asks b.callbacks path c ∧ b.shape? path = some s := by
  rw [dueAt, List.mem_filter, mem_assignments, and_comm]
  simp

theorem writeBack_eq (b : Board) (root : Node) :
    let result := (root.edit (Tour.visit fun n count => assign n count (b.dueAt n))).run ⟨0, none⟩
    b.writeBack root = (result.1,
      match result.2.stopped with
      | some e => .error e
      | none => .ok result.2.state) :=
  rfl

theorem field_of_dueAt
    (hfields : ∀ path c, Facts.Asks b.callbacks path c → c.field ∈ Attr.written) :
    ∀ d ∈ b.dueAt n, d.1.field ∈ Attr.written := fun d hd => by
  obtain ⟨-, path, hc, -⟩ := mem_dueAt.mp hd
  exact hfields path d.1 hc

/-- Writing back comes off where each node that it reaches can be written to: it writes whatever is
due to these, and `P` relates the program to what becomes of it if it relates each node to what it
is with the shapes given to it and the nodes below it changed. -/
theorem writeBack_gives {G : Node → Prop} {P : Node → Node → Prop}
    (down : ∀ n, G n → n.frozen = false → ∀ c ∈ n.children, G c)
    (writable : ∀ n, G n → n.frozen = false → Writable n)
    (frozen : ∀ n, G n → n.frozen = true → P n n)
    (opened : ∀ n r, G n → n.frozen = false → (n.given (b.dueAt n)).Edited P r → P n ⟨r, n.id⟩)
    (hfields : ∀ path c, Facts.Asks b.callbacks path c → c.field ∈ Attr.written)
    (hroot : G root) : P root (b.writeBack root).1 ∧
      (b.writeBack root).2 = .ok (root.reached.map fun n => (b.dueAt n).length).sum := by
  have hruns : Tour.Runs (root.edit (Tour.visit fun n count => assign n count (b.dueAt n)))
      (P root) (root.reached.map fun n => (b.dueAt n).length).sum := by
    refine Node.runs_edit (R := fun n n' => n' = n.given (b.dueAt n)) down (fun n hn hf => ?_)
      frozen (fun n n' r hn hf hn' => hn' ▸ opened n r hn hf) hroot
    have hwritable := writable n hn hf
    refine Tour.runs_visit fun count => ?_
    rw [assign_eq (field_of_dueAt hfields) hwritable]
    have h := assigned_given (field_of_dueAt (n := n) hfields) hwritable
    exact ⟨⟨rfl, h.frozen, h.children_eq⟩, rfl⟩
  obtain ⟨hrelated, hgoes⟩ := hruns 0
  refine ⟨hrelated, ?_⟩
  rw [writeBack_eq, hgoes, Nat.zero_add]

/-- Writing back, by what is known of the nodes that shapes have gone to. -/
theorem writeBack_relates {G : Node → Prop} {P : Node → Node → Prop}
    (down : ∀ n, G n → ∀ c ∈ n.children, G c)
    (writable : ∀ n, G n → n.frozen = false → Writable n)
    (frozen : ∀ n, G n → n.frozen = true → P n n)
    (opened : ∀ n n' r, G n → n.frozen = false → Assigned (b.dueAt n) n n' → n'.Edited P r →
      P n ⟨r, n'.id⟩)
    (hfields : ∀ path c, Facts.Asks b.callbacks path c → c.field ∈ Attr.written)
    (hroot : G root) : P root (b.writeBack root).1 ∧
      (b.writeBack root).2 = .ok (root.reached.map fun n => (b.dueAt n).length).sum :=
  writeBack_gives (fun n hn _ => down n hn) writable frozen
    (fun n _ hn hf =>
      opened n _ _ hn hf (assigned_given (field_of_dueAt hfields) (writable n hn hf)))
    hfields hroot

/-- Writing back does not fail, and every node gets what is due to it. -/
theorem writeBack_spec (made : root.Made)
    (hfields : ∀ path c, Facts.Asks b.callbacks path c → c.field ∈ Attr.written) :
    List.Forall₂ (fun n m => ∃ n', Assigned (b.dueAt n) n n' ∧ n'.Kept m) root.all
        (b.writeBack root).1.all ∧
      ∃ count, (b.writeBack root).2 = .ok count := by
  refine (writeBack_relates (G := Node.Made)
    (P := fun n m => List.Forall₂ (fun n m => ∃ n', Assigned (b.dueAt n) n n' ∧ n'.Kept m) n.all
      m.all)
    (fun n hn => hn.children) (fun n hn _ => writable_of_made hn)
    (fun n hn hf => ?_) (fun n n' r _ _ hn' hedited => ?_) hfields made).imp_right fun h => ⟨_, h⟩
  · rw [hn.frozen] at hf
    cases hf
  · rw [Node.all_eq, Node.all_eq, ← hn'.children_eq]
    exact .cons ⟨n', hn', hedited.kept⟩ (List.rel_flatMap hedited.children fun _ _ h => h)

/-- A field that is asked to get the shape of one path gets it, and stays if the path has none. -/
theorem Assigned.carries {f : Field} {path : String} (h : Assigned (b.dueAt n) n n')
    (hm : n'.Kept m) (hn : Writable n) (hf : f ∈ Attr.written)
    (hfields : ∀ path c, Facts.Asks b.callbacks path c → c.field ∈ Attr.written)
    (hasks : ∀ q, Facts.Asks b.callbacks q ⟨n.id, f⟩ ↔ q = path) :
    m.get? f.key = ((b.shape? path).map Shape.toValue).or (n.get? f.key) := by
  -- whatever is due under the key of the field is the shape of the path
  have hsame : ∀ d ∈ b.dueAt n, d.1.field.key = f.key → b.shape? path = some d.2 := by
    rintro ⟨⟨id, g⟩, s⟩ hd hk
    obtain ⟨hid, q, hq, hs⟩ := mem_dueAt.mp hd
    cases hid
    cases written_eq_of_key (hfields q _ hq) hf hk
    exact (hasks q).mp hq ▸ hs
  have hn' : n'.get? f.key = ((b.shape? path).map Shape.toValue).or (n.get? f.key) := by
    cases hs : b.shape? path with
    | none =>
      refine h.get?_eq _ _ (fun d hd hk => ?_) (.inl rfl)
      rw [hsame d hd hk] at hs
      cases hs
    | some s =>
      refine h.get?_eq _ _ (fun d hd hk => ?_) (.inr ⟨(⟨n.id, f⟩, s), ?_, rfl⟩)
      · have hd := hsame d hd hk
        rw [hs] at hd
        cases hd
        rfl
      · exact mem_dueAt.mpr ⟨rfl, path, (hasks path).mpr rfl, hs⟩
  rw [← hn']
  -- neither a shape nor what was there before holds nodes for the walk to change
  refine hm.plain f.key fun v hv => ?_
  rw [hn'] at hv
  cases hs : b.shape? path with
  | none =>
    rw [hs] at hv
    exact hn.plain f hf v hv
  | some s =>
    rw [hs] at hv
    cases hv
    rfl

/-- A field that no shape goes to stays. -/
theorem Assigned.keeps {key : String} (h : Assigned (b.dueAt n) n n') (hm : n'.Kept m)
    (hfields : ∀ path c, Facts.Asks b.callbacks path c → c.field ∈ Attr.written)
    (hkey : ∀ f ∈ Attr.written, f.key ≠ key)
    (hplain : ∀ v, n.get? key = some v → v.childNodes = []) : m.get? key = n.get? key := by
  have hn' : n'.get? key = n.get? key := by
    refine h.get?_eq _ _ (fun d hd hk => ?_) (.inl rfl)
    obtain ⟨-, q, hq, -⟩ := mem_dueAt.mp hd
    exact absurd hk (hkey _ (hfields q d.1 hq))
  rw [← hn']
  exact hm.plain key fun v hv => hplain v (hn' ▸ hv)

end Board

end TypeSketch
