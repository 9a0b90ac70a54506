import Mathlib.Logic.Relation
import TypeSketch.Proofs.Inference.InPlace
import TypeSketch.Proofs.Inference.Likeness

/-!
# Inference — once more

Inference of a program that inference has left makes nothing of it (`infer_idempotent`): it reports
the same, and not an entry of the program moves.  A shape that is written again, under keys that
hold the last shapes written there, changes no record (`Record.setAll_of_get?`), so no node that
writing back has been to (`Board.Rewrites`) is changed by it (`Board.writeBack_again`).  And the
second run finds the same shapes to write, as the program reads like the one before it
(`Board.likeness_rewrites`): the only field that is read and written both is that of a literal, to
which nothing goes as long as it shares its number with no variable.
-/

namespace TypeSketch

/-! ### Writing over -/

namespace Record

variable {r : Record Value} {k k' : String} {v w : Value}

/-- Writing what is there changes nothing. -/
theorem set_of_get? (h : r.get? k = some v) : r.set k v = r := by
  obtain ⟨declared, extra, frozen⟩ := r
  rw [set, Assoc.has]
  rw [get?] at h
  cases hd : declared.lookup k with
  | some u =>
    simp only [hd, Option.some.injEq] at h
    subst h
    simp [Assoc.put_of_lookup hd]
  | none =>
    simp only [hd] at h
    simp [Assoc.put_of_lookup h]

/-- The last value written to a key stays. -/
theorem set_set (r : Record Value) (k : String) (v w : Value) :
    (r.set k v).set k w = r.set k w := by
  by_cases hk : Assoc.has k r.declared = true
  · have hk' : Assoc.has k (Assoc.put k v r.declared) = true := by
      rw [Assoc.has, Assoc.lookup_put_self]
      rfl
    simp [set, hk, hk', Assoc.put_put]
  · simp [set, hk, Assoc.put_put]

/-- Where one of two keys has its place, the order of writing them does not matter. -/
theorem set_comm (hne : k ≠ k') (h : (r.get? k).isSome) :
    (r.set k v).set k' w = (r.set k' w).set k v := by
  have hhas {i j : String} (hij : i ≠ j) (u : Value) :
      Assoc.has i (Assoc.put j u r.declared) = Assoc.has i r.declared := by
    rw [Assoc.has, Assoc.lookup_put_of_ne hij, Assoc.has]
  by_cases hk : Assoc.has k r.declared = true
  · by_cases hk' : Assoc.has k' r.declared = true
    · simp [set, hk, hk', hhas hne, hhas hne.symm,
        Assoc.put_comm hne v w (Assoc.lookup_isSome_iff.mp hk)]
    · simp [set, hk, hk', hhas hne.symm]
  · by_cases hk' : Assoc.has k' r.declared = true
    · simp [set, hk, hk', hhas hne]
    · have hextra : k ∈ r.extra.map Prod.fst := by
        rw [← Assoc.lookup_isSome_iff]
        have hnone : r.declared.lookup k = none := Option.not_isSome_iff_eq_none.mp hk
        simpa [get?, hnone] using h
      simp [set, hk, hk', Assoc.put_comm hne v w hextra]

/-- What is written to a key that is written again leaves no trace where the key has its place. -/
theorem setAll_set (ws : List (String × Value)) (hk : k ∈ ws.map Prod.fst)
    (h : (r.get? k).isSome) : (r.set k v).setAll ws = r.setAll ws := by
  induction ws generalizing r with
  | nil => cases hk
  | cons e ws ih =>
    obtain ⟨k', w⟩ := e
    change ((r.set k v).set k' w).setAll ws = (r.set k' w).setAll ws
    by_cases he : k = k'
    · rw [he, set_set]
    · rw [set_comm he h]
      refine ih ((List.mem_cons.mp hk).resolve_left he) ?_
      rwa [get?_set_of_ne he]

/-- Writing changes nothing if each key holds the last value that is written to it. -/
theorem setAll_of_get? {ws : List (String × Value)}
    (h : ∀ key v, ws.reverse.lookup key = some v → r.get? key = some v) : r.setAll ws = r := by
  induction ws generalizing r with
  | nil => rfl
  | cons e ws ih =>
    obtain ⟨k, v⟩ := e
    simp only [List.reverse_cons, List.lookup_append] at h
    have hrest : r.setAll ws = r := ih fun key v hv => h key v (by rw [hv, Option.some_or])
    change (r.set k v).setAll ws = r
    cases hk : ws.reverse.lookup k with
    | some u =>
      have hmem : k ∈ ws.map Prod.fst := by
        have := Assoc.lookup_isSome_iff.mp (Option.isSome_of_eq_some hk)
        simpa using this
      rw [setAll_set ws hmem (Option.isSome_of_eq_some (h k u (by rw [hk, Option.some_or]))), hrest]
    | none =>
      rw [set_of_get? (h k v (by simp [hk])), hrest]

end Record

/-- Values whose nodes are changed into themselves stay. -/
theorem Value.Edited.eq {v w : Value} (h : Value.Edited (fun n m => m = n) v w) : w = v := by
  cases h with
  | node h => rw [h]
  | other => rfl
  | @list items items' h =>
    have hitems : List.Forall₂ (· = ·) items items' := h.imp fun v w h => by
      cases h with
      | node h => rw [h]
      | other => rfl
    rw [List.forall₂_eq_eq_eq] at hitems
    rw [hitems]

/-- A record whose nodes are changed into themselves stays. -/
theorem Record.Edited.eq {r r' : Record Value} (h : r.Edited (fun n m => m = n) r') : r' = r := by
  have hentries {es es' : List (String × Value)} (h : List.Forall₂
      (fun e e' => e'.1 = e.1 ∧ Value.Edited (fun n m => m = n) e.2 e'.2) es es') : es = es' := by
    rw [← List.forall₂_eq_eq_eq]
    exact h.imp fun e e' ⟨hk, hv⟩ => Prod.ext hk.symm hv.eq.symm
  obtain ⟨declared, extra, frozen⟩ := r
  obtain ⟨declared', extra', frozen'⟩ := r'
  rw [Record.mk.injEq]
  exact ⟨(hentries h.declared).symm, (hentries h.extra).symm, h.frozen⟩

/-! ### What writing back makes of a node -/

/-- Entries under one key, where the nodes of a value are changed. -/
inductive EditedEntry (P : Node → Node → Prop) : String × Value → String × Value → Prop
  | intro {key : String} {v w : Value} (h : Value.Edited P v w) : EditedEntry P (key, v) (key, w)

/-- Records whose nodes are changed have the same keys in the same places. -/
theorem Record.edited_iff {P : Node → Node → Prop} {r r' : Record Value} : r.Edited P r' ↔
    List.Forall₂ (EditedEntry P) r.declared r'.declared ∧
      List.Forall₂ (EditedEntry P) r.extra r'.extra ∧ r'.frozen = r.frozen := by
  have hentry (e e' : String × Value) :
      EditedEntry P e e' ↔ e'.1 = e.1 ∧ Value.Edited P e.2 e'.2 := by
    obtain ⟨k, v⟩ := e
    obtain ⟨k', w⟩ := e'
    constructor
    · rintro ⟨h⟩
      exact ⟨rfl, h⟩
    · rintro ⟨hk, h⟩
      cases hk
      exact .intro h
  have hsame : EditedEntry P = fun e e' => e'.1 = e.1 ∧ Value.Edited P e.2 e'.2 :=
    funext₂ fun e e' => propext (hentry e e')
  rw [hsame]
  exact ⟨fun h => ⟨h.declared, h.extra, h.frozen⟩, fun ⟨hd, he, hf⟩ => ⟨hd, he, hf⟩⟩

namespace Board

/-- No shape goes to the type of a literal. -/
def Spares (b : Board) (n : Node) : Prop :=
  n.flag Attr.literal = true → ∀ d ∈ b.dueAt n, d.1.field ≠ Attr.inferredType

/-- A node and what writing back makes of it.  A frozen node stays, with all that is below it.  An
open node gets what is due to it, and the nodes below it what is due to them. -/
inductive Rewrites (b : Board) : Node → Node → Prop
  | frozen {n : Node} (h : n.frozen = true) : Rewrites b n n
  | reached {n : Node} {r : Record Value} (hn : Writable n) (hspared : b.Spares n)
      (hd : List.Forall₂ (EditedEntry (Rewrites b)) (n.given (b.dueAt n)).declared r.declared)
      (he : List.Forall₂ (EditedEntry (Rewrites b)) (n.given (b.dueAt n)).extra r.extra)
      (hf : r.frozen = (n.given (b.dueAt n)).frozen) : Rewrites b n ⟨r, n.id⟩

variable {b : Board} {root n m : Node}

/-- What writing back makes of a node, by whether it is frozen. -/
theorem Rewrites.cases (h : b.Rewrites n m) : (n.frozen = true ∧ m = n) ∨
    Writable n ∧ b.Spares n ∧ (n.given (b.dueAt n)).Edited b.Rewrites m.toRecord ∧ m.id = n.id := by
  cases h with
  | frozen h => exact .inl ⟨h, rfl⟩
  | reached hn hspared hd he hf =>
    exact .inr ⟨hn, hspared, Record.edited_iff.mpr ⟨hd, he, hf⟩, rfl⟩

/-- What writing back makes of an open node. -/
theorem Rewrites.of_open (h : b.Rewrites n m) (hopen : n.frozen = false) :
    Writable n ∧ b.Spares n ∧ (n.given (b.dueAt n)).Edited b.Rewrites m.toRecord := by
  rcases h.cases with ⟨hfrozen, -⟩ | ⟨hn, hspared, hedited, -⟩
  · rw [hfrozen] at hopen
    cases hopen
  · exact ⟨hn, hspared, hedited⟩

theorem Rewrites.id_eq (h : b.Rewrites n m) : m.id = n.id := by
  rcases h.cases with ⟨-, rfl⟩ | ⟨-, -, -, hid⟩
  · rfl
  · exact hid

theorem dueAt_of_id (h : m.id = n.id) : b.dueAt m = b.dueAt n := by rw [dueAt, dueAt, h]

/-- What is written last under a key is due. -/
theorem exists_due_of_lookup {due : List (Callback × Shape)} {key : String} {v : Value}
    (h : (due.map fun d => (d.1.field.key, d.2.toValue)).reverse.lookup key = some v) :
    ∃ d ∈ due, d.1.field.key = key ∧ d.2.toValue = v := by
  have hmem := Assoc.mem_of_lookup h
  rw [List.mem_reverse, List.mem_map] at hmem
  obtain ⟨d, hd, heq⟩ := hmem
  exact ⟨d, hd, Prod.mk.inj heq⟩

/-- The fields that inference writes stay when the nodes below a node are changed. -/
theorem get?_of_edited {P : Node → Node → Prop} {r r' : Record Value} {id : Nat}
    (hr : Writable ⟨r, id⟩) (h : r.Edited P r') {f : Field} (hf : f ∈ Attr.written) :
    r'.get? f.key = r.get? f.key :=
  (@Record.Edited.kept _ _ _ id h).plain f.key (hr.plain f hf)

variable (hfields : ∀ path c, Facts.Asks b.callbacks path c → c.field ∈ Attr.written)
include hfields

/-- Writing back rewrites a program whose open nodes can be written to. -/
theorem rewrites_writeBack (writable : ∀ n ∈ root.all, n.frozen = false → Writable n)
    (spared : ∀ n ∈ root.all, b.Spares n) : b.Rewrites root (b.writeBack root).1 ∧
      (b.writeBack root).2 = .ok (root.reached.map fun n => (b.dueAt n).length).sum := by
  refine writeBack_gives (G := fun n => ∀ m ∈ n.all, (m.frozen = false → Writable m) ∧ b.Spares m)
    (fun n hn _ c hc m hm => hn m (Node.mem_all_of_child hc hm))
    (fun n hn hopen => (hn n n.mem_all_self).1 hopen) (fun n _ hfrozen => .frozen hfrozen)
    (fun n r hn hopen hedited => ?_) hfields fun n hn => ⟨writable n hn, spared n hn⟩
  obtain ⟨hd, he, hf⟩ := Record.edited_iff.mp hedited
  exact .reached ((hn n n.mem_all_self).1 hopen) (hn n n.mem_all_self).2 hd he hf

/-! ### Writing back again -/

/-- A node that was given shapes can be written to. -/
theorem writable_given (hn : Writable n) : Writable (n.given (b.dueAt n)) := by
  refine ⟨(assigned_given (field_of_dueAt hfields) hn).frozen, fun f hf v hv => ?_⟩
  change (n.toRecord.setAll _).get? f.key = some v at hv
  rw [Record.get?_setAll, Option.or_eq_some_iff] at hv
  rcases hv with hv | ⟨-, hv⟩
  · obtain ⟨d, -, -, rfl⟩ := exists_due_of_lookup hv
    rfl
  · exact hn.plain f hf v hv

/-- A node that was given shapes is not changed by getting them again. -/
theorem given_again {P : Node → Node → Prop} (hn : Writable n)
    (h : (n.given (b.dueAt n)).Edited P m.toRecord) : m.given (b.dueAt n) = m := by
  have hget : m.toRecord.setAll ((b.dueAt n).map fun d => (d.1.field.key, d.2.toValue)) =
      m.toRecord := by
    refine Record.setAll_of_get? fun key v hv => ?_
    obtain ⟨d, hd, rfl, rfl⟩ := exists_due_of_lookup hv
    rw [get?_of_edited (writable_given hfields hn) h (field_of_dueAt hfields d hd)]
    exact (Record.get?_setAll ..).trans (by rw [hv, Option.some_or])
  obtain ⟨r, id⟩ := m
  exact congrArg (Node.mk · id) hget

theorem Rewrites.frozen_eq (h : b.Rewrites n m) : m.frozen = n.frozen := by
  rcases h.cases with ⟨-, rfl⟩ | ⟨hn, -, hedited, -⟩
  · rfl
  · rw [hedited.frozen, (assigned_given (field_of_dueAt hfields) hn).frozen, hn.frozen]

theorem Rewrites.children (h : b.Rewrites n m) (hopen : n.frozen = false) :
    List.Forall₂ b.Rewrites n.children m.children := by
  obtain ⟨hn, -, hedited⟩ := h.of_open hopen
  rw [← (assigned_given (field_of_dueAt hfields) hn).children_eq]
  exact @Record.Edited.children _ _ _ m.id hedited

/-- What was written to can be written to again. -/
theorem Rewrites.writable (h : b.Rewrites n m) (hopen : m.frozen = false) : Writable m := by
  obtain ⟨hn, -, hedited⟩ := h.of_open ((h.frozen_eq hfields).symm.trans hopen)
  have hgiven := writable_given hfields hn
  exact ⟨hopen, fun f hf v hv =>
    hgiven.plain f hf v ((get?_of_edited hgiven hedited hf).symm.trans hv)⟩

/-- A walk reaches the same nodes again. -/
theorem Rewrites.reached_id (h : b.Rewrites n m) :
    List.Forall₂ (fun c d => d.id = c.id) n.reached m.reached := by
  induction n using Node.induction_on_children generalizing m with
  | step n ih =>
    cases hf : n.frozen with
    | true =>
      rw [Node.reached_of_frozen hf, Node.reached_of_frozen ((h.frozen_eq hfields).trans hf)]
      exact .nil
    | false =>
      rw [Node.reached_of_open hf, Node.reached_of_open ((h.frozen_eq hfields).trans hf)]
      have hchildren := (List.forall₂_and_left _ _).mpr ⟨fun _ hc => hc, h.children hfields hf⟩
      exact .cons h.id_eq (List.rel_flatMap hchildren fun c d ⟨hc, hcd⟩ => ih c hc hcd)

/-- Writing back to a program that is rewritten leaves it as it is, and writes as much again. -/
theorem writeBack_again (h : b.Rewrites root m) : (b.writeBack m).1 = m ∧
    (b.writeBack m).2 = .ok (root.reached.map fun n => (b.dueAt n).length).sum := by
  have hopened (m : Node) (r : Record Value) (hm : ∃ n, b.Rewrites n m) (hopen : m.frozen = false)
      (hedited : (m.given (b.dueAt m)).Edited (fun m m' => m' = m) r) : ⟨r, m.id⟩ = m := by
    obtain ⟨n, h⟩ := hm
    obtain ⟨hn, -, hgiven⟩ := h.of_open ((h.frozen_eq hfields).symm.trans hopen)
    rw [dueAt_of_id h.id_eq, given_again hfields hn hgiven] at hedited
    rw [hedited.eq]
  obtain ⟨hsame, hcount⟩ := writeBack_gives (G := fun m => ∃ n, b.Rewrites n m)
    (P := fun m m' => m' = m)
    (fun m ⟨n, h⟩ hopen d hd => by
      have hn := (h.frozen_eq hfields).symm.trans hopen
      obtain ⟨c, -, hcd⟩ := exists_of_forall₂ (h.children hfields hn) d hd
      exact ⟨c, hcd⟩)
    (fun m ⟨n, h⟩ hopen => h.writable hfields hopen) (fun _ _ _ => rfl) hopened hfields ⟨root, h⟩
  have hcost : List.Forall₂ (· = ·) (root.reached.map fun n => (b.dueAt n).length)
      (m.reached.map fun n => (b.dueAt n).length) :=
    List.rel_map (fun c d hid => by rw [dueAt_of_id hid]) (h.reached_id hfields)
  rw [List.forall₂_eq_eq_eq] at hcost
  exact ⟨hsame, hcost ▸ hcount⟩

/-! ### Reading again -/

/-- A node that is rewritten reads as it did. -/
theorem reads_of_given (hn : Writable n) (hspared : b.Spares n) (hid : m.id = n.id)
    (h : (n.given (b.dueAt n)).Edited b.Rewrites m.toRecord) :
    n.Reads (Relation.ReflGen b.Rewrites) m := by
  have hassigned := assigned_given (field_of_dueAt (n := n) hfields) hn
  have hgiven (key : String) (hkey : ∀ d ∈ b.dueAt n, d.1.field.key ≠ key) :
      (n.given (b.dueAt n)).get? key = n.get? key :=
    hassigned.get?_eq key _ (fun d hd hk => absurd hk (hkey d hd)) (.inl rfl)
  refine ⟨hid, fun key hkey => ?_, fun hliteral => ?_, ?_⟩
  · rw [← hgiven key fun d hd => hkey _ (field_of_dueAt hfields d hd)]
    have hrel := h.get? key
    generalize (n.given (b.dueAt n)).get? key = v, m.get? key = w at hrel
    cases hrel with
    | none => exact .none
    | some hvw => exact .some (hvw.mono fun _ _ => .single)
  -- nothing goes to the type that a literal is read for
  · have hmem : Attr.inferredType ∈ Attr.written := by simp [Attr.written]
    have hkept : m.get? Attr.inferredType.key = n.get? Attr.inferredType.key := by
      rw [get?_of_edited (writable_given hfields hn) h hmem]
      refine hgiven _ fun d hd hk => hspared hliteral d hd ?_
      exact written_eq_of_key (field_of_dueAt hfields d hd) hmem hk
    rw [Record.shape?, Record.shape?, Record.field?, Record.field?, hkept]
  · rw [← hassigned.children_eq]
    exact (@Record.Edited.children _ _ _ m.id h).imp fun _ _ => .single

/-- A program that is rewritten reads like the one it was, and so does every node of it. -/
theorem likeness_rewrites : Node.Likeness (Relation.ReflGen b.Rewrites) := by
  intro n m h
  cases h with
  | refl => exact .refl (fun _ => .refl) _
  | single h =>
    rcases h.cases with ⟨-, rfl⟩ | ⟨hn, hspared, hedited, hid⟩
    · exact .refl (fun _ => .refl) _
    · exact reads_of_given hfields hn hspared hid hedited

end Board

namespace Inference

variable {rules : List Rule} {root : Node} {b : Board}

/-- Only the types of variables are asked for under the key that literals are read at. -/
theorem declared_of_asked (hrules : ∀ rule ∈ rules, rule ∈ Rule.standard)
    (h : boardOf rules root = .ok b) {path : String} {c : Callback}
    (hc : Facts.Asks b.callbacks path c) (hfield : c.field = Attr.inferredType) :
    ∃ n ∈ root.all, n.flag Attr.variableDeclaration = true ∧ n.id = c.node := by
  obtain ⟨fs, rfl, hfs⟩ := boardOf_eq_ok h
  rcases Board.asks_foldl_merge.mp hc with hc | ⟨facts, hf, hc⟩
  · exact absurd hc Facts.not_asks_nil
  · obtain ⟨n, s, hn, hreason⟩ := hfs.reasoned hrules hf
    cases hreason.asked path c hc with
    | declared hflag => exact ⟨n, Scopes.mem_all_of_walk hn, hflag, rfl⟩
    | function =>
      have hkey : Attr.functionReturn.key = Attr.inferredType.key := congrArg Field.key hfield
      exact absurd hkey (by decide)
    | argument =>
      have hkey : Attr.argumentType.key = Attr.inferredType.key := congrArg Field.key hfield
      exact absurd hkey (by decide)

/-- Where no literal has the number of a variable, no shape goes to the type of a literal. -/
theorem spares_of_apart (hrules : ∀ rule ∈ rules, rule ∈ Rule.standard)
    (h : boardOf rules root = .ok b)
    (apart : ∀ l ∈ root.all, ∀ v ∈ root.all, l.flag Attr.literal = true →
      v.flag Attr.variableDeclaration = true → l.id ≠ v.id) :
    ∀ n ∈ root.all, b.infer.1.Spares n := by
  intro n hn hliteral d hd hfield
  obtain ⟨hid, path, hc, -⟩ := Board.mem_dueAt.mp hd
  obtain ⟨v, hv, hflag, hnumber⟩ := declared_of_asked hrules h hc hfield
  exact apart n hn v hv hliteral hflag (hid.symm.trans hnumber.symm)

/-- Fields that hold types hold no nodes. -/
theorem writable_of_admits {n : Node} (hopen : n.frozen = false)
    (typed : ∀ f ∈ Attr.written, ∀ v ∈ n.get? f.key, f.kind.admits v = true) :
    Board.Writable n := by
  refine ⟨hopen, fun f hf v hv => ?_⟩
  have hadmits := typed f hf v hv
  rw [(Board.written_spec hf).1] at hadmits
  cases v with
  | shape => rfl
  | _ => cases hadmits

/-- Inference that comes off has found a board, and solved it. -/
theorem solved_of_infer {report : Report} (h : (infer rules root).2 = .ok report) :
    ∃ b passes, boardOf rules root = .ok b ∧ b.infer.2 = .ok passes := by
  cases hb : boardOf rules root with
  | error e =>
    rw [infer_of_boardOf_fails hb] at h
    cases h
  | ok b =>
    cases hp : b.infer.2 with
    | error e =>
      rw [infer_of_passes_fail hb hp] at h
      cases h
    | ok passes => exact ⟨b, passes, rfl, hp⟩

/-- Inference is idempotent: run again on what it has made of a program, by standard rules, all or
some, it makes nothing else of it and reports the same.  What it takes is that the fields that hold
types do, and that no literal has the number of a variable. -/
theorem infer_idempotent (hrules : ∀ rule ∈ rules, rule ∈ Rule.standard)
    (typed : ∀ n ∈ root.all, ∀ f ∈ Attr.written, ∀ v ∈ n.get? f.key, f.kind.admits v = true)
    (apart : ∀ l ∈ root.all, ∀ v ∈ root.all, l.flag Attr.literal = true →
      v.flag Attr.variableDeclaration = true → l.id ≠ v.id)
    {report : Report} (h : (infer rules root).2 = .ok report) :
    infer rules (infer rules root).1 = ((infer rules root).1, .ok report) := by
  obtain ⟨b, passes, hb, hp⟩ := solved_of_infer h
  have hfields : ∀ path c, Facts.Asks b.infer.1.callbacks path c → c.field ∈ Attr.written :=
    (boardOf_reasoned hrules hb).2
  obtain ⟨hrewrites, hcount⟩ := Board.rewrites_writeBack hfields
    (fun n hn hopen => writable_of_admits hopen (typed n hn)) (spares_of_apart hrules hb apart)
  -- what has become of the program reads like it, so its board is the same
  have halike := boardOf_of_alike (Board.likeness_rewrites hfields) hrules (.single hrewrites)
  have hboard : boardOf rules (b.infer.1.writeBack root).1 = .ok b := by
    rw [hb] at halike
    generalize boardOf rules (b.infer.1.writeBack root).1 = x at halike
    cases halike with
    | ok heq => rw [heq]
  -- and what is written from it is there
  obtain ⟨hsame, hagain⟩ := Board.writeBack_again hfields hrewrites
  rw [infer_of_passes hb hp] at h ⊢
  rw [infer_of_passes hboard hp, hsame, hagain, ← hcount]
  exact Prod.ext rfl h

/-- The program `let x = 1; function f(a) { return a + x }`, with the declaration of `x` twice more,
once frozen. -/
def summing : Node :=
  let sum := (NodeForm.binary "+" ((NodeForm.identifier "a").node 2)
    ((NodeForm.identifier "x").node 3)).node 4
  let body := (NodeForm.block [(NodeForm.returning (some sum)).node 5]).node 6
  let argument := (NodeForm.argument "a" none).node 7
  let f := (NodeForm.functionDeclaration "f" [argument] body false).node 8
  (NodeForm.program [declaredOne, f, declaredOne.freeze, declaredOne]).node 9

/-- Inference of a program with a declaration that is shared, and frozen in one place, run twice. -/
theorem infer_idempotent_summing :
    (∀ n ∈ summing.all, ∀ f ∈ Attr.written, ∀ v ∈ n.get? f.key, f.kind.admits v = true) ∧
    (∀ l ∈ summing.all, ∀ v ∈ summing.all, l.flag Attr.literal = true →
      v.flag Attr.variableDeclaration = true → l.id ≠ v.id) ∧
    ∃ report, (infer Rule.standard summing).2 = .ok report ∧ report.writtenBack = 8 ∧
      infer Rule.standard (infer Rule.standard summing).1 =
        ((infer Rule.standard summing).1, .ok report) := by
  have typed : ∀ n ∈ summing.all, ∀ f ∈ Attr.written, ∀ v ∈ n.get? f.key,
      f.kind.admits v = true := by decide +kernel
  have apart : ∀ l ∈ summing.all, ∀ v ∈ summing.all, l.flag Attr.literal = true →
      v.flag Attr.variableDeclaration = true → l.id ≠ v.id := by decide +kernel
  have hcount : ((infer Rule.standard summing).2.map (·.writtenBack)).toOption = some 8 := by
    decide +kernel
  refine ⟨typed, apart, ?_⟩
  cases h : (infer Rule.standard summing).2 with
  | error e => rw [h] at hcount; cases hcount
  | ok report =>
    rw [h] at hcount
    exact ⟨report, rfl, Option.some.inj hcount,
      infer_idempotent (fun _ h => h) typed apart h⟩

end Inference

end TypeSketch
