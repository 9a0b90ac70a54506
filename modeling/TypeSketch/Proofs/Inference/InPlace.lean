import TypeSketch.Proofs.Inference.WritingBack

/-!
# Inference — in place

Whatever becomes of inference, a program is left in order (`infer_in_place`).  If it fails, the
program has not been touched, and the cause is a conflict or a member that no rule can read: rules
fail at nothing else on a program whose types are types (`Rule.fails_of_standard`), passes only at
paths that conflict, and writing back does not fail.  If it comes off, the program is the same but
for types in the fields that inference writes, on the nodes that are not frozen nor below what is
(`Retyped`).

The shapes in a program need not be those that samples imply. What is asked of them is that their
declared fields are a name and a kind (`Shape.Formed`), as in every shape that a reader or a rule
makes: such a shape can lose its sample, which is the one change of a shape in the rules that can
fail (`withoutSample_of_formed`).
-/

namespace TypeSketch

/-- The declared fields of a shape are its name and its kind. -/
def Shape.Formed (s : Shape) : Prop :=
  s.declared.map Prod.fst = [Trait.name.key, Trait.kind.key]

/-- The fields that inference writes hold shapes. -/
def Node.Typed (n : Node) : Prop :=
  ∀ e ∈ n.entries, (∃ f ∈ Attr.written, f.key = e.1) → ∃ s : Shape, s.Formed ∧ e.2 = s.toValue

theorem Value.asShape?_eq_some {v : Value} {s : Shape} : v.asShape? = some s ↔ v = s.toValue := by
  cases v with
  | shape r =>
    constructor <;> intro h <;> cases h <;> rfl
  | _ => exact ⟨nofun, nofun⟩

instance (s : Shape) : Decidable s.Formed :=
  inferInstanceAs (Decidable (s.declared.map Prod.fst = [Trait.name.key, Trait.kind.key]))

instance (v : Value) : Decidable (∃ s : Shape, s.Formed ∧ v = s.toValue) :=
  decidable_of_iff (∃ s ∈ v.asShape?, s.Formed) <| exists_congr fun s => by
    rw [Option.mem_def, Value.asShape?_eq_some, and_comm]

instance (n : Node) : Decidable n.Typed :=
  inferInstanceAs (Decidable (∀ e ∈ n.entries, (∃ f ∈ Attr.written, f.key = e.1) →
    ∃ s : Shape, s.Formed ∧ e.2 = s.toValue))

theorem Node.Typed.get? {n : Node} (hn : n.Typed) {f : Field} (hf : f ∈ Attr.written) {v : Value}
    (h : n.get? f.key = some v) : ∃ s : Shape, s.Formed ∧ v = s.toValue :=
  hn _ (Record.mem_of_get? h) ⟨f, hf, rfl⟩

namespace Rule

/-! ### Failing rules -/

/-- The sample can be dropped from a shape in order. -/
theorem withoutSample_of_formed {s : Shape} (hs : s.Formed) :
    ∃ t, Facts.withoutSample s = .ok t := by
  have hfields : ∀ f : Field, f.key ∉ [Trait.name.key, Trait.kind.key] → ∀ t : Shape,
      t.declared = s.declared → t.frozen = false →
      t.remove f = .ok ⟨{ t.toRecord with extra := Assoc.erase f.key t.extra }⟩ := by
    intro f hf t ht hopen
    have habsent : Assoc.has f.key t.declared = false := by
      rw [← Bool.not_eq_true, Assoc.has, Assoc.lookup_isSome_iff, ht, hs]
      exact hf
    simp [Shape.remove, Record.remove, hopen, habsent, bind, Except.bind, pure, Except.pure]
  rw [Facts.withoutSample, hfields Trait.rawValue (by decide) s.copy rfl rfl]
  exact ⟨_, hfields Trait.fromJson (by decide) _ rfl rfl⟩

variable {env : Scopes} {scope : Scope} {n : Node}

theorem know_of_formed {s : Shape} (hs : s.Formed) (facts : Facts) (path : String) :
    ∃ facts', facts.know path s = .ok facts' := by
  obtain ⟨t, ht⟩ := withoutSample_of_formed hs
  exact ⟨_, by rw [Facts.know, ht]; rfl⟩

/-- The rule for members fails only at a member that it can not read. -/
theorem memberExpression_fails {e : Error} (h : memberExpression.facts env scope n = .error e) :
    ∃ reason, e = .memberExpression reason := by
  simp only [memberExpression] at h
  split at h
  · split at h
    · split at h <;> cases h
    · split at h
      · cases h
      · cases h
        exact ⟨_, rfl⟩
  · cases h
    exact ⟨_, rfl⟩

/-- The rule for operators does not fail. -/
theorem operator_ne_error {e : Error} : operator.facts env scope n ≠ .error e := by
  intro h
  simp only [operator] at h
  split at h
  · split at h
    · rcases Except.bind_eq_error.mp h with h | ⟨facts, -, h⟩
      · obtain ⟨facts, hok⟩ := know_of_formed (s := Shape.bool) rfl {} (env.site n scope).path
        rw [hok] at h
        cases h
      · cases h
    · split at h <;> cases h
  · cases h

/-- The rule for literals does not fail where types are types. -/
theorem literal_ne_error (hn : n.Typed) {e : Error} : literal.facts env scope n ≠ .error e := by
  intro h
  simp only [literal] at h
  split at h
  · next s hs =>
    obtain ⟨v, hv, hs⟩ := Option.bind_eq_some_iff.mp hs
    obtain ⟨t, ht, rfl⟩ := hn.get? (f := Attr.inferredType) (by simp [Attr.written])
      (by simpa [Record.field?, Attr.inferredType, Field.shape] using hv)
    cases hs
    obtain ⟨facts, hok⟩ := know_of_formed ht {} (env.site n scope).path
    rw [hok] at h
    cases h
  · cases h

/-- A standard rule fails only at a member that it can not read. -/
theorem fails_of_standard {rule : Rule} (hrule : rule ∈ standard) (hn : n.Typed) {e : Error}
    (h : rule.facts env scope n = .error e) : ∃ reason, e = .memberExpression reason := by
  simp only [standard, List.mem_cons, List.not_mem_nil, or_false] at hrule
  rcases hrule with rfl | rfl | rfl | rfl | rfl | rfl | rfl
  · simp only [variableDeclaration] at h
    split at h <;> cases h
  · simp only [assignExpression] at h
    split at h <;> cases h
  · simp only [returning] at h
    split at h <;> cases h
  · exact memberExpression_fails h
  · exact absurd h operator_ne_error
  · simp only [functionDeclaration] at h
    split at h <;> cases h
  · exact absurd h (literal_ne_error hn)

end Rule

/-! ### What may change -/

/-- Entries of a node that inference has reached: a shape under a key that inference writes, or
what was there, but for the nodes that it is or lists. -/
inductive RetypedEntry (P : Node → Node → Prop) : String × Value → String × Value → Prop
  | written {key : String} {s t : Shape} (h : ∃ f ∈ Attr.written, f.key = key) :
      RetypedEntry P (key, s.toValue) (key, t.toValue)
  | other {key : String} {v w : Value} (h : ¬ ∃ f ∈ Attr.written, f.key = key)
      (hv : Value.Edited P v w) : RetypedEntry P (key, v) (key, w)

/-- A node and what inference makes of it.  A frozen node stays, with all that is below it.  An open
node keeps its number and stays open, and its fields keep their places and their values, but for the
nodes among these and the shapes that inference writes; such shapes may be added after its other
fields. -/
inductive Retyped : Node → Node → Prop
  | frozen {n : Node} (h : n.frozen = true) : Retyped n n
  | reached {id : Nat} {declared declared' extra kept new : List (String × Value)}
      (hd : List.Forall₂ (RetypedEntry Retyped) declared declared')
      (he : List.Forall₂ (RetypedEntry Retyped) extra kept)
      (hdistinct : (new.map Prod.fst).Nodup)
      (hnew : ∀ e ∈ new, IsWritten e ∧
        Record.get? ⟨declared, extra, false⟩ e.1 = none) :
      Retyped ⟨⟨declared, extra, false⟩, id⟩ ⟨⟨declared', kept ++ new, false⟩, id⟩

/-- A shape stays when nodes are changed. -/
theorem Value.Edited.eq_of_shape {P : Node → Node → Prop} {s : Shape} {v : Value}
    (h : Value.Edited P s.toValue v) : v = s.toValue := h.plain rfl

section Entries

variable {P : Node → Node → Prop} {es es' es'' : List (String × Value)}

/-- Shapes are written over, and then the nodes below are changed. -/
theorem retypedEntries_of_edited
    (htyped : ∀ e ∈ es, (∃ f ∈ Attr.written, f.key = e.1) → ∃ s : Shape, s.Formed ∧
      e.2 = s.toValue) (h : Record.Overwritten es es')
    (h' : List.Forall₂ (fun e e' => e'.1 = e.1 ∧ Value.Edited P e.2 e'.2) es' es'') :
    List.Forall₂ (RetypedEntry P) es es'' := by
  refine forall₂_trans_of_mem h h' fun e he e' _ e'' _ ⟨hkey, hover⟩ ⟨hkey', hedited⟩ => ?_
  obtain ⟨key, v⟩ := e
  obtain ⟨key', v'⟩ := e'
  obtain ⟨key'', v''⟩ := e''
  cases hkey
  cases hkey'
  by_cases hwritten : ∃ f ∈ Attr.written, f.key = key
  · obtain ⟨s, -, hs⟩ := htyped _ he hwritten
    obtain ⟨t, ht⟩ : ∃ t : Shape, v' = t.toValue := by
      rcases hover with heq | hover
      · cases heq
        exact ⟨s, hs⟩
      · exact hover.2
    cases hs
    cases ht
    cases hedited.eq_of_shape
    exact .written hwritten
  · rcases hover with heq | hover
    · cases heq
      exact .other hwritten hedited
    · exact absurd hover.1 hwritten

/-- Shapes that were added stay when the nodes below are changed. -/
theorem eq_of_edited_written (hnew : ∀ e ∈ es, IsWritten e)
    (h : List.Forall₂ (fun e e' => e'.1 = e.1 ∧ Value.Edited P e.2 e'.2) es es') : es' = es := by
  induction h with
  | nil => rfl
  | @cons e e' _ _ he _ ih =>
    rw [List.forall_mem_cons] at hnew
    obtain ⟨key, v⟩ := e
    obtain ⟨key', v'⟩ := e'
    obtain ⟨hkey, hv⟩ := he
    obtain ⟨⟨-, s, hs⟩, hrest⟩ := hnew
    cases hkey
    cases hs
    obtain rfl : v' = s.toValue := hv.eq_of_shape
    rw [ih hrest]
    rfl

end Entries

/-- What becomes of an open node once shapes are written to it and nodes below it are changed. -/
theorem retyped_of_assigned {n n' : Node} {r : Record Value} {due : List (Callback × Shape)}
    (hn : n.Typed) (hopen : n.frozen = false) (h : Board.Assigned due n n')
    (h' : n'.Edited Retyped r) : Retyped n ⟨r, n'.id⟩ := by
  obtain ⟨⟨declared, extra, frozen⟩, id⟩ := n
  obtain ⟨declared', extra', frozen'⟩ := r
  cases hopen
  obtain ⟨kept, new, hextra, hkept, hdistinct, hnew⟩ := h.restated.extra
  have hedited := h'.extra
  rw [hextra] at hedited
  -- the entries come apart where the added ones begin
  obtain ⟨kept', new', rfl, hk, hw⟩ := exists_append_of_forall₂ hedited
  cases eq_of_edited_written (fun e he => (hnew e he).1) hw
  have hfrozen : frozen' = false := h'.frozen.trans h.frozen
  rw [h.id_eq, hfrozen]
  refine .reached ?_ ?_ hdistinct hnew
  · exact retypedEntries_of_edited (fun e he => hn e (List.mem_append_left _ he))
      h.restated.declared h'.declared
  · exact retypedEntries_of_edited (fun e he => hn e (List.mem_append_right _ he)) hkept hk

theorem writable_of_typed {n : Node} (hn : n.Typed) (hopen : n.frozen = false) :
    Board.Writable n := by
  refine ⟨hopen, fun f hf v hv => ?_⟩
  obtain ⟨s, -, rfl⟩ := hn.get? hf hv
  rfl

namespace Inference

variable {rules : List Rule} {root : Node} {b : Board}

/-! ### Failing inference -/

/-- The facts about a program fail only at a member that no rule can read. -/
theorem boardOf_fails (hrules : ∀ rule ∈ rules, rule ∈ Rule.standard)
    (typed : ∀ n ∈ root.all, n.Typed) {e : Error} (h : boardOf rules root = .error e) :
    ∃ reason, e = .memberExpression reason := by
  obtain ⟨⟨n, s⟩, hn, b, h⟩ := Except.foldlM_eq_error h
  rcases Except.bind_eq_error.mp h with h | ⟨told, -, h⟩
  · obtain ⟨rule, hrule, h⟩ := Except.mapM_eq_error h
    rcases Except.bind_eq_error.mp h with h | ⟨facts, -, h⟩
    · exact Rule.fails_of_standard (hrules rule (List.mem_filter.mp hrule).1)
        (typed n (Scopes.mem_all_of_walk hn)) h
    · cases h
  · cases h

/-- Passes over the board of a program fail only at paths that conflict. -/
theorem infer_fails (hstates : ∀ r ∈ b.relations, (∃ c, r.States c) ∧ r.unified = false)
    {e : Error} (h : b.infer.2 = .error e) : ∃ l s m t, e = .conflict l s m t := by
  obtain ⟨r, hr, k, -, hu⟩ := Board.solve_fails (P := fun _ => True) (fun _ _ _ => trivial)
    trivial h
  obtain ⟨r₀, hr₀, rfl⟩ := List.mem_map.mp hr
  obtain ⟨⟨c, hc⟩, hpending⟩ := hstates r₀ hr₀
  rw [Relation.fresh_of_pending hpending] at hu
  obtain ⟨l, m, s, t, -, -, -, -, rfl⟩ := hc.attempt_fails hu
  exact ⟨l, _, m, _, rfl⟩

/-! ### Inference in place -/

theorem infer_of_boardOf_fails {e : Error} (h : boardOf rules root = .error e) :
    infer rules root = (root, .error e) := by
  rw [infer, h]

theorem infer_of_passes_fail (h : boardOf rules root = .ok b) {e : Error}
    (he : b.infer.2 = .error e) : infer rules root = (root, .error e) := by
  simp only [infer, h, he]

/-- Inference whose passes end well writes back, and reports the passes, the known paths, the
relations left over and the shapes written. -/
theorem infer_of_passes (h : boardOf rules root = .ok b) {passes : Nat}
    (hp : b.infer.2 = .ok passes) :
    infer rules root = ((b.infer.1.writeBack root).1,
      (b.infer.1.writeBack root).2.map fun written =>
        ⟨passes, b.infer.1.known.length, Board.pending b.infer.1.relations, written⟩) := by
  simp only [infer, h, hp]

/-- Inference gives back the program that inference in place leaves, if it comes off. -/
theorem run_eq_infer (rules : List Rule) (root : Node) :
    run rules root = (infer rules root).2.map fun report => ((infer rules root).1, report) := by
  cases h : boardOf rules root with
  | error e =>
    rw [infer_of_boardOf_fails h, run, h]
    rfl
  | ok b =>
    cases hp : b.infer.2 with
    | error e =>
      rw [infer_of_passes_fail h hp]
      simp [run, h, hp, bind, Except.bind, Except.map]
    | ok passes =>
      rw [infer_of_passes h hp]
      cases hw : (b.infer.1.writeBack root).2 <;>
        simp [run, h, hp, hw, bind, Except.bind, Except.map, pure, Except.pure]

/-- Inference by standard rules, all or some, leaves a program whose types are types in order.  If
it fails, it has not touched the program, and the cause is a conflict or a member that no rule can
read.  If it comes off, it has written shapes only, to the fields and the nodes that it may, as many
as were asked for at the nodes it reaches. -/
theorem infer_in_place (hrules : ∀ rule ∈ rules, rule ∈ Rule.standard)
    (typed : ∀ n ∈ root.all, n.Typed) :
    (∀ e, (infer rules root).2 = .error e → (infer rules root).1 = root ∧
      ((∃ l s m t, e = .conflict l s m t) ∨ ∃ reason, e = .memberExpression reason)) ∧
    ∀ report, (infer rules root).2 = .ok report → Retyped root (infer rules root).1 ∧
      ∃ b, boardOf rules root = .ok b ∧ b.infer.2 = .ok report.passes ∧
        report.writtenBack = (root.reached.map fun n => (b.infer.1.dueAt n).length).sum := by
  cases h : boardOf rules root with
  | error e =>
    rw [infer_of_boardOf_fails h]
    refine ⟨fun e' he => ?_, nofun⟩
    cases he
    exact ⟨rfl, .inr (boardOf_fails hrules typed h)⟩
  | ok b =>
    obtain ⟨hstates, hfields⟩ := boardOf_reasoned hrules h
    cases hp : b.infer.2 with
    | error e =>
      rw [infer_of_passes_fail h hp]
      refine ⟨fun e' he => ?_, nofun⟩
      cases he
      exact ⟨rfl, .inl (infer_fails hstates hp)⟩
    | ok passes =>
      -- what is below a node is below the program, so it is typed too
      obtain ⟨hretyped, hwritten⟩ := Board.writeBack_relates (b := b.infer.1) (P := Retyped)
        (G := fun n => ∀ m ∈ n.all, m.Typed)
        (fun n hn c hc m hm => hn m (Node.mem_all_of_child hc hm))
        (fun n hn hopen => writable_of_typed (hn n n.mem_all_self) hopen)
        (fun n _ hfrozen => .frozen hfrozen)
        (fun n n' r hn hopen h h' => retyped_of_assigned (hn n n.mem_all_self) hopen h h')
        hfields typed
      rw [infer_of_passes h hp, hwritten]
      refine ⟨nofun, fun report hreport => ?_⟩
      cases hreport
      exact ⟨hretyped, b, rfl, hp, rfl⟩

/-- The declaration `let x = 1`. -/
def declaredOne : Node :=
  (NodeForm.declaration "x" (some ((NodeForm.literal "1" (.int 1) Shape.i64).node 0))).node 1

/-- A program that holds a declaration twice, and once more frozen and once below a frozen block. -/
def sharing : Node :=
  (NodeForm.program [declaredOne, declaredOne.freeze,
    ((NodeForm.block [declaredOne]).node 2).freeze, declaredOne]).node 3

theorem typed_sharing : ∀ n ∈ sharing.all, n.Typed := by decide +kernel

/-- A declaration that is held twice gets its type twice, and once frozen or below what is frozen it
gets none. -/
theorem infer_sharing_in_place : (∀ n ∈ sharing.all, n.Typed) ∧
    ((infer Rule.standard sharing).2.map (·.writtenBack)).toOption = some 8 ∧
    ∃ b, boardOf Rule.standard sharing = .ok b ∧
      8 = (sharing.reached.map fun n => (b.infer.1.dueAt n).length).sum ∧
      Retyped sharing (infer Rule.standard sharing).1 := by
  have hcount : ((infer Rule.standard sharing).2.map (·.writtenBack)).toOption = some 8 := by
    decide +kernel
  refine ⟨typed_sharing, hcount, ?_⟩
  cases h : (infer Rule.standard sharing).2 with
  | error e => rw [h] at hcount; cases hcount
  | ok report =>
    rw [h] at hcount
    obtain ⟨hretyped, b, hb, -, hwritten⟩ :=
      (infer_in_place (fun _ h => h) typed_sharing).2 report h
    exact ⟨b, hb, (Option.some.inj hcount).symm.trans hwritten, hretyped⟩

end Inference

end TypeSketch
