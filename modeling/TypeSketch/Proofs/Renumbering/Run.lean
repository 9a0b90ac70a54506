import TypeSketch.Proofs.Program.Reading
import TypeSketch.Proofs.Renumbering.Solving
import TypeSketch.Proofs.Renumbering.WritingBack

/-!
# Renumbering — runs

Inference does not depend on the numbers of nodes.  Of a renumbered program it makes what it makes
of the program, renumbered, and reports the same, or it fails with an error of the same kind
(`run_renumber`).  So of two programs that differ in their numbers only, each with numbers of its
own, it makes programs that differ in their numbers only (`alike_of_unnumbered`).

The parts are put together here: the facts of a renumbered program (`boardOf_renumber`), what
inference makes of them (`Board.infer_renumber`), and what is written back
(`Board.writeBack_renumber`). That a program with the same nodes is a renumbered one is
`Node.Apart.exists_renumber`.
-/

namespace TypeSketch

/-- No kind of node holds a mark. -/
theorem NodeForm.plain_kind (f : NodeForm) : Text.Plain f.kind := by
  cases f with
  | member _ _ computed => cases computed <;> rw [kind] <;> decide
  | _ =>
    rw [kind]
    decide

theorem Node.Made.plain_kind {n : Node} (hn : n.Made) : Text.Plain n.kind := by
  obtain ⟨f, hf, -⟩ := hn.form
  obtain ⟨r, id⟩ := n
  cases hf
  exact f.plain_kind

namespace Inference

variable {σ : Nat → Nat} {rules : List Rule} {root root' : Node}

/-- A run is what inference makes of the board, and what is written back of it. -/
theorem run_of_boardOf {b : Board} (h : boardOf rules root = .ok b) :
    run rules root = do
      let passes ← b.infer.2
      let written ← (b.infer.1.writeBack root).2
      return ((b.infer.1.writeBack root).1,
        ⟨passes, b.infer.1.known.length, Board.pending b.infer.1.relations, written⟩) := by
  rw [run, h]
  rfl

/-- Inference on a renumbered program comes to the same end, with the program renumbered. -/
theorem run_renumber (hσ : Function.Injective σ) (hrules : ∀ rule ∈ rules, rule ∈ Rule.standard)
    (hroot : ∀ m ∈ root.all, m.Plain) :
    Alike (fun out out' => out' = (out.1.renumber σ, out.2)) (run rules root)
      (run rules (root.renumber σ)) := by
  have hboard := boardOf_renumber hσ (fun rule hr => Rule.follows_of_standard hσ (hrules rule hr))
    hroot
  generalize hb : boardOf rules root = x at hboard
  generalize hb' : boardOf rules (root.renumber σ) = x' at hboard
  cases hboard with
  | error he =>
    rw [run, run, hb, hb']
    exact .error he
  | @ok b b' h =>
    obtain ⟨hinfer, hend⟩ := Board.infer_renumber hσ (boardOf_reasoned hrules hb).1
    subst h
    rw [run_of_boardOf hb, run_of_boardOf hb', hinfer, Board.writeBack_renumber hσ]
    refine hend.bind fun passes passes' hpasses => ?_
    subst hpasses
    cases (b.infer.1.writeBack root).2 with
    | error e => exact .error rfl
    | ok written =>
      have hknown : (b.infer.1.renumber σ).known.length = b.infer.1.known.length :=
        List.length_map _
      have hpending := Board.pending_renumber (σ := σ) b.infer.1.relations
      rw [hknown]
      refine .ok ?_
      rw [← hpending]
      rfl

/-- Inference does not depend on the numbers of nodes: of two programs that differ in their numbers
only, each with numbers of its own, it makes programs that differ in their numbers only, and reports
the same of both, or it fails with errors of one kind. -/
theorem alike_of_unnumbered (made : root.Made) (apart : root.Apart) (apart' : root'.Apart)
    (same : root.unnumbered = root'.unnumbered)
    (plain : ∀ n ∈ root.all, ∀ f ∈ Attr.names, ∀ name ∈ n.str? f, Text.Plain name) :
    Alike (fun out out' => out.2 = out'.2 ∧ out.1.unnumbered = out'.1.unnumbered)
      (run Rule.standard root) (run Rule.standard root') := by
  obtain ⟨σ, hσ, rfl⟩ := apart.exists_renumber apart' same
  refine (run_renumber hσ (fun _ h => h) fun n hn => ⟨(made.all n hn).plain_kind, plain n hn⟩).mono
    fun out out' h => ?_
  rw [h]
  exact ⟨rfl, (Node.unnumbered_renumber σ out.1).symm⟩

/-- The program `let n = s[0]`. -/
def indexing : Node :=
  let zero := (NodeForm.literal "0" (.int 0) ((Shape.i64.copy.adding Trait.fromJson.present).adding
    (Trait.rawValue.entry (.json (.int 0))))).node 1
  let member := (NodeForm.member ((NodeForm.identifier "s").node 0) zero true).node 2
  (NodeForm.program [(NodeForm.declaration "n" (some member)).node 3]).node 4

theorem made_indexing : indexing.Made := by
  refine @Node.Made.program [_] _ (List.forall_mem_singleton.mpr ?_) ⟨⟨0, 4⟩, rfl⟩
  refine @Node.Made.declaration "n" (some _) _ (fun i hi => Option.some.inj hi ▸ ?_) ⟨⟨0, 3⟩, rfl⟩
  exact @Node.Made.member _ _ _ true (@Node.Made.identifier "s" _ ⟨⟨0, 0⟩, rfl⟩)
    (@Node.Made.literal "0" (.int 0) _ ⟨⟨0, 1⟩, rfl⟩) ⟨⟨0, 2⟩, rfl⟩

/-- The program comes out with the same shapes when its numbers run backwards. -/
theorem alike_of_indexing : indexing.Made ∧ indexing.Apart ∧ (indexing.renumber (9 - ·)).Apart ∧
    (∀ n ∈ indexing.all, ∀ f ∈ Attr.names, ∀ name ∈ n.str? f, Text.Plain name) ∧
    ∃ out out', run Rule.standard indexing = .ok out ∧
      run Rule.standard (indexing.renumber (9 - ·)) = .ok out' ∧
      out.2 = out'.2 ∧ out.1.unnumbered = out'.1.unnumbered := by
  have apart : indexing.Apart := by
    rw [Node.Apart]
    decide +kernel
  have apart' : (indexing.renumber (9 - ·)).Apart := by
    rw [Node.Apart]
    decide +kernel
  have plain : ∀ n ∈ indexing.all, ∀ f ∈ Attr.names, ∀ name ∈ n.str? f, Text.Plain name := by
    decide +kernel
  have hruns : (run Rule.standard indexing).toBool = true := by decide +kernel
  have halike := alike_of_unnumbered made_indexing apart apart'
    (Node.unnumbered_renumber _ _).symm plain
  refine ⟨made_indexing, apart, apart', plain, ?_⟩
  generalize run Rule.standard indexing = x at hruns halike ⊢
  generalize run Rule.standard (indexing.renumber (9 - ·)) = x' at halike ⊢
  cases halike with
  | error h => cases hruns
  | ok h => exact ⟨_, _, rfl, rfl, h⟩

end Inference

end TypeSketch
