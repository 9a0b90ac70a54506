import TypeSketch.Proofs.Inference.Attempts
import TypeSketch.Proofs.Renumbering.Rules

/-!
# Renumbering — solving

Relations between renumbered paths are tried with the same outcome as between the paths
(`Relation.unify_renumber`), so as many passes are made, as many relations stay as they are, and the
shapes that are found are those of the paths, renumbered (`Board.infer_renumber`).

There is one statement for each sort of relation (`unifyEqual_renumber`, `unifyLength_renumber`,
`unifyMember_renumber`), since each looks paths up and puts shapes under paths, and does nothing
else with them. A pass and the passes one after the other follow by induction (`pass_renumber`,
`solve_renumber`). Errors are of one kind, and tell other paths.
-/

namespace TypeSketch

variable {σ : Nat → Nat} (hσ : Function.Injective σ)

namespace Known
include hσ

theorem has_renumber (k : Known) (path : String) :
    Assoc.has (Text.renumber σ path) (k.renumber σ) = Assoc.has path k := by
  rw [Assoc.has, Assoc.has, lookup_renumber hσ]

end Known

namespace Relation

/-! ### One attempt -/

@[simp] theorem member?_renumber (r : Relation) (key : String) :
    (r.renumber σ).member? key = (r.member? key).map (Text.renumber σ) :=
  Assoc.lookup_mapValues ..

theorem Equates.renumber {r : Relation} {l m : String} (h : r.Equates l m) (σ : Nat → Nat) :
    (r.renumber σ).Equates (Text.renumber σ l) (Text.renumber σ m) :=
  ⟨h.1, by rw [member?_renumber, h.2.1]; rfl, by rw [member?_renumber, h.2.2]; rfl⟩

include hσ

/-- Two renumbered paths are tried as the paths are, and conflict where they do. -/
theorem unifyEqual_renumber (left right : String) (k : Known) :
    Alike (fun x x' => x' = (x.1, x.2.renumber σ)) (unifyEqual left right k)
      (unifyEqual (Text.renumber σ left) (Text.renumber σ right) (k.renumber σ)) := by
  rw [unifyEqual, unifyEqual, Known.lookup_renumber hσ, Known.lookup_renumber hσ]
  cases k.lookup left with
  | none =>
    cases k.lookup right with
    | none => exact .ok rfl
    | some s => exact .ok (congrArg (Prod.mk true) (Known.put_renumber hσ ..))
  | some s =>
    cases k.lookup right with
    | none => exact .ok (congrArg (Prod.mk true) (Known.put_renumber hσ ..))
    | some t =>
      simp only
      split
      · exact .ok rfl
      · exact .error rfl

/-- A length is tried under renumbered paths as under the paths. -/
theorem unifyLength_renumber (object member : String) (k : Known) :
    unifyLength (Text.renumber σ object) (Text.renumber σ member) (k.renumber σ) =
      ((unifyLength object member k).1, (unifyLength object member k).2.renumber σ) := by
  simp only [unifyLength, Known.has_renumber hσ, Known.put_renumber hσ]
  -- the member is looked up after the object has got a shape
  cases Assoc.has object k with
  | true =>
    simp only [if_true, Known.has_renumber hσ, Known.put_renumber hσ]
    cases Assoc.has member k <;> rfl
  | false =>
    simp only [Bool.false_eq_true, if_false, Known.has_renumber hσ, Known.put_renumber hσ]
    cases Assoc.has member (Assoc.put object anyVector.freeze k) <;> rfl

/-- An object and a key are tried under renumbered paths as under the paths. -/
theorem unifyKey_renumber (object key : String) (k : Known) :
    unifyKey (Text.renumber σ object) (Text.renumber σ key) (k.renumber σ) =
      ((unifyKey object key k).1, (unifyKey object key k).2.renumber σ) := by
  simp only [unifyKey, Known.lookup_renumber hσ, Known.put_renumber hσ]
  cases k.lookup object with
  | none =>
    cases k.lookup key with
    | none => rfl
    | some t =>
      simp only
      split
      · rfl
      · split <;> rfl
  | some o =>
    cases k.lookup key with
    | some t => rfl
    | none =>
      simp only
      split
      · rfl
      · split <;> rfl

/-- A member is tried under renumbered paths as under the paths. -/
theorem unifyMember_renumber (object key member : String) (k : Known) :
    unifyMember (Text.renumber σ object) (Text.renumber σ key) (Text.renumber σ member)
        (k.renumber σ) =
      ((unifyMember object key member k).1, (unifyMember object key member k).2.renumber σ) := by
  simp only [unifyMember, unifyKey_renumber hσ, Known.has_renumber hσ, Known.lookup_renumber hσ,
    Known.put_renumber hσ]
  cases Assoc.has member (unifyKey object key k).2 with
  | true => rfl
  | false => cases ((unifyKey object key k).2.lookup object).bind elementOf? <;> rfl

/-- A relation between renumbered paths is tried with the same outcome. -/
theorem unify_renumber {r : Relation} {c : Bond} (hr : r.States c) (k : Known) :
    Alike (fun x x' => x' = (x.1, x.2.renumber σ)) (r.unify k)
      ((r.renumber σ).unify (k.renumber σ)) := by
  cases hr with
  | equal h =>
    rw [unify_of_equates h, unify_of_equates (h.renumber σ)]
    exact unifyEqual_renumber hσ ..
  | length object member => exact .ok (unifyLength_renumber hσ ..)
  | member object key member => exact .ok (unifyMember_renumber hσ ..)

end Relation

namespace Board

/-! ### Passes -/

theorem pending_renumber (rels : List Relation) :
    pending (rels.map (Relation.renumber σ)) = pending rels := by
  rw [pending, pending, List.filter_map, List.length_map]
  rfl

include hσ

/-- A pass over renumbered relations unifies the same ones and finds the same shapes, and it fails
alike if it fails. -/
theorem pass_renumber {rels : List Relation} {k : Known}
    (h : ∀ r ∈ rels.map Relation.fresh, ∃ c, r.States c) :
    (pass (rels.map (Relation.renumber σ)) (k.renumber σ)).1 =
        (pass rels k).1.map (Relation.renumber σ) ∧
      (pass (rels.map (Relation.renumber σ)) (k.renumber σ)).2.1 =
        (pass rels k).2.1.renumber σ ∧
      Option.Rel (fun e e' : Error => e.ctorIdx = e'.ctorIdx) (pass rels k).2.2
        (pass (rels.map (Relation.renumber σ)) (k.renumber σ)).2.2 := by
  induction rels generalizing k with
  | nil => exact ⟨rfl, rfl, .none⟩
  | cons r rest ih =>
    rw [List.map_cons, List.forall_mem_cons] at h
    have hrest := fun k => ih (k := k) h.2
    cases hu : r.unified with
    | true =>
      rw [List.map_cons, pass_unified (r := r.renumber σ) hu, pass_unified hu]
      exact ⟨congrArg (r.renumber σ :: ·) (hrest k).1, (hrest k).2⟩
    | false =>
      obtain ⟨c, hc⟩ := h.1
      rw [Relation.fresh_of_pending hu] at hc
      have hattempt := Relation.unify_renumber hσ hc k
      rw [List.map_cons]
      generalize hat : r.unify k = out at hattempt
      generalize hat' : (r.renumber σ).unify (k.renumber σ) = out' at hattempt
      cases hattempt with
      | error he =>
        rw [pass_error (r := r.renumber σ) hu hat', pass_error hu hat]
        exact ⟨rfl, rfl, .some he⟩
      | @ok x x' hx =>
        subst hx
        rw [pass_ok (r := r.renumber σ) hu hat', pass_ok hu hat]
        exact ⟨congrArg (_ :: ·) (hrest x.2).1, (hrest x.2).2⟩

/-- Solving renumbered relations comes to the same end, with the paths renumbered. -/
theorem solve_renumber {n : Nat} {rels : List Relation} {k : Known}
    (h : ∀ r ∈ rels.map Relation.fresh, ∃ c, r.States c) :
    (solve n (rels.map (Relation.renumber σ)) (k.renumber σ)).1 =
        (solve n rels k).1.map (Relation.renumber σ) ∧
      (solve n (rels.map (Relation.renumber σ)) (k.renumber σ)).2.1 =
        (solve n rels k).2.1.renumber σ ∧
      Alike Eq (solve n rels k).2.2
        (solve n (rels.map (Relation.renumber σ)) (k.renumber σ)).2.2 := by
  -- On the passes: one fails, or leaves fewer pending, or leaves all that are pending.
  fun_induction solve n rels k with
  | case1 n rels k next e he =>
    obtain ⟨hrels, hk, herror⟩ := pass_renumber hσ (k := k) h
    rw [he] at herror
    generalize he' : (pass (rels.map (Relation.renumber σ)) (k.renumber σ)).2.2 = stopped at herror
    cases herror with
    | some hee =>
      rw [solve_error he']
      exact ⟨hrels, hk, .error hee⟩
  | case2 n rels k next he hlt ih =>
    obtain ⟨hrels, hk, herror⟩ := pass_renumber hσ (k := k) h
    rw [he] at herror
    generalize he' : (pass (rels.map (Relation.renumber σ)) (k.renumber σ)).2.2 = stopped at herror
    cases herror
    rw [solve_again he' (by rw [hrels, pending_renumber, pending_renumber]; exact hlt), hrels, hk]
    exact ih (map_fresh_pass rels k ▸ h)
  | case3 n rels k next he hle =>
    obtain ⟨hrels, hk, herror⟩ := pass_renumber hσ (k := k) h
    rw [he] at herror
    generalize he' : (pass (rels.map (Relation.renumber σ)) (k.renumber σ)).2.2 = stopped at herror
    cases herror
    rw [solve_rest he' (by rw [hrels, pending_renumber, pending_renumber]; exact hle)]
    exact ⟨hrels, hk, .ok rfl⟩

/-- Inference on a renumbered board comes to the same end, with the paths renumbered. -/
theorem infer_renumber {b : Board} (h : ∀ r ∈ b.relations, (∃ c, r.States c) ∧ r.unified = false) :
    (b.renumber σ).infer.1 = b.infer.1.renumber σ ∧
      Alike Eq b.infer.2 (b.renumber σ).infer.2 := by
  have hfresh : ∀ r ∈ b.relations.map Relation.fresh, ∃ c, r.States c := by
    intro r hr
    obtain ⟨r₀, hr₀, rfl⟩ := List.mem_map.mp hr
    obtain ⟨hc, hu⟩ := h r₀ hr₀
    rwa [Relation.fresh_of_pending hu]
  obtain ⟨hrels, hk, hend⟩ := solve_renumber hσ (n := 0) (k := b.known) hfresh
  exact ⟨congrArg₂ (fun relations known => { b.renumber σ with relations, known }) hrels hk, hend⟩

end Board

end TypeSketch
