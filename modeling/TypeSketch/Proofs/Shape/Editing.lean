import TypeSketch.Proofs.Shape.Sampled

/-!
# Walks that change shapes — step by step

What a walk with any visit, in any monad, does at a frozen shape, at a vector and at a struct.

These are the equations by which the other walks are proved: none of them looks at the fuel of a
walk again. The two for composite shapes need a lawful monad, since the walk ends in writing the
list that has been changed.
-/

namespace TypeSketch.Shape

variable {m : Type → Type} [Monad m] {s : Shape} {visit : Nat → Shape → m Shape} {fuel level : Nat}

theorem editWithin_of_frozen (h : s.frozen = true) :
    editWithin visit fuel level s = pure s := by
  cases fuel with
  | zero => rfl
  | succ fuel => rw [editWithin, if_pos h]

variable [LawfulMonad m]

/-- Changing the shapes under a key that lists shapes. -/
theorem editListAt_eq {key : String} {shapes : List Shape} (h : s.get? key = some (listOf shapes))
    (g : Shape → m Shape) : s.editListAt key g =
      shapes.mapM g >>= fun shapes' => pure ⟨s.toRecord.set key (listOf shapes')⟩ := by
  have hitems : ∀ (edit : Value → m Value),
      (∀ t : Shape, edit t.toValue = g t >>= fun t' => pure t'.toValue) → ∀ shapes : List Shape,
        (shapes.map toValue).mapM edit =
          shapes.mapM g >>= fun shapes' => pure (shapes'.map toValue) := by
    intro edit hedit shapes
    induction shapes with
    | nil => simp
    | cons t rest ih =>
      rw [List.map_cons, List.mapM_cons, hedit, ih, List.mapM_cons]
      simp only [bind_assoc, pure_bind, List.map_cons]
  rw [editListAt, Record.modifyAt, h]
  simp only [listOf, bind_assoc, pure_bind]
  rw [hitems _ fun _ => rfl, bind_assoc]
  simp only [pure_bind]

/-- A walk changes the element of a vector. -/
theorem editWithin_vector {e : Shape} (hs : Reads s (vector e)) (hopen : s.frozen = false) :
    editWithin visit (fuel + 1) level s = editWithin visit fuel (level + 1) e >>= fun e' =>
      pure (s.adding (Trait.generics.entry (listOf [e']))) := by
  rw [editWithin, hopen, hs.flag (by decide), hs.flag (by decide)]
  change s.editListAt Trait.generics.key (editWithin visit fuel (level + 1)) = _
  rw [editListAt_eq ((hs _ (by decide)).trans rfl : _ = some (listOf [e])), List.mapM_cons]
  simp only [List.mapM_nil, bind_assoc, pure_bind]
  rfl

/-- A walk changes the field entries of a struct. -/
theorem editWithin_struct {name : String} {fields : List Shape}
    (hs : Reads s (struct name fields)) (hopen : s.frozen = false) :
    editWithin visit (fuel + 1) level s =
      fields.mapM (editWithin visit fuel (level + 1)) >>= fun fields' =>
        pure (s.adding (Trait.fields.entry (listOf fields'))) := by
  rw [editWithin, hopen, hs.flag (by decide)]
  exact editListAt_eq ((hs _ (by decide)).trans rfl : _ = some (listOf fields)) _

end TypeSketch.Shape
