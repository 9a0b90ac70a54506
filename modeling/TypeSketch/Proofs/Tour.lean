import Mathlib.Data.List.Forall2
import TypeSketch.Tour

/-!
# Tours — what they call

`Tour.Carries act x Q calls` says that the tour `x` is not stopped, comes out as something that
meets `Q`, and has carried its state through `calls`, one after the other, `act` telling what
becomes of the state at each of them.  A tour is composed of others by the rules below, and a visit
that notes what it is called with shows what the calls are (`foldl_noting`).

The rules for tours are those of a program logic with one kind of triple: `carries_pure` and
`carries_bind` for sequences, `carries_mapM` for lists, and consequence (`Carries.imp`,
`Carries.of_eq`). A tour that has been stopped by an error carries its state no further, and the
triple says nothing about it; in return the triples that it does state need no case for errors.
-/

namespace TypeSketch.Tour

variable {σ α β γ : Type}

/-- Unless it has stopped before, the tour goes on, comes out as something that meets `Q`, and
carries its state through the calls. -/
def Carries (act : σ → γ → σ) (x : StateM (Tour σ) α) (Q : α → Prop) (calls : List γ) : Prop :=
  ∀ state, Q (x.run ⟨state, none⟩).1 ∧ (x.run ⟨state, none⟩).2 = ⟨calls.foldl act state, none⟩

variable {act : σ → γ → σ} {x : StateM (Tour σ) α} {P Q : α → Prop} {calls calls' : List γ}

theorem Carries.of_eq (h : Carries act x Q calls) (heq : calls = calls') : Carries act x Q calls' :=
  heq ▸ h

theorem Carries.imp (h : Carries act x P calls) (hPQ : ∀ a, P a → Q a) : Carries act x Q calls :=
  fun state => (h state).imp_left (hPQ _)

theorem carries_pure {a : α} (h : Q a) : Carries act (pure a) Q [] := fun _ => ⟨h, rfl⟩

/-- Of two tours, one after the other, the calls come one after the other. -/
theorem carries_bind {f : α → StateM (Tour σ) β} {Q : β → Prop} (hx : Carries act x P calls)
    (hf : ∀ a, P a → Carries act (f a) Q calls') : Carries act (x >>= f) Q (calls ++ calls') := by
  intro state
  obtain ⟨ha, hs⟩ := hx state
  obtain ⟨hb, hs'⟩ := hf _ ha (calls.foldl act state)
  change Q ((f (x.run ⟨state, none⟩).1).run (x.run ⟨state, none⟩).2).1 ∧
    ((f (x.run ⟨state, none⟩).1).run (x.run ⟨state, none⟩).2).2 = _
  rw [hs, List.foldl_append]
  exact ⟨hb, hs'⟩

/-- A tour, and then a last step that calls nothing. -/
theorem carries_map {f : α → β} {Q : β → Prop} (hx : Carries act x P calls)
    (hf : ∀ a, P a → Q (f a)) : Carries act (x >>= fun a => pure (f a)) Q calls :=
  (carries_bind hx fun a ha => carries_pure (hf a ha)).of_eq (List.append_nil calls)

/-- A tour of the items of a list calls what the tours of the items call, in their order. -/
theorem carries_mapM {f : α → StateM (Tour σ) β} {R : α → β → Prop} {callsOf : α → List γ}
    {xs : List α} (h : ∀ x ∈ xs, Carries act (f x) (R x) (callsOf x)) :
    Carries act (xs.mapM f) (List.Forall₂ R xs) (xs.flatMap callsOf) := by
  induction xs with
  | nil =>
    rw [List.mapM_nil]
    exact carries_pure .nil
  | cons x xs ih =>
    obtain ⟨hx, hxs⟩ := List.forall_mem_cons.mp h
    rw [List.mapM_cons, List.flatMap_cons]
    exact carries_bind hx fun y hy => carries_map (ih hxs) fun ys hys => .cons hy hys

/-- A tour of the items of a list that calls what is to be called of their parts. -/
theorem carries_mapM_parts {δ : Type} {f : α → StateM (Tour σ) β} {R : α → β → Prop}
    {part? : α → Option δ} {callsOf : δ → List γ} {xs : List α}
    (h : ∀ x ∈ xs, Carries act (f x) (R x) ((part? x).toList.flatMap callsOf)) :
    Carries act (xs.mapM f) (List.Forall₂ R xs) ((xs.filterMap part?).flatMap callsOf) :=
  (carries_mapM h).of_eq (by rw [← List.flatMap_assoc, List.filterMap_eq_flatMap_toList])

/-! ### Visits -/

/-- A visit that no error stops is one call. -/
theorem carries_visit {f : α → σ → α × σ × Option Error} {a : α} {c : γ}
    (h : ∀ state, Q (f a state).1 ∧ (f a state).2 = (act state c, none)) :
    Carries act (visit f a) Q [c] := by
  intro state
  obtain ⟨ha, hs⟩ := h state
  exact ⟨ha, congrArg (fun s : σ × Option Error => Tour.mk s.1 s.2) hs⟩

/-- A visit that also notes what it is called with. -/
def noting (note : α → γ) (f : α → σ → α × σ × Option Error) :
    α → List γ × σ → α × (List γ × σ) × Option Error :=
  fun a (noted, state) =>
    let (a', state, stopped) := f a state
    (a', (noted ++ [note a], state), stopped)

/-- Carried through calls that are noted, a state has all of them behind what was noted before. -/
theorem foldl_noting (act : σ → γ → σ) (calls noted : List γ) (state : σ) :
    calls.foldl (fun (s : List γ × σ) c => (s.1 ++ [c], act s.2 c)) (noted, state) =
      (noted ++ calls, calls.foldl act state) := by
  induction calls generalizing noted state with
  | nil => rw [List.append_nil]; rfl
  | cons c calls ih => rw [List.foldl_cons, List.foldl_cons, ih, List.append_assoc]; rfl

end TypeSketch.Tour
