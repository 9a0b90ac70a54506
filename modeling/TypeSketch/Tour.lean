import TypeSketch.Error

/-!
# Tours

A tour is a walk that changes what it visits and may be stopped by an error. What was changed before
the error stays changed, and nothing is visited after it.
-/

namespace TypeSketch

/-- What a tour carries: a state, and the error that stopped it. -/
structure Tour (σ : Type) where
  state : σ
  stopped : Option Error := none

/-- Visit unless the tour has stopped. -/
def Tour.visit {σ α : Type} (f : α → σ → α × σ × Option Error) (a : α) : StateM (Tour σ) α :=
  fun tour =>
    match tour.stopped with
    | some _ => (a, tour)
    | none =>
      let (a, state, stopped) := f a tour.state
      (a, ⟨state, stopped⟩)

end TypeSketch
