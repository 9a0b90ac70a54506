import TypeSketch.Proofs.Table
import TypeSketch.Supply

/-!
# Drafts that succeed

Computations that may fail are taken apart by what came of them: `Except.bind_eq_ok`,
`Except.bind_eq_error` and the statements after them.  `Draft.Makes d a` says that the draft `d`
comes out as `a` from some supply of numbers.  The inversion lemmas take a draft apart into the
drafts it is composed of.

The statements about `Except` are in one form each for success and for failure: a computation that
succeeds has succeeded in both its parts, one that fails has failed in the first or, after the first
has succeeded, in the second. Proofs about readers, rules and runs use them to take a computation
apart without opening its definition.
-/

namespace TypeSketch

/-- The first part of a computation that succeeds has succeeded. -/
theorem Except.bind_eq_ok {ε α β : Type} {x : Except ε α} {f : α → Except ε β} {b : β} :
    (x >>= f) = .ok b ↔ ∃ a, x = .ok a ∧ f a = .ok b := by
  cases x with
  | error e => simp [bind, Except.bind]
  | ok a => simp [bind, Except.bind]

theorem Except.exists_of_isOk {ε α : Type} {x : Except ε α} (h : x.isOk = true) :
    ∃ a, x = .ok a := by
  cases x with
  | error e => cases h
  | ok a => exact ⟨a, rfl⟩

/-- A traversal succeeds at each item with what it makes of it. -/
theorem Except.mapM_eq_ok_iff {ε α β : Type} {f : α → Except ε β} {xs : List α} {ys : List β} :
    xs.mapM f = .ok ys ↔ List.Forall₂ (fun x y => f x = .ok y) xs ys := by
  induction xs generalizing ys with
  | nil =>
    rw [List.forall₂_nil_left_iff]
    exact ⟨fun h => by cases h; rfl, fun h => h ▸ rfl⟩
  | cons x xs ih =>
    simp only [List.mapM_cons, bind_eq_ok, ih, List.forall₂_cons_left_iff]
    constructor
    · rintro ⟨y, hy, ys', hys, ⟨⟩⟩
      exact ⟨y, ys', hy, hys, rfl⟩
    · rintro ⟨y, ys', hy, hys, rfl⟩
      exact ⟨y, hy, ys', hys, rfl⟩

/-- A traversal that succeeds has succeeded at each item, and its results are those of items. -/
theorem Except.mapM_eq_ok {ε α β : Type} {f : α → Except ε β} {xs : List α} {ys : List β}
    (h : xs.mapM f = .ok ys) :
    (∀ y ∈ ys, ∃ x ∈ xs, f x = .ok y) ∧ ∀ x ∈ xs, ∃ y ∈ ys, f x = .ok y := by
  have hitems := mapM_eq_ok_iff.mp h
  exact ⟨exists_of_forall₂ hitems, exists_of_forall₂ hitems.flip⟩

/-- A traversal succeeds just when it does at each item. -/
theorem Except.mapM_isOk_iff {ε α β : Type} {f : α → Except ε β} {xs : List α} :
    (∃ ys, xs.mapM f = .ok ys) ↔ ∀ x ∈ xs, ∃ y, f x = .ok y := by
  induction xs with
  | nil => exact ⟨nofun, fun _ => ⟨[], rfl⟩⟩
  | cons x xs ih =>
    rw [List.forall_mem_cons, ← ih]
    simp only [List.mapM_cons, bind_eq_ok]
    constructor
    · rintro ⟨_, y, hy, ys, hys, -⟩
      exact ⟨⟨y, hy⟩, ys, hys⟩
    · rintro ⟨⟨y, hy⟩, ys, hys⟩
      exact ⟨_, y, hy, ys, hys, rfl⟩

/-- A computation fails at its first part or after it. -/
theorem Except.bind_eq_error {ε α β : Type} {x : Except ε α} {f : α → Except ε β} {e : ε} :
    (x >>= f) = .error e ↔ x = .error e ∨ ∃ a, x = .ok a ∧ f a = .error e := by
  cases x with
  | error e => simp [bind, Except.bind]
  | ok a => simp [bind, Except.bind]

/-- A traversal that fails does so at an item. -/
theorem Except.mapM_eq_error {ε α β : Type} {f : α → Except ε β} {xs : List α} {e : ε}
    (h : xs.mapM f = .error e) : ∃ x ∈ xs, f x = .error e := by
  induction xs with
  | nil => cases h
  | cons x xs ih =>
    rw [List.mapM_cons] at h
    rcases bind_eq_error.mp h with h | ⟨y, -, h⟩
    · exact ⟨x, List.mem_cons_self, h⟩
    · rcases bind_eq_error.mp h with h | ⟨ys, -, h⟩
      · obtain ⟨x', hx', h⟩ := ih h
        exact ⟨x', List.mem_cons_of_mem _ hx', h⟩
      · cases h

/-- Going through a list fails at an item. -/
theorem Except.foldlM_eq_error {ε α β : Type} {f : β → α → Except ε β} {xs : List α} {b : β}
    {e : ε} (h : xs.foldlM f b = .error e) : ∃ x ∈ xs, ∃ b, f b x = .error e := by
  induction xs generalizing b with
  | nil => cases h
  | cons x xs ih =>
    rw [List.foldlM_cons] at h
    rcases bind_eq_error.mp h with h | ⟨b', -, h⟩
    · exact ⟨x, List.mem_cons_self, b, h⟩
    · obtain ⟨x', hx', h⟩ := ih h
      exact ⟨x', List.mem_cons_of_mem _ hx', h⟩

/-- Going through a list succeeds at each item. -/
theorem Except.foldlM_eq_ok {ε α β : Type} {f : β → α → Except ε β} {xs : List α} {b c : β}
    (h : xs.foldlM f b = .ok c) : ∀ x ∈ xs, ∃ b b', f b x = .ok b' := by
  induction xs generalizing b with
  | nil => nofun
  | cons x xs ih =>
    rw [List.foldlM_cons] at h
    obtain ⟨b', hx, h⟩ := bind_eq_ok.mp h
    exact List.forall_mem_cons.mpr ⟨⟨b, b', hx⟩, ih h⟩

/-- What two parts of a computation come to is what the second makes of the first. -/
theorem run_bind_fst {ε σ α β : Type} (x : ExceptT ε (StateM σ) α)
    (f : α → ExceptT ε (StateM σ) β) (state : σ) :
    ((x >>= f).run.run state).1 =
      (x.run.run state).1 >>= fun a => ((f a).run.run (x.run.run state).2).1 := by
  rw [ExceptT.run_bind, StateT.run_bind]
  generalize x.run.run state = done
  obtain ⟨result, state'⟩ := done
  cases result <;> rfl

namespace Draft

variable {α β : Type}

/-- `d` comes out as `a`, from some supply of numbers. -/
def Makes (d : Draft α) (a : α) : Prop := ∃ supply, (d.outcome supply).1 = .ok a

theorem makes_pure {a b : α} (h : Makes (pure a) b) : b = a := by
  obtain ⟨_, h⟩ := h
  cases h
  rfl

/-- What a draft of two parts makes is made by the second part of what the first one makes. -/
theorem makes_bind {d : Draft α} {f : α → Draft β} {b : β} (h : Makes (d >>= f) b) :
    ∃ a, d.Makes a ∧ (f a).Makes b := by
  obtain ⟨supply, h⟩ := h
  change (ExceptT.bindCont f (d.outcome supply).1 (d.outcome supply).2).1 = .ok b at h
  cases hd : (d.outcome supply).1 with
  | error e => rw [hd] at h; cases h
  | ok a =>
    rw [hd] at h
    exact ⟨a, ⟨supply, hd⟩, ⟨_, h⟩⟩

/-- After a first part that makes something the second goes on with it, from the numbers that are
left. -/
theorem outcome_bind_ok {d : Draft α} {f : α → Draft β} {supply supply' : Supply} {a : α}
    (h : d.outcome supply = (.ok a, supply')) :
    (d >>= f).outcome supply = (f a).outcome supply' := by
  change ExceptT.bindCont f (d.outcome supply).1 (d.outcome supply).2 = _
  rw [h]
  rfl

/-- A draft whose first part fails has failed, and takes no more numbers. -/
theorem outcome_bind_error {d : Draft α} {f : α → Draft β} {supply supply' : Supply} {e : Error}
    (h : d.outcome supply = (.error e, supply')) :
    (d >>= f).outcome supply = (.error e, supply') := by
  change ExceptT.bindCont f (d.outcome supply).1 (d.outcome supply).2 = _
  rw [h]
  rfl

/-- What is done after a draft counts only for what the draft makes. -/
theorem bind_congr {d : Draft α} {f g : α → Draft β} (h : ∀ a, d.Makes a → f a = g a) :
    d >>= f = d >>= g := by
  funext supply
  change ExceptT.bindCont f (d.outcome supply).1 (d.outcome supply).2 =
    ExceptT.bindCont g (d.outcome supply).1 (d.outcome supply).2
  cases hd : (d.outcome supply).1 with
  | error e => rfl
  | ok a => exact congrFun (h a ⟨supply, hd⟩) _

/-- Each item that a list of drafts makes is made by one of them. -/
theorem exists_of_makes_mapM {f : α → Draft β} {xs : List α} {ys : List β}
    (h : Makes (xs.mapM f) ys) : ∀ y ∈ ys, ∃ x ∈ xs, (f x).Makes y := by
  induction xs generalizing ys with
  | nil =>
    rw [List.mapM_nil] at h
    rw [makes_pure h]
    nofun
  | cons x xs ih =>
    rw [List.mapM_cons] at h
    obtain ⟨y, hy, h⟩ := makes_bind h
    obtain ⟨ys', hys, h⟩ := makes_bind h
    rw [makes_pure h]
    intro y' hy'
    rcases List.mem_cons.mp hy' with rfl | hy'
    · exact ⟨x, List.mem_cons_self, hy⟩
    · obtain ⟨x', hx', hm⟩ := ih hys y' hy'
      exact ⟨x', List.mem_cons_of_mem _ hx', hm⟩

theorem makes_ofExcept {x : Except Error α} {a : α} (h : Makes (ofExcept x) a) : x = .ok a := by
  obtain ⟨_, h⟩ := h
  exact h

end Draft

end TypeSketch
