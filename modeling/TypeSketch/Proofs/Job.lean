import Mathlib.Data.List.Forall2
import TypeSketch.Job
import TypeSketch.Proofs.Draft

/-!
# Jobs and pools

A job is a draft that stops before every number (`alone_bind`).  A job that comes to one result
whatever numbers it takes (`Job.Settles`) comes to it from every supply, and in every pool: a step
of the pool keeps what its jobs settle on (`Pool.settle_of_step`), so that all runs of it end alike
(`Pool.jobs_of_finished`), and each can be finished (`Pool.exists_finished`).

Two jobs in lockstep (`Job.Lockstep`) take as many numbers, each its own, fail alike, and make
things that stand in a relation.  A job that is in lockstep with itself at equality settles.

A pool runs several jobs at once and hands out the numbers in any order, so that a job on its own
and in a pool may see other numbers. What is proved of texts that are written in parallel therefore
goes by jobs that settle: the order does not matter to them, and no scheduler need be looked at. A
failing job settles too, on its failure.
-/

namespace TypeSketch

namespace Job

variable {α β γ δ : Type}

/-! ### Jobs on their own -/

@[simp] theorem done_ok_bind (a : α) (f : α → Job β) : (done (.ok a) >>= f) = f a := rfl

@[simp] theorem alone_done (result : Except Error α) :
    (done result).alone = Draft.ofExcept result := rfl

@[simp] theorem alone_pure (a : α) : (pure a : Job α).alone = pure a := rfl

@[simp] theorem alone_bind (job : Job α) (f : α → Job β) :
    (job >>= f).alone = job.alone >>= fun a => (f a).alone := by
  induction job with
  | done result => cases result <;> rfl
  | take next ih =>
    change (Draft.shapeNumber >>= fun n => (next n >>= f).alone) = _
    rw [alone, bind_assoc]
    exact bind_congr ih

theorem outcome_shapeNumber (supply : Supply) : Draft.shapeNumber.outcome supply =
    (.ok supply.shapes, { supply with shapes := supply.shapes + 1 }) := rfl

@[simp] theorem alone_number : number.alone = Draft.shapeNumber :=
  bind_pure Draft.shapeNumber

/-! ### Jobs that settle -/

/-- The job comes to a result, whatever numbers it takes. -/
inductive Settles (result : Except Error α) : Job α → Prop
  | done : Settles result (done result)
  | take {next : Nat → Job α} (h : ∀ n, Settles result (next n)) : Settles result (take next)

/-- A job settles on one result. -/
theorem Settles.unique {r r' : Except Error α} {job : Job α} (h : Settles r job)
    (h' : Settles r' job) : r = r' := by
  induction h with
  | done => cases h'; rfl
  | take _ ih =>
    cases h' with
    | take h' => exact ih 0 (h' 0)

/-- On its own the job comes to the result from every supply. -/
theorem Settles.outcome {result : Except Error α} {job : Job α} (h : Settles result job)
    (supply : Supply) : (job.alone.outcome supply).1 = result := by
  induction h generalizing supply with
  | done => rfl
  | take _ ih =>
    rw [alone, Draft.outcome_bind_ok (outcome_shapeNumber supply)]
    exact ih _ _

/-! ### Two jobs in lockstep -/

/-- Two jobs take as many numbers, each its own, and then fail alike or make things that stand in a
relation. -/
inductive Lockstep (R : α → β → Prop) : Job α → Job β → Prop
  | fails (e : Error) : Lockstep R (.done (.error e)) (.done (.error e))
  | makes {a : α} {b : β} (h : R a b) : Lockstep R (.done (.ok a)) (.done (.ok b))
  | take {next : Nat → Job α} {next' : Nat → Job β} (h : ∀ n m, Lockstep R (next n) (next' m)) :
      Lockstep R (.take next) (.take next')

variable {R : α → β → Prop} {Q : γ → δ → Prop}

theorem lockstep_pure {a : α} {b : β} (h : R a b) : Lockstep R (pure a) (pure b) := .makes h

/-- A result that no number has gone into. -/
theorem lockstep_done {S : α → α → Prop} {result : Except Error α}
    (h : ∀ a, result = .ok a → S a a) : Lockstep S (done result) (done result) := by
  cases result with
  | error e => exact .fails e
  | ok a => exact .makes (h a rfl)

theorem lockstep_number : Lockstep (fun _ _ => True) number number :=
  .take fun _ _ => .makes trivial

/-- Jobs in lockstep that go on in lockstep are in lockstep. -/
theorem Lockstep.bind {job : Job α} {job' : Job β} {f : α → Job γ} {f' : β → Job δ}
    (h : Lockstep R job job') (hf : ∀ a b, R a b → Lockstep Q (f a) (f' b)) :
    Lockstep Q (job >>= f) (job' >>= f') := by
  induction h with
  | fails e => exact .fails e
  | makes hR => exact hf _ _ hR
  | take _ ih => exact .take ih

/-- Two jobs that make the same settle on one result. -/
theorem Lockstep.exists_settles {job job' : Job α} (h : Lockstep (· = ·) job job') :
    ∃ result, Settles result job ∧ Settles result job' := by
  induction h with
  | fails e => exact ⟨_, .done, .done⟩
  | makes heq => exact ⟨_, .done, heq ▸ .done⟩
  | @take next next' _ ih =>
    obtain ⟨r, h₀, h₀'⟩ := ih 0 0
    refine ⟨r, .take fun n => ?_, .take fun m => ?_⟩
    · obtain ⟨r', hn, hn'⟩ := ih n 0
      exact hn'.unique h₀' ▸ hn
    · obtain ⟨r', hm, hm'⟩ := ih 0 m
      exact hm.unique h₀ ▸ hm'

end Job

/-! ### Pools -/

namespace Pool

variable {α : Type} {pool pool' : Pool α} {results : List (Except Error α)}

/-- Every job of the pool settles, each on a result of its own. -/
abbrev Settle (results : List (Except Error α)) (pool : Pool α) : Prop :=
  List.Forall₂ Job.Settles results pool.jobs

/-- A step keeps what the jobs settle on. -/
theorem settle_of_step (hstep : Step pool pool') (h : Settle results pool) :
    Settle results pool' := by
  cases hstep with
  | take counter before next after =>
    have hbefore := List.forall₂_take_append results before _ h
    have hbehind := List.forall₂_drop_append results before _ h
    obtain ⟨result, rest, hresult, hafter, hdrop⟩ := List.forall₂_cons_right_iff.mp hbehind
    cases hresult with
    | take hnext =>
      rw [Settle, ← List.take_append_drop before.length results, hdrop]
      exact List.rel_append hbefore (.cons (hnext counter) hafter)

/-- A run keeps what the jobs settle on. -/
theorem settle_of_steps (hsteps : Steps pool pool') (h : Settle results pool) :
    Settle results pool' := by
  induction hsteps with
  | refl => exact h
  | tail _ hstep ih => exact settle_of_step hstep ih

/-- What the jobs settle on is what they come to. -/
theorem jobs_of_finished (h : Settle results pool) (hfinished : pool.Finished) :
    pool.jobs = results.map .done := by
  rw [Finished] at hfinished
  rw [Settle] at h
  generalize pool.jobs = jobs at h hfinished
  induction h with
  | nil => rfl
  | cons hjob _ ih =>
    obtain ⟨⟨result, rfl⟩, hrest⟩ := List.forall_mem_cons.mp hfinished
    cases hjob
    exact congrArg (_ :: ·) (ih hrest)

/-- A job that is not interrupted comes to what it comes to on its own. -/
theorem steps_alone (job : Job α) (before after : List (Job α)) (supply : Supply) :
    Steps ⟨supply.shapes, before ++ job :: after⟩
      ⟨(job.alone.outcome supply).2.shapes,
        before ++ .done (job.alone.outcome supply).1 :: after⟩ := by
  induction job generalizing supply with
  | done result => exact .refl
  | take next ih =>
    rw [Job.alone, Draft.outcome_bind_ok (Job.outcome_shapeNumber supply)]
    have hrest := ih supply.shapes { supply with shapes := supply.shapes + 1 }
    exact .head (.take supply.shapes before next after) hrest

/-- Of two jobs the first or the second may take its numbers first. -/
theorem steps_two (first second : Job α) (supply : Supply) :
    (let one := first.alone.outcome supply
      let other := second.alone.outcome one.2
      Steps ⟨supply.shapes, [first, second]⟩ ⟨other.2.shapes, [.done one.1, .done other.1]⟩) ∧
    (let other := second.alone.outcome supply
      let one := first.alone.outcome other.2
      Steps ⟨supply.shapes, [first, second]⟩ ⟨one.2.shapes, [.done one.1, .done other.1]⟩) :=
  ⟨(steps_alone first [] [second] supply).trans (steps_alone second [.done _] [] _),
    (steps_alone second [first] [] supply).trans (steps_alone first [] [.done _] _)⟩

/-- Every pool can be finished. -/
theorem exists_finished (pool : Pool α) : ∃ pool', pool.Steps pool' ∧ pool'.Finished := by
  -- the jobs take their numbers one job after the other; those before are over
  have hfinish : ∀ (jobs before : List (Job α)) (counter : Nat),
      (∀ job ∈ before, ∃ result, job = .done result) →
        ∃ pool', Steps ⟨counter, before ++ jobs⟩ pool' ∧ pool'.Finished := by
    intro jobs
    induction jobs with
    | nil =>
      intro before counter hbefore
      exact ⟨_, .refl, by rwa [Finished, List.append_nil]⟩
    | cons job rest ih =>
      intro before counter hbefore
      have hsteps := steps_alone job before rest ⟨counter, 0⟩
      generalize job.alone.outcome ⟨counter, 0⟩ = outcome at hsteps
      have hover : ∀ job ∈ before ++ [.done outcome.1], ∃ result, job = .done result :=
        List.forall_mem_append.mpr ⟨hbefore, List.forall_mem_singleton.mpr ⟨_, rfl⟩⟩
      obtain ⟨pool', hrest, hfinished⟩ := ih (before ++ [.done outcome.1]) outcome.2.shapes hover
      rw [List.append_assoc, List.singleton_append] at hrest
      exact ⟨pool', hsteps.trans hrest, hfinished⟩
  obtain ⟨counter, jobs⟩ := pool
  exact hfinish jobs [] counter nofun

end Pool

end TypeSketch
