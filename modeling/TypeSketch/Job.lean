import Mathlib.Logic.Relation
import TypeSketch.Supply

/-!
# Jobs

A job is a draft that stops before every number that it takes for a shape, so that other jobs may
take numbers in between. The jobs of a pool take their numbers from one counter, in any order.
-/

namespace TypeSketch

/-- A computation that is over, or waits for the next number of an unnamed shape. -/
inductive Job (α : Type)
  | done (result : Except Error α)
  | take (next : Nat → Job α)

namespace Job

variable {α β : Type}

/-- A job, and one that goes on with what it made. -/
def bind (job : Job α) (f : α → Job β) : Job β :=
  match job with
  | done (.ok a) => f a
  | done (.error e) => done (.error e)
  | take next => take fun n => (next n).bind f

instance : Monad Job where
  pure a := done (.ok a)
  bind := bind

/-- The number of the next unnamed shape. -/
def number : Job Nat := take fun n => done (.ok n)

/-- The draft that the job is if it takes one number after the other. -/
def alone : Job α → Draft α
  | done result => Draft.ofExcept result
  | take next => do (next (← Draft.shapeNumber)).alone

/-- What a job made that is over. -/
def result? : Job α → Option α
  | done (.ok a) => some a
  | _ => none

end Job

/-- Jobs that take their numbers from one counter. -/
structure Pool (α : Type) where
  counter : Nat
  jobs : List (Job α)

namespace Pool

variable {α : Type}

/-- One of the jobs takes the next number. -/
inductive Step : Pool α → Pool α → Prop
  | take (counter : Nat) (before : List (Job α)) (next : Nat → Job α) (after : List (Job α)) :
      Step ⟨counter, before ++ .take next :: after⟩
        ⟨counter + 1, before ++ next counter :: after⟩

/-- The jobs take numbers, in any order. -/
abbrev Steps : Pool α → Pool α → Prop := Relation.ReflTransGen Step

/-- All jobs are over. -/
def Finished (pool : Pool α) : Prop := ∀ job ∈ pool.jobs, ∃ result, job = .done result

end Pool

end TypeSketch
