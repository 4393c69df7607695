import Mathlib.Data.Int.Order.Basic
import Mathlib.Tactic.SplitIfs

/-!
# The precision of timestamps

A clock reads nanoseconds since 1970. A parameter of a statement carries microseconds, and a column
of type `TIMESTAMP(3)` milliseconds.

A time loses its digits twice on its way to a column, and a comparison in a statement is one of a
column with a parameter. Both roundings are monotone, which is what the proofs about clocks need of
them.

## Main definitions

* `Timestamp.param`: a time as a parameter of a statement.
* `Timestamp.stamp`: a time as it is stored.

## Main results

* `Timestamp.stamp_mono`: a later time is not stored as an earlier one.
* `Timestamp.stamp_bounds`: a time is stored as one at most a millisecond away.
-/

namespace Timestamp

/-- The nanoseconds of a second. -/
def second : ℤ := 1000000000

/-- The nanoseconds of a day. -/
def day : ℤ := 24 * 3600 * second

/-- The microseconds from 1970 to 2000, where the database counts from. -/
def epoch : ℤ := 946684800000000

/-- A time as a parameter, truncated to microseconds. -/
def param (t : ℤ) : ℤ := t / 1000 * 1000

/-- A time as a column of milliseconds, rounded to the nearest one and half away from 2000. -/
def stamp (t : ℤ) : ℤ :=
  let micros := t / 1000 - epoch
  let millis := if 0 ≤ micros then (micros + 500) / 1000 else -((-micros + 500) / 1000)
  (millis * 1000 + epoch) * 1000

theorem stamp_mono {s t : ℤ} (h : s ≤ t) : stamp s ≤ stamp t := by
  simp only [stamp]
  split_ifs <;> omega

theorem stamp_bounds (t : ℤ) : t - 1000000 < stamp t ∧ stamp t < t + 1000000 := by
  simp only [stamp, epoch]
  split_ifs <;> omega

theorem param_le (t : ℤ) : param t ≤ t := by
  unfold param
  omega

theorem param_mono {s t : ℤ} (h : s ≤ t) : param s ≤ param t := by
  unfold param
  omega

/-- What was a second ago is before what is stored now. -/
theorem param_le_stamp {freshness now : ℤ} (h : second ≤ freshness) :
    param (now - freshness) ≤ stamp now := by
  have hparam := param_le (now - freshness)
  have hstamp := (stamp_bounds now).1
  unfold second at h
  omega

end Timestamp
