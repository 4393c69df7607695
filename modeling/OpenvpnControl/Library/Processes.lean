import Mathlib.Logic.Function.Basic
import OpenvpnControl.Library.Runs

/-!
# Processes with phases

Any number of processes share a world. Each is in a phase, and makes one atomic statement at a time:
what the statement does to the world, and the phase after it, depend on the phase, on the world it
runs in and on an outcome that the surroundings choose. The statements interleave in any order.

## Main definitions

* `Processes.State`, `Processes.step`: the world with the phases, and one statement of one process.
* `Processes.Outline`: an invariant, and an assertion for each process that its own statements
  establish and those of the others leave alone.

## Main results

* `Processes.step_eq_some`: what one statement does.
* `Processes.Outline.run`, `Processes.Outline.meets`: the assertions of an outline hold in every
  run.
-/

namespace Processes

variable {ι ω φ ε : Type*} [DecidableEq ι]

/-- The world, and how far each process is. -/
structure State (ι ω φ : Type*) where
  world : ω
  phase : ι → φ

/-- One statement of one process, where `act i p e w` is what process `i` does in phase `p` when the
outcome is `e` and the world is `w`. -/
def step (act : ι → φ → ε → ω → Option (φ × ω)) (s : State ι ω φ) (event : ι × ε) :
    Option (State ι ω φ) :=
  (act event.1 (s.phase event.1) event.2 s.world).map fun out =>
    ⟨out.2, Function.update s.phase event.1 out.1⟩

variable {act : ι → φ → ε → ω → Option (φ × ω)} {s t : State ι ω φ}

theorem step_eq_some {event : ι × ε} :
    step act s event = some t ↔ ∃ p w, act event.1 (s.phase event.1) event.2 s.world = some (p, w) ∧
      t = ⟨w, Function.update s.phase event.1 p⟩ := by
  rw [step, Option.map_eq_some_iff]
  simp only [Prod.exists, eq_comm]

/-- A proof outline: an invariant of the world, and an assertion for each process, on its phase and
the world. Each statement that meets the side condition keeps the invariant, establishes the
assertion of its process, and keeps those of the others. -/
structure Outline (act : ι → φ → ε → ω → Option (φ × ω)) (ok : State ι ω φ → ι × ε → Prop)
    (inv : ω → Prop) (assertion : ι → φ → ω → Prop) : Prop where
  own : ∀ {s : State ι ω φ} {i e p w}, inv s.world → (∀ j, assertion j (s.phase j) s.world) →
    ok s (i, e) → act i (s.phase i) e s.world = some (p, w) → inv w ∧ assertion i p w
  others : ∀ {s : State ι ω φ} {i j e p w}, j ≠ i → inv s.world →
    (∀ k, assertion k (s.phase k) s.world) → ok s (i, e) →
    act i (s.phase i) e s.world = some (p, w) → assertion j (s.phase j) w

/-- The invariant and the assertions hold. -/
def Holds (inv : ω → Prop) (assertion : ι → φ → ω → Prop) (s : State ι ω φ) : Prop :=
  inv s.world ∧ ∀ j, assertion j (s.phase j) s.world

namespace Outline

variable {ok ok' : State ι ω φ → ι × ε → Prop} {inv : ω → Prop} {assertion : ι → φ → ω → Prop}

theorem step (h : Outline act ok inv assertion) {event : ι × ε} (hs : Holds inv assertion s)
    (hok : ok s event) (hstep : Processes.step act s event = some t) : Holds inv assertion t := by
  obtain ⟨i, e⟩ := event
  obtain ⟨p, w, hact, rfl⟩ := step_eq_some.1 hstep
  refine ⟨(h.own hs.1 hs.2 hok hact).1, fun j => ?_⟩
  by_cases hj : j = i
  · subst hj
    dsimp only
    rw [Function.update_self]
    exact (h.own hs.1 hs.2 hok hact).2
  · dsimp only
    rw [Function.update_of_ne hj]
    exact h.others hj hs.1 hs.2 hok hact

/-- **The rule of proof outlines.** The invariant and the assertions hold in every run whose
statements all meet the side condition. -/
theorem run (h : Outline act ok inv assertion) {events : List (ι × ε)} (hs : Holds inv assertion s)
    (hok : Runs.Meets (Processes.step act) ok s events)
    (hrun : Runs.run (Processes.step act) s events = some t) : Holds inv assertion t :=
  Runs.run_invariant_of_meets (fun _ _ _ hs hok hstep => h.step hs hok hstep) hs hok hrun

/-- What the assertions give holds at every statement of the run. -/
theorem meets (h : Outline act ok inv assertion) {events : List (ι × ε)}
    (hs : Holds inv assertion s) (hok : Runs.Meets (Processes.step act) ok s events)
    (himp : ∀ s e, Holds inv assertion s → ok s e → ok' s e) :
    Runs.Meets (Processes.step act) ok' s events :=
  Runs.meets_of_invariant (fun _ _ _ hs hok hstep => h.step hs hok hstep) himp hs hok

end Outline

end Processes
