import Mathlib.Logic.Function.Basic
import OpenvpnControl.Library.Runs

/-!
# Two read-modify-write requests on one row

Two requests work on one row. Each loads the whole row, computes, and stores a whole row in place of
what is there then, or stores nothing. Nothing keeps the other one from storing in between. A run is
one of six schedules, and what it leaves depends on whether a request loaded before or after the
other one stored.

## Main definitions

* `ReadModifyWrite.State`, `ReadModifyWrite.step`: the row and how far each request is.
* `ReadModifyWrite.after`: what one request leaves of a row.

## Main results

* `ReadModifyWrite.schedule_of_run`: the schedules of two requests and what they leave.
-/

namespace ReadModifyWrite

variable {σ : Type*}

/-- How far a request is. -/
inductive Phase (σ : Type*) where
  | idle
  | loaded (seen : σ)
  | finished

/-- The row and the phases of the two requests. -/
structure State (σ : Type*) where
  row : σ
  phase : Bool → Phase σ

/-- A database step of a request. -/
inductive Event where
  | load (i : Bool)
  | store (i : Bool)
  deriving DecidableEq

/-- Both requests are still to start. -/
def start (x : σ) : State σ := ⟨x, fun _ => .idle⟩

/-- What a request leaves of a row when it stores what it computes from it, if anything. -/
def after (f : σ → Option σ) (x : σ) : σ := (f x).getD x

/-- One step, where `f i` computes what request `i` stores from what it loaded. -/
def step (f : Bool → σ → Option σ) (s : State σ) : Event → Option (State σ)
  | .load i =>
    match s.phase i with
    | .idle => some { s with phase := Function.update s.phase i (.loaded s.row) }
    | _ => none
  | .store i =>
    match s.phase i with
    | .loaded seen =>
      some ⟨(f i seen).getD s.row, Function.update s.phase i .finished⟩
    | _ => none

variable {f : Bool → σ → Option σ} {s s' t : State σ} {i : Bool} {events : List Event}

theorem step_load_eq_some :
    step f s (.load i) = some s' ↔
      s.phase i = .idle ∧ s' = { s with phase := Function.update s.phase i (.loaded s.row) } := by
  rw [step]
  cases s.phase i <;> simp [eq_comm]

theorem step_store_eq_some :
    step f s (.store i) = some s' ↔
      ∃ seen, s.phase i = .loaded seen ∧
        s' = ⟨(f i seen).getD s.row, Function.update s.phase i .finished⟩ := by
  rw [step]
  cases s.phase i <;> simp [eq_comm]

theorem eq_or_eq_not (i j : Bool) : j = i ∨ j = !i := by
  cases i <;> cases j <;> simp

/-- Nothing happens after both requests are finished. -/
theorem run_of_finished (hs : ∀ i, s.phase i = .finished)
    (hrun : Runs.run (step f) s events = some t) : events = [] ∧ t = s := by
  rcases events with _ | ⟨e, es⟩
  · exact ⟨rfl, (Option.some.inj hrun).symm⟩
  · obtain ⟨s', hstep, -⟩ := Runs.run_cons_eq_some.1 hrun
    rcases e with j | j
    · rw [step_load_eq_some, hs] at hstep
      exact absurd hstep.1 nofun
    · obtain ⟨seen, hseen, -⟩ := step_store_eq_some.1 hstep
      rw [hs] at hseen
      cases hseen

/-- One request is finished and the other one has loaded. -/
theorem run_of_loaded {seen : σ} (hi : s.phase i = .loaded seen) (hother : s.phase (!i) = .finished)
    (hdone : ∀ j, t.phase j = .finished) (hrun : Runs.run (step f) s events = some t) :
    events = [.store i] ∧ t.row = (f i seen).getD s.row := by
  rcases events with _ | ⟨e, es⟩
  · obtain rfl := Option.some.inj hrun
    rw [hdone] at hi
    cases hi
  · obtain ⟨s', hstep, hrest⟩ := Runs.run_cons_eq_some.1 hrun
    rcases e with j | j
    · obtain ⟨hj, -⟩ := step_load_eq_some.1 hstep
      rcases eq_or_eq_not i j with rfl | rfl
      · rw [hi] at hj
        cases hj
      · rw [hother] at hj
        cases hj
    · obtain ⟨seen', hj, rfl⟩ := step_store_eq_some.1 hstep
      rcases eq_or_eq_not i j with rfl | rfl
      · rw [hi] at hj
        obtain rfl := Phase.loaded.inj hj
        obtain ⟨rfl, rfl⟩ := run_of_finished (fun k => by
          rcases eq_or_eq_not j k with rfl | rfl
          · exact Function.update_self ..
          · exact (Function.update_of_ne (by simp) ..).trans hother) hrest
        exact ⟨rfl, rfl⟩
      · rw [hother] at hj
        cases hj

/-- One request is finished and the other one is still to start. -/
theorem run_of_idle (hi : s.phase i = .idle) (hother : s.phase (!i) = .finished)
    (hdone : ∀ j, t.phase j = .finished) (hrun : Runs.run (step f) s events = some t) :
    events = [.load i, .store i] ∧ t.row = after (f i) s.row := by
  rcases events with _ | ⟨e, es⟩
  · obtain rfl := Option.some.inj hrun
    rw [hdone] at hi
    cases hi
  · obtain ⟨s', hstep, hrest⟩ := Runs.run_cons_eq_some.1 hrun
    rcases e with j | j
    · obtain ⟨hj, rfl⟩ := step_load_eq_some.1 hstep
      rcases eq_or_eq_not i j with rfl | rfl
      · obtain ⟨rfl, hrow⟩ := run_of_loaded (i := j) (Function.update_self ..)
          ((Function.update_of_ne (by simp) ..).trans hother) hdone hrest
        exact ⟨rfl, hrow⟩
      · rw [hother] at hj
        cases hj
    · obtain ⟨seen, hj, -⟩ := step_store_eq_some.1 hstep
      rcases eq_or_eq_not i j with rfl | rfl
      · rw [hi] at hj
        cases hj
      · rw [hother] at hj
        cases hj

/-- Both requests have loaded the row that is there. -/
theorem run_of_both_loaded (hs : ∀ i, s.phase i = .loaded s.row)
    (hdone : ∀ j, t.phase j = .finished) (hrun : Runs.run (step f) s events = some t) :
    ∃ i, events = [.store i, .store (!i)] ∧ t.row = (f (!i) s.row).getD (after (f i) s.row) := by
  rcases events with _ | ⟨e, es⟩
  · obtain rfl := Option.some.inj hrun
    have h := hs true
    rw [hdone] at h
    cases h
  · obtain ⟨s', hstep, hrest⟩ := Runs.run_cons_eq_some.1 hrun
    rcases e with j | j
    · rw [step_load_eq_some, hs] at hstep
      exact absurd hstep.1 nofun
    · obtain ⟨seen, hj, rfl⟩ := step_store_eq_some.1 hstep
      rw [hs] at hj
      obtain rfl := Phase.loaded.inj hj
      obtain ⟨rfl, hrow⟩ := run_of_loaded (i := !j)
        ((Function.update_of_ne (by simp) ..).trans (hs _))
        (by rw [Bool.not_not]; exact Function.update_self ..) hdone hrest
      exact ⟨j, rfl, hrow⟩

/-- **The schedules of two requests**: one after the other, or both loaded before the first one
stores. In the second case what the first one stored is overwritten, unless the second one stores
nothing. -/
theorem schedule_of_run {x : σ} (hdone : ∀ j, t.phase j = .finished)
    (hrun : Runs.run (step f) (start x) events = some t) :
    ∃ i, (events = [.load i, .store i, .load (!i), .store (!i)] ∧
          t.row = after (f (!i)) (after (f i) x)) ∨
        ((∃ j, events = [.load j, .load (!j), .store i, .store (!i)]) ∧
          t.row = (f (!i) x).getD (after (f i) x)) := by
  rcases events with _ | ⟨e, es⟩
  · obtain rfl := Option.some.inj hrun
    cases hdone true
  obtain ⟨s₁, hstep, hrest⟩ := Runs.run_cons_eq_some.1 hrun
  rcases e with i | i
  swap
  · obtain ⟨seen, hi, -⟩ := step_store_eq_some.1 hstep
    cases hi
  obtain ⟨-, rfl⟩ := step_load_eq_some.1 hstep
  have hi : (Function.update (fun _ => .idle) i (.loaded x) : Bool → Phase σ) i = .loaded x :=
    Function.update_self ..
  have hother : (Function.update (fun _ => .idle) i (.loaded x) : Bool → Phase σ) (!i) = .idle :=
    Function.update_of_ne (by simp) ..
  rcases es with _ | ⟨e, es⟩
  · obtain rfl := Option.some.inj hrest
    exact absurd (hi.symm.trans (hdone i)) nofun
  obtain ⟨s₂, hstep, hrest⟩ := Runs.run_cons_eq_some.1 hrest
  rcases e with j | j
  · -- the other request loads before the first one stores
    obtain ⟨hj, rfl⟩ := step_load_eq_some.1 hstep
    rcases eq_or_eq_not i j with rfl | rfl
    · exact absurd (hj.symm.trans hi) nofun
    · obtain ⟨k, rfl, hrow⟩ := run_of_both_loaded (fun k => by
        rcases eq_or_eq_not (!i) k with rfl | rfl
        · exact Function.update_self ..
        · rw [Bool.not_not]
          exact (Function.update_of_ne (by simp) ..).trans hi) hdone hrest
      exact ⟨k, Or.inr ⟨⟨i, rfl⟩, hrow⟩⟩
  · obtain ⟨seen, hj, rfl⟩ := step_store_eq_some.1 hstep
    rcases eq_or_eq_not i j with rfl | rfl
    · obtain rfl := Phase.loaded.inj (hi.symm.trans hj)
      obtain ⟨rfl, hrow⟩ := run_of_idle (i := !j)
        ((Function.update_of_ne (by simp) ..).trans hother)
        (by rw [Bool.not_not]; exact Function.update_self ..) hdone hrest
      exact ⟨j, Or.inl ⟨rfl, hrow⟩⟩
    · exact absurd (hother.symm.trans hj) nofun

end ReadModifyWrite
