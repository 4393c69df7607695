import Mathlib.Algebra.Order.Ring.Int
import Mathlib.Data.Bool.Basic
import OpenvpnControl.Library.Processes

/-!
# The scheduler of the backups

A ticker calls `tick` every minute, beside the requests that change the settings, make a backup by
hand or restore one. All of them read and write the one row of `PanelAppBackupSettings` in separate
statements, and a flag keeps two ticks apart. This file says how far apart the scheduled backups
are, whatever the order of the statements and whichever of them fail.

The interval of the row is a number of minutes that is multiplied in 64 bits. A request stores at
most a week; a restore stores what the archive has, and beyond `maxInterval` the product wraps
around.

## Main definitions

* `ScheduleRow`, `SchedulerWorld`: the row of the settings, and what the statements share.
* `Phase`, `schedulerAct`: a tick or a request, statement by statement.
* `Spaced`: a scheduled backup comes at least its interval after those that were recorded before it.
* `Orderly`: a request that switches the schedule on writes its time soon after it has read the
  clock, and a restored interval does not wrap around.

## Main results

* `Change.inv`, `Change.asserts`: what a statement leaves.
* `spaced_of_run`: the scheduled backups are spaced in every run.
-/

namespace OpenvpnControl.Panelbackup

open Processes (State)

/-! ### The row and the clock -/

/-- The row of `PanelAppBackupSettings` with the id 1. Times are in nanoseconds. -/
structure ScheduleRow where
  intervalMinutes : ℤ
  retainCount : ℤ
  lastScheduledAt : Option ℤ
  deriving DecidableEq

/-- `time.Minute`. -/
def minute : ℤ := 60000000000

/-- `time.Duration(minutes) * time.Minute`, with 64 bits. -/
def minutes (n : ℤ) : ℤ := (n * minute).bmod (2 ^ 64)

/-- The longest interval in minutes that is a `time.Duration`. -/
def maxInterval : ℤ := 153722867

theorem zero_le_maxInterval : 0 ≤ maxInterval := by decide

theorem minutes_of_le {n : ℤ} (hpos : 0 < n) (hn : n ≤ maxInterval) : minutes n = n * minute := by
  rw [maxInterval] at hn
  rw [minutes, minute, Int.bmod_eq_of_le] <;> omega

def clampInt (v lo hi : ℤ) : ℤ := if v < lo then lo else if v > hi then hi else v

/-- What is noted of the scheduled backups: one was made, after an interval in minutes, or the time
of one was written into the row. -/
inductive ScheduleNote where
  | made (time interval : ℤ)
  | recorded (time : ℤ)
  deriving DecidableEq

/-- What ticks and requests share: the clock, the row, the flag `running` with the tick that has set
it, and the notes since the last restore, the latest first. -/
structure SchedulerWorld (ι : Type) where
  now : ℤ
  settings : Option ScheduleRow
  running : Option ι
  notes : List ScheduleNote
  deriving DecidableEq

/-! ### Ticks and requests -/

/-- Who makes a backup or prunes. A tick has read an interval and the time of the last backup. -/
inductive Caller where
  | tick (interval last : ℤ)
  | manual
  | settings
  deriving DecidableEq

/-- Who calls `EnsureBackupSettingsRow`. The body of `UpdateSettings` has the numbers after their
conversion to `int`; no body is one that does not decode. -/
inductive EnsureUse where
  | tick
  | settings (body : Option (Option ℤ × Option ℤ))
  | prune (caller : Caller)
  deriving DecidableEq

/-- The statement that is next. -/
inductive Phase where
  | idle
  | ensure (use : EnsureUse)
  | missing (use : EnsureUse)
  | insert (now : ℤ) (use : EnsureUse)
  | check (interval last : ℤ)
  | create (caller : Caller)
  | writeFile (caller : Caller)
  | list (caller : Caller)
  | clock
  | record (now : ℤ)
  | release
  | previous (interval retain : ℤ)
  | switchOn (interval retain : ℤ)
  | update (interval retain : ℤ) (last : Option ℤ)
  deriving DecidableEq

/-- What starts, or what happens to a statement. The row of a restore is the one with the id 1 that
its transaction leaves. -/
inductive SchedulerEvent where
  | startTick
  | startRun
  | startUpdate (body : Option (Option ℤ × Option ℤ))
  | restore (row : Option ScheduleRow)
  | clock (t : ℤ)
  | executes
  | fails
  deriving DecidableEq

/-- After a step of a backup has failed. -/
def failed : Caller → Phase
  | .tick _ _ => .release
  | .manual | .settings => .idle

/-- After a backup is made, or after `UpdateSettings` has pruned. -/
def finished : Caller → Phase
  | .tick _ _ => .clock
  | .manual | .settings => .idle

/-- What follows `EnsureBackupSettingsRow`. -/
def afterEnsure : EnsureUse → Option ScheduleRow → Phase
  | .tick, none => .release
  | .tick, some s =>
    if s.intervalMinutes ≤ 0 then .release
    else match s.lastScheduledAt with
      | none => .release
      | some last => .check s.intervalMinutes last
  | .settings _, none | .settings none, some _ => .idle
  | .settings (some (interval, retain)), some _ =>
    .previous (interval.elim 0 fun v => clampInt v 0 10080)
      (retain.elim 10 fun v => clampInt v 1 500)
  | .prune caller, none => failed caller
  | .prune caller, some _ => .list caller

/-- What follows the query of the interval before. -/
def afterPrevious (prevInterval interval retain : ℤ) : Phase :=
  if prevInterval = 0 ∧ interval > 0 then .switchOn interval retain
    else .update interval retain none

variable {ι : Type}

/-- The next statement of a tick or of a request, where `stored` is what the column gives back of a
time. -/
def schedulerAct (stored : ℤ → ℤ) (i : ι) :
    Phase → SchedulerEvent → SchedulerWorld ι → Option (Phase × SchedulerWorld ι)
  | .idle, .startTick, w =>
    some (if w.running.isSome then (.idle, w) else (.ensure .tick, { w with running := some i }))
  | .idle, .startRun, w => some (.create .manual, w)
  | .idle, .startUpdate body, w => some (.ensure (.settings body), w)
  | .idle, .restore row, w => some (.idle, { w with settings := row, notes := [] })
  | .idle, .clock t, w => if w.now ≤ t then some (.idle, { w with now := t }) else none
  | .ensure use, .fails, w | .insert _ use, .fails, w => some (afterEnsure use none, w)
  | .ensure use, .executes, w =>
    some (w.settings.elim (.missing use) fun s => afterEnsure use (some s), w)
  | .missing use, .executes, w => some (.insert w.now use, w)
  | .insert now use, .executes, w =>
    -- another request may have inserted the row in between, and then the key is a duplicate
    some (if w.settings.isSome then (afterEnsure use none, w)
      else (afterEnsure use (some ⟨0, 10, some now⟩),
      { w with settings := some ⟨0, 10, some (stored now)⟩ }))
  | .check interval last, .executes, w =>
    some (if w.now < last + minutes interval then .release else .create (.tick interval last), w)
  | .create caller, .fails, w | .writeFile caller, .fails, w | .list caller, .fails,
    w => some (failed caller, w)
  | .create (.tick interval last), .executes, w =>
    some (.writeFile (.tick interval last), { w with notes := .made w.now interval :: w.notes })
  | .create caller, .executes, w => some (.writeFile caller, w)
  | .writeFile caller, .executes, w => some (.ensure (.prune caller), w)
  | .list caller, .executes, w => some (finished caller, w)
  | .clock, .executes, w => some (.record w.now, w)
  | .record _, .fails, w => some (.release, w)
  | .record now, .executes, w =>
    some (.release, match w.settings with
      | none => w
      | some s => { w with settings := some { s with lastScheduledAt := some (stored now) }
                           notes := .recorded now :: w.notes })
  | .release, .executes, w => some (.idle, { w with running := none })
  | .previous interval retain, .fails, w =>
    -- the error is ignored, and the interval before is then taken to be 0
    some (afterPrevious 0 interval retain, w)
  | .previous interval retain, .executes, w =>
    some (afterPrevious (w.settings.elim 0 ScheduleRow.intervalMinutes) interval retain, w)
  | .switchOn interval retain, .executes, w => some (.update interval retain (some w.now), w)
  | .update _ _ _, .fails, w => some (.idle, w)
  | .update interval retain last, .executes, w =>
    some (match w.settings with
      | none => (.idle, w)
      | some s => (.ensure (.prune .settings), { w with
          settings := some ⟨interval, retain, (last.map stored).or s.lastScheduledAt⟩ }))
  | _, _, _ => none

/-! ### The property -/

/-- The column gives the times back in their order. -/
def Rising (stored : ℤ → ℤ) : Prop := ∀ t u : ℤ, t ≤ u → stored t ≤ stored u

/-- The times of the backups that were recorded. -/
def recordedTimes (notes : List ScheduleNote) : List ℤ :=
  notes.filterMap fun
    | .recorded t => some t
    | .made _ _ => none

/-- **Scheduled backups are spaced**: one has an interval, and comes at least this interval after
the time that the column gave back for each backup that was recorded before it, but for a delay
`d`. -/
def Spaced (stored : ℤ → ℤ) (d : ℤ) : List ScheduleNote → Prop
  | [] => True
  | .made time interval :: earlier => 0 < interval ∧
    (∀ t ∈ recordedTimes earlier, stored (t - d) + interval * minute ≤ time) ∧
      Spaced stored d earlier
  | .recorded _ :: earlier => Spaced stored d earlier

/-- The row has an interval that does not wrap around. -/
def Fits (settings : Option ScheduleRow) : Prop := ∀ s ∈ settings, s.intervalMinutes ≤ maxInterval

instance (settings : Option ScheduleRow) : Decidable (Fits settings) :=
  inferInstanceAs (Decidable (∀ s ∈ settings, s.intervalMinutes ≤ maxInterval))

/-- The condition on a statement: when a request writes the time at which it switches the schedule
on, it has read the clock no longer than `d` ago; and a restore leaves an interval that does not
wrap around. -/
def Orderly (d : ℤ) (s : State ι (SchedulerWorld ι) Phase) (event : ι × SchedulerEvent) : Prop :=
  match s.phase event.1, event.2 with
  | .update _ _ (some t), .executes => s.world.now ≤ t + d
  | .idle, .restore row => Fits row
  | _, _ => True

instance (d : ℤ) (s : State ι (SchedulerWorld ι) Phase) (event : ι × SchedulerEvent) :
    Decidable (Orderly d s event) := by
  unfold Orderly
  split <;> infer_instance

/-- An interval that `UpdateSettings` writes does not wrap around. -/
theorem clampInt_le_maxInterval (v : ℤ) : clampInt v 0 10080 ≤ maxInterval := by
  rw [clampInt, maxInterval]
  split_ifs <;> omega

theorem interval_le_maxInterval (body : Option ℤ) :
    (body.elim 0 fun v => clampInt v 0 10080) ≤ maxInterval := by
  cases body with
  | none => exact zero_le_maxInterval
  | some v => exact clampInt_le_maxInterval v

/-! ### What a tick knows -/

/-- Is the caller a tick? -/
def Caller.isTick : Caller → Bool
  | .tick _ _ => true
  | .manual | .settings => false

/-- Does a tick ask for the row? -/
def EnsureUse.isTick : EnsureUse → Bool
  | .tick => true
  | .settings _ => false
  | .prune caller => caller.isTick

/-- Is the statement one of a tick that has set the flag? -/
def Phase.inTick : Phase → Bool
  | .ensure use | .missing use | .insert _ use => use.isTick
  | .create caller | .writeFile caller | .list caller => caller.isTick
  | .check _ _ | .clock | .record _ | .release => true
  | .idle | .previous _ _ | .switchOn _ _ | .update _ _ _ => false

/-- The recorded backups, but for the delay, are no later than a time. -/
def Below (stored : ℤ → ℤ) (d last : ℤ) (notes : List ScheduleNote) : Prop :=
  ∀ t ∈ recordedTimes notes, stored (t - d) ≤ last

/-- What holds of the shared state. -/
structure SchedulerInv (stored : ℤ → ℤ) (d : ℤ) (w : SchedulerWorld ι) : Prop where
  clock : ∀ t ∈ recordedTimes w.notes, t ≤ w.now
  row : ∀ s, w.settings = some s → ∀ last, s.lastScheduledAt = some last →
    Below stored d last w.notes
  noRow : w.settings = none → recordedTimes w.notes = []
  fits : Fits w.settings
  spaced : Spaced stored d w.notes

/-- What a tick or a request knows before a statement. -/
def Knows (stored : ℤ → ℤ) (d : ℤ) : Phase → SchedulerWorld ι → Prop
  | .check interval last, w => 0 < interval ∧ interval ≤ maxInterval ∧ Below stored d last w.notes
  | .create (.tick interval last), w =>
    0 < interval ∧ Below stored d last w.notes ∧ last + interval * minute ≤ w.now
  | .record t, w => t ≤ w.now ∧ ∀ u ∈ recordedTimes w.notes, u ≤ t
  | .previous interval _, _ | .switchOn interval _, _ | .update interval _ _, _ =>
    interval ≤ maxInterval
  | _, _ => True

/-- The assertion of a tick or a request. -/
structure Asserts (stored : ℤ → ℤ) (d : ℤ) (i : ι) (p : Phase) (w : SchedulerWorld ι) : Prop where
  lock : p.inTick = true → w.running = some i
  knows : Knows stored d p w

/-- **What a statement does** to the shared state. -/
inductive Change (stored : ℤ → ℤ) (d : ℤ) (i : ι) (w : SchedulerWorld ι) : SchedulerWorld ι → Prop
  | same : Change stored d i w w
  | clock (t : ℤ) : w.now ≤ t → Change stored d i w { w with now := t }
  | acquire : w.running = none → Change stored d i w { w with running := some i }
  | release : w.running = some i → Change stored d i w { w with running := none }
  | settings (s : ScheduleRow) : s.intervalMinutes ≤ maxInterval →
    (∀ last, s.lastScheduledAt = some last → Below stored d last w.notes) →
    Change stored d i w { w with settings := some s }
  | restore (row : Option ScheduleRow) : Fits row →
    Change stored d i w { w with settings := row, notes := [] }
  | made (interval : ℤ) : w.running = some i → 0 < interval →
    (∀ t ∈ recordedTimes w.notes, stored (t - d) + interval * minute ≤ w.now) →
    Change stored d i w { w with notes := .made w.now interval :: w.notes }
  | recorded (t : ℤ) (s : ScheduleRow) : w.running = some i → s.intervalMinutes ≤ maxInterval →
    t ≤ w.now → (∀ u ∈ recordedTimes w.notes, u ≤ t) →
    Change stored d i w { w with settings := some { s with lastScheduledAt := some (stored t) }
                                 notes := .recorded t :: w.notes }

variable {stored : ℤ → ℤ} {d : ℤ} {i j : ι} {p p' : Phase} {w w' : SchedulerWorld ι}
  {e : SchedulerEvent}

@[simp] theorem recordedTimes_made (t interval : ℤ) (notes : List ScheduleNote) :
    recordedTimes (.made t interval :: notes) = recordedTimes notes := rfl

@[simp] theorem recordedTimes_recorded (t : ℤ) (notes : List ScheduleNote) :
    recordedTimes (.recorded t :: notes) = t :: recordedTimes notes := rfl

/-- **The invariant** is kept by what a statement does. -/
theorem Change.inv (hd : 0 ≤ d) (hstored : Rising stored) (hw : SchedulerInv stored d w)
    (h : Change stored d i w w') : SchedulerInv stored d w' := by
  cases h with
  | same => exact hw
  | clock t ht => exact ⟨fun u hu => (hw.clock u hu).trans ht, hw.row, hw.noRow, hw.fits, hw.spaced⟩
  | acquire _ => exact ⟨hw.clock, hw.row, hw.noRow, hw.fits, hw.spaced⟩
  | release _ => exact ⟨hw.clock, hw.row, hw.noRow, hw.fits, hw.spaced⟩
  | settings s hfits hs =>
    refine ⟨hw.clock, fun s' hs' => ?_, nofun, fun s' hs' => ?_, hw.spaced⟩
    · obtain rfl := Option.some.inj hs'
      exact hs
    · obtain rfl := Option.some.inj hs'
      exact hfits
  | restore row hfits => exact ⟨nofun, fun _ _ _ _ => nofun, fun _ => rfl, hfits, trivial⟩
  | made interval _ hpos hspaced =>
    exact ⟨hw.clock, hw.row, hw.noRow, hw.fits, hpos, hspaced, hw.spaced⟩
  | recorded t s _ hfits ht hlast =>
    have hall : ∀ u ∈ t :: recordedTimes w.notes, u ≤ t := List.forall_mem_cons.2 ⟨le_refl t, hlast⟩
    refine ⟨fun u hu => (hall u hu).trans ht, fun s' hs' last hl u hu => ?_, nofun,
      fun s' hs' => ?_, hw.spaced⟩
    · obtain rfl := Option.some.inj hs'
      obtain rfl := Option.some.inj hl
      have hle := hall u hu
      exact hstored _ _ (by omega)
    · obtain rfl := Option.some.inj hs'
      exact hfits

/-- What is known of a request that is no tick does not depend on the state. -/
theorem Knows.of_not_inTick (h : Knows stored d p w) (hp : p.inTick = false)
    (w' : SchedulerWorld ι) : Knows stored d p w' := by
  cases p with
  | check => cases hp
  | record => cases hp
  | create caller =>
    cases caller with
    | tick => cases hp
    | _ => trivial
  | previous => exact h
  | switchOn => exact h
  | update => exact h
  | _ => trivial

/-- What a tick knows is kept when the clock goes on and no backup is recorded. -/
theorem Knows.mono (h : Knows stored d p w) (hnow : w.now ≤ w'.now)
    (htimes : ∀ t ∈ recordedTimes w'.notes, t ∈ recordedTimes w.notes) : Knows stored d p w' := by
  cases p with
  | check => exact ⟨h.1, h.2.1, fun t ht => h.2.2 t (htimes t ht)⟩
  | record => exact ⟨h.1.trans hnow, fun u hu => h.2 u (htimes u hu)⟩
  | create caller =>
    cases caller with
    | tick => exact ⟨h.1, fun t ht => h.2.1 t (htimes t ht), h.2.2.trans hnow⟩
    | _ => trivial
  | previous => exact h
  | switchOn => exact h
  | update => exact h
  | _ => trivial

/-- **The assertions of the others** are kept by what a statement does. -/
theorem Change.asserts (hij : j ≠ i) (h : Change stored d i w w') (hp : Asserts stored d j p w) :
    Asserts stored d j p w' := by
  -- only the tick that has set the flag makes and records backups
  have hother (hi : w.running = some i) : p.inTick = false := by
    refine Bool.eq_false_of_not_eq_true fun ht => hij ?_
    exact Option.some.inj ((hp.lock ht).symm.trans hi)
  cases h with
  | same => exact hp
  | clock t ht => exact ⟨hp.lock, hp.knows.mono ht fun _ hu => hu⟩
  | acquire hnone =>
    refine ⟨fun ht => ?_, hp.knows.mono (le_refl _) fun _ hu => hu⟩
    have hlock := hp.lock ht
    rw [hnone] at hlock
    cases hlock
  | release hi =>
    refine ⟨fun ht => ?_, hp.knows.of_not_inTick (hother hi) _⟩
    rw [hother hi] at ht
    cases ht
  | settings s _ _ => exact ⟨hp.lock, hp.knows.mono (le_refl _) fun _ hu => hu⟩
  | restore row _ => exact ⟨hp.lock, hp.knows.mono (le_refl _) nofun⟩
  | made interval _ _ _ => exact ⟨hp.lock, hp.knows.mono (le_refl _) fun _ hu => hu⟩
  | recorded t s hi _ _ _ =>
    refine ⟨fun ht => ?_, hp.knows.of_not_inTick (hother hi) _⟩
    rw [hother hi] at ht
    cases ht

/-! ### The statements -/

theorem inTick_failed (caller : Caller) : (failed caller).inTick = caller.isTick := by
  cases caller <;> rfl

theorem inTick_finished (caller : Caller) : (finished caller).inTick = caller.isTick := by
  cases caller <;> rfl

theorem knows_failed (caller : Caller) (w : SchedulerWorld ι) :
    Knows stored d (failed caller) w := by
  cases caller <;> trivial

theorem knows_finished (caller : Caller) (w : SchedulerWorld ι) :
    Knows stored d (finished caller) w := by
  cases caller <;> trivial

/-- What follows `EnsureBackupSettingsRow` belongs to a tick when the call did. -/
theorem inTick_afterEnsure (use : EnsureUse) (row : Option ScheduleRow)
    (h : (afterEnsure use row).inTick = true) : use.isTick = true := by
  cases use with
  | tick => rfl
  | settings body =>
    cases row with
    | none => cases h
    | some s => cases body <;> cases h
  | prune caller =>
    cases row with
    | none => rwa [afterEnsure, inTick_failed] at h
    | some s => exact h

theorem knows_afterEnsure_none (use : EnsureUse) (w : SchedulerWorld ι) :
    Knows stored d (afterEnsure use none) w := by
  cases use with
  | prune caller => exact knows_failed caller w
  | _ => trivial

/-- What is known once the row is read. -/
theorem knows_afterEnsure_some (use : EnsureUse) {s : ScheduleRow}
    (hs : 0 < s.intervalMinutes → s.intervalMinutes ≤ maxInterval ∧
      ∀ last, s.lastScheduledAt = some last → Below stored d last w.notes) :
    Knows stored d (afterEnsure use (some s)) w := by
  cases use with
  | tick =>
    rw [afterEnsure]
    split_ifs with hinterval
    · trivial
    · obtain ⟨hfits, hbelow⟩ := hs (not_le.1 hinterval)
      cases hlast : s.lastScheduledAt with
      | none => trivial
      | some last => exact ⟨not_le.1 hinterval, hfits, hbelow last hlast⟩
  | settings body =>
    cases body with
    | none => trivial
    | some body => exact interval_le_maxInterval body.1
  | prune caller => trivial

/-- **What a statement does**, and what its tick or request knows afterwards. -/
theorem schedulerAct_change (hw : SchedulerInv stored d w) (hp : Asserts stored d i p w)
    (hset : ∀ interval retain t, p = .update interval retain (some t) →
      e = .executes → w.now ≤ t + d)
    (hrestore : ∀ row, p = .idle → e = .restore row → Fits row)
    (hstored : Rising stored)
    (h : schedulerAct stored i p e w = some (p', w')) :
    Change stored d i w w' ∧ Asserts stored d i p' w' := by
  have hstays (hknows : Knows stored d p' w) (htick : p'.inTick = true → p.inTick = true) :
      Change stored d i w w ∧ Asserts stored d i p' w :=
    ⟨.same, fun ht => hp.lock (htick ht), hknows⟩
  cases p with
  | idle =>
    cases e with
    | startTick =>
      rw [schedulerAct, Option.some.injEq] at h
      split_ifs at h with hrunning
      · obtain ⟨rfl, rfl⟩ := Prod.mk.inj h
        exact hstays trivial id
      · obtain ⟨rfl, rfl⟩ := Prod.mk.inj h
        rw [Bool.not_eq_true, Option.isSome_eq_false_iff, Option.isNone_iff_eq_none] at hrunning
        exact ⟨.acquire hrunning, fun _ => rfl, trivial⟩
    | startRun =>
      cases h
      exact hstays trivial nofun
    | startUpdate body =>
      cases h
      exact hstays trivial nofun
    | restore row =>
      cases h
      exact ⟨.restore row (hrestore row rfl rfl), nofun, trivial⟩
    | clock t =>
      rw [schedulerAct] at h
      split_ifs at h with ht
      cases h
      exact ⟨.clock t ht, nofun, trivial⟩
    | _ => cases h
  | ensure use =>
    cases e with
    | executes =>
      cases hs : w.settings with
      | none =>
        rw [schedulerAct, hs] at h
        cases h
        exact hstays trivial id
      | some s =>
        rw [schedulerAct, hs] at h
        cases h
        exact hstays (knows_afterEnsure_some use fun _ => ⟨hw.fits s hs, hw.row s hs⟩)
          (inTick_afterEnsure use _)
    | fails =>
      cases h
      exact hstays (knows_afterEnsure_none use w) (inTick_afterEnsure use _)
    | _ => cases h
  | missing use =>
    cases e with
    | executes =>
      cases h
      exact hstays trivial id
    | _ => cases h
  | insert now use =>
    cases e with
    | executes =>
      rw [schedulerAct, Option.some.injEq] at h
      split_ifs at h with hsome
      · obtain ⟨rfl, rfl⟩ := Prod.mk.inj h
        exact hstays (knows_afterEnsure_none use w) (inTick_afterEnsure use _)
      · obtain ⟨rfl, rfl⟩ := Prod.mk.inj h
        rw [Bool.not_eq_true, Option.isSome_eq_false_iff, Option.isNone_iff_eq_none] at hsome
        refine ⟨.settings _ zero_le_maxInterval fun last _ u hu => ?_,
          fun ht => hp.lock (inTick_afterEnsure use _ ht), ?_⟩
        · -- without a row nothing was recorded
          rw [hw.noRow hsome] at hu
          cases hu
        · exact knows_afterEnsure_some use fun hinterval => absurd hinterval (lt_irrefl 0)
    | fails =>
      cases h
      exact hstays (knows_afterEnsure_none use w) (inTick_afterEnsure use _)
    | _ => cases h
  | check interval last =>
    cases e with
    | executes =>
      rw [schedulerAct, Option.some.injEq] at h
      obtain ⟨rfl, rfl⟩ := Prod.mk.inj h
      split_ifs with hdue
      · exact ⟨.same, fun _ => hp.lock rfl, trivial⟩
      · obtain ⟨hpos, hfits, hbelow⟩ := hp.knows
        rw [minutes_of_le hpos hfits] at hdue
        exact ⟨.same, fun _ => hp.lock rfl, hpos, hbelow, not_lt.1 hdue⟩
    | _ => cases h
  | create caller =>
    cases e with
    | executes =>
      cases caller with
      | tick interval last =>
        cases h
        obtain ⟨hpos, hbelow, hdue⟩ := hp.knows
        refine ⟨.made interval (hp.lock rfl) hpos fun t ht => ?_, fun _ => hp.lock rfl, trivial⟩
        exact (add_le_add_left (hbelow t ht) _).trans hdue
      | _ =>
        cases h
        exact hstays trivial nofun
    | fails =>
      cases h
      exact hstays (knows_failed caller w) fun ht => (inTick_failed caller).symm.trans ht
    | _ => cases caller <;> cases h
  | writeFile caller =>
    cases e with
    | executes =>
      cases h
      exact hstays trivial id
    | fails =>
      cases h
      exact hstays (knows_failed caller w) fun ht => (inTick_failed caller).symm.trans ht
    | _ => cases h
  | list caller =>
    cases e with
    | executes =>
      cases h
      exact hstays (knows_finished caller w) fun ht => (inTick_finished caller).symm.trans ht
    | fails =>
      cases h
      exact hstays (knows_failed caller w) fun ht => (inTick_failed caller).symm.trans ht
    | _ => cases h
  | clock =>
    cases e with
    | executes =>
      cases h
      exact hstays ⟨le_refl _, hw.clock⟩ fun _ => rfl
    | _ => cases h
  | record now =>
    cases e with
    | executes =>
      rw [schedulerAct, Option.some.injEq] at h
      obtain ⟨rfl, rfl⟩ := Prod.mk.inj h
      cases hs : w.settings with
      | none => exact ⟨.same, fun _ => hp.lock rfl, trivial⟩
      | some s =>
        exact ⟨.recorded now s (hp.lock rfl) (hw.fits s hs) hp.knows.1 hp.knows.2,
          fun _ => hp.lock rfl, trivial⟩
    | fails =>
      cases h
      exact hstays trivial fun _ => rfl
    | _ => cases h
  | release =>
    cases e with
    | executes =>
      cases h
      exact ⟨.release (hp.lock rfl), nofun, trivial⟩
    | _ => cases h
  | previous interval retain =>
    have hprevious (prev : ℤ) : Knows stored d (afterPrevious prev interval retain) w ∧
        (afterPrevious prev interval retain).inTick = (Phase.previous interval retain).inTick := by
      rw [afterPrevious]
      split_ifs
      · exact ⟨hp.knows, rfl⟩
      · exact ⟨hp.knows, rfl⟩
    cases e with
    | executes =>
      cases h
      exact hstays (hprevious _).1 fun ht => (hprevious _).2.symm.trans ht
    | fails =>
      cases h
      exact hstays (hprevious _).1 fun ht => (hprevious _).2.symm.trans ht
    | _ => cases h
  | switchOn interval retain =>
    cases e with
    | executes =>
      cases h
      exact hstays hp.knows nofun
    | _ => cases h
  | update interval retain last =>
    cases e with
    | executes =>
      rw [schedulerAct, Option.some.injEq] at h
      cases hs : w.settings with
      | none =>
        rw [hs] at h
        cases h
        exact hstays trivial nofun
      | some s =>
        rw [hs] at h
        cases h
        refine ⟨.settings _ hp.knows fun u hu => ?_, nofun, trivial⟩
        cases last with
        | none => exact hw.row s hs u hu
        | some t =>
          obtain rfl := Option.some.inj hu
          have hset' := hset interval retain t rfl rfl
          refine fun v hv => hstored _ _ ?_
          have hle := hw.clock v hv
          omega
    | fails =>
      cases h
      exact hstays trivial nofun
    | _ => cases h

/-! ### Runs -/

/-- The assertions of ticks and requests are a proof outline. -/
theorem outline (hd : 0 ≤ d) (hstored : Rising stored) :
    Processes.Outline (schedulerAct stored) (Orderly (ι := ι) d) (SchedulerInv stored d)
      (Asserts stored d) := by
  have hact : ∀ {s : State ι (SchedulerWorld ι) Phase} {i e p w}, SchedulerInv stored d s.world →
      (∀ j, Asserts stored d j (s.phase j) s.world) → Orderly d s (i, e) →
      schedulerAct stored i (s.phase i) e s.world = some (p, w) →
      Change stored d i s.world w ∧ Asserts stored d i p w := by
    intro s i e p w hinv hall hok hact
    refine schedulerAct_change hinv (hall i) (fun interval retain t hphase he => ?_)
      (fun row hphase he => ?_) hstored hact
    · subst he
      rwa [Orderly, hphase] at hok
    · subst he
      rwa [Orderly, hphase] at hok
  refine ⟨fun hinv hall hok h => ?_, fun hij hinv hall hok h => ?_⟩
  · obtain ⟨hchange, hasserts⟩ := hact hinv hall hok h
    exact ⟨hchange.inv hd hstored hinv, hasserts⟩
  · exact (hact hinv hall hok h).1.asserts hij (hall _)

/-- Nothing has started, and nothing was noted. -/
def idleScheduler (now : ℤ) (settings : Option ScheduleRow) : State ι (SchedulerWorld ι) Phase :=
  ⟨⟨now, settings, none, []⟩, fun _ => .idle⟩

/-- **Scheduled backups are spaced in every run**, however ticks and requests interleave and
whichever of their statements fail, where the minutes of the stored intervals fit a
`time.Duration`. -/
theorem spaced_of_run [DecidableEq ι] (hd : 0 ≤ d) (hstored : Rising stored) {now : ℤ}
    {settings : Option ScheduleRow} {events : List (ι × SchedulerEvent)}
    {t : State ι (SchedulerWorld ι) Phase} (hfits : Fits settings)
    (hok : Runs.Meets (Processes.step (schedulerAct stored)) (Orderly d)
      (idleScheduler now settings) events)
    (hrun : Runs.run (Processes.step (schedulerAct stored))
      (idleScheduler now settings) events = some t) :
    Spaced stored d t.world.notes := by
  have hinitial : Processes.Holds (SchedulerInv stored d) (Asserts stored d)
      (idleScheduler now settings : State ι (SchedulerWorld ι) Phase) :=
    ⟨⟨nofun, fun _ _ _ _ => nofun, fun _ => rfl, hfits, trivial⟩, fun _ => ⟨nofun, trivial⟩⟩
  exact ((outline hd hstored).run hinitial hok hrun).1.spaced

/-- Two ticks five minutes apart. Between them a request asks for ten minutes, and a tick in the
meantime comes too early. -/
def twoTicks : List (ℕ × SchedulerEvent) :=
  [(0, .clock 300000000000), (0, .startTick), (0, .executes), (1, .startTick),
    (0, .executes), (0, .executes), (0, .executes), (2, .startUpdate (some (some 10, none))),
    (0, .executes), (2, .executes), (0, .executes), (2, .executes), (0, .executes), (0, .executes),
    (2, .executes), (0, .executes), (0, .clock 600000000000), (3, .startTick), (3, .executes),
    (3, .executes), (3, .executes), (3, .clock 900000000000), (4, .startTick), (4, .executes),
    (4, .executes), (4, .executes), (4, .executes), (4, .executes), (4, .executes), (4, .executes),
    (4, .executes), (4, .executes)]

theorem spaced_of_run_twoTicks : ∃ t,
    Runs.run (Processes.step (schedulerAct id))
    (idleScheduler 0 (some ⟨5, 10, some 0⟩)) twoTicks = some t ∧
      t.world.notes.length = 4 ∧ Spaced id 0 t.world.notes := by
  obtain ⟨t, hrun⟩ := Option.isSome_iff_exists.1 (show (Runs.run (Processes.step (schedulerAct id))
    (idleScheduler 0 (some ⟨5, 10, some 0⟩)) twoTicks).isSome = true by decide +kernel)
  have hlength : ∀ t ∈ Runs.run (Processes.step (schedulerAct id)) (idleScheduler 0
      (some ⟨5, 10, some 0⟩)) twoTicks, t.world.notes.length = 4 := by
    decide +kernel
  exact ⟨t, hrun, hlength t hrun, spaced_of_run (le_refl 0) (fun _ _ h => h) (by decide)
    (by decide +kernel) hrun⟩

end OpenvpnControl.Panelbackup
