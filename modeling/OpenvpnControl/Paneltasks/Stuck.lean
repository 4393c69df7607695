import OpenvpnControl.Paneltasks.Workers

/-!
# Tasks that stay in processing

A task is marked as processing before it is executed, and only the worker that executes it marks it
otherwise. The process may end between the two, and the error of the last statement is dropped.
`Retry` refuses a task that is processing, and a start of the process leaves the queue as it is.

## Main definitions

* `CrashEvent`, `crashStep`: the steps of the pool, a completion that is lost, and a restart.
* `NoTaskStuck`: every unfinished task is pending or can be made pending again.
* `LosesNoTask`: the condition on a step.

## Main results

* `no_task_stuck`: in every run whose steps lose no task, no task is stuck.
* `Orphaned.stays`: a task that is processing and that nobody executes stays so.
* `noTaskStuck_step_iff`: the condition is exact.
* `task_stuck_after_restart`: a restart during an execution.
-/

namespace OpenvpnControl.Paneltasks

/-- A step of the pool, or a failure of the process or the database. -/
inductive CrashEvent (W : Type*) where
  | pool (e : PoolEvent W)
  /-- `completeTask`, whose `UPDATE` fails: the error is dropped. -/
  | completeFails (w : W)
  /-- The process ends and `main` runs again: no worker and no request is left. -/
  | restart

variable {W : Type*} [DecidableEq W]

/-- The state after a step, and `none` when the step cannot happen. -/
def crashStep (s : PoolState W) : CrashEvent W → Option (PoolState W)
  | .pool e => poolStep s e
  | .completeFails w =>
    match s.workers w with
    | .completing node left _ _ => some (s.setWorker w (.polling node left))
    | _ => none
  | .restart => some { s with workers := fun _ => .idle, retries := [] }

/-- What the program does with a task that is not pending: the rest of its execution, a `Retry`, and
a restart. -/
def CrashEvent.Own : CrashEvent W → Prop
  | .pool (.finish _ _) | .pool (.deleteRestart _) | .pool (.insertRestart _ _ _)
  | .pool (.complete _ _) | .pool (.retrySelect _) | .pool (.retryUpdate _ _) | .restart => True
  | _ => False

/-- Is the task pending? -/
def IsPending (id : String) (s : PoolState W) : Prop := statusOf s.tasks id = some .pending

/-- Every task that is not completed is pending, or can be made pending again. -/
def NoTaskStuck (s : PoolState W) : Prop :=
  ∀ id status, statusOf s.tasks id = some status → status ≠ .completed →
    status = .pending ∨ Runs.Possible crashStep CrashEvent.Own (IsPending id) s

/-- The condition on a step: no task is processing when the process ends, and a completion that
fails is that of a task that is not processing any more, that another worker executes too, or that a
`Retry` under way is about to update. -/
def LosesNoTask (s : PoolState W) : CrashEvent W → Prop
  | .pool _ => True
  | .completeFails w =>
    ∀ id ∈ (s.workers w).executes, statusOf s.tasks id = some .processing →
      (∃ w', w' ≠ w ∧ s.Executes w' id) ∨ id ∈ s.retries
  | .restart => ∀ t ∈ s.tasks, t.status ≠ .processing

instance [Fintype W] (s : PoolState W) : (e : CrashEvent W) → Decidable (LosesNoTask s e)
  | .pool _ => isTrue trivial
  | .completeFails w =>
    inferInstanceAs (Decidable (∀ id ∈ (s.workers w).executes,
      statusOf s.tasks id = some .processing → (∃ w', w' ≠ w ∧ s.Executes w' id) ∨ id ∈ s.retries))
  | .restart => inferInstanceAs (Decidable (∀ t ∈ s.tasks, t.status ≠ .processing))

/-- Every task that is processing is executed, or about to be updated by a `Retry`. -/
structure Attended (s : PoolState W) : Prop where
  key : Rows.HasKey (·.id) s.tasks
  attended : ∀ id, statusOf s.tasks id = some .processing →
    (∃ w, s.Executes w id) ∨ id ∈ s.retries

/-! ### One step -/

/-- **A step of the pool** keeps every processing task attended. -/
theorem Attended.pool {s s' : PoolState W} {e : PoolEvent W} (h : Attended s)
    (hstep : poolStep s e = some s') : Attended s' := by
  cases poolMove_of_step h.key hstep with
  | @claim w now node left task hw hpend =>
    refine ⟨h.key.updateWhere fun _ _ _ => rfl, fun id hs => ?_⟩
    by_cases hid : id = task.id
    · subst hid
      refine Or.inl ⟨w, PoolState.executes_setWorker.2 ?_⟩
      rw [if_pos rfl]
      rfl
    · rw [statusOf_markProcessing, if_neg fun h => hid h.1] at hs
      refine (h.attended id hs).imp_left fun ⟨w', hw'⟩ => ⟨w', PoolState.executes_setWorker.2 ?_⟩
      rw [if_neg]
      · exact hw'
      · rintro rfl
        rw [PoolState.Executes, hw] at hw'
        cases hw'
  | @complete w now node left task errMsg hw =>
    refine ⟨h.key.updateWhere fun _ _ _ => rfl, fun id hs => ?_⟩
    rw [statusOf_completeTask] at hs
    by_cases hid : id = task.id
    · rw [if_pos hid, Option.map_eq_some_iff] at hs
      obtain ⟨_, -, hs⟩ := hs
      split_ifs at hs
    · rw [if_neg hid] at hs
      refine (h.attended id hs).imp_left fun ⟨w', hw'⟩ => ⟨w', PoolState.executes_setWorker.2 ?_⟩
      rw [if_neg]
      · exact hw'
      · rintro rfl
        rw [PoolState.Executes, hw] at hw'
        exact hid (Option.some.inj hw').symm
  | @retryUpdate id now hid =>
    refine ⟨h.key.updateWhere fun _ _ _ => rfl, fun j hs => ?_⟩
    rw [statusOf_resetToPending] at hs
    by_cases hj : j = id
    · rw [if_pos hj, Option.map_eq_some_iff] at hs
      obtain ⟨_, -, hs⟩ := hs
      cases hs
    · rw [if_neg hj] at hs
      exact (h.attended j hs).imp_right fun hmem => (List.mem_erase_of_ne hj).2 hmem
  | quiet hquiet =>
    refine ⟨hquiet.key, fun id hs => ?_⟩
    rcases h.attended id ((hquiet.processing id).1 hs) with ⟨w, hw⟩ | hid
    · exact Or.inl ⟨w, (hquiet.executes w id).2 hw⟩
    · exact Or.inr (hquiet.keepsRetries hid)

/-- **One step** that loses no task. -/
theorem Attended.step (s : PoolState W) (e : CrashEvent W) (s' : PoolState W) (h : Attended s)
    (hok : LosesNoTask s e) (hstep : crashStep s e = some s') : Attended s' := by
  cases e with
  | pool e => exact h.pool hstep
  | completeFails w =>
    simp only [crashStep] at hstep
    split at hstep
    · rename_i node left task errMsg hw
      cases hstep
      refine ⟨h.key, fun id hs => ?_⟩
      have hother : (∃ w', w' ≠ w ∧ s.Executes w' id) ∨ id ∈ s.retries := by
        rcases h.attended id hs with ⟨w', hw'⟩ | hid
        · by_cases hww : w' = w
          · subst hww
            exact hok id hw' hs
          · exact Or.inl ⟨w', hww, hw'⟩
        · exact Or.inr hid
      refine hother.imp_left fun ⟨w', hne, hw'⟩ => ⟨w', PoolState.executes_setWorker.2 ?_⟩
      rw [if_neg hne]
      exact hw'
    · cases hstep
  | restart =>
    cases hstep
    refine ⟨h.key, fun id hs => ?_⟩
    obtain ⟨t, ht, -, hproc⟩ := (statusOf_eq_some h.key).1 hs
    exact absurd hproc (hok t ht)

/-! ### Becoming pending again -/

section Recovery

variable {s : PoolState W} {id : String}

/-- A `Retry` under way makes its task pending. -/
theorem possible_of_retry (hid : id ∈ s.retries) {status : TaskStatus}
    (hs : statusOf s.tasks id = some status) :
    Runs.Possible crashStep CrashEvent.Own (IsPending id) s := by
  refine Runs.Possible.cons (e := .pool (.retryUpdate id 0)) (if_pos hid) trivial ?_
  refine Runs.Possible.of_holds ?_
  show statusOf (resetToPending 0 id s.tasks) id = some .pending
  rw [statusOf_resetToPending, if_pos rfl, hs]
  rfl

/-- A task that is not processing can be retried. -/
theorem possible_of_not_processing {status : TaskStatus} (hs : statusOf s.tasks id = some status)
    (hne : status ≠ .processing) : Runs.Possible crashStep CrashEvent.Own (IsPending id) s := by
  have hstep : crashStep s (.pool (.retrySelect id)) =
      some { s with retries := id :: s.retries } := by
    simp only [crashStep, poolStep]
    rw [hs]
    cases status with
    | processing => exact absurd rfl hne
    | pending | completed | failed => rfl
  exact Runs.Possible.cons hstep trivial (possible_of_retry (List.mem_cons_self ..) hs)

/-- A task whose completion comes next becomes failed or completed. -/
theorem possible_of_completing {w : W} {node errMsg : String} {left : ℕ} {task : PanelAsyncTask}
    (hw : s.workers w = .completing node left task errMsg) {status : TaskStatus}
    (hs : statusOf s.tasks task.id = some status) :
    Runs.Possible crashStep CrashEvent.Own (IsPending task.id) s := by
  have hstep : crashStep s (.pool (.complete w 0)) = some { s.setWorker w (.polling node left) with
      tasks := completeTask 0 s.tasks task.id errMsg } := by
    simp only [crashStep, poolStep, hw]
  refine Runs.Possible.cons hstep trivial ?_
  have hdone : statusOf (completeTask 0 s.tasks task.id errMsg) task.id =
      some (if errMsg ≠ "" then .failed else .completed) := by
    rw [statusOf_completeTask, if_pos rfl, hs]
    rfl
  refine possible_of_not_processing hdone ?_
  split_ifs <;> simp

/-- The rest of an execution leads to its completion. -/
theorem possible_of_executes {w : W} (hw : s.Executes w id) {status : TaskStatus}
    (hs : statusOf s.tasks id = some status) :
    Runs.Possible crashStep CrashEvent.Own (IsPending id) s := by
  rw [PoolState.Executes] at hw
  have hmoved : ∀ p : Worker, (s.setWorker w p).workers w = p := by
    intro p
    simp [PoolState.setWorker]
  cases hphase : s.workers w with
  | idle | polling | selected => simp [hphase, Worker.executes] at hw
  | executing node left task =>
    -- the execution fails
    obtain rfl : task.id = id := by simpa [hphase, Worker.executes] using hw
    have hstep : crashStep s (.pool (.finish w "error")) =
        some (s.setWorker w (.completing node left task "error")) := by
      simp [crashStep, poolStep, hphase]
    exact Runs.Possible.cons hstep trivial (possible_of_completing (hmoved _) hs)
  | restarting node left task =>
    -- the restart is inserted
    obtain rfl : task.id = id := by simpa [hphase, Worker.executes] using hw
    have hstep : crashStep s (.pool (.insertRestart w longerIds "")) =
        some { s.setWorker w (.completing node left task "") with
          tasks := s.tasks ++ [longerIds.newTask s.tasks node .openvpnServiceRestart
            (.ofList [("reason", task.type.text)])] } := by
      simp [crashStep, poolStep, hphase, longerIds]
    have hkept : statusOf (s.tasks ++ [longerIds.newTask s.tasks node .openvpnServiceRestart
        (.ofList [("reason", task.type.text)])]) task.id = some status := by
      rcases statusOf_insert longerIds s.tasks node .openvpnServiceRestart
        (.ofList [("reason", task.type.text)]) task.id with heq | ⟨hnone, -⟩
      · exact heq.trans hs
      · rw [hs] at hnone
        cases hnone
    exact Runs.Possible.cons hstep trivial (possible_of_completing (hmoved _) hkept)
  | completing node left task errMsg =>
    obtain rfl : task.id = id := by simpa [hphase, Worker.executes] using hw
    exact possible_of_completing hphase hs

/-- Where every processing task is attended, no task is stuck. -/
theorem Attended.noTaskStuck (h : Attended s) : NoTaskStuck s := by
  intro id status hs _
  by_cases hproc : status = .processing
  · subst hproc
    refine Or.inr ?_
    rcases h.attended id hs with ⟨w, hw⟩ | hid
    · exact possible_of_executes hw hs
    · exact possible_of_retry hid hs
  · exact Or.inr (possible_of_not_processing hs hproc)

end Recovery

/-! ### Orphans -/

/-- A task is processing, no worker executes it, and no `Retry` has read its status before. -/
structure Orphaned (id : String) (s : PoolState W) : Prop where
  key : Rows.HasKey (·.id) s.tasks
  processing : statusOf s.tasks id = some .processing
  unexecuted : ∀ w, ¬s.Executes w id
  unretried : id ∉ s.retries

/-- **An orphan stays one**, whatever happens. -/
theorem Orphaned.stays (id : String) (s : PoolState W) (e : CrashEvent W) (s' : PoolState W)
    (h : Orphaned id s) (hstep : crashStep s e = some s') : Orphaned id s' := by
  have hidle : ∀ {w : W} {p : Worker}, p.executes ≠ some id →
      ∀ w', ¬(s.setWorker w p).Executes w' id := by
    intro w p hp w'
    rw [PoolState.executes_setWorker]
    split_ifs
    · exact hp
    · exact h.unexecuted w'
  cases e with
  | pool e =>
    cases poolMove_of_step h.key hstep with
    | @claim w now node left task hw hpend =>
      have hne : task.id ≠ id := by
        rintro rfl
        rw [h.processing] at hpend
        cases hpend
      refine ⟨h.key.updateWhere fun _ _ _ => rfl, ?_, hidle (by simpa [Worker.executes] using hne),
        h.unretried⟩
      rw [statusOf_markProcessing, if_neg fun heq => hne heq.1.symm]
      exact h.processing
    | @complete w now node left task errMsg hw =>
      have hne : id ≠ task.id := by
        rintro rfl
        exact h.unexecuted w (by rw [PoolState.Executes, hw]; rfl)
      refine ⟨h.key.updateWhere fun _ _ _ => rfl, ?_,
        hidle (by simp [Worker.executes]), h.unretried⟩
      rw [statusOf_completeTask, if_neg hne]
      exact h.processing
    | @retryUpdate j now hj =>
      have hne : id ≠ j := by
        rintro rfl
        exact h.unretried hj
      refine ⟨h.key.updateWhere fun _ _ _ => rfl, ?_, h.unexecuted,
        fun hid => h.unretried (List.mem_of_mem_erase hid)⟩
      rw [statusOf_resetToPending, if_neg hne]
      exact h.processing
    | quiet hquiet =>
      refine ⟨hquiet.key, (hquiet.processing id).2 h.processing,
        fun w hw => h.unexecuted w ((hquiet.executes w id).1 hw), fun hid => ?_⟩
      rcases hquiet.retries id hid with hid | hne
      · exact h.unretried hid
      · exact hne h.processing
  | completeFails w =>
    simp only [crashStep] at hstep
    split at hstep
    · cases hstep
      exact ⟨h.key, h.processing, hidle (by simp [Worker.executes]), h.unretried⟩
    · cases hstep
  | restart =>
    cases hstep
    exact ⟨h.key, h.processing, fun w hw => (by cases hw), List.not_mem_nil⟩

/-- An orphan is stuck. -/
theorem Orphaned.not_noTaskStuck {id : String} {s : PoolState W} (h : Orphaned id s) :
    ¬NoTaskStuck s := by
  intro hstuck
  rcases hstuck id .processing h.processing (by simp) with hpend | hposs
  · cases hpend
  · refine Runs.not_possible_of_invariant (Orphaned.stays id) (fun t ht hpend => ?_) h hposs
    rw [IsPending, ht.processing] at hpend
    cases hpend

/-- Where no task is stuck, every processing task is attended. -/
theorem NoTaskStuck.attended {s : PoolState W} (h : NoTaskStuck s)
    (hkey : Rows.HasKey (·.id) s.tasks) :
    Attended s := by
  refine ⟨hkey, fun id hs => ?_⟩
  by_contra hnone
  obtain ⟨hfree, hretry⟩ := not_or.1 hnone
  exact Orphaned.not_noTaskStuck ⟨hkey, hs, fun w hw => hfree ⟨w, hw⟩, hretry⟩ h

/-- **The condition is exact**: a step that loses a task leaves one that is stuck. -/
theorem noTaskStuck_step_iff {s s' : PoolState W} {e : CrashEvent W} (h : Attended s)
    (hstep : crashStep s e = some s') : NoTaskStuck s' ↔ LosesNoTask s e := by
  constructor
  · intro hstuck
    cases e with
    | pool e => trivial
    | completeFails w =>
      simp only [crashStep] at hstep
      split at hstep
      · cases hstep
        intro id _ hs
        refine ((hstuck.attended h.key).attended id hs).imp_left ?_
        rintro ⟨w', hw'⟩
        rw [PoolState.executes_setWorker] at hw'
        split_ifs at hw' with hww
        · cases hw'
        · exact ⟨w', hww, hw'⟩
      · cases hstep
    | restart =>
      cases hstep
      intro t ht hproc
      have hs := (statusOf_eq_some h.key).2 ⟨t, ht, rfl, hproc⟩
      rcases (hstuck.attended h.key).attended t.id hs with ⟨w, hw⟩ | hid
      · cases hw
      · cases hid
  · exact fun hok => (Attended.step s e s' h hok hstep).noTaskStuck

/-! ### Runs -/

/-- No task is processing when the workers are idle. -/
def Rested (tasks : List PanelAsyncTask) : Prop :=
  Rows.HasKey (·.id) tasks ∧ ∀ t ∈ tasks, t.status ≠ .processing

instance (tasks : List PanelAsyncTask) : Decidable (Rested tasks) := by
  unfold Rested
  infer_instance

omit [DecidableEq W] in
theorem attended_initial {tasks : List PanelAsyncTask} (h : Rested tasks) :
    Attended (PoolState.initial tasks : PoolState W) := by
  refine ⟨h.1, fun id hs => ?_⟩
  obtain ⟨t, ht, -, hproc⟩ := (statusOf_eq_some h.1).1 hs
  exact absurd hproc (h.2 t ht)

/-- **No task is stuck** in any run whose steps lose no task: a task that is not completed is
pending, or the panel can make it pending again. What loses a task is the end of the process while
one is processing, and a completion that fails. -/
theorem no_task_stuck (tasks : List PanelAsyncTask) (h : Rested tasks) (es : List (CrashEvent W))
    (s : PoolState W) (hok : Runs.Meets crashStep LosesNoTask (PoolState.initial tasks) es)
    (hrun : Runs.run crashStep (PoolState.initial tasks) es = some s) : NoTaskStuck s :=
  (Runs.run_invariant_of_meets Attended.step (attended_initial h) hok hrun).noTaskStuck

/-- An execution fails, and the process is started again. -/
def restartAfterFailure : List (CrashEvent Unit) :=
  [.pool (.start () "n1" 20), .pool (.select () "t1"), .pool (.claim () 1),
    .pool (.finish () "timeout"), .pool (.complete () 2), .restart]

theorem no_task_stuck_restartAfterFailure :
    ∃ s, Runs.run crashStep (PoolState.initial [restartTask]) restartAfterFailure = some s ∧
      statusOf s.tasks "t1" = some .failed ∧ NoTaskStuck s := by
  have hrun : ((Runs.run crashStep (PoolState.initial [restartTask]) restartAfterFailure).any
      fun s =>
      decide (statusOf s.tasks "t1" = some .failed)) = true := by decide
  obtain ⟨s, hs, hfailed⟩ := (Option.any_eq_true _ _).1 hrun
  exact ⟨s, hs, of_decide_eq_true hfailed,
    no_task_stuck [restartTask] (by decide) restartAfterFailure s (by decide) hs⟩

/-- The process ends during an execution, and is started again. -/
def restartDuringExecution : List (CrashEvent Unit) :=
  [.pool (.start () "n1" 20), .pool (.select () "t1"), .pool (.claim () 1), .restart]

/-- **A restart during an execution** leaves a task in processing for ever. -/
theorem task_stuck_after_restart :
    ¬∀ tasks, Rested tasks → ∀ (es : List (CrashEvent Unit)) s,
      Runs.run crashStep (PoolState.initial tasks) es = some s → NoTaskStuck s := by
  intro h
  have hrun : ((Runs.run crashStep (PoolState.initial [restartTask]) restartDuringExecution).any
      fun s => decide (Rows.HasKey (·.id) s.tasks ∧ statusOf s.tasks "t1" = some .processing ∧
        (∀ w, ¬s.Executes w "t1") ∧ "t1" ∉ s.retries)) = true := by decide
  obtain ⟨s, hs, hstate⟩ := (Option.any_eq_true _ _).1 hrun
  obtain ⟨hkey, hproc, hfree, hretry⟩ := of_decide_eq_true hstate
  exact Orphaned.not_noTaskStuck ⟨hkey, hproc, hfree, hretry⟩
    (h [restartTask] (by decide) restartDuringExecution s hs)

end OpenvpnControl.Paneltasks
