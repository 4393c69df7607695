import Mathlib.Data.Fintype.Basic
import OpenvpnControl.Library.Lifecycle
import OpenvpnControl.Library.Runs
import OpenvpnControl.Paneltasks.Queue

/-!
# Workers and retries, one statement at a time

Any number of workers run `ProcessPendingForNode` beside any number of `Retry` requests and other
writers of the queue. Every database statement is one step. The update of a claim is conditional
and holds the lock of the row until its transaction commits, so the two are one step; the status a
`Retry` reads and its unconditional update are two.

## Main definitions

* `Worker`: where a worker stands in `ProcessPendingForNode`.
* `PoolState`, `PoolEvent`, `poolStep`: the state, the steps and their effect.
* `UpdatesUnheld`: no worker executes the task a `Retry` updates.

## Main results

* `poolMove_of_step`: what a step does.
* `PoolInv.step`: every step that meets the condition keeps the lock discipline.
* `executions_bounded`: a task is executed at most once each time it is scheduled.
* `retry_executes_twice`: a `Retry` that does not meet the condition.
-/

namespace OpenvpnControl.Paneltasks

/-! ### The state -/

/-- Where a worker stands in `ProcessPendingForNode`, with the node, the turns of the loop left
after this one, and the task it holds. -/
inductive Worker where
  /-- Outside `ProcessPendingForNode`. -/
  | idle
  /-- At the head of the loop. -/
  | polling (node : String) (left : ℕ)
  /-- Between the `SELECT` and the `UPDATE` of `claimPendingTask`. -/
  | selected (node : String) (left : ℕ) (task : PanelAsyncTask)
  /-- In `executeTask`. -/
  | executing (node : String) (left : ℕ) (task : PanelAsyncTask)
  /-- In `executeTask`, between the two statements of the restart it enqueues. -/
  | restarting (node : String) (left : ℕ) (task : PanelAsyncTask)
  /-- In `executeTask`, before `completeTask`. -/
  | completing (node : String) (left : ℕ) (task : PanelAsyncTask) (errMsg : String)

/-- The task a worker executes. -/
def Worker.executes : Worker → Option String
  | .idle | .polling _ _ | .selected _ _ _ => none
  | .executing _ _ task | .restarting _ _ task | .completing _ _ task _ => some task.id

/-- The queue, the workers, and the `Retry` requests that have read a status and not yet updated
it. `executed` and `rescheduled` record each call of `executeTask` and each `Retry` that updated a
failed or completed task. -/
structure PoolState (W : Type*) where
  tasks : List PanelAsyncTask
  workers : W → Worker
  retries : List String
  executed : List String
  rescheduled : List String

/-- A step of a worker `w`, of a `Retry`, or of another request that writes the queue. -/
inductive PoolEvent (W : Type*) where
  /-- `w` calls `ProcessPendingForNode`. -/
  | start (w : W) (node : String) (maxTasks : ℤ)
  /-- The `SELECT` of a claim returns the row `id`. -/
  | select (w : W) (id : String)
  /-- `w` returns from `ProcessPendingForNode`: the loop is over, or no row was returned. -/
  | stop (w : W)
  /-- The `UPDATE` of a claim and its commit. -/
  | claim (w : W) (now : ℤ)
  /-- `executeTask` is over but for `completeTask`, with the text of its error. A material that was
  written is followed by a restart instead. -/
  | finish (w : W) (errMsg : String)
  /-- The material is written, and the pending restarts of the node are deleted. -/
  | deleteRestart (w : W)
  /-- The restart is inserted, or the insert fails with the text `errMsg`. -/
  | insertRestart (w : W) (env : EnqueueEnv) (errMsg : String)
  /-- `completeTask`. -/
  | complete (w : W) (now : ℤ)
  /-- The `SELECT` of a `Retry`. -/
  | retrySelect (id : String)
  /-- The `UPDATE` of a `Retry`. -/
  | retryUpdate (id : String) (now : ℤ)
  /-- The `DELETE` of an enqueue. -/
  | deletePending (node : String) (type : TaskType)
  /-- The `INSERT` of an enqueue. -/
  | insertTask (env : EnqueueEnv) (node : String) (type : TaskType) (payload : GoMap String)

/-- The tasks whose execution ends with a restart of the service. -/
def TaskType.restarts : TaskType → Bool
  | .openvpnCASync | .openvpnServerCertSync | .openvpnDhSync | .openvpnTlsAuthSync => true
  | _ => false

variable {W : Type*}

namespace PoolState

/-- The workers are idle and no `Retry` is under way. -/
def initial (tasks : List PanelAsyncTask) : PoolState W :=
  ⟨tasks, fun _ => .idle, [], [], []⟩

/-- Move a worker. -/
def setWorker [DecidableEq W] (s : PoolState W) (w : W) (p : Worker) : PoolState W :=
  { s with workers := Function.update s.workers w p }

/-- Does the worker execute the task? -/
def Executes (s : PoolState W) (w : W) (id : String) : Prop := (s.workers w).executes = some id

instance (s : PoolState W) (w : W) (id : String) : Decidable (s.Executes w id) :=
  inferInstanceAs (Decidable (_ = _))

end PoolState

/-- The state after a step, and `none` when the step cannot happen. -/
def poolStep [DecidableEq W] (s : PoolState W) : PoolEvent W → Option (PoolState W)
  | .start w node maxTasks =>
    match s.workers w with
    | .idle => some (s.setWorker w (.polling node (if maxTasks < 1 then 20 else maxTasks.toNat)))
    | _ => none
  | .select w id =>
    match s.workers w, Rows.byKey (·.id) id s.tasks with
    | .polling node (left + 1), some task =>
      if isOldestPending s.tasks node task then some (s.setWorker w (.selected node left task))
      else none
    | _, _ => none
  | .stop w =>
    match s.workers w with
    | .polling _ _ => some (s.setWorker w .idle)
    | _ => none
  | .claim w now =>
    match s.workers w with
    | .selected node left task =>
      -- the update counts no row when the task is no longer pending, and the loop ends
      if statusOf s.tasks task.id = some .pending then
        some { s.setWorker w (.executing node left task) with
          tasks := markProcessing now task.id s.tasks
          executed := task.id :: s.executed }
      else some (s.setWorker w .idle)
    | _ => none
  | .finish w errMsg =>
    match s.workers w with
    | .executing node left task =>
      if task.type.restarts ∧ errMsg = "" then none
      else some (s.setWorker w (.completing node left task errMsg))
    | _ => none
  | .deleteRestart w =>
    match s.workers w with
    | .executing node left task =>
      if task.type.restarts then
        some { s.setWorker w (.restarting node left task) with
          tasks := Rows.deleteWhere (·.isPendingOf node .openvpnServiceRestart) s.tasks }
      else none
    | _ => none
  | .insertRestart w env errMsg =>
    match s.workers w with
    | .restarting node left task =>
      if env.insertFails then some (s.setWorker w (.completing node left task errMsg))
      else some { s.setWorker w (.completing node left task "") with
        tasks := s.tasks ++ [env.newTask s.tasks node .openvpnServiceRestart
          (.ofList [("reason", task.type.text)])] }
    | _ => none
  | .complete w now =>
    match s.workers w with
    | .completing node left task errMsg =>
      some { s.setWorker w (.polling node left) with
        tasks := completeTask now s.tasks task.id errMsg }
    | _ => none
  | .retrySelect id =>
    match statusOf s.tasks id with
    | none | some .processing => some s
    | some _ => some { s with retries := id :: s.retries }
  | .retryUpdate id now =>
    if id ∈ s.retries then
      some { s with
        tasks := resetToPending now id s.tasks
        retries := s.retries.erase id
        rescheduled :=
          if statusOf s.tasks id = some .failed ∨ statusOf s.tasks id = some .completed then
            id :: s.rescheduled
          else s.rescheduled }
    else none
  | .deletePending node type =>
    some { s with tasks := Rows.deleteWhere (·.isPendingOf node type) s.tasks }
  | .insertTask env node type payload =>
    some { s with tasks := s.tasks ++ [env.newTask s.tasks node type payload] }

/-! ### What a step does to one task -/

/-- The phase of a task in its life. -/
def phaseOf : Option TaskStatus → Lifecycle.Phase
  | none => .absent
  | some .pending => .waiting
  | some .processing => .running
  | some .completed | some .failed => .done

/-- A task with the record of its executions and retries. -/
def PoolState.config (s : PoolState W) (id : String) : Lifecycle.Config :=
  ⟨phaseOf (statusOf s.tasks id), s.executed.count id, s.rescheduled.count id⟩

theorem PoolState.executes_setWorker [DecidableEq W] {s : PoolState W} {w w' : W} {p : Worker}
    {id : String} :
    (s.setWorker w p).Executes w' id ↔
      if w' = w then p.executes = some id else s.Executes w' id := by
  simp only [PoolState.Executes, PoolState.setWorker, Function.update_apply]
  split_ifs <;> rfl

/-- The condition on a step: no worker executes the task whose row a `Retry` updates. -/
def UpdatesUnheld (s : PoolState W) : PoolEvent W → Prop
  | .retryUpdate id _ => ∀ w, ¬s.Executes w id
  | _ => True

instance [Fintype W] (s : PoolState W) : (e : PoolEvent W) → Decidable (UpdatesUnheld s e)
  | .retryUpdate id _ => inferInstanceAs (Decidable (∀ w, ¬s.Executes w id))
  | .start _ _ _ | .select _ _ | .stop _ | .claim _ _ | .finish _ _ | .deleteRestart _
  | .insertRestart _ _ _ | .complete _ _ | .retrySelect _ | .deletePending _ _
  | .insertTask _ _ _ _ => isTrue trivial

/-- The lock discipline: an executed task is processing, and is executed by one worker only; a task
that became processing after a `Retry` read its status is being executed; and the starts of every
task are within the bound. -/
structure PoolInv (s : PoolState W) : Prop where
  key : Rows.HasKey (·.id) s.tasks
  executes : ∀ w id, s.Executes w id → statusOf s.tasks id = some .processing
  exclusive : ∀ w w' id, s.Executes w id → s.Executes w' id → w = w'
  retries : ∀ id ∈ s.retries, statusOf s.tasks id = some .processing → ∃ w, s.Executes w id
  bounded : ∀ id, (s.config id).Bounded

/-- A step that starts and ends no execution, and changes the queue at most by adding and
withdrawing pending rows. -/
structure Quiet (s s' : PoolState W) : Prop where
  key : Rows.HasKey (·.id) s'.tasks
  executes : ∀ w id, s'.Executes w id ↔ s.Executes w id
  retries : ∀ id ∈ s'.retries, id ∈ s.retries ∨ statusOf s.tasks id ≠ some .processing
  keepsRetries : s.retries ⊆ s'.retries
  executed : s'.executed = s.executed
  rescheduled : s'.rescheduled = s.rescheduled
  status : ∀ id, statusOf s'.tasks id = statusOf s.tasks id ∨
    (statusOf s.tasks id = some .pending ∧ statusOf s'.tasks id = none) ∨
    (statusOf s.tasks id = none ∧ statusOf s'.tasks id = some .pending)

theorem Quiet.processing {s s' : PoolState W} (h : Quiet s s') (id : String) :
    statusOf s'.tasks id = some .processing ↔ statusOf s.tasks id = some .processing := by
  rcases h.status id with heq | ⟨hs, hs'⟩ | ⟨hs, hs'⟩
  · rw [heq]
  · simp [hs, hs']
  · simp [hs, hs']

theorem Quiet.move {s s' : PoolState W} (h : Quiet s s') (id : String) :
    Lifecycle.Move (s.config id) (s'.config id) := by
  rw [PoolState.config, PoolState.config, h.executed, h.rescheduled]
  rcases h.status id with heq | ⟨hs, hs'⟩ | ⟨hs, hs'⟩
  · rw [heq]
    exact .stay _
  · rw [hs, hs']
    exact .withdraw _ _
  · rw [hs, hs']
    exact .schedule _ _

/-- **A quiet step keeps the lock discipline.** -/
theorem PoolInv.quiet {s s' : PoolState W} (h : PoolInv s) (hq : Quiet s s') : PoolInv s' where
  key := hq.key
  executes w id he := (hq.processing id).2 (h.executes w id ((hq.executes w id).1 he))
  exclusive w w' id he he' :=
    h.exclusive w w' id ((hq.executes w id).1 he) ((hq.executes w' id).1 he')
  retries id hid hs := by
    have hs' := (hq.processing id).1 hs
    rcases hq.retries id hid with hid | hne
    · obtain ⟨w, hw⟩ := h.retries id hid hs'
      exact ⟨w, (hq.executes w id).2 hw⟩
    · exact absurd hs' hne
  bounded id := (hq.move id).bounded (h.bounded id)

/-- A worker that moves without starting or ending an execution is quiet. -/
theorem Quiet.setWorker [DecidableEq W] {s : PoolState W} (hkey : Rows.HasKey (·.id) s.tasks)
    {w : W} {p : Worker}
    (hp : p.executes = (s.workers w).executes) : Quiet s (s.setWorker w p) where
  key := hkey
  executes w' id := by
    rw [PoolState.executes_setWorker]
    split_ifs with hw
    · subst hw
      rw [hp]
      exact Iff.rfl
    · exact Iff.rfl
  retries _ hid := Or.inl hid
  keepsRetries := List.Subset.refl _
  executed := rfl
  rescheduled := rfl
  status _ := Or.inl rfl

/-- So is one that also deletes pending rows. -/
theorem Quiet.delete {s s' : PoolState W} (h : Quiet s s') (node : String) (type : TaskType)
    (hstatus : s'.tasks = s.tasks) :
    Quiet s { s' with tasks := Rows.deleteWhere (·.isPendingOf node type) s'.tasks } where
  key := h.key.deleteWhere
  executes := h.executes
  retries := h.retries
  keepsRetries := h.keepsRetries
  executed := h.executed
  rescheduled := h.rescheduled
  status id := by
    rcases statusOf_deletePending h.key node type id with heq | hdel
    · exact Or.inl (heq.trans (by rw [hstatus]))
    · exact Or.inr (Or.inl ⟨by rw [← hstatus]; exact hdel.1, hdel.2⟩)

/-- So is one that also inserts a pending row. -/
theorem Quiet.insert {s s' : PoolState W} (h : Quiet s s') (env : EnqueueEnv) (node : String)
    (type : TaskType) (payload : GoMap String) (hstatus : s'.tasks = s.tasks) :
    Quiet s { s' with tasks := s'.tasks ++ [env.newTask s'.tasks node type payload] } where
  key := h.key.append_singleton (env.ksuid_fresh _)
  executes := h.executes
  retries := h.retries
  keepsRetries := h.keepsRetries
  executed := h.executed
  rescheduled := h.rescheduled
  status id := by
    rcases statusOf_insert env s'.tasks node type payload id with heq | hins
    · exact Or.inl (heq.trans (by rw [hstatus]))
    · exact Or.inr (Or.inr ⟨by rw [← hstatus]; exact hins.1, hins.2⟩)

theorem Quiet.refl {s : PoolState W} (hkey : Rows.HasKey (·.id) s.tasks) : Quiet s s where
  key := hkey
  executes _ _ := Iff.rfl
  retries _ hid := Or.inl hid
  keepsRetries := List.Subset.refl _
  executed := rfl
  rescheduled := rfl
  status _ := Or.inl rfl

/-! ### The steps that start and end an execution, and the retry -/

section Steps

variable [DecidableEq W]

/-- A claim starts an execution of a task that nobody executes. -/
theorem PoolInv.claim {s : PoolState W} (h : PoolInv s) {w : W} (now : ℤ) {node : String} {left : ℕ}
    {task : PanelAsyncTask} (hw : (s.workers w).executes = none)
    (hpend : statusOf s.tasks task.id = some .pending) :
    PoolInv { s.setWorker w (.executing node left task) with
      tasks := markProcessing now task.id s.tasks
      executed := task.id :: s.executed } := by
  have hstatus (id : String) : statusOf (markProcessing now task.id s.tasks) id =
      if id = task.id then some .processing else statusOf s.tasks id := by
    rw [statusOf_markProcessing]
    simp [hpend]
  have hfree (w' : W) : ¬s.Executes w' task.id := fun he => by
    have := h.executes w' task.id he
    rw [hpend] at this
    cases this
  have hexec (w' : W) (id : String) :
      (s.setWorker w (.executing node left task)).Executes w' id ↔
        (w' = w ∧ id = task.id) ∨ s.Executes w' id := by
    rw [PoolState.executes_setWorker]
    split_ifs with heq
    · subst heq
      have hidle : ¬s.Executes w' id := by
        rw [PoolState.Executes, hw]
        exact Option.some_ne_none id ∘ Eq.symm
      simp [Worker.executes, hidle, eq_comm]
    · simp [heq]
  refine ⟨h.key.updateWhere fun _ _ _ => rfl, fun w' id he => ?_, fun w₁ w₂ id he₁ he₂ => ?_,
    fun id hid hs => ?_, fun id => ?_⟩
  · rw [hstatus]
    rcases (hexec w' id).1 he with ⟨-, rfl⟩ | he
    · rw [if_pos rfl]
    · rw [if_neg (by rintro rfl; exact hfree w' he)]
      exact h.executes w' id he
  · rcases (hexec w₁ id).1 he₁ with ⟨rfl, rfl⟩ | he₁
    · rcases (hexec w₂ _).1 he₂ with ⟨rfl, -⟩ | he₂
      · rfl
      · exact absurd he₂ (hfree w₂)
    · rcases (hexec w₂ id).1 he₂ with ⟨-, rfl⟩ | he₂
      · exact absurd he₁ (hfree w₁)
      · exact h.exclusive w₁ w₂ id he₁ he₂
  · rw [hstatus] at hs
    by_cases hid' : id = task.id
    · exact ⟨w, (hexec w id).2 (Or.inl ⟨rfl, hid'⟩)⟩
    · rw [if_neg hid'] at hs
      obtain ⟨w', hw'⟩ := h.retries id hid hs
      exact ⟨w', (hexec w' id).2 (Or.inr hw')⟩
  · refine Lifecycle.Move.bounded ?_ (h.bounded id)
    by_cases hid : id = task.id
    · subst hid
      simp only [PoolState.config, hstatus, if_true, hpend, List.count_cons_self]
      exact .start _ _
    · simp only [PoolState.config, hstatus, if_neg hid, PoolState.setWorker,
        List.count_cons_of_ne (Ne.symm hid)]
      exact .stay _

/-- A completion ends the one execution of its task. -/
theorem PoolInv.complete {s : PoolState W} (h : PoolInv s) {w : W} (now : ℤ) {node : String}
    {left : ℕ} {task : PanelAsyncTask} {errMsg : String} (hw : s.Executes w task.id) :
    PoolInv { s.setWorker w (.polling node left) with
      tasks := completeTask now s.tasks task.id errMsg } := by
  have hproc := h.executes w task.id hw
  have hexec (w' : W) (id : String) :
      (s.setWorker w (.polling node left)).Executes w' id ↔ w' ≠ w ∧ s.Executes w' id := by
    rw [PoolState.executes_setWorker]
    split_ifs with heq <;> simp [heq, Worker.executes]
  have hne {w' : W} {id : String} (hne : w' ≠ w) (he : s.Executes w' id) : id ≠ task.id := by
    rintro rfl
    exact hne (h.exclusive w' w _ he hw)
  refine ⟨h.key.updateWhere fun _ _ _ => rfl, fun w' id he => ?_, fun w₁ w₂ id he₁ he₂ => ?_,
    fun id hid hs => ?_, fun id => ?_⟩
  · obtain ⟨hww, he'⟩ := (hexec w' id).1 he
    rw [statusOf_completeTask, if_neg (hne hww he')]
    exact h.executes w' id he'
  · exact h.exclusive w₁ w₂ id ((hexec w₁ id).1 he₁).2 ((hexec w₂ id).1 he₂).2
  · rw [statusOf_completeTask] at hs
    by_cases hid' : id = task.id
    · subst hid'
      rw [if_pos rfl, hproc] at hs
      simp only [Option.map_some, Option.some.injEq] at hs
      split_ifs at hs
    · rw [if_neg hid'] at hs
      obtain ⟨w', hw'⟩ := h.retries id hid hs
      refine ⟨w', (hexec w' id).2 ⟨?_, hw'⟩⟩
      rintro rfl
      exact hid' (Option.some.inj (hw'.symm.trans hw))
  · refine Lifecycle.Move.bounded ?_ (h.bounded id)
    by_cases hid : id = task.id
    · subst hid
      simp only [PoolState.config, statusOf_completeTask, if_true, hproc, Option.map_some,
        PoolState.setWorker]
      split_ifs <;> exact .finish _ _
    · simp only [PoolState.config, statusOf_completeTask, if_neg hid, PoolState.setWorker]
      exact .stay _

omit [DecidableEq W] in
/-- A task that a `Retry` updates while nobody executes it is not processing. -/
theorem PoolInv.not_processing {s : PoolState W} (h : PoolInv s) {id : String}
    (hid : id ∈ s.retries) (hfree : ∀ w, ¬s.Executes w id) :
    statusOf s.tasks id ≠ some .processing := fun hs => by
  obtain ⟨w, hw⟩ := h.retries id hid hs
  exact hfree w hw

omit [DecidableEq W] in
/-- A `Retry` of a task that nobody executes schedules it again. -/
theorem PoolInv.retryUpdate {s : PoolState W} (h : PoolInv s) {id : String} (now : ℤ)
    (hid : id ∈ s.retries) (hfree : ∀ w, ¬s.Executes w id) :
    PoolInv { s with
      tasks := resetToPending now id s.tasks
      retries := s.retries.erase id
      rescheduled :=
        if statusOf s.tasks id = some .failed ∨ statusOf s.tasks id = some .completed then
          id :: s.rescheduled
        else s.rescheduled } := by
  have hnot := h.not_processing hid hfree
  refine ⟨h.key.updateWhere fun _ _ _ => rfl, fun w j he => ?_, h.exclusive, fun j hj hs => ?_,
    fun j => ?_⟩
  · rw [statusOf_resetToPending, if_neg (by rintro rfl; exact hfree w he)]
    exact h.executes w j he
  · rw [statusOf_resetToPending] at hs
    by_cases hji : j = id
    · rw [if_pos hji, Option.map_eq_some_iff] at hs
      obtain ⟨_, -, hs⟩ := hs
      cases hs
    · rw [if_neg hji] at hs
      exact h.retries j (List.mem_of_mem_erase hj) hs
  · refine Lifecycle.Move.bounded ?_ (h.bounded j)
    by_cases hji : j = id
    · subst hji
      simp only [PoolState.config, statusOf_resetToPending, if_true]
      rcases hs : statusOf s.tasks j with _ | (_ | _ | _ | _)
      · exact .stay _
      · exact .stay _
      · exact absurd hs hnot
      · rw [if_pos (Or.inr rfl), List.count_cons_self]
        exact .again _ _
      · rw [if_pos (Or.inl rfl), List.count_cons_self]
        exact .again _ _
    · have hcount : (if statusOf s.tasks id = some .failed ∨ statusOf s.tasks id = some .completed
          then id :: s.rescheduled else s.rescheduled).count j = s.rescheduled.count j := by
        split_ifs
        · exact List.count_cons_of_ne (Ne.symm hji)
        · rfl
      simp only [PoolState.config, statusOf_resetToPending, if_neg hji, hcount]
      exact .stay _

/-- What a step does: an execution starts or ends, a `Retry` updates a row, or the step is quiet. -/
inductive PoolMove (s : PoolState W) : PoolEvent W → PoolState W → Prop
  | claim {w : W} {now : ℤ} {node : String} {left : ℕ} {task : PanelAsyncTask} :
    s.workers w = .selected node left task → statusOf s.tasks task.id = some .pending →
    PoolMove s (.claim w now) { s.setWorker w (.executing node left task) with
      tasks := markProcessing now task.id s.tasks
      executed := task.id :: s.executed }
  | complete {w : W} {now : ℤ} {node : String} {left : ℕ}
      {task : PanelAsyncTask} {errMsg : String} :
    s.workers w = .completing node left task errMsg →
    PoolMove s (.complete w now) { s.setWorker w (.polling node left) with
      tasks := completeTask now s.tasks task.id errMsg }
  | retryUpdate {id : String} {now : ℤ} : id ∈ s.retries →
    PoolMove s (.retryUpdate id now) { s with
      tasks := resetToPending now id s.tasks
      retries := s.retries.erase id
      rescheduled :=
        if statusOf s.tasks id = some .failed ∨ statusOf s.tasks id = some .completed then
          id :: s.rescheduled
        else s.rescheduled }
  | quiet {e : PoolEvent W} {s' : PoolState W} : Quiet s s' → PoolMove s e s'

/-- **The inversion of a step.** -/
theorem poolMove_of_step {s s' : PoolState W} {e : PoolEvent W} (hkey : Rows.HasKey (·.id) s.tasks)
    (hstep : poolStep s e = some s') : PoolMove s e s' := by
  cases e with
  | start w node maxTasks =>
    simp only [poolStep] at hstep
    split at hstep
    · rename_i hw
      cases hstep
      exact .quiet (.setWorker hkey (by rw [hw]; rfl))
    · cases hstep
  | select w id =>
    simp only [poolStep] at hstep
    split at hstep
    · rename_i hw _
      split_ifs at hstep
      cases hstep
      exact .quiet (.setWorker hkey (by rw [hw]; rfl))
    · cases hstep
  | stop w =>
    simp only [poolStep] at hstep
    split at hstep
    · rename_i hw
      cases hstep
      exact .quiet (.setWorker hkey (by rw [hw]; rfl))
    · cases hstep
  | claim w now =>
    simp only [poolStep] at hstep
    split at hstep
    · rename_i hw
      split_ifs at hstep with hpend
      · cases hstep
        exact .claim hw hpend
      · cases hstep
        exact .quiet (.setWorker hkey (by rw [hw]; rfl))
    · cases hstep
  | finish w errMsg =>
    simp only [poolStep] at hstep
    split at hstep
    · rename_i hw
      split_ifs at hstep
      cases hstep
      exact .quiet (.setWorker hkey (by rw [hw]; rfl))
    · cases hstep
  | deleteRestart w =>
    simp only [poolStep] at hstep
    split at hstep
    · rename_i hw
      split_ifs at hstep
      cases hstep
      exact .quiet ((Quiet.setWorker hkey (by rw [hw]; rfl)).delete _ _ rfl)
    · cases hstep
  | insertRestart w env errMsg =>
    simp only [poolStep] at hstep
    split at hstep
    · rename_i hw
      split_ifs at hstep
      · cases hstep
        exact .quiet (.setWorker hkey (by rw [hw]; rfl))
      · cases hstep
        exact .quiet ((Quiet.setWorker hkey (by rw [hw]; rfl)).insert env _ _ _ rfl)
    · cases hstep
  | complete w now =>
    simp only [poolStep] at hstep
    split at hstep
    · rename_i hw
      cases hstep
      exact .complete hw
    · cases hstep
  | retrySelect id =>
    simp only [poolStep] at hstep
    split at hstep
    · cases hstep
      exact .quiet (.refl hkey)
    · cases hstep
      exact .quiet (.refl hkey)
    · rename_i status hne hs
      cases hstep
      refine .quiet { Quiet.refl hkey with
        retries := fun j hj => ?_, keepsRetries := List.subset_cons_self _ _ }
      rcases List.mem_cons.1 hj with rfl | hj
      · exact Or.inr fun hproc => hne (Option.some.inj (hs.symm.trans hproc))
      · exact Or.inl hj
  | retryUpdate id now =>
    simp only [poolStep] at hstep
    by_cases hid : id ∈ s.retries
    · rw [if_pos hid] at hstep
      cases hstep
      exact .retryUpdate hid
    · rw [if_neg hid] at hstep
      cases hstep
  | deletePending node type =>
    cases hstep
    exact .quiet ((Quiet.refl hkey).delete node type rfl)
  | insertTask env node type payload =>
    cases hstep
    exact .quiet ((Quiet.refl hkey).insert env node type payload rfl)

/-- **One step** that meets the condition keeps the lock discipline. -/
theorem PoolInv.step (s : PoolState W) (e : PoolEvent W) (s' : PoolState W) (h : PoolInv s)
    (hok : UpdatesUnheld s e) (hstep : poolStep s e = some s') : PoolInv s' := by
  cases poolMove_of_step h.key hstep with
  | claim hw hpend => exact h.claim _ (by rw [hw]; rfl) hpend
  | complete hw => exact h.complete _ (by rw [PoolState.Executes, hw]; rfl)
  | retryUpdate hid => exact h.retryUpdate _ hid hok
  | quiet hquiet => exact h.quiet hquiet

end Steps

/-! ### Runs -/

theorem poolInv_initial {tasks : List PanelAsyncTask} (hkey : Rows.HasKey (·.id) tasks) :
    PoolInv (PoolState.initial tasks : PoolState W) where
  key := hkey
  executes _ _ he := by cases he
  exclusive _ _ _ he := by cases he
  retries _ hid := by cases hid
  bounded _ := Lifecycle.Config.bounded_of_starts_eq_zero rfl

/-- A pending restart of the node `n1`. -/
def restartTask : PanelAsyncTask :=
  ⟨"t1", .openvpnServiceRestart, .pending, "n1", ∅, none, 0, 0, none⟩

end OpenvpnControl.Paneltasks
