import OpenvpnControl.Paneltasks.Pending
import OpenvpnControl.Paneltasks.Workers

/-!
# Tasks that will still be executed

A task that is pending or processing is one the panel has yet to execute to its end. This file says
which statements of the queue keep such a task of a node and a type.

## Main definitions

* `Waiting`: a task of the node and the type, with a wanted payload, is pending or processing.
* `executeTask`: what the queue is after the execution of a claimed task that succeeds.

## Main results

* `Waiting.replacePending`: a delete-then-insert takes such a task away only for another one.
* `waiting_upsertPendingTask`, `waiting_upsertAll`: what an enqueue adds.
* `Waiting.claim`, `Waiting.execute`: a claim keeps it, an execution takes its own.
-/

namespace OpenvpnControl.Paneltasks

/-- Is a task of the node and the type, with a payload that is wanted, pending or processing? -/
def Waiting (node : String) (type : TaskType) (wanted : GoMap String → Prop)
    (tasks : List PanelAsyncTask) : Prop :=
  ∃ t ∈ tasks, t.agentNodeId = node ∧ t.type = type ∧
    (t.status = .pending ∨ t.status = .processing) ∧ wanted t.payload

instance (node : String) (type : TaskType) (wanted : GoMap String → Prop) [DecidablePred wanted]
    (tasks : List PanelAsyncTask) : Decidable (Waiting node type wanted tasks) := by
  unfold Waiting
  infer_instance

/-- `payloadStr`; `fmt.Sprint` of a value that is missing is `<nil>`. -/
def payloadStr (payload : GoMap String) (key : String) : String :=
  GoStrings.trimSpace ((payload.lookup key).getD "<nil>")

/-- The queue after `executeTask` with a claimed task, when it succeeds: a material that was written
is followed by the enqueue of a restart. A type that the panel does not know never succeeds. -/
def executeTask (env : EnqueueEnv) (now : ℤ) (tasks : List PanelAsyncTask) (id : String) :
    Option (List PanelAsyncTask × PanelAsyncTask) :=
  match Rows.byKey (·.id) id tasks with
  | none => none
  | some t =>
    let queued := if t.type.restarts then
        enqueueOpenvpnServiceRestart env tasks t.agentNodeId t.type.text
      else (tasks, true)
    match t.status, t.type, queued.2 with
    | _, .other _, _ => none
    | .processing, _, true => some (completeTask now queued.1 id "", t)
    | _, _, _ => none

variable {node n : String} {type ty : TaskType} {wanted : GoMap String → Prop}
  {payload : GoMap String} {tasks : List PanelAsyncTask}

/-! ### One delete-then-insert -/

/-- The row that an enqueue inserts waits. -/
theorem waiting_replacePending {env : EnqueueEnv} {stale : PanelAsyncTask → Bool}
    (hins : env.insertFails = false) (hw : wanted payload) :
    Waiting node type wanted (replacePending env stale tasks node type payload).1 := by
  rw [replacePending_fst, hins, if_neg Bool.false_ne_true]
  exact ⟨_, List.mem_append_right _ (List.mem_singleton_self _), rfl, rfl, Or.inl rfl, hw⟩

/-- **A task waits on** through a delete-then-insert that takes it away only for another one. -/
theorem Waiting.replacePending {env : EnqueueEnv} {stale : PanelAsyncTask → Bool}
    (h : Waiting node type wanted tasks)
    (hstale : ∀ t ∈ tasks, stale t = true → t.agentNodeId = node →
      t.type = type → wanted t.payload →
      env.insertFails = false ∧ n = node ∧ ty = type ∧ wanted payload) :
    Waiting node type wanted (replacePending env stale tasks n ty payload).1 := by
  obtain ⟨t, ht, hnode, htype, hstatus, hw⟩ := h
  cases hs : stale t with
  | true =>
    obtain ⟨hins, rfl, rfl, hpayload⟩ := hstale t ht hs hnode htype hw
    exact waiting_replacePending hins hpayload
  | false =>
    have hmem : t ∈ survivors env stale tasks := mem_survivors_of_not_stale ht hs
    rw [replacePending_fst]
    split_ifs
    · exact ⟨t, hmem, hnode, htype, hstatus, hw⟩
    · exact ⟨t, List.mem_append_left _ hmem, hnode, htype, hstatus, hw⟩

/-! ### Enqueueing -/

theorem waiting_upsertPendingTask {env : EnqueueEnv} (hnode : node ≠ "")
    (hins : env.insertFails = false) (hw : wanted payload) :
    Waiting node type wanted (upsertPendingTask env tasks node type payload).1 := by
  rw [upsertPendingTask_fst_of_ne_empty hnode]
  exact waiting_replacePending hins hw

/-- An enqueue of another node or type leaves the task. -/
theorem Waiting.upsertPendingTask {env : EnqueueEnv} (h : Waiting node type wanted tasks)
    (hne : n = node → ty ≠ type) :
    Waiting node type wanted (upsertPendingTask env tasks n ty payload).1 := by
  rw [Paneltasks.upsertPendingTask]
  split_ifs
  · exact h
  · refine h.replacePending fun t _ hs hnode htype _ => ?_
    obtain ⟨hn, hty, -⟩ := PanelAsyncTask.isPendingOf_iff.1 hs
    exact absurd (hty.symm.trans htype) (hne (hn.symm.trans hnode))

theorem Waiting.upsertAll {env : TaskType → EnqueueEnv} {l : List (TaskType × GoMap String)}
    (h : Waiting node type wanted tasks) (hne : n = node → type ∉ l.map (·.1)) :
    Waiting node type wanted (upsertAll env n tasks l).1 := by
  induction l generalizing tasks with
  | nil => exact h
  | cons task l ih =>
    obtain ⟨ty, payload⟩ := task
    simp only [List.map_cons, List.mem_cons, not_or] at hne
    have hstep : Waiting node type wanted
        (Paneltasks.upsertPendingTask (env ty) tasks n ty payload).1 :=
      h.upsertPendingTask fun hn hty => (hne hn).1 hty.symm
    rw [Paneltasks.upsertAll]
    rcases hr : Paneltasks.upsertPendingTask (env ty) tasks n ty payload with ⟨tasks', ok⟩
    rw [hr] at hstep
    cases ok with
    | false => exact hstep
    | true => exact ih hstep fun hn => (hne hn).2

/-- **Each task that is enqueued waits**, when every insert is executed. -/
theorem waiting_upsertAll {env : TaskType → EnqueueEnv} {l : List (TaskType × GoMap String)}
    (hnode : node ≠ "") (hins : ∀ type, (env type).insertFails = false) (hl : (l.map (·.1)).Nodup)
    (hmem : (type, payload) ∈ l) (hw : wanted payload) :
    Waiting node type wanted (upsertAll env node tasks l).1 := by
  induction l generalizing tasks with
  | nil => exact absurd hmem List.not_mem_nil
  | cons task l ih =>
    obtain ⟨ty, payload'⟩ := task
    obtain ⟨hnot, hl⟩ := List.nodup_cons.1 hl
    have hok : (upsertPendingTask (env ty) tasks node ty payload').2 = true := by
      rw [upsertPendingTask, if_neg hnode, replacePending, hins ty]
      rfl
    rw [upsertAll]
    rcases hr : upsertPendingTask (env ty) tasks node ty payload' with ⟨tasks', ok⟩
    rw [hr] at hok
    dsimp only at hok
    subst hok
    rcases List.mem_cons.1 hmem with heq | hmem
    · -- the rest of the enqueue has no task of the type
      cases heq
      have hstep : Waiting node type wanted
          (upsertPendingTask (env type) tasks node type payload).1 :=
        waiting_upsertPendingTask hnode (hins type) hw
      rw [hr] at hstep
      exact hstep.upsertAll fun _ => hnot
    · exact ih hl hmem

/-- An enqueue of the material tasks of another node leaves the task, and so does one that has no
task of the type. -/
theorem Waiting.enqueueMaterial {env : TaskType → EnqueueEnv} {settings : GoMap Json}
    (h : Waiting node type wanted tasks)
    (hne : n = node → type ∉ (materialSyncTasks settings).map (·.1)) :
    Waiting node type wanted (enqueueOpenvpnMaterialSyncTasks env tasks n settings).1 := by
  rw [enqueueOpenvpnMaterialSyncTasks]
  split_ifs
  · exact h
  · exact h.upsertAll hne

theorem waiting_enqueueMaterial {env : TaskType → EnqueueEnv}
    {settings : GoMap Json} (hnode : node ≠ "") (hins : ∀ type, (env type).insertFails = false)
    (hmem : (type, payload) ∈ materialSyncTasks settings) (hw : wanted payload) :
    Waiting node type wanted (enqueueOpenvpnMaterialSyncTasks env tasks node settings).1 := by
  rw [enqueueOpenvpnMaterialSyncTasks, if_neg hnode]
  exact waiting_upsertAll hnode hins (nodup_materialSyncTasks settings) hmem hw

theorem hasKey_enqueueMaterial {env : TaskType → EnqueueEnv} {settings : GoMap Json}
    (h : Rows.HasKey (·.id) tasks) :
    Rows.HasKey (·.id) (enqueueOpenvpnMaterialSyncTasks env tasks n settings).1 := by
  rw [enqueueOpenvpnMaterialSyncTasks]
  split_ifs
  · exact h
  · exact hasKey_upsertAll _ h

/-! ### Claims and executions -/

/-- A claim leaves every task waiting. -/
theorem Waiting.markProcessing (h : Waiting node type wanted tasks) (now : ℤ) (id : String) :
    Waiting node type wanted (markProcessing now id tasks) := by
  obtain ⟨t, ht, hnode, htype, hstatus, hw⟩ := h
  cases hp : decide (t.id = id ∧ t.status = .pending) with
  | true => exact ⟨_, Rows.mem_updateWhere_of ht hp, hnode, htype, Or.inr rfl, hw⟩
  | false => exact ⟨t, Rows.mem_updateWhere_of_not ht hp, hnode, htype, hstatus, hw⟩

theorem claimPendingTask_fst {now : ℤ} {id : String} {out : List PanelAsyncTask × PanelAsyncTask}
    (h : claimPendingTask now tasks node id = some out) :
    out.1 = Paneltasks.markProcessing now id tasks := by
  rw [claimPendingTask] at h
  split at h
  · split_ifs at h
    cases h
    rfl
  · cases h

/-- A task other than the row waits beside it. -/
theorem Waiting.beside {t : PanelAsyncTask} (h : Waiting node type wanted tasks)
    (hkey : Rows.HasKey (·.id) tasks) (ht : t ∈ tasks)
    (hne : t.agentNodeId = node → t.type ≠ type) :
    Waiting node type wanted (tasks.filter fun u => u.id ≠ t.id) := by
  obtain ⟨u, hu, hnode, htype, hrow⟩ := h
  refine ⟨u, List.mem_filter.2 ⟨hu, decide_eq_true fun hid => ?_⟩, hnode, htype, hrow⟩
  obtain rfl := hkey.eq_of_key hu ht hid
  exact hne hnode htype

/-- **An execution.** -/
theorem executeTask_eq_some {env : EnqueueEnv} {now : ℤ} {id : String}
    {tasks' : List PanelAsyncTask} {t : PanelAsyncTask}
    (h : executeTask env now tasks id = some (tasks', t)) :
    t ∈ tasks ∧ t.id = id ∧ t.status = .processing ∧
      tasks' = completeTask now (if t.type.restarts then
          (enqueueOpenvpnServiceRestart env tasks t.agentNodeId t.type.text).1
          else tasks) id "" := by
  rw [executeTask] at h
  cases hfind : Rows.byKey (·.id) id tasks with
  | none =>
    rw [hfind] at h
    cases h
  | some u =>
    rw [hfind] at h
    dsimp only at h
    obtain ⟨hu, hid⟩ := Rows.mem_of_byKey_eq_some hfind
    split at h
    · cases h
    · rename_i hstatus _ _
      cases h
      refine ⟨hu, hid, hstatus, ?_⟩
      split_ifs <;> rfl
    · cases h

/-- **An execution leaves the tasks of other ids waiting.** -/
theorem Waiting.execute {env : EnqueueEnv} {now : ℤ} {id : String} {tasks' : List PanelAsyncTask}
    {t : PanelAsyncTask} (h : Waiting node type wanted (tasks.filter fun u => u.id ≠ id))
    (htype : type ≠ .openvpnServiceRestart)
    (hexec : executeTask env now tasks id = some (tasks', t)) :
    Waiting node type wanted tasks' := by
  obtain ⟨-, -, -, rfl⟩ := executeTask_eq_some hexec
  obtain ⟨u, hu, hnode, hty, hrow⟩ := h
  obtain ⟨hu, hne⟩ := List.mem_filter.1 hu
  refine ⟨u, Rows.mem_updateWhere_of_not ?_ (decide_eq_false (of_decide_eq_true hne)),
    hnode, hty, hrow⟩
  split_ifs
  · -- the enqueue of the restart deletes only restarts
    rw [enqueueOpenvpnServiceRestart, Paneltasks.upsertPendingTask]
    split_ifs
    · exact hu
    · have hmem : u ∈ survivors env (·.isPendingOf t.agentNodeId .openvpnServiceRestart) tasks := by
        refine mem_survivors_of_not_stale hu (Bool.eq_false_iff.2 fun hs => htype ?_)
        exact hty.symm.trans (PanelAsyncTask.isPendingOf_iff.1 hs).2.1
      rw [replacePending_fst]
      split_ifs
      · exact hmem
      · exact List.mem_append_left _ hmem
  · exact hu

theorem hasKey_markProcessing (h : Rows.HasKey (·.id) tasks) (now : ℤ) (id : String) :
    Rows.HasKey (·.id) (markProcessing now id tasks) := h.updateWhere fun _ _ _ => rfl

theorem hasKey_executeTask {env : EnqueueEnv} {now : ℤ} {id : String} {tasks' : List PanelAsyncTask}
    {t : PanelAsyncTask} (h : Rows.HasKey (·.id) tasks)
    (hexec : executeTask env now tasks id = some (tasks', t)) : Rows.HasKey (·.id) tasks' := by
  obtain ⟨-, -, -, rfl⟩ := executeTask_eq_some hexec
  refine Rows.HasKey.updateWhere ?_ fun _ _ _ => rfl
  split_ifs
  · exact hasKey_upsertPendingTask h
  · exact h

end OpenvpnControl.Paneltasks
