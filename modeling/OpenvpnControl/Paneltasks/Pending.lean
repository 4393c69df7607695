import OpenvpnControl.Library.Runs
import OpenvpnControl.Paneltasks.Queue

/-!
# Pending tasks of one node and type

The queue is driven by enqueue functions, claims, completions and retries, each run to its end.
Every enqueue replaces the pending rows it knows to be stale. Two of the operations may leave a
second pending row of the same node and type: a CRL enqueue, which replaces only the rows of its
own root, and a retry, which replaces nothing.

## Main definitions

* `QueueOp`, `queueStep`: the operations and their effect.
* `AtMostOnePending`: no two pending rows share node and type.
* `LeavesNoSecond`: the condition under which an operation adds no second pending row.

## Main results

* `atMostOnePending_run`: the queue keeps at most one pending row of each node and type in every
  run whose operations meet that condition.
* `retry_leaves_second_pending`: a retry that does not meet it.
-/

namespace OpenvpnControl.Paneltasks

/-- The number of pending rows of the node and type. -/
def pendingCount (tasks : List PanelAsyncTask) (node : String) (type : TaskType) : ℕ :=
  tasks.countP (·.isPendingOf node type)

/-- No two pending rows share node and type. -/
def AtMostOnePending (tasks : List PanelAsyncTask) : Prop :=
  ∀ node type, pendingCount tasks node type ≤ 1

/-! ### Operations -/

/-- An operation on the queue. -/
inductive QueueOp where
  | upsert (env : EnqueueEnv) (agentNodeID : String) (taskType : TaskType) (payload : GoMap String)
  | materialSync (env : TaskType → EnqueueEnv) (nodeID : String) (settings : GoMap Json)
  | crlDeploy (env : String → EnqueueEnv) (rows : List AgentNodeOpenvpnSettings)
      (rootCaID : String)
  | cancelRestarts (agentNodeID : String)
  | claim (now : ℤ) (node id : String)
  | complete (now : ℤ) (id errMsg : String)
  | retry (now : ℤ) (id : String)

/-- The table after an operation. A CRL enqueue reads a settings table with one row a node. -/
def queueStep (tasks : List PanelAsyncTask) : QueueOp → Option (List PanelAsyncTask)
  | .upsert env node type payload => some (upsertPendingTask env tasks node type payload).1
  | .materialSync env node settings =>
    some (enqueueOpenvpnMaterialSyncTasks env tasks node settings).1
  | .crlDeploy env rows root =>
    if Rows.HasKey (·.agentNodeId) rows then some (enqueueCrlDeployForRootCa env tasks rows root)
    else none
  | .cancelRestarts node => some (cancelPendingOpenvpnServiceRestarts tasks node)
  | .claim now node id => (claimPendingTask now tasks node id).map (·.1)
  | .complete now id errMsg => some (completeTask now tasks id errMsg)
  | .retry now id => some (retry now tasks id).1

/-! ### One delete-then-insert -/

/-- The rows left by the delete of an enqueue. -/
def survivors (env : EnqueueEnv) (stale : PanelAsyncTask → Bool) (tasks : List PanelAsyncTask) :
    List PanelAsyncTask :=
  if env.deleteFails then tasks else Rows.deleteWhere stale tasks

theorem replacePending_fst (env : EnqueueEnv) (stale : PanelAsyncTask → Bool)
    (tasks : List PanelAsyncTask) (node : String) (type : TaskType) (payload : GoMap String) :
    (replacePending env stale tasks node type payload).1 =
      if env.insertFails then survivors env stale tasks
      else survivors env stale tasks ++
        [env.newTask (survivors env stale tasks) node type payload] := by
  simp only [replacePending, survivors]
  split_ifs <;> rfl

theorem mem_survivors_of_not_stale {env : EnqueueEnv} {stale : PanelAsyncTask → Bool}
    {tasks : List PanelAsyncTask} {t : PanelAsyncTask} (ht : t ∈ tasks) (hs : stale t = false) :
    t ∈ survivors env stale tasks := by
  rw [survivors]
  split_ifs
  · exact ht
  · exact Rows.mem_deleteWhere.2 ⟨ht, hs⟩

theorem pendingCount_survivors_le (env : EnqueueEnv) (stale : PanelAsyncTask → Bool)
    (tasks : List PanelAsyncTask) (node : String) (type : TaskType) :
    pendingCount (survivors env stale tasks) node type ≤ pendingCount tasks node type := by
  rw [survivors]
  split_ifs
  · exact le_rfl
  · exact Rows.countP_deleteWhere_le _ _ _

/-- A delete-then-insert of a node and type leaves the pending rows of every other node and type. -/
theorem pendingCount_replacePending_of_ne {env : EnqueueEnv} {stale : PanelAsyncTask → Bool}
    {tasks : List PanelAsyncTask} {node n : String} {type ty : TaskType} {payload : GoMap String}
    (hne : ¬(n = node ∧ ty = type)) :
    pendingCount (replacePending env stale tasks node type payload).1 n ty ≤
      pendingCount tasks n ty := by
  rw [replacePending_fst]
  split_ifs
  · exact pendingCount_survivors_le env stale tasks n ty
  · have hnew : (env.newTask (survivors env stale tasks) node type payload).isPendingOf n ty =
        false := by
      rw [Bool.eq_false_iff, Ne, PanelAsyncTask.isPendingOf_iff]
      rintro ⟨hn, hty, -⟩
      exact hne ⟨hn.symm, hty.symm⟩
    calc pendingCount (survivors env stale tasks ++ _) n ty
        = pendingCount (survivors env stale tasks) n ty := by
          simp [pendingCount, List.countP_append, hnew]
      _ ≤ pendingCount tasks n ty := pendingCount_survivors_le env stale tasks n ty

/-- A delete-then-insert adds at most its own row to the pending rows its delete leaves. -/
theorem pendingCount_replacePending_self (env : EnqueueEnv) (stale : PanelAsyncTask → Bool)
    (tasks : List PanelAsyncTask) (node : String) (type : TaskType) (payload : GoMap String) :
    pendingCount (replacePending env stale tasks node type payload).1 node type ≤
      pendingCount (survivors env stale tasks) node type +
        if env.insertFails then 0 else 1 := by
  rw [replacePending_fst]
  split_ifs
  · exact le_rfl
  · rw [pendingCount, pendingCount, List.countP_append]
    exact Nat.add_le_add_left List.countP_le_length _

/-- The delete of an enqueue, when it is followed by an insert, leaves no pending row of the node
and type. -/
def DeletesPending (env : EnqueueEnv) (stale : PanelAsyncTask → Bool) (tasks : List PanelAsyncTask)
    (node : String) (type : TaskType) : Prop :=
  env.insertFails = false → pendingCount (survivors env stale tasks) node type = 0

/-- **One delete-then-insert keeps at most one pending row** of each node and type, when the delete
leaves none of its own. -/
theorem AtMostOnePending.replacePending {env : EnqueueEnv} {stale : PanelAsyncTask → Bool}
    {tasks : List PanelAsyncTask} {node : String} {type : TaskType} {payload : GoMap String}
    (h : AtMostOnePending tasks) (hdel : DeletesPending env stale tasks node type) :
    AtMostOnePending (replacePending env stale tasks node type payload).1 := by
  intro n ty
  by_cases hne : n = node ∧ ty = type
  · obtain ⟨rfl, rfl⟩ := hne
    refine (pendingCount_replacePending_self env stale tasks n ty payload).trans ?_
    cases hins : env.insertFails with
    | true => exact (pendingCount_survivors_le env stale tasks n ty).trans (h n ty)
    | false => simp [hdel hins]
  · exact (pendingCount_replacePending_of_ne hne).trans (h n ty)

theorem hasKey_replacePending {env : EnqueueEnv} {stale : PanelAsyncTask → Bool}
    {tasks : List PanelAsyncTask} {node : String} {type : TaskType} {payload : GoMap String}
    (h : Rows.HasKey (·.id) tasks) :
    Rows.HasKey (·.id) (replacePending env stale tasks node type payload).1 := by
  have hs : Rows.HasKey (·.id) (survivors env stale tasks) := by
    rw [survivors]
    split_ifs
    · exact h
    · exact h.deleteWhere
  rw [replacePending_fst]
  split_ifs
  · exact hs
  · exact hs.append_singleton (env.ksuid_fresh _)

/-! ### The condition -/

/-- What each operation needs in order to leave no second pending row: the delete of an enqueue
removes the pending rows of the node and type it inserts into, and a retry of a task that is not
processing finds no other pending row of its node and type. -/
def LeavesNoSecond (tasks : List PanelAsyncTask) : QueueOp → Prop
  | .upsert env node type _ =>
    node ≠ "" → DeletesPending env (·.isPendingOf node type) tasks node type
  | .materialSync env node settings =>
    node ≠ "" → ∀ task ∈ materialSyncTasks settings,
      DeletesPending (env task.1) (·.isPendingOf node task.1) tasks node task.1
  | .crlDeploy env rows root =>
    root ≠ "" → ∀ target ∈ rows.filterMap (crlTarget root),
      DeletesPending (env target.1) (isPendingCrlOf target.1 root) tasks target.1 .crlDeploy
  | .retry _ id =>
    ∀ t ∈ tasks, t.id = id → t.status ≠ .processing →
      ∀ u ∈ tasks, u.isPendingOf t.agentNodeId t.type → u.id = id
  | _ => True

instance (env : EnqueueEnv) (stale : PanelAsyncTask → Bool) (tasks : List PanelAsyncTask)
    (node : String) (type : TaskType) : Decidable (DeletesPending env stale tasks node type) :=
  inferInstanceAs (Decidable (_ → _))

instance (tasks : List PanelAsyncTask) : (op : QueueOp) → Decidable (LeavesNoSecond tasks op)
  | .upsert _ _ _ _ | .materialSync _ _ _ | .crlDeploy _ _ _ =>
    inferInstanceAs (Decidable (_ → _))
  | .retry _ id => inferInstanceAs (Decidable (∀ t ∈ tasks, t.id = id → t.status ≠ .processing →
      ∀ u ∈ tasks, u.isPendingOf t.agentNodeId t.type → u.id = id))
  | .cancelRestarts _ | .claim _ _ _ | .complete _ _ _ => isTrue trivial

/-! ### Loops of enqueues -/

/-- What a delete-then-insert of another node or type leaves of the premise of the next. -/
theorem DeletesPending.of_le {env : EnqueueEnv} {stale : PanelAsyncTask → Bool}
    {tasks tasks' : List PanelAsyncTask} {node : String} {type : TaskType}
    (h : DeletesPending env stale tasks node type)
    (hle : pendingCount (survivors env stale tasks') node type ≤
      pendingCount (survivors env stale tasks) node type) :
    DeletesPending env stale tasks' node type :=
  fun hins => Nat.le_zero.1 (hle.trans_eq (h hins))

/-- Replacing pending rows of another node or type does not change what a delete leaves pending. -/
theorem pendingCount_survivors_replacePending {env env' : EnqueueEnv}
    {stale stale' : PanelAsyncTask → Bool} {tasks : List PanelAsyncTask} {node n : String}
    {type ty : TaskType} {payload : GoMap String} (hne : ¬(n = node ∧ ty = type)) :
    pendingCount (survivors env' stale' (replacePending env stale tasks node type payload).1) n ty ≤
      pendingCount (survivors env' stale' tasks) n ty := by
  have hnew : ∀ ts, (env.newTask ts node type payload).isPendingOf n ty = false := by
    intro ts
    rw [Bool.eq_false_iff, Ne, PanelAsyncTask.isPendingOf_iff]
    rintro ⟨hn, hty, -⟩
    exact hne ⟨hn.symm, hty.symm⟩
  -- both deletes are filters, so the surviving pending rows form a sublist
  have hsub : ∀ ts us : List PanelAsyncTask,
      (us.filter (·.isPendingOf n ty)).Sublist (ts.filter (·.isPendingOf n ty)) →
      pendingCount (survivors env' stale' us) n ty ≤
      pendingCount (survivors env' stale' ts) n ty := by
    intro ts us h
    simp only [pendingCount, survivors]
    split_ifs
    · simpa only [List.countP_eq_length_filter] using h.length_le
    · simp only [Rows.deleteWhere, List.countP_eq_length_filter]
      have := (h.filter fun t => !stale' t).length_le
      simpa only [List.filter_filter, Bool.and_comm] using this
  refine hsub tasks _ ?_
  have hsurv : ((survivors env stale tasks).filter (·.isPendingOf n ty)).Sublist
      (tasks.filter (·.isPendingOf n ty)) := by
    rw [survivors]
    split_ifs
    · exact List.Sublist.refl _
    · exact List.filter_sublist.filter _
  rw [replacePending_fst]
  split_ifs
  · exact hsurv
  · rw [List.filter_append, List.filter_singleton, hnew]
    simpa using hsurv

theorem upsertPendingTask_fst_of_ne_empty {env : EnqueueEnv} {tasks : List PanelAsyncTask}
    {node : String} {type : TaskType} {payload : GoMap String} (h : node ≠ "") :
    upsertPendingTask env tasks node type payload =
      replacePending env (·.isPendingOf node type) tasks node type payload := by
  rw [upsertPendingTask, if_neg h]

theorem AtMostOnePending.upsertAll {env : TaskType → EnqueueEnv} {node : String} (hnode : node ≠ "")
    (l : List (TaskType × GoMap String)) (hl : (l.map (·.1)).Nodup) {tasks : List PanelAsyncTask}
    (h : AtMostOnePending tasks)
    (hdel : ∀ task ∈ l,
      DeletesPending (env task.1) (·.isPendingOf node task.1) tasks node task.1) :
    AtMostOnePending (upsertAll env node tasks l).1 := by
  induction l generalizing tasks with
  | nil => exact h
  | cons task l ih =>
    obtain ⟨type, payload⟩ := task
    obtain ⟨hnot, hnd⟩ := List.nodup_cons.1 hl
    rw [List.forall_mem_cons] at hdel
    have hstep : AtMostOnePending (upsertPendingTask (env type) tasks node type payload).1 := by
      rw [upsertPendingTask_fst_of_ne_empty hnode]
      exact h.replacePending hdel.1
    rw [Paneltasks.upsertAll]
    rcases hr : upsertPendingTask (env type) tasks node type payload with ⟨tasks', ok⟩
    rw [hr] at hstep
    cases ok with
    | false => exact hstep
    | true =>
      refine ih hnd hstep fun task htask => (hdel.2 task htask).of_le ?_
      have htasks' : tasks' =
          (Paneltasks.replacePending (env type) (·.isPendingOf node type) tasks node type
            payload).1 := by
        rw [← upsertPendingTask_fst_of_ne_empty hnode, hr]
      rw [htasks']
      refine pendingCount_survivors_replacePending ?_
      rintro ⟨-, htype⟩
      exact hnot (List.mem_map.2 ⟨task, htask, htype⟩)

theorem hasKey_upsertPendingTask {env : EnqueueEnv} {tasks : List PanelAsyncTask} {node : String}
    {type : TaskType} {payload : GoMap String} (h : Rows.HasKey (·.id) tasks) :
    Rows.HasKey (·.id) (upsertPendingTask env tasks node type payload).1 := by
  rw [upsertPendingTask]
  split_ifs
  · exact h
  · exact hasKey_replacePending h

theorem hasKey_upsertAll {env : TaskType → EnqueueEnv} {node : String}
    (l : List (TaskType × GoMap String)) {tasks : List PanelAsyncTask}
    (h : Rows.HasKey (·.id) tasks) : Rows.HasKey (·.id) (upsertAll env node tasks l).1 := by
  induction l generalizing tasks with
  | nil => exact h
  | cons task l ih =>
    obtain ⟨type, payload⟩ := task
    rw [upsertAll]
    have hstep : Rows.HasKey (·.id) (upsertPendingTask (env type) tasks node type payload).1 :=
      hasKey_upsertPendingTask h
    rcases hr : upsertPendingTask (env type) tasks node type payload with ⟨tasks', ok⟩
    rw [hr] at hstep
    cases ok with
    | false => exact hstep
    | true => exact ih hstep

/-- The material tasks of one settings object have different types. -/
theorem nodup_materialSyncTasks (settings : GoMap Json) :
    ((materialSyncTasks settings).map (·.1)).Nodup := by
  simp only [materialSyncTasks, List.map_append]
  split_ifs <;> simp

theorem fst_crlTarget {root : String} {row : AgentNodeOpenvpnSettings} {target : String × String}
    (h : crlTarget root row = some target) : target.1 = row.agentNodeId := by
  simp only [crlTarget] at h
  split_ifs at h
  obtain rfl := Option.some.inj h
  rfl

/-- The nodes of a CRL enqueue are different, since the settings table has one row a node. -/
theorem nodup_crlTargets {rows : List AgentNodeOpenvpnSettings} (root : String)
    (h : Rows.HasKey (·.agentNodeId) rows) :
    ((rows.filterMap (crlTarget root)).map (·.1)).Nodup :=
  Rows.nodup_map_filterMap h fun _ _ => fst_crlTarget

/-- The loop of `enqueueCrlDeployForRootCa` over a list of targets. -/
theorem AtMostOnePending.crlLoop {env : String → EnqueueEnv} {root : String}
    (targets : List (String × String)) (hnd : (targets.map (·.1)).Nodup)
    {tasks : List PanelAsyncTask} (h : AtMostOnePending tasks)
    (hdel : ∀ target ∈ targets,
      DeletesPending (env target.1) (isPendingCrlOf target.1 root) tasks target.1 .crlDeploy) :
    AtMostOnePending (targets.foldl (replaceCrl env root) tasks) := by
  induction targets generalizing tasks with
  | nil => exact h
  | cons target targets ih =>
    obtain ⟨hnot, hnd'⟩ := List.nodup_cons.1 hnd
    rw [List.forall_mem_cons] at hdel
    refine ih hnd' (h.replacePending hdel.1) fun target' htarget => ?_
    refine (hdel.2 target' htarget).of_le (pendingCount_survivors_replacePending ?_)
    rintro ⟨hnode, -⟩
    exact hnot (List.mem_map.2 ⟨target', htarget, hnode⟩)

theorem hasKey_crlLoop {env : String → EnqueueEnv} {root : String}
    (targets : List (String × String)) {tasks : List PanelAsyncTask}
    (h : Rows.HasKey (·.id) tasks) :
    Rows.HasKey (·.id) (targets.foldl (replaceCrl env root) tasks) := by
  induction targets generalizing tasks with
  | nil => exact h
  | cons target targets ih => exact ih (hasKey_replacePending h)

/-! ### Claims, completions and retries -/

theorem pendingCount_markProcessing_le (now : ℤ) (id : String) (tasks : List PanelAsyncTask)
    (node : String) (type : TaskType) :
    pendingCount (markProcessing now id tasks) node type ≤ pendingCount tasks node type := by
  refine Rows.countP_updateWhere_le fun t _ _ hq => ?_
  simp [PanelAsyncTask.isPendingOf] at hq

theorem pendingCount_completeTask_le (now : ℤ) (id errMsg : String) (tasks : List PanelAsyncTask)
    (node : String) (type : TaskType) :
    pendingCount (completeTask now tasks id errMsg) node type ≤ pendingCount tasks node type := by
  refine Rows.countP_updateWhere_le fun t _ _ hq => ?_
  rw [PanelAsyncTask.isPendingOf_iff] at hq
  obtain ⟨-, -, hstatus⟩ := hq
  simp only at hstatus
  split_ifs at hstatus

/-- A retry keeps at most one pending row, when its task is alone among the pending rows of its
node and type. -/
theorem AtMostOnePending.resetToPending {now : ℤ} {id : String} {tasks : List PanelAsyncTask}
    (hkey : Rows.HasKey (·.id) tasks) (h : AtMostOnePending tasks)
    (halone : ∀ t ∈ tasks, t.id = id →
      ∀ u ∈ tasks, u.isPendingOf t.agentNodeId t.type → u.id = id) :
    AtMostOnePending (resetToPending now id tasks) := by
  intro node type
  by_cases hrow : ∃ t ∈ tasks, t.id = id ∧ t.agentNodeId = node ∧ t.type = type
  · obtain ⟨t, ht, hid, rfl, rfl⟩ := hrow
    refine (Rows.countP_updateWhere_key_le hkey id).trans ?_
    have hrest : (Rows.deleteWhere (fun u => decide (u.id = id)) tasks).countP
        (·.isPendingOf t.agentNodeId t.type) = 0 := by
      refine List.countP_eq_zero.2 fun u hu hpend => ?_
      obtain ⟨hu', hne⟩ := Rows.mem_deleteWhere.1 hu
      exact absurd (halone t ht hid u hu' hpend) (by simpa using hne)
    omega
  · refine (Rows.countP_updateWhere_le fun t ht hp hq => ?_).trans (h node type)
    -- the updated row has another node or type, so it does not count
    rw [PanelAsyncTask.isPendingOf_iff] at hq
    exact absurd ⟨t, ht, by simpa using hp, hq.1, hq.2.1⟩ hrow

/-! ### Runs -/

/-- The rows have different ids and no two pending ones share node and type. -/
structure QueueInv (tasks : List PanelAsyncTask) : Prop where
  key : Rows.HasKey (·.id) tasks
  pending : AtMostOnePending tasks

theorem queueInv_nil : QueueInv [] := ⟨List.nodup_nil, fun _ _ => Nat.zero_le _⟩

/-- **One operation** that meets the condition keeps at most one pending row of each node and
type. -/
theorem QueueInv.step (tasks : List PanelAsyncTask) (op : QueueOp) (tasks' : List PanelAsyncTask)
    (h : QueueInv tasks) (hok : LeavesNoSecond tasks op)
    (hstep : queueStep tasks op = some tasks') :
    QueueInv tasks' := by
  cases op with
  | upsert env node type payload =>
    obtain rfl := Option.some.inj hstep
    refine ⟨hasKey_upsertPendingTask h.key, ?_⟩
    by_cases hnode : node = ""
    · rw [upsertPendingTask, if_pos hnode]
      exact h.pending
    · rw [upsertPendingTask_fst_of_ne_empty hnode]
      exact h.pending.replacePending (hok hnode)
  | materialSync env node settings =>
    obtain rfl := Option.some.inj hstep
    rw [enqueueOpenvpnMaterialSyncTasks]
    split_ifs with hnode
    · exact h
    · exact ⟨hasKey_upsertAll _ h.key,
        h.pending.upsertAll hnode _ (nodup_materialSyncTasks settings) (hok hnode)⟩
  | crlDeploy env rows root =>
    simp only [queueStep] at hstep
    split_ifs at hstep with hrows
    obtain rfl := Option.some.inj hstep
    rw [enqueueCrlDeployForRootCa]
    split_ifs with hroot
    · exact h
    · exact ⟨hasKey_crlLoop _ h.key,
        h.pending.crlLoop _ (nodup_crlTargets root hrows) (hok hroot)⟩
  | cancelRestarts node =>
    obtain rfl := Option.some.inj hstep
    rw [cancelPendingOpenvpnServiceRestarts]
    split_ifs
    · exact h
    · exact ⟨h.key.deleteWhere,
        fun n ty => (Rows.countP_deleteWhere_le _ _ _).trans (h.pending n ty)⟩
  | claim now node id =>
    simp only [queueStep, claimPendingTask] at hstep
    split at hstep
    · split_ifs at hstep
      · obtain rfl := Option.some.inj hstep
        exact ⟨h.key.updateWhere fun _ _ _ => rfl, fun n ty =>
          (pendingCount_markProcessing_le now id tasks n ty).trans (h.pending n ty)⟩
      · cases hstep
    · cases hstep
  | complete now id errMsg =>
    obtain rfl := Option.some.inj hstep
    exact ⟨h.key.updateWhere fun _ _ _ => rfl, fun n ty =>
      (pendingCount_completeTask_le now id errMsg tasks n ty).trans (h.pending n ty)⟩
  | retry now id =>
    obtain rfl := Option.some.inj hstep
    rw [retry]
    split
    · exact h
    · exact h
    · rename_i status hne hstatus
      obtain ⟨t, ht, hid, hs⟩ := (statusOf_eq_some h.key).1 hstatus
      refine ⟨h.key.updateWhere fun _ _ _ => rfl, h.pending.resetToPending h.key ?_⟩
      intro u hu huid
      obtain rfl : u = t := h.key.eq_of_key hu ht (huid.trans hid.symm)
      exact hok u hu huid fun hproc => hne (by rw [← hproc, hs])

/-- **At most one pending task of each node and type.** In every run from the empty table whose
operations meet `LeavesNoSecond`, no two pending rows of the table reached share node and type. -/
theorem atMostOnePending_run (ops : List QueueOp) (tasks : List PanelAsyncTask)
    (hok : Runs.Meets queueStep LeavesNoSecond [] ops)
    (hrun : Runs.run queueStep [] ops = some tasks) : AtMostOnePending tasks :=
  (Runs.run_invariant_of_meets QueueInv.step queueInv_nil hok hrun).pending

/-- A snapshot task fails and is retried, and the next one is queued in its place. -/
def retryBeforeUpsert : List QueueOp :=
  [.upsert longerIds "n1" .panelAgentSnapshot ∅, .claim 1 "n1" "k", .complete 2 "k" "timeout",
    .retry 3 "k", .upsert longerIds "n1" .panelAgentSnapshot ∅]

theorem atMostOnePending_run_retryBeforeUpsert :
    ∃ tasks, Runs.run queueStep [] retryBeforeUpsert = some tasks ∧ AtMostOnePending tasks := by
  obtain ⟨tasks, hrun⟩ : ∃ tasks, Runs.run queueStep [] retryBeforeUpsert = some tasks :=
    Option.isSome_iff_exists.1 (by decide)
  exact ⟨tasks, hrun, atMostOnePending_run retryBeforeUpsert tasks (by decide) hrun⟩

/-- A snapshot task completes, the next one is queued, and the first is retried. -/
def retryAfterUpsert : List QueueOp :=
  [.upsert longerIds "n1" .panelAgentSnapshot ∅, .claim 1 "n1" "k", .complete 2 "k" "",
    .upsert longerIds "n1" .panelAgentSnapshot ∅, .retry 3 "k"]

/-- **A retry may leave a second pending task** of a node and type, which no enqueue does. -/
theorem retry_leaves_second_pending :
    ¬∀ ops tasks, Runs.run queueStep [] ops = some tasks → AtMostOnePending tasks := by
  intro h
  have hcount : ((Runs.run queueStep [] retryAfterUpsert).any fun tasks =>
      decide (pendingCount tasks "n1" .panelAgentSnapshot = 2)) = true := by decide
  obtain ⟨tasks, hrun, htwo⟩ := (Option.any_eq_true _ _).1 hcount
  have hone := h retryAfterUpsert tasks hrun "n1" .panelAgentSnapshot
  rw [of_decide_eq_true htwo] at hone
  exact absurd hone (by decide)

end OpenvpnControl.Paneltasks
