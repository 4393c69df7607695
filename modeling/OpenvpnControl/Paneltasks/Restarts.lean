import OpenvpnControl.Paneltasks.Workers

/-!
# The restart after written material

A sync task writes one or two files to its node and then enqueues a restart of the service, which
another worker may claim at any point. The pool of workers is refined here by the calls to the
agent: the files that an execution has written, and the call of a restart.

## Main definitions

* `SyncState`, `SyncEvent`, `syncStep`: the pool with the calls of each execution and the nodes that
  need a restart.
* `RestartQueued`: a restart of the node is pending, about to be called, or about to be enqueued.
* `Plain`: no statement is refused, no second write fails, and no restart is cancelled or retried.

## Main results

* `run_pool`: every run is a run of the pool.
* `SyncInv.step`: every plain step keeps the invariant.
* `restart_queued`: a node with freshly written material always has a restart queued.
-/

namespace OpenvpnControl.Paneltasks

/-- The files that a sync task writes. -/
def TaskType.files : TaskType → ℕ
  | .openvpnServerCertSync => 2
  | .openvpnCASync | .openvpnDhSync | .openvpnTlsAuthSync => 1
  | _ => 0

/-- The pool with the calls to the agent. `calls` counts the files an execution has written, or its
call of the restart; `dirty` marks the nodes that were written to and not restarted since; `ids` are
the ids in use so far. -/
structure SyncState (W : Type*) where
  pool : PoolState W
  calls : W → ℕ
  dirty : String → Bool
  ids : List String

/-- A step of the pool, or a call to the agent. -/
inductive SyncEvent (W : Type*) where
  | pool (e : PoolEvent W)
  /-- `agent.WriteOpenvpnFile` succeeds. -/
  | writeFile (w : W)
  /-- `agent.OpenVPNService` is called with `restart`. -/
  | callRestart (w : W)

variable {W : Type*}

/-- The id that a step gives to a new row. -/
def PoolEvent.newId (s : PoolState W) : PoolEvent W → Option String
  | .insertRestart _ env _ => if env.insertFails then none
    else some (env.ksuid (s.tasks.map (·.id)))
  | .insertTask env _ _ _ => some (env.ksuid (s.tasks.map (·.id)))
  | _ => none

namespace SyncState

/-- The workers are idle and no material is written. -/
def initial (tasks : List PanelAsyncTask) : SyncState W :=
  ⟨.initial tasks, fun _ => 0, fun _ => false, tasks.map (·.id)⟩

/-- May the pool make the step now? The restart is enqueued when all files are written, the
execution of a sync task fails before that, and the execution of a restart ends after its call. -/
def Admits (s : SyncState W) : PoolEvent W → Prop
  | .deleteRestart w =>
    match s.pool.workers w with
    | .executing _ _ task => s.calls w = task.type.files
    | _ => True
  | .finish w _ =>
    match s.pool.workers w with
    | .executing _ _ task =>
      (task.type.restarts = true → s.calls w < task.type.files) ∧
        (task.type = .openvpnServiceRestart → s.calls w = 1)
    | _ => True
  | _ => True

instance (s : SyncState W) (e : PoolEvent W) : Decidable (s.Admits e) := by
  unfold Admits
  cases e <;> dsimp only <;> try infer_instance
  all_goals split <;> infer_instance

/-- The calls after a step of the pool: an execution starts with none. -/
def callsAfter [DecidableEq W] (s : SyncState W) : PoolEvent W → W → ℕ
  | .claim w _ => Function.update s.calls w 0
  | _ => s.calls

end SyncState

/-- The state after a step, and `none` when the step cannot happen. `ksuid.New` gives no id
twice. -/
def syncStep [DecidableEq W] (s : SyncState W) : SyncEvent W → Option (SyncState W)
  | .pool e =>
    if s.Admits e ∧ ∀ id ∈ e.newId s.pool, id ∉ s.ids then
      (poolStep s.pool e).map fun pool => { s with
        pool := pool
        calls := s.callsAfter e
        ids := (e.newId s.pool).toList ++ s.ids }
    else none
  | .writeFile w =>
    match s.pool.workers w with
    | .executing node _ task =>
      if s.calls w < task.type.files then
        some { s with
          calls := Function.update s.calls w (s.calls w + 1)
          dirty := Function.update s.dirty node true }
      else none
    | _ => none
  | .callRestart w =>
    match s.pool.workers w with
    | .executing node _ task =>
      if task.type = .openvpnServiceRestart ∧ s.calls w = 0 then
        some { s with
          calls := Function.update s.calls w 1
          dirty := Function.update s.dirty node false }
      else none
    | _ => none

/-- A restart of the node is pending, or is processing with its call not yet made, or a sync task of
the node that has written a file is processing and has not returned from its enqueue. -/
def RestartQueued (s : SyncState W) (node : String) : Prop :=
  (∃ t ∈ s.pool.tasks, t.isPendingOf node .openvpnServiceRestart = true) ∨
  (∃ w left task, s.pool.workers w = .executing node left task ∧
    task.type = .openvpnServiceRestart ∧ s.calls w = 0 ∧
    statusOf s.pool.tasks task.id = some .processing) ∨
  ∃ w left task, (s.pool.workers w = .executing node left task ∧ 0 < s.calls w ∨
      s.pool.workers w = .restarting node left task) ∧
    task.type.restarts = true ∧ statusOf s.pool.tasks task.id = some .processing

/-- The steps of a run in which no statement is refused, no write fails after the first file,
`CancelPendingOpenvpnServiceRestarts` is not called, and nothing is retried. Only the sync tasks
enqueue restarts, so that no other step deletes pending ones. -/
def Plain (s : SyncState W) : SyncEvent W → Prop
  | .pool (.insertRestart _ env _) => env.insertFails = false
  | .pool (.finish w _) =>
    match s.pool.workers w with
    | .executing _ _ task => task.type.restarts = true → s.calls w = 0
    | _ => True
  | .pool (.deletePending _ type) => type ≠ .openvpnServiceRestart
  | .pool (.retrySelect _) | .pool (.retryUpdate _ _) => False
  | _ => True

instance (s : SyncState W) (e : SyncEvent W) : Decidable (Plain s e) := by
  unfold Plain
  cases e with
  | pool e =>
    cases e <;> dsimp only <;> try infer_instance
    split <;> infer_instance
  | writeFile | callRestart => exact isTrue trivial

/-! ### The invariant -/

/-- Does the worker see to a restart of the node? It is about to call one, or has written a file and
is about to enqueue one. -/
def Worker.sees (calls : ℕ) (node : String) : Worker → Prop
  | .executing n _ task => n = node ∧
      (task.type = .openvpnServiceRestart ∧ calls = 0 ∨ task.type.restarts = true ∧ 0 < calls)
  | .restarting n _ task => n = node ∧ task.type.restarts = true
  | _ => False

/-- A restart of the node is pending, or a worker sees to one. -/
def Seen (s : SyncState W) (node : String) : Prop :=
  (∃ t ∈ s.pool.tasks, t.isPendingOf node .openvpnServiceRestart = true) ∨
    ∃ w, (s.pool.workers w).sees (s.calls w) node

/-- The lock discipline of the pool; the ids in use are known, and a selected row is still what the
`SELECT` read, if it is still there; and each node to restart is seen to. -/
structure SyncInv (s : SyncState W) : Prop where
  pool : PoolInv s.pool
  known : ∀ t ∈ s.pool.tasks, t.id ∈ s.ids
  selected : ∀ w node left task, s.pool.workers w = .selected node left task → task.id ∈ s.ids ∧
    ∀ t ∈ s.pool.tasks, t.id = task.id → t.type = task.type ∧ t.agentNodeId = node
  seen : ∀ node, s.dirty node = true → Seen s node

/-- Where one worker moves, a node stays seen to if what that worker saw to, and what was pending,
is accounted for. -/
theorem Seen.of_moved {s s' : SyncState W} {node : String} (w : W) (h : Seen s node)
    (hothers : ∀ w', w' ≠ w → s'.pool.workers w' = s.pool.workers w' ∧ s'.calls w' = s.calls w')
    (hw : (s.pool.workers w).sees (s.calls w) node → Seen s' node)
    (hpend : ∀ t ∈ s.pool.tasks, t.isPendingOf node .openvpnServiceRestart = true → Seen s' node) :
    Seen s' node := by
  rcases h with ⟨t, ht, hp⟩ | ⟨w', hw'⟩
  · exact hpend t ht hp
  · by_cases hww : w' = w
    · subst hww
      exact hw hw'
    · obtain ⟨hworkers, hcalls⟩ := hothers w' hww
      exact Or.inr ⟨w', by rw [hworkers, hcalls]; exact hw'⟩

/-- A restart that is seen to is queued. -/
theorem SyncInv.restartQueued {s : SyncState W} (h : SyncInv s) {node : String} (hs : Seen s node) :
    RestartQueued s node := by
  rcases hs with hpend | ⟨w, hw⟩
  · exact Or.inl hpend
  · have hproc := h.pool.executes w
    simp only [PoolState.Executes] at hproc
    cases hphase : s.pool.workers w with
    | executing n left task =>
      rw [hphase] at hw hproc
      obtain ⟨rfl, ⟨htype, hcalls⟩ | ⟨htype, hcalls⟩⟩ := hw
      · exact Or.inr (Or.inl ⟨w, left, task, hphase, htype, hcalls, hproc _ rfl⟩)
      · exact Or.inr (Or.inr ⟨w, left, task, Or.inl ⟨hphase, hcalls⟩, htype, hproc _ rfl⟩)
    | restarting n left task =>
      rw [hphase] at hw hproc
      obtain ⟨rfl, htype⟩ := hw
      exact Or.inr (Or.inr ⟨w, left, task, Or.inr hphase, htype, hproc _ rfl⟩)
    | idle | polling | selected | completing =>
      rw [hphase] at hw
      cases hw

/-! ### Steps of the pool -/

section Pool

variable [DecidableEq W]

/-- What a step does to the table: it updates rows and keeps their ids, types and nodes, deletes
rows, or inserts one. -/
theorem poolStep_tasks {s s' : PoolState W} {e : PoolEvent W} (h : poolStep s e = some s') :
    (∃ p f, s'.tasks = Rows.updateWhere p f s.tasks ∧
      ∀ t, (f t).id = t.id ∧ (f t).type = t.type ∧ (f t).agentNodeId = t.agentNodeId) ∨
    (∃ p, s'.tasks = Rows.deleteWhere p s.tasks) ∨
    ∃ t, s'.tasks = s.tasks ++ [t] ∧ e.newId s = some t.id := by
  have hsame : s'.tasks = s.tasks → ∃ p : PanelAsyncTask → Bool,
      s'.tasks = Rows.deleteWhere p s.tasks :=
    fun heq => ⟨fun _ => false, by simp [heq, Rows.deleteWhere]⟩
  cases e with
  | start | select | stop | finish | retrySelect =>
    simp only [poolStep] at h
    refine Or.inr (Or.inl (hsame ?_))
    split at h <;> (try split_ifs at h) <;> cases h <;> rfl
  | claim w now =>
    simp only [poolStep] at h
    split at h
    · split_ifs at h
      · cases h
        exact Or.inl ⟨_, _, rfl, fun _ => ⟨rfl, rfl, rfl⟩⟩
      · cases h
        exact Or.inr (Or.inl (hsame rfl))
    · cases h
  | complete w now =>
    simp only [poolStep] at h
    split at h
    · cases h
      exact Or.inl ⟨_, _, rfl, fun _ => ⟨rfl, rfl, rfl⟩⟩
    · cases h
  | retryUpdate id now =>
    simp only [poolStep] at h
    by_cases hid : id ∈ s.retries
    · rw [if_pos hid] at h
      cases h
      exact Or.inl ⟨_, _, rfl, fun _ => ⟨rfl, rfl, rfl⟩⟩
    · rw [if_neg hid] at h
      cases h
  | deleteRestart w =>
    simp only [poolStep] at h
    split at h
    · split_ifs at h
      cases h
      exact Or.inr (Or.inl ⟨_, rfl⟩)
    · cases h
  | deletePending node type =>
    cases h
    exact Or.inr (Or.inl ⟨_, rfl⟩)
  | insertRestart w env errMsg =>
    simp only [poolStep] at h
    split at h
    · split_ifs at h with hfails
      · cases h
        exact Or.inr (Or.inl (hsame rfl))
      · cases h
        exact Or.inr (Or.inr ⟨_, rfl, if_neg hfails⟩)
    · cases h
  | insertTask env node type payload =>
    cases h
    exact Or.inr (Or.inr ⟨_, rfl, rfl⟩)

/-- Every row after a step was there before, with its type and node, or has the new id. -/
theorem poolStep_rows {s s' : PoolState W} {e : PoolEvent W} (h : poolStep s e = some s')
    {t : PanelAsyncTask} (ht : t ∈ s'.tasks) :
    (∃ u ∈ s.tasks, u.id = t.id ∧ u.type = t.type ∧ u.agentNodeId = t.agentNodeId) ∨
      e.newId s = some t.id := by
  rcases poolStep_tasks h with ⟨p, f, heq, hf⟩ | ⟨p, heq⟩ | ⟨u, heq, hid⟩
  · rw [heq, Rows.mem_updateWhere] at ht
    rcases ht with ⟨ht, -⟩ | ⟨u, hu, -, rfl⟩
    · exact Or.inl ⟨t, ht, rfl, rfl, rfl⟩
    · obtain ⟨hid, htype, hnode⟩ := hf u
      exact Or.inl ⟨u, hu, hid.symm, htype.symm, hnode.symm⟩
  · rw [heq, Rows.mem_deleteWhere] at ht
    exact Or.inl ⟨t, ht.1, rfl, rfl, rfl⟩
  · rw [heq, List.mem_append, List.mem_singleton] at ht
    rcases ht with ht | rfl
    · exact Or.inl ⟨t, ht, rfl, rfl, rfl⟩
    · exact Or.inr hid

/-- A selected row was selected before, or has just been read. -/
theorem poolStep_selected {s s' : PoolState W} {e : PoolEvent W} (h : poolStep s e = some s')
    {w : W} {node : String} {left : ℕ} {task : PanelAsyncTask}
    (hw : s'.workers w = .selected node left task) :
    s.workers w = .selected node left task ∨
      task ∈ s.tasks ∧ task.agentNodeId = node ∧ s'.tasks = s.tasks := by
  have hmoved : ∀ {w' : W} {p : Worker}, (∀ n l t, p ≠ .selected n l t) →
      Function.update s.workers w' p w = .selected node left task →
      s.workers w = .selected node left task := by
    intro w' p hp hupd
    rw [Function.update_apply] at hupd
    split_ifs at hupd
    · exact absurd hupd (hp _ _ _)
    · exact hupd
  cases e with
  | select w' id =>
    simp only [poolStep] at h
    split at h
    · rename_i n l u _ hrow
      split_ifs at h with hold
      cases h
      simp only [PoolState.setWorker, Function.update_apply] at hw
      split_ifs at hw
      · cases hw
        obtain ⟨hmem, -⟩ := Rows.mem_of_byKey_eq_some hrow
        exact Or.inr ⟨hmem, (PanelAsyncTask.isPendingOn_iff.1 hold.1).1, rfl⟩
      · exact Or.inl hw
    · cases h
  | start | stop | finish | claim | deleteRestart | insertRestart | complete =>
    simp only [poolStep] at h
    refine Or.inl ?_
    split at h <;> (try split_ifs at h) <;> cases h <;> exact hmoved (by simp) hw
  | retrySelect id =>
    simp only [poolStep] at h
    refine Or.inl ?_
    split at h <;> cases h <;> exact hw
  | retryUpdate id now =>
    simp only [poolStep] at h
    by_cases hid : id ∈ s.retries
    · rw [if_pos hid] at h
      cases h
      exact Or.inl hw
    · rw [if_neg hid] at h
      cases h
  | deletePending | insertTask =>
    cases h
    exact Or.inl hw

/-! ### One step -/

/-- A node that is seen to stays so in a plain step of the pool. -/
theorem Seen.pool {s s' : SyncState W} {e : PoolEvent W} {node : String} (hinv : SyncInv s)
    (hplain : Plain s (.pool e)) (hadmits : s.Admits e) (hstep : poolStep s.pool e = some s'.pool)
    (hcalls : s'.calls = s.callsAfter e) (h : Seen s node) : Seen s' node := by
  obtain ⟨⟨tasks', workers', retries', executed', rescheduled'⟩, calls', dirty', ids'⟩ := s'
  dsimp only at hstep hcalls
  subst hcalls
  -- a worker moves that saw to nothing, and every pending restart stays
  have hquiet : ∀ {w : W} {p : Worker}, workers' = Function.update s.pool.workers w p →
      (∀ w', w' ≠ w → s.callsAfter e w' = s.calls w') →
      ¬(s.pool.workers w).sees (s.calls w) node →
      (∀ t ∈ s.pool.tasks, t.isPendingOf node .openvpnServiceRestart = true → t ∈ tasks') →
      Seen ⟨⟨tasks', workers', retries', executed', rescheduled'⟩, s.callsAfter e, dirty', ids'⟩
        node := by
    rintro w p rfl hothers hfree hkept
    exact h.of_moved w (fun w' hne => ⟨Function.update_of_ne hne _ _, hothers w' hne⟩)
      (fun hsees => absurd hsees hfree) fun t ht hp => Or.inl ⟨t, hkept t ht hp, hp⟩
  -- no worker moves
  have hstill : workers' = s.pool.workers → s.callsAfter e = s.calls →
      (∀ t ∈ s.pool.tasks, t.isPendingOf node .openvpnServiceRestart = true → t ∈ tasks') →
      Seen ⟨⟨tasks', workers', retries', executed', rescheduled'⟩, s.callsAfter e, dirty', ids'⟩
        node := by
    rintro rfl hsame hkept
    rcases h with ⟨t, ht, hp⟩ | ⟨w, hw⟩
    · exact Or.inl ⟨t, hkept t ht hp, hp⟩
    · exact Or.inr ⟨w, by rw [hsame]; exact hw⟩
  cases e with
  | start w n maxTasks =>
    simp only [poolStep] at hstep
    split at hstep
    · rename_i hw
      cases hstep
      exact hquiet rfl (fun _ _ => rfl) (by rw [hw]; exact id) fun t ht _ => ht
    · cases hstep
  | select w id =>
    simp only [poolStep] at hstep
    split at hstep
    · rename_i hw _
      split_ifs at hstep
      cases hstep
      exact hquiet rfl (fun _ _ => rfl) (by rw [hw]; exact fun h => h) fun t ht _ => ht
    · cases hstep
  | stop w =>
    simp only [poolStep] at hstep
    split at hstep
    · rename_i hw
      cases hstep
      exact hquiet rfl (fun _ _ => rfl) (by rw [hw]; exact id) fun t ht _ => ht
    · cases hstep
  | claim w now =>
    have hothers : ∀ w', w' ≠ w → s.callsAfter (.claim w now) w' = s.calls w' :=
      fun w' hne => Function.update_of_ne hne _ _
    simp only [poolStep] at hstep
    split at hstep
    · rename_i n left task hw
      obtain ⟨-, hrow⟩ := hinv.selected w n left task hw
      split_ifs at hstep with hpend
      · cases hstep
        refine h.of_moved w (fun w' hne => ⟨Function.update_of_ne hne _ _, hothers w' hne⟩)
          (fun hsees => ?_) (fun t ht hp => ?_)
        · rw [hw] at hsees
          cases hsees
        · by_cases hid : t.id = task.id
          · -- the pending restart is claimed, and its call comes next
            obtain ⟨htype, hnode⟩ := hrow t ht hid
            obtain ⟨htnode, httype, -⟩ := PanelAsyncTask.isPendingOf_iff.1 hp
            refine Or.inr ⟨w, ?_⟩
            simp only [PoolState.setWorker, SyncState.callsAfter, Function.update_self]
            exact ⟨hnode.symm.trans htnode, Or.inl ⟨htype.symm.trans httype, rfl⟩⟩
          · exact Or.inl ⟨t, Rows.mem_updateWhere_of_not ht (by simp [hid]), hp⟩
      · cases hstep
        exact hquiet rfl hothers (by rw [hw]; exact id) fun t ht _ => ht
    · cases hstep
  | finish w errMsg =>
    simp only [poolStep] at hstep
    split at hstep
    · rename_i n left task hw
      split_ifs at hstep
      cases hstep
      refine hquiet rfl (fun _ _ => rfl) (fun hsees => ?_) fun t ht _ => ht
      simp only [SyncState.Admits, hw] at hadmits
      simp only [Plain, hw] at hplain
      rw [hw] at hsees
      obtain ⟨-, ⟨htype, hzero⟩ | ⟨htype, hpos⟩⟩ := hsees
      · have hone := hadmits.2 htype
        omega
      · have hzero := hplain htype
        omega
    · cases hstep
  | deleteRestart w =>
    simp only [poolStep] at hstep
    split at hstep
    · rename_i n left task hw
      split_ifs at hstep with hrestarts
      cases hstep
      have hsees : n = node → ((Function.update s.pool.workers w (.restarting n left task)) w).sees
          (s.calls w) node := by
        rw [Function.update_self]
        exact fun hn => ⟨hn, hrestarts⟩
      refine h.of_moved w (fun w' hne => ⟨Function.update_of_ne hne _ _, rfl⟩)
        (fun hold => ?_) (fun t ht hp => ?_)
      · rw [hw] at hold
        exact Or.inr ⟨w, hsees hold.1⟩
      · by_cases hn : n = node
        · exact Or.inr ⟨w, hsees hn⟩
        · refine Or.inl ⟨t, Rows.mem_deleteWhere.2 ⟨ht, ?_⟩, hp⟩
          rw [← Bool.not_eq_true]
          intro hdel
          exact hn ((PanelAsyncTask.isPendingOf_iff.1 hdel).1.symm.trans
            (PanelAsyncTask.isPendingOf_iff.1 hp).1)
    · cases hstep
  | insertRestart w env errMsg =>
    simp only [poolStep] at hstep
    split at hstep
    · rename_i n left task hw
      rw [if_neg
        (by rw [show env.insertFails = false from hplain]; exact Bool.false_ne_true)] at hstep
      cases hstep
      refine h.of_moved w (fun w' hne => ⟨Function.update_of_ne hne _ _, rfl⟩)
        (fun hold => ?_) (fun t ht hp => Or.inl ⟨t, List.mem_append_left _ ht, hp⟩)
      rw [hw] at hold
      obtain ⟨rfl, -⟩ := hold
      exact Or.inl ⟨_, List.mem_append_right _ (List.mem_singleton_self _),
        PanelAsyncTask.isPendingOf_iff.2 ⟨rfl, rfl, rfl⟩⟩
    · cases hstep
  | complete w now =>
    simp only [poolStep] at hstep
    split at hstep
    · rename_i n left task errMsg hw
      cases hstep
      refine hquiet rfl (fun _ _ => rfl) (by rw [hw]; exact id) fun t ht hp => ?_
      -- the completed task is processing, so that no pending row is updated
      refine Rows.mem_updateWhere_of_not ht (decide_eq_false fun hid => ?_)
      have hproc := hinv.pool.executes w task.id (by rw [PoolState.Executes, hw]; rfl)
      have hpend := (statusOf_eq_some hinv.pool.key).2
        ⟨t, ht, hid, (PanelAsyncTask.isPendingOf_iff.1 hp).2.2⟩
      rw [hproc] at hpend
      cases hpend
    · cases hstep
  | retrySelect | retryUpdate => exact absurd hplain id
  | deletePending n type =>
    cases hstep
    refine hstill rfl rfl fun t ht hp => Rows.mem_deleteWhere.2 ⟨ht, ?_⟩
    rw [← Bool.not_eq_true]
    intro hdel
    exact hplain ((PanelAsyncTask.isPendingOf_iff.1 hdel).2.1.symm.trans
      (PanelAsyncTask.isPendingOf_iff.1 hp).2.1)
  | insertTask env n type payload =>
    cases hstep
    exact hstill rfl rfl fun t ht _ => List.mem_append_left _ ht

/-- **A plain step of the pool** keeps the invariant. -/
theorem SyncInv.poolStep {s : SyncState W} {e : PoolEvent W} {pool : PoolState W} (h : SyncInv s)
    (hplain : Plain s (.pool e)) (hadmits : s.Admits e) (hfresh : ∀ id ∈ e.newId s.pool, id ∉ s.ids)
    (hstep : Paneltasks.poolStep s.pool e = some pool) :
    SyncInv { s with
      pool := pool, calls := s.callsAfter e, ids := (e.newId s.pool).toList ++ s.ids } where
  pool := by
    refine h.pool.step s.pool e pool ?_ hstep
    cases e with
    | retryUpdate => exact absurd hplain id
    | _ => trivial
  known t ht := by
    rcases poolStep_rows hstep ht with ⟨u, hu, hid, -⟩ | hid
    · exact List.mem_append_right _ (hid ▸ h.known u hu)
    · exact List.mem_append_left _ (by simp [hid])
  selected w node left task hw := by
    have hread : task.id ∈ s.ids ∧
        ∀ t ∈ s.pool.tasks, t.id = task.id → t.type = task.type ∧ t.agentNodeId = node := by
      rcases poolStep_selected hstep hw with hold | ⟨hmem, rfl, -⟩
      · exact h.selected w node left task hold
      · refine ⟨h.known task hmem, fun t ht hid => ?_⟩
        obtain rfl := h.pool.key.eq_of_key ht hmem hid
        exact ⟨rfl, rfl⟩
    obtain ⟨hid, hrows⟩ := hread
    refine ⟨List.mem_append_right _ hid, fun t ht htid => ?_⟩
    rcases poolStep_rows hstep ht with ⟨u, hu, huid, hutype, hunode⟩ | hnew
    · obtain ⟨htype, hnode⟩ := hrows u hu (huid.trans htid)
      exact ⟨hutype ▸ htype, hunode ▸ hnode⟩
    · exact absurd (htid ▸ hid) (hfresh t.id hnew)
  seen node hdirty := (h.seen node hdirty).pool h hplain hadmits hstep rfl

/-- **One plain step** keeps the invariant. -/
theorem SyncInv.step (s : SyncState W) (e : SyncEvent W) (s' : SyncState W) (h : SyncInv s)
    (hplain : Plain s e) (hstep : syncStep s e = some s') : SyncInv s' := by
  cases e with
  | pool e =>
    simp only [syncStep] at hstep
    split_ifs at hstep with hadmits
    obtain ⟨pool, hpool, rfl⟩ := Option.map_eq_some_iff.1 hstep
    exact h.poolStep hplain hadmits.1 hadmits.2 hpool
  | writeFile w =>
    simp only [syncStep] at hstep
    split at hstep
    · rename_i n left task hw
      split_ifs at hstep with hfiles
      cases hstep
      refine ⟨h.pool, h.known, h.selected, fun node hdirty => ?_⟩
      dsimp only at hdirty
      have hrestarts : task.type.restarts = true := by
        revert hfiles
        cases task.type <;> simp [TaskType.files, TaskType.restarts]
      have hsees : n = node → (s.pool.workers w).sees (Function.update s.calls w (s.calls w + 1) w)
          node := by
        rw [hw, Function.update_self]
        exact fun hn => ⟨hn, Or.inr ⟨hrestarts, Nat.succ_pos _⟩⟩
      by_cases hn : n = node
      · exact Or.inr ⟨w, hsees hn⟩
      · rw [Function.update_of_ne (Ne.symm hn)] at hdirty
        refine (h.seen node hdirty).of_moved w (fun w' hne => ⟨rfl, Function.update_of_ne hne _ _⟩)
          (fun hold => ?_) (fun t ht hp => Or.inl ⟨t, ht, hp⟩)
        rw [hw] at hold
        exact absurd hold.1 hn
    · cases hstep
  | callRestart w =>
    simp only [syncStep] at hstep
    split at hstep
    · rename_i n left task hw
      split_ifs at hstep with hcall
      cases hstep
      refine ⟨h.pool, h.known, h.selected, fun node hdirty => ?_⟩
      dsimp only at hdirty
      by_cases hn : n = node
      · subst hn
        simp at hdirty
      · rw [Function.update_of_ne (Ne.symm hn)] at hdirty
        refine (h.seen node hdirty).of_moved w (fun w' hne => ⟨rfl, Function.update_of_ne hne _ _⟩)
          (fun hold => ?_) (fun t ht hp => Or.inl ⟨t, ht, hp⟩)
        rw [hw] at hold
        exact absurd hold.1 hn
    · cases hstep

end Pool

/-! ### Runs -/

theorem syncInv_initial {tasks : List PanelAsyncTask} (hkey : Rows.HasKey (·.id) tasks) :
    SyncInv (SyncState.initial tasks : SyncState W) where
  pool := poolInv_initial hkey
  known _ ht := List.mem_map_of_mem ht
  selected _ _ _ _ hw := by cases hw
  seen _ hdirty := by cases hdirty

/-- The steps of the pool in a run. -/
def poolEvents : List (SyncEvent W) → List (PoolEvent W) :=
  List.filterMap fun
    | .pool e => some e
    | _ => none

/-- A call to the agent is no step of the pool. -/
theorem pool_of_call [DecidableEq W] {s t : SyncState W} {e : SyncEvent W}
    (h : syncStep s e = some t) (hcall : ∀ p, e ≠ .pool p) : t.pool = s.pool := by
  cases e with
  | pool p => exact absurd rfl (hcall p)
  | writeFile w | callRestart w =>
    simp only [syncStep] at h
    split at h
    · split_ifs at h
      cases h
      rfl
    · cases h

/-- **Every run is a run of the pool.** -/
theorem run_pool [DecidableEq W] {s s' : SyncState W} {es : List (SyncEvent W)}
    (hrun : Runs.run syncStep s es = some s') :
    Runs.run poolStep s.pool (poolEvents es) = some s'.pool := by
  induction es generalizing s with
  | nil =>
    cases hrun
    rfl
  | cons e es ih =>
    obtain ⟨t, he, hrest⟩ := Runs.run_cons_eq_some.1 hrun
    cases e with
    | pool e =>
      simp only [syncStep] at he
      split_ifs at he
      obtain ⟨pool, hpool, rfl⟩ := Option.map_eq_some_iff.1 he
      exact Runs.run_cons_eq_some.2 ⟨pool, hpool, ih hrest⟩
    | writeFile w | callRestart w =>
      have hrun := ih hrest
      rwa [pool_of_call he (by simp)] at hrun

/-- **A node with freshly written material always has a restart queued.** The node is marked when a
task writes its material, and the mark goes when its service is restarted; between the two there is
a pending restart, or the task that has just written is still about to enqueue one. -/
theorem restart_queued [DecidableEq W] (tasks : List PanelAsyncTask)
    (hkey : Rows.HasKey (·.id) tasks) (es : List (SyncEvent W)) (s : SyncState W)
    (hplain : Runs.Meets syncStep Plain (SyncState.initial tasks) es)
    (hrun : Runs.run syncStep (SyncState.initial tasks) es = some s) (node : String)
    (hdirty : s.dirty node = true) : RestartQueued s node := by
  have hinv : SyncInv s :=
    Runs.run_invariant_of_meets SyncInv.step (syncInv_initial hkey) hplain hrun
  exact hinv.restartQueued (hinv.seen node hdirty)

/-- A pending sync task of the node `n1`. -/
private def syncTask (id : String) (type : TaskType) (createdAt : ℤ) : PanelAsyncTask :=
  ⟨id, type, .pending, "n1", ∅, none, createdAt, 0, none⟩

/-- A worker writes the CA and enqueues the restart. Another one claims it, and before it is called
the DH parameters are written and the pending restarts are deleted. -/
private def writeDuringRestart : List (SyncEvent Bool) :=
  [.pool (.start true "n1" 20), .pool (.select true "t1"), .pool (.claim true 1), .writeFile true,
    .pool (.deleteRestart true), .pool (.insertRestart true longerIds ""), .pool (.complete true 2),
    .pool (.start false "n1" 20), .pool (.select false "kkkkk"), .pool (.claim false 3),
    .pool (.select true "t2"), .pool (.claim true 4), .writeFile true, .pool (.deleteRestart true)]

theorem restart_queued_writeDuringRestart :
    ∃ s, Runs.run syncStep (SyncState.initial
        [syncTask "t1" .openvpnCASync 0, syncTask "t2" .openvpnDhSync 1])
        writeDuringRestart = some s ∧
      s.dirty "n1" = true ∧ RestartQueued s "n1" := by
  have hrun : ((Runs.run syncStep (SyncState.initial
      [syncTask "t1" .openvpnCASync 0, syncTask "t2" .openvpnDhSync 1])
      writeDuringRestart).any fun s =>
        s.dirty "n1") = true := by decide +kernel
  obtain ⟨s, hs, hdirty⟩ := (Option.any_eq_true _ _).1 hrun
  exact ⟨s, hs, hdirty, restart_queued _ (by decide) writeDuringRestart s
    (by decide +kernel) hs "n1" hdirty⟩

end OpenvpnControl.Paneltasks
