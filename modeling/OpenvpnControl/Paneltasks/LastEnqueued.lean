import Mathlib.Logic.Function.Basic
import OpenvpnControl.Library.Runs
import OpenvpnControl.Paneltasks.Queue

/-!
# The configuration that was enqueued last

A task carries the payload of the moment it was enqueued, and the waiting tasks of a node are
executed from the oldest on. One worker runs `ProcessPendingForNode` here, beside any enqueues and
retries. The file says when the payload executed last, for a node and a type, is the one enqueued
last.

## Main definitions

* `ConfigState`, `ConfigEvent`, `configStep`: the queue, one worker, and the enqueues and retries.
* `LastWins`: once nothing waits, the payload executed last is the one enqueued last.
* `KeepsLatest`: the condition on a step.

## Main results

* `LatestInv.step`: every step that meets the condition keeps the invariant.
* `last_wins`: the last enqueued configuration wins in a run whose steps meet it.
* `last_loses`: a retried task, a refused insert and two tasks of the same age.
-/

namespace OpenvpnControl.Paneltasks

/-- The queue, the task that the worker executes, and the `Retry` requests that have read a status.
`enqueued` and `executed` record, for a node and a type, the payload inserted last and the payload
that `executeTask` was called with last. -/
structure ConfigState where
  tasks : List PanelAsyncTask
  holds : Option PanelAsyncTask
  retries : List String
  enqueued : String × TaskType → Option (GoMap String)
  executed : String × TaskType → Option (GoMap String)

/-- An enqueue, one of the two statements of a `Retry`, or a step of the worker. -/
inductive ConfigEvent where
  /-- `upsertPendingTask`. -/
  | enqueue (env : EnqueueEnv) (node : String) (type : TaskType) (payload : GoMap String)
  /-- One turn of the loop of `EnqueueCrlDeployForRootCa`. -/
  | enqueueCrl (env : EnqueueEnv) (node rootCaID crlPath : String)
  | retrySelect (id : String)
  | retryUpdate (id : String) (now : ℤ)
  /-- `claimPendingTask` returns the row `id`, and `executeTask` is called with it. -/
  | claim (now : ℤ) (node id : String)
  /-- `completeTask`. -/
  | complete (now : ℤ) (errMsg : String)
  /-- `completeTask`, whose `UPDATE` fails. -/
  | completeFails

namespace ConfigState

/-- Nothing was enqueued. -/
def initial : ConfigState := ⟨[], none, [], fun _ => none, fun _ => none⟩

/-- Does the worker execute the task with the id? -/
def Holds (s : ConfigState) (id : String) : Prop := s.holds.map (·.id) = some id

instance (s : ConfigState) (id : String) : Decidable (s.Holds id) :=
  inferInstanceAs (Decidable (_ = _))

/-- The two statements of an enqueue. `ksuid.New` does not give the id of the task under
execution. -/
def store (s : ConfigState) (env : EnqueueEnv) (stale : PanelAsyncTask → Bool) (node : String)
    (type : TaskType) (payload : GoMap String) : Option ConfigState :=
  let tasks := if env.deleteFails then s.tasks else Rows.deleteWhere stale s.tasks
  if s.Holds (env.ksuid (tasks.map (·.id))) then none
  else
    let out := replacePending env stale s.tasks node type payload
    some { s with
      tasks := out.1
      enqueued := if out.2 then Function.update s.enqueued (node, type) (some payload)
        else s.enqueued }

end ConfigState

/-- The state after a step, and `none` when the step cannot happen. -/
def configStep (s : ConfigState) : ConfigEvent → Option ConfigState
  | .enqueue env node type payload =>
    if node = "" then some s else s.store env (·.isPendingOf node type) node type payload
  | .enqueueCrl env node rootCaID crlPath =>
    s.store env (isPendingCrlOf node rootCaID) node .crlDeploy
      (.ofList [("rootCaId", rootCaID), ("remotePath", crlPath)])
  | .retrySelect id =>
    match statusOf s.tasks id with
    | none | some .processing => some s
    | some _ => some { s with retries := id :: s.retries }
  | .retryUpdate id now =>
    if id ∈ s.retries then
      some { s with tasks := resetToPending now id s.tasks, retries := s.retries.erase id }
    else none
  | .claim now node id =>
    match s.holds, claimPendingTask now s.tasks node id with
    | none, some (tasks, task) =>
      some { s with
        tasks := tasks
        holds := some task
        executed := Function.update s.executed (node, task.type) (some task.payload) }
    | _, _ => none
  | .complete now errMsg =>
    s.holds.map fun task =>
      { s with tasks := completeTask now s.tasks task.id errMsg, holds := none }
  | .completeFails => s.holds.map fun _ => { s with holds := none }

/-- An enqueue leaves what `upsertPendingTask` leaves. -/
theorem configStep_enqueue_tasks {s s' : ConfigState} {env : EnqueueEnv} {node : String}
    {type : TaskType} {payload : GoMap String}
    (h : configStep s (.enqueue env node type payload) = some s') :
    s'.tasks = (upsertPendingTask env s.tasks node type payload).1 := by
  rw [upsertPendingTask]
  simp only [configStep, ConfigState.store] at h
  split_ifs at h ⊢ <;> cases h <;> rfl

/-- A turn of the loop leaves what `replaceCrl` leaves. -/
theorem configStep_enqueueCrl_tasks {s s' : ConfigState} {env : EnqueueEnv}
    {node rootCaID crlPath : String}
    (h : configStep s (.enqueueCrl env node rootCaID crlPath) = some s') :
    s'.tasks = replaceCrl (fun _ => env) rootCaID s.tasks (node, crlPath) := by
  simp only [configStep, ConfigState.store] at h
  split_ifs at h <;> cases h <;> rfl

/-- **The last enqueued configuration wins**: when no task of the node and the type is pending or
processing, the payload executed last is the payload enqueued last. -/
def LastWins (node : String) (type : TaskType) (s : ConfigState) : Prop :=
  (∀ t ∈ s.tasks, t.agentNodeId = node → t.type = type →
      t.status ≠ .pending ∧ t.status ≠ .processing) →
    s.executed (node, type) = s.enqueued (node, type)

/-! ### The condition -/

section Condition

variable (node : String) (type : TaskType)

/-- The payload was executed last, and every waiting task of the node and the type carries it. -/
def Settled (payload : GoMap String) (s : ConfigState) : Prop :=
  s.executed (node, type) = some payload ∧
    ∀ t ∈ s.tasks, t.isPendingOf node type = true → t.payload = payload

/-- An enqueue for the node and the type keeps the order: what stays waiting is older than the new
task, or carries its payload; and where the `INSERT` is refused, nothing was deleted, or the payload
enqueued last is settled. -/
def KeepsOrder (s : ConfigState) (env : EnqueueEnv) (stale : PanelAsyncTask → Bool)
    (payload : GoMap String) : Prop :=
  (env.insertFails = false → ∀ t ∈ s.tasks, t.isPendingOf node type = true →
      (env.deleteFails = false ∧ stale t = true) ∨ t.payload = payload ∨ t.createdAt < env.now) ∧
    (env.insertFails = true → env.deleteFails = true ∨ (∀ t ∈ s.tasks, stale t = false) ∨
      ∀ last ∈ s.enqueued (node, type), Settled node type last s)

/-- A task of the payload waits that is not under execution and newer than the time. -/
def NewerWaits (payload : GoMap String) (createdAt : ℤ) (s : ConfigState) : Prop :=
  ∃ t ∈ s.tasks, t.isPendingOf node type = true ∧ t.payload = payload ∧ ¬s.Holds t.id ∧
    createdAt < t.createdAt

/-- The condition on a step: an enqueue keeps the order, and a `Retry` updates a task that carries
the payload enqueued last, or that is older than a waiting task that carries it. -/
def KeepsLatest (s : ConfigState) : ConfigEvent → Prop
  | .enqueue env n τ payload =>
    n = node → τ = type → KeepsOrder node type s env (·.isPendingOf n τ) payload
  | .enqueueCrl env n rootCaID crlPath =>
    n = node → TaskType.crlDeploy = type → KeepsOrder node type s env (isPendingCrlOf n rootCaID)
      (.ofList [("rootCaId", rootCaID), ("remotePath", crlPath)])
  | .retryUpdate id _ =>
    ∀ t ∈ s.tasks, t.id = id → t.agentNodeId = node → t.type = type →
      ∀ last ∈ s.enqueued (node, type),
        t.payload = last ∨ NewerWaits node type last t.createdAt s
  | _ => True

instance (s : ConfigState) : Decidable (LastWins node type s) := by
  unfold LastWins
  infer_instance

instance (payload : GoMap String) (s : ConfigState) : Decidable (Settled node type payload s) := by
  unfold Settled
  infer_instance

instance (payload : GoMap String) (createdAt : ℤ) (s : ConfigState) :
    Decidable (NewerWaits node type payload createdAt s) := by
  unfold NewerWaits
  infer_instance

instance (s : ConfigState) (env : EnqueueEnv) (stale : PanelAsyncTask → Bool)
    (payload : GoMap String) : Decidable (KeepsOrder node type s env stale payload) := by
  unfold KeepsOrder
  infer_instance

instance (s : ConfigState) (e : ConfigEvent) : Decidable (KeepsLatest node type s e) := by
  unfold KeepsLatest
  cases e <;> dsimp only <;> infer_instance

end Condition

/-! ### The invariant -/

section Invariant

variable {node : String} {type : TaskType}

/-- A task of the payload waits, is not under execution, and is newer than every waiting task of the
node and the type that carries another payload. -/
def Waits (node : String) (type : TaskType) (payload : GoMap String) (s : ConfigState) : Prop :=
  ∃ t ∈ s.tasks, t.isPendingOf node type = true ∧ t.payload = payload ∧ ¬s.Holds t.id ∧
    ∀ u ∈ s.tasks, u.isPendingOf node type = true → u.payload = payload ∨ u.createdAt < t.createdAt

/-- Nothing was enqueued and executed for the node and the type, or the payload enqueued last waits
or is settled. -/
structure LatestInv (node : String) (type : TaskType) (s : ConfigState) : Prop where
  key : Rows.HasKey (·.id) s.tasks
  unused : s.enqueued (node, type) = none →
    s.executed (node, type) = none ∧ ∀ t ∈ s.tasks, t.agentNodeId = node → t.type ≠ type
  latest : ∀ last ∈ s.enqueued (node, type), Waits node type last s ∨ Settled node type last s

/-- **The invariant gives the law.** -/
theorem LatestInv.lastWins {s : ConfigState} (h : LatestInv node type s) :
    LastWins node type s := by
  intro hidle
  cases hlast : s.enqueued (node, type) with
  | none => exact (h.unused hlast).1
  | some last =>
    rcases h.latest last hlast with ⟨t, ht, hp, -⟩ | hsettled
    · obtain ⟨hnode, htype, hpend⟩ := PanelAsyncTask.isPendingOf_iff.1 hp
      exact absurd hpend (hidle t ht hnode htype).1
    · exact hsettled.1

theorem latestInv_initial : LatestInv node type ConfigState.initial where
  key := List.nodup_nil
  unused _ := ⟨rfl, fun _ ht => absurd ht List.not_mem_nil⟩
  latest _ hlast := by cases hlast

/-- A step that leaves the tasks of the node and the type alone. -/
theorem LatestInv.frame {s s' : ConfigState} (h : LatestInv node type s)
    (hkey : Rows.HasKey (·.id) s'.tasks) (henq : s'.enqueued (node, type) = s.enqueued (node, type))
    (hexec : s'.executed (node, type) = s.executed (node, type))
    (hholds : ∀ t ∈ s.tasks, t.isPendingOf node type = true → s'.Holds t.id → s.Holds t.id)
    (htasks : ∀ t, t.agentNodeId = node → t.type = type → (t ∈ s'.tasks ↔ t ∈ s.tasks)) :
    LatestInv node type s' := by
  have hmem : ∀ {t}, t.isPendingOf node type = true → (t ∈ s'.tasks ↔ t ∈ s.tasks) := by
    intro t hp
    obtain ⟨hnode, htype, -⟩ := PanelAsyncTask.isPendingOf_iff.1 hp
    exact htasks t hnode htype
  refine ⟨hkey, fun hnone => ?_, fun last hlast => ?_⟩
  · rw [henq] at hnone
    obtain ⟨hran, hrows⟩ := h.unused hnone
    exact ⟨hexec.trans hran, fun t ht hnode htype =>
      hrows t ((htasks t hnode htype).1 ht) hnode htype⟩
  · rw [henq] at hlast
    rcases h.latest last hlast with ⟨t, ht, hp, hpay, hfree, hnewest⟩ | ⟨hran, hall⟩
    · exact Or.inl ⟨t, (hmem hp).2 ht, hp, hpay, fun hh => hfree (hholds t ht hp hh),
        fun u hu hup => hnewest u ((hmem hup).1 hu) hup⟩
    · exact Or.inr ⟨hexec.trans hran, fun t ht hp => hall t ((hmem hp).1 ht) hp⟩

/-! ### Enqueues -/

theorem replacePending_eq (env : EnqueueEnv) (stale : PanelAsyncTask → Bool)
    (tasks : List PanelAsyncTask) (n : String) (τ : TaskType) (payload : GoMap String) :
    let kept := if env.deleteFails then tasks else Rows.deleteWhere stale tasks
    replacePending env stale tasks n τ payload =
      (kept ++ if env.insertFails then [] else [env.newTask kept n τ payload],
        !env.insertFails) := by
  rw [replacePending]
  cases env.insertFails <;> simp

theorem mem_kept {env : EnqueueEnv} {stale : PanelAsyncTask → Bool} {tasks : List PanelAsyncTask}
    {t : PanelAsyncTask} : t ∈ (if env.deleteFails then tasks else Rows.deleteWhere stale tasks) ↔
      t ∈ tasks ∧ (env.deleteFails = true ∨ stale t = false) := by
  cases env.deleteFails <;> simp

theorem ConfigState.store_eq_some {s s' : ConfigState} {env : EnqueueEnv}
    {stale : PanelAsyncTask → Bool} {n : String} {τ : TaskType} {payload : GoMap String}
    (h : s.store env stale n τ payload = some s') :
    let kept := if env.deleteFails then s.tasks else Rows.deleteWhere stale s.tasks
    ¬s.Holds (env.ksuid (kept.map (·.id))) ∧
    s' = { s with
      tasks := kept ++ if env.insertFails then [] else [env.newTask kept n τ payload]
      enqueued := if env.insertFails then s.enqueued
        else Function.update s.enqueued (n, τ) (some payload) } := by
  simp only [store] at h
  generalize hkept : (if env.deleteFails then s.tasks
    else Rows.deleteWhere stale s.tasks) = kept at h ⊢
  by_cases hholds : s.Holds (env.ksuid (kept.map (·.id)))
  · rw [if_pos hholds] at h
    cases h
  · rw [if_neg hholds, replacePending_eq, hkept] at h
    refine ⟨hholds, ?_⟩
    cases h
    cases env.insertFails <;> rfl

theorem hasKey_store {s s' : ConfigState} {env : EnqueueEnv} {stale : PanelAsyncTask → Bool}
    {n : String} {τ : TaskType} {payload : GoMap String} (hkey : Rows.HasKey (·.id) s.tasks)
    (h : s.store env stale n τ payload = some s') : Rows.HasKey (·.id) s'.tasks := by
  obtain ⟨-, rfl⟩ := ConfigState.store_eq_some h
  have hkept : Rows.HasKey (·.id)
      (if env.deleteFails then s.tasks else Rows.deleteWhere stale s.tasks) := by
    split_ifs
    · exact hkey
    · exact hkey.deleteWhere
  dsimp only
  split_ifs at hkept ⊢
  all_goals first
    | exact hkept.append_singleton (env.ksuid_fresh _)
    | simpa using hkept

/-- **An enqueue for the node and the type** that keeps the order. -/
theorem LatestInv.store {s s' : ConfigState} {env : EnqueueEnv} {stale : PanelAsyncTask → Bool}
    {payload : GoMap String} (h : LatestInv node type s)
    (hok : KeepsOrder node type s env stale payload)
    (hstep : s.store env stale node type payload = some s') : LatestInv node type s' := by
  have hkey := hasKey_store h.key hstep
  obtain ⟨hholds, rfl⟩ := ConfigState.store_eq_some hstep
  generalize hkept : (if env.deleteFails then s.tasks else Rows.deleteWhere stale s.tasks) = kept
    at hkey hholds ⊢
  have hmem : ∀ {t}, t ∈ kept → t ∈ s.tasks ∧ (env.deleteFails = true ∨ stale t = false) := by
    intro t ht
    rw [← hkept] at ht
    exact mem_kept.1 ht
  cases hins : env.insertFails with
  | false =>
    simp only [hins, Bool.false_eq_true, if_false] at hkey ⊢
    refine ⟨hkey, fun hnone => ?_, fun last hlast => Or.inl ?_⟩
    · simp at hnone
    · obtain rfl : payload = last := by simpa using hlast
      refine ⟨_, List.mem_append_right _ (List.mem_singleton_self _),
        PanelAsyncTask.isPendingOf_iff.2 ⟨rfl, rfl, rfl⟩, rfl, hholds, fun u hu hup => ?_⟩
      rcases List.mem_append.1 hu with hu | hu
      · obtain ⟨hold, hstays⟩ := hmem hu
        rcases hok.1 hins u hold hup with ⟨hdel, hstale⟩ | hpay | hage
        · rcases hstays with hfails | hnot
          · rw [hdel] at hfails
            cases hfails
          · rw [hstale] at hnot
            cases hnot
        · exact Or.inl hpay
        · exact Or.inr hage
      · rw [List.mem_singleton.1 hu]
        exact Or.inl rfl
  | true =>
    simp only [hins, if_true, List.append_nil] at hkey ⊢
    rcases hok.2 hins with hdel | hnone | hsettled
    · -- nothing was deleted
      obtain rfl : s.tasks = kept := by rw [← hkept, if_pos hdel]
      exact h.frame hkey rfl rfl (fun _ _ _ hh => hh) fun _ _ _ => Iff.rfl
    · have hsame : ∀ t, t ∈ kept ↔ t ∈ s.tasks := by
        intro t
        rw [← hkept, mem_kept]
        exact ⟨And.left, fun ht => ⟨ht, Or.inr (hnone t ht)⟩⟩
      exact h.frame hkey rfl rfl (fun _ _ _ hh => hh) fun t _ _ => hsame t
    · refine ⟨hkey, fun hunused => ?_, fun last hlast => Or.inr ?_⟩
      · obtain ⟨hran, hrows⟩ := h.unused hunused
        exact ⟨hran, fun t ht => hrows t (hmem ht).1⟩
      · obtain ⟨hran, hall⟩ := hsettled last hlast
        exact ⟨hran, fun t ht hp => hall t (hmem ht).1 hp⟩

/-- An enqueue for another node or type. -/
theorem LatestInv.storeOther {s s' : ConfigState} {env : EnqueueEnv} {stale : PanelAsyncTask → Bool}
    {n : String} {τ : TaskType} {payload : GoMap String} (h : LatestInv node type s)
    (hne : ¬(n = node ∧ τ = type)) (hstale : ∀ t, stale t = true → t.isPendingOf n τ = true)
    (hstep : s.store env stale n τ payload = some s') : LatestInv node type s' := by
  have hkey := hasKey_store h.key hstep
  obtain ⟨-, rfl⟩ := ConfigState.store_eq_some hstep
  refine h.frame hkey ?_ rfl (fun _ _ _ hh => hh) fun t hnode htype => ?_
  · dsimp only
    split_ifs
    · rfl
    · refine Function.update_of_ne (fun heq => hne ?_) _ _
      obtain ⟨rfl, rfl⟩ := Prod.mk.inj heq
      exact ⟨rfl, rfl⟩
  · have hstays : stale t = false := by
      rw [← Bool.not_eq_true]
      intro ht
      obtain ⟨hn, hτ, -⟩ := PanelAsyncTask.isPendingOf_iff.1 (hstale t ht)
      exact hne ⟨hn.symm.trans hnode, hτ.symm.trans htype⟩
    rw [List.mem_append, mem_kept]
    constructor
    · rintro (⟨ht, -⟩ | hnew)
      · exact ht
      · by_cases hins : env.insertFails = true
        · rw [if_pos hins] at hnew
          cases hnew
        · rw [if_neg hins] at hnew
          obtain rfl := List.mem_singleton.1 hnew
          exact absurd ⟨hnode, htype⟩ hne
    · exact fun ht => Or.inl ⟨ht, Or.inr hstays⟩

/-! ### Retries -/

/-- What a `Retry` leaves: the row is pending again, with its node, type, payload and age. -/
def retried (now : ℤ) (t : PanelAsyncTask) : PanelAsyncTask :=
  { t with status := .pending, lastError := none, completedAt := none, updatedAt := now }

theorem mem_resetToPending {now : ℤ} {id : String} {tasks : List PanelAsyncTask}
    {t : PanelAsyncTask} :
    t ∈ resetToPending now id tasks ↔
      (t ∈ tasks ∧ t.id ≠ id) ∨ ∃ u ∈ tasks, u.id = id ∧ retried now u = t := by
  simp [resetToPending, Rows.mem_updateWhere, retried]

/-- Every row stays, with its payload and age, and a waiting row still waits. -/
theorem stays_resetToPending {now : ℤ} {id : String} {tasks : List PanelAsyncTask}
    {t : PanelAsyncTask}
    (ht : t ∈ tasks) : ∃ t' ∈ resetToPending now id tasks, t'.id = t.id ∧ t'.payload = t.payload ∧
      t'.createdAt = t.createdAt ∧
      (t.isPendingOf node type = true → t'.isPendingOf node type = true) := by
  by_cases hid : t.id = id
  · refine ⟨retried now t, mem_resetToPending.2 (Or.inr ⟨t, ht, hid, rfl⟩),
      rfl, rfl, rfl, fun hp => ?_⟩
    obtain ⟨hnode, htype, -⟩ := PanelAsyncTask.isPendingOf_iff.1 hp
    exact PanelAsyncTask.isPendingOf_iff.2 ⟨hnode, htype, rfl⟩
  · exact ⟨t, mem_resetToPending.2 (Or.inl ⟨ht, hid⟩), rfl, rfl, rfl, fun hp => hp⟩

/-- A waiting row waited before, or is the one that is retried. -/
theorem pending_resetToPending {now : ℤ} {id : String} {tasks : List PanelAsyncTask}
    {t : PanelAsyncTask} (ht : t ∈ resetToPending now id tasks)
    (hp : t.isPendingOf node type = true) :
    ∃ u ∈ tasks, u.payload = t.payload ∧ u.createdAt = t.createdAt ∧
      (u.isPendingOf node type = true ∨ u.id = id ∧ u.agentNodeId = node ∧ u.type = type) := by
  rcases mem_resetToPending.1 ht with ⟨ht, -⟩ | ⟨u, hu, hid, rfl⟩
  · exact ⟨t, ht, rfl, rfl, Or.inl hp⟩
  · obtain ⟨hnode, htype, -⟩ := PanelAsyncTask.isPendingOf_iff.1 hp
    exact ⟨u, hu, rfl, rfl, Or.inr ⟨hid, hnode, htype⟩⟩

/-- Where a task of the payload waits that is newer than a time, one waits that is newer than that
time and than every waiting task of another payload. -/
theorem exists_newest {s : ConfigState} {payload : GoMap String} {createdAt : ℤ}
    (h : Waits node type payload s ∨ Settled node type payload s)
    (hnewer : NewerWaits node type payload createdAt s) :
    ∃ t ∈ s.tasks, t.isPendingOf node type = true ∧ t.payload = payload ∧ ¬s.Holds t.id ∧
      createdAt < t.createdAt ∧
      ∀ u ∈ s.tasks, u.isPendingOf node type = true → u.payload = payload ∨
      u.createdAt < t.createdAt := by
  obtain ⟨t, ht, hp, hpay, hfree, hage⟩ := hnewer
  rcases h with ⟨t₀, ht₀, hp₀, hpay₀, hfree₀, hnewest⟩ | ⟨-, hall⟩
  · rcases le_total t₀.createdAt t.createdAt with hle | hle
    · exact ⟨t, ht, hp, hpay, hfree, hage, fun u hu hup =>
        (hnewest u hu hup).imp_right fun hlt => lt_of_lt_of_le hlt hle⟩
    · exact ⟨t₀, ht₀, hp₀, hpay₀, hfree₀, lt_of_lt_of_le hage hle, hnewest⟩
  · exact ⟨t, ht, hp, hpay, hfree, hage, fun u hu hup => Or.inl (hall u hu hup)⟩

/-- **A `Retry`** that meets the condition. -/
theorem LatestInv.retryUpdate {s : ConfigState} {id : String} (h : LatestInv node type s) (now : ℤ)
    (hok : KeepsLatest node type s (.retryUpdate id now)) :
    LatestInv node type { s with
      tasks := resetToPending now id s.tasks, retries := s.retries.erase id } := by
  refine ⟨h.key.updateWhere fun _ _ _ => rfl, fun hnone => ?_, fun last hlast => ?_⟩
  · obtain ⟨hran, hrows⟩ := h.unused hnone
    refine ⟨hran, fun t ht hnode htype => ?_⟩
    rcases mem_resetToPending.1 ht with ⟨ht, -⟩ | ⟨u, hu, -, rfl⟩
    · exact hrows t ht hnode htype
    · exact hrows u hu hnode htype
  · have hwaits := h.latest last hlast
    by_cases hother : ∃ t ∈ s.tasks, t.id = id ∧ t.agentNodeId = node ∧
      t.type = type ∧ t.payload ≠ last
    · -- a task of another payload waits again, and is older than one of the latest
      obtain ⟨t, ht, hid, hnode, htype, hne⟩ := hother
      have hnewer := (hok t ht hid hnode htype last hlast).resolve_left hne
      obtain ⟨v, hv, hvp, hvpay, hvfree, hvage, hnewest⟩ := exists_newest hwaits hnewer
      obtain ⟨v', hv', hvid, hvpay', hvage', hvp'⟩ :=
        @stays_resetToPending node type now id s.tasks v hv
      refine Or.inl ⟨v', hv', hvp' hvp, hvpay'.trans hvpay, hvid ▸ hvfree, fun u hu hup => ?_⟩
      obtain ⟨w, hw, hwpay, hwage, hwp | ⟨hwid, -⟩⟩ := pending_resetToPending hu hup
      · rw [← hwpay, ← hwage, hvage']
        exact hnewest w hw hwp
      · obtain rfl := h.key.eq_of_key hw ht (hwid.trans hid.symm)
        rw [← hwage, hvage']
        exact Or.inr hvage
    · -- every task that waits again carries the latest payload
      have hagain : ∀ w ∈ s.tasks, w.id = id → w.agentNodeId = node → w.type = type →
          w.payload = last := by
        intro w hw hid hnode htype
        by_contra hne
        exact hother ⟨w, hw, hid, hnode, htype, hne⟩
      rcases hwaits with ⟨v, hv, hvp, hvpay, hvfree, hnewest⟩ | ⟨hran, hall⟩
      · obtain ⟨v', hv', hvid, hvpay', hvage', hvp'⟩ :=
          @stays_resetToPending node type now id s.tasks v hv
        refine Or.inl ⟨v', hv', hvp' hvp, hvpay'.trans hvpay, hvid ▸ hvfree, fun u hu hup => ?_⟩
        obtain ⟨w, hw, hwpay, hwage, hwp | ⟨hwid, hnode, htype⟩⟩ := pending_resetToPending hu hup
        · rw [← hwpay, ← hwage, hvage']
          exact hnewest w hw hwp
        · exact Or.inl (hwpay ▸ hagain w hw hwid hnode htype)
      · refine Or.inr ⟨hran, fun u hu hup => ?_⟩
        obtain ⟨w, hw, hwpay, -, hwp | ⟨hwid, hnode, htype⟩⟩ := pending_resetToPending hu hup
        · exact hwpay ▸ hall w hw hwp
        · exact hwpay ▸ hagain w hw hwid hnode htype

/-! ### The worker -/

theorem claimPendingTask_eq_some {now : ℤ} {tasks tasks' : List PanelAsyncTask} {n id : String}
    {t : PanelAsyncTask} (h : claimPendingTask now tasks n id = some (tasks', t)) :
    t ∈ tasks ∧ t.id = id ∧ isOldestPending tasks n t ∧ tasks' = markProcessing now id tasks := by
  simp only [claimPendingTask] at h
  split at h
  · rename_i u hu
    split_ifs at h with hold
    cases h
    obtain ⟨hmem, hid⟩ := Rows.mem_of_byKey_eq_some hu
    exact ⟨hmem, hid, hold, rfl⟩
  · cases h

/-- A row that still waits after a claim is another one, and waited before. -/
theorem pending_markProcessing {now : ℤ} {id : String} {tasks : List PanelAsyncTask}
    {t : PanelAsyncTask} (hp : t.isPendingOf node type = true) :
    t ∈ markProcessing now id tasks ↔ t ∈ tasks ∧ t.id ≠ id := by
  obtain ⟨-, -, hpend⟩ := PanelAsyncTask.isPendingOf_iff.1 hp
  rw [markProcessing, Rows.mem_updateWhere]
  constructor
  · rintro (⟨ht, hnot⟩ | ⟨u, -, -, rfl⟩)
    · exact ⟨ht, fun hid => by simp [hid, hpend] at hnot⟩
    · cases hpend
  · rintro ⟨ht, hid⟩
    exact Or.inl ⟨ht, by simp [hid]⟩

theorem pending_completeTask {now : ℤ} {id errMsg : String} {tasks : List PanelAsyncTask}
    {t : PanelAsyncTask} (hp : t.isPendingOf node type = true) :
    t ∈ completeTask now tasks id errMsg ↔ t ∈ tasks ∧ t.id ≠ id := by
  obtain ⟨-, -, hpend⟩ := PanelAsyncTask.isPendingOf_iff.1 hp
  rw [completeTask, Rows.mem_updateWhere]
  constructor
  · rintro (⟨ht, hnot⟩ | ⟨u, -, -, rfl⟩)
    · exact ⟨ht, by simpa using hnot⟩
    · dsimp only at hpend
      split_ifs at hpend
  · rintro ⟨ht, hid⟩
    exact Or.inl ⟨ht, by simpa using hid⟩

/-- An update of the worker keeps ids, nodes and types. -/
theorem type_of_mem_updateWhere {p : PanelAsyncTask → Bool} {f : PanelAsyncTask → PanelAsyncTask}
    {tasks : List PanelAsyncTask}
    (hf : ∀ t, (f t).agentNodeId = t.agentNodeId ∧ (f t).type = t.type)
    (hrows : ∀ t ∈ tasks, t.agentNodeId = node → t.type ≠ type) :
    ∀ t ∈ Rows.updateWhere p f tasks, t.agentNodeId = node → t.type ≠ type := by
  intro t ht hnode
  rcases Rows.mem_updateWhere.1 ht with ⟨ht, -⟩ | ⟨u, hu, -, rfl⟩
  · exact hrows t ht hnode
  · rw [(hf u).2]
    exact hrows u hu ((hf u).1.symm.trans hnode)

/-- **A claim.** The oldest waiting task of the node is executed: if it is one of the type that
carries another payload, the newer one of the latest payload still waits. -/
theorem LatestInv.claim {s : ConfigState} {n id : String} {t : PanelAsyncTask}
    (h : LatestInv node type s) (now : ℤ) (ht : t ∈ s.tasks) (hid : t.id = id)
    (hold : isOldestPending s.tasks n t) :
    LatestInv node type { s with
      tasks := markProcessing now id s.tasks
      holds := some t
      executed := Function.update s.executed (n, t.type) (some t.payload) } := by
  obtain ⟨htp, holdest⟩ := hold
  obtain ⟨htnode, htpend⟩ := PanelAsyncTask.isPendingOn_iff.1 htp
  have hkey : Rows.HasKey (·.id) (markProcessing now id s.tasks) :=
    h.key.updateWhere fun _ _ _ => rfl
  have hholds : ∀ {j : String}, ({ s with holds := some t } : ConfigState).Holds j → j = t.id :=
    fun hj => (Option.some.inj hj).symm
  by_cases hown : n = node ∧ t.type = type
  · obtain ⟨rfl, rfl⟩ := hown
    have hp : t.isPendingOf n t.type = true :=
      PanelAsyncTask.isPendingOf_iff.2 ⟨htnode, rfl, htpend⟩
    have hexec : Function.update s.executed (n, t.type) (some t.payload) (n, t.type) =
        some t.payload := Function.update_self ..
    refine ⟨hkey, fun hnone => absurd rfl ((h.unused hnone).2 t ht htnode), fun last hlast => ?_⟩
    rcases h.latest last hlast with ⟨v, hv, hvp, hvpay, hvfree, hnewest⟩ | ⟨-, hall⟩
    · by_cases hvt : v.id = t.id
      · -- the newest task is the oldest one: the others carry the same payload
        obtain rfl := h.key.eq_of_key hv ht hvt
        refine Or.inr ⟨hexec.trans (congrArg some hvpay), fun u hu hup => ?_⟩
        obtain ⟨huold, -⟩ := (pending_markProcessing hup).1 hu
        refine (hnewest u huold hup).resolve_right (not_lt.2 (holdest u huold ?_))
        obtain ⟨hunode, -, hupend⟩ := PanelAsyncTask.isPendingOf_iff.1 hup
        exact PanelAsyncTask.isPendingOn_iff.2 ⟨hunode, hupend⟩
      · refine Or.inl ⟨v, (pending_markProcessing hvp).2 ⟨hv, hid ▸ hvt⟩, hvp, hvpay,
          fun hh => hvt (hholds hh), fun u hu hup => ?_⟩
        exact hnewest u ((pending_markProcessing hup).1 hu).1 hup
    · refine Or.inr ⟨hexec.trans (congrArg some (hall t ht hp)), fun u hu hup => ?_⟩
      exact hall u ((pending_markProcessing hup).1 hu).1 hup
  · have hne : ∀ {u : PanelAsyncTask}, u ∈ s.tasks → u.isPendingOf node type =
        true → u.id ≠ t.id := by
      intro u hu hup heq
      obtain rfl := h.key.eq_of_key hu ht heq
      obtain ⟨hunode, hutype, -⟩ := PanelAsyncTask.isPendingOf_iff.1 hup
      exact hown ⟨htnode.symm.trans hunode, hutype⟩
    have hexec : Function.update s.executed (n, t.type) (some t.payload) (node, type) =
        s.executed (node, type) := by
      refine Function.update_of_ne (fun heq => hown ?_) _ _
      obtain ⟨rfl, rfl⟩ := Prod.mk.inj heq
      exact ⟨rfl, rfl⟩
    refine ⟨hkey, fun hnone => ?_, fun last hlast => ?_⟩
    · obtain ⟨hran, hrows⟩ := h.unused hnone
      exact ⟨hexec.trans hran, type_of_mem_updateWhere (fun _ => ⟨rfl, rfl⟩) hrows⟩
    · rcases h.latest last hlast with ⟨v, hv, hvp, hvpay, hvfree, hnewest⟩ | ⟨hran, hall⟩
      · refine Or.inl ⟨v, (pending_markProcessing hvp).2 ⟨hv, hid ▸ hne hv hvp⟩, hvp, hvpay,
          fun hh => hne hv hvp (hholds hh), fun u hu hup => ?_⟩
        exact hnewest u ((pending_markProcessing hup).1 hu).1 hup
      · exact Or.inr ⟨hexec.trans hran, fun u hu hup =>
          hall u ((pending_markProcessing hup).1 hu).1 hup⟩

/-- **A completion.** The task under execution is not the one that is relied on. -/
theorem LatestInv.complete {s : ConfigState} {t : PanelAsyncTask} (h : LatestInv node type s)
    (now : ℤ) (errMsg : String) (hholds : s.holds = some t) :
    LatestInv node type { s with
    tasks := completeTask now s.tasks t.id errMsg, holds := none } := by
  refine ⟨h.key.updateWhere fun _ _ _ => rfl, fun hnone => ?_, fun last hlast => ?_⟩
  · obtain ⟨hran, hrows⟩ := h.unused hnone
    exact ⟨hran, type_of_mem_updateWhere (fun _ => ⟨rfl, rfl⟩) hrows⟩
  · rcases h.latest last hlast with ⟨v, hv, hvp, hvpay, hvfree, hnewest⟩ | ⟨hran, hall⟩
    · have hvt : v.id ≠ t.id := by
        intro heq
        refine hvfree ?_
        rw [ConfigState.Holds, hholds, heq]
        rfl
      refine Or.inl ⟨v, (pending_completeTask hvp).2 ⟨hv, hvt⟩, hvp, hvpay, fun hh => (by cases hh),
        fun u hu hup => ?_⟩
      exact hnewest u ((pending_completeTask hup).1 hu).1 hup
    · exact Or.inr ⟨hran, fun u hu hup => hall u ((pending_completeTask hup).1 hu).1 hup⟩

/-- **One step** that meets the condition keeps the invariant. -/
theorem LatestInv.step (s : ConfigState) (e : ConfigEvent) (s' : ConfigState)
    (h : LatestInv node type s) (hok : KeepsLatest node type s e)
    (hstep : configStep s e = some s') :
    LatestInv node type s' := by
  cases e with
  | enqueue env n τ payload =>
    simp only [configStep] at hstep
    by_cases hn : n = ""
    · rw [if_pos hn] at hstep
      cases hstep
      exact h
    · rw [if_neg hn] at hstep
      by_cases hown : n = node ∧ τ = type
      · obtain ⟨rfl, rfl⟩ := hown
        exact h.store (hok rfl rfl) hstep
      · exact h.storeOther hown (fun _ ht => ht) hstep
  | enqueueCrl env n rootCaID crlPath =>
    simp only [configStep] at hstep
    by_cases hown : n = node ∧ TaskType.crlDeploy = type
    · obtain ⟨rfl, rfl⟩ := hown
      exact h.store (hok rfl rfl) hstep
    · refine h.storeOther hown (fun t ht => ?_) hstep
      simp only [isPendingCrlOf, decide_eq_true_eq] at ht
      exact ht.1
  | retrySelect id =>
    simp only [configStep] at hstep
    split at hstep <;> cases hstep <;>
      exact h.frame h.key rfl rfl (fun _ _ _ hh => hh) fun _ _ _ => Iff.rfl
  | retryUpdate id now =>
    simp only [configStep] at hstep
    by_cases hid : id ∈ s.retries
    · rw [if_pos hid] at hstep
      cases hstep
      exact h.retryUpdate now hok
    · rw [if_neg hid] at hstep
      cases hstep
  | claim now n id =>
    simp only [configStep] at hstep
    split at hstep
    · rename_i tasks t _ hclaim
      cases hstep
      obtain ⟨ht, hid, hold, rfl⟩ := claimPendingTask_eq_some hclaim
      exact h.claim now ht hid hold
    · cases hstep
  | complete now errMsg =>
    simp only [configStep, Option.map_eq_some_iff] at hstep
    obtain ⟨t, hholds, rfl⟩ := hstep
    exact h.complete now errMsg hholds
  | completeFails =>
    simp only [configStep, Option.map_eq_some_iff] at hstep
    obtain ⟨t, hholds, rfl⟩ := hstep
    exact h.frame h.key rfl rfl (fun _ _ _ hh => by cases hh) fun _ _ _ => Iff.rfl

/-! ### Runs -/

/-- **The last enqueued configuration wins** in every run whose steps meet the condition. A `Retry`
puts an older task back into the queue, so it may only be one with the payload enqueued last, or one
that is older than a waiting task with that payload. -/
theorem last_wins (node : String) (type : TaskType) (es : List ConfigEvent) (s : ConfigState)
    (hok : Runs.Meets configStep (KeepsLatest node type) ConfigState.initial es)
    (hrun : Runs.run configStep ConfigState.initial es = some s) : LastWins node type s :=
  (Runs.run_invariant_of_meets LatestInv.step latestInv_initial hok hrun).lastWins

end Invariant

/-- Fresh ids, a given time, and statements that are executed. -/
private def envAt (now : ℤ) : EnqueueEnv := { longerIds with now := now }

/-- A save of a dnsmasq configuration on the node `n1`. -/
private def saveConfig (now : ℤ) (config : String) : ConfigEvent :=
  .enqueue (envAt now) "n1" .dnsmasqApply (.ofList [("config", config)])

/-- The first configuration fails; it is retried while the second one waits. -/
private def retriedBefore : List ConfigEvent :=
  [saveConfig 1 "v1", .claim 2 "n1" "k", .complete 3 "timeout", saveConfig 4 "v2", .retrySelect "k",
    .retryUpdate "k" 5, .claim 6 "n1" "k", .complete 7 "", .claim 8 "n1" "kk", .complete 9 ""]

theorem last_wins_retriedBefore :
    ∃ s, Runs.run configStep ConfigState.initial retriedBefore = some s ∧
      s.executed ("n1", .dnsmasqApply) = some (.ofList [("config", "v2")]) ∧
      LastWins "n1" .dnsmasqApply s := by
  have hrun : ((Runs.run configStep ConfigState.initial retriedBefore).any fun s =>
      decide (s.executed ("n1", .dnsmasqApply) = some (.ofList [("config", "v2")]))) = true := by
    decide +kernel
  obtain ⟨s, hs, hexec⟩ := (Option.any_eq_true _ _).1 hrun
  exact ⟨s, hs, of_decide_eq_true hexec,
    last_wins "n1" .dnsmasqApply retriedBefore s (by decide +kernel) hs⟩

/-- Is the step no execution that fails? -/
def ConfigEvent.Succeeds : ConfigEvent → Prop
  | .complete _ errMsg => errMsg = ""
  | .completeFails => False
  | _ => True

instance : (e : ConfigEvent) → Decidable e.Succeeds
  | .complete _ errMsg => inferInstanceAs (Decidable (errMsg = ""))
  | .completeFails => isFalse id
  | .enqueue _ _ _ _ | .enqueueCrl _ _ _ _ | .retrySelect _ | .retryUpdate _ _ | .claim _ _ _ =>
    isTrue trivial

/-- The first configuration is retried after the second one was executed. -/
private def retriedAfter : List ConfigEvent :=
  [saveConfig 1 "v1", .claim 2 "n1" "k", .complete 3 "", saveConfig 4 "v2", .claim 5 "n1" "kk",
    .complete 6 "", .retrySelect "k", .retryUpdate "k" 7, .claim 8 "n1" "k", .complete 9 ""]

/-- The CRLs of two roots are enqueued at the same time, and the second one is claimed first. -/
private def sameAge : List ConfigEvent :=
  [.enqueueCrl (envAt 1) "n1" "r1" "/etc/openvpn/crl.pem",
    .enqueueCrl (envAt 1) "n1" "r2" "/etc/openvpn/crl.pem", .claim 2 "n1" "kk", .complete 3 "",
    .claim 4 "n1" "k", .complete 5 ""]

/-- The second save deletes the first one, and its `INSERT` is refused. -/
private def refusedInsert : List ConfigEvent :=
  [saveConfig 1 "v1", .enqueue { envAt 2 with insertFails := true } "n1" .dnsmasqApply
    (.ofList [("config", "v2")])]

/-- A run without a failing execution, after which the last configuration of the type has lost. -/
def Loses (type : TaskType) (es : List ConfigEvent) : Prop :=
  (∀ e ∈ es, e.Succeeds) ∧
    ∃ s, Runs.run configStep ConfigState.initial es = some s ∧ ¬LastWins "n1" type s

private theorem loses_of_run {type : TaskType} {es : List ConfigEvent}
    (hsucceeds : ∀ e ∈ es, e.Succeeds)
    (hrun : ((Runs.run configStep ConfigState.initial es).any fun s =>
      decide (¬LastWins "n1" type s)) = true) : Loses type es := by
  obtain ⟨s, hs, hnot⟩ := (Option.any_eq_true _ _).1 hrun
  exact ⟨hsucceeds, s, hs, of_decide_eq_true hnot⟩

/-- **An older configuration wins** after a late `Retry`, a claim among tasks of the same age, or a
refused `INSERT`, although every execution succeeds. -/
theorem last_loses :
    Loses .dnsmasqApply retriedAfter ∧ Loses .crlDeploy sameAge ∧
    Loses .dnsmasqApply refusedInsert :=
  ⟨loses_of_run (by decide) (by decide +kernel), loses_of_run (by decide) (by decide +kernel),
    loses_of_run (by decide) (by decide +kernel)⟩

end OpenvpnControl.Paneltasks
