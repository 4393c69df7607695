import OpenvpnControl.Panel.MaterialTasks

/-!
# What a save leaves when a step of it fails

A save of the settings replaces the material tasks one after the other, each by a delete and an
insert, and stores the settings last. None of this is one transaction. So a step that fails leaves
the tasks that were replaced before it. This file says exactly when that can not be seen.

## Main definitions

* `pendingTasks`: the waiting tasks of a node, their ids apart.
* `AtomicSave`: a save that fails changes nothing, and one that succeeds loses no waiting task.
* `queuedSettings`: the settings whose tasks a save enqueues, if it comes to that.
* `Unmoved`, `SnapshotKept`: the two conditions on the queue before the save.

## Main results

* `atomicSave_iff`: a save is atomic exactly when one of the conditions holds.
* `refused_save_enqueues`: a save that is answered with an error leaves a new task.
-/

namespace OpenvpnControl.Panel

open Openvpn (Settings)
open Paneltasks (PanelAsyncTask EnqueueEnv TaskType upsertAll upsertPendingTask materialSyncTasks
  enqueueOpenvpnMaterialSyncTasks)

/-- The types and the payloads of the tasks of a node that wait. -/
def pendingTasks (node : String) (tasks : List PanelAsyncTask) : List (TaskType × GoMap String) :=
  (tasks.filter (·.isPendingOn node)).map fun t => (t.type, t.payload)

/-- A waiting task of the node was taken away, and none of its type is there in its place. -/
def HalfReplaced (node : String) (before after : List PanelAsyncTask) : Prop :=
  ∃ t ∈ before, t.isPendingOn node = true ∧ ∀ u ∈ after, u.isPendingOf node t.type = false

/-- **An atomic save**: when it is not answered with success, the settings and the waiting tasks of
the node are what they were, and when it is, no task was half replaced. -/
def AtomicSave (db : Db) (nodeID : String) (out : PostOutcome) : Prop :=
  (out.result.status ≠ 200 → out.db.settings = db.settings ∧
    ∀ task, task ∈ pendingTasks nodeID out.db.tasks ↔ task ∈ pendingTasks nodeID db.tasks) ∧
  (out.result.status = 200 → ¬HalfReplaced nodeID db.tasks out.db.tasks)

/-- The settings whose tasks a save enqueues: none when the node is not found, the body has no
settings, or the agent refuses them. -/
def queuedSettings (env : SettingsEnv) (db : Db) (nodeID : String)
    (reqBody : List (String × Json)) :
    Option Settings :=
  if env.nodeError = none ∧ (db.node nodeID).isSome then
    match Json.field reqBody "settings" with
    | .obj fields =>
      match postPayload (env.prev db nodeID) (GoMap.ofList fields), env.agentWrite with
      | some _, .error _ => none
      | _, _ => some (postedSettings (env.prev db nodeID) (GoMap.ofList fields))
    | _ => none
  else none

/-- Is every task of the list inserted, one after the other? -/
def allInserted (env : TaskType → EnqueueEnv) (node : String)
    (wanted : List (TaskType × GoMap String)) : Bool :=
  node = "" ∨ wanted.all fun task => !(env task.1).insertFails

/-- The enqueue leaves the waiting tasks of the type as they are: those that it takes away carry
what the new one carries, and the new one carries what one of them does. -/
def Unmoved (env : TaskType → EnqueueEnv) (wanted : List (TaskType × GoMap String)) (node : String)
    (tasks : List PanelAsyncTask) (task : TaskType × GoMap String) : Prop :=
  (∀ q ∈ pendingPayloads node task.1 tasks,
    q ∈ keptPayloads env wanted node task.1 tasks ∨
    inserts env wanted node task.1 = true ∧ q = task.2) ∧
  (inserts env wanted node task.1 = true → task.2 ∈ pendingPayloads node task.1 tasks)

/-- The snapshot task that is enqueued last is replaced, or its delete is not executed either, or
none waits. -/
def SnapshotKept (e : EnqueueEnv) (node : String) (tasks : List PanelAsyncTask) : Prop :=
  node = "" ∨ e.insertFails = false ∨ e.deleteFails = true ∨
    pendingPayloads node .panelAgentSnapshot tasks = []

/-- The condition on a save: where every step but the snapshot is executed, the snapshot task is
kept, and where one fails, the enqueue moves no task. -/
def SavesWhole (env : SettingsEnv) (db : Db) (nodeID : String) (reqBody : List (String × Json)) :
    Prop :=
  ∀ merged, queuedSettings env db nodeID reqBody = some merged →
    if allInserted env.taskEnv nodeID (materialSyncTasks merged) = true ∧ env.writeError = none then
      SnapshotKept (env.taskEnv .panelAgentSnapshot) nodeID db.tasks
    else ∀ task ∈ materialSyncTasks merged,
      Unmoved env.taskEnv (materialSyncTasks merged) nodeID db.tasks task

variable {env : SettingsEnv} {db : Db} {nodeID node : String} {reqBody : List (String × Json)}
  {tasks tasks' : List PanelAsyncTask}

/-! ### Waiting tasks -/

theorem mem_pendingTasks {task : TaskType × GoMap String} :
    task ∈ pendingTasks node tasks ↔ task.2 ∈ pendingPayloads node task.1 tasks := by
  rw [mem_pendingPayloads, pendingTasks, List.mem_map]
  constructor
  · rintro ⟨t, ht, rfl⟩
    obtain ⟨ht, hp⟩ := List.mem_filter.1 ht
    obtain ⟨hnode, hstatus⟩ := PanelAsyncTask.isPendingOn_iff.1 hp
    exact ⟨t, ht, PanelAsyncTask.isPendingOf_iff.2 ⟨hnode, rfl, hstatus⟩, rfl⟩
  · rintro ⟨t, ht, hp, hpayload⟩
    obtain ⟨hnode, htype, hstatus⟩ := PanelAsyncTask.isPendingOf_iff.1 hp
    exact ⟨t, List.mem_filter.2 ⟨ht, PanelAsyncTask.isPendingOn_iff.2 ⟨hnode, hstatus⟩⟩,
      Prod.ext htype hpayload⟩

/-- The waiting tasks are the same when they are type by type. -/
theorem pendingTasks_same_iff :
    (∀ task, task ∈ pendingTasks node tasks' ↔ task ∈ pendingTasks node tasks) ↔
      ∀ type payload, payload ∈ pendingPayloads node type tasks' ↔
        payload ∈ pendingPayloads node type tasks := by
  simp only [mem_pendingTasks, Prod.forall]

theorem pendingPayloads_eq_nil_iff {type : TaskType} :
    pendingPayloads node type tasks = [] ↔ ∀ t ∈ tasks, t.isPendingOf node type = false := by
  rw [pendingPayloads, List.map_eq_nil_iff, List.filter_eq_nil_iff]
  simp only [Bool.not_eq_true]

/-- A type is half replaced when tasks of it waited and none does. -/
theorem halfReplaced_iff : HalfReplaced node tasks tasks' ↔ ∃ type,
    pendingPayloads node type tasks ≠ [] ∧ pendingPayloads node type tasks' = [] := by
  simp only [HalfReplaced, ne_eq, pendingPayloads_eq_nil_iff, not_forall]
  constructor
  · rintro ⟨t, ht, hp, hnone⟩
    obtain ⟨hnode, hstatus⟩ := PanelAsyncTask.isPendingOn_iff.1 hp
    have hof := PanelAsyncTask.isPendingOf_iff.2 ⟨hnode, rfl, hstatus⟩
    exact ⟨t.type, ⟨t, ht, by rw [hof]; exact Bool.true_eq_false_eq_False⟩, hnone⟩
  · rintro ⟨type, ⟨t, ht, hp⟩, hnone⟩
    obtain ⟨hnode, rfl, hstatus⟩ := PanelAsyncTask.isPendingOf_iff.1 (Bool.of_not_eq_false hp)
    exact ⟨t, ht, PanelAsyncTask.isPendingOn_iff.2 ⟨hnode, hstatus⟩, hnone⟩

/-! ### What the enqueue answers and leaves -/

theorem upsertAll_succeeds {e : TaskType → EnqueueEnv} (hnode : node ≠ "")
    (wanted : List (TaskType × GoMap String)) :
    (upsertAll e node tasks wanted).2 = wanted.all fun task => !(e task.1).insertFails := by
  induction wanted generalizing tasks with
  | nil => rfl
  | cons task wanted ih =>
    obtain ⟨type, payload⟩ := task
    have hok := @upsert_succeeds node tasks (e type) hnode type payload
    rw [upsertAll, List.all_cons]
    rcases hout : upsertPendingTask (e type) tasks node type payload with ⟨tasks', ok⟩
    rw [hout] at hok
    dsimp only at hok
    subst hok
    cases (e type).insertFails with
    | false => exact ih
    | true => rfl

/-- The enqueue succeeds when every task is inserted. -/
theorem enqueue_succeeds (e : TaskType → EnqueueEnv) (node : String) (tasks : List PanelAsyncTask)
    (settings : Settings) :
    (enqueueOpenvpnMaterialSyncTasks e tasks node settings).2 =
      allInserted e node (materialSyncTasks settings) := by
  rw [enqueueOpenvpnMaterialSyncTasks, allInserted]
  by_cases hnode : node = ""
  · simp [hnode]
  · rw [if_neg hnode, upsertAll_succeeds hnode]
    simp [hnode]

theorem keptPayloads_subset {e : TaskType → EnqueueEnv} {wanted : List (TaskType × GoMap String)}
    {type : TaskType} {q : GoMap String} (h : q ∈ keptPayloads e wanted node type tasks) :
    q ∈ pendingPayloads node type tasks := by
  rw [keptPayloads] at h
  split_ifs at h
  · exact absurd h List.not_mem_nil
  · exact h

/-- **The enqueue leaves the waiting tasks as they are exactly when it moves none.** -/
theorem enqueue_same_iff (e : TaskType → EnqueueEnv) (node : String) (tasks : List PanelAsyncTask)
    (settings : Settings) :
    (∀ task, task ∈ pendingTasks node (enqueueOpenvpnMaterialSyncTasks e tasks node settings).1 ↔
        task ∈ pendingTasks node tasks) ↔
      ∀ task ∈ materialSyncTasks settings,
      Unmoved e (materialSyncTasks settings) node tasks task := by
  rw [pendingTasks_same_iff]
  have hnodup := Paneltasks.nodup_materialSyncTasks settings
  simp only [pendingPayloads_enqueue]
  generalize materialSyncTasks settings = wanted at hnodup ⊢
  constructor
  · rintro h ⟨type, payload⟩ htask
    have htype := h type
    rw [(GoMap.lookup_eq_some_iff_mem hnodup).2 htask] at htype
    refine ⟨fun q hq => ?_, fun hins => ?_⟩
    · rcases List.mem_append.1 ((htype q).2 hq) with hkept | hnew
      · exact Or.inl hkept
      · split_ifs at hnew with hins
        · exact Or.inr ⟨hins, List.mem_singleton.1 hnew⟩
        · exact absurd hnew List.not_mem_nil
    · exact (htype payload).1
        (List.mem_append_right _ (by simp only [hins, if_true, List.mem_singleton]))
  · intro h type q
    cases hl : wanted.lookup type with
    | none => exact Iff.rfl
    | some payload =>
      obtain ⟨hold, hnew⟩ := h _ ((GoMap.lookup_eq_some_iff_mem hnodup).1 hl)
      constructor
      · intro hq
        rcases List.mem_append.1 hq with hkept | hq
        · exact keptPayloads_subset hkept
        · split_ifs at hq with hins
          · rw [List.mem_singleton.1 hq]
            exact hnew hins
          · exact absurd hq List.not_mem_nil
      · intro hq
        rcases hold q hq with hkept | ⟨hins, rfl⟩
        · exact List.mem_append_left _ hkept
        · refine List.mem_append_right _ ?_
          rw [if_pos hins]
          exact List.mem_singleton_self _

/-- An enqueue that succeeds keeps a waiting task of every type that had one. -/
theorem pendingPayloads_enqueue_ne_nil {e : TaskType → EnqueueEnv} {settings : Settings}
    (hall : allInserted e node (materialSyncTasks settings) = true) {type : TaskType}
    (h : pendingPayloads node type tasks ≠ []) :
    pendingPayloads node type (enqueueOpenvpnMaterialSyncTasks e tasks node settings).1 ≠ [] := by
  rw [pendingPayloads_enqueue]
  have hnodup := Paneltasks.nodup_materialSyncTasks settings
  generalize materialSyncTasks settings = wanted at hnodup hall ⊢
  cases hl : wanted.lookup type with
  | none => exact h
  | some payload =>
    by_cases hnode : node = ""
    · simp [keptPayloads, hnode, hnode ▸ h]
    · have hins : ∀ task ∈ wanted, (e task.1).insertFails = false := by
        simpa [allInserted, hnode] using hall
      have hreach : reaches e wanted type = true := by
        rw [reaches, List.all_eq_true]
        intro task htask
        rw [hins task ((List.takeWhile_sublist _).subset htask)]
        rfl
      have hinserts : inserts e wanted node type = true := by
        simp [inserts, hnode, hreach, hins _ ((GoMap.lookup_eq_some_iff_mem hnodup).1 hl)]
      simp [hinserts]

/-! ### The save -/

/-- **A save comes to its queue or changes nothing.** -/
theorem post_cases (env : SettingsEnv) (db : Db) (nodeID : String)
    (reqBody : List (String × Json)) :
    let out := postOpenvpnSettingsForPanel env db nodeID reqBody
    match queuedSettings env db nodeID reqBody with
    | none => out.result.status ≠ 200 ∧ out.db = db
    | some merged => out.db = (storePosted env db nodeID merged).1 ∧
        out.result = (storePosted env db nodeID merged).2 := by
  simp only [postOpenvpnSettingsForPanel, queuedSettings]
  cases hnode : env.nodeError with
  | some text => simp [Result.error]
  | none =>
    cases han : db.node nodeID with
    | none => simp [Result.nodeNotFound, Result.error]
    | some an =>
      simp only [Option.isSome_some, and_self, if_true, Db.node_id han]
      rw [← SettingsEnv.prev]
      cases hbody : Json.field reqBody "settings" with
      | obj fields =>
        dsimp only
        cases hpay : postPayload (env.prev db nodeID) (GoMap.ofList fields) with
        | none => exact ⟨rfl, rfl⟩
        | some payload =>
          cases hwrite : env.agentWrite with
          | error e => exact ⟨mapAgentError_status_ne e, rfl⟩
          | ok data => exact ⟨rfl, rfl⟩
      | _ => simp [Result.error]

/-- What the end of a save leaves. -/
theorem storePosted_eq (env : SettingsEnv) (db : Db) (nodeID : String) (merged : Settings) :
    let queue := (enqueueOpenvpnMaterialSyncTasks env.taskEnv db.tasks nodeID merged).1
    let out := storePosted env db nodeID merged
    if allInserted env.taskEnv nodeID (materialSyncTasks merged) = true ∧ env.writeError = none then
      out.2.status = 200 ∧ out.1.tasks =
        (Paneltasks.enqueueSnapshotForNode (env.taskEnv .panelAgentSnapshot) queue nodeID).1
    else out.2.status ≠ 200 ∧ out.1.settings = db.settings ∧ out.1.tasks = queue := by
  have hall := enqueue_succeeds env.taskEnv nodeID db.tasks merged
  simp only [storePosted]
  rcases henq : enqueueOpenvpnMaterialSyncTasks env.taskEnv db.tasks nodeID merged with ⟨queue, ok⟩
  rw [henq] at hall
  dsimp only at hall
  rw [← hall]
  cases ok with
  | false => simp [Result.error]
  | true =>
    cases hwrite : env.writeError with
    | some text => simp [Result.error]
    | none => simp [Db.enqueueSnapshot, Db.upsertSettings]

/-- The snapshot task that is enqueued last. -/
theorem snapshot_halfReplaces_iff {e : EnqueueEnv} {queue : List PanelAsyncTask}
    (hkeeps : ∀ type, pendingPayloads node type tasks ≠ [] → pendingPayloads node type queue ≠ [])
    (hsame : pendingPayloads node .panelAgentSnapshot queue =
      pendingPayloads node .panelAgentSnapshot tasks) :
    ¬HalfReplaced node tasks (Paneltasks.enqueueSnapshotForNode e queue node).1 ↔
      SnapshotKept e node tasks := by
  rw [halfReplaced_iff, SnapshotKept]
  by_cases hnode : node = ""
  · subst hnode
    simp only [true_or, iff_true]
    rintro ⟨type, hne, hnil⟩
    exact hkeeps type hne hnil
  · have hupsert := fun type => @pendingPayloads_upsert node queue e hnode .panelAgentSnapshot type
      (.ofList [("source", "node")])
    simp only [Paneltasks.enqueueSnapshotForNode, hupsert, hnode, false_or]
    constructor
    · intro h
      by_contra hnot
      simp only [not_or, Bool.not_eq_false, Bool.not_eq_true] at hnot
      obtain ⟨hins, hdel, hne⟩ := hnot
      exact h ⟨.panelAgentSnapshot, hne, by simp [hins, hdel]⟩
    · rintro h ⟨type, hne, hnil⟩
      by_cases htype : TaskType.panelAgentSnapshot = type
      · subst htype
        rw [if_pos rfl] at hnil
        obtain ⟨hkept, hnew⟩ := List.append_eq_nil_iff.1 hnil
        rcases h with hins | hdel | hnone
        · simp [hins] at hnew
        · rw [if_pos hdel, hsame] at hkept
          exact hne hkept
        · exact hne hnone
      · rw [if_neg htype] at hnil
        exact hkeeps type hne hnil

/-- **A save is atomic exactly when** it does not come to its queue; or all of its steps but the
snapshot are executed, and the snapshot task is kept; or one of them fails, and the enqueue has
moved no task. -/
theorem atomicSave_iff (env : SettingsEnv) (db : Db) (nodeID : String)
    (reqBody : List (String × Json)) :
    AtomicSave db nodeID (postOpenvpnSettingsForPanel env db nodeID reqBody) ↔
      SavesWhole env db nodeID reqBody := by
  have hcases := post_cases env db nodeID reqBody
  rw [AtomicSave, SavesWhole]
  cases hqueued : queuedSettings env db nodeID reqBody with
  | none =>
    rw [hqueued] at hcases
    obtain ⟨hstatus, hdb⟩ := hcases
    rw [hdb]
    simp [hstatus]
  | some merged =>
    rw [hqueued] at hcases
    obtain ⟨hdb, hresult⟩ := hcases
    have hstore := storePosted_eq env db nodeID merged
    rw [hdb, hresult]
    simp only [Option.some.injEq, forall_eq']
    dsimp only at hstore
    split_ifs at hstore ⊢ with hall
    · -- every step but the snapshot is executed
      obtain ⟨hstatus, htasks⟩ := hstore
      rw [hstatus, htasks]
      simp only [ne_eq, not_true_eq_false, false_imp_iff, true_and, true_imp_iff]
      refine snapshot_halfReplaces_iff (fun type => pendingPayloads_enqueue_ne_nil hall.1) ?_
      rw [pendingPayloads_enqueue]
      cases hl : (materialSyncTasks merged).lookup TaskType.panelAgentSnapshot with
      | none => rfl
      | some payload =>
        have hmem := (GoMap.lookup_eq_some_iff_mem (Paneltasks.nodup_materialSyncTasks merged)).1 hl
        have hnot : TaskType.panelAgentSnapshot ∉ materialTypes := by decide
        exact absurd (mem_materialTypes hmem) hnot
    · -- a step fails after the first tasks were replaced
      obtain ⟨hstatus, hsettings, htasks⟩ := hstore
      rw [hsettings, htasks]
      simp only [hstatus, ne_eq, not_false_eq_true, true_imp_iff, true_and, false_imp_iff, and_true]
      exact enqueue_same_iff env.taskEnv nodeID db.tasks merged

/-- A database that executes every statement but the one that stores the settings. -/
private def readOnlySettings : SettingsEnv :=
  { SettingsEnv.quiet with writeError := some "connection reset" }

/-- The node `n1` without settings. -/
private def bareNode : Db := { Db.empty with nodes := [⟨"n1", "vpn"⟩] }

/-- A body that links DH parameters. -/
private def linksDh : List (String × Json) :=
  [("settings", .obj [("panelDhMaterialId", .str "m1"), ("dh", .str "/etc/openvpn/dh.pem")])]

/-- **A save that is answered with an error leaves a new task**, for a link that was not stored. -/
theorem refused_save_enqueues :
    ¬∀ (env : SettingsEnv) (db : Db) (nodeID : String) (reqBody : List (String × Json)),
      AtomicSave db nodeID (postOpenvpnSettingsForPanel env db nodeID reqBody) := by
  intro h
  obtain ⟨hfailed, -⟩ := h readOnlySettings bareNode "n1" linksDh
  have hstatus :
      (postOpenvpnSettingsForPanel readOnlySettings bareNode "n1" linksDh).result.status ≠ 200 := by
    decide +kernel
  obtain ⟨-, hsame⟩ := hfailed hstatus
  have hmem := (hsame (.openvpnDhSync,
    .ofList [("materialId", "m1"), ("remotePath", "/etc/openvpn/dh.pem")])).1 (by decide +kernel)
  exact absurd hmem List.not_mem_nil

end OpenvpnControl.Panel
