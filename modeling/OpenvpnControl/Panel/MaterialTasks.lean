import OpenvpnControl.Panel.Servercert
import OpenvpnControl.Paneltasks.Pending

/-!
# Material tasks and the links they were enqueued for

A save of the settings, and the two functions that take a link away, enqueue the material tasks of
the links that are set. A task that waits for a link that is not set any more is not taken away.
This file says exactly when the waiting tasks of a node are those of its stored links.

## Main definitions

* `pendingPayloads`: what the waiting tasks of a node and a type carry.
* `TasksMatch`: they are those of the settings.
* `LinkOp`: a call that changes links.
* `CleanType`, `CleanQueue`: the condition on the queue before the call.

## Main results

* `pendingPayloads_enqueue`: what the enqueue leaves waiting.
* `tasksMatch_iff`: after a call that succeeds the waiting tasks are those of the stored links
  exactly when the queue was clean.
* `unlinked_task_waits`: a cleared link leaves its task.
-/

namespace OpenvpnControl.Panel

open Openvpn (Settings)
open Paneltasks (PanelAsyncTask EnqueueEnv TaskType upsertAll upsertPendingTask materialSyncTasks)

/-- The types of the material tasks. -/
def materialTypes : List TaskType :=
  [.openvpnCASync, .crlDeploy, .openvpnServerCertSync, .openvpnDhSync, .openvpnTlsAuthSync]

/-- What the waiting tasks of the node and the type carry. -/
def pendingPayloads (node : String) (type : TaskType) (tasks : List PanelAsyncTask) :
    List (GoMap String) :=
  (tasks.filter (·.isPendingOf node type)).map (·.payload)

/-- The waiting material tasks of the node are those of the settings: each carries the ids and the
paths that are linked, and each link has one. -/
def TasksMatch (node : String) (settings : Settings) (tasks : List PanelAsyncTask) : Prop :=
  (∀ t ∈ tasks, t.agentNodeId = node → t.status = .pending → t.type ∈ materialTypes →
    (t.type, t.payload) ∈ materialSyncTasks settings) ∧
  ∀ task ∈ materialSyncTasks settings, ∃ t ∈ tasks, t.isPendingOf node task.1 = true ∧
    t.payload = task.2

/-- Does the enqueue come to the task of the type: is no `INSERT` before it refused? -/
def reaches (env : TaskType → EnqueueEnv) (wanted : List (TaskType × GoMap String))
    (type : TaskType) : Bool :=
  (wanted.takeWhile fun task => task.1 ≠ type).all fun task => !(env task.1).insertFails

/-- The tasks of the type that wait already and stay, as the `DELETE` before a new one is not
executed. -/
def keptPayloads (env : TaskType → EnqueueEnv) (wanted : List (TaskType × GoMap String))
    (node : String) (type : TaskType) (tasks : List PanelAsyncTask) : List (GoMap String) :=
  if node ≠ "" ∧ reaches env wanted type ∧ (env type).deleteFails = false then []
  else pendingPayloads node type tasks

/-- Is the new task of the type inserted? -/
def inserts (env : TaskType → EnqueueEnv) (wanted : List (TaskType × GoMap String)) (node : String)
    (type : TaskType) : Bool :=
  node ≠ "" ∧ reaches env wanted type ∧ (env type).insertFails = false

/-- The condition on the tasks of one type that wait before a call. If its link is not set, none
waits; where the database refuses a statement for one that is set, the tasks that stay carry its
values, and one does unless a new one is inserted. -/
def CleanType (env : TaskType → EnqueueEnv) (wanted : List (TaskType × GoMap String))
    (node : String) (tasks : List PanelAsyncTask) (type : TaskType) : Prop :=
  match wanted.lookup type with
  | none => pendingPayloads node type tasks = []
  | some payload =>
    (∀ q ∈ keptPayloads env wanted node type tasks, q = payload) ∧
      (inserts env wanted node type = true ∨ payload ∈ keptPayloads env wanted node type tasks)

/-- The condition on the queue before a call. -/
def CleanQueue (env : TaskType → EnqueueEnv) (node : String) (settings : Settings)
    (tasks : List PanelAsyncTask) : Prop :=
  ∀ type ∈ materialTypes, CleanType env (materialSyncTasks settings) node tasks type

instance (env : TaskType → EnqueueEnv) (wanted : List (TaskType × GoMap String)) (node : String)
    (tasks : List PanelAsyncTask) (type : TaskType) :
    Decidable (CleanType env wanted node tasks type) := by
  unfold CleanType
  cases wanted.lookup type <;> (dsimp only; infer_instance)

instance (env : TaskType → EnqueueEnv) (node : String) (settings : Settings)
    (tasks : List PanelAsyncTask) : Decidable (CleanQueue env node settings tasks) := by
  unfold CleanQueue
  infer_instance

instance (node : String) (settings : Settings) (tasks : List PanelAsyncTask) :
    Decidable (TasksMatch node settings tasks) := by
  unfold TasksMatch
  infer_instance

/-- A call that changes the links of a node. -/
inductive LinkOp where
  | post (nodeID : String) (reqBody : List (String × Json))
  | removeRootCa (nodeID : String) (reqBody : List (String × Json))
  | deleteServer (agentNodeID : String)

/-- Are the posted values strings? -/
def LinkOp.PostsStrings : LinkOp → Prop
  | .post _ reqBody => ∀ f ∈ (Json.field reqBody "settings").asFields, f.2 = .str f.2.asString
  | .removeRootCa _ _ | .deleteServer _ => True

/-- The node of a call. -/
def LinkOp.node : LinkOp → String
  | .post nodeID _ => nodeID
  | .removeRootCa nodeID _ => GoStrings.trimSpace nodeID
  | .deleteServer agentNodeID => GoStrings.trimSpace agentNodeID

/-- The settings that a call stores. -/
def LinkOp.settings (env : SettingsEnv) (db : Db) : LinkOp → Settings
  | .post nodeID reqBody =>
    postedSettings (env.prev db nodeID) (GoMap.ofList (Json.field reqBody "settings").asFields)
  | .removeRootCa nodeID _ => detachedSettings (db.settingsOf (GoStrings.trimSpace nodeID))
  | .deleteServer agentNodeID =>
    GoMap.overlay (db.settingsOf (GoStrings.trimSpace agentNodeID)) unlinkPatch

/-- What a call leaves when it succeeds. -/
def LinkOp.run (env : SettingsEnv) (db : Db) : LinkOp → Option Db
  | .post nodeID reqBody =>
    let out := postOpenvpnSettingsForPanel env db nodeID reqBody
    if out.result.status = 200 then some out.db else none
  | .removeRootCa nodeID reqBody =>
    let out := removeRootCaForPanel env db nodeID reqBody
    if out.2.status = 200 then some out.1 else none
  | .deleteServer agentNodeID =>
    match deleteServerCertificateForAgentNode db env agentNodeID with
    | .ok (db', true) => some db'
    | _ => none

variable {env : TaskType → EnqueueEnv} {node : String} {tasks : List PanelAsyncTask}

/-! ### What the enqueue leaves waiting -/

theorem mem_pendingPayloads {type : TaskType} {payload : GoMap String} :
    payload ∈ pendingPayloads node type tasks ↔
      ∃ t ∈ tasks, t.isPendingOf node type = true ∧ t.payload = payload := by
  simp only [pendingPayloads, List.mem_map, List.mem_filter, and_assoc]

theorem pendingPayloads_append (type : TaskType) (t : PanelAsyncTask) :
    pendingPayloads node type (tasks ++ [t]) =
      pendingPayloads node type tasks ++ if t.isPendingOf node type then [t.payload] else [] := by
  rw [pendingPayloads, List.filter_append, List.map_append, ← pendingPayloads]
  cases ht : t.isPendingOf node type <;> simp [ht]

/-- A delete of the waiting tasks of another type leaves those of the type. -/
theorem pendingPayloads_deleteOther {type type' : TaskType} (h : type' ≠ type) :
    pendingPayloads node type (Rows.deleteWhere (·.isPendingOf node type') tasks) =
      pendingPayloads node type tasks := by
  rw [pendingPayloads, Rows.deleteWhere, List.filter_filter, pendingPayloads]
  congr 1
  refine List.filter_congr fun t _ => ?_
  cases ht : t.isPendingOf node type with
  | false => simp
  | true =>
    have hne : t.isPendingOf node type' = false := by
      rw [← Bool.not_eq_true]
      intro ht'
      exact h ((PanelAsyncTask.isPendingOf_iff.1 ht').2.1.symm.trans
        (PanelAsyncTask.isPendingOf_iff.1 ht).2.1)
    simp [hne]

theorem pendingPayloads_deleteSame (type : TaskType) :
    pendingPayloads node type (Rows.deleteWhere (·.isPendingOf node type) tasks) = [] := by
  rw [pendingPayloads, Rows.deleteWhere, List.filter_filter, List.map_eq_nil_iff,
    List.filter_eq_nil_iff]
  simp

/-- An enqueue of one task. -/
theorem pendingPayloads_upsert (e : EnqueueEnv) (hnode : node ≠ "") (type' type : TaskType)
    (payload : GoMap String) :
    pendingPayloads node type (upsertPendingTask e tasks node type' payload).1 =
      if type' = type then
        (if e.deleteFails then pendingPayloads node type tasks else []) ++
          if e.insertFails then [] else [payload]
      else pendingPayloads node type tasks := by
  rw [upsertPendingTask, if_neg hnode, Paneltasks.replacePending]
  by_cases htype : type' = type
  · subst htype
    rw [if_pos rfl]
    cases e.deleteFails <;> cases e.insertFails <;>
      simp [pendingPayloads_append, pendingPayloads_deleteSame, EnqueueEnv.newTask]
  · rw [if_neg htype]
    have hnew : ∀ tasks', (e.newTask tasks' node type' payload).isPendingOf node type = false := by
      intro tasks'
      rw [← Bool.not_eq_true]
      exact fun h => htype (PanelAsyncTask.isPendingOf_iff.1 h).2.1
    cases e.deleteFails <;> cases e.insertFails <;>
      simp [pendingPayloads_append, pendingPayloads_deleteOther htype, hnew]

theorem upsert_succeeds (e : EnqueueEnv) (hnode : node ≠ "") (type : TaskType)
    (payload : GoMap String) :
    (upsertPendingTask e tasks node type payload).2 = !e.insertFails := by
  rw [upsertPendingTask, if_neg hnode, Paneltasks.replacePending]
  cases e.insertFails <;> rfl

theorem reaches_cons_self (type : TaskType) (payload : GoMap String)
    (wanted : List (TaskType × GoMap String)) :
    reaches env ((type, payload) :: wanted) type = true := by
  simp [reaches]

theorem reaches_cons_of_ne {type' type : TaskType} (h : type' ≠ type) (payload : GoMap String)
    (wanted : List (TaskType × GoMap String)) :
    reaches env ((type', payload) :: wanted) type =
      (!(env type').insertFails && reaches env wanted type) := by
  simp [reaches, h]

/-- **What the enqueue leaves waiting** of a type: the tasks that stay, and the new one. -/
theorem pendingPayloads_upsertAll (hnode : node ≠ "") (type : TaskType) :
    ∀ (wanted : List (TaskType × GoMap String)) (tasks : List PanelAsyncTask),
      (wanted.map (·.1)).Nodup →
      pendingPayloads node type (upsertAll env node tasks wanted).1 =
        match wanted.lookup type with
        | none => pendingPayloads node type tasks
        | some payload => keptPayloads env wanted node type tasks ++
            if inserts env wanted node type then [payload] else [] := by
  intro wanted
  induction wanted with
  | nil => exact fun tasks _ => rfl
  | cons task wanted ih =>
    obtain ⟨type', payload⟩ := task
    intro tasks hnodup
    obtain ⟨hnot, hnodup⟩ := List.nodup_cons.1 hnodup
    have hfirst := @pendingPayloads_upsert node tasks (env type') hnode type' type payload
    have hok := @upsert_succeeds node tasks (env type') hnode type' payload
    have hlookup : ((type', payload) :: wanted).lookup type =
        if type = type' then some payload else wanted.lookup type := by
      rw [List.lookup_cons]
      split <;> split <;> simp_all
    rcases hout : upsertPendingTask (env type') tasks node type' payload with ⟨tasks', ok⟩
    rw [hout] at hfirst hok
    dsimp only at hfirst hok
    rw [upsertAll, hout, hlookup, hok]
    by_cases htype : type' = type
    · -- the task of the type comes first, and the rest has none
      subst htype
      have hnone : wanted.lookup type' = none := by
        rw [List.lookup_eq_none_iff]
        intro task htask
        exact bne_iff_ne.2 fun heq => hnot (List.mem_map.2 ⟨task, htask, heq.symm⟩)
      have hrest := ih tasks' hnodup
      rw [hnone] at hrest
      rw [if_pos rfl] at hfirst ⊢
      simp only [keptPayloads, inserts, reaches_cons_self]
      cases hins : (env type').insertFails with
      | false =>
        simp only [hins] at hfirst ⊢
        rw [Bool.not_false, hrest, hfirst]
        cases (env type').deleteFails <;> simp [hnode]
      | true =>
        simp only [hins] at hfirst ⊢
        rw [Bool.not_true, hfirst]
        cases (env type').deleteFails <;> simp [hnode]
    · rw [if_neg htype] at hfirst
      rw [if_neg (Ne.symm htype)]
      simp only [keptPayloads, inserts, reaches_cons_of_ne htype]
      cases hins : (env type').insertFails with
      | false =>
        rw [Bool.not_false]
        have hrest := ih tasks' hnodup
        simp only [keptPayloads, inserts, hfirst] at hrest
        simpa using hrest
      | true =>
        rw [Bool.not_true, hfirst]
        cases wanted.lookup type <;> simp

/-- **What the enqueue of the material tasks leaves waiting.** -/
theorem pendingPayloads_enqueue (env : TaskType → EnqueueEnv) (node : String)
    (tasks : List PanelAsyncTask) (settings : Settings) (type : TaskType) :
    pendingPayloads node type
        (Paneltasks.enqueueOpenvpnMaterialSyncTasks env tasks node settings).1 =
      match (materialSyncTasks settings).lookup type with
      | none => pendingPayloads node type tasks
      | some payload => keptPayloads env (materialSyncTasks settings) node type tasks ++
          if inserts env (materialSyncTasks settings) node type then [payload] else [] := by
  rw [Paneltasks.enqueueOpenvpnMaterialSyncTasks]
  have hnodup := Paneltasks.nodup_materialSyncTasks settings
  generalize materialSyncTasks settings = wanted at hnodup ⊢
  by_cases hnode : node = ""
  · subst hnode
    rw [if_pos rfl]
    cases wanted.lookup type <;> simp [keptPayloads, inserts]
  · rw [if_neg hnode]
    exact pendingPayloads_upsertAll hnode type wanted tasks hnodup

/-! ### The waiting tasks of the settings -/

theorem mem_materialTypes {settings : Settings} {task : TaskType × GoMap String}
    (h : task ∈ materialSyncTasks settings) : task.1 ∈ materialTypes := by
  simp only [materialSyncTasks, List.mem_append] at h
  rcases h with (((h | h) | h) | h) | h <;>
    (split_ifs at h <;> simp only [List.mem_singleton, List.not_mem_nil] at h; subst h
     simp [materialTypes])

/-- The waiting tasks match type by type. -/
theorem tasksMatch_iff_pendingPayloads {settings : Settings} :
    TasksMatch node settings tasks ↔ ∀ type ∈ materialTypes,
      match (materialSyncTasks settings).lookup type with
      | none => pendingPayloads node type tasks = []
      | some payload => (∀ q ∈ pendingPayloads node type tasks, q = payload) ∧
          payload ∈ pendingPayloads node type tasks := by
  have hnodup := Paneltasks.nodup_materialSyncTasks settings
  have htypes := @mem_materialTypes settings
  rw [TasksMatch]
  generalize materialSyncTasks settings = wanted at hnodup htypes ⊢
  constructor
  · rintro ⟨hcarry, hhas⟩ type htype
    have hof : ∀ q ∈ pendingPayloads node type tasks, wanted.lookup type = some q := by
      intro q hq
      obtain ⟨t, ht, hp, rfl⟩ := mem_pendingPayloads.1 hq
      obtain ⟨hnode, rfl, hstatus⟩ := PanelAsyncTask.isPendingOf_iff.1 hp
      exact (GoMap.lookup_eq_some_iff_mem hnodup).2 (hcarry t ht hnode hstatus htype)
    cases hl : wanted.lookup type with
    | none =>
      refine List.eq_nil_iff_forall_not_mem.2 fun q hq => ?_
      have hsome := hof q hq
      rw [hl] at hsome
      cases hsome
    | some payload =>
      refine ⟨fun q hq => Option.some.inj ((hof q hq).symm.trans hl), mem_pendingPayloads.2 ?_⟩
      exact hhas _ ((GoMap.lookup_eq_some_iff_mem hnodup).1 hl)
  · intro h
    refine ⟨fun t ht hnode hstatus htype => ?_, fun task htask => ?_⟩
    · have hmem : t.payload ∈ pendingPayloads node t.type tasks :=
        mem_pendingPayloads.2 ⟨t, ht, PanelAsyncTask.isPendingOf_iff.2 ⟨hnode, rfl, hstatus⟩, rfl⟩
      have htype := h t.type htype
      cases hl : wanted.lookup t.type with
      | none =>
        rw [hl] at htype
        exact absurd hmem (List.eq_nil_iff_forall_not_mem.1 htype _)
      | some payload =>
        rw [hl] at htype
        rw [htype.1 _ hmem]
        exact (GoMap.lookup_eq_some_iff_mem hnodup).1 hl
    · have htype := h task.1 (htypes htask)
      rw [(GoMap.lookup_eq_some_iff_mem hnodup).2 htask] at htype
      exact mem_pendingPayloads.1 htype.2

/-- **The waiting tasks match after the enqueue exactly when the queue was clean.** -/
theorem tasksMatch_enqueue_iff (env : TaskType → EnqueueEnv) (node : String)
    (tasks : List PanelAsyncTask) (settings : Settings) :
    TasksMatch node settings
        (Paneltasks.enqueueOpenvpnMaterialSyncTasks env tasks node settings).1 ↔
      CleanQueue env node settings tasks := by
  rw [tasksMatch_iff_pendingPayloads, CleanQueue]
  refine forall₂_congr fun type _ => ?_
  rw [pendingPayloads_enqueue, CleanType]
  cases hl : (materialSyncTasks settings).lookup type with
  | none => exact Iff.rfl
  | some payload =>
    cases hins : inserts env (materialSyncTasks settings) node type with
    | false => simp
    | true => simp [or_imp]

/-- Where every statement is executed, the queue is clean when no task waits for a link that is not
set. -/
theorem cleanQueue_iff_of_answers {settings : Settings} (hnode : node ≠ "")
    (henv : ∀ type, (env type).answers = true) :
    CleanQueue env node settings tasks ↔ ∀ type ∈ materialTypes,
      (materialSyncTasks settings).lookup type = none → pendingPayloads node type tasks = [] := by
  have hins : ∀ type, (env type).insertFails = false := fun type => by
    have := henv type
    simp only [EnqueueEnv.answers, Bool.and_eq_true, Bool.not_eq_true'] at this
    exact this.2
  have hdel : ∀ type, (env type).deleteFails = false := fun type => by
    have := henv type
    simp only [EnqueueEnv.answers, Bool.and_eq_true, Bool.not_eq_true'] at this
    exact this.1
  rw [CleanQueue]
  generalize materialSyncTasks settings = wanted
  have hreach : ∀ type, reaches env wanted type = true := fun type => by simp [reaches, hins]
  refine forall₂_congr fun type _ => ?_
  rw [CleanType]
  cases hl : wanted.lookup type with
  | none => simp
  | some payload => simp [keptPayloads, inserts, hnode, hreach, hins, hdel]

/-! ### The calls -/

/-- The snapshot task is no material task. -/
theorem pendingPayloads_enqueueSnapshot (db : Db) (e : EnqueueEnv) (node : String) {type : TaskType}
    (htype : type ∈ materialTypes) :
    pendingPayloads node type (db.enqueueSnapshot e node).tasks =
    pendingPayloads node type db.tasks := by
  have hne : TaskType.panelAgentSnapshot ≠ type := by
    rintro rfl
    simp [materialTypes] at htype
  by_cases hnode : node = ""
  · subst hnode
    rfl
  · have := @pendingPayloads_upsert node db.tasks e hnode .panelAgentSnapshot type
      (.ofList [("source", "node")])
    rwa [if_neg hne] at this

theorem tasksMatch_enqueueSnapshot (db : Db) (e : EnqueueEnv) (node : String)
    (settings : Settings) :
    TasksMatch node settings (db.enqueueSnapshot e node).tasks ↔
    TasksMatch node settings db.tasks := by
  rw [tasksMatch_iff_pendingPayloads, tasksMatch_iff_pendingPayloads]
  refine forall₂_congr fun type htype => ?_
  rw [pendingPayloads_enqueueSnapshot db e node htype]

/-- What the end of `RemoveRootCaForPanel` leaves. -/
theorem afterDetach_detachRoot (env : SettingsEnv) (db : Db) (node rootID : String) :
    let next := detachedSettings (db.settingsOf node)
    let db' := (afterDetach env (detachRoot db node rootID) node rootID next).1
    db'.settingsOf node = next ∧ ∀ settings, TasksMatch node settings db'.tasks ↔
      TasksMatch node settings
        (Paneltasks.enqueueOpenvpnMaterialSyncTasks env.taskEnv db.tasks node next).1 := by
  have hstored : (detachRoot db node rootID).settingsOf node =
      detachedSettings (db.settingsOf node) :=
    (Db.settingsOf_upsertSettings _ _ _ _ _).trans (if_pos rfl)
  simp only [afterDetach]
  generalize hdb : (if rootInUse env (detachRoot db node rootID) rootID = true ∨
    env.rootDeleteFails = true then detachRoot db node rootID
    else deleteRoot (detachRoot db node rootID) rootID) = db₁
  have htables : db₁.settingsOf node = detachedSettings (db.settingsOf node) ∧
      db₁.tasks = db.tasks := by
    split_ifs at hdb <;> subst hdb <;> exact ⟨hstored, rfl⟩
  obtain ⟨hsettings, htasks⟩ := htables
  rw [hsettings, ite_self, htasks]
  exact ⟨hsettings, fun settings => Iff.rfl⟩

/-- What a call that succeeds leaves: its settings, and the queue after the enqueue of their
material tasks, but for the snapshot task. -/
theorem LinkOp.run_eq_some {env : SettingsEnv} {db db' : Db} {op : LinkOp}
    (h : op.run env db = some db') :
    db'.settingsOf op.node = op.settings env db ∧ ∀ settings,
      TasksMatch op.node settings db'.tasks ↔ TasksMatch op.node settings
        (Paneltasks.enqueueOpenvpnMaterialSyncTasks env.taskEnv db.tasks op.node
          (op.settings env db)).1 := by
  cases op with
  | post nodeID reqBody =>
    simp only [run, node, LinkOp.settings] at h ⊢
    split_ifs at h with hok
    cases h
    obtain ⟨fields, tasks, hbody, henq, hdb⟩ := post_of_ok hok
    rw [hbody, Json.asFields, henq, hdb]
    refine ⟨?_, fun settings => tasksMatch_enqueueSnapshot _ _ _ _⟩
    rw [Db.settingsOf_enqueueSnapshot, Db.settingsOf_upsertSettings, if_pos rfl]
  | removeRootCa nodeID reqBody =>
    simp only [run, node, LinkOp.settings] at h ⊢
    split_ifs at h with hok
    cases h
    obtain ⟨-, hdb⟩ := removeRootCa_of_ok hok
    rw [hdb]
    exact afterDetach_detachRoot env db _ _
  | deleteServer agentNodeID =>
    simp only [run, node, LinkOp.settings] at h ⊢
    split at h
    · rename_i db₁ hok
      cases h
      obtain ⟨-, -, tasks, henq, hdb⟩ := deleteServer_of_ok hok
      rw [henq, hdb]
      refine ⟨?_, fun settings => Iff.rfl⟩
      exact (Db.settingsOf_upsertSettings _ _ _ _ _).trans (if_pos rfl)
    · cases h

/-- **After a call that succeeds the waiting material tasks are those of the stored links exactly
when the queue was clean.** -/
theorem tasksMatch_iff (env : SettingsEnv) (db db' : Db) (op : LinkOp)
    (h : op.run env db = some db') :
    TasksMatch op.node (db'.settingsOf op.node) db'.tasks ↔
      CleanQueue env.taskEnv op.node (op.settings env db) db.tasks := by
  obtain ⟨hsettings, htasks⟩ := op.run_eq_some h
  rw [htasks, hsettings]
  exact tasksMatch_enqueue_iff env.taskEnv op.node db.tasks (op.settings env db)

/-- The task that writes the DH parameters `m1` to the node `n1`. -/
private def dhTask : PanelAsyncTask where
  id := "t1"
  type := .openvpnDhSync
  status := .pending
  agentNodeId := "n1"
  payload := .ofList [("materialId", "m1"), ("remotePath", "/etc/openvpn/dh.pem")]
  lastError := none
  createdAt := 0
  updatedAt := 0
  completedAt := none

/-- The node `n1` links the DH parameters `m1`, and their task waits. -/
private def dhLinked : Db :=
  { Db.empty with
    nodes := [⟨"n1", "vpn"⟩]
    settings :=
      [⟨"n1", .ofList [("panelDhMaterialId", .str "m1"), ("dh", .str "/etc/openvpn/dh.pem")], none⟩]
    tasks := [dhTask] }

/-- A save of one link to DH parameters. -/
private def linkDh (materialId : String) : LinkOp :=
  .post "n1" [("settings", .obj [("panelDhMaterialId", .str materialId)])]

theorem tasksMatch_iff_otherDh :
    ∃ db', (linkDh "m2").run .quiet dhLinked = some db' ∧
    TasksMatch "n1" (db'.settingsOf "n1") db'.tasks := by
  obtain ⟨db', hrun⟩ := Option.isSome_iff_exists.1
    (show ((linkDh "m2").run .quiet dhLinked).isSome = true by decide +kernel)
  exact ⟨db', hrun, (tasksMatch_iff .quiet dhLinked db' (linkDh "m2") hrun).2 (by decide +kernel)⟩

/-- **A cleared link leaves its task**, which will write the parameters to the node. -/
theorem unlinked_task_waits :
    ¬∀ (env : SettingsEnv) (db db' : Db) (op : LinkOp), op.PostsStrings → op.run env db = some db' →
      TasksMatch op.node (db'.settingsOf op.node) db'.tasks := by
  intro h
  obtain ⟨db', hrun⟩ := Option.isSome_iff_exists.1
    (show ((linkDh "").run .quiet dhLinked).isSome = true by decide +kernel)
  have hnot : ¬TasksMatch "n1" (db'.settingsOf "n1") db'.tasks := by
    have hfalse : (((linkDh "").run .quiet dhLinked).any fun db' =>
        decide (TasksMatch "n1" (db'.settingsOf "n1") db'.tasks)) = false := by decide +kernel
    rw [hrun] at hfalse
    exact of_decide_eq_false hfalse
  refine hnot (h .quiet dhLinked db' (linkDh "") (fun f hf => ?_) hrun)
  obtain rfl : f = ("panelDhMaterialId", .str "") := List.mem_singleton.1 hf
  rfl

end OpenvpnControl.Panel
