import OpenvpnControl.Library.Rows
import OpenvpnControl.Library.Json

/-!
# The task queue

The table `PanelAsyncTask` and the functions that write it: the enqueue functions, the retry of a
task, and the claim and completion of a task by a worker.

Every function returns the table it leaves. An enqueue deletes pending rows and inserts a new one
in two statements, each of which the database may refuse; the error of the delete is dropped.

## Main definitions

* `PanelAsyncTask`: a row of the table.
* `EnqueueEnv`: what `ksuid.New`, `NOW()` and the database answer to one enqueue.
* `upsertPendingTask`, `enqueueCrlDeployForRootCa`, `enqueueOpenvpnMaterialSyncTasks`: the enqueue
  functions.
* `retry`, `claimPendingTask`, `completeTask`: the life of a row after it.

## Main results

* `countP_pending_upsertPendingTask`: an upsert leaves one pending row of its node and type.
-/

namespace OpenvpnControl.Paneltasks

/-! ### Rows -/

/-- The column `type`. -/
inductive TaskType where
  | panelAgentSnapshot
  | crlDeploy
  | openvpnCASync
  | openvpnServerCertSync
  | openvpnDhSync
  | openvpnTlsAuthSync
  | openvpnServiceRestart
  | dnsmasqApply
  | other (name : String)
  deriving DecidableEq

/-- The text stored in the column `type`. -/
def TaskType.text : TaskType → String
  | .panelAgentSnapshot => "panel_agent_snapshot"
  | .crlDeploy => "crl_deploy"
  | .openvpnCASync => "openvpn_ca_sync"
  | .openvpnServerCertSync => "openvpn_server_cert_sync"
  | .openvpnDhSync => "openvpn_dh_sync"
  | .openvpnTlsAuthSync => "openvpn_tls_auth_sync"
  | .openvpnServiceRestart => "openvpn_service_restart"
  | .dnsmasqApply => "dnsmasq_apply"
  | .other name => name

/-- The column `status`. -/
inductive TaskStatus where
  | pending
  | processing
  | completed
  | failed
  deriving DecidableEq

/-- A row of `PanelAsyncTask`. -/
structure PanelAsyncTask where
  id : String
  type : TaskType
  status : TaskStatus
  agentNodeId : String
  payload : GoMap String
  lastError : Option String
  createdAt : ℤ
  updatedAt : ℤ
  completedAt : Option ℤ
  deriving DecidableEq

namespace PanelAsyncTask

/-- Is the row a pending task of the node and type? -/
def isPendingOf (node : String) (type : TaskType) (t : PanelAsyncTask) : Bool :=
  t.agentNodeId = node ∧ t.type = type ∧ t.status = .pending

/-- Is the row a pending task of the node? -/
def isPendingOn (node : String) (t : PanelAsyncTask) : Bool :=
  t.agentNodeId = node ∧ t.status = .pending

@[simp] theorem isPendingOf_iff {node : String} {type : TaskType} {t : PanelAsyncTask} :
    t.isPendingOf node type = true ↔
      t.agentNodeId = node ∧ t.type = type ∧ t.status = .pending := by
  simp [isPendingOf]

@[simp] theorem isPendingOn_iff {node : String} {t : PanelAsyncTask} :
    t.isPendingOn node = true ↔ t.agentNodeId = node ∧ t.status = .pending := by
  simp [isPendingOn]

end PanelAsyncTask

/-- A row of `AgentNodeOpenvpnSettings`. -/
structure AgentNodeOpenvpnSettings where
  agentNodeId : String
  settings : GoMap Json
  configPath : Option String
  deriving DecidableEq

/-! ### Enqueueing -/

/-- What the environment answers to one delete-then-insert: the time, a fresh id, and whether the
database refuses one of the two statements. -/
structure EnqueueEnv where
  now : ℤ
  ksuid : List String → String
  ksuid_fresh : ∀ used, ksuid used ∉ used
  deleteFails : Bool := false
  insertFails : Bool := false

/-- Does the database execute both statements? -/
def EnqueueEnv.answers (env : EnqueueEnv) : Bool := !env.deleteFails && !env.insertFails

/-- An id longer than every id in use. -/
def longerId (used : List String) : String :=
  String.ofList (List.replicate (used.foldr (fun id n => id.length + n) 1) 'k')

theorem longerId_fresh (used : List String) : longerId used ∉ used := by
  have hle : ∀ (ids : List String), ∀ id ∈ ids,
      id.length < ids.foldr (fun id n => id.length + n) 1 := by
    intro ids
    have hpos : ∀ (l : List String), 0 < l.foldr (fun id n => id.length + n) 1 := by
      intro l
      induction l with
      | nil => exact Nat.one_pos
      | cons a l ih => exact Nat.lt_of_lt_of_le ih (Nat.le_add_left _ _)
    induction ids with
    | nil => simp
    | cons a ids ih =>
      intro id hid
      rw [List.foldr_cons]
      rcases List.mem_cons.1 hid with rfl | hid
      · exact Nat.lt_add_of_pos_right (hpos ids)
      · exact Nat.lt_of_lt_of_le (ih id hid) (Nat.le_add_left _ _)
  intro h
  have hlt := hle used _ h
  simp [longerId] at hlt

/-- An environment that executes both statements and answers with an id longer than every id in
use. -/
def longerIds : EnqueueEnv where
  now := 0
  ksuid := longerId
  ksuid_fresh := longerId_fresh

/-- A new pending row. -/
def EnqueueEnv.newTask (env : EnqueueEnv) (tasks : List PanelAsyncTask) (node : String)
    (type : TaskType) (payload : GoMap String) : PanelAsyncTask where
  id := env.ksuid (tasks.map (·.id))
  type := type
  status := .pending
  agentNodeId := node
  payload := payload
  lastError := none
  createdAt := env.now
  updatedAt := env.now
  completedAt := none

/-- Delete the pending rows that `stale` selects, then insert a pending row. The error of the
delete is dropped; the result says whether the insert succeeded. -/
def replacePending (env : EnqueueEnv) (stale : PanelAsyncTask → Bool) (tasks : List PanelAsyncTask)
    (node : String) (type : TaskType) (payload : GoMap String) : List PanelAsyncTask × Bool :=
  let tasks' := if env.deleteFails then tasks else Rows.deleteWhere stale tasks
  if env.insertFails then (tasks', false)
  else (tasks' ++ [env.newTask tasks' node type payload], true)

def upsertPendingTask (env : EnqueueEnv) (tasks : List PanelAsyncTask) (agentNodeID : String)
    (taskType : TaskType) (payload : GoMap String) : List PanelAsyncTask × Bool :=
  if agentNodeID = "" then (tasks, true)
  else replacePending env (·.isPendingOf agentNodeID taskType) tasks agentNodeID taskType payload

def enqueueOpenvpnServiceRestart (env : EnqueueEnv) (tasks : List PanelAsyncTask)
    (agentNodeID reason : String) : List PanelAsyncTask × Bool :=
  upsertPendingTask env tasks agentNodeID .openvpnServiceRestart (.ofList [("reason", reason)])

def cancelPendingOpenvpnServiceRestarts (tasks : List PanelAsyncTask) (agentNodeID : String) :
    List PanelAsyncTask :=
  if GoStrings.trimSpace agentNodeID = "" then tasks
  else Rows.deleteWhere (·.isPendingOf agentNodeID .openvpnServiceRestart) tasks

def enqueueDnsmasqApply (env : EnqueueEnv) (tasks : List PanelAsyncTask)
    (agentNodeID config : String) : List PanelAsyncTask × Bool :=
  upsertPendingTask env tasks (GoStrings.trimSpace agentNodeID) .dnsmasqApply
    (.ofList [("config", config)])

def enqueueSnapshotForNode (env : EnqueueEnv) (tasks : List PanelAsyncTask)
    (agentNodeID : String) : List PanelAsyncTask × Bool :=
  upsertPendingTask env tasks agentNodeID .panelAgentSnapshot (.ofList [("source", "node")])

/-- A string setting without surrounding white space; any other value reads as `""`. -/
def trimmedSetting (settings : GoMap Json) (key : String) : String :=
  GoStrings.trimSpace (settings.get key).asString

/-- `openvpn.FirstTlsAuthPath`: the first field of the directive. -/
def firstTlsAuthPath (v : String) : String := (GoStrings.fields v).headD ""

/-- The material tasks the settings ask for, in the order they are enqueued. A task is asked for
when its panel link and its paths on the node are set. -/
def materialSyncTasks (settings : GoMap Json) : List (TaskType × GoMap String) :=
  let rootID := trimmedSetting settings "panelRootCaId"
  let caPath := trimmedSetting settings "ca"
  let crlPath := trimmedSetting settings "crl-verify"
  let certID := trimmedSetting settings "panelServerCertId"
  let certPath := trimmedSetting settings "cert"
  let keyPath := trimmedSetting settings "key"
  let dhMatID := trimmedSetting settings "panelDhMaterialId"
  let dhPath := trimmedSetting settings "dh"
  let tlsMatID := trimmedSetting settings "panelTlsAuthMaterialId"
  let tlsPath := firstTlsAuthPath (settings.get "tls-auth").asString
  (if rootID ≠ "" ∧ caPath ≠ "" then
    [(TaskType.openvpnCASync,
      GoMap.ofList [("rootCaId", rootID), ("remotePath", caPath)])] else []) ++
  (if rootID ≠ "" ∧ crlPath ≠ "" then
    [(TaskType.crlDeploy,
      GoMap.ofList [("rootCaId", rootID), ("remotePath", crlPath)])] else []) ++
  (if certID ≠ "" ∧ certPath ≠ "" ∧ keyPath ≠ "" then
    [(TaskType.openvpnServerCertSync, GoMap.ofList
      [("certId", certID), ("certPath", certPath), ("keyPath", keyPath)])] else []) ++
  (if dhMatID ≠ "" ∧ dhPath ≠ "" then
    [(TaskType.openvpnDhSync,
      GoMap.ofList [("materialId", dhMatID), ("remotePath", dhPath)])] else []) ++
  (if tlsMatID ≠ "" ∧ tlsPath ≠ "" then
    [(TaskType.openvpnTlsAuthSync,
      GoMap.ofList [("materialId", tlsMatID), ("remotePath", tlsPath)])] else [])

/-- Upsert the tasks in order and stop at the first insert that fails. -/
def upsertAll (env : TaskType → EnqueueEnv) (nodeID : String) :
    List PanelAsyncTask → List (TaskType × GoMap String) → List PanelAsyncTask × Bool
  | tasks, [] => (tasks, true)
  | tasks, (type, payload) :: rest =>
    match upsertPendingTask (env type) tasks nodeID type payload with
    | (tasks', true) => upsertAll env nodeID tasks' rest
    | (tasks', false) => (tasks', false)

def enqueueOpenvpnMaterialSyncTasks (env : TaskType → EnqueueEnv) (tasks : List PanelAsyncTask)
    (nodeID : String) (settings : GoMap Json) : List PanelAsyncTask × Bool :=
  if nodeID = "" then (tasks, true) else upsertAll env nodeID tasks (materialSyncTasks settings)

/-- Is the row a pending CRL task of the node for the root? -/
def isPendingCrlOf (node rootCaID : String) (t : PanelAsyncTask) : Bool :=
  t.isPendingOf node .crlDeploy ∧ t.payload.lookup "rootCaId" = some rootCaID

/-- The node of a settings row that links the root and has a CRL path, with the path. The link is
compared as the text `settings->>'panelRootCaId'`. -/
def crlTarget (rootCaID : String) (row : AgentNodeOpenvpnSettings) : Option (String × String) :=
  if (row.settings.get "panelRootCaId").textOf = some rootCaID then
    let crlPath := trimmedSetting row.settings "crl-verify"
    if crlPath = "" then none else some (row.agentNodeId, crlPath)
  else none

/-- One turn of the loop of `EnqueueCrlDeployForRootCa`: only the pending tasks of the same root
are replaced, and the error of the insert is dropped. -/
def replaceCrl (env : String → EnqueueEnv) (rootCaID : String) (tasks : List PanelAsyncTask)
    (target : String × String) : List PanelAsyncTask :=
  (replacePending (env target.1) (isPendingCrlOf target.1 rootCaID) tasks target.1 .crlDeploy
    (.ofList [("rootCaId", rootCaID), ("remotePath", target.2)])).1

def enqueueCrlDeployForRootCa (env : String → EnqueueEnv) (tasks : List PanelAsyncTask)
    (rows : List AgentNodeOpenvpnSettings) (rootCaID : String) : List PanelAsyncTask :=
  if rootCaID = "" then tasks
  else (rows.filterMap (crlTarget rootCaID)).foldl (replaceCrl env rootCaID) tasks

/-! ### Retry, claim and completion -/

/-- The status a `SELECT` by id reads. -/
def statusOf (tasks : List PanelAsyncTask) (id : String) : Option TaskStatus :=
  (Rows.byKey (·.id) id tasks).map (·.status)

theorem statusOf_eq_some {tasks : List PanelAsyncTask} {id : String} {status : TaskStatus}
    (hkey : Rows.HasKey (·.id) tasks) :
    statusOf tasks id = some status ↔ ∃ t ∈ tasks, t.id = id ∧ t.status = status := by
  simp only [statusOf, Option.map_eq_some_iff, Rows.byKey_eq_some hkey, and_assoc]

/-- The `UPDATE` of `Retry`. -/
def resetToPending (now : ℤ) (id : String) (tasks : List PanelAsyncTask) : List PanelAsyncTask :=
  Rows.updateWhere (fun t => t.id = id)
    (fun t => { t with
      status := .pending, lastError := none, completedAt := none, updatedAt := now }) tasks

/-- The text of a refused retry. -/
def retryBusy : String := "Задача уже выполняется."

/-- What `Retry` answers. -/
inductive RetryAnswer where
  | notFound
  | busy (errMsg : String)
  | retried
  deriving DecidableEq

/-- `Retry`: the status is read in one statement, and the update in the next is unconditional. -/
def retry (now : ℤ) (tasks : List PanelAsyncTask) (id : String) :
    List PanelAsyncTask × RetryAnswer :=
  match statusOf tasks id with
  | none => (tasks, .notFound)
  | some .processing => (tasks, .busy retryBusy)
  | some _ => (resetToPending now id tasks, .retried)

/-- May the `SELECT` of `claimPendingTask` return the row: is it a pending task of the node, and
is none older? Rows of the same age are returned in any order. -/
def isOldestPending (tasks : List PanelAsyncTask) (node : String) (t : PanelAsyncTask) : Prop :=
  t.isPendingOn node ∧ ∀ u ∈ tasks, u.isPendingOn node → t.createdAt ≤ u.createdAt

instance (tasks : List PanelAsyncTask) (node : String) (t : PanelAsyncTask) :
    Decidable (isOldestPending tasks node t) := by
  unfold isOldestPending
  infer_instance

/-- The conditional `UPDATE` of `claimPendingTask`. -/
def markProcessing (now : ℤ) (id : String) (tasks : List PanelAsyncTask) : List PanelAsyncTask :=
  Rows.updateWhere (fun t => t.id = id ∧ t.status = .pending)
    (fun t => { t with status := .processing, lastError := none, updatedAt := now }) tasks

/-- `claimPendingTask` run to its end, where `id` is the row the `SELECT` returned. `none` when
the database cannot return that row. -/
def claimPendingTask (now : ℤ) (tasks : List PanelAsyncTask) (node id : String) :
    Option (List PanelAsyncTask × PanelAsyncTask) :=
  match Rows.byKey (·.id) id tasks with
  | some t =>
    if isOldestPending tasks node t then some (markProcessing now id tasks, t) else none
  | none => none

/-- `completeTask`: an empty `errMsg` is success. -/
def completeTask (now : ℤ) (tasks : List PanelAsyncTask) (id errMsg : String) :
    List PanelAsyncTask :=
  Rows.updateWhere (fun t => t.id = id)
    (fun t => { t with
      status := if errMsg ≠ "" then .failed else .completed
      lastError := if errMsg ≠ "" then some errMsg else none
      completedAt := some now
      updatedAt := now }) tasks

/-! ### The status of a row after a statement -/

theorem statusOf_markProcessing (now : ℤ) (id : String) (tasks : List PanelAsyncTask) (j : String) :
    statusOf (markProcessing now id tasks) j =
      if j = id ∧ statusOf tasks id = some .pending then some .processing
      else statusOf tasks j := by
  rw [statusOf, markProcessing, Rows.byKey_updateWhere, statusOf]
  swap
  · exact fun _ _ => rfl
  cases hj : Rows.byKey (·.id) j tasks with
  | none =>
    rw [if_neg]
    · simp [statusOf, hj]
    · rintro ⟨rfl, h⟩
      simp [hj] at h
  | some t =>
    obtain ⟨-, rfl⟩ := Rows.mem_of_byKey_eq_some hj
    by_cases hid : t.id = id
    · subst hid
      by_cases hs : t.status = .pending <;> simp [statusOf, hj, hs]
    · simp [statusOf, hj, hid]

theorem statusOf_completeTask (now : ℤ) (id errMsg : String) (tasks : List PanelAsyncTask)
    (j : String) :
    statusOf (completeTask now tasks id errMsg) j =
      if j = id then (statusOf tasks j).map fun _ => if errMsg ≠ "" then .failed else .completed
      else statusOf tasks j := by
  rw [statusOf, completeTask, Rows.byKey_updateWhere, statusOf]
  swap
  · exact fun _ _ => rfl
  cases hj : Rows.byKey (·.id) j tasks with
  | none => simp
  | some t =>
    obtain ⟨-, rfl⟩ := Rows.mem_of_byKey_eq_some hj
    by_cases hid : t.id = id <;> simp [hid]

theorem statusOf_resetToPending (now : ℤ) (id : String) (tasks : List PanelAsyncTask) (j : String) :
    statusOf (resetToPending now id tasks) j =
      if j = id then (statusOf tasks j).map fun _ => .pending else statusOf tasks j := by
  rw [statusOf, resetToPending, Rows.byKey_updateWhere, statusOf]
  swap
  · exact fun _ _ => rfl
  cases hj : Rows.byKey (·.id) j tasks with
  | none => simp
  | some t =>
    obtain ⟨-, rfl⟩ := Rows.mem_of_byKey_eq_some hj
    by_cases hid : t.id = id <;> simp [hid]

/-- A delete of pending rows takes away only rows that are pending. -/
theorem statusOf_deletePending {tasks : List PanelAsyncTask} (hkey : Rows.HasKey (·.id) tasks)
    (node : String) (type : TaskType) (j : String) :
    statusOf (Rows.deleteWhere (·.isPendingOf node type) tasks) j = statusOf tasks j ∨
      statusOf tasks j = some .pending ∧
        statusOf (Rows.deleteWhere (·.isPendingOf node type) tasks) j = none := by
  rw [statusOf, Rows.byKey_deleteWhere hkey, statusOf]
  cases hj : Rows.byKey (·.id) j tasks with
  | none => simp
  | some t =>
    by_cases hp : t.isPendingOf node type
    · right
      obtain ⟨-, -, hs⟩ := PanelAsyncTask.isPendingOf_iff.1 hp
      simp [Option.filter, hp, hs]
    · left
      simp [Option.filter, hp]

/-- An insert adds a pending row under an id that had none. -/
theorem statusOf_insert (env : EnqueueEnv) (tasks : List PanelAsyncTask) (node : String)
    (type : TaskType) (payload : GoMap String) (j : String) :
    statusOf (tasks ++ [env.newTask tasks node type payload]) j = statusOf tasks j ∨
      statusOf tasks j = none ∧
        statusOf (tasks ++ [env.newTask tasks node type payload]) j = some .pending := by
  rw [statusOf, Rows.byKey_append_singleton, statusOf]
  cases hj : Rows.byKey (·.id) j tasks with
  | some t => simp
  | none =>
    by_cases hid : (env.newTask tasks node type payload).id = j
    · rw [if_pos hid]
      exact Or.inr ⟨rfl, rfl⟩
    · simp [hid]

end OpenvpnControl.Paneltasks
