import OpenvpnControl.Agentsnapshot.Snapshot
import OpenvpnControl.Certificates.Delivery
import OpenvpnControl.Handlers.VpnUsers

/-!
# The policy of a node

A node applies the snapshot it was sent last. The handlers that change what a snapshot is made of
enqueue a task that sends a new one, but not all of them do. This file has the panel with what was
delivered to its nodes, and the law that a node whose snapshot is not the present one has such a
task waiting.

## Main definitions

* `currentRevision`: the revision of the snapshot of a node.
* `PolicyWorld`, `PolicyOp`, `policyStep`: the panel, with what was delivered to each node.
* `NoStalePolicy`: the law.
* `PolicySafe`: the condition on a step.

## Main results

* `SameView.currentRevision_eq`: what the revision depends on.
-/

namespace OpenvpnControl.Agentsnapshot

open Panel (Db Certificate UniqueCerts SettingsEnv VpnUser)
open Paneltasks (PanelAsyncTask EnqueueEnv TaskType Waiting)
open Cert (X509 SyncEnv IssuedImport)
open Handlers (HandlerEnv Fields)
open Certificates (Keyed)
open Openvpn (Settings)

/-! ### The revision of a node -/

variable (revisionOf : SnapshotBody → String)

/-- The revision of the snapshot that `BuildForNode` makes now, with the rows in storage order. -/
def currentRevision (db : Db) (node : String) : Option String :=
  (buildForNode revisionOf 0 db (certificateRows db (GoStrings.trimSpace node)) node).map
    (·.revision)

/-- The settings of a node say the same of its tunnel. -/
def KeepsTunnel (before after : Settings) : Prop := ∀ k ∈ snapshotKeys, after.get k = before.get k

instance (before after : Settings) : Decidable (KeepsTunnel before after) := by
  unfold KeepsTunnel
  infer_instance

/-- What a snapshot of the node is made of is the same in both databases. -/
structure SameView (db db' : Db) (node : String) : Prop where
  tunnel : KeepsTunnel (db.settingsOf node) (db'.settingsOf node)
  rows : certificateRows db' node = certificateRows db node

variable {revisionOf} {x : X509} {db db' : Db} {node : String}

theorem SameView.refl (db : Db) (node : String) : SameView db db node := ⟨fun _ _ => rfl, rfl⟩

/-- **The revision is that of the rows and the tunnel.** -/
theorem SameView.currentRevision_eq (h : SameView db db' node) (hnodes : db'.nodes = db.nodes)
    (htrim : GoStrings.trimSpace node = node) :
    currentRevision revisionOf db' node = currentRevision revisionOf db node := by
  have htunnel : loadTunnelFirewall ((db'.loadSettingsRow node).map Prod.fst) =
      loadTunnelFirewall ((db.loadSettingsRow node).map Prod.fst) :=
      loadTunnelFirewall_congr h.tunnel
  have hnode : db'.node node = db.node node := by rw [Db.node, hnodes, Db.node]
  rw [currentRevision, currentRevision, buildForNode, buildForNode, htrim, h.rows, hnode, htunnel]

/-- The rows of a node are those of its certificates. -/
theorem certificateRows_congr (hcerts : db'.certs.filter (onNode node) =
    db.certs.filter (onNode node))
    (hrow : ∀ c ∈ db.certs, onNode node c = true → certificateRow db' c = certificateRow db c) :
    certificateRows db' node = certificateRows db node := by
  rw [certificateRows, hcerts, certificateRows]
  refine List.map_congr_left fun c hc => ?_
  obtain ⟨hc, hon⟩ := List.mem_filter.1 hc
  exact hrow c hc hon

theorem onNode_iff {c : Certificate} :
    onNode node c = true ↔ c.agentNodeId = some node ∧ c.revokedAt = none := by
  simp only [onNode, Bool.and_eq_true, decide_eq_true_eq, Option.isNone_iff_eq_none]

/-! ### The law -/

/-- A snapshot of the node is pending or processing. -/
def SnapshotWaits (db : Db) (node : String) : Prop :=
  Waiting node .panelAgentSnapshot (fun _ => True) db.tasks

instance (db : Db) (node : String) : Decidable (SnapshotWaits db node) := by
  unfold SnapshotWaits
  infer_instance

/-- The panel, and for each node the revision of the snapshot delivered last. -/
structure PolicyWorld where
  db : Db
  delivered : String → Option String

/-- **No node has a stale policy**: where its present revision differs from the one delivered last,
a snapshot for it is pending or processing. -/
def NoStalePolicy (revisionOf : SnapshotBody → String) (w : PolicyWorld) : Prop :=
  ∀ an ∈ w.db.nodes, ∀ rev ∈ currentRevision revisionOf w.db an.id,
    w.delivered an.id ≠ some rev → SnapshotWaits w.db an.id

instance (w : PolicyWorld) : Decidable (NoStalePolicy revisionOf w) := by
  unfold NoStalePolicy
  infer_instance

/-- An operation that succeeds, or one of the two steps of a task. -/
inductive PolicyOp where
  | createUser (env : HandlerEnv) (body : Option Fields)
  | patchUser (id : String) (body : Option Fields)
  | saveUserFirewall (env : HandlerEnv) (id : String) (body : Option Fields)
  | saveCCD (env : HandlerEnv) (id : String) (body : Option Fields)
  | saveOrgFirewall (env : HandlerEnv) (id : String) (body : Option Fields)
  | createCert (env : HandlerEnv) (body : Option Fields)
  | importCert (env : HandlerEnv) (body : Option Fields)
  | patchCert (env : HandlerEnv) (id : String) (body : Option Fields)
  | revokeCert (env : HandlerEnv) (id reason : String)
  | importIndex (env : SyncEnv) (rootCaID : String) (body : Option Fields)
  | readSettings (env : SettingsEnv) (nodeID : String)
  | saveSettings (env : SettingsEnv) (nodeID : String) (body : Fields)
  | applySettings (env : SettingsEnv) (nodeID : String) (body : Fields)
  | saveTunnelFirewall (env : SettingsEnv) (nodeID : String) (body : Fields)
  | claim (now : ℤ) (node id : String)
  /-- `executeTask` with a claimed task, which succeeds. -/
  | execute (env : EnqueueEnv) (now : ℤ) (id : String)

/-- The database after an operation, and `none` when it is refused. -/
def PolicyOp.apply (x : X509) (db : Db) : PolicyOp → Option Db
  | .createUser env body => (Handlers.VpnUsers.create env db body).toOption
  | .patchUser id body => (Handlers.VpnUsers.patch db id body).toOption
  | .saveUserFirewall env id body => (Handlers.VpnUsers.saveFirewall env db id body).toOption
  | .saveCCD env id body => (Handlers.VpnUsers.saveCCD env db id body).toOption
  | .saveOrgFirewall env id body => (Handlers.Organizations.saveFirewall env db id body).toOption
  | .createCert env body => (Handlers.Certificates.create x env db body).toOption
  | .importCert env body => (Handlers.Certificates.import x env db body).toOption
  | .patchCert env id body => (Handlers.Certificates.patch x env db id body).toOption
  | .revokeCert env id reason => (Handlers.Certificates.revoke env db id reason).toOption
  | .importIndex env rootCaID body =>
    (Handlers.Certificates.rootCAImportIndex db env rootCaID body).toOption.map (·.db)
  | .readSettings env nodeID =>
    let out := Panel.getOpenvpnSettingsForPanel env db nodeID
    if out.2.status = 200 then some out.1 else none
  | .saveSettings env nodeID body =>
    let out := Panel.postOpenvpnSettingsForPanel env db nodeID body
    if out.result.status = 200 then some out.db else none
  | .applySettings env nodeID body =>
    let out := Panel.applyOpenvpnSettingsForPanel env db nodeID body
    if out.2.status = 200 then some out.1 else none
  | .saveTunnelFirewall env nodeID body =>
    let out := Panel.applyFirewallConfigForPanel env db nodeID body
    if out.2.status = 200 then some out.1 else none
  | .claim now node id =>
    (Paneltasks.claimPendingTask now db.tasks node id).map fun out => { db with tasks := out.1 }
  | .execute env now id =>
    (Paneltasks.executeTask env now db.tasks id).map fun out => { db with tasks := out.1 }

/-- What the nodes have after a step: an executed snapshot task delivers the present revision, and
cannot succeed when there is none. -/
def PolicyWorld.deliver (revisionOf : SnapshotBody → String) (w : PolicyWorld) :
    PolicyOp → Option (String → Option String)
  | .execute _ _ id =>
    match Rows.byKey (·.id) id w.db.tasks with
    | none => none
    | some t =>
      if t.type = .panelAgentSnapshot then
        (currentRevision revisionOf w.db t.agentNodeId).map fun rev =>
          Function.update w.delivered t.agentNodeId (some rev)
      else some w.delivered
  | _ => some w.delivered

/-- The panel after a step, and `none` when the step cannot happen. -/
def policyStep (revisionOf : SnapshotBody → String) (x : X509) (w : PolicyWorld) (op : PolicyOp) :
    Option PolicyWorld :=
  (op.apply x w.db).bind fun db => (w.deliver revisionOf op).map fun delivered => ⟨db, delivered⟩

/-! ### The condition -/

/-- The insert of a snapshot is executed, for every node. -/
def InsertsSnapshots (env : HandlerEnv) (db : Db) : Prop :=
  ∀ an ∈ db.nodes, (env.taskEnv an.id).insertFails = false

instance (env : HandlerEnv) (db : Db) : Decidable (InsertsSnapshots env db) := by
  unfold InsertsSnapshots
  infer_instance

/-- A body leaves the name and the organization of a user as they are. -/
def KeepsEntry (u : VpnUser) (body : Fields) : Prop :=
  (Handlers.hasField body "fullName" = true → Handlers.textField body "fullName" = u.fullName) ∧
    (Handlers.hasField body "organizationId" = true →
      Handlers.nullableID (Json.field body "organizationId") = u.organizationId)

instance (u : VpnUser) (body : Fields) : Decidable (KeepsEntry u body) := by
  unfold KeepsEntry
  infer_instance

/-- Every common name that a text lists has a certificate on the node, and no revoked one. -/
def ListsValid (env : SyncEnv) (db : Db) (node text : String) : Prop :=
  ∀ e ∈ env.entries text, (∃ c ∈ db.certs, c.commonName = e.cn ∧ c.agentNodeId = some node) ∧
    ∀ c ∈ db.certs, c.commonName = e.cn → c.agentNodeId = some node → c.revokedAt = none

instance (env : SyncEnv) (db : Db) (node text : String) :
    Decidable (ListsValid env db node text) := by
  unfold ListsValid
  infer_instance

/-- The settings that a read stores: those of the agent merged into the stored ones, or the seed. -/
def storedByRead (env : SettingsEnv) (db : Db) (nodeID : String) : Option Settings :=
  match env.agentSettings with
  | .ok data =>
    match Json.field data "settings" with
    | .obj agent =>
      some (Panel.shownSettings env.scanFloat (env.prev db nodeID) (GoMap.ofList agent))
    | _ => none
  | .error _ => if (db.storedSettings nodeID).isNone then
    some Openvpn.initialServerSettings else none

/-- The condition on a step. The operations that enqueue snapshots read the nodes and insert them. A
change of a user keeps the name and the organization, an imported index lists valid certificates of
its node only, and a read or an applied configuration keeps what a snapshot says of the tunnel,
unless the nodes have a snapshot waiting. -/
def PolicySafe (db : Db) : PolicyOp → Prop
  | .createUser _ _ | .claim _ _ _ | .execute _ _ _ => True
  | .patchUser id body =>
    (∀ u ∈ db.user id, ∀ fields ∈ body, KeepsEntry u fields) ∨
      ∀ node ∈ Handlers.vpnUserNodes db id, SnapshotWaits db node
  | .saveUserFirewall env id _ | .saveCCD env id _ =>
    id ≠ "" ∧ env.lookupFails = false ∧ InsertsSnapshots env db
  | .saveOrgFirewall env _ _ => env.lookupFails = false ∧ InsertsSnapshots env db
  | .createCert env _ | .importCert env _ | .patchCert env _ _ | .revokeCert env _ _ =>
    InsertsSnapshots env db
  | .importIndex env _ body =>
    ∀ fields ∈ body, ∀ node ∈ Handlers.nullableID (Json.field fields "agentNodeId"),
      ListsValid env db node (Handlers.textField fields "issuedList") ∨ SnapshotWaits db node
  | .readSettings env nodeID =>
    (∀ settings ∈ storedByRead env db nodeID, KeepsTunnel (db.settingsOf nodeID) settings) ∨
      SnapshotWaits db nodeID
  | .applySettings env nodeID body =>
    KeepsTunnel (db.settingsOf nodeID) (Panel.appliedSettings env (env.prev db nodeID)
      (GoMap.ofList (Json.field body "settings").asFields)) ∨ SnapshotWaits db nodeID
  | .saveSettings env _ _ | .saveTunnelFirewall env _ _ =>
    (env.taskEnv .panelAgentSnapshot).insertFails = false

end OpenvpnControl.Agentsnapshot
