import OpenvpnControl.Agentsnapshot.Tunnel
import OpenvpnControl.Ccd.Render
import OpenvpnControl.Panel.Db

/-!
# The snapshot of a node

`BuildForNode` collects the certificates of a node that are not revoked under their common names,
without the white space around them. The query says nothing about the order of its rows, and the
last row of a common name counts. So the snapshot is a function of the database when the
certificates of a common name belong to one user.

## Main definitions

* `SnapshotRow`, `certificateRows`: the rows of the query.
* `SnapshotUser`, `Snapshot`, `buildForNode`: the snapshot.
* `OneUserPerName`: the certificates of a common name belong to one user.

## Main results

* `snapshot_orderFree_iff`: when the snapshot does not depend on the order of the rows.
* `snapshot_depends_on_order`: two snapshots of one database.
-/

namespace OpenvpnControl.Agentsnapshot

open Firewall (FirewallRule FirewallNatRule Mode TunnelContext)
open Panel (Db Certificate)

/-! ### The query -/

/-- A row of the query on `Certificate`, `VpnUser` and `Organization`. -/
structure SnapshotRow where
  commonName : String
  vpnUserId : Option String
  fullName : Option String
  userFirewallRules : Option Json
  ccdSettings : Option Json
  orgFirewallRules : Option Json
  deriving DecidableEq

/-- The row of a certificate, with the user and the organization that the joins find. -/
def certificateRow (db : Db) (c : Certificate) : SnapshotRow :=
  let u := c.vpnUserId.bind db.user
  let o := (u.bind Panel.VpnUser.organizationId).bind db.org
  { commonName := c.commonName
    vpnUserId := c.vpnUserId
    fullName := u.map Panel.VpnUser.fullName
    userFirewallRules := u.bind Panel.VpnUser.firewallRules
    ccdSettings := u.bind Panel.VpnUser.ccdSettings
    orgFirewallRules := o.bind Panel.Organization.firewallRules }

/-- Does the query select the certificate? -/
def onNode (id : String) (c : Certificate) : Bool := c.agentNodeId = some id && c.revokedAt.isNone

/-- The rows of the query, in storage order. -/
def certificateRows (db : Db) (id : String) : List SnapshotRow :=
  (db.certs.filter (onNode id)).map (certificateRow db)

/-! ### The snapshot -/

/-- An entry of `usersByCn`. -/
structure SnapshotUser where
  vpnUserId : Option String
  firewallMode : Mode
  firewallRules : GoSlice FirewallRule
  firewallNatRules : GoSlice FirewallNatRule
  ccdSettings : Ccd.Settings
  ccdText : String
  deriving DecidableEq

/-- The entry of a row. -/
def snapshotUser (row : SnapshotRow) : SnapshotUser :=
  let effective := Firewall.composeLevels (Firewall.parseStored row.orgFirewallRules)
    (Firewall.parseStored row.userFirewallRules)
  { vpnUserId := row.vpnUserId
    firewallMode := effective.mode
    firewallRules := effective.rules
    firewallNatRules := effective.natRules
    ccdSettings := Ccd.normalize (row.ccdSettings.getD .null)
    ccdText :=
      match row.ccdSettings with
      | none => ""
      | some raw => Ccd.renderText (row.fullName.getD "") raw }

/-- The key of a row, if it has one. -/
def rowKey (row : SnapshotRow) : Option String :=
  let cn := GoStrings.trimSpace row.commonName
  if cn = "" then none else some cn

/-- `bodyForHash`. -/
structure SnapshotBody where
  agentNodeId : String
  tunnelContext : TunnelContext
  tunnelFirewall : TunnelConfig
  usersByCn : GoMap SnapshotUser

/-- What `BuildForNode` returns. -/
structure Snapshot extends SnapshotBody where
  revision : String
  updatedAt : ℤ
  nodeName : String

/-- `BuildForNode`, with the rows of its query in the order they come, the time, and the hexadecimal
SHA-256 of the JSON of a body. -/
def buildForNode (revisionOf : SnapshotBody → String) (now : ℤ) (db : Db) (rows : List SnapshotRow)
    (agentNodeID : String) : Option Snapshot :=
  let id := GoStrings.trimSpace agentNodeID
  if id = "" then none
  else match db.node id with
    | none => none
    | some node =>
      let (tunnel, tunnelCtx) := loadTunnelFirewall ((db.loadSettingsRow id).map Prod.fst)
      let iface := tunnelCtx.tunnelInterface
      let body : SnapshotBody :=
        { agentNodeId := id
          tunnelContext :=
            { tunnelCtx with tunnelInterface := if iface = "" then "tun0" else iface }
          tunnelFirewall := tunnel
          usersByCn := GoMap.collect rowKey snapshotUser rows }
      some { body with revision := revisionOf body, updatedAt := now, nodeName := node.name }

/-! ### The order of the rows -/

/-- The users and the revision of the snapshot do not depend on the order of the rows, nor on the
time. -/
def OrderFree (revisionOf : SnapshotBody → String) (db : Db) (agentNodeID : String) : Prop :=
  ∀ rows₁ rows₂ now₁ now₂,
    rows₁.Perm (certificateRows db (GoStrings.trimSpace agentNodeID)) →
      rows₂.Perm (certificateRows db (GoStrings.trimSpace agentNodeID)) →
        (buildForNode revisionOf now₁ db rows₁ agentNodeID).map
            (fun s => (s.usersByCn, s.revision)) =
          (buildForNode revisionOf now₂ db rows₂ agentNodeID).map fun s => (s.usersByCn, s.revision)

/-- The certificates of one common name on a node, up to the white space around it, belong to one
user, or none of them to any. -/
def OneUserPerName (db : Db) (id : String) : Prop :=
  ∀ c₁ ∈ db.certs, ∀ c₂ ∈ db.certs, onNode id c₁ = true → onNode id c₂ = true →
    GoStrings.trimSpace c₁.commonName = GoStrings.trimSpace c₂.commonName →
      GoStrings.trimSpace c₁.commonName ≠ "" → c₁.vpnUserId = c₂.vpnUserId

variable {db : Db} {id : String} {revisionOf : SnapshotBody → String}

/-- The entries of two certificates are the same when they belong to one user. -/
theorem snapshotUser_eq_iff {c₁ c₂ : Certificate} :
    snapshotUser (certificateRow db c₁) = snapshotUser (certificateRow db c₂) ↔
      c₁.vpnUserId = c₂.vpnUserId := by
  constructor
  · exact fun h => congrArg SnapshotUser.vpnUserId h
  · intro h
    simp only [snapshotUser, certificateRow, h]

theorem rowKey_eq_some {row : SnapshotRow} {cn : String} :
    rowKey row = some cn ↔ GoStrings.trimSpace row.commonName = cn ∧ cn ≠ "" := by
  rw [rowKey]
  split_ifs with h
  · simp [h, eq_comm]
  · simp only [Option.some.injEq]
    constructor
    · rintro rfl
      exact ⟨rfl, h⟩
    · exact And.left

/-- The users of a snapshot, in every order of the rows. -/
theorem usersByCn_perm_iff :
    (∀ rows₁ rows₂, rows₁.Perm (certificateRows db id) → rows₂.Perm (certificateRows db id) →
        GoMap.collect rowKey snapshotUser rows₁ = GoMap.collect rowKey snapshotUser rows₂) ↔
      OneUserPerName db id := by
  rw [GoMap.collect_perm_iff]
  constructor
  · intro h c₁ hc₁ c₂ hc₂ hon₁ hon₂ hcn hne
    have hrow {c : Certificate} (hc : c ∈ db.certs) (hon : onNode id c = true) :
        certificateRow db c ∈ certificateRows db id :=
      List.mem_map.2 ⟨c, List.mem_filter.2 ⟨hc, hon⟩, rfl⟩
    exact snapshotUser_eq_iff.1 (h _ (hrow hc₁ hon₁) _ (hrow hc₂ hon₂) _
      (rowKey_eq_some.2 ⟨rfl, hne⟩) (rowKey_eq_some.2 ⟨hcn.symm, hne⟩))
  · intro h r₁ hr₁ r₂ hr₂ cn hk₁ hk₂
    obtain ⟨c₁, hc₁, rfl⟩ := List.mem_map.1 hr₁
    obtain ⟨c₂, hc₂, rfl⟩ := List.mem_map.1 hr₂
    obtain ⟨hc₁, hon₁⟩ := List.mem_filter.1 hc₁
    obtain ⟨hc₂, hon₂⟩ := List.mem_filter.1 hc₂
    obtain ⟨hcn₁, hne⟩ := rowKey_eq_some.1 hk₁
    obtain ⟨hcn₂, -⟩ := rowKey_eq_some.1 hk₂
    exact snapshotUser_eq_iff.2 (h c₁ hc₁ c₂ hc₂ hon₁ hon₂ (hcn₁.trans hcn₂.symm) (hcn₁ ▸ hne))

/-- The snapshot of a node that there is. -/
theorem orderFree_iff_of_node {agentNodeID : String} {node : Panel.AgentNode}
    (hid : GoStrings.trimSpace agentNodeID ≠ "")
    (hnode : db.node (GoStrings.trimSpace agentNodeID) = some node) :
    OrderFree revisionOf db agentNodeID ↔ OneUserPerName db (GoStrings.trimSpace agentNodeID) := by
  rw [OrderFree]
  simp only [buildForNode, if_neg hid, hnode, Option.map_some, Option.some.injEq, Prod.mk.injEq]
  rw [← usersByCn_perm_iff]
  constructor
  · exact fun h rows₁ rows₂ hp₁ hp₂ => (h rows₁ rows₂ 0 0 hp₁ hp₂).1
  · intro h rows₁ rows₂ _ _ hp₁ hp₂
    have husers := h rows₁ rows₂ hp₁ hp₂
    exact ⟨husers, by rw [husers]⟩

/-- **When the snapshot does not depend on the order of the rows**: there is no such node, or the
certificates of a common name on it belong to one user. -/
theorem snapshot_orderFree_iff (agentNodeID : String) :
    OrderFree revisionOf db agentNodeID ↔
      (GoStrings.trimSpace agentNodeID = "" ∨ db.node (GoStrings.trimSpace agentNodeID) = none ∨
        OneUserPerName db (GoStrings.trimSpace agentNodeID)) := by
  by_cases hid : GoStrings.trimSpace agentNodeID = ""
  · simp [OrderFree, buildForNode, hid]
  · rw [or_iff_right hid]
    cases hnode : db.node (GoStrings.trimSpace agentNodeID) with
    | none => simp [OrderFree, buildForNode, hid, hnode]
    | some node => rw [orderFree_iff_of_node hid hnode, or_iff_right (by simp)]

/-- A certificate of the node `n1` that is not revoked. -/
def nodeCertificate (id commonName vpnUserId : String) : Certificate :=
  ⟨id, commonName, id, "", none, some "n1", some vpnUserId, none, none, 0, 0, none, none⟩

/-- A user without rules. -/
def plainUser (id : String) : Panel.VpnUser := ⟨id, id, none, id, none, none, none, none, none⟩

/-- A node with two certificates of one common name, up to a space, that belong to two users. -/
def twoUsersDb : Db :=
  { Db.empty with
    nodes := [⟨"n1", "node"⟩]
    users := [plainUser "u1", plainUser "u2"]
    certs := [nodeCertificate "c1" "vpn" "u1", nodeCertificate "c2" "vpn " "u2"] }

/-- **Two snapshots of one database**: the user of the common name is the one of the certificate
that comes last. -/
theorem snapshot_depends_on_order :
    ¬∀ (revisionOf : SnapshotBody → String) (db : Db) (agentNodeID : String),
      OrderFree revisionOf db agentNodeID := by
  intro h
  have hid : GoStrings.trimSpace "n1" = "n1" := by decide +kernel
  have hone := (orderFree_iff_of_node (by decide +kernel) (by rw [hid]; rfl)).1
    (h (fun _ => "") twoUsersDb "n1")
  rw [hid] at hone
  have huser := hone (nodeCertificate "c1" "vpn" "u1") (by simp [twoUsersDb])
    (nodeCertificate "c2" "vpn " "u2") (by simp [twoUsersDb]) rfl rfl (by decide +kernel)
    (by decide +kernel)
  exact absurd huser (by decide)

end OpenvpnControl.Agentsnapshot
