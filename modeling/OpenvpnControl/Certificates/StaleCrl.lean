import OpenvpnControl.Certificates.Delivery
import OpenvpnControl.Certificates.Revoked
import OpenvpnControl.Panel.Atomicity

/-!
# Nodes with a stale revocation list

The revocation list of a node is written by a task, from the revoked rows of the root that the
settings of the node link. This file proves when a node whose list was written from other rows than
the present ones always has such a task waiting.

## Main definitions

* `revokedPairs`: the serial numbers and times a revocation list is made of.
* `CrlWorld`, `CrlOp`, `crlStep`: the panel, with what was delivered to each node.
* `NoStaleCrl`: the law.
* `CrlSafe`: the condition on a step.

## Main results

* `sameRevoked_syncIssued`, `sameRevoked_leafStored`: the revoked rows that an import keeps.
* `NoStaleCrl.step`: a step that meets the condition keeps the law.
* `no_stale_crl`: so does every run.
* `stale_crl`: an imported index takes a serial number out of the list, and no node gets a task.
-/

namespace OpenvpnControl.Certificates

open Panel (Db Certificate UniqueCerts ServerCertEnv SettingsEnv linkedRoot)
open Paneltasks (PanelAsyncTask EnqueueEnv TaskType Waiting payloadStr)
open Cert (X509 SyncEnv IssuedImport)
open Handlers (HandlerEnv Fields)

/-! ### Revoked rows -/

/-- Is the row a revoked one of the root? -/
def IsRevokedOf (r : String) (c : Certificate) : Prop := c.rootCaId = some r ∧
    c.revokedAt.isSome = true

instance (r : String) (c : Certificate) : Decidable (IsRevokedOf r c) := by
  unfold IsRevokedOf
  infer_instance

/-- The serial numbers and the times of revocation that `execCrlDeploy` reads for a root. -/
def revokedPairs (certs : List Certificate) (r : String) : Finset (String × ℤ) :=
  ((crlRows certs r).map fun row => (row.serialNumber, row.revokedAt)).toFinset

/-- The two tables have the same revoked rows of the root. -/
def SameRevoked (r : String) (certs certs' : List Certificate) : Prop :=
  ∀ c, IsRevokedOf r c → (c ∈ certs' ↔ c ∈ certs)

variable {x : X509} {db db' : Db} {r : String} {certs certs' : List Certificate}

theorem mem_revokedPairs {pair : String × ℤ} :
    pair ∈ revokedPairs certs r ↔ ∃ c ∈ certs, c.rootCaId = some r ∧ c.revokedAt = some pair.2 ∧
      c.serialNumber = pair.1 := by
  rw [revokedPairs, List.mem_toFinset, List.mem_map]
  constructor
  · rintro ⟨row, hrow, rfl⟩
    obtain ⟨c, hc, hroot, hrev, hserial, -, -⟩ := mem_crlRows.1 hrow
    exact ⟨c, hc, hroot, hrev, hserial⟩
  · rintro ⟨c, hc, hroot, hrev, hserial⟩
    exact ⟨⟨pair.1, c.commonName, c.expiresAt, pair.2⟩,
      mem_crlRows.2 ⟨c, hc, hroot, hrev, hserial, rfl, rfl⟩, rfl⟩

/-- The list is made of the revoked rows. -/
theorem SameRevoked.revokedPairs_eq (h : SameRevoked r certs certs') :
    revokedPairs certs' r = revokedPairs certs r := by
  ext pair
  rw [mem_revokedPairs, mem_revokedPairs]
  refine exists_congr fun c => ?_
  constructor
  · rintro ⟨hc, hroot, hrev, hserial⟩
    exact ⟨(h c ⟨hroot, by rw [hrev]; rfl⟩).1 hc, hroot, hrev, hserial⟩
  · rintro ⟨hc, hroot, hrev, hserial⟩
    exact ⟨(h c ⟨hroot, by rw [hrev]; rfl⟩).2 hc, hroot, hrev, hserial⟩

theorem SameRevoked.refl (r : String) (certs : List Certificate) : SameRevoked r certs certs :=
  fun _ _ => Iff.rfl

theorem sameRevoked_append {row : Certificate} (hrow : row.revokedAt = none) :
    SameRevoked r certs (certs ++ [row]) := by
  intro c hc
  rw [List.mem_append, List.mem_singleton, or_iff_left]
  rintro rfl
  rw [IsRevokedOf, hrow] at hc
  exact absurd hc.2 Bool.false_ne_true

theorem sameRevoked_updateWhere {p : Certificate → Bool} {f : Certificate → Certificate}
    (h : ∀ c ∈ certs, p c = true → ¬IsRevokedOf r c ∧ ¬IsRevokedOf r (f c)) :
    SameRevoked r certs (Rows.updateWhere p f certs) := by
  intro c hc
  rw [Rows.mem_updateWhere]
  constructor
  · rintro (⟨hmem, -⟩ | ⟨c₀, hc₀, hp, rfl⟩)
    · exact hmem
    · exact absurd hc (h c₀ hc₀ hp).2
  · intro hmem
    refine Or.inl ⟨hmem, Bool.eq_false_iff.2 fun hp => ?_⟩
    exact (h c hmem hp).1 hc

theorem sameRevoked_deleteWhere {p : Certificate → Bool}
    (h : ∀ c ∈ certs, p c = true → ¬IsRevokedOf r c) :
    SameRevoked r certs (Rows.deleteWhere p certs) := by
  intro c hc
  rw [Rows.mem_deleteWhere]
  refine ⟨And.left, fun hmem => ⟨hmem, Bool.eq_false_iff.2 fun hp => ?_⟩⟩
  exact h c hmem hp hc

theorem SameRevoked.trans {certs'' : List Certificate} (h : SameRevoked r certs certs')
    (h' : SameRevoked r certs' certs'') : SameRevoked r certs certs'' :=
  fun c hc => (h' c hc).trans (h c hc)

theorem not_isRevokedOf_of_none {c : Certificate} (h : c.revokedAt = none) : ¬IsRevokedOf r c := by
  rw [IsRevokedOf, h]
  exact fun hc => Bool.false_ne_true hc.2

/-- An update of one row, which is not a revoked one of the root before or after it. -/
theorem sameRevoked_updateRow {d : Certificate} {f : Certificate → Certificate}
    (hunique : UniqueCerts certs) (hd : d ∈ certs) (hrow : ¬IsRevokedOf r d)
    (hf : ¬IsRevokedOf r (f d)) :
    SameRevoked r certs (Rows.updateWhere (fun c => c.id = d.id) f certs) := by
  refine sameRevoked_updateWhere fun c hc hp => ?_
  obtain rfl := hunique.1.eq_of_key hc hd (of_decide_eq_true hp)
  exact ⟨hrow, hf⟩

/-! ### The revoked rows that an operation keeps -/

/-- **An import of an index keeps the revoked rows of the other roots**, and those of its own root
when its text lists none of them. -/
theorem sameRevoked_syncIssued {env : SyncEnv} {imp : IssuedImport} {text : String}
    (hunique : UniqueCerts certs)
    (h : r = imp.rootCaID → ∀ c ∈ certs, Lists env imp text c → c.revokedAt = none) :
    SameRevoked r certs (Cert.syncIssuedInventory env imp certs text).1.1 := by
  refine (Cert.syncIssuedInventory_induction
    (I := fun now => UniqueCerts now ∧ SameRevoked r certs now) ?_ ⟨hunique,
    SameRevoked.refl r certs⟩).2
  rintro e he now now' ⟨hnow, hI⟩ hchange
  refine ⟨uniqueCerts_issuedChange hnow hchange, hI.trans ?_⟩
  cases hchange with
  | same => exact SameRevoked.refl r now
  | @reactivated c serial hfind hroot hrev _ =>
    obtain ⟨hc, hlists⟩ := lists_of_find he hfind hroot
    refine sameRevoked_updateRow hnow hc (fun hrow => ?_) (not_isRevokedOf_of_none rfl)
    -- a revoked row of the root has been there from the start
    have hr : r = imp.rootCaID := by rw [← hroot, hrow.1, Option.getD_some]
    have hnone := h hr c ((hI c hrow).1 hc) hlists
    rw [hnone] at hrev
    exact Bool.false_ne_true hrev
  | renewed hfind hroot hrev _ =>
    obtain ⟨hc, -⟩ := lists_of_find he hfind hroot
    exact sameRevoked_updateRow hnow hc (not_isRevokedOf_of_none hrev)
      (not_isRevokedOf_of_none hrev)
  | created _ _ => exact sameRevoked_append rfl

/-- Does the import of a server certificate take over the row: has it the serial number, or is it a
server certificate of the node with the common name? -/
def takesOver (x : X509) (db : Db) (inp : Panel.ImportServerCertInput) (c : Certificate) : Bool :=
  match db.node inp.agentNodeID, x.parseCertificate (GoStrings.trimSpace inp.certPEM) with
  | some node, .ok leaf =>
    decide (c.serialNumber = Cert.serialHex leaf ∨
      c.commonName = Panel.serverCN leaf.subjectCN node.name inp.agentNodeID ∧
        c.agentNodeId = some inp.agentNodeID ∧ c.vpnUserId = none)
  | _, _ => false

/-- **An import of a server certificate keeps the revoked rows of a root** that it does not take
over. -/
theorem sameRevoked_importServer {env : ServerCertEnv} {inp : Panel.ImportServerCertInput}
    (hunique : UniqueCerts db.certs)
    (h : ∀ c ∈ db.certs, takesOver x db inp c = true → ¬IsRevokedOf r c)
    (hok : Panel.importServerCertificateForAgentNode x env db inp = .ok db') :
    SameRevoked r db.certs db'.certs := by
  obtain ⟨leaf, c, node, certs, hnode, hparse, -, hcn, hid, -, hserial, -, -, -, hstored, rfl⟩ :=
    Panel.importServer_of_ok hok
  have htakes : ∀ d : Certificate, takesOver x db inp d = true ↔ d.serialNumber = leaf.serial ∨
      d.commonName = leaf.cn ∧ d.agentNodeId = some leaf.agentNodeID ∧ d.vpnUserId = none := by
    intro d
    rw [takesOver, hnode, hparse, decide_eq_true_eq, hserial, hcn, hid]
  cases hstored with
  | bySerial hfind _ _ =>
    obtain ⟨hd, hdserial⟩ := Rows.mem_of_byKey_eq_some hfind
    exact sameRevoked_updateRow hunique hd (h _ hd ((htakes _).2 (Or.inl hdserial)))
      (not_isRevokedOf_of_none rfl)
  | byCN hfind _ _ =>
    obtain ⟨hd, hp⟩ := Rows.Choice.mem_of_select hfind
    exact sameRevoked_updateRow hunique hd (h _ hd ((htakes _).2 (Or.inr (of_decide_eq_true hp))))
      (not_isRevokedOf_of_none rfl)
  | inserted => exact sameRevoked_append rfl

/-! ### The law -/

/-- The root whose revocation list a node verifies its clients with: the link of its settings, where
they have a path for the list. -/
def crlRootOf (settings : Openvpn.Settings) : Option String :=
  if linkedRoot settings = "" ∨ Paneltasks.trimmedSetting settings "crl-verify" = "" then none
  else some (linkedRoot settings)

/-- The root of the stored settings of a node. -/
def crlRoot (db : Db) (node : String) : Option String := crlRootOf (db.settingsOf node)

/-- The panel, and for each node the rows that the list delivered last was made of. -/
structure CrlWorld where
  db : Db
  delivered : String → Option (Finset (String × ℤ))

/-- **No node has a stale revocation list**: where the rows of its root differ from those delivered
last, a task for the node and the root is pending or processing. -/
def NoStaleCrl (w : CrlWorld) : Prop :=
  ∀ an ∈ w.db.nodes, ∀ r ∈ crlRoot w.db an.id,
    w.delivered an.id ≠ some (revokedPairs w.db.certs r) →
      Waiting an.id .crlDeploy (NamesRoot r) w.db.tasks

instance (w : CrlWorld) : Decidable (NoStaleCrl w) := by
  unfold NoStaleCrl
  infer_instance

/-- An operation on the certificates or the settings, or one of the two steps of a task. -/
inductive CrlOp where
  | revoke (env : HandlerEnv) (id reason : String)
  | syncIssued (env : SyncEnv) (imp : IssuedImport) (text : String)
  | importServer (env : ServerCertEnv) (inp : Panel.ImportServerCertInput)
  | deleteServer (env : SettingsEnv) (agentNodeID : String)
  | removeRootCa (env : SettingsEnv) (nodeID : String) (body : Fields)
  | saveSettings (env : SettingsEnv) (nodeID : String) (body : Fields)
  | saveFirewall (env : SettingsEnv) (nodeID : String) (body : Fields)
  | claim (now : ℤ) (node id : String)
  /-- `executeTask` with a claimed task, which succeeds. -/
  | execute (env : EnqueueEnv) (now : ℤ) (id : String)

/-- What the nodes have after the execution of a task, and `none` when `execCrlDeploy` fails before
it reads the rows. -/
def CrlWorld.deliver (w : CrlWorld) (t : PanelAsyncTask) :
    Option (String → Option (Finset (String × ℤ))) :=
  if t.type = .crlDeploy then
    let rootCaID := payloadStr t.payload "rootCaId"
    let remotePath := payloadStr t.payload "remotePath"
    if rootCaID = "" ∨ remotePath = "" ∨ (w.db.root rootCaID).all fun root =>
      root.certPem = "" then none
    else some (Function.update w.delivered t.agentNodeId (some (revokedPairs w.db.certs rootCaID)))
  else some w.delivered

/-- The panel after a step, and `none` when the step cannot happen. -/
def crlStep (x : X509) (w : CrlWorld) : CrlOp → Option CrlWorld
  | .revoke env id reason => some { w with db := (CertOp.revoke env id reason).apply x w.db }
  | .syncIssued env imp text =>
    if (w.db.root imp.rootCaID).isSome then
      some { w with db := (CertOp.syncIssued env imp text).apply x w.db }
    else none
  | .importServer env inp => some { w with db := (CertOp.importServer env inp).apply x w.db }
  | .deleteServer env agentNodeID =>
    some { w with db := (CertOp.deleteServer env agentNodeID).apply x w.db }
  | .removeRootCa env nodeID body =>
    some { w with db := (CertOp.removeRootCa env nodeID body).apply x w.db }
  | .saveSettings env nodeID body =>
    some { w with db := (Panel.postOpenvpnSettingsForPanel env w.db nodeID body).db }
  | .saveFirewall env nodeID body =>
    some { w with db := (Panel.applyFirewallConfigForPanel env w.db nodeID body).1 }
  | .claim now node id =>
    (Paneltasks.claimPendingTask now w.db.tasks node id).map fun out =>
      { w with db := { w.db with tasks := out.1 } }
  | .execute env now id =>
    (Paneltasks.executeTask env now w.db.tasks id).bind fun out =>
      (w.deliver out.2).map fun delivered => ⟨{ w.db with tasks := out.1 }, delivered⟩

/-! ### The condition -/

/-- Every node that verifies its clients with the list of the root, but the one that is left out,
has a task for it waiting. -/
def Covered (db : Db) (r : String) (except : Option String) : Prop :=
  ∀ an ∈ db.nodes, some an.id ≠ except → crlRoot db an.id = some r →
    Waiting an.id .crlDeploy (NamesRoot r) db.tasks

instance (db : Db) (r : String) (except : Option String) : Decidable (Covered db r except) := by
  unfold Covered
  infer_instance

/-- Is the link of the settings the root as it is written there, without white space around it? -/
def LinksPlainly (settings : Openvpn.Settings) (r : String) : Prop :=
  (settings.get "panelRootCaId").textOf = some r

instance (settings : Openvpn.Settings) (r : String) : Decidable (LinksPlainly settings r) :=
  inferInstanceAs (Decidable (_ = _))

/-- The condition on a step. The nodes with the root of a revoked certificate link it plainly or
have a task waiting. An index lists no revoked row of its root, a server certificate takes no
revoked row over, and no revoked row is deleted, unless the nodes with the root have a task waiting.
The inserts of a save and of the enqueues are executed, and one of the two counts of a removal. The
task that is executed is for the root of its node, or another one that is waits. -/
def CrlSafe (x : X509) (w : CrlWorld) : CrlOp → Prop
  | .revoke env id _ =>
    ∀ c ∈ w.db.cert id, ∀ r ∈ c.rootCaId, CrlInserts env.taskEnv w.db.settings r ∧
      ∀ an ∈ w.db.nodes, crlRoot w.db an.id = some r →
        LinksPlainly (w.db.settingsOf an.id) r ∨ Waiting an.id .crlDeploy (NamesRoot r) w.db.tasks
  | .syncIssued env imp text =>
    (∀ c ∈ w.db.certs, Lists env imp text c → c.revokedAt = none) ∨ Covered w.db imp.rootCaID none
  | .importServer _ inp =>
    ∀ c ∈ w.db.certs, takesOver x w.db inp c = true → ∀ r ∈ c.rootCaId,
      c.revokedAt = none ∨ Covered w.db r none
  | .deleteServer env agentNodeID =>
    let node := GoStrings.trimSpace agentNodeID
    let r := linkedRoot (w.db.settingsOf node)
    (∀ type, (env.taskEnv type).insertFails = false) ∧
      ((∀ c ∈ w.db.certs, c.agentNodeId = some node → c.rootCaId = some r → c.vpnUserId = none →
          c.revokedAt = none) ∨ Covered w.db r (some node))
  | .removeRootCa env nodeID _ =>
    let node := GoStrings.trimSpace nodeID
    let r := linkedRoot (w.db.settingsOf node)
    ((∀ c ∈ w.db.certs, c.agentNodeId = some node → c.rootCaId = some r → c.revokedAt = none) ∧
        (env.settingsRefsFail = false ∨ env.certRefsFail = false)) ∨ Covered w.db r (some node)
  | .saveSettings env _ _ => (∀ type, (env.taskEnv type).insertFails = false) ∧
    env.writeError = none
  | .saveFirewall _ _ _ | .claim _ _ _ => True
  | .execute _ _ id =>
    ∀ t ∈ Rows.byKey (·.id) id w.db.tasks, t.type = .crlDeploy → ∀ r ∈ crlRoot w.db t.agentNodeId,
      NamesRoot r t.payload ∨
        Waiting t.agentNodeId .crlDeploy (NamesRoot r) (w.db.tasks.filter fun u => u.id ≠ id)

/-! ### The root of a node -/

theorem crlRootOf_eq_some {settings : Openvpn.Settings} :
    crlRootOf settings = some r ↔ linkedRoot settings = r ∧ r ≠ "" ∧
      Paneltasks.trimmedSetting settings "crl-verify" ≠ "" := by
  rw [crlRootOf]
  split_ifs with h
  · simp only [false_iff]
    rintro ⟨rfl, hroot, hpath⟩
    exact h.elim hroot hpath
  · rw [Option.some.injEq]
    constructor
    · rintro rfl
      exact ⟨rfl, fun hroot => h (Or.inl hroot), fun hpath => h (Or.inr hpath)⟩
    · exact And.left

/-- The root of a node is a trimmed text. -/
theorem trimSpace_of_crlRoot {settings : Openvpn.Settings} (h : crlRootOf settings = some r) :
    GoStrings.trimSpace r = r := by
  obtain ⟨rfl, -, -⟩ := crlRootOf_eq_some.1 h
  exact GoStrings.trimSpace_trimSpace _

/-- The material tasks of the settings have the list of the root. -/
theorem mem_materialSyncTasks_crl {settings : Openvpn.Settings} (h : crlRootOf settings = some r) :
    ∃ payload, (TaskType.crlDeploy, payload) ∈ Paneltasks.materialSyncTasks settings ∧
      NamesRoot r payload := by
  obtain ⟨hlink, hroot, hpath⟩ := crlRootOf_eq_some.1 h
  refine ⟨.ofList [("rootCaId", r),
    ("remotePath", Paneltasks.trimmedSetting settings "crl-verify")], ?_,
    (payloadStr_of_lookup rfl).trans (trimSpace_of_crlRoot h)⟩
  have hlink' : Paneltasks.trimmedSetting settings "panelRootCaId" = r := hlink
  simp only [Paneltasks.materialSyncTasks, hlink', List.mem_append, if_pos (And.intro hroot hpath),
    List.mem_singleton, true_or, or_true]

/-- A node with a root has a row of settings. -/
theorem exists_row_of_crlRoot {node : String} (h : crlRoot db node = some r) :
    ∃ row ∈ db.settings, row.agentNodeId = node ∧ row.settings = db.settingsOf node := by
  rw [crlRoot, Db.settingsOf, Db.storedSettings, Db.loadSettingsRow] at h
  cases hrow : Rows.byKey (·.agentNodeId) node db.settings with
  | none =>
    rw [hrow] at h
    have hempty : crlRootOf ∅ = none := by decide +kernel
    exact absurd (h.symm.trans hempty) (Option.some_ne_none r)
  | some row =>
    obtain ⟨hmem, hnode⟩ := Rows.mem_of_byKey_eq_some hrow
    refine ⟨row, hmem, hnode, ?_⟩
    rw [Db.settingsOf, Db.storedSettings, Db.loadSettingsRow, hrow]
    rfl

/-- The enqueue for the root selects the row of a node that links it plainly. -/
theorem isSome_crlTarget {row : Paneltasks.AgentNodeOpenvpnSettings}
    (h : crlRootOf row.settings = some r)
    (hplain : LinksPlainly row.settings r) : (Paneltasks.crlTarget r row).isSome = true := by
  obtain ⟨-, -, hpath⟩ := crlRootOf_eq_some.1 h
  have htext : (row.settings.get "panelRootCaId").textOf = some r := hplain
  rw [Paneltasks.crlTarget, if_pos htext]
  dsimp only
  rw [if_neg hpath]
  rfl

/-! ### What a step keeps -/

/-- What a step that delivers nothing leaves: for each node with a root a task waits, or the root
and its revoked rows are those of before and a task that waited still does. -/
structure CrlKept (db db' : Db) : Prop where
  keyed : Keyed db'
  nodes : db'.nodes = db.nodes
  kept : ∀ an ∈ db.nodes, ∀ r, crlRoot db' an.id = some r →
    Waiting an.id .crlDeploy (NamesRoot r) db'.tasks ∨
      crlRoot db an.id = some r ∧ SameRevoked r db.certs db'.certs ∧
        (Waiting an.id .crlDeploy (NamesRoot r) db.tasks →
          Waiting an.id .crlDeploy (NamesRoot r) db'.tasks)

theorem CrlKept.refl (h : Keyed db) : CrlKept db db :=
  ⟨h, rfl, fun _ _ r hroot => Or.inr ⟨hroot, SameRevoked.refl r _, id⟩⟩

/-- Such a step keeps the law. -/
theorem NoStaleCrl.kept {w : CrlWorld} (h : NoStaleCrl w) (hkept : CrlKept w.db db') :
    NoStaleCrl { w with db := db' } := by
  intro an han r hroot hstale
  dsimp only at han hroot hstale ⊢
  rw [hkept.nodes] at han
  rcases hkept.kept an han r hroot with hwaits | ⟨hold, hsame, hwaits⟩
  · exact hwaits
  · rw [hsame.revokedPairs_eq] at hstale
    exact hwaits (h an han r hold hstale)

/-! ### Certificates -/

/-- **A revocation.** -/
theorem crlKept_revoke {env : HandlerEnv} {id reason : String} {w : CrlWorld} (hkeyed : Keyed w.db)
    (hsafe : CrlSafe x w (.revoke env id reason)) :
    CrlKept w.db ((CertOp.revoke env id reason).apply x w.db) := by
  rcases Refusals.settle_cases w.db (Handlers.Certificates.revoke env w.db id reason) with hdb | hok
  · rw [CertOp.apply, hdb]
    exact .refl hkeyed
  · rw [CertOp.apply]
    obtain ⟨existing, text, hfind, hdb⟩ := Handlers.Certificates.revoke_of_ok hok
    obtain ⟨hmem, hid⟩ := Rows.mem_of_byKey_eq_some hfind
    rw [hdb]
    generalize hcerts : Rows.updateWhere (fun c => c.id = id)
      (Cert.revokeRow env.now text) w.db.certs = certs
    have hunique : UniqueCerts certs := by
      rw [← hcerts]
      exact hkeyed.certs.updateWhere (fun _ => rfl) fun _ => rfl
    refine ⟨((hkeyed.withCerts hunique).enqueueCrlDeploy env _).enqueueSnapshots _, ?_, ?_⟩
    · rw [nodes_enqueueSnapshots]
      cases existing.rootCaId <;> rfl
    · intro an han r hroot
      rw [crlRoot, Db.settingsOf, Db.storedSettings, Db.loadSettingsRow,
        Db.settings_enqueueSnapshots] at hroot
      have hold : crlRoot w.db an.id = some r := by
        rw [← hroot]
        cases existing.rootCaId <;> rfl
      -- the enqueue for the root of the certificate keeps the tasks that wait
      have hkeep : Waiting an.id .crlDeploy (NamesRoot r) w.db.tasks →
          Waiting an.id .crlDeploy (NamesRoot r) (Handlers.Certificates.enqueueCrlDeploy
            { w.db with certs := certs } env existing.rootCaId).tasks := by
        intro hwaits
        cases hrootCa : existing.rootCaId with
        | none => exact hwaits
        | some rootCaID =>
          exact Waiting.enqueueCrlDeploy hwaits (hsafe existing hfind rootCaID hrootCa).1
      by_cases hrootCa : existing.rootCaId = some r
      · -- the node is one the revocation is for
        refine Or.inl (Waiting.enqueueSnapshots ?_ (by decide) _ _)
        obtain ⟨hins, hlinks⟩ := hsafe existing hfind r hrootCa
        rcases hlinks an han hold with hplain | hwaits
        · obtain ⟨row, hrow, hnode, hsettings⟩ := exists_row_of_crlRoot hold
          rw [← hsettings] at hplain
          have hrowRoot : crlRootOf row.settings = some r := by
            rw [hsettings]
            exact hold
          have hadded :=
            waiting_enqueueCrlDeploy w.db.tasks (crlRootOf_eq_some.1 hrowRoot).2.1 hins hrow
            (isSome_crlTarget hrowRoot hplain)
          rw [hnode, trimSpace_of_crlRoot hrowRoot] at hadded
          rw [hrootCa]
          exact hadded
        · exact hkeep hwaits
      · refine Or.inr ⟨hold, ?_, fun hwaits => Waiting.enqueueSnapshots
          (hkeep hwaits) (by decide) _ _⟩
        rw [Db.certs_enqueueSnapshots, certs_enqueueCrlDeploy, ← hcerts]
        refine sameRevoked_updateWhere fun c hc hp => ?_
        -- the row is the one that was read
        obtain rfl := hkeyed.certs.1.eq_of_key hc hmem ((of_decide_eq_true hp).trans hid.symm)
        exact ⟨fun hrow => hrootCa hrow.1, fun hrow => hrootCa hrow.1⟩

/-- An operation that leaves the settings and the queue alone. -/
theorem crlKept_withCerts {certs : List Certificate} (hkeyed : Keyed db)
    (hunique : UniqueCerts certs) (h : ∀ r, SameRevoked r db.certs certs ∨ Covered db r none) :
    CrlKept db { db with certs := certs } := by
  refine ⟨hkeyed.withCerts hunique, rfl, fun an han r hroot => ?_⟩
  rcases h r with hsame | hcovered
  · exact Or.inr ⟨hroot, hsame, id⟩
  · exact Or.inl (hcovered an han (Option.some_ne_none _) hroot)

/-- **An import of an index.** -/
theorem crlKept_syncIssued {env : SyncEnv} {imp : IssuedImport} {text : String} {w : CrlWorld}
    (hkeyed : Keyed w.db) (hsafe : CrlSafe x w (.syncIssued env imp text)) :
    CrlKept w.db ((CertOp.syncIssued env imp text).apply x w.db) := by
  refine crlKept_withCerts hkeyed
    ((CertOp.syncIssued env imp text).uniqueCerts_apply (x := x) hkeyed.certs) fun r => ?_
  by_cases hr : r = imp.rootCaID
  · rcases hsafe with hnone | hcovered
    · exact Or.inl (sameRevoked_syncIssued hkeyed.certs fun _ => hnone)
    · rw [hr]
      exact Or.inr hcovered
  · exact Or.inl (sameRevoked_syncIssued hkeyed.certs fun heq => absurd heq hr)

/-- **An import of a server certificate.** -/
theorem crlKept_importServer {env : ServerCertEnv} {inp : Panel.ImportServerCertInput}
    {w : CrlWorld} (hkeyed : Keyed w.db) (hsafe : CrlSafe x w (.importServer env inp)) :
    CrlKept w.db ((CertOp.importServer env inp).apply x w.db) := by
  have hunique := (CertOp.importServer env inp).uniqueCerts_apply (x := x) hkeyed.certs
  rw [CertOp.apply] at hunique ⊢
  rcases Refusals.settle_cases w.db
    (Panel.importServerCertificateForAgentNode x env w.db inp) with hdb | hok
  · rw [hdb]
    exact .refl hkeyed
  · generalize Refusals.settle w.db (Panel.importServerCertificateForAgentNode x env w.db inp) =
      db' at *
    have hcerts : db' = { w.db with certs := db'.certs } := by
      obtain ⟨_, _, _, certs, -, -, -, -, -, -, -, -, -, -, -, rfl⟩ := Panel.importServer_of_ok hok
      rfl
    rw [hcerts]
    refine crlKept_withCerts hkeyed hunique fun r => ?_
    by_cases htaken : ∃ c ∈ w.db.certs, takesOver x w.db inp c = true ∧ IsRevokedOf r c
    · obtain ⟨c, hc, htakes, hroot, hrev⟩ := htaken
      rcases hsafe c hc htakes r hroot with hnone | hcovered
      · rw [hnone] at hrev
        exact absurd hrev Bool.false_ne_true
      · exact Or.inr hcovered
    · refine Or.inl (sameRevoked_importServer hkeyed.certs (fun c hc htakes hrow => htaken ?_) hok)
      exact ⟨c, hc, htakes, hrow⟩

/-! ### Settings -/

/-- The settings of a node after those of another one are stored. -/
theorem crlRoot_upsert_of_ne (db : Db) {node k : String} {settings : Openvpn.Settings}
    {cp : Option String}
    (h : k ≠ node) : crlRoot (db.upsertSettings node settings cp) k = crlRoot db k := by
  rw [crlRoot, Db.settingsOf_upsertSettings, if_neg h, crlRoot]

/-- What the enqueue of the material of a node leaves, once the settings are stored. -/
theorem crlKept_material {env : TaskType → EnqueueEnv} (node : String) (settings : Openvpn.Settings)
    (cp : Option String) {certs : List Certificate} (hkeyed : Keyed db)
    (hunique : UniqueCerts certs)
    (hins : ∀ type, (env type).insertFails = false)
    (h : ∀ an ∈ db.nodes, an.id ≠ node → ∀ r, crlRoot db an.id = some r →
      SameRevoked r db.certs certs ∨ Waiting an.id .crlDeploy (NamesRoot r) db.tasks) :
    CrlKept db { ({ db with certs := certs } : Db).upsertSettings node settings cp with
      tasks := (Paneltasks.enqueueOpenvpnMaterialSyncTasks env db.tasks node settings).1 } := by
  refine ⟨⟨hunique, Paneltasks.hasKey_enqueueMaterial hkeyed.tasks, hkeyed.nodes⟩, rfl,
    fun an han r hroot => ?_⟩
  by_cases hnode : an.id = node
  · subst hnode
    have hstored : crlRootOf settings = some r := by
      have hset := Db.settingsOf_upsertSettings { db with certs := certs } an.id settings cp an.id
      rw [if_pos rfl] at hset
      rw [← hset]
      exact hroot
    obtain ⟨payload, hmem, hnames⟩ := mem_materialSyncTasks_crl hstored
    exact Or.inl (Paneltasks.waiting_enqueueMaterial (hkeyed.nodes an han) hins hmem hnames)
  · have hold : crlRoot db an.id = some r := by
      rw [← hroot]
      exact (crlRoot_upsert_of_ne { db with certs := certs } hnode).symm
    have hkeep : Waiting an.id .crlDeploy (NamesRoot r) db.tasks →
        Waiting an.id .crlDeploy (NamesRoot r)
          (Paneltasks.enqueueOpenvpnMaterialSyncTasks env db.tasks node settings).1 :=
      fun hwaits => hwaits.enqueueMaterial fun heq => absurd heq.symm hnode
    rcases h an han hnode r hold with hsame | hwaits
    · exact Or.inr ⟨hold, hsame, hkeep⟩
    · exact Or.inl (hkeep hwaits)

/-- **A deleted server certificate.** -/
theorem crlKept_deleteServer {env : SettingsEnv} {agentNodeID : String} {w : CrlWorld}
    (hkeyed : Keyed w.db) (hsafe : CrlSafe x w (.deleteServer env agentNodeID)) :
    CrlKept w.db ((CertOp.deleteServer env agentNodeID).apply x w.db) := by
  rw [CertOp.apply]
  cases hdel : Panel.deleteServerCertificateForAgentNode w.db env agentNodeID with
  | error e => exact .refl hkeyed
  | ok out =>
    obtain ⟨db', queued⟩ := out
    obtain ⟨-, -, tasks, htasks, rfl⟩ := Panel.deleteServer_of_ok hdel
    obtain ⟨hins, hrows⟩ := hsafe
    have htasks' : tasks = (Paneltasks.enqueueOpenvpnMaterialSyncTasks env.taskEnv w.db.tasks
        (GoStrings.trimSpace agentNodeID)
        (GoMap.overlay (w.db.settingsOf (GoStrings.trimSpace agentNodeID))
          Panel.unlinkPatch)).1 := by
      rw [htasks]
    rw [htasks']
    refine crlKept_material _ _ _ hkeyed hkeyed.certs.deleteWhere hins fun an han hne r hroot => ?_
    by_cases hr : r = linkedRoot (w.db.settingsOf (GoStrings.trimSpace agentNodeID))
    · rcases hrows with hnone | hcovered
      · refine Or.inl (sameRevoked_deleteWhere fun c hc hp => not_isRevokedOf_of_none ?_)
        obtain ⟨hnode, hrootCa, huser⟩ := of_decide_eq_true hp
        exact hnone c hc hnode hrootCa huser
      · rw [hr] at hroot ⊢
        exact Or.inr (hcovered an han (fun heq => hne (Option.some.inj heq)) hroot)
    · refine Or.inl (sameRevoked_deleteWhere fun c _ hp hrow => hr ?_)
      exact Option.some.inj (hrow.1.symm.trans (of_decide_eq_true hp).2.1)

/-- The rows that detaching a root from a node leaves to the other nodes. -/
theorem sameRevoked_detached {env : SettingsEnv} {node rootID : String} {certs : List Certificate}
    {an : Panel.AgentNode} (hne : an.id ≠ node) (hroot : crlRoot db an.id = some r)
    (hcerts : certs = (if Panel.rootInUse env (Panel.detachRoot db node rootID) rootID = true ∨
        env.rootDeleteFails = true then Panel.detachRoot db node rootID
      else Panel.deleteRoot (Panel.detachRoot db node rootID) rootID).certs)
    (hrows : r = rootID → (∀ c ∈ db.certs, c.agentNodeId = some node → c.rootCaId = some rootID →
        c.revokedAt = none) ∧ (env.settingsRefsFail = false ∨ env.certRefsFail = false)) :
    SameRevoked r db.certs certs := by
  have hdetach : SameRevoked r db.certs (Panel.detachRoot db node rootID).certs := by
    refine sameRevoked_deleteWhere fun c hc hp hrow => ?_
    obtain ⟨hnode, hrootCa⟩ := of_decide_eq_true hp
    have hr : r = rootID := Option.some.inj (hrow.1.symm.trans hrootCa)
    exact not_isRevokedOf_of_none ((hrows hr).1 c hc hnode hrootCa) hrow
  rw [hcerts]
  split_ifs with huse
  · exact hdetach
  · refine hdetach.trans (sameRevoked_updateWhere fun c hc hp => ⟨fun hrow => huse (Or.inl ?_), ?_⟩)
    · have hr : r = rootID := Option.some.inj (hrow.1.symm.trans (of_decide_eq_true hp))
      rw [Panel.rootInUse, Bool.or_eq_true, Bool.and_eq_true, Bool.and_eq_true]
      rcases (hrows hr).2 with hsettings | hcertRefs
      · -- the node links the root
        refine Or.inl ⟨by rw [hsettings]; rfl, List.any_eq_true.2 ?_⟩
        have hstill : crlRoot (Panel.detachRoot db node rootID) an.id = some r := by
          rw [← hroot]
          exact crlRoot_upsert_of_ne { db with certs := _ } hne
        obtain ⟨row, hrow', -, hset⟩ := exists_row_of_crlRoot hstill
        refine ⟨row, hrow', decide_eq_true ?_⟩
        rw [hset, ← hr]
        exact (crlRootOf_eq_some.1 hstill).1
      · exact Or.inr ⟨by rw [hcertRefs]; rfl, List.any_eq_true.2 ⟨c, hc, hp⟩⟩
    · exact fun hrow => absurd hrow.1 (Option.some_ne_none r).symm

/-- Detached settings link no root. -/
theorem crlRootOf_detachedSettings (settings : Openvpn.Settings) :
    crlRootOf (Panel.detachedSettings settings) = none := by
  rw [crlRootOf, if_pos (Or.inl (Panel.linkedRoot_detachedSettings settings))]

/-- What the end of `RemoveRootCaForPanel` leaves to the other nodes. -/
theorem crlKept_afterDetach {env : SettingsEnv} {node rootID : String} {next : Openvpn.Settings}
    (hkeyed : Keyed db)
    (hunique : UniqueCerts
      (Panel.afterDetach env (Panel.detachRoot db node rootID) node rootID next).1.certs)
    (hrows : (∀ c ∈ db.certs, c.agentNodeId = some node → c.rootCaId =
        some rootID → c.revokedAt = none) ∧
        (env.settingsRefsFail = false ∨ env.certRefsFail = false) ∨ Covered db rootID (some node)) :
    CrlKept db (Panel.afterDetach env (Panel.detachRoot db node rootID) node rootID next).1 := by
  rw [Panel.afterDetach] at hunique ⊢
  generalize hafter : (if Panel.rootInUse env (Panel.detachRoot db node rootID) rootID = true ∨
      env.rootDeleteFails = true then Panel.detachRoot db node rootID
    else Panel.deleteRoot (Panel.detachRoot db node rootID) rootID) = after at hunique ⊢
  have htables : after.settings = (Panel.detachRoot db node rootID).settings ∧
      after.tasks = db.tasks ∧ after.nodes = db.nodes := by
    split_ifs at hafter <;> subst hafter <;> exact ⟨rfl, rfl, rfl⟩
  obtain ⟨hsettings, htasks, hnodes⟩ := htables
  refine ⟨⟨hunique, ?_, ?_⟩, hnodes, fun an han r hroot => ?_⟩
  · dsimp only
    rw [htasks]
    exact Paneltasks.hasKey_enqueueMaterial hkeyed.tasks
  · dsimp only
    rw [hnodes]
    exact hkeyed.nodes
  · have hstored : crlRoot (Panel.detachRoot db node rootID) an.id = some r := by
      rw [← hroot, crlRoot, crlRoot, Db.settingsOf, Db.settingsOf,
        Db.storedSettings, Db.storedSettings, Db.loadSettingsRow, Db.loadSettingsRow, hsettings]
    by_cases hne : an.id = node
    · -- the node itself has no root any more
      rw [crlRoot, Panel.detachRoot, Db.settingsOf_upsertSettings, if_pos hne,
        crlRootOf_detachedSettings] at hstored
      exact absurd hstored.symm (Option.some_ne_none r)
    · have hold : crlRoot db an.id = some r := by
        rw [← hstored]
        exact (crlRoot_upsert_of_ne { db with certs := _ } hne).symm
      have hkeep : ∀ settings, Waiting an.id .crlDeploy (NamesRoot r) db.tasks →
          Waiting an.id .crlDeploy (NamesRoot r)
            (Paneltasks.enqueueOpenvpnMaterialSyncTasks env.taskEnv
              after.tasks node settings).1 := by
        rw [htasks]
        exact fun _ hwaits => hwaits.enqueueMaterial fun heq => absurd heq.symm hne
      have hcerts := congrArg Db.certs hafter.symm
      rcases hrows with hrows | hcovered
      · exact Or.inr ⟨hold, sameRevoked_detached hne hold hcerts fun _ => hrows, hkeep _⟩
      · by_cases hr : r = rootID
        · subst hr
          exact Or.inl (hkeep _ (hcovered an han (fun heq => hne (Option.some.inj heq)) hold))
        · exact Or.inr ⟨hold, sameRevoked_detached hne hold hcerts fun heq =>
            absurd heq hr, hkeep _⟩

/-- **A removed root.** -/
theorem crlKept_removeRootCa {env : SettingsEnv} {nodeID : String} {body : Fields} {w : CrlWorld}
    (hkeyed : Keyed w.db) (hsafe : CrlSafe x w (.removeRootCa env nodeID body)) :
    CrlKept w.db ((CertOp.removeRootCa env nodeID body).apply x w.db) := by
  have hunique := (CertOp.removeRootCa env nodeID body).uniqueCerts_apply (x := x) hkeyed.certs
  rw [CertOp.apply] at hunique ⊢
  rcases Panel.removeRootCa_cases env w.db nodeID body with ⟨-, hdb⟩ | ⟨-, -, hdb⟩
  · rw [hdb]
    exact .refl hkeyed
  · rw [hdb] at hunique ⊢
    exact crlKept_afterDetach hkeyed hunique hsafe

/-- The enqueue of the material ends with success when every insert is executed. -/
theorem enqueueMaterial_succeeds {env : TaskType → EnqueueEnv} (node : String)
    (tasks : List PanelAsyncTask) (settings : Openvpn.Settings)
    (hins : ∀ type, (env type).insertFails = false) :
    (Paneltasks.enqueueOpenvpnMaterialSyncTasks env tasks node settings).2 = true := by
  rw [Paneltasks.enqueueOpenvpnMaterialSyncTasks]
  split_ifs with hnode
  · rfl
  · rw [Panel.upsertAll_succeeds hnode, List.all_eq_true]
    intro task _
    rw [hins, Bool.not_false]

/-- A save is refused before it writes, or it goes through. -/
theorem post_cases {env : SettingsEnv} (db : Db) (nodeID : String) (body : Fields)
    (hins : ∀ type, (env.taskEnv type).insertFails = false) (hwrite : env.writeError = none) :
    (Panel.postOpenvpnSettingsForPanel env db nodeID body).db = db ∨
      (Panel.postOpenvpnSettingsForPanel env db nodeID body).result.status = 200 := by
  have hstore : ∀ node merged, (Panel.storePosted env db node merged).2.status = 200 := by
    intro node merged
    have hok := enqueueMaterial_succeeds node db.tasks merged hins
    rw [Panel.storePosted]
    generalize Paneltasks.enqueueOpenvpnMaterialSyncTasks env.taskEnv db.tasks
      node merged = out at hok ⊢
    obtain ⟨tasks, ok⟩ := out
    obtain rfl : ok = true := hok
    rw [hwrite]
  simp only [Panel.postOpenvpnSettingsForPanel]
  cases env.nodeError with
  | some text => exact Or.inl rfl
  | none =>
    cases db.node nodeID with
    | none => exact Or.inl rfl
    | some an =>
      cases Json.field body "settings" with
      | obj fields =>
        dsimp only
        generalize (if env.settingsError.isSome = true then ∅ else db.settingsOf an.id) = prev
        cases Panel.postPayload prev (GoMap.ofList fields) with
        | none => exact Or.inr (hstore _ _)
        | some payload =>
          cases env.agentWrite with
          | error e => exact Or.inl rfl
          | ok data => exact Or.inr (hstore _ _)
      | _ => exact Or.inl rfl

/-- The enqueue of the snapshot of a node, after a step. -/
theorem CrlKept.enqueueSnapshot (h : CrlKept db db') (env : EnqueueEnv) (node : String) :
    CrlKept db (db'.enqueueSnapshot env node) := by
  have hkeep : ∀ {k r}, Waiting k .crlDeploy (NamesRoot r) db'.tasks →
      Waiting k .crlDeploy (NamesRoot r) (db'.enqueueSnapshot env node).tasks :=
    fun hwaits => hwaits.upsertPendingTask fun _ => by decide
  refine ⟨⟨h.keyed.certs, Paneltasks.hasKey_upsertPendingTask h.keyed.tasks,
    h.keyed.nodes⟩, h.nodes, fun an han r hroot => ?_⟩
  rcases h.kept an han r hroot with hwaits | ⟨hold, hsame, hwaits⟩
  · exact Or.inl (hkeep hwaits)
  · exact Or.inr ⟨hold, hsame, fun hbefore => hkeep (hwaits hbefore)⟩

/-- **A save of the settings.** -/
theorem crlKept_saveSettings {env : SettingsEnv} {nodeID : String} {body : Fields} {w : CrlWorld}
    (hkeyed : Keyed w.db) (hsafe : CrlSafe x w (.saveSettings env nodeID body)) :
    CrlKept w.db (Panel.postOpenvpnSettingsForPanel env w.db nodeID body).db := by
  obtain ⟨hins, hwrite⟩ := hsafe
  rcases post_cases w.db nodeID body hins hwrite with hdb | hok
  · rw [hdb]
    exact .refl hkeyed
  · obtain ⟨fields, tasks, -, htasks, hdb⟩ := Panel.post_of_ok hok
    have hkept := crlKept_material nodeID
      (Panel.postedSettings (env.prev w.db nodeID) (GoMap.ofList fields)) none
      hkeyed hkeyed.certs hins fun an _ _ r _ => Or.inl (SameRevoked.refl r _)
    rw [htasks] at hkept
    rw [hdb]
    exact hkept.enqueueSnapshot _ _

/-- The tunnel firewall has no part in the root of a node. -/
theorem crlRootOf_firewallSettings (settings : Openvpn.Settings) (body : Fields) :
    crlRootOf (Panel.firewallSettings settings body) = crlRootOf settings := by
  have hget : ∀ key, key ∈ ["panelRootCaId", "crl-verify"] →
      (Panel.firewallSettings settings body).get key = settings.get key := by
    intro key hkey
    rw [Panel.firewallSettings, GoMap.get, GoMap.lookup_overlay, GoMap.get, Panel.firewallPatch]
    have hnone : ∀ v₁ v₂ v₃ : Json, (GoMap.ofList [("panelFirewallTunnelDefaultPolicy", v₁),
        ("panelFirewallTunnelRules", v₂),
        ("panelFirewallTunnelNatRules", v₃)]).lookup key = none := by
      intro v₁ v₂ v₃
      simp only [List.mem_cons, List.not_mem_nil, or_false] at hkey
      rcases hkey with rfl | rfl <;> rfl
    dsimp only
    rw [hnone, Option.none_or]
  rw [crlRootOf, crlRootOf, linkedRoot, linkedRoot, Paneltasks.trimmedSetting,
    Paneltasks.trimmedSetting, Paneltasks.trimmedSetting, Paneltasks.trimmedSetting,
    hget _ (by simp), hget _ (by simp)]

/-- A firewall is refused before it is written, or saved. -/
theorem applyFirewall_cases (env : SettingsEnv) (db : Db) (nodeID : String) (body : Fields) :
    (Panel.applyFirewallConfigForPanel env db nodeID body).1 = db ∨
      (Panel.applyFirewallConfigForPanel env db nodeID body).2.status = 200 := by
  simp only [Panel.applyFirewallConfigForPanel]
  cases env.nodeError with
  | some text => exact Or.inl rfl
  | none =>
    cases db.node nodeID with
    | none => exact Or.inl rfl
    | some an =>
      cases env.settingsError with
      | some text => exact Or.inl rfl
      | none =>
        cases env.writeError with
        | some text => exact Or.inl rfl
        | none => exact Or.inr rfl

/-- **A save of the tunnel firewall.** -/
theorem crlKept_saveFirewall {env : SettingsEnv} {nodeID : String} {body : Fields}
    (hkeyed : Keyed db) :
    CrlKept db (Panel.applyFirewallConfigForPanel env db nodeID body).1 := by
  rcases applyFirewall_cases env db nodeID body with hdb | hok
  · rw [hdb]
    exact .refl hkeyed
  · rw [Panel.applyFirewall_of_ok hok]
    have hkept : CrlKept db
        (db.upsertSettings nodeID (Panel.firewallSettings (db.settingsOf nodeID) body) none) := by
      refine ⟨⟨hkeyed.certs, hkeyed.tasks, hkeyed.nodes⟩, rfl, fun an _ r hroot => ?_⟩
      refine Or.inr ⟨?_, SameRevoked.refl r _, id⟩
      rw [crlRoot, Db.settingsOf_upsertSettings] at hroot
      split_ifs at hroot with hnode
      · rw [crlRootOf_firewallSettings] at hroot
        rw [crlRoot, hnode]
        exact hroot
      · exact hroot
    exact hkept.enqueueSnapshot _ _

/-! ### Tasks -/

/-- **A claim.** -/
theorem crlKept_claim {now : ℤ} {node id : String} {out : List PanelAsyncTask × PanelAsyncTask}
    (hkeyed : Keyed db) (hclaim : Paneltasks.claimPendingTask now db.tasks node id = some out) :
    CrlKept db { db with tasks := out.1 } := by
  rw [Paneltasks.claimPendingTask_fst hclaim]
  refine ⟨⟨hkeyed.certs, Paneltasks.hasKey_markProcessing hkeyed.tasks now id, hkeyed.nodes⟩, rfl,
    fun an _ r hroot => Or.inr ⟨hroot, SameRevoked.refl r _, fun hwaits =>
    hwaits.markProcessing now id⟩⟩

/-- **An execution.** -/
theorem NoStaleCrl.execute {w w' : CrlWorld} {env : EnqueueEnv} {now : ℤ} {id : String}
    (h : NoStaleCrl w) (hkeyed : Keyed w.db) (hsafe : CrlSafe x w (.execute env now id))
    (hstep : crlStep x w (.execute env now id) = some w') : Keyed w'.db ∧ NoStaleCrl w' := by
  rw [crlStep, Option.bind_eq_some_iff] at hstep
  obtain ⟨⟨tasks, t⟩, hexec, hdeliver⟩ := hstep
  obtain ⟨delivered, hdelivered, rfl⟩ := Option.map_eq_some_iff.1 hdeliver
  obtain ⟨hmem, rfl, -, -⟩ := Paneltasks.executeTask_eq_some hexec
  refine ⟨⟨hkeyed.certs, Paneltasks.hasKey_executeTask hkeyed.tasks hexec, hkeyed.nodes⟩,
    fun an han r hroot hstale => ?_⟩
  have hwaits : Waiting an.id .crlDeploy (NamesRoot r)
      (w.db.tasks.filter fun u => u.id ≠ t.id) := by
    by_cases hown : t.type = .crlDeploy ∧ t.agentNodeId = an.id
    · -- the list of the node itself is written
      obtain ⟨htype, hnode⟩ := hown
      have hfind := (Rows.byKey_eq_some hkeyed.tasks).2 ⟨hmem, rfl⟩
      rcases hsafe t hfind htype r (by rw [hnode]; exact hroot) with hnames | hbeside
      · rw [CrlWorld.deliver, if_pos htype] at hdelivered
        dsimp only at hdelivered
        split_ifs at hdelivered
        obtain rfl := Option.some.inj hdelivered
        have hpayload : payloadStr t.payload "rootCaId" = r := hnames
        dsimp only at hstale
        rw [← hnode, Function.update_self, hpayload] at hstale
        exact absurd rfl hstale
      · rw [← hnode]
        exact hbeside
    · have hsame : delivered an.id = w.delivered an.id := by
        rw [CrlWorld.deliver] at hdelivered
        split_ifs at hdelivered with htype
        · dsimp only at hdelivered
          split_ifs at hdelivered
          obtain rfl := Option.some.inj hdelivered
          exact Function.update_of_ne (fun hnode => hown ⟨htype, hnode.symm⟩) _ _
        · exact congrFun (Option.some.inj hdelivered).symm an.id
      dsimp only at hstale
      rw [hsame] at hstale
      exact (h an han r hroot hstale).beside hkeyed.tasks hmem fun hnode htype =>
        hown ⟨htype, hnode⟩
  exact hwaits.execute (by decide) hexec

/-! ### Runs -/

/-- **A step that meets the condition** keeps the law. -/
theorem NoStaleCrl.step {w w' : CrlWorld} {op : CrlOp} (h : Keyed w.db ∧ NoStaleCrl w)
    (hsafe : CrlSafe x w op) (hstep : crlStep x w op = some w') : Keyed w'.db ∧ NoStaleCrl w' := by
  obtain ⟨hkeyed, h⟩ := h
  have hkept : ∀ {db'}, CrlKept w.db db' → Keyed db' ∧ NoStaleCrl { w with db := db' } :=
    fun hk => ⟨hk.keyed, h.kept hk⟩
  cases op with
  | revoke env id reason =>
    cases hstep
    exact hkept (crlKept_revoke hkeyed hsafe)
  | syncIssued env imp text =>
    rw [crlStep] at hstep
    split_ifs at hstep
    cases hstep
    exact hkept (crlKept_syncIssued hkeyed hsafe)
  | importServer env inp =>
    cases hstep
    exact hkept (crlKept_importServer hkeyed hsafe)
  | deleteServer env agentNodeID =>
    cases hstep
    exact hkept (crlKept_deleteServer hkeyed hsafe)
  | removeRootCa env nodeID body =>
    cases hstep
    exact hkept (crlKept_removeRootCa hkeyed hsafe)
  | saveSettings env nodeID body =>
    cases hstep
    exact hkept (crlKept_saveSettings hkeyed hsafe)
  | saveFirewall env nodeID body =>
    cases hstep
    exact hkept (crlKept_saveFirewall hkeyed)
  | claim now node id =>
    obtain ⟨out, hclaim, rfl⟩ := Option.map_eq_some_iff.1 hstep
    exact hkept (crlKept_claim hkeyed hclaim)
  | execute env now id => exact h.execute hkeyed hsafe hstep

/-- **No node is left with a stale revocation list** by a run whose steps meet the condition. The
steps are the operations on certificates and settings, the imports, and the claim and the execution
of a task; a delivered list is that of the rows at its execution. -/
theorem no_stale_crl {w w' : CrlWorld} {ops : List CrlOp} (hkeyed : Keyed w.db) (h : NoStaleCrl w)
    (hok : Runs.Meets (crlStep x) (CrlSafe x) w ops) (hrun : Runs.run (crlStep x) w ops = some w') :
    NoStaleCrl w' :=
  (Runs.run_invariant_of_meets (I := fun w => Keyed w.db ∧ NoStaleCrl w)
    (fun _ _ _ hI hsafe hstep => NoStaleCrl.step hI hsafe hstep) ⟨hkeyed, h⟩ hok hrun).2

/-- Settings that link the root, with a path for its list. -/
private def listSettings : Openvpn.Settings :=
  .ofList [("panelRootCaId", .str "r1"), ("crl-verify", .str "/etc/openvpn/crl.pem")]

/-- Two nodes that verify their clients with the list of one root. -/
private def verifyingNodes (db : Db) : Db :=
  { db with settings := [⟨"n1", listSettings, none⟩, ⟨"n2", listSettings, none⟩] }

/-- A server certificate that is not revoked, and the empty list on both nodes. -/
private def emptyLists : CrlWorld :=
  ⟨verifyingNodes ((importServerPEM "vpn").apply Cert.sampleX509 linkedNodes), fun _ => some ∅⟩

/-- The certificate is revoked, and the list of the second node is written. -/
private def revokeAndDeploy : List CrlOp :=
  [.revoke quietEnv "k" "lost key", .claim 1001 "n2" "kk", .execute Paneltasks.longerIds 1002 "kk"]

theorem no_stale_crl_revokeAndDeploy :
    ∃ w, Runs.run (crlStep Cert.sampleX509) emptyLists revokeAndDeploy = some w ∧ NoStaleCrl w := by
  obtain ⟨w, hrun⟩ :=
    Option.isSome_iff_exists.1 (show (Runs.run (crlStep Cert.sampleX509) emptyLists
    revokeAndDeploy).isSome = true by decide +kernel)
  refine ⟨w, hrun, no_stale_crl (by decide +kernel) (by decide +kernel) ?_ hrun⟩
  refine ⟨by unfold CrlSafe; decide +kernel, ?_⟩
  rintro w₁ ⟨⟩
  refine ⟨trivial, fun w₂ hclaim => ?_⟩
  have hsafe : ∀ w₂ ∈ crlStep Cert.sampleX509 { emptyLists with
      db := (CertOp.revoke quietEnv "k" "lost key").apply Cert.sampleX509 emptyLists.db }
        (.claim 1001 "n2" "kk"),
      CrlSafe Cert.sampleX509 w₂ (.execute Paneltasks.longerIds 1002 "kk") := by
    unfold CrlSafe
    decide +kernel
  exact ⟨hsafe w₂ hclaim, fun _ _ => trivial⟩

/-- The certificate is revoked, and both nodes have the list with its serial number. -/
private def listedSerial : CrlWorld := ⟨verifyingNodes revokedServer, fun _ => some {("C", 1000)}⟩

/-- **A list goes stale**: an index lists the common name of a revoked certificate as valid, its
serial number leaves the list of the root, and no task is enqueued for the nodes that have it. -/
theorem stale_crl :
    ¬∀ (x : X509) (w w' : CrlWorld) (ops : List CrlOp), Keyed w.db → NoStaleCrl w →
      Runs.run (crlStep x) w ops = some w' → NoStaleCrl w' := by
  intro h
  obtain ⟨w, hrun⟩ :=
    Option.isSome_iff_exists.1 (show (Runs.run (crlStep Cert.sampleX509) listedSerial
    [.syncIssued quietSyncEnv ⟨"r1", "ca", some "n1"⟩ (indexLine "my_vpn")]).isSome =
    true by decide +kernel)
  have hstale : ∀ w ∈ Runs.run (crlStep Cert.sampleX509) listedSerial
      [.syncIssued quietSyncEnv ⟨"r1", "ca", some "n1"⟩ (indexLine "my_vpn")], ¬NoStaleCrl w := by
    decide +kernel
  exact hstale w hrun (h Cert.sampleX509 listedSerial w _ (by decide +kernel)
    (by decide +kernel) hrun)

end OpenvpnControl.Certificates
