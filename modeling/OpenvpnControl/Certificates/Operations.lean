import OpenvpnControl.Handlers.Certificates
import OpenvpnControl.Library.Runs
import OpenvpnControl.Panel.Servercert

/-!
# The operations on certificates

Every operation of the panel that writes the table `Certificate`, as one type of events with one
step function. A refused operation leaves the database alone.

The later files prove what holds of the table over whole runs, and each of them has one lemma about
a single operation. These lemmas do not look into the handlers: `CertOp.effect` says once, with one
constructor for each kind of operation, what it does to the certificates and to the roots.

## Main definitions

* `CertOp`: an operation with its arguments and what it is answered.
* `CertOp.apply`, `certStep`: what it leaves.
* `Lists`: a text lists a row as valid.

## Main results

* `CertOp.effect`: what an operation does to the certificates and the roots.
* `CertOp.uniqueCerts_apply`: the unique columns stay unique.
* `CertOp.roots_apply_subset`: no operation adds a root.
* `mem_syncIssued_of_not_lists`: an import leaves the rows alone that its text does not list.
-/

namespace OpenvpnControl.Certificates

open Panel (Db Certificate UniqueCerts ServerCertEnv SettingsEnv)
open Cert (X509 SyncEnv IssuedImport)
open Handlers (HandlerEnv Fields)

/-- An operation on the table `Certificate`. -/
inductive CertOp where
  | create (env : HandlerEnv) (body : Option Fields)
  | import (env : HandlerEnv) (body : Option Fields)
  | patch (env : HandlerEnv) (id : String) (body : Option Fields)
  | revoke (env : HandlerEnv) (id reason : String)
  | syncIssued (env : SyncEnv) (imp : IssuedImport) (text : String)
  | syncRevoked (env : SyncEnv) (rootCaID issuedByName text : String)
  | syncRevokedFromCRL (env : SyncEnv) (rootCaID pemText : String)
  | issueServer (env : ServerCertEnv) (inp : Panel.IssueServerCertInput)
  | importServer (env : ServerCertEnv) (inp : Panel.ImportServerCertInput)
  | deleteServer (env : SettingsEnv) (agentNodeID : String)
  | removeRootCa (env : SettingsEnv) (nodeID : String) (body : Fields)

variable (x : X509)

/-- The database an operation leaves. -/
def CertOp.apply (db : Db) : CertOp → Db
  | .create env body => Refusals.settle db (Handlers.Certificates.create x env db body)
  | .import env body => Refusals.settle db (Handlers.Certificates.import x env db body)
  | .patch env id body => Refusals.settle db (Handlers.Certificates.patch x env db id body)
  | .revoke env id reason => Refusals.settle db (Handlers.Certificates.revoke env db id reason)
  | .syncIssued env imp text =>
    { db with certs := (Cert.syncIssuedInventory env imp db.certs text).1.1 }
  | .syncRevoked env rootCaID issuedByName text =>
    { db with certs := (Cert.syncRevokedInventory env db.certs rootCaID issuedByName text).1.1 }
  | .syncRevokedFromCRL env rootCaID pemText =>
    { db with certs := (Cert.syncRevokedFromCRL x env db.certs rootCaID pemText).1.1 }
  | .issueServer env inp =>
    Refusals.settle db (Panel.issueServerCertificateForAgentNode x env db inp)
  | .importServer env inp =>
    Refusals.settle db (Panel.importServerCertificateForAgentNode x env db inp)
  | .deleteServer env agentNodeID =>
    Refusals.settle db
      ((Panel.deleteServerCertificateForAgentNode db env agentNodeID).map Prod.fst)
  | .removeRootCa env nodeID body => (Panel.removeRootCaForPanel env db nodeID body).1

/-- One operation as a step of a run. -/
def certStep (db : Db) (op : CertOp) : Option Db := some (op.apply x db)

/-- Does the text of an import list the common name of a row as valid, for the root and the node of
the row? -/
def Lists (env : SyncEnv) (imp : IssuedImport) (text : String) (c : Certificate) : Prop :=
  c.rootCaId.getD "" = imp.rootCaID ∧ c.agentNodeId = imp.agentNodeID ∧
    ∃ e ∈ env.entries text, e.cn = c.commonName

instance (env : SyncEnv) (imp : IssuedImport) (text : String) (c : Certificate) :
    Decidable (Lists env imp text c) := by
  unfold Lists
  infer_instance

/-- A database with a root and a node. -/
def oneNode : Db :=
  { Db.empty with
    nodes := [⟨"n1", "node"⟩]
    roots := [⟨"r1", "ca", "ca", "BEGIN CERTIFICATE root", "BEGIN PRIVATE KEY root"⟩] }

/-- A request at the time `1000` whose statements are executed. -/
def quietEnv : HandlerEnv := .quiet 1000 Paneltasks.longerIds.ksuid

/-- A call at the time `1000` whose statements are executed. -/
def quietServerEnv : ServerCertEnv := .quiet 1000 Paneltasks.longerIds.ksuid

/-- An import at the time `1000` whose statements are executed. -/
def quietSyncEnv : SyncEnv := .quiet 1000 Paneltasks.longerIds.ksuid

/-- An import of a server certificate on the node. -/
def importServerPEM (name : String) : CertOp :=
  .importServer quietServerEnv
    ⟨"n1", "r1", "BEGIN CERTIFICATE " ++ name, "BEGIN PRIVATE KEY " ++ name⟩

/-- A valid certificate of the common name `cn` with the serial number `B`, as an index line. -/
def indexLine (cn : String) : String := "V\t300101000000Z\t\t0B\tunknown\t/CN=" ++ cn

variable {x} {db db' : Db}

/-! ### Detaching a root -/

/-- The certificates that detaching a root from a node keeps. -/
def keptCerts (db : Db) (nodeID rootID : String) : List Certificate :=
  Rows.deleteWhere (fun c => c.agentNodeId = some nodeID ∧ c.rootCaId = some rootID) db.certs

/-- What detaching a root does to the tables: nothing, or the certificates of the node and the root
are gone, and perhaps the root, whose other certificates lose their link. -/
inductive Detached (db : Db) (nodeID rootID : String) : Db → Prop
  | refused : Detached db nodeID rootID db
  | kept {db' : Db} : rootID ≠ "" → db'.certs = keptCerts db nodeID rootID → db'.roots = db.roots →
    Detached db nodeID rootID db'
  | deleted {db' : Db} : rootID ≠ "" →
    db'.certs = Rows.updateWhere (fun c => c.rootCaId = some rootID)
      (fun c => { c with rootCaId := none }) (keptCerts db nodeID rootID) →
    db'.roots = Rows.deleteWhere (fun r => r.id = rootID) db.roots →
    Detached db nodeID rootID db'

theorem detached_removeRootCa (env : SettingsEnv) (nodeID : String) (body : Fields) :
    Detached db (GoStrings.trimSpace nodeID)
      (Panel.linkedRoot (db.settingsOf (GoStrings.trimSpace nodeID)))
      (Panel.removeRootCaForPanel env db nodeID body).1 := by
  rcases Panel.removeRootCa_cases env db nodeID body with ⟨-, hdb⟩ | ⟨hroot, -, hdb⟩
  · rw [hdb]
    exact .refused
  · rw [hdb, Panel.afterDetach]
    by_cases hkeep : Panel.rootInUse env (Panel.detachRoot db (GoStrings.trimSpace nodeID)
        (Panel.linkedRoot (db.settingsOf (GoStrings.trimSpace nodeID))))
        (Panel.linkedRoot (db.settingsOf (GoStrings.trimSpace nodeID))) = true ∨
        env.rootDeleteFails = true
    · simp only [if_pos hkeep]
      exact .kept hroot rfl rfl
    · simp only [if_neg hkeep]
      exact .deleted hroot rfl rfl

/-! ### What an operation does -/

theorem certs_enqueueCrlDeploy (env : HandlerEnv) (rootCaID : Option String) :
    (Handlers.Certificates.enqueueCrlDeploy db env rootCaID).certs = db.certs := by
  cases rootCaID <;> rfl

theorem roots_enqueueCrlDeploy (env : HandlerEnv) (rootCaID : Option String) :
    (Handlers.Certificates.enqueueCrlDeploy db env rootCaID).roots = db.roots := by
  cases rootCaID <;> rfl

/-- What an operation does to the certificates and the roots. -/
inductive CertEffect (x : X509) (db : Db) :
    CertOp → List Certificate → List Panel.RootCertificateAuthority → Prop
  | refused (op : CertOp) : CertEffect x db op db.certs db.roots
  | created {env : HandlerEnv} {body : Option Fields} {row : Certificate}
    {root : Panel.RootCertificateAuthority} {leaf : Cert.IssuedLeaf} {days : ℤ} :
    Handlers.Certificates.Inserts db row →
    Cert.issueLeaf x env.now root.certPem root.keyPem row.commonName days = .ok leaf →
    row.serialNumber = Handlers.Certificates.serialOr env db leaf.serial →
    row.certPem = some leaf.certPEM → row.keyPem = some leaf.keyPEM →
    row.expiresAt = leaf.expiresAt →
    (∃ fields ∈ body, row.commonName = Handlers.textField fields "commonName" ∧
      row.agentNodeId = Handlers.nullableID (Json.field fields "agentNodeId") ∧
      row.vpnUserId = Handlers.nullableID (Json.field fields "vpnUserId") ∧
      db.root (Handlers.textField fields "rootCaId") = some root) →
    Handlers.Certificates.activeSameCN env db row.commonName row.agentNodeId "" = false →
    CertEffect x db (.create env body) (db.certs ++ [row]) db.roots
  | imported {env : HandlerEnv} {body : Option Fields} {row : Certificate} {certPEM keyPEM : String}
    {leaf : Cert.X509Certificate} :
    Handlers.Certificates.Inserts db row → GoStrings.trimSpace certPEM = certPEM →
    GoStrings.trimSpace keyPEM = keyPEM → Cert.keysMatch x certPEM keyPEM = .ok () →
    x.parseCertificate certPEM = .ok leaf → row.commonName = leaf.subjectCN →
    row.serialNumber = Cert.serialHex leaf → row.certPem = some (Cert.ensurePEMNewline certPEM) →
    row.keyPem = some (Cert.ensurePEMNewline keyPEM) → row.expiresAt = leaf.notAfter →
    (∃ fields ∈ body, certPEM = Handlers.textField fields "certPem" ∧
      row.agentNodeId = some (Handlers.textField fields "agentNodeId") ∧
      row.vpnUserId = Handlers.nullableID (Json.field fields "vpnUserId")) →
    Handlers.Certificates.activeSameCN env db row.commonName row.agentNodeId "" = false →
    CertEffect x db (.import env body) (db.certs ++ [row]) db.roots
  | patched {env : HandlerEnv} {id : String} {fields : Fields} {existing : Certificate}
    {agentNodeID vpnUserID certPEM keyPEM : Option String} :
    db.cert id = some existing →
    Handlers.Certificates.patchedNode env db existing fields = .ok agentNodeID →
    Handlers.Certificates.patchedUser db existing fields = .ok vpnUserID →
    Handlers.Certificates.patchedCert x existing fields = .ok certPEM →
    Handlers.Certificates.patchedKey existing fields = .ok keyPEM →
    ¬(Handlers.hasField fields "vpnUserId" ∧ vpnUserID.isSome ∧
      (certPEM.or existing.certPem).getD "" ≠ "" ∧
      Cert.isCAOrSelfSigned x ((certPEM.or existing.certPem).getD "")) →
    CertEffect x db (.patch env id (some fields))
      (Rows.updateWhere (fun c => c.id = id)
        (Handlers.Certificates.setColumns agentNodeID vpnUserID certPEM keyPEM) db.certs) db.roots
  | revoked {env : HandlerEnv} {id reason text : String} :
    CertEffect x db (.revoke env id reason)
      (Rows.updateWhere (fun c => c.id = id) (Cert.revokeRow env.now text) db.certs) db.roots
  | issuedSynced {env : SyncEnv} {imp : IssuedImport} {text : String} :
    CertEffect x db (.syncIssued env imp text)
      (Cert.syncIssuedInventory env imp db.certs text).1.1 db.roots
  | revokedSynced {env : SyncEnv} {rootCaID issuedByName text : String} :
    CertEffect x db (.syncRevoked env rootCaID issuedByName text)
      (Cert.syncRevokedInventory env db.certs rootCaID issuedByName text).1.1 db.roots
  | crlSynced {env : SyncEnv} {rootCaID pemText : String} :
    CertEffect x db (.syncRevokedFromCRL env rootCaID pemText)
      (Cert.syncRevokedFromCRL x env db.certs rootCaID pemText).1.1 db.roots
  | serverIssued {env : ServerCertEnv} {inp : Panel.IssueServerCertInput} {leaf : Panel.ServerLeaf}
    {root : Panel.RootCertificateAuthority} {issued : Cert.IssuedLeaf} {days : ℤ} :
    Cert.issueLeaf x env.now root.certPem root.keyPem leaf.cn days = .ok issued →
    leaf.serial = issued.serial → leaf.certPEM = issued.certPEM → leaf.keyPEM = issued.keyPEM →
    leaf.expiresAt = issued.expiresAt → UniqueCerts (db.certs ++ [leaf.row env db]) →
    leaf.agentNodeID = inp.agentNodeID → leaf.rootCaID = GoStrings.trimSpace inp.rootCaID →
    (∃ node ∈ db.node inp.agentNodeID,
      leaf.cn = Panel.serverCN inp.commonName node.name inp.agentNodeID) →
    Panel.hasServerCert db leaf.agentNodeID leaf.rootCaID = false →
    CertEffect x db (.issueServer env inp) (db.certs ++ [leaf.row env db]) db.roots
  | serverImported {env : ServerCertEnv} {inp : Panel.ImportServerCertInput}
      {leaf : Panel.ServerLeaf}
    {c : Cert.X509Certificate} {node : Panel.AgentNode} {certs : List Certificate} :
    db.node inp.agentNodeID = some node →
    x.parseCertificate (GoStrings.trimSpace inp.certPEM) = .ok c →
    Cert.keysMatch x (GoStrings.trimSpace inp.certPEM) (GoStrings.trimSpace inp.keyPEM) = .ok () →
    leaf.cn = Panel.serverCN c.subjectCN node.name inp.agentNodeID →
    leaf.agentNodeID = inp.agentNodeID → leaf.serial = Cert.serialHex c →
    leaf.expiresAt = c.notAfter →
    leaf.certPEM = Cert.ensurePEMNewline (GoStrings.trimSpace inp.certPEM) →
    leaf.keyPEM = Cert.ensurePEMNewline (GoStrings.trimSpace inp.keyPEM) →
    Panel.LeafStored env db leaf certs → leaf.rootCaID = GoStrings.trimSpace inp.rootCaID →
    CertEffect x db (.importServer env inp) certs db.roots
  | serverDeleted {env : SettingsEnv} {agentNodeID : String} :
    CertEffect x db (.deleteServer env agentNodeID)
      (Panel.deleteServerCerts db (GoStrings.trimSpace agentNodeID)
        (Panel.linkedRoot (db.settingsOf (GoStrings.trimSpace agentNodeID)))).certs db.roots
  | detached {env : SettingsEnv} {nodeID : String} {body : Fields} {db' : Db} :
    Detached db (GoStrings.trimSpace nodeID)
      (Panel.linkedRoot (db.settingsOf (GoStrings.trimSpace nodeID))) db' →
    CertEffect x db (.removeRootCa env nodeID body) db'.certs db'.roots

/-- A request does nothing or what it does when it is not refused. -/
theorem certEffect_settle {ε : Type} {op : CertOp} {r : Except ε Db}
    (hok : ∀ db', r = .ok db' → CertEffect x db op db'.certs db'.roots) :
    CertEffect x db op (Refusals.settle db r).certs (Refusals.settle db r).roots := by
  rcases Refusals.settle_cases db r with hs | hs
  · rw [hs]
    exact .refused op
  · exact hok _ hs

/-- **What an operation does.** -/
theorem CertOp.effect (op : CertOp) : CertEffect x db op (op.apply x db).certs
    (op.apply x db).roots := by
  cases op with
  | create env body =>
    refine certEffect_settle fun db' hok => ?_
    obtain ⟨row, root, leaf, days, hins, hleaf, hserial, hcert, hkey, hexp, hbody, hfree, rfl⟩ :=
      Handlers.Certificates.create_of_ok hok
    rw [Panel.Db.certs_enqueueSnapshots, Panel.Db.roots_enqueueSnapshots]
    exact .created hins hleaf hserial hcert hkey hexp hbody hfree
  | «import» env body =>
    refine certEffect_settle fun db' hok => ?_
    obtain ⟨row, certPEM, keyPEM, leaf, hins, hctrim, hktrim, hkeys, hparse,
      hcn, hserial, hcert, hkey, hexp, hbody, hfree, rfl⟩ := Handlers.Certificates.import_of_ok hok
    rw [Panel.Db.certs_enqueueSnapshots, Panel.Db.roots_enqueueSnapshots]
    exact .imported hins hctrim hktrim hkeys hparse hcn hserial hcert hkey hexp hbody hfree
  | patch env id body =>
    refine certEffect_settle fun db' hok => ?_
    obtain ⟨existing, fields, _, _, _, _, hex, rfl, hnode, huser, hcert, hkey, hca, rfl⟩ :=
      Handlers.Certificates.patch_of_ok hok
    rw [Panel.Db.certs_enqueueSnapshots, Panel.Db.roots_enqueueSnapshots]
    exact .patched hex hnode huser hcert hkey hca
  | revoke env id reason =>
    refine certEffect_settle fun db' hok => ?_
    obtain ⟨existing, text, -, rfl⟩ := Handlers.Certificates.revoke_of_ok hok
    rw [Panel.Db.certs_enqueueSnapshots, Panel.Db.roots_enqueueSnapshots, certs_enqueueCrlDeploy,
      roots_enqueueCrlDeploy]
    exact .revoked
  | syncIssued env imp text => exact .issuedSynced
  | syncRevoked env rootCaID issuedByName text => exact .revokedSynced
  | syncRevokedFromCRL env rootCaID pemText => exact .crlSynced
  | issueServer env inp =>
    refine certEffect_settle fun db' hok => ?_
    obtain ⟨leaf, root, issued, ⟨days, hissued⟩, hserial, hcert, hkey, hexp, huniq, hid, hroot, hcn,
      hfree, rfl⟩ := Panel.issueServer_of_ok hok
    exact .serverIssued hissued hserial hcert hkey hexp huniq hid hroot hcn hfree
  | importServer env inp =>
    refine certEffect_settle fun db' hok => ?_
    obtain ⟨leaf, c, node, certs, hnode, hparse, hkeys, hcn, hid, hroot, hserial, hexp, hcert, hkey,
      hstored, rfl⟩ := Panel.importServer_of_ok hok
    exact .serverImported hnode hparse hkeys hcn hid hserial hexp hcert hkey hstored hroot
  | deleteServer env agentNodeID =>
    refine certEffect_settle fun db' hok => ?_
    cases hdel : Panel.deleteServerCertificateForAgentNode db env agentNodeID with
    | error e =>
      rw [hdel] at hok
      cases hok
    | ok out =>
      rw [hdel] at hok
      cases hok
      obtain ⟨after, queued⟩ := out
      obtain ⟨-, -, tasks, -, hdb⟩ := Panel.deleteServer_of_ok hdel
      rw [hdb]
      exact .serverDeleted
  | removeRootCa env nodeID body => exact .detached (detached_removeRootCa env nodeID body)

/-! ### The unique columns -/

theorem uniqueCerts_issuedChange {env : SyncEnv} {imp : IssuedImport} {e : Cert.IssuedEntry}
    {certs certs' : List Certificate} (h : UniqueCerts certs)
    (hc : Cert.IssuedChange env imp e certs certs') : UniqueCerts certs' := by
  cases hc with
  | same => exact h
  | reactivated _ _ _ huniq => exact huniq
  | renewed _ _ _ huniq => exact huniq
  | created _ huniq => exact huniq

theorem uniqueCerts_revokedChange {certs certs' : List Certificate} (h : UniqueCerts certs)
    (hc : Cert.RevokedChange certs certs') : UniqueCerts certs' := by
  cases hc with
  | same => exact h
  | revoked id now reason => exact h.updateWhere (fun _ => rfl) fun _ => rfl
  | created row _ _ huniq => exact huniq

theorem uniqueCerts_leafStored {env : ServerCertEnv} {leaf : Panel.ServerLeaf}
    {certs : List Certificate} (h : UniqueCerts db.certs)
    (hc : Panel.LeafStored env db leaf certs) : UniqueCerts certs := by
  cases hc with
  | bySerial _ _ _ => exact h.updateWhere (fun _ => rfl) fun _ => rfl
  | byCN _ huniq _ => exact huniq
  | inserted huniq _ _ _ => exact huniq

theorem uniqueCerts_detached {nodeID rootID : String} (h : UniqueCerts db.certs)
    (hd : Detached db nodeID rootID db') : UniqueCerts db'.certs := by
  cases hd with
  | refused => exact h
  | kept _ hcerts _ =>
    rw [hcerts]
    exact h.deleteWhere
  | deleted _ hcerts _ =>
    rw [hcerts]
    exact h.deleteWhere.updateWhere (fun _ => rfl) fun _ => rfl

/-- **The unique columns stay unique.** -/
theorem CertOp.uniqueCerts_apply (op : CertOp) (h : UniqueCerts db.certs) :
    UniqueCerts (op.apply x db).certs := by
  have heff : CertEffect x db op (op.apply x db).certs (op.apply x db).roots := op.effect
  generalize (op.apply x db).certs = certs at heff ⊢
  generalize (op.apply x db).roots = roots at heff
  cases heff with
  | refused => exact h
  | created hins => exact hins.unique
  | imported hins => exact hins.unique
  | patched => exact h.updateWhere (fun _ => rfl) fun _ => rfl
  | revoked => exact h.updateWhere (fun _ => rfl) fun _ => rfl
  | issuedSynced =>
    exact Cert.syncIssuedInventory_induction
      (fun _ _ _ _ hI hc => uniqueCerts_issuedChange hI hc) h
  | revokedSynced =>
    exact Cert.syncRevokedInventory_induction (fun _ _ hI hc => uniqueCerts_revokedChange hI hc) h
  | crlSynced =>
    exact Cert.syncRevokedFromCRL_induction (fun _ _ hI hc => uniqueCerts_revokedChange hI hc) h
  | serverIssued _ _ _ _ _ huniq => exact huniq
  | serverImported _ _ _ _ _ _ _ _ _ hstored => exact uniqueCerts_leafStored h hstored
  | serverDeleted => exact h.deleteWhere
  | detached hd => exact uniqueCerts_detached h hd

/-! ### Roots -/

/-- **No operation adds a root.** -/
theorem CertOp.roots_apply_subset (op : CertOp) : (op.apply x db).roots ⊆ db.roots := by
  have heff : CertEffect x db op (op.apply x db).certs (op.apply x db).roots := op.effect
  generalize (op.apply x db).certs = certs at heff
  generalize (op.apply x db).roots = roots at heff ⊢
  cases heff with
  | detached hd =>
    cases hd with
    | refused => exact List.Subset.refl _
    | kept _ _ hroots => exact hroots ▸ List.Subset.refl _
    | deleted _ _ hroots => exact hroots ▸ List.filter_sublist.subset
  | _ => exact List.Subset.refl _

/-! ### The rows an import of issued certificates leaves alone -/

/-- The row an import finds is one its text lists. -/
theorem lists_of_find {env : SyncEnv} {imp : IssuedImport} {text : String} {e : Cert.IssuedEntry}
    {certs : List Certificate} {c : Certificate} (he : e ∈ env.entries text)
    (hfind : Cert.findCertByCNAndNode env.choice certs e.cn imp.agentNodeID = some c)
    (hroot : c.rootCaId.getD "" = imp.rootCaID) : c ∈ certs ∧ Lists env imp text c := by
  obtain ⟨hc, hcn, hnode⟩ := Cert.mem_of_findCert hfind
  exact ⟨hc, hroot, hnode, e, he, hcn.symm⟩

/-- **A row the text does not list stays.** -/
theorem mem_syncIssued_of_not_lists {env : SyncEnv} {imp : IssuedImport} {text : String}
    {certs : List Certificate} (h : UniqueCerts certs) {c : Certificate} (hc : c ∈ certs)
    (hlist : ¬Lists env imp text c) : c ∈ (Cert.syncIssuedInventory env imp certs text).1.1 := by
  have hother : ∀ {certs e d}, UniqueCerts certs → c ∈ certs → e ∈ env.entries text →
      Cert.findCertByCNAndNode env.choice certs e.cn imp.agentNodeID = some d →
      d.rootCaId.getD "" = imp.rootCaID → decide (c.id = d.id) = false := by
    intro certs e d huniq hc he hfind hroot
    obtain ⟨hd, hlists⟩ := lists_of_find he hfind hroot
    rw [decide_eq_false_iff_not]
    intro hid
    rw [huniq.1.eq_of_key hc hd hid] at hlist
    exact hlist hlists
  refine (Cert.syncIssuedInventory_induction
    (I := fun certs => UniqueCerts certs ∧ c ∈ certs) ?_ ⟨h, hc⟩).2
  rintro e he certs certs' ⟨huniq, hc⟩ hchange
  refine ⟨uniqueCerts_issuedChange huniq hchange, ?_⟩
  cases hchange with
  | same => exact hc
  | reactivated hfind hroot _ _ =>
    exact Rows.mem_updateWhere_of_not hc (hother huniq hc he hfind hroot)
  | renewed hfind hroot _ _ =>
    exact Rows.mem_updateWhere_of_not hc (hother huniq hc he hfind hroot)
  | created _ _ => exact List.mem_append_left _ hc

/-- A row after an import was there before, has no certificate, or is one the text lists and keeps
its certificate. -/
theorem mem_syncIssued_cases {env : SyncEnv} {imp : IssuedImport} {text : String}
    {certs : List Certificate} (h : UniqueCerts certs) :
    ∀ c' ∈ (Cert.syncIssuedInventory env imp certs text).1.1, c' ∈ certs ∨ c'.certPem = none ∨
      ∃ c ∈ certs, Lists env imp text c ∧ c'.id = c.id ∧ c'.certPem = c.certPem := by
  refine (Cert.syncIssuedInventory_induction
    (I := fun now => UniqueCerts now ∧ ∀ c' ∈ now, c' ∈ certs ∨ c'.certPem = none ∨
      ∃ c ∈ certs, Lists env imp text c ∧ c'.id = c.id ∧ c'.certPem = c.certPem)
    ?_ ⟨h, fun c' hc' => Or.inl hc'⟩).2
  rintro e he now now' ⟨huniq, hI⟩ hchange
  refine ⟨uniqueCerts_issuedChange huniq hchange, ?_⟩
  have hupdate : ∀ {d : Certificate} {f : Certificate → Certificate},
      Cert.findCertByCNAndNode env.choice now e.cn imp.agentNodeID = some d →
      d.rootCaId.getD "" = imp.rootCaID → (∀ c, (f c).id = c.id ∧ (f c).certPem = c.certPem) →
      ∀ c' ∈ Rows.updateWhere (fun c => c.id = d.id) f now, c' ∈ certs ∨ c'.certPem = none ∨
        ∃ c ∈ certs, Lists env imp text c ∧ c'.id = c.id ∧ c'.certPem = c.certPem := by
    intro d f hfind hroot hf c' hc'
    rcases Rows.mem_updateWhere.1 hc' with ⟨hc', -⟩ | ⟨c₀, hc₀, hp, rfl⟩
    · exact hI c' hc'
    · -- the row that is rewritten is the one that was found
      obtain ⟨hd, hlists⟩ := lists_of_find he hfind hroot
      rw [huniq.1.eq_of_key hc₀ hd (by simpa using hp), (hf d).1, (hf d).2]
      rcases hI d hd with hd | hd | hd
      · exact Or.inr (Or.inr ⟨d, hd, hlists, rfl, rfl⟩)
      · exact Or.inr (Or.inl hd)
      · exact Or.inr (Or.inr hd)
  cases hchange with
  | same => exact hI
  | reactivated hfind hroot _ _ => exact hupdate hfind hroot fun _ => ⟨rfl, rfl⟩
  | renewed hfind hroot _ _ => exact hupdate hfind hroot fun _ => ⟨rfl, rfl⟩
  | created _ _ =>
    intro c' hc'
    rcases List.mem_append.1 hc' with hc' | hc'
    · exact hI c' hc'
    · rw [List.mem_singleton.1 hc']
      exact Or.inr (Or.inl rfl)

end OpenvpnControl.Certificates
