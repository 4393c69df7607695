import OpenvpnControl.Certificates.Operations

/-!
# Revoked serial numbers stay in the revocation list

The revocation list of a root is made of the revoked rows of the root. This file proves that a
serial number stays in it through every run of operations, as long as the row is not one of those
that four of the operations reactivate or delete.

## Main definitions

* `crlRows`: the rows a revocation list is made of.
* `Spares`: the condition on an operation.

## Main results

* `revoked_apply`: what one operation keeps.
* `revoked_serial_stays`: in every run the serial number stays in the list.
* `revoked_serial_gone`: an operation of each of the four kinds takes it out.
-/

namespace OpenvpnControl.Certificates

open Panel (Db Certificate UniqueCerts ServerCertEnv SettingsEnv)
open Cert (X509 SyncEnv IssuedImport)
open Handlers (HandlerEnv Fields)

variable (x : X509)

/-- `crl.RevokedRow`. -/
structure RevokedRow where
  serialNumber : String
  commonName : String
  expiresAt : ℤ
  revokedAt : ℤ
  deriving DecidableEq

/-- The rows that `execCrlDeploy` reads for a root. -/
def crlRows (certs : List Certificate) (rootCaID : String) : List RevokedRow :=
  certs.filterMap fun c =>
    if c.rootCaId = some rootCaID then
      c.revokedAt.map fun revokedAt => ⟨c.serialNumber, c.commonName, c.expiresAt, revokedAt⟩
    else none

/-- The condition on an operation, for the row with the id. An import of an index does not list the
common name of the row as valid, for its root and node; an imported server certificate has neither
the serial number of the row nor, on its node and where the row has no user, its common name; the
server certificate that is deleted, and the root that is detached, is not that of the node and root
of the row. -/
def Spares (id : String) (db : Db) : CertOp → Prop
  | .syncIssued env imp text => ∀ c ∈ db.cert id, ¬Lists env imp text c
  | .importServer _ inp =>
    ∀ c ∈ db.cert id, ∀ node ∈ db.node inp.agentNodeID, ∀ leaf,
      x.parseCertificate (GoStrings.trimSpace inp.certPEM) = .ok leaf →
      c.serialNumber ≠ Cert.serialHex leaf ∧
        ¬(c.commonName = Panel.serverCN leaf.subjectCN node.name inp.agentNodeID ∧
          c.agentNodeId = some inp.agentNodeID ∧ c.vpnUserId = none)
  | .deleteServer _ agentNodeID =>
    ∀ c ∈ db.cert id, ¬(c.agentNodeId = some (GoStrings.trimSpace agentNodeID) ∧
      c.rootCaId = some (Panel.linkedRoot (db.settingsOf (GoStrings.trimSpace agentNodeID))) ∧
      c.vpnUserId = none)
  | .removeRootCa _ nodeID _ =>
    ∀ c ∈ db.cert id, ¬(c.agentNodeId = some (GoStrings.trimSpace nodeID) ∧
      c.rootCaId = some (Panel.linkedRoot (db.settingsOf (GoStrings.trimSpace nodeID))))
  | _ => True

/-- The row with the id is a revoked one of the root, with the serial number. -/
def HasRevoked (rootCaID id serial : String) (certs : List Certificate) : Prop :=
  ∃ c ∈ certs, c.id = id ∧ c.serialNumber = serial ∧ c.rootCaId = some rootCaID ∧
    c.revokedAt.isSome = true

variable {x} {db : Db} {rootCaID id serial : String} {certs certs' : List Certificate}

theorem mem_crlRows {row : RevokedRow} :
    row ∈ crlRows certs rootCaID ↔ ∃ c ∈ certs, c.rootCaId = some rootCaID ∧
      c.revokedAt = some row.revokedAt ∧ c.serialNumber = row.serialNumber ∧
      c.commonName = row.commonName ∧ c.expiresAt = row.expiresAt := by
  simp only [crlRows, List.mem_filterMap]
  refine exists_congr fun c => and_congr_right fun _ => ?_
  split_ifs with hroot
  · rw [Option.map_eq_some_iff]
    constructor
    · rintro ⟨revokedAt, hrev, rfl⟩
      exact ⟨hroot, hrev, rfl, rfl, rfl⟩
    · rintro ⟨-, hrev, hserial, hcn, hexp⟩
      exact ⟨row.revokedAt, hrev, by rw [hserial, hcn, hexp]⟩
  · simp [hroot]

/-- A revoked row of the root is in the list. -/
theorem HasRevoked.mem_crlRows (h : HasRevoked rootCaID id serial certs) :
    ∃ row ∈ crlRows certs rootCaID, row.serialNumber = serial := by
  obtain ⟨c, hc, -, hserial, hroot, hrev⟩ := h
  obtain ⟨revokedAt, hrev⟩ := Option.isSome_iff_exists.1 hrev
  exact ⟨⟨c.serialNumber, c.commonName, c.expiresAt, revokedAt⟩,
    Certificates.mem_crlRows.2 ⟨c, hc, hroot, hrev, rfl, rfl, rfl⟩, hserial⟩

/-! ### One operation -/

theorem HasRevoked.append (h : HasRevoked rootCaID id serial certs) (row : Certificate) :
    HasRevoked rootCaID id serial (certs ++ [row]) := by
  obtain ⟨c, hc, hrow⟩ := h
  exact ⟨c, List.mem_append_left _ hc, hrow⟩

/-- An update that keeps the serial number, the root and a revocation. -/
theorem HasRevoked.updateWhere (h : HasRevoked rootCaID id serial certs) {p : Certificate → Bool}
    {f : Certificate → Certificate}
    (hf : ∀ c, (f c).id = c.id ∧ (f c).serialNumber = c.serialNumber ∧ (f c).rootCaId = c.rootCaId ∧
      (c.revokedAt.isSome = true → (f c).revokedAt.isSome = true)) :
    HasRevoked rootCaID id serial (Rows.updateWhere p f certs) := by
  obtain ⟨c, hc, hid, hserial, hroot, hrev⟩ := h
  obtain ⟨hfid, hfserial, hfroot, hfrev⟩ := hf c
  cases hp : p c with
  | false => exact ⟨c, Rows.mem_updateWhere_of_not hc hp, hid, hserial, hroot, hrev⟩
  | true =>
    exact ⟨f c, Rows.mem_updateWhere_of hc hp, hfid.trans hid, hfserial.trans hserial,
      hfroot.trans hroot, hfrev hrev⟩

theorem HasRevoked.revokedChange (h : HasRevoked rootCaID id serial certs)
    (hchange : Cert.RevokedChange certs certs') : HasRevoked rootCaID id serial certs' := by
  cases hchange with
  | same => exact h
  | revoked => exact h.updateWhere fun _ => ⟨rfl, rfl, rfl, fun _ => rfl⟩
  | created row => exact h.append row

/-- **One operation keeps a revoked row**, as long as the root exists. -/
theorem revoked_apply {op : CertOp} (hunique : UniqueCerts db.certs) (hok : Spares x id db op)
    (h : HasRevoked rootCaID id serial db.certs)
    (hroot : rootCaID ∈ (op.apply x db).roots.map (·.id)) :
    HasRevoked rootCaID id serial (op.apply x db).certs := by
  have heff : CertEffect x db op (op.apply x db).certs (op.apply x db).roots := op.effect
  generalize (op.apply x db).certs = certs at heff ⊢
  generalize (op.apply x db).roots = roots at heff hroot
  have h' := h
  obtain ⟨c, hc, hid, hserial, hcroot, hrev⟩ := h'
  have hrow : db.cert id = some c := (Rows.byKey_eq_some hunique.1).2 ⟨hc, hid⟩
  -- the row is not the one that is rewritten
  have hother : ∀ {d : Certificate} {f : Certificate → Certificate}, d ∈ db.certs → c ≠ d →
      HasRevoked rootCaID id serial (Rows.updateWhere (fun e => e.id = d.id) f db.certs) := by
    intro d f hd hne
    refine ⟨c, Rows.mem_updateWhere_of_not hc ?_, hid, hserial, hcroot, hrev⟩
    exact decide_eq_false fun hcd => hne (hunique.1.eq_of_key hc hd hcd)
  cases heff with
  | refused => exact h
  | created => exact h.append _
  | imported => exact h.append _
  | patched => exact h.updateWhere fun _ => ⟨rfl, rfl, rfl, fun hsome => hsome⟩
  | revoked => exact h.updateWhere fun _ => ⟨rfl, rfl, rfl, fun _ => rfl⟩
  | issuedSynced =>
    exact ⟨c, mem_syncIssued_of_not_lists hunique hc (hok c hrow), hid, hserial, hcroot, hrev⟩
  | revokedSynced =>
    exact Cert.syncRevokedInventory_induction (fun _ _ hI hchange => hI.revokedChange hchange) h
  | crlSynced =>
    exact Cert.syncRevokedFromCRL_induction (fun _ _ hI hchange => hI.revokedChange hchange) h
  | serverIssued => exact h.append _
  | serverImported hnode hparse _ hcn hnodeID hleafSerial _ _ _ hstored =>
    obtain ⟨hneSerial, hneCN⟩ := hok c hrow _ hnode _ hparse
    cases hstored with
    | bySerial hfind _ _ =>
      obtain ⟨hd, hdserial⟩ := Rows.mem_of_byKey_eq_some hfind
      refine hother hd ?_
      rintro rfl
      exact hneSerial (hdserial.trans hleafSerial)
    | byCN hfind _ =>
      obtain ⟨hd, hp⟩ := Rows.Choice.mem_of_select hfind
      obtain ⟨hdcn, hdnode, hduser⟩ := of_decide_eq_true hp
      refine hother hd ?_
      rintro rfl
      exact hneCN ⟨hdcn.trans hcn, hdnode.trans (congrArg some hnodeID), hduser⟩
    | inserted => exact h.append _
  | serverDeleted =>
    exact ⟨c, Rows.mem_deleteWhere.2 ⟨hc, decide_eq_false (hok c hrow)⟩, hid, hserial, hcroot, hrev⟩
  | detached hd =>
    have hkept : c ∈ keptCerts db _ _ := Rows.mem_deleteWhere.2 ⟨hc, decide_eq_false (hok c hrow)⟩
    cases hd with
    | refused => exact h
    | kept _ hcerts _ => exact ⟨c, hcerts ▸ hkept, hid, hserial, hcroot, hrev⟩
    | deleted _ hcerts hroots =>
      -- the root of the row is not the one that is deleted
      rw [hcerts]
      refine ⟨c, Rows.mem_updateWhere_of_not hkept (decide_eq_false fun hlink => ?_), hid, hserial,
        hcroot, hrev⟩
      rw [hcroot] at hlink
      obtain ⟨r, hr, hrid⟩ := List.mem_map.1 hroot
      rw [hroots, Rows.mem_deleteWhere] at hr
      exact of_decide_eq_false hr.2 (hrid.trans (Option.some.inj hlink))

/-! ### Runs -/

/-- **A revoked serial number stays in the revocation list.** After every run of operations that
spare a revoked row of a root, the list of the root has the serial number of the row, as long as the
root exists. -/
theorem revoked_serial_stays {db' : Db} {ops : List CertOp} {c : Certificate}
    (hunique : UniqueCerts db.certs) (hc : c ∈ db.certs) (hroot : c.rootCaId = some rootCaID)
    (hrev : c.revokedAt.isSome = true) (hok : Runs.Meets (certStep x) (Spares x c.id) db ops)
    (hrun : Runs.run (certStep x) db ops = some db') (hexists : rootCaID ∈ db'.roots.map (·.id)) :
    ∃ row ∈ crlRows db'.certs rootCaID, row.serialNumber = c.serialNumber := by
  have hinv : UniqueCerts db'.certs ∧ (rootCaID ∈ db'.roots.map (·.id) →
      HasRevoked rootCaID c.id c.serialNumber db'.certs) := ?_
  · exact (hinv.2 hexists).mem_crlRows
  refine Runs.run_invariant_of_meets
    (I := fun db => UniqueCerts db.certs ∧ (rootCaID ∈ db.roots.map (·.id) →
      HasRevoked rootCaID c.id c.serialNumber db.certs))
    ?_ ⟨hunique, fun _ => ⟨c, hc, rfl, rfl, hroot, hrev⟩⟩ hok hrun
  rintro db op _ ⟨hunique, h⟩ hok ⟨⟩
  refine ⟨op.uniqueCerts_apply hunique, fun hexists => ?_⟩
  refine revoked_apply hunique hok (h ?_) hexists
  obtain ⟨r, hr, hrid⟩ := List.mem_map.1 hexists
  exact List.mem_map.2 ⟨r, op.roots_apply_subset hr, hrid⟩

/-! ### Runs of one revoked certificate -/

/-- A database with a root that the settings of two nodes link. -/
def linkedNodes : Db :=
  { oneNode with
    nodes := [⟨"n1", "node"⟩, ⟨"n2", "other"⟩]
    settings := [⟨"n1", .ofList [("panelRootCaId", .str "r1")], none⟩,
      ⟨"n2", .ofList [("panelRootCaId", .str "r1")], none⟩] }

/-- The database after a server certificate was imported and revoked. -/
def revokedServer : Db :=
  (CertOp.revoke quietEnv "k" "lost key").apply Cert.sampleX509
    ((importServerPEM "vpn").apply Cert.sampleX509 linkedNodes)

/-- Revoked again, its node's index imported without it, and another certificate issued. -/
def spareOps : List CertOp :=
  [.revoke quietEnv "k" "again",
    .syncIssued quietSyncEnv ⟨"r1", "ca", some "n1"⟩ (indexLine "bob"), importServerPEM "bob"]

theorem revoked_serial_stays_spareOps :
    ∃ db', Runs.run (certStep Cert.sampleX509) revokedServer spareOps = some db' ∧
      ∃ row ∈ crlRows db'.certs "r1", row.serialNumber = "C" := by
  have hcert : ∀ c ∈ revokedServer.certs, c.id = "k" ∧ c.serialNumber = "C" ∧
      c.rootCaId = some "r1" ∧ c.revokedAt.isSome = true := by decide +kernel
  obtain ⟨c, hc⟩ : ∃ c, c ∈ revokedServer.certs :=
    List.exists_mem_of_ne_nil _ (by decide +kernel)
  obtain ⟨hid, hserial, hroot, hrev⟩ := hcert c hc
  obtain ⟨db', hdb'⟩ := (Option.any_eq_true _ _).1 (show (Runs.run (certStep Cert.sampleX509)
    revokedServer spareOps).any (fun db' => decide ("r1" ∈ db'.roots.map (·.id))) = true by
    decide +kernel)
  refine ⟨db', hdb'.1, ?_⟩
  rw [← hserial]
  refine @revoked_serial_stays Cert.sampleX509 revokedServer "r1" _ spareOps
    c (by decide +kernel) hc hroot hrev ?_ hdb'.1 (of_decide_eq_true hdb'.2)
  rw [hid]
  refine ⟨trivial, ?_⟩
  rintro db₁ ⟨⟩
  refine ⟨by unfold Spares; decide +kernel, ?_⟩
  rintro db₂ ⟨⟩
  refine ⟨?_, fun _ _ => trivial⟩
  intro row hrow node hnode leaf hleaf
  have hparse : Cert.sampleX509.parseCertificate (GoStrings.trimSpace "BEGIN CERTIFICATE bob") =
      .ok ⟨11, "bob", "CN=bob", "CN=ca", 100 * Cert.day, false, .ok "bob"⟩ := by
    rw [show GoStrings.trimSpace "BEGIN CERTIFICATE bob" = "BEGIN CERTIFICATE bob" by
      decide +kernel]
    rfl
  obtain rfl := Except.ok.inj (hparse.symm.trans hleaf)
  revert row node
  decide +kernel

/-- **A revoked serial number is gone**: after an import of an index that lists the common name of
the row with another serial number, after the import of another server certificate of its common
name, after the deletion of the server certificate, and after the root is detached from its node.
The root exists, and no text lists the serial number. -/
theorem revoked_serial_gone :
    (crlRows revokedServer.certs "r1").map (·.serialNumber) = ["C"] ∧
      (quietSyncEnv.entries (indexLine "my_vpn")).map (·.serialHex) = ["B"] ∧
      (Cert.sampleX509.parseCertificate "BEGIN CERTIFICATE vpn2").toOption.map Cert.serialHex =
        some "D" ∧
      ∀ op ∈ [.syncIssued quietSyncEnv ⟨"r1", "ca", some "n1"⟩ (indexLine "my_vpn"),
          importServerPEM "vpn2", .deleteServer .quiet "n1",
          .removeRootCa .quiet "n1" [("confirmCommonName", .str "ca")]],
        "r1" ∈ (op.apply Cert.sampleX509 revokedServer).roots.map (·.id) ∧
          crlRows (op.apply Cert.sampleX509 revokedServer).certs "r1" = [] := by
  decide +kernel

end OpenvpnControl.Certificates
