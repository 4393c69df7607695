import OpenvpnControl.Certificates.Operations

/-!
# A row describes its certificate

The columns of a `Certificate` row beside its PEM texts are read by the revocation list, the client
profile and the snapshot. This file proves that they are those of the certificate in the row, as
long as no `Patch` sets texts that disagree with them.

The handlers that issue or import a certificate take the columns from the parsed text. `Patch` sets
the text alone, or some of the columns beside it, and compares nothing, and the import of an index
writes the columns of a row that may have a text. So the condition is on these operations: what a
`Patch` sets agrees with the row, and an index lists no row that has a certificate.

## Main definitions

* `Describes`: the columns of a row are those of its certificate.
* `KeepsDescription`: the condition on an operation.

## Main results

* `describes_apply`: what one operation keeps.
* `row_describes_pem`: in every run a row describes its certificate.
* `patched_row_disagrees`: a `Patch` that sets another certificate.
-/

namespace OpenvpnControl.Certificates

open Panel (Db Certificate UniqueCerts ServerCertEnv SettingsEnv)
open Cert (X509 SyncEnv IssuedImport)
open Handlers (HandlerEnv Fields)
open Handlers.Certificates (Inserts setColumns patchedCert patchedKey)

variable (x : X509) (R : String → String → Prop)

/-- A row describes its certificate: the text can be read, the serial number and the expiry are
those of the certificate, the common name stands in the relation `R` to its subject CN, and a key
matches it. -/
def Describes (c : Certificate) : Prop :=
  ∀ pem ∈ c.certPem, pem ≠ "" → ∃ leaf, x.parseCertificate pem = .ok leaf ∧
    c.serialNumber = Cert.serialHex leaf ∧ R c.commonName leaf.subjectCN ∧
    c.expiresAt = leaf.notAfter ∧
    ∀ key ∈ c.keyPem, key ≠ "" → Cert.keysMatch x pem key = .ok ()

/-- The common name is the subject CN, or what the import of a server certificate makes of it. -/
def IsServerCNOf (cn subjectCN : String) : Prop :=
  cn = subjectCN ∨ ∃ nodeName agentNodeID, cn = Panel.serverCN subjectCN nodeName agentNodeID

/-- The row with the texts a `Patch` sets. -/
def withTexts (fields : Fields) (c : Certificate) : Certificate :=
  { c with
    certPem :=
      if Handlers.hasField fields "certPem" then Handlers.nullableID (Json.field fields "certPem")
      else c.certPem
    keyPem :=
      if Handlers.hasField fields "keyPem" then Handlers.nullableID (Json.field fields "keyPem")
      else c.keyPem }

/-- The condition on an operation. A `Patch` of the row that names a text sets texts that agree with
the row; the common name of an imported server certificate stands in the relation to its subject CN;
an import of an index does not list a row that has a certificate. -/
def KeepsDescription (id : String) (db : Db) : CertOp → Prop
  | .patch _ patched body =>
    patched = id → ∀ c ∈ db.cert id, ∀ fields ∈ body,
      Handlers.hasField fields "certPem" = true ∨ Handlers.hasField fields "keyPem" = true →
      Describes x R (withTexts fields c)
  | .importServer _ inp =>
    ∀ node ∈ db.node inp.agentNodeID, ∀ leaf,
      x.parseCertificate (GoStrings.trimSpace inp.certPEM) = .ok leaf →
      R (Panel.serverCN leaf.subjectCN node.name inp.agentNodeID) leaf.subjectCN
  | .syncIssued env imp text => ∀ c ∈ db.cert id, c.certPem ≠ none → ¬Lists env imp text c
  | _ => True

variable {x R} {db : Db} {id : String}

/-! ### What a write leaves -/

/-- A row without a certificate describes it. -/
theorem describes_of_no_cert {c : Certificate} (h : c.certPem = none) : Describes x R c := by
  intro pem hpem
  rw [h] at hpem
  cases hpem

/-- Only the described columns count. -/
theorem Describes.congr {c d : Certificate} (h : Describes x R c) (hcert : d.certPem = c.certPem)
    (hkey : d.keyPem = c.keyPem) (hserial : d.serialNumber = c.serialNumber)
    (hcn : d.commonName = c.commonName) (hexp : d.expiresAt = c.expiresAt) : Describes x R d := by
  rw [Describes, hcert, hkey, hserial, hcn, hexp]
  exact h

/-- A row written with a certificate that is read and a key that matches. -/
theorem describes_of_leaf {c : Certificate} {certPEM keyPEM : String} {leaf : Cert.X509Certificate}
    (hcert : c.certPem = some certPEM) (hkey : c.keyPem = some keyPEM)
    (hparse : x.parseCertificate certPEM = .ok leaf)
    (hserial : c.serialNumber = Cert.serialHex leaf) (hcn : R c.commonName leaf.subjectCN)
    (hexp : c.expiresAt = leaf.notAfter)
    (hkeys : Cert.keysMatch x certPEM keyPEM = .ok ()) : Describes x R c := by
  intro pem hpem _
  rw [hcert] at hpem
  cases hpem
  refine ⟨leaf, hparse, hserial, hcn, hexp, fun key hk _ => ?_⟩
  rw [hkey] at hk
  cases hk
  exact hkeys

theorem describes_created (hx : x.Lawful) (hrefl : ∀ cn, R cn cn) {env : HandlerEnv}
    {row : Certificate} {root : Panel.RootCertificateAuthority} {leaf : Cert.IssuedLeaf} {days : ℤ}
    (hleaf : Cert.issueLeaf x env.now root.certPem root.keyPem row.commonName days = .ok leaf)
    (hserial : row.serialNumber = Handlers.Certificates.serialOr env db leaf.serial)
    (hcert : row.certPem = some leaf.certPEM) (hkey : row.keyPem = some leaf.keyPEM)
    (hexp : row.expiresAt = leaf.expiresAt) : Describes x R row := by
  obtain ⟨c, hparse, hcn, hser, hnot, hkeys⟩ := Cert.issueLeaf_spec hx hleaf
  rw [hser, Handlers.Certificates.serialOr_serialHex] at hserial
  exact describes_of_leaf hcert hkey hparse hserial (hcn ▸ hrefl _) (hexp.trans hnot) hkeys

/-- The values of a server certificate are those of the certificate in it. -/
structure LeafDescribes (x : X509) (R : String → String → Prop) (leaf : Panel.ServerLeaf)
    (c : Cert.X509Certificate) : Prop where
  parse : x.parseCertificate leaf.certPEM = .ok c
  serial : leaf.serial = Cert.serialHex c
  cn : R leaf.cn c.subjectCN
  expiresAt : leaf.expiresAt = c.notAfter
  keys : Cert.keysMatch x leaf.certPEM leaf.keyPEM = .ok ()

theorem describes_leafStored {env : ServerCertEnv} {leaf : Panel.ServerLeaf}
    {c : Cert.X509Certificate} {certs : List Certificate} (hunique : UniqueCerts db.certs)
    (hleaf : LeafDescribes x R leaf c) (hstored : Panel.LeafStored env db leaf certs)
    (h : ∀ c ∈ db.certs, c.id = id → Describes x R c) : ∀ c ∈ certs,
    c.id = id → Describes x R c := by
  intro d hd hid
  cases hstored with
  | bySerial hfind hnode huser =>
    rcases Rows.mem_updateWhere.1 hd with ⟨hd, -⟩ | ⟨d₀, hd₀, hp, rfl⟩
    · exact h d hd hid
    · -- the row is the one of the serial number
      obtain ⟨hex, hserial⟩ := Rows.mem_of_byKey_eq_some hfind
      rw [hunique.1.eq_of_key hd₀ hex (by simpa using hp)]
      exact describes_of_leaf rfl rfl hleaf.parse (hserial.trans hleaf.serial) hleaf.cn
        hleaf.expiresAt hleaf.keys
  | byCN hfind huniq =>
    rcases Rows.mem_updateWhere.1 hd with ⟨hd, -⟩ | ⟨d₀, hd₀, hp, rfl⟩
    · exact h d hd hid
    · -- the row is one of the common name
      obtain ⟨hex, hp'⟩ := Rows.Choice.mem_of_select hfind
      obtain ⟨hcn, -, -⟩ := of_decide_eq_true hp'
      rw [hunique.1.eq_of_key hd₀ hex (by simpa using hp)]
      refine describes_of_leaf rfl rfl hleaf.parse hleaf.serial ?_ hleaf.expiresAt hleaf.keys
      exact hcn ▸ hleaf.cn
  | inserted _ =>
    rcases List.mem_append.1 hd with hd | hd
    · exact h d hd hid
    · rw [List.mem_singleton.1 hd]
      exact describes_of_leaf rfl rfl hleaf.parse hleaf.serial hleaf.cn hleaf.expiresAt hleaf.keys

/-- The texts a `Patch` leaves in a row. -/
theorem withTexts_of_ok {existing : Certificate} {fields : Fields} {certPEM keyPEM : Option String}
    (hcert : patchedCert x existing fields = .ok certPEM)
    (hkey : patchedKey existing fields = .ok keyPEM) :
    (withTexts fields existing).certPem = certPEM ∧ (withTexts fields existing).keyPem = keyPEM :=
  ⟨(Handlers.Certificates.patchedCert_of_ok hcert).symm,
    (Handlers.Certificates.patchedKey_of_ok hkey).symm⟩

/-- **One operation keeps the description of a row.** -/
theorem describes_apply (hx : x.Lawful) (hrefl : ∀ cn, R cn cn) {op : CertOp}
    (hunique : UniqueCerts db.certs) (hok : KeepsDescription x R id db op)
    (h : ∀ c ∈ db.certs, c.id = id → Describes x R c) :
    ∀ c ∈ (op.apply x db).certs, c.id = id → Describes x R c := by
  have heff : CertEffect x db op (op.apply x db).certs (op.apply x db).roots := op.effect
  generalize (op.apply x db).certs = certs at heff ⊢
  generalize (op.apply x db).roots = roots at heff
  -- a row that is inserted
  have hinsert : ∀ {row}, Describes x R row →
      ∀ c ∈ db.certs ++ [row], c.id = id → Describes x R c := by
    intro row hrow c hc hid
    rcases List.mem_append.1 hc with hc | hc
    · exact h c hc hid
    · rwa [List.mem_singleton.1 hc]
  -- a row whose revocation is rewritten
  have hrevoked : ∀ {certs' certs'' : List Certificate},
      (∀ c ∈ certs', c.id = id → Describes x R c) →
      Cert.RevokedChange certs' certs'' → ∀ c ∈ certs'', c.id = id → Describes x R c := by
    intro certs' certs'' hI hchange c hc hid
    cases hchange with
    | same => exact hI c hc hid
    | revoked _ now reason =>
      rcases Rows.mem_updateWhere.1 hc with ⟨hc, -⟩ | ⟨d, hd, -, rfl⟩
      · exact hI c hc hid
      · exact (hI d hd hid).congr rfl rfl rfl rfl rfl
    | created row hrow _ _ =>
      rcases List.mem_append.1 hc with hc | hc
      · exact hI c hc hid
      · rw [List.mem_singleton.1 hc]
        exact describes_of_no_cert hrow
  cases heff with
  | refused => exact h
  | created _ hleaf hserial hcert hkey hexp =>
    exact hinsert (describes_created hx hrefl hleaf hserial hcert hkey hexp)
  | imported _ hctrim hktrim hkeys hparse hcn hserial hcert hkey hexp =>
    exact hinsert (describes_of_leaf hcert hkey (hx.parse_ensurePEMNewline hctrim hparse) hserial
      (hcn ▸ hrefl _) hexp (hx.keysMatch_ensurePEMNewline hctrim hktrim hkeys))
  | @patched _ _ fields _ _ _ _ _ hex _ _ hcert hkey _ =>
    intro c hc hid
    rcases Rows.mem_updateWhere.1 hc with ⟨hc, -⟩ | ⟨d, hd, hp, rfl⟩
    · exact h c hc hid
    · -- the row that is rewritten is the one that was read
      obtain ⟨hexm, hexid⟩ := Rows.mem_of_byKey_eq_some hex
      have hdid : d.id = _ := of_decide_eq_true hp
      have hde := hunique.1.eq_of_key hd hexm (hdid.trans hexid.symm)
      subst hde
      obtain rfl : _ = id := hdid.symm.trans hid
      obtain ⟨hcert', hkey'⟩ := withTexts_of_ok hcert hkey
      have htexts : Describes x R (withTexts fields d) := by
        by_cases hhas : Handlers.hasField fields "certPem" = true ∨
            Handlers.hasField fields "keyPem" = true
        · exact hok rfl d hex fields rfl hhas
        · rw [not_or] at hhas
          refine (h d hd hid).congr ?_ ?_ rfl rfl rfl
          · exact if_neg hhas.1
          · exact if_neg hhas.2
      exact htexts.congr hcert'.symm hkey'.symm rfl rfl rfl
  | revoked =>
    exact hrevoked h (.revoked _ _ _)
  | issuedSynced =>
    intro c hc hid
    rcases mem_syncIssued_cases hunique c hc with hc | hc | ⟨d, hd, hlists, hdid, hcert⟩
    · exact h c hc hid
    · exact describes_of_no_cert hc
    · refine describes_of_no_cert ?_
      by_contra hne
      rw [hcert] at hne
      have hrow : db.cert id = some d :=
        (Rows.byKey_eq_some hunique.1).2 ⟨hd, hdid.symm.trans hid⟩
      exact hok d hrow hne hlists
  | revokedSynced => exact Cert.syncRevokedInventory_induction (fun _ _ hI => hrevoked hI) h
  | crlSynced => exact Cert.syncRevokedFromCRL_induction (fun _ _ hI => hrevoked hI) h
  | serverIssued hissued hserial hcert hkey hexp _ =>
    obtain ⟨c, hparse, hcn, hser, hnot, hkeys⟩ := Cert.issueLeaf_spec hx hissued
    rw [← hcert] at hparse hkeys
    rw [← hkey] at hkeys
    exact hinsert (describes_of_leaf rfl rfl hparse (hserial.trans hser) (hcn ▸ hrefl _)
      (hexp.trans hnot) hkeys)
  | serverImported hnode hparse hkeys hcn hid hserial hexp hcert hkey hstored =>
    refine describes_leafStored hunique ⟨?_, hserial, ?_, hexp, ?_⟩ hstored h
    · rw [hcert]
      exact hx.parse_ensurePEMNewline (GoStrings.trimSpace_trimSpace _) hparse
    · rw [hcn]
      exact hok _ hnode _ hparse
    · rw [hcert, hkey]
      exact hx.keysMatch_ensurePEMNewline (GoStrings.trimSpace_trimSpace _)
        (GoStrings.trimSpace_trimSpace _) hkeys
  | serverDeleted => exact fun c hc => h c (Rows.mem_deleteWhere.1 hc).1
  | detached hd =>
    intro c hc hid
    cases hd with
    | refused => exact h c hc hid
    | kept _ hcerts _ =>
      rw [hcerts] at hc
      exact h c (Rows.mem_deleteWhere.1 hc).1 hid
    | deleted _ hcerts _ =>
      rw [hcerts] at hc
      rcases Rows.mem_updateWhere.1 hc with ⟨hc, -⟩ | ⟨d, hd, -, rfl⟩
      · exact h c (Rows.mem_deleteWhere.1 hc).1 hid
      · exact (h d (Rows.mem_deleteWhere.1 hd).1 hid).congr rfl rfl rfl rfl rfl

/-- What every operation keeps, a run keeps. -/
theorem describes_run (hx : x.Lawful) (hrefl : ∀ cn, R cn cn) {db' : Db} {ops : List CertOp}
    (hunique : UniqueCerts db.certs)
    (hok : Runs.Meets (certStep x) (KeepsDescription x R id) db ops)
    (hrun : Runs.run (certStep x) db ops = some db')
    (h : ∀ c ∈ db.certs, c.id = id → Describes x R c) :
    ∀ c ∈ db'.certs, c.id = id → Describes x R c := by
  refine (Runs.run_invariant_of_meets
    (I := fun db => UniqueCerts db.certs ∧ ∀ c ∈ db.certs, c.id = id → Describes x R c)
    ?_ ⟨hunique, h⟩ hok hrun).2
  rintro db op _ ⟨hunique, h⟩ hok ⟨⟩
  exact ⟨op.uniqueCerts_apply hunique, describes_apply hx hrefl hunique hok h⟩

/-- **A row describes its certificate.** In every run from any database, a row that describes its
certificate or is new does so afterwards, when every `Patch` that sets a text of it sets one that
agrees with it. Its common name is the subject CN or what the import of a server certificate makes
of it, and the subject CN itself where no import of a server certificate changes one. -/
theorem row_describes_pem (hx : x.Lawful) {db' : Db} {ops : List CertOp}
    (hunique : UniqueCerts db.certs) (hrun : Runs.run (certStep x) db ops = some db') :
    (Runs.Meets (certStep x) (KeepsDescription x IsServerCNOf id) db ops →
      (∀ c ∈ db.certs, c.id = id → Describes x IsServerCNOf c) →
        ∀ c ∈ db'.certs, c.id = id → Describes x IsServerCNOf c) ∧
      (Runs.Meets (certStep x) (KeepsDescription x Eq id) db ops →
        (∀ c ∈ db.certs, c.id = id → Describes x Eq c) →
          ∀ c ∈ db'.certs, c.id = id → Describes x Eq c) :=
  ⟨fun hok => describes_run hx (fun _ => Or.inl rfl) hunique hok hrun,
    fun hok => describes_run hx (fun _ => rfl) hunique hok hrun⟩

/-- A request for a certificate of `alice` on the node. -/
def createAlice : CertOp :=
  .create quietEnv (some [("commonName", .str "alice"), ("rootCaId", .str "r1"),
    ("agentNodeId", .str "n1")])

/-- An import of the server certificate `my vpn`. -/
def importVpn : CertOp :=
  .importServer quietServerEnv
    ⟨"n1", "r1", "BEGIN CERTIFICATE vpn", "BEGIN PRIVATE KEY vpn"⟩

/-- A certificate is issued, unbound from its node and revoked, and a server certificate
imported. -/
def issueAndRevoke : List CertOp :=
  [createAlice, .patch quietEnv "k" (some [("agentNodeId", .null)]), importVpn,
    .revoke quietEnv "k" ""]

theorem row_describes_pem_issueAndRevoke :
    ∃ db', Runs.run (certStep Cert.sampleX509) oneNode issueAndRevoke = some db' ∧
      db'.certs.map (·.commonName) = ["alice", "my_vpn"] ∧
      ∀ c ∈ db'.certs, c.id = "k" → Describes Cert.sampleX509 IsServerCNOf c := by
  refine ⟨_, rfl, by decide +kernel, ?_⟩
  refine (@row_describes_pem _ oneNode "k" Cert.sampleX509_lawful _ issueAndRevoke
    (by decide) rfl).1 ?_ ?_
  · refine ⟨trivial, fun _ _ => ⟨?_, fun _ _ => ⟨?_, fun _ _ => ⟨trivial, fun _ _ => trivial⟩⟩⟩⟩
    · rintro - c - fields ⟨⟩ hhas
      exact absurd hhas (by decide)
    · exact fun node _ leaf _ => Or.inr ⟨_, _, rfl⟩
  · exact fun c hc => absurd hc (List.not_mem_nil)

/-- The row of `alice` with a certificate text. -/
def aliceRow (certPEM : String) : Certificate where
  id := "k"
  commonName := "alice"
  serialNumber := "A"
  issuedBy := "ca"
  rootCaId := some "r1"
  agentNodeId := some "n1"
  vpnUserId := none
  certPem := some certPEM
  keyPem := some "BEGIN PRIVATE KEY alice"
  expiresAt := 100 * Cert.day
  createdAt := 1000
  revokedAt := none
  revokedReason := none

/-- The row of the imported server certificate. -/
def vpnRow : Certificate where
  id := "k"
  commonName := "my_vpn"
  serialNumber := "C"
  issuedBy := "ca"
  rootCaId := some "r1"
  agentNodeId := some "n1"
  vpnUserId := none
  certPem := some "BEGIN CERTIFICATE vpn\n"
  keyPem := some "BEGIN PRIVATE KEY vpn\n"
  expiresAt := 100 * Cert.day
  createdAt := 1000
  revokedAt := none
  revokedReason := none

/-- **A `Patch` sets another certificate**, and the import of a server certificate changes a common
name. -/
theorem patched_row_disagrees :
    (∃ db', Runs.run (certStep Cert.sampleX509) oneNode
        [createAlice, .patch quietEnv "k" (some [("certPem", .str "BEGIN CERTIFICATE bob")])] =
          some db' ∧ ∃ c ∈ db'.certs, ¬Describes Cert.sampleX509 IsServerCNOf c) ∧
      ∃ db', Runs.run (certStep Cert.sampleX509) oneNode [importVpn] = some db' ∧
        ∃ c ∈ db'.certs, ¬Describes Cert.sampleX509 Eq c := by
  refine ⟨⟨_, rfl, aliceRow "BEGIN CERTIFICATE bob", by decide +kernel, fun h => ?_⟩,
    ⟨_, rfl, vpnRow, by decide +kernel, fun h => ?_⟩⟩
  · obtain ⟨leaf, hparse, hserial, -⟩ := h _ rfl (by decide)
    obtain rfl : _ = leaf := Except.ok.inj hparse
    exact absurd hserial (by decide +kernel)
  · obtain ⟨leaf, hparse, -, hcn, -⟩ := h _ rfl (by decide)
    obtain rfl : _ = leaf := Except.ok.inj hparse
    exact absurd hcn (by decide +kernel)

end OpenvpnControl.Certificates
