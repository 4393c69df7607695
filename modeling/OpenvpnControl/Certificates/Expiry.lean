import OpenvpnControl.Handlers.Certificates
import OpenvpnControl.Panel.Servercert

/-!
# When a leaf expires before its root

A leaf is issued for a number of days. `IssueServerCertificateForAgentNode` caps them by the days
the root has left, which it rounds up; `Create` does not look at the root. This file determines for
which requests the leaf expires no later than the root. Times are in seconds, as the dates of a
certificate are, and one call has one time.

## Main definitions

* `KeepsExpiry`: a created certificate expires when it was asked to.
* `WithinRoot`: the certificates that a call adds expire no later than the root.

## Main results

* `issueServer_withinRoot_iff`, `create_withinRoot_iff`: when each of the two calls does so.
-/

namespace OpenvpnControl.Certificates

open Panel (Db Certificate ServerCertEnv IssueServerCertInput RootCertificateAuthority
  issueServerCertificateForAgentNode rootCaRemainingValidityDays)
open Cert (X509 X509Certificate)
open Handlers (HandlerEnv textField)

/-- What the issuing relies on: a created certificate can be read, and expires when it was asked
to. -/
def KeepsExpiry (x : X509) : Prop :=
  ∀ {caCert caKey cn notAfter certPEM keyPEM},
    x.createLeaf caCert caKey cn notAfter = .ok (certPEM, keyPEM) →
      ∃ c, x.parseCertificate certPEM = .ok c ∧ c.notAfter = notAfter

/-- The certificates that a call adds expire no later than the root. -/
def WithinRoot (x : X509) (ca : X509Certificate) (db db' : Db) : Prop :=
  ∀ row ∈ db'.certs, row ∉ db.certs → ∀ pem ∈ row.certPem, ∀ c,
    x.parseCertificate pem = .ok c → c.notAfter ≤ ca.notAfter

variable {x : X509} {ca : X509Certificate} {root : RootCertificateAuthority} {db db' : Db}

/-- The expiry of an issued leaf. -/
theorem issueLeaf_notAfter (hx : KeepsExpiry x) {now days : ℤ} {caCertPEM caKeyPEM cn : String}
    {leaf : Cert.IssuedLeaf} (h : Cert.issueLeaf x now caCertPEM caKeyPEM cn days = .ok leaf) :
    ∃ c, x.parseCertificate leaf.certPEM = .ok c ∧
      c.notAfter = now + Cert.leafDays days * Cert.day := by
  rw [Cert.issueLeaf, Refusals.bind_eq_ok] at h
  obtain ⟨caCert, -, h⟩ := h
  rw [Refusals.bind_eq_ok] at h
  obtain ⟨-, -, h⟩ := h
  rw [Refusals.bind_eq_ok] at h
  obtain ⟨⟨certPEM, keyPEM⟩, hcreate, h⟩ := h
  obtain ⟨c, hparse, hexpiry⟩ := hx hcreate
  simp only [hparse, Refusals.pure_eq_ok] at h
  subst h
  exact ⟨c, hparse, hexpiry⟩

/-- A call that adds one row is within the root when the certificate of the row is. -/
theorem withinRoot_iff_of_append {row : Certificate} (hid : row.id ∉ db.certs.map (·.id))
    (hcerts : db'.certs = db.certs ++ [row]) {pem : String} (hpem : row.certPem = some pem)
    {c : X509Certificate} (hparse : x.parseCertificate pem = .ok c) :
    WithinRoot x ca db db' ↔ c.notAfter ≤ ca.notAfter := by
  constructor
  · intro h
    have hnew : row ∉ db.certs := fun hmem => hid (List.mem_map_of_mem hmem)
    exact h row (hcerts ▸ List.mem_append_right _ List.mem_cons_self) hnew pem hpem c hparse
  · intro h row' hrow' hnew pem' hpem' c' hparse'
    rw [hcerts, List.mem_append, List.mem_singleton] at hrow'
    obtain rfl := hrow'.resolve_left hnew
    obtain rfl := Option.some.inj (hpem.symm.trans hpem')
    obtain rfl := Except.ok.inj (hparse.symm.trans hparse')
    exact h

theorem id_not_mem_of_unique {certs : List Certificate} {row : Certificate}
    (h : Panel.UniqueCerts (certs ++ [row])) : row.id ∉ certs.map (·.id) := by
  have hids := h.1
  rw [Rows.HasKey, List.map_append, List.nodup_append'] at hids
  exact fun hmem => hids.2.2 hmem (by simp)

/-! ### Server certificates -/

/-- The days a server certificate is asked for. -/
def serverDays (validityDays : ℤ) : ℤ := min (if validityDays < 1 then 825 else validityDays) 3650

/-- A whole number of days, capped by the rounded up rest of a time, fits into the time when it is
not the cap, or the time is a whole number of days. -/
theorem capped_days_le_iff (days rest : ℤ) :
    min days (-(-rest / Cert.day)) * Cert.day ≤ rest ↔
    days * Cert.day ≤ rest ∨ Cert.day ∣ rest := by
  unfold Cert.day at *
  omega

/-- **When a server certificate expires no later than its root**: the days asked for fit into the
rest of the root's time, or that is a whole number of days. -/
theorem issueServer_withinRoot_iff (hx : KeepsExpiry x)
    (hca : x.parseCertificate root.certPem = .ok ca) {env : ServerCertEnv}
    {inp : IssueServerCertInput} (hroot : db.root (GoStrings.trimSpace inp.rootCaID) = some root)
    (h : issueServerCertificateForAgentNode x env db inp = .ok db') :
    WithinRoot x ca db db' ↔
      serverDays inp.validityDays * Cert.day ≤ ca.notAfter - env.now ∨
        Cert.day ∣ ca.notAfter - env.now := by
  simp only [issueServerCertificateForAgentNode, Panel.insertServerCert, Refusals.bind_eq_ok,
    Refusals.fetch_eq_ok, Refusals.require_eq_ok, Refusals.pure_eq_ok] at h
  obtain ⟨node, -, -, -, root', hroot', -, -, -, hrest, issued, hissued, certs, hstore, rfl⟩ := h
  obtain rfl := Option.some.inj (hroot.symm.trans hroot')
  obtain ⟨huniq, rfl⟩ := Panel.storeCerts_eq_some.1 hstore
  obtain ⟨c, hparse, hexpiry⟩ := issueLeaf_notAfter hx hissued
  rw [withinRoot_iff_of_append (id_not_mem_of_unique huniq) rfl rfl hparse, hexpiry]
  have hremaining : rootCaRemainingValidityDays x env.now root.certPem =
      max 0 (-((env.now - ca.notAfter) / Cert.day)) := by
    rw [rootCaRemainingValidityDays, hca]
  rw [hremaining] at hrest ⊢
  have hdays : 1 ≤ serverDays inp.validityDays := by
    rw [serverDays]
    split_ifs <;> omega
  have hle : serverDays inp.validityDays ≤ 3650 := min_le_right _ _
  have hiff := capped_days_le_iff (serverDays inp.validityDays) (ca.notAfter - env.now)
  rw [neg_sub] at hiff
  rw [← hiff, ← serverDays, Cert.leafDays]
  unfold Cert.day at *
  omega

/-! ### Certificates of the handler -/

/-- **When a certificate of `Create` expires no later than its root**: the days asked for, as
`IssueLeaf` bounds them, fit into the rest of the root's time. -/
theorem create_withinRoot_iff (hx : KeepsExpiry x) {env : HandlerEnv} {fields : Handlers.Fields}
    (hroot : db.root (textField fields "rootCaId") = some root)
    (h : Handlers.Certificates.create x env db (some fields) = .ok db') :
    WithinRoot x ca db db' ↔
      Cert.leafDays (Handlers.Certificates.requestedDays env (textField fields "expiresAt")) *
        Cert.day ≤ ca.notAfter - env.now := by
  simp only [Handlers.Certificates.create, Refusals.bind_eq_ok, Refusals.fetch_eq_ok,
    Refusals.require_eq_ok, Refusals.mapError_eq_ok, Refusals.pure_eq_ok] at h
  obtain ⟨fields', hfields, -, -, -, -, -, -, root', hroot', -, -, -, -, leaf, hleaf, certs, hstore,
    rfl⟩ := h
  obtain rfl := Option.some.inj hfields
  obtain rfl := Option.some.inj (hroot.symm.trans hroot')
  obtain ⟨huniq, rfl⟩ := Panel.storeCerts_eq_some.1 hstore
  obtain ⟨c, hparse, hexpiry⟩ := issueLeaf_notAfter hx hleaf
  rw [withinRoot_iff_of_append (id_not_mem_of_unique huniq) ?_ rfl hparse, hexpiry]
  · omega
  · exact Panel.Db.certs_enqueueSnapshots _ _ _

/-- **When an issued certificate never outlives its root**, for each of the two ways to issue one.
The days of a server certificate are cut to those that are left of its root, rounded up, so that the
last day may reach over the end; those of a user's certificate are not compared with the root at
all. -/
theorem leaf_within_root_iff (hx : KeepsExpiry x) (hca : x.parseCertificate root.certPem = .ok ca) :
    (∀ (env : ServerCertEnv) (db db' : Db) (inp : IssueServerCertInput),
      db.root (GoStrings.trimSpace inp.rootCaID) = some root →
      issueServerCertificateForAgentNode x env db inp = .ok db' →
      (WithinRoot x ca db db' ↔
        serverDays inp.validityDays * Cert.day ≤ ca.notAfter - env.now ∨
          Cert.day ∣ ca.notAfter - env.now)) ∧
    ∀ (env : HandlerEnv) (db db' : Db) (fields : Handlers.Fields),
      db.root (textField fields "rootCaId") = some root →
      Handlers.Certificates.create x env db (some fields) = .ok db' →
      (WithinRoot x ca db db' ↔
        Cert.leafDays (Handlers.Certificates.requestedDays env (textField fields "expiresAt")) *
          Cert.day ≤ ca.notAfter - env.now) :=
  ⟨fun _ _ _ _ hroot h => issueServer_withinRoot_iff hx hca hroot h,
    fun _ _ _ _ hroot h => create_withinRoot_iff hx hroot h⟩

/-! ### A root of a given lifetime -/

/-- A library with a root that expires at a time, and a leaf that it signs for another time. -/
def expiryX509 (rootEnds leafEnds : ℤ) : X509 where
  parseCertificate s :=
    if s = "root" then .ok ⟨1, "ca", "CN=ca", "CN=ca", rootEnds, true, .ok "root"⟩
    else if s = "leaf" then .ok ⟨10, "alice", "CN=alice", "CN=ca", leafEnds, false, .ok "leaf"⟩
    else .error "invalid certificate PEM"
  parsePrivateKey _ := .ok (.ok "leaf")
  verify _ _ := true
  createLeaf _ _ cn notAfter :=
    if cn = "alice" ∧ notAfter = leafEnds then .ok ("leaf", "leaf key")
      else .error "x509: cannot sign"
  parseRevocationList _ := none

theorem expiryX509_keepsExpiry (rootEnds leafEnds : ℤ) :
    KeepsExpiry (expiryX509 rootEnds leafEnds) := by
  intro caCert caKey cn notAfter certPEM keyPEM h
  simp only [expiryX509] at h
  split_ifs at h with hleaf
  cases h
  rw [hleaf.2]
  exact ⟨_, rfl, rfl⟩

/-- The row of this root. -/
def expiryRoot : RootCertificateAuthority := ⟨"r1", "ca", "ca", "root", "root key"⟩

/-- A database with this root and a node. -/
def expiryDb : Db :=
  { Db.empty with
    nodes := [⟨"n1", "node"⟩]
    roots := [expiryRoot] }

/-- A request for a certificate of `alice` without an expiry. -/
def aliceBody : Handlers.Fields := [("commonName", .str "alice"), ("rootCaId", .str "r1")]

/-- A server certificate for a hundred days, and a certificate of `Create` for a year. -/
theorem leaf_within_root_iff_alice :
    (∃ db', issueServerCertificateForAgentNode (expiryX509 (1000 * Cert.day) (100 * Cert.day))
        (.quiet 0 GoStrings.freshText) expiryDb ⟨"n1", "r1", "alice", 100⟩ = .ok db' ∧
      (WithinRoot (expiryX509 (1000 * Cert.day) (100 * Cert.day))
          ⟨1, "ca", "CN=ca", "CN=ca", 1000 * Cert.day, true, .ok "root"⟩ expiryDb db' ↔
        serverDays 100 * Cert.day ≤ 1000 * Cert.day - 0 ∨ Cert.day ∣ 1000 * Cert.day - 0)) ∧
    ∃ db', Handlers.Certificates.create (expiryX509 (1000 * Cert.day) (365 * Cert.day))
        (.quiet 0 GoStrings.freshText) expiryDb (some aliceBody) = .ok db' ∧
      (WithinRoot (expiryX509 (1000 * Cert.day) (365 * Cert.day))
          ⟨1, "ca", "CN=ca", "CN=ca", 1000 * Cert.day, true, .ok "root"⟩ expiryDb db' ↔
        Cert.leafDays (Handlers.Certificates.requestedDays (.quiet 0 GoStrings.freshText)
          (textField aliceBody "expiresAt")) * Cert.day ≤ 1000 * Cert.day - 0) := by
  constructor
  · obtain ⟨db', hdb'⟩ : ∃ db', issueServerCertificateForAgentNode
        (expiryX509 (1000 * Cert.day) (100 * Cert.day)) (.quiet 0 GoStrings.freshText) expiryDb
        ⟨"n1", "r1", "alice", 100⟩ = .ok db' := Refusals.exists_of_isOk (by decide +kernel)
    exact ⟨db', hdb', (@leaf_within_root_iff _ _ expiryRoot (expiryX509_keepsExpiry _ _) rfl).1
      _ _ _ _ (by decide +kernel) hdb'⟩
  · obtain ⟨db', hdb'⟩ : ∃ db', Handlers.Certificates.create
        (expiryX509 (1000 * Cert.day) (365 * Cert.day)) (.quiet 0 GoStrings.freshText) expiryDb
        (some aliceBody) = .ok db' := Refusals.exists_of_isOk (by decide +kernel)
    exact ⟨db', hdb', (@leaf_within_root_iff _ _ expiryRoot (expiryX509_keepsExpiry _ _) rfl).2
      _ _ _ _ (by decide +kernel) hdb'⟩

/-- A root with ten days and a half left signs a server certificate for eleven days, and a
certificate of `Create` for a year. -/
theorem leaf_outlives_root :
    (¬∀ (x : X509) (ca : X509Certificate) (root : RootCertificateAuthority) (env : ServerCertEnv)
        (db db' : Db) (inp : IssueServerCertInput), KeepsExpiry x →
      x.parseCertificate root.certPem = .ok ca → env.now < ca.notAfter →
      db.root (GoStrings.trimSpace inp.rootCaID) = some root →
      issueServerCertificateForAgentNode x env db inp = .ok db' → WithinRoot x ca db db') ∧
    ¬∀ (x : X509) (ca : X509Certificate) (root : RootCertificateAuthority) (env : HandlerEnv)
        (db db' : Db) (fields : Handlers.Fields), KeepsExpiry x →
      x.parseCertificate root.certPem = .ok ca → env.now < ca.notAfter →
      db.root (textField fields "rootCaId") = some root →
      Handlers.Certificates.create x env db (some fields) = .ok db' → WithinRoot x ca db db' := by
  constructor
  · intro h
    obtain ⟨db', hdb'⟩ : ∃ db', issueServerCertificateForAgentNode (expiryX509 907200 950400)
        (.quiet 0 GoStrings.freshText) expiryDb ⟨"n1", "r1", "alice", 0⟩ = .ok db' :=
      Refusals.exists_of_isOk (by decide +kernel)
    have hwithin := h _ _ expiryRoot _ _ _ _
      (expiryX509_keepsExpiry 907200 950400) rfl (by decide) (by decide +kernel) hdb'
    rw [@issueServer_withinRoot_iff _ _ expiryRoot
      _ _ (expiryX509_keepsExpiry 907200 950400) rfl _ _ (by decide +kernel) hdb'] at hwithin
    exact absurd hwithin (by decide)
  · intro h
    obtain ⟨db', hdb'⟩ : ∃ db', Handlers.Certificates.create (expiryX509 907200 (365 * Cert.day))
        (.quiet 0 GoStrings.freshText) expiryDb (some aliceBody) = .ok db' :=
      Refusals.exists_of_isOk (by decide +kernel)
    have hwithin := h _ _ expiryRoot _ _ _ _
      (expiryX509_keepsExpiry 907200 (365 * Cert.day)) rfl (by decide) (by decide +kernel) hdb'
    rw [@create_withinRoot_iff _ _ expiryRoot _ _ (expiryX509_keepsExpiry 907200
      (365 * Cert.day)) _ _ (by decide +kernel) hdb'] at hwithin
    exact absurd hwithin (by decide +kernel)

end OpenvpnControl.Certificates
