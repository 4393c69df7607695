import OpenvpnControl.Certificates.Operations

/-!
# Only leaves are bound to users

`Patch` refuses to bind the certificate of an authority to a user. The pair of a user and a
certificate is completed in other ways too. This file proves that a user has a leaf certificate in
every state, as long as the operations that complete the pair without asking are given one.

## Main definitions

* `BoundLeaf`: a row with a user has no certificate of an authority.
* `BindsLeaf`: the condition on an operation.

## Main results

* `boundLeaf_apply`: what one operation keeps.
* `user_certificates_are_leaves`: in every run a user has leaf certificates only.
* `user_has_root_certificate`: an import and a `Patch` that give a user the root.
-/

namespace OpenvpnControl.Certificates

open Panel (Db Certificate UniqueCerts ServerCertEnv SettingsEnv)
open Cert (X509 SyncEnv IssuedImport)
open Handlers (HandlerEnv Fields)

variable (x : X509) (nameOf : String → String)

/-- A row with a user has no certificate of an authority, and none that is signed by itself. -/
def BoundLeaf (c : Certificate) : Prop :=
  c.vpnUserId ≠ none → ∀ pem ∈ c.certPem, pem ≠ "" → Cert.isCAOrSelfSigned x pem = false

instance (c : Certificate) : Decidable (BoundLeaf x c) := by
  unfold BoundLeaf
  infer_instance

/-- The condition on an operation. A certificate that is issued for a user does not have the name of
the root; one that is imported for a user is a leaf; and so is one that a `Patch` sets in the row of
a user without naming the user. -/
def BindsLeaf (db : Db) : CertOp → Prop
  | .create _ body => ∀ fields ∈ body, Handlers.nullableID (Json.field fields "vpnUserId") ≠ none →
    ∀ root ∈ db.root (Handlers.textField fields "rootCaId"),
      ∀ ca ∈ (x.parseCertificate root.certPem).toOption,
        nameOf (Handlers.textField fields "commonName") ≠ ca.subject
  | .import _ body => ∀ fields ∈ body, Handlers.nullableID (Json.field fields "vpnUserId") ≠ none →
    Cert.isCAOrSelfSigned x (Handlers.textField fields "certPem") = false
  | .patch _ id body => ∀ fields ∈ body, Handlers.hasField fields "certPem" = true →
    Handlers.hasField fields "vpnUserId" = false → ∀ c ∈ db.cert id, c.vpnUserId ≠ none →
      Cert.isCAOrSelfSigned x (Handlers.textField fields "certPem") = false
  | _ => True

instance (db : Db) : (op : CertOp) → Decidable (BindsLeaf x nameOf db op)
  | .create .. | .import .. | .patch .. | .revoke .. | .syncIssued .. | .syncRevoked ..
  | .syncRevokedFromCRL .. | .issueServer .. | .importServer .. | .deleteServer ..
  | .removeRootCa .. => by
    dsimp only [BindsLeaf]
    infer_instance

variable {x nameOf} {db : Db} {certs certs' : List Certificate}

/-! ### Single writes -/

/-- A row without a user. -/
theorem boundLeaf_of_no_user {c : Certificate} (h : c.vpnUserId = none) : BoundLeaf x c :=
  fun huser => absurd h huser

/-- A row without a certificate. -/
theorem boundLeaf_of_no_certificate {c : Certificate} (h : c.certPem = none) : BoundLeaf x c := by
  intro _ pem hpem
  rw [h] at hpem
  cases hpem

theorem boundLeaf_append {row : Certificate} (h : ∀ c ∈ certs, BoundLeaf x c)
    (hrow : BoundLeaf x row) : ∀ c ∈ certs ++ [row], BoundLeaf x c := by
  intro c hc
  rcases List.mem_append.1 hc with hc | hc
  · exact h c hc
  · rwa [List.mem_singleton.1 hc]

theorem boundLeaf_updateWhere {p : Certificate → Bool} {f : Certificate → Certificate}
    (h : ∀ c ∈ certs, BoundLeaf x c) (hf : ∀ c ∈ certs, p c = true → BoundLeaf x (f c)) :
    ∀ c ∈ Rows.updateWhere p f certs, BoundLeaf x c := by
  intro c hc
  rcases Rows.mem_updateWhere.1 hc with ⟨hc, -⟩ | ⟨c₀, hc₀, hp, rfl⟩
  · exact h c hc
  · exact hf c₀ hc₀ hp

/-- An update that keeps the user and the certificate. -/
theorem boundLeaf_updateOther {p : Certificate → Bool} {f : Certificate → Certificate}
    (h : ∀ c ∈ certs, BoundLeaf x c)
    (hf : ∀ c, (f c).vpnUserId = c.vpnUserId ∧ (f c).certPem = c.certPem) :
    ∀ c ∈ Rows.updateWhere p f certs, BoundLeaf x c := by
  refine boundLeaf_updateWhere h fun c hc _ => ?_
  rw [BoundLeaf, (hf c).1, (hf c).2]
  exact h c hc

theorem boundLeaf_deleteWhere {p : Certificate → Bool} (h : ∀ c ∈ certs, BoundLeaf x c) :
    ∀ c ∈ Rows.deleteWhere p certs, BoundLeaf x c :=
  fun c hc => h c (Rows.mem_deleteWhere.1 hc).1

theorem boundLeaf_revokedChange (h : ∀ c ∈ certs, BoundLeaf x c)
    (hchange : Cert.RevokedChange certs certs') : ∀ c ∈ certs', BoundLeaf x c := by
  cases hchange with
  | same => exact h
  | revoked => exact boundLeaf_updateOther h fun _ => ⟨rfl, rfl⟩
  | created row hcert _ _ => exact boundLeaf_append h (boundLeaf_of_no_certificate hcert)

theorem boundLeaf_issuedChange {env : SyncEnv} {imp : IssuedImport} {e : Cert.IssuedEntry}
    (h : ∀ c ∈ certs, BoundLeaf x c) (hchange : Cert.IssuedChange env imp e certs certs') :
    ∀ c ∈ certs', BoundLeaf x c := by
  cases hchange with
  | same => exact h
  | reactivated => exact boundLeaf_updateOther h fun _ => ⟨rfl, rfl⟩
  | renewed => exact boundLeaf_updateOther h fun _ => ⟨rfl, rfl⟩
  | created => exact boundLeaf_append h (boundLeaf_of_no_user rfl)

theorem boundLeaf_leafStored {env : ServerCertEnv} {leaf : Panel.ServerLeaf}
    (hunique : UniqueCerts db.certs) (h : ∀ c ∈ db.certs, BoundLeaf x c)
    (hstored : Panel.LeafStored env db leaf certs) : ∀ c ∈ certs, BoundLeaf x c := by
  cases hstored with
  | bySerial hfind _ huser =>
    refine boundLeaf_updateWhere h fun c hc hid => ?_
    obtain rfl := hunique.1.eq_of_key hc (Rows.mem_of_byKey_eq_some hfind).1 (of_decide_eq_true hid)
    exact boundLeaf_of_no_user huser
  | byCN => exact boundLeaf_updateWhere h fun c _ _ => boundLeaf_of_no_user rfl
  | inserted => exact boundLeaf_append h (boundLeaf_of_no_user rfl)

/-- The row a `Patch` leaves. -/
theorem boundLeaf_patched {env : HandlerEnv} {id : String} {fields : Fields}
    {existing : Certificate}
    {agentNodeID vpnUserID certPEM keyPEM : Option String} (hex : db.cert id = some existing)
    (huser : Handlers.Certificates.patchedUser db existing fields = .ok vpnUserID)
    (hcert : Handlers.Certificates.patchedCert x existing fields = .ok certPEM)
    (hcheck : ¬(Handlers.hasField fields "vpnUserId" ∧ vpnUserID.isSome ∧
      (certPEM.or existing.certPem).getD "" ≠ "" ∧
      Cert.isCAOrSelfSigned x ((certPEM.or existing.certPem).getD "")))
    (hok : BindsLeaf x nameOf db (.patch env id (some fields))) (h : BoundLeaf x existing)
    (c : Certificate) :
    BoundLeaf x (Handlers.Certificates.setColumns agentNodeID vpnUserID certPEM keyPEM c) := by
  intro hsome pem hpem hne
  dsimp only [Handlers.Certificates.setColumns] at hsome hpem
  obtain rfl : certPEM = some pem := hpem
  rcases Handlers.Certificates.patchedUser_of_ok huser with ⟨hhas, -, -⟩ | ⟨hhas, rfl⟩
  · -- the body names the user, so the certificate is checked
    by_contra hCA
    refine hcheck ⟨hhas, Option.isSome_iff_ne_none.2 hsome, hne, ?_⟩
    simpa using hCA
  · have hpem := Handlers.Certificates.patchedCert_of_ok hcert
    by_cases hhasCert : Handlers.hasField fields "certPem" = true
    · rw [if_pos hhasCert, Handlers.nullableID_field] at hpem
      split_ifs at hpem
      rw [Option.some.inj hpem]
      exact hok fields (Option.mem_some_self fields) hhasCert hhas existing hex hsome
    · rw [if_neg hhasCert] at hpem
      exact h hsome pem hpem.symm hne

/-! ### Runs -/

/-- **One operation keeps the users at leaves.** -/
theorem boundLeaf_apply (hx : x.Lawful) (hleaves : x.CreatesLeaves nameOf) {op : CertOp}
    (hunique : UniqueCerts db.certs) (hok : BindsLeaf x nameOf db op)
    (h : ∀ c ∈ db.certs, BoundLeaf x c) : ∀ c ∈ (op.apply x db).certs, BoundLeaf x c := by
  have heff : CertEffect x db op (op.apply x db).certs (op.apply x db).roots := op.effect
  generalize (op.apply x db).certs = certs at heff ⊢
  generalize (op.apply x db).roots = roots at heff
  cases heff with
  | refused => exact h
  | created _ hleaf _ hcert _ _ hbody _ =>
    obtain ⟨fields, hfields, hcn, -, huser, hroot⟩ := hbody
    refine boundLeaf_append h fun hsome pem hpem _ => ?_
    obtain ⟨ca, hca, hisLeaf⟩ := Cert.issueLeaf_isLeaf hleaves hleaf
    obtain rfl := Option.some.inj (hcert.symm.trans hpem)
    rw [huser] at hsome
    refine hisLeaf ?_
    rw [hcn]
    exact hok fields hfields hsome _ hroot ca (by rw [hca]; rfl)
  | imported _ htrim _ _ hparse _ _ hcert _ _ hbody _ =>
    obtain ⟨fields, hfields, rfl, -, huser⟩ := hbody
    refine boundLeaf_append h fun hsome pem hpem _ => ?_
    obtain rfl := Option.some.inj (hcert.symm.trans hpem)
    rw [huser] at hsome
    -- the text that is stored is read as the text that was checked
    have hleaf := hok fields hfields hsome
    rw [Cert.isCAOrSelfSigned, hparse] at hleaf
    rw [Cert.isCAOrSelfSigned, hx.parse_ensurePEMNewline htrim hparse]
    exact hleaf
  | patched hex _ huser hcert _ hcheck =>
    refine boundLeaf_updateWhere h fun c _ _ => ?_
    exact boundLeaf_patched hex huser hcert hcheck hok (h _ (Rows.mem_of_byKey_eq_some hex).1) c
  | revoked => exact boundLeaf_updateOther h fun _ => ⟨rfl, rfl⟩
  | issuedSynced =>
    exact Cert.syncIssuedInventory_induction (I := fun certs => ∀ c ∈ certs, BoundLeaf x c)
      (fun _ _ _ _ hI hchange => boundLeaf_issuedChange hI hchange) h
  | revokedSynced =>
    exact Cert.syncRevokedInventory_induction (I := fun certs => ∀ c ∈ certs, BoundLeaf x c)
      (fun _ _ hI hchange => boundLeaf_revokedChange hI hchange) h
  | crlSynced =>
    exact Cert.syncRevokedFromCRL_induction (I := fun certs => ∀ c ∈ certs, BoundLeaf x c)
      (fun _ _ hI hchange => boundLeaf_revokedChange hI hchange) h
  | serverIssued => exact boundLeaf_append h (boundLeaf_of_no_user rfl)
  | serverImported _ _ _ _ _ _ _ _ _ hstored => exact boundLeaf_leafStored hunique h hstored
  | serverDeleted => exact boundLeaf_deleteWhere h
  | detached hd =>
    cases hd with
    | refused => exact h
    | kept _ hcerts _ =>
      rw [hcerts]
      exact boundLeaf_deleteWhere h
    | deleted _ hcerts _ =>
      rw [hcerts]
      exact boundLeaf_updateOther (boundLeaf_deleteWhere h) fun _ => ⟨rfl, rfl⟩

/-- **Users have leaf certificates only**, in every run whose operations meet the condition. `Patch`
asks for a leaf when it names a user itself; the condition is on the operations that complete the
pair of a user and a certificate in other ways. -/
theorem user_certificates_are_leaves (hx : x.Lawful) (hleaves : x.CreatesLeaves nameOf) {db' : Db}
    {ops : List CertOp} (hunique : UniqueCerts db.certs) (h : ∀ c ∈ db.certs, BoundLeaf x c)
    (hok : Runs.Meets (certStep x) (BindsLeaf x nameOf) db ops)
    (hrun : Runs.run (certStep x) db ops = some db') : ∀ c ∈ db'.certs, BoundLeaf x c := by
  refine (Runs.run_invariant_of_meets
    (I := fun db => UniqueCerts db.certs ∧ ∀ c ∈ db.certs, BoundLeaf x c)
    ?_ ⟨hunique, h⟩ hok hrun).2
  rintro db op _ ⟨hunique, h⟩ hok ⟨⟩
  exact ⟨op.uniqueCerts_apply hunique, boundLeaf_apply hx hleaves hunique hok h⟩

/-- A database with a root, a node and a user. -/
def oneUser : Db :=
  { oneNode with users := [⟨"u1", "Alice", none, "a@x", none, none, none, none, none⟩] }

/-- A certificate is issued for the user, another one imported without a user and then bound to
it. -/
def bindLeaves : List CertOp :=
  [.create quietEnv (some [("commonName", .str "alice"), ("rootCaId", .str "r1"),
      ("vpnUserId", .str "u1")]),
    .import quietEnv (some [("certPem", .str "BEGIN CERTIFICATE bob"),
      ("keyPem", .str "BEGIN PRIVATE KEY bob"), ("rootCaId", .str "r1"),
      ("agentNodeId", .str "n1")]),
    .patch quietEnv "kk" (some [("vpnUserId", .str "u1")])]

theorem user_certificates_are_leaves_bindLeaves :
    ∃ db', Runs.run (certStep Cert.sampleX509) oneUser bindLeaves = some db' ∧
      ∀ c ∈ db'.certs, BoundLeaf Cert.sampleX509 c := by
  obtain ⟨db', hrun⟩ := Option.isSome_iff_exists.1
    (show (Runs.run (certStep Cert.sampleX509) oneUser bindLeaves).isSome = true by decide +kernel)
  exact ⟨db', hrun, @user_certificates_are_leaves Cert.sampleX509 ("CN=" ++ ·) oneUser
    Cert.sampleX509_lawful Cert.sampleX509_createsLeaves db' bindLeaves (by decide) (by decide)
    (by decide +kernel) hrun⟩

/-- **A user has the certificate and the key of the root**: the import of the root for the user is
not refused, nor is a `Patch` that sets the certificate of the root in a row of the user. -/
theorem user_has_root_certificate :
    (∃ db', Runs.run (certStep Cert.sampleX509) oneUser
        [.import quietEnv (some [("certPem", .str "BEGIN CERTIFICATE root"),
          ("keyPem", .str "BEGIN PRIVATE KEY root"), ("rootCaId", .str "r1"),
          ("agentNodeId", .str "n1"), ("vpnUserId", .str "u1")])] = some db' ∧
      ∃ c ∈ db'.certs, ¬BoundLeaf Cert.sampleX509 c) ∧
    ∃ db', Runs.run (certStep Cert.sampleX509) oneUser
        [.create quietEnv (some [("commonName", .str "alice"), ("rootCaId", .str "r1"),
          ("vpnUserId", .str "u1")]),
        .patch quietEnv "k" (some [("certPem", .str "BEGIN CERTIFICATE root")])] = some db' ∧
      ∃ c ∈ db'.certs, ¬BoundLeaf Cert.sampleX509 c := by
  constructor
  · have himported : ∃ db' ∈ Runs.run (certStep Cert.sampleX509) oneUser
        [.import quietEnv (some [("certPem", .str "BEGIN CERTIFICATE root"),
          ("keyPem", .str "BEGIN PRIVATE KEY root"), ("rootCaId", .str "r1"),
          ("agentNodeId", .str "n1"), ("vpnUserId", .str "u1")])],
        ∃ c ∈ db'.certs, ¬BoundLeaf Cert.sampleX509 c := by decide +kernel
    exact himported
  · have hpatched : ∃ db' ∈ Runs.run (certStep Cert.sampleX509) oneUser
        [.create quietEnv (some [("commonName", .str "alice"), ("rootCaId", .str "r1"),
          ("vpnUserId", .str "u1")]),
        .patch quietEnv "k" (some [("certPem", .str "BEGIN CERTIFICATE root")])],
        ∃ c ∈ db'.certs, ¬BoundLeaf Cert.sampleX509 c := by decide +kernel
    exact hpatched

end OpenvpnControl.Certificates
