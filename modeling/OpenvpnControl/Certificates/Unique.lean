import OpenvpnControl.Certificates.Operations

/-!
# One valid certificate of a name, one valid server certificate of a root

The handlers refuse a second valid certificate of a common name on a node, and a second valid server
certificate of a node and a root. Neither is a constraint of the database. This file proves that at
most one is there in every state, as long as no operation makes a row valid whose name or slot is
taken without asking.

## Main definitions

* `activeName`, `serverSlot`: the two keys, which valid rows have.
* `KeepsNames`, `KeepsSlots`: the conditions on an operation.

## Main results

* `one_active_name`, `one_server_certificate`: in every run at most one row has a key.
* `second_active_name`, `second_server_certificate`: an import makes a second row valid.
-/

namespace OpenvpnControl.Certificates

open Panel (Db Certificate UniqueCerts ServerCertEnv SettingsEnv)
open Cert (X509 SyncEnv IssuedImport)
open Handlers (HandlerEnv Fields)
open Rows (HasPartialKey)

variable (x : X509)

/-- The common name and the node of a valid certificate. -/
def activeName (c : Certificate) : Option (String × Option String) :=
  if c.revokedAt = none then some (c.commonName, c.agentNodeId) else none

/-- The node and the root of a valid server certificate. -/
def serverSlot (c : Certificate) : Option (String × String) :=
  if c.vpnUserId = none ∧ c.revokedAt = none then
    c.agentNodeId.bind fun node => c.rootCaId.map fun root => (node, root)
  else none

/-- No row has the key but, perhaps, the one with the id. -/
def FreeBut {κ : Type} (key : Certificate → Option κ) (k : κ) (own : Option String)
    (certs : List Certificate) : Prop :=
  ∀ c ∈ certs, k ∈ key c → own = some c.id

instance {κ : Type} [DecidableEq κ] (key : Certificate → Option κ) (k : κ) (own : Option String)
    (certs : List Certificate) : Decidable (FreeBut key k own certs) := by
  unfold FreeBut
  infer_instance

/-- The row that the import of a server certificate takes: that of the serial number, else that of
the common name. -/
def importTarget (env : ServerCertEnv) (db : Db) (serial cn agentNodeID : String) :
    Option Certificate :=
  (Rows.byKey (·.serialNumber) serial db.certs).or
    (env.choice.select (fun c => c.commonName = cn ∧ c.agentNodeId = some agentNodeID ∧
      c.vpnUserId = none) db.certs)

/-- The condition on the import of an index, for one common name: a revoked row is taken only where
the name is free. -/
def KeepsName (env : SyncEnv) (imp : IssuedImport) (certs : List Certificate)
    (e : Cert.IssuedEntry) : Prop :=
  ∀ c ∈ Cert.findCertByCNAndNode env.choice certs e.cn imp.agentNodeID,
    c.rootCaId.getD "" = imp.rootCaID → c.revokedAt.isSome = true →
      FreeBut activeName (e.cn, imp.agentNodeID) none certs

/-- The condition on an operation, for common names. A look-up of the name that fails would have
found nothing; the name of an issued server certificate is free; that of an imported one is free but
for the row that is taken; and a revoked row is listed as valid only where the name is free. -/
def KeepsNames (db : Db) : CertOp → Prop
  | .create env body => env.lookupFails = true → ∀ fields ∈ body,
    FreeBut activeName (Handlers.textField fields "commonName",
      Handlers.nullableID (Json.field fields "agentNodeId")) none db.certs
  | .import env body => env.lookupFails = true → ∀ fields ∈ body,
    ∀ leaf ∈ (x.parseCertificate (Handlers.textField fields "certPem")).toOption,
      FreeBut activeName (leaf.subjectCN,
      some (Handlers.textField fields "agentNodeId")) none db.certs
  | .patch env id body => env.lookupFails = true → ∀ fields ∈ body,
    Handlers.hasField fields "agentNodeId" = true → ∀ c ∈ db.cert id, c.revokedAt = none →
      FreeBut activeName (c.commonName, Handlers.nullableID (Json.field fields "agentNodeId"))
        (some id) db.certs
  | .issueServer _ inp =>
    Panel.hasServerCert db inp.agentNodeID (GoStrings.trimSpace inp.rootCaID) = false →
    ∀ node ∈ db.node inp.agentNodeID,
      FreeBut activeName (Panel.serverCN inp.commonName node.name inp.agentNodeID,
        some inp.agentNodeID) none db.certs
  | .importServer env inp => ∀ node ∈ db.node inp.agentNodeID,
    ∀ leaf ∈ (x.parseCertificate (GoStrings.trimSpace inp.certPEM)).toOption,
      let cn := Panel.serverCN leaf.subjectCN node.name inp.agentNodeID
      let target := importTarget env db (Cert.serialHex leaf) cn inp.agentNodeID
      (target = none →
        Panel.hasServerCert db inp.agentNodeID (GoStrings.trimSpace inp.rootCaID) = false) →
      FreeBut activeName (cn, some inp.agentNodeID) (target.map (·.id)) db.certs
  | .syncIssued env imp text => ∀ e ∈ env.entries text, KeepsName env imp db.certs e
  | _ => True

/-- The condition on an operation, for server certificates: it is one of the four, and where
an import takes a row, no other valid server certificate of the node and the root is there. -/
def KeepsSlots (db : Db) : CertOp → Prop
  | .importServer env inp => ∀ node ∈ db.node inp.agentNodeID,
    ∀ leaf ∈ (x.parseCertificate (GoStrings.trimSpace inp.certPEM)).toOption,
      ∀ target ∈ importTarget env db (Cert.serialHex leaf)
          (Panel.serverCN leaf.subjectCN node.name inp.agentNodeID) inp.agentNodeID,
        FreeBut serverSlot (inp.agentNodeID, GoStrings.trimSpace inp.rootCaID)
        (some target.id) db.certs
  | .issueServer _ _ => True
  | .revoke _ _ _ => True
  | .deleteServer _ _ => True
  | _ => False

instance (env : SyncEnv) (imp : IssuedImport) (certs : List Certificate) (e : Cert.IssuedEntry) :
    Decidable (KeepsName env imp certs e) := by
  unfold KeepsName
  infer_instance

instance (db : Db) (op : CertOp) : Decidable (KeepsNames x db op) := by
  cases op <;> (dsimp only [KeepsNames]; infer_instance)

instance (db : Db) (op : CertOp) : Decidable (KeepsSlots x db op) := by
  cases op <;> (dsimp only [KeepsSlots]; infer_instance)

variable {x} {db : Db} {certs certs' : List Certificate}

/-! ### The keys -/

theorem mem_activeName {c : Certificate} {k : String × Option String} :
    k ∈ activeName c ↔ c.revokedAt = none ∧ k = (c.commonName, c.agentNodeId) := by
  rw [activeName]
  split_ifs with h
  · simp [h, eq_comm]
  · simp [h]

theorem mem_serverSlot {c : Certificate} {k : String × String} :
    k ∈ serverSlot c ↔ c.vpnUserId = none ∧ c.revokedAt = none ∧ c.agentNodeId = some k.1 ∧
      c.rootCaId = some k.2 := by
  rw [serverSlot]
  split_ifs with h
  · simp only [Option.mem_def, Option.bind_eq_some_iff, Option.map_eq_some_iff, h, true_and]
    constructor
    · rintro ⟨node, hnode, root, hroot, rfl⟩
      exact ⟨hnode, hroot⟩
    · rintro ⟨hnode, hroot⟩
      exact ⟨k.1, hnode, k.2, hroot, rfl⟩
  · simp only [Option.mem_def, reduceCtorEq, false_iff]
    exact fun ⟨huser, hrev, _⟩ => h ⟨huser, hrev⟩

/-! ### Single writes -/

variable {κ : Type} {key : Certificate → Option κ} {k : κ}

theorem FreeBut.not_mem (h : FreeBut key k none certs) : ∀ c ∈ certs, k ∉ key c :=
  fun c hc hk => absurd (h c hc hk) (by simp)

/-- A row is inserted whose key is free. -/
theorem keyed_append {row : Certificate} (h : HasPartialKey key certs)
    (hfree : ∀ k ∈ key row, FreeBut key k none certs) : HasPartialKey key (certs ++ [row]) :=
  h.append_singleton fun k hk => (hfree k hk).not_mem

/-- A row takes a key that is free but for itself. -/
theorem keyed_update {id : String} {f : Certificate → Certificate} (hunique : UniqueCerts certs)
    (h : HasPartialKey key certs) (hid : ∀ c, (f c).id = c.id)
    (hfree : ∀ c ∈ certs, c.id = id → ∀ k ∈ key (f c), FreeBut key k (some id) certs) :
    HasPartialKey key (Rows.updateWhere (fun c => c.id = id) f certs) := by
  refine h.updateWhere_byKey hunique.1 hid fun c hc hcid k hk d hd hkd => ?_
  exact (Option.some.inj (hfree c hc hcid k hk d hd hkd)).symm

/-- Storing an imported server certificate, whose key is free but for the row that is taken. -/
theorem keyed_leafStored {env : ServerCertEnv} {leaf : Panel.ServerLeaf}
    (hunique : UniqueCerts db.certs) (h : HasPartialKey key db.certs)
    (hrefresh : ∀ c, c.agentNodeId = some leaf.agentNodeID → c.vpnUserId = none →
      key (Panel.refreshRow leaf c) = some k)
    (hreplace : ∀ c, c.commonName = leaf.cn → c.agentNodeId = some leaf.agentNodeID →
      key (Panel.replaceRow leaf c) = some k)
    (hrow : key (leaf.row env db) = some k)
    (hfree : let target := importTarget env db leaf.serial leaf.cn leaf.agentNodeID
      (target = none → Panel.hasServerCert db leaf.agentNodeID leaf.rootCaID = false) →
        FreeBut key k (target.map (·.id)) db.certs)
    (hstored : Panel.LeafStored env db leaf certs) : HasPartialKey key certs := by
  cases hstored with
  | @bySerial existing hfind hnode huser =>
    have htarget : importTarget env db leaf.serial leaf.cn leaf.agentNodeID = some existing := by
      rw [importTarget, hfind, Option.some_or]
    simp only [htarget, reduceCtorEq, false_implies, Option.map_some, true_implies] at hfree
    refine keyed_update hunique h (fun _ => rfl) fun c hc hid k' hk' => ?_
    obtain rfl := hunique.1.eq_of_key hc (Rows.mem_of_byKey_eq_some hfind).1 hid
    rw [hrefresh c hnode huser] at hk'
    rwa [← Option.some.inj hk']
  | @byCN existing hfind _ hserial =>
    have htarget : importTarget env db leaf.serial leaf.cn leaf.agentNodeID = some existing := by
      rw [importTarget, hserial, Option.none_or]
      exact hfind
    simp only [htarget, reduceCtorEq, false_implies, Option.map_some, true_implies] at hfree
    refine keyed_update hunique h (fun _ => rfl) fun c hc hid k' hk' => ?_
    obtain ⟨hmem, hp⟩ := Rows.Choice.mem_of_select hfind
    obtain ⟨hcn, hnode, -⟩ := of_decide_eq_true hp
    obtain rfl := hunique.1.eq_of_key hc hmem hid
    rw [hreplace c hcn hnode] at hk'
    rwa [← Option.some.inj hk']
  | inserted _ hserial hfind hslot =>
    have htarget : importTarget env db leaf.serial leaf.cn leaf.agentNodeID = none := by
      rw [importTarget, hserial, Option.none_or]
      exact hfind
    simp only [htarget, hslot, implies_true, Option.map_none, true_implies] at hfree
    refine keyed_append h fun k' hk' => ?_
    rw [hrow] at hk'
    rwa [← Option.some.inj hk']

/-- A turn of an import of revoked certificates takes keys away only. -/
theorem keyed_revokedChange (hrev : ∀ c : Certificate, c.revokedAt.isSome = true → key c = none)
    (h : HasPartialKey key certs) (hchange : Cert.RevokedChange certs certs') :
    HasPartialKey key certs' := by
  cases hchange with
  | same => exact h
  | revoked id now reason =>
    refine h.updateWhere fun c _ _ k hk => ?_
    rw [hrev _ rfl] at hk
    cases hk
  | created row _ hrow _ =>
    refine keyed_append h fun k hk => ?_
    rw [hrev row hrow] at hk
    cases hk

/-! ### Importing an index -/

/-- The rows of a common name and a node. -/
def namedRows (cn : String) (agentNodeID : Option String) (certs : List Certificate) :
    List Certificate :=
  certs.filter fun c => c.commonName = cn ∧ c.agentNodeId = agentNodeID

theorem freeBut_none_iff {cn : String} {node : Option String} :
    FreeBut activeName (cn, node) none certs ↔ ∀ c ∈ namedRows cn node certs,
    c.revokedAt ≠ none := by
  simp only [FreeBut, mem_activeName, reduceCtorEq, imp_false, not_and, namedRows, List.mem_filter,
    decide_eq_true_eq, Prod.mk.injEq, and_imp, ne_eq]
  exact ⟨fun h c hc hcn hnode hrev => h c hc hrev hcn.symm hnode.symm,
    fun h c hc hrev hcn hnode => h c hc hcn.symm hnode.symm hrev⟩

/-- One common name of an import leaves the rows of the others alone. -/
theorem namedRows_issuedChange {env : SyncEnv} {imp : IssuedImport} {e : Cert.IssuedEntry}
    {cn : String} (hunique : UniqueCerts certs) (hchange : Cert.IssuedChange env imp e certs certs')
    (hcn : e.cn ≠ cn) (node : Option String) : namedRows cn node certs' =
    namedRows cn node certs := by
  have hupdate : ∀ {d : Certificate} {f : Certificate → Certificate},
      Cert.findCertByCNAndNode env.choice certs e.cn imp.agentNodeID = some d →
      (∀ c, (f c).commonName = c.commonName) →
      namedRows cn node (Rows.updateWhere (fun c => c.id = d.id) f certs) =
      namedRows cn node certs := by
    intro d f hfind hf
    obtain ⟨hd, hdcn, -⟩ := Cert.mem_of_findCert hfind
    refine Rows.filter_updateWhere fun c hc hid => ?_
    have hcd : c.commonName ≠ cn := by
      rw [hunique.1.eq_of_key hc hd (of_decide_eq_true hid), hdcn]
      exact hcn
    exact ⟨decide_eq_false fun h => hcd h.1, decide_eq_false fun h => hcd ((hf c).symm.trans h.1)⟩
  cases hchange with
  | same => rfl
  | reactivated hfind _ _ _ => exact hupdate hfind fun _ => rfl
  | renewed hfind _ _ _ => exact hupdate hfind fun _ => rfl
  | created _ _ =>
    rw [namedRows, List.filter_append, List.filter_singleton, decide_eq_false (fun h => hcn h.1)]
    exact List.append_nil _

theorem keepsName_congr {env : SyncEnv} {imp : IssuedImport} {e : Cert.IssuedEntry}
    (h : namedRows e.cn imp.agentNodeID certs' = namedRows e.cn imp.agentNodeID certs)
    (hok : KeepsName env imp certs e) : KeepsName env imp certs' e := by
  have hfind : Cert.findCertByCNAndNode env.choice certs' e.cn imp.agentNodeID =
      Cert.findCertByCNAndNode env.choice certs e.cn imp.agentNodeID := congrArg env.choice.pick h
  intro c hc hroot hrev
  rw [freeBut_none_iff, h, ← freeBut_none_iff]
  exact hok c (hfind ▸ hc) hroot hrev

/-- One common name of an import. -/
theorem activeName_issuedChange {env : SyncEnv} {imp : IssuedImport} {e : Cert.IssuedEntry}
    (hunique : UniqueCerts certs) (h : HasPartialKey activeName certs)
    (hok : KeepsName env imp certs e) (hchange : Cert.IssuedChange env imp e certs certs') :
    HasPartialKey activeName certs' := by
  cases hchange with
  | same => exact h
  | reactivated hfind hroot hrev _ =>
    obtain ⟨hd, hdcn, hdnode⟩ := Cert.mem_of_findCert hfind
    refine keyed_update hunique h (fun _ => rfl) fun c hc hid k hk => ?_
    obtain rfl := hunique.1.eq_of_key hc hd hid
    obtain rfl : k = (e.cn, imp.agentNodeID) := by
      rw [(mem_activeName.1 hk).2, ← hdcn, ← hdnode]
      rfl
    exact fun c' hc' hk' => absurd hk' ((hok _ hfind hroot hrev).not_mem c' hc')
  | renewed => exact h.updateWhere fun c _ _ k hk => hk
  | created hfind _ =>
    refine keyed_append h fun k hk c hc hkc => ?_
    obtain ⟨-, rfl⟩ := mem_activeName.1 hk
    obtain ⟨-, hname⟩ := mem_activeName.1 hkc
    obtain ⟨hcn, hnode⟩ := Prod.mk.inj hname
    exact absurd ⟨hcn.symm, hnode.symm⟩ (Cert.findCert_eq_none.1 hfind c hc)

/-- The names of an import are looked up one after the other, each once. -/
theorem activeName_syncIssuedEntries {env : SyncEnv} {imp : IssuedImport} :
    ∀ (es : List Cert.IssuedEntry) (s : List Certificate × Cert.IssuedSyncStats),
      Rows.HasKey (·.cn) es → UniqueCerts s.1 → HasPartialKey activeName s.1 →
      (∀ e ∈ es, KeepsName env imp s.1 e) →
      HasPartialKey activeName (Cert.syncIssuedEntries env imp s es).1.1 := by
  intro es
  induction es with
  | nil => exact fun s _ _ h _ => h
  | cons e es ih =>
    intro s hes hunique h hok
    rw [Cert.syncIssuedEntries]
    split_ifs
    · exact h
    · obtain ⟨hnot, hes⟩ := List.nodup_cons.1 hes
      have hchange := Cert.syncIssuedEntry_change env imp s.1 s.2 e
      refine ih _ hes (uniqueCerts_issuedChange hunique hchange)
        (activeName_issuedChange hunique h (hok e List.mem_cons_self) hchange) fun e' he' => ?_
      have hne : e.cn ≠ e'.cn := fun heq => hnot (List.mem_map.2 ⟨e', he', heq.symm⟩)
      exact keepsName_congr (namedRows_issuedChange hunique hchange hne _)
        (hok e' (List.mem_cons_of_mem _ he'))

/-! ### One valid certificate of a name -/

/-- The look-up of a name finds every row that has it, unless it fails. -/
theorem freeBut_of_activeSameCN {env : HandlerEnv} {cn : String}
    {node : Option String} {id : String}
    {own : Option String} (h : Handlers.Certificates.activeSameCN env db cn node id = false)
    (hown : id ≠ "" → own = some id)
    (hfails : env.lookupFails = true → FreeBut activeName (cn, node) own db.certs) :
    FreeBut activeName (cn, node) own db.certs := by
  cases hlookup : env.lookupFails with
  | true => exact hfails hlookup
  | false =>
    intro c hc hk
    obtain ⟨hrev, hname⟩ := mem_activeName.1 hk
    obtain ⟨rfl, rfl⟩ := Prod.mk.inj hname
    rw [Handlers.Certificates.activeSameCN, hlookup, Bool.not_false, Bool.true_and,
      List.any_eq_false] at h
    have hne := h c hc
    simp only [decide_eq_true_eq, hrev, true_and] at hne
    -- the row that has the name is the one that is left out
    obtain ⟨hid, hcid⟩ := Classical.not_imp.1 hne
    rw [hown hid, not_not.1 hcid]

theorem activeName_of_valid {c : Certificate} (h : c.revokedAt = none) :
    activeName c = some (c.commonName, c.agentNodeId) :=
  if_pos h

theorem activeName_of_revoked {c : Certificate} (h : c.revokedAt.isSome = true) :
    activeName c = none := by
  rw [activeName, if_neg]
  intro hnone
  rw [hnone] at h
  cases h

/-- **One operation keeps the names of valid certificates apart.** -/
theorem activeName_apply {op : CertOp} (hunique : UniqueCerts db.certs) (hok : KeepsNames x db op)
    (h : HasPartialKey activeName db.certs) : HasPartialKey activeName (op.apply x db).certs := by
  have heff : CertEffect x db op (op.apply x db).certs (op.apply x db).roots := op.effect
  generalize (op.apply x db).certs = certs at heff ⊢
  generalize (op.apply x db).roots = roots at heff
  -- a row that is inserted
  have hinsert : ∀ {row : Certificate},
      FreeBut activeName (row.commonName, row.agentNodeId) none db.certs →
      HasPartialKey activeName (db.certs ++ [row]) := by
    intro row hfree
    refine keyed_append h fun k hk => ?_
    rwa [(mem_activeName.1 hk).2]
  cases heff with
  | refused => exact h
  | created _ _ _ _ _ _ hbody hfree =>
    obtain ⟨fields, hfields, hcn, hnode, -⟩ := hbody
    refine hinsert (freeBut_of_activeSameCN hfree (absurd rfl) fun hfails => ?_)
    rw [hcn, hnode]
    exact hok hfails fields hfields
  | imported _ _ _ _ hparse hcn _ _ _ _ hbody hfree =>
    obtain ⟨fields, hfields, rfl, hnode, -⟩ := hbody
    refine hinsert (freeBut_of_activeSameCN hfree (absurd rfl) fun hfails => ?_)
    rw [hcn, hnode]
    exact hok hfails fields hfields _ (by rw [hparse]; rfl)
  | @patched env id fields existing agentNodeID vpnUserID certPEM keyPEM hex hnode =>
    obtain ⟨hmem, hid⟩ := Rows.mem_of_byKey_eq_some hex
    refine keyed_update hunique h (fun _ => rfl) fun c hc hcid k hk => ?_
    obtain rfl := hunique.1.eq_of_key hc hmem (hcid.trans hid.symm)
    obtain ⟨hrev, rfl⟩ := mem_activeName.1 hk
    dsimp only [Handlers.Certificates.setColumns] at hrev ⊢
    rcases Handlers.Certificates.patchedNode_of_ok hnode with ⟨hhas, hagent, -, hfree⟩ | ⟨-, rfl⟩
    · subst hagent
      refine freeBut_of_activeSameCN hfree (fun _ => congrArg some hcid.symm) fun hfails => ?_
      exact hok hfails fields (Option.mem_some_self fields) hhas c hex hrev
    · -- the row keeps its name and its node
      intro d hd hkd
      have hsame :=
        (Rows.hasPartialKey_iff hunique.1).1 h c hc d hd _ (mem_activeName.2 ⟨hrev, rfl⟩)
        hkd
      rw [← hcid, hsame]
  | revoked =>
    refine h.updateWhere fun c _ _ k hk => ?_
    rw [activeName_of_revoked rfl] at hk
    cases hk
  | @issuedSynced env imp text =>
    rw [Cert.syncIssuedInventory]
    split_ifs
    · exact h
    · exact activeName_syncIssuedEntries _ _ (env.entries_hasKey text) hunique h hok
  | revokedSynced =>
    exact Cert.syncRevokedInventory_induction
      (fun _ _ hI hchange => keyed_revokedChange (fun _ => activeName_of_revoked) hI hchange) h
  | crlSynced =>
    exact Cert.syncRevokedFromCRL_induction
      (fun _ _ hI hchange => keyed_revokedChange (fun _ => activeName_of_revoked) hI hchange) h
  | serverIssued _ _ _ _ _ _ hid hroot hnode hslot =>
    obtain ⟨node, hnode, hcn⟩ := hnode
    rw [hid, hroot] at hslot
    refine keyed_append h fun k hk => ?_
    rw [activeName_of_valid rfl] at hk
    obtain rfl := Option.some.inj hk
    dsimp only [Panel.ServerLeaf.row]
    rw [hcn, hid]
    exact hok hslot node hnode
  | @serverImported env inp leaf c node certs hnode hparse _ hcn hid hserial _ _ _ hstored hroot =>
    refine keyed_leafStored (k := (leaf.cn, some leaf.agentNodeID)) hunique h ?_ ?_ ?_ ?_ hstored
    · intro d hdnode _
      rw [activeName_of_valid rfl]
      dsimp only [Panel.refreshRow]
      rw [hdnode]
    · intro d hdcn hdnode
      rw [activeName_of_valid rfl]
      dsimp only [Panel.replaceRow]
      rw [hdcn, hdnode]
    · rw [activeName_of_valid rfl]
      rfl
    · rw [hserial, hcn, hid, hroot]
      exact hok node hnode c (by rw [hparse]; rfl)
  | serverDeleted => exact h.deleteWhere
  | detached hd =>
    cases hd with
    | refused => exact h
    | kept _ hcerts _ =>
      rw [hcerts]
      exact h.deleteWhere
    | deleted _ hcerts _ =>
      rw [hcerts]
      exact (HasPartialKey.deleteWhere h).updateWhere fun c _ _ k hk => hk

/-- **One valid certificate of a name.** In every run whose operations meet the condition, from a
database without certificates, no two valid certificates have the same common name and node. -/
theorem one_active_name {db' : Db} {ops : List CertOp} (hempty : db.certs = [])
    (hok : Runs.Meets (certStep x) (KeepsNames x) db ops)
    (hrun : Runs.run (certStep x) db ops = some db') : HasPartialKey activeName db'.certs := by
  refine (Runs.run_invariant_of_meets
    (I := fun db => UniqueCerts db.certs ∧ HasPartialKey activeName db.certs)
    ?_ ⟨?_, ?_⟩ hok hrun).2
  · rintro db op _ ⟨hunique, h⟩ hok ⟨⟩
    exact ⟨op.uniqueCerts_apply hunique, activeName_apply hunique hok h⟩
  · rw [hempty]
    exact ⟨List.nodup_nil, List.nodup_nil⟩
  · rw [hempty]
    exact .nil

/-- A server certificate is imported and revoked, an index imported, and another server certificate
of the name imported. -/
def reuseName : List CertOp :=
  [importServerPEM "vpn", .revoke quietEnv "k" "",
    .syncIssued quietSyncEnv ⟨"r1", "ca", some "n1"⟩ (indexLine "bob"), importServerPEM "vpn2"]

theorem one_active_name_reuseName : ∃ db', Runs.run (certStep Cert.sampleX509) oneNode reuseName =
    some db' ∧ HasPartialKey activeName db'.certs :=
  ⟨_, rfl, @one_active_name Cert.sampleX509 oneNode _ reuseName rfl (by decide +kernel) rfl⟩

/-- **Two valid certificates of a name**: a list of revoked certificates adds a revoked row, a
certificate of the name is issued, and the import of an index makes the revoked row valid. -/
theorem second_active_name : ∃ db', Runs.run (certStep Cert.sampleX509) oneNode
    [.syncRevoked quietSyncEnv "r1" "ca" "alice",
      .create quietEnv (some [("commonName", .str "alice"), ("rootCaId", .str "r1")]),
      .syncIssued quietSyncEnv ⟨"r1", "ca", none⟩ (indexLine "alice")] = some db' ∧
    ¬HasPartialKey activeName db'.certs :=
  ⟨_, rfl, by decide +kernel⟩

/-! ### One valid server certificate of a root -/

theorem serverSlot_of_revoked {c : Certificate} (h : c.revokedAt.isSome = true) :
    serverSlot c = none := by
  rw [serverSlot, if_neg]
  rintro ⟨-, hnone⟩
  rw [hnone] at h
  cases h

/-- The look-up of a server certificate finds every row of the node and the root. -/
theorem freeBut_of_hasServerCert {nodeID rootID : String} {own : Option String}
    (h : Panel.hasServerCert db nodeID rootID = false) :
    FreeBut serverSlot (nodeID, rootID) own db.certs := by
  intro c hc hk
  obtain ⟨huser, hrev, hnode, hroot⟩ := mem_serverSlot.1 hk
  exact absurd (decide_eq_true ⟨hnode, hroot, huser, hrev⟩) (List.any_eq_false.1 h c hc)

/-- **One operation keeps the server certificates of a root apart.** -/
theorem serverSlot_apply {op : CertOp} (hunique : UniqueCerts db.certs) (hok : KeepsSlots x db op)
    (h : HasPartialKey serverSlot db.certs) : HasPartialKey serverSlot (op.apply x db).certs := by
  have heff : CertEffect x db op (op.apply x db).certs (op.apply x db).roots := op.effect
  generalize (op.apply x db).certs = certs at heff ⊢
  generalize (op.apply x db).roots = roots at heff
  cases heff with
  | refused => exact h
  | revoked =>
    refine h.updateWhere fun c _ _ k hk => ?_
    rw [serverSlot_of_revoked rfl] at hk
    cases hk
  | @serverIssued env inp leaf _ _ _ _ _ _ _ _ _ _ _ _ hslot =>
    refine keyed_append h fun k hk => ?_
    obtain ⟨-, -, hnode, hroot⟩ := mem_serverSlot.1 hk
    obtain rfl : k = (leaf.agentNodeID, leaf.rootCaID) :=
      Prod.ext (Option.some.inj hnode).symm (Option.some.inj hroot).symm
    exact freeBut_of_hasServerCert hslot
  | @serverImported env inp leaf c node certs hnode hparse _ hcn hid hserial _ _ _ hstored hroot =>
    refine keyed_leafStored (k := (leaf.agentNodeID, leaf.rootCaID)) hunique h ?_ ?_ ?_ ?_ hstored
    · exact fun d hdnode hduser => mem_serverSlot.2 ⟨hduser, rfl, hdnode, rfl⟩
    · exact fun d _ hdnode => mem_serverSlot.2 ⟨rfl, rfl, hdnode, rfl⟩
    · exact mem_serverSlot.2 ⟨rfl, rfl, rfl, rfl⟩
    · intro target hslot
      cases htarget : target with
      | none => exact freeBut_of_hasServerCert (hslot htarget)
      | some row =>
        rw [hid, hroot]
        refine hok node hnode c (by rw [hparse]; rfl) row ?_
        rw [← hserial, ← hcn, ← hid]
        exact htarget
  | serverDeleted => exact h.deleteWhere
  | _ => exact hok.elim

/-- **One valid server certificate of a root.** In every run of the four operations that meet the
condition, no two valid server certificates have the same node and root. -/
theorem one_server_certificate {db' : Db} {ops : List CertOp} (hunique : UniqueCerts db.certs)
    (h : HasPartialKey serverSlot db.certs) (hok : Runs.Meets (certStep x) (KeepsSlots x) db ops)
    (hrun : Runs.run (certStep x) db ops = some db') : HasPartialKey serverSlot db'.certs := by
  refine (Runs.run_invariant_of_meets
    (I := fun db => UniqueCerts db.certs ∧ HasPartialKey serverSlot db.certs)
    ?_ ⟨hunique, h⟩ hok hrun).2
  rintro db op _ ⟨hunique, h⟩ hok ⟨⟩
  exact ⟨op.uniqueCerts_apply hunique, serverSlot_apply hunique hok h⟩

/-- A server certificate is imported and revoked, and another one imported. -/
def replaceServer : List CertOp :=
  [importServerPEM "vpn", .revoke quietEnv "k" "", importServerPEM "bob"]

theorem one_server_certificate_replaceServer :
    ∃ db', Runs.run (certStep Cert.sampleX509) oneNode replaceServer = some db' ∧
      HasPartialKey serverSlot db'.certs :=
  ⟨_, rfl, @one_server_certificate Cert.sampleX509 oneNode _ replaceServer (by decide) (by decide)
    (by decide +kernel) rfl⟩

/-- **Two valid server certificates of a root**: the first one, imported again, is found by its
serial number and made valid. -/
theorem second_server_certificate : ∃ db', Runs.run (certStep Cert.sampleX509) oneNode
    (replaceServer ++ [importServerPEM "vpn"]) = some db' ∧ ¬HasPartialKey serverSlot db'.certs :=
  ⟨_, rfl, by decide +kernel⟩

end OpenvpnControl.Certificates
