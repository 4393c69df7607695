import OpenvpnControl.Agentsnapshot.PolicyWorld

/-!
# Nodes with a stale policy

A step that changes what the snapshot of a node is made of has to enqueue a snapshot for the node.
This file says which operations do, and under which condition the others leave the law of the
policies.

An operation that enqueues for every node it touches keeps the law by itself. For the others the
condition compares what a snapshot is made of before the step and after it: the certificates on the
node, the users and organizations that they belong to, and the settings of its tunnel. Each
operation has one lemma that says what it leaves to a node; the run is an induction over steps that
have been sorted out in this way.

## Main results

* `PolicyKept` and its lemmas: what a step leaves to each node.
* `NoStalePolicy.step`, `no_stale_policy`: a step and a run that meet the condition keep the law.
* `stale_policy`: a user moves to another organization, and the node keeps the old rules.
-/

namespace OpenvpnControl.Agentsnapshot

open Panel (Db Certificate UniqueCerts SettingsEnv VpnUser)
open Paneltasks (PanelAsyncTask EnqueueEnv TaskType Waiting)
open Cert (X509 SyncEnv IssuedImport)
open Handlers (HandlerEnv Fields)
open Certificates (Keyed)
open Openvpn (Settings)

variable {revisionOf : SnapshotBody → String} {x : X509} {db db' : Db} {node : String}

/-! ### What a step keeps -/

/-- The keys of the tables are keys, a certificate belongs to a user that there is, and the id of a
node has no white space around it. -/
structure Policed (db : Db) : Prop where
  keyed : Keyed db
  users : Rows.HasKey (·.id) db.users
  owner : ∀ c ∈ db.certs, ∀ id ∈ c.vpnUserId, id ∈ db.users.map (·.id)
  trimmed : ∀ an ∈ db.nodes, GoStrings.trimSpace an.id = an.id

theorem policed_iff {db : Db} : Policed db ↔ Keyed db ∧ Rows.HasKey (·.id) db.users ∧
    (∀ c ∈ db.certs, ∀ id ∈ c.vpnUserId, id ∈ db.users.map (·.id)) ∧
      ∀ an ∈ db.nodes, GoStrings.trimSpace an.id = an.id :=
  ⟨fun h => ⟨h.keyed, h.users, h.owner, h.trimmed⟩, fun h => ⟨h.1, h.2.1, h.2.2.1, h.2.2.2⟩⟩

instance (db : Db) : Decidable (Policed db) := decidable_of_iff' _ policed_iff

/-- What a step that delivers nothing leaves: a snapshot of the node waits, or what it is made of is
the same and one that waited still does. -/
structure PolicyKept (db db' : Db) : Prop where
  policed : Policed db'
  nodes : db'.nodes = db.nodes
  kept : ∀ an ∈ db.nodes, SnapshotWaits db' an.id ∨
    SameView db db' an.id ∧ (SnapshotWaits db an.id → SnapshotWaits db' an.id)

/-- Such a step keeps the law. -/
theorem NoStalePolicy.kept {w : PolicyWorld} (h : NoStalePolicy revisionOf w)
    (hpoliced : Policed w.db)
    (hkept : PolicyKept w.db db') : NoStalePolicy revisionOf { w with db := db' } := by
  intro an han rev hrev hstale
  dsimp only at han hrev hstale ⊢
  rw [hkept.nodes] at han
  rcases hkept.kept an han with hwaits | ⟨hview, hwaits⟩
  · exact hwaits
  · rw [hview.currentRevision_eq hkept.nodes (hpoliced.trimmed an han)] at hrev
    exact hwaits (h an han rev hrev hstale)

/-- A step that leaves the queue, and what the snapshots are made of. -/
theorem PolicyKept.of_view (hpoliced : Policed db') (hnodes : db'.nodes = db.nodes)
    (htasks : db'.tasks = db.tasks) (hview : ∀ an ∈ db.nodes, SameView db db' an.id) :
    PolicyKept db db' where
  policed := hpoliced
  nodes := hnodes
  kept an han := by
    refine Or.inr ⟨hview an han, fun hwaits => ?_⟩
    rw [SnapshotWaits, htasks]
    exact hwaits

/-- **A step that enqueues snapshots** for the nodes whose snapshots may have changed. -/
theorem PolicyKept.enqueueSnapshots {env : HandlerEnv} {ns : List String} (hpoliced : Policed db')
    (hnodes : db'.nodes = db.nodes) (hins : InsertsSnapshots env db)
    (hwaits : ∀ an ∈ db.nodes, SnapshotWaits db an.id → SnapshotWaits db' an.id)
    (hview : ∀ an ∈ db.nodes, an.id ∉ ns → SameView db db' an.id) :
    PolicyKept db (db'.enqueueSnapshots env.taskEnv ns) where
  policed := by
    have hkeyed : Keyed (db'.enqueueSnapshots env.taskEnv ns) := hpoliced.keyed.enqueueSnapshots ns
    obtain ⟨tasks, heq⟩ := db'.enqueueSnapshots_eq env.taskEnv ns
    rw [heq] at hkeyed ⊢
    exact ⟨hkeyed, hpoliced.users, hpoliced.owner, hpoliced.trimmed⟩
  nodes := (Certificates.nodes_enqueueSnapshots db' env.taskEnv ns).trans hnodes
  kept an han := by
    by_cases hmem : an.id ∈ ns
    · refine Or.inl (Certificates.waiting_enqueueSnapshots db' hmem ?_ (hins an han))
      exact hpoliced.keyed.nodes an (hnodes ▸ han)
    · refine Or.inr ⟨?_, fun hbefore =>
        Certificates.Waiting.enqueueSnapshots_self (hwaits an han hbefore) (hins an han) ns⟩
      obtain ⟨htunnel, hrows⟩ := hview an han hmem
      obtain ⟨tasks, heq⟩ := db'.enqueueSnapshots_eq env.taskEnv ns
      rw [heq]
      exact ⟨htunnel, hrows⟩

theorem user_isSome_iff {id : String} : (db.user id).isSome = true ↔ id ∈ db.users.map (·.id) := by
  rw [Db.user, ← Option.ne_none_iff_isSome, ne_eq, Rows.byKey_eq_none, not_not]

/-! ### Users -/

/-- What a snapshot is made of, of a user. -/
def userView (u : VpnUser) : String × Option String × Option Json × Option Json :=
  (u.fullName, u.organizationId, u.firewallRules, u.ccdSettings)

/-- **The row of a certificate depends on the view of its user.** -/
theorem certificateRow_users {users : List VpnUser} {c : Certificate}
    (h : ∀ id ∈ c.vpnUserId, (Rows.byKey (·.id) id users).map userView =
      (db.user id).map userView) :
    certificateRow { db with users := users } c = certificateRow db c := by
  cases hid : c.vpnUserId with
  | none => simp only [certificateRow, hid, Option.bind_none, Option.map_none]
  | some id =>
    have hid' := h id hid
    simp only [certificateRow, hid, Option.bind_some, Db.user, Db.org] at hid' ⊢
    generalize Rows.byKey (·.id) id users = u' at hid' ⊢
    generalize Rows.byKey (·.id) id db.users = u at hid' ⊢
    cases u' <;> cases u
    · rfl
    · cases hid'
    · cases hid'
    · simp only [userView, Option.map_some, Option.some.injEq, Prod.mk.injEq] at hid'
      obtain ⟨hname, horg, hrules, hccd⟩ := hid'
      simp only [Option.map_some, Option.bind_some, hname, horg, hrules, hccd]
      rfl

theorem SameView.users {users : List VpnUser}
    (h : ∀ c ∈ db.certs, onNode node c = true → ∀ id ∈ c.vpnUserId,
      (Rows.byKey (·.id) id users).map userView = (db.user id).map userView) :
    SameView db { db with users := users } node :=
  ⟨fun _ _ => rfl, certificateRows_congr rfl fun c hc hon => certificateRow_users (h c hc hon)⟩

/-- The users keep their ids. -/
theorem Policed.updateUsers (h : Policed db) {p : VpnUser → Bool} {f : VpnUser → VpnUser}
    (hf : ∀ u, (f u).id = u.id) : Policed { db with users := Rows.updateWhere p f db.users } where
  keyed := ⟨h.keyed.certs, h.keyed.tasks, h.keyed.nodes⟩
  users := h.users.updateWhere fun u _ _ => hf u
  owner := by
    dsimp only
    rw [Rows.map_key_updateWhere fun u _ _ => hf u]
    exact h.owner
  trimmed := h.trimmed

/-- **A change of a user leaves the nodes that have no certificate of the user.** -/
theorem SameView.updateUser {id : String} {f : VpnUser → VpnUser} (hf : ∀ u, (f u).id = u.id)
    (hnode : node ∉ Handlers.vpnUserNodes db id) :
    SameView db { db with users := Rows.updateWhere (fun u => u.id = id) f db.users } node := by
  refine .users fun c hc hon k hk => ?_
  have hne : k ≠ id := by
    rintro rfl
    obtain ⟨hnode', hrevoked⟩ := (onNode_iff).1 hon
    exact hnode (Handlers.mem_vpnUserNodes.2 ⟨c, hc, hk, hrevoked, hnode'⟩)
  rw [Rows.byKey_updateWhere fun u _ => hf u, Db.user]
  cases hu : Rows.byKey (·.id) k db.users with
  | none => rfl
  | some u =>
    have hk : u.id ≠ id := (Rows.mem_of_byKey_eq_some hu).2 ▸ hne
    rw [Option.map_some, if_neg (by simpa using hk)]

/-- **A new user** has no certificate. -/
theorem policyKept_createUser {env : HandlerEnv} {body : Option Fields} (hpoliced : Policed db)
    (h : Handlers.VpnUsers.create env db body = .ok db') : PolicyKept db db' := by
  obtain ⟨row, hunique, rfl⟩ := Handlers.VpnUsers.create_of_ok h
  refine .of_view ⟨⟨hpoliced.keyed.certs, hpoliced.keyed.tasks, hpoliced.keyed.nodes⟩, hunique.1,
    fun c hc id hid => ?_, hpoliced.trimmed⟩ rfl rfl fun an _ => .users fun c hc _ id hid => ?_
  · rw [List.map_append]
    exact List.mem_append_left _ (hpoliced.owner c hc id hid)
  · obtain ⟨u, hu⟩ := Option.isSome_iff_exists.1 (user_isSome_iff.2 (hpoliced.owner c hc id hid))
    rw [Rows.byKey_append_singleton, hu]
    rw [Db.user] at hu
    rw [hu, Option.some_or]

/-- A save for a user, which enqueues a snapshot for the nodes of the user. -/
theorem policyKept_enqueueUser {env : HandlerEnv} {id : String} {f : VpnUser → VpnUser}
    (hpoliced : Policed db) (hf : ∀ u, (f u).id = u.id) (hid : id ≠ "")
    (hlookup : env.lookupFails = false) (hins : InsertsSnapshots env db) :
    PolicyKept db (Handlers.enqueueSnapshotForVpnUser env
      { db with users := Rows.updateWhere (fun u => u.id = id) f db.users } id) := by
  rw [Handlers.enqueueSnapshotForVpnUser, hlookup, if_neg (by simpa using hid)]
  exact .enqueueSnapshots (hpoliced.updateUsers hf) rfl hins (fun _ _ hwaits => hwaits)
    fun an _ hnode => .updateUser hf hnode

/-- What a body says of the two columns of a user that a snapshot reads. -/
theorem userSets_view {fields : Fields} {sets : Handlers.UserSets} {u : VpnUser}
    (h : Handlers.userSets db fields = .ok sets) (hkeeps : KeepsEntry u fields) :
    userView (sets.apply u) = userView u := by
  simp only [Handlers.userSets, Refusals.bind_eq_ok, Refusals.pure_eq_ok] at h
  obtain ⟨fullName, hname, -, -, -, -, -, -, -, -, organizationId, horg, rfl⟩ := h
  have hname' : fullName.getD u.fullName = u.fullName := by
    rcases Handlers.ifField_of_ok hname with ⟨hhas, text, htext, rfl⟩ | ⟨-, rfl⟩
    · simp only [Handlers.reqTrim, Refusals.require_bind_eq_ok, Refusals.pure_eq_ok] at htext
      exact htext.2.symm.trans (hkeeps.1 hhas)
    · rfl
  have horg' : organizationId.getD u.organizationId = u.organizationId := by
    rcases Handlers.ifField_of_ok horg with ⟨hhas, orgID, horgID, rfl⟩ | ⟨-, rfl⟩
    · simp only [Handlers.resolveOrgID, Refusals.require_bind_eq_ok, Refusals.pure_eq_ok] at horgID
      exact horgID.2.symm.trans (hkeeps.2 hhas)
    · rfl
  simp only [userView, Handlers.UserSets.apply, hname', horg']

/-- **A changed user.** -/
theorem policyKept_patchUser {id : String} {body : Option Fields} (hpoliced : Policed db)
    (hsafe : PolicySafe db (.patchUser id body))
    (h : Handlers.VpnUsers.patch db id body = .ok db') :
    PolicyKept db db' := by
  obtain ⟨u, fields, sets, hu, rfl, hsets, -, rfl⟩ := Handlers.VpnUsers.patch_of_ok h
  have hpoliced' := hpoliced.updateUsers (p := fun u => u.id = id) (f := sets.apply) fun _ => rfl
  rcases hsafe with hkeeps | hwaits
  · refine .of_view hpoliced' rfl rfl fun an _ => .users fun c hc _ k hk => ?_
    have hkeep : ∀ u : VpnUser, decide (u.id = id) = true → (sets.apply u).id = u.id :=
      fun _ _ => rfl
    rw [Rows.byKey_updateWhere hkeep, Db.user]
    cases hrow : Rows.byKey (·.id) k db.users with
    | none => rfl
    | some row =>
      rw [Option.map_some, Option.map_some, Option.map_some]
      split_ifs with hid
      · -- the row is the one of the request
        obtain rfl : row = u := hpoliced.users.eq_of_key (Rows.mem_of_byKey_eq_some hrow).1
          (Rows.mem_of_byKey_eq_some hu).1 ((of_decide_eq_true hid).trans
            (Rows.mem_of_byKey_eq_some hu).2.symm)
        rw [userSets_view hsets (hkeeps row hu fields rfl)]
      · rfl
  · refine ⟨hpoliced', rfl, fun an _ => ?_⟩
    by_cases hnode : an.id ∈ Handlers.vpnUserNodes db id
    · exact Or.inl (hwaits an.id hnode)
    · exact Or.inr ⟨.updateUser (fun _ => rfl) hnode, fun hbefore => hbefore⟩

/-! ### Organizations -/

/-- A change of an organization leaves the rows of the users of the others. -/
theorem certificateRow_updateOrg {id : String} {f : Panel.Organization → Panel.Organization}
    {c : Certificate} (hf : ∀ o, (f o).id = o.id)
    (hne : (c.vpnUserId.bind db.user).bind (·.organizationId) ≠ some id) :
    certificateRow { db with orgs := Rows.updateWhere (fun o => o.id = id) f db.orgs } c =
      certificateRow db c := by
  have horg : ∀ k ≠ id, Rows.byKey (·.id) k (Rows.updateWhere (fun o => o.id = id) f db.orgs) =
      db.org k := by
    intro k hk
    rw [Rows.byKey_updateWhere fun o _ => hf o, Db.org]
    cases ho : Rows.byKey (·.id) k db.orgs with
    | none => rfl
    | some o =>
      have hne : o.id ≠ id := (Rows.mem_of_byKey_eq_some ho).2 ▸ hk
      rw [Option.map_some, if_neg (by simpa using hne)]
  have huser : Db.user { db with orgs := Rows.updateWhere (fun o => o.id = id) f db.orgs } =
    db.user := rfl
  simp only [certificateRow, huser]
  generalize c.vpnUserId.bind db.user = u at hne ⊢
  cases u with
  | none => rfl
  | some u =>
    simp only [Option.bind_some] at hne ⊢
    cases hid : u.organizationId with
    | none => rfl
    | some k =>
      have hk : k ≠ id := fun heq => hne (by rw [hid, heq])
      rw [Option.bind_some, Db.org, horg k hk, Option.bind_some]

/-- **The rules of an organization**, which enqueue a snapshot for the nodes of its users. -/
theorem policyKept_saveOrgFirewall {env : HandlerEnv} {id : String} {body : Option Fields}
    (hpoliced : Policed db) (hsafe : PolicySafe db (.saveOrgFirewall env id body))
    (h : Handlers.Organizations.saveFirewall env db id body = .ok db') : PolicyKept db db' := by
  obtain ⟨hlookup, hins⟩ := hsafe
  obtain ⟨stored, rfl⟩ := Handlers.Organizations.saveFirewall_of_ok h
  rw [Handlers.enqueueSnapshotForOrgNodes, hlookup, if_neg Bool.false_ne_true]
  refine .enqueueSnapshots ⟨⟨hpoliced.keyed.certs, hpoliced.keyed.tasks, hpoliced.keyed.nodes⟩,
    hpoliced.users, hpoliced.owner, hpoliced.trimmed⟩ rfl hins (fun _ _ hwaits => hwaits)
    fun an _ hnode => ⟨fun _ _ => rfl, certificateRows_congr rfl fun c hc hon => ?_⟩
  refine certificateRow_updateOrg (fun _ => rfl) fun hid => hnode ?_
  obtain ⟨hcnode, hrevoked⟩ := onNode_iff.1 hon
  exact Handlers.mem_orgNodes.2 ⟨c, hc, hrevoked, hid, hcnode⟩

/-! ### Certificates -/

/-- The rows of a node read the certificates of the node. -/
theorem SameView.certs {certs : List Certificate}
    (h : certs.filter (onNode node) = db.certs.filter (onNode node)) :
    SameView db { db with certs := certs } node :=
  ⟨fun _ _ => rfl, certificateRows_congr h fun _ _ _ => rfl⟩

theorem not_onNode_of_ne {c : Certificate} (h : c.agentNodeId ≠ some node) :
    onNode node c = false :=
  Bool.eq_false_iff.2 fun hon => h (onNode_iff.1 hon).1

/-- **A new certificate**, with a snapshot for its node. -/
theorem policyKept_insert {env : HandlerEnv} {row : Certificate} (hpoliced : Policed db)
    (hrow : Handlers.Certificates.Inserts db row) (hins : InsertsSnapshots env db) :
    PolicyKept db (({ db with certs := db.certs ++ [row] } : Db).enqueueSnapshots env.taskEnv
      row.agentNodeId.toList) := by
  refine .enqueueSnapshots ⟨hpoliced.keyed.withCerts hrow.unique,
    hpoliced.users, fun c hc id hid => ?_, hpoliced.trimmed⟩ rfl hins (fun _ _ hwaits =>
    hwaits) fun an _ hnode => .certs ?_
  · rcases List.mem_append.1 hc with hc | hc
    · exact hpoliced.owner c hc id hid
    · rw [List.mem_singleton.1 hc] at hid
      exact user_isSome_iff.1 (hrow.user id hid)
  · have hoff : onNode an.id row = false :=
      not_onNode_of_ne fun hon => hnode (Option.mem_toList.2 hon)
    rw [List.filter_append, List.filter_singleton, hoff, Bool.cond_false, List.append_nil]

/-- A change of one certificate leaves the nodes that it is on neither before nor after. -/
theorem SameView.updateCert {c : Certificate} {f : Certificate → Certificate}
    (hkey : Rows.HasKey (·.id) db.certs) (hc : c ∈ db.certs) (hbefore : c.agentNodeId ≠ some node)
    (hafter : (f c).agentNodeId ≠ some node) :
    SameView db { db with certs := Rows.updateWhere (fun d => d.id = c.id) f db.certs } node := by
  refine .certs (Rows.filter_updateWhere fun d hd hid => ?_)
  obtain rfl := hkey.eq_of_key hd hc (of_decide_eq_true hid)
  exact ⟨not_onNode_of_ne hbefore, not_onNode_of_ne hafter⟩

/-- A certificate that changes keeps its id and its serial number, and its owner is a user. -/
theorem Policed.updateCert (h : Policed db) {p : Certificate → Bool} {f : Certificate → Certificate}
    (hid : ∀ c, (f c).id = c.id) (hserial : ∀ c, (f c).serialNumber = c.serialNumber)
    (howner : ∀ c ∈ db.certs, p c = true → ∀ id ∈ (f c).vpnUserId, id ∈ db.users.map (·.id)) :
    Policed { db with certs := Rows.updateWhere p f db.certs } where
  keyed := h.keyed.withCerts (h.keyed.certs.updateWhere hid hserial)
  users := h.users
  owner c hc id hmem := by
    rcases Rows.mem_updateWhere.1 hc with ⟨hc, -⟩ | ⟨c₀, hc₀, hp, rfl⟩
    · exact h.owner c hc id hmem
    · exact howner c₀ hc₀ hp id hmem
  trimmed := h.trimmed

/-- **A changed certificate**, with a snapshot for the node it was on and the one it is on now. -/
theorem policyKept_patchCert {env : HandlerEnv} {id : String} {body : Option Fields}
    (hpoliced : Policed db) (hins : InsertsSnapshots env db)
    (h : Handlers.Certificates.patch x env db id body = .ok db') : PolicyKept db db' := by
  obtain ⟨existing, fields, agentNodeID, vpnUserID, certPEM, keyPEM, hex, -,
      -, huser, -, -, -, rfl⟩ :=
    Handlers.Certificates.patch_of_ok h
  obtain ⟨hmem, rfl⟩ := Rows.mem_of_byKey_eq_some hex
  refine .enqueueSnapshots (hpoliced.updateCert (fun _ => rfl) (fun _ => rfl)
    fun _ _ _ k hk => ?_) rfl hins (fun _ _ hwaits => hwaits) fun an _ hnode => ?_
  · have hk : k ∈ vpnUserID := hk
    rcases Handlers.Certificates.patchedUser_of_ok huser with ⟨-, -, hsome⟩ | ⟨-, rfl⟩
    · exact user_isSome_iff.1 (hsome k hk)
    · exact hpoliced.owner existing hmem k hk
  · simp only [List.mem_dedup, List.mem_append, Option.mem_toList, not_or] at hnode
    exact .updateCert hpoliced.keyed.certs.1 hmem hnode.1 hnode.2

/-- The enqueue of the lists of a root leaves the snapshots. -/
theorem SnapshotWaits.enqueueCrlDeploy (h : SnapshotWaits db node) (env : HandlerEnv)
    (rootCaID : Option String) :
    SnapshotWaits (Handlers.Certificates.enqueueCrlDeploy db env rootCaID) node := by
  have hloop : ∀ (root : String) (targets : List (String × String)) (tasks : List PanelAsyncTask),
      Waiting node .panelAgentSnapshot (fun _ => True) tasks →
        Waiting node .panelAgentSnapshot (fun _ => True)
          (targets.foldl (Paneltasks.replaceCrl env.taskEnv root) tasks) := by
    intro root targets
    induction targets with
    | nil => exact fun _ hwaits => hwaits
    | cons target targets ih =>
      intro tasks hwaits
      refine ih _ (hwaits.replacePending fun t _ hstale _ htype _ => ?_)
      rw [Paneltasks.isPendingCrlOf, decide_eq_true_eq, PanelAsyncTask.isPendingOf_iff] at hstale
      exact absurd (hstale.1.2.1.symm.trans htype) (by decide)
  cases rootCaID with
  | none => exact h
  | some root =>
    rw [SnapshotWaits]
    dsimp only [Handlers.Certificates.enqueueCrlDeploy]
    rw [Paneltasks.enqueueCrlDeployForRootCa]
    split_ifs
    · exact h
    · exact hloop root _ _ h

/-- **A revoked certificate**, with a snapshot for its node. -/
theorem policyKept_revokeCert {env : HandlerEnv} {id reason : String} (hpoliced : Policed db)
    (hins : InsertsSnapshots env db) (h : Handlers.Certificates.revoke env db id reason = .ok db') :
    PolicyKept db db' := by
  obtain ⟨existing, text, hex, rfl⟩ := Handlers.Certificates.revoke_of_ok h
  obtain ⟨hmem, rfl⟩ := Rows.mem_of_byKey_eq_some hex
  have hpoliced' := hpoliced.updateCert (p := fun c => c.id = existing.id)
    (f := Cert.revokeRow env.now text) (fun _ => rfl) (fun _ => rfl)
    fun c hc _ k hk => hpoliced.owner c hc k hk
  have hkeyed := hpoliced'.keyed.enqueueCrlDeploy env existing.rootCaId
  have htables : ∃ tasks, Handlers.Certificates.enqueueCrlDeploy { db with
      certs := Rows.updateWhere (fun c => c.id = existing.id)
        (Cert.revokeRow env.now text) db.certs }
      env existing.rootCaId = { db with
        certs := Rows.updateWhere (fun c => c.id = existing.id)
          (Cert.revokeRow env.now text) db.certs
        tasks := tasks } := by
    cases existing.rootCaId with
    | none => exact ⟨_, rfl⟩
    | some root => exact ⟨_, rfl⟩
  have hwaits : ∀ an ∈ db.nodes, SnapshotWaits db an.id → SnapshotWaits
      (Handlers.Certificates.enqueueCrlDeploy { db with
        certs := Rows.updateWhere (fun c => c.id = existing.id)
          (Cert.revokeRow env.now text) db.certs }
        env existing.rootCaId) an.id := by
    intro an _ hbefore
    refine SnapshotWaits.enqueueCrlDeploy ?_ env existing.rootCaId
    exact hbefore
  obtain ⟨tasks, heq⟩ := htables
  rw [heq] at hkeyed hwaits ⊢
  refine .enqueueSnapshots ⟨hkeyed, hpoliced'.users, hpoliced'.owner,
    hpoliced'.trimmed⟩ rfl hins hwaits fun an _ hnode => ?_
  have hoff : existing.agentNodeId ≠ some an.id := fun hon => hnode (Option.mem_toList.2 hon)
  obtain ⟨htunnel, hrows⟩ := SameView.updateCert (f := Cert.revokeRow env.now text)
    hpoliced.keyed.certs.1 hmem hoff hoff
  exact ⟨htunnel, hrows⟩

/-! ### An imported index -/

/-- The columns of a certificate that the rows of a snapshot read. -/
def rowColumns (c : Certificate) : String × Option String × Option String × Option ℤ :=
  (c.commonName, c.agentNodeId, c.vpnUserId, c.revokedAt)

/-- **The rows of a node depend on these columns.** -/
theorem SameView.of_rowColumns {certs : List Certificate}
    (h : certs.map rowColumns = db.certs.map rowColumns) :
    SameView db { db with certs := certs } node := by
  refine ⟨fun _ _ => rfl,
    Rows.map_filter_congr_of_columns (fun c d heq => ?_) (fun c d heq => ?_) h⟩
  all_goals
    simp only [rowColumns, Prod.mk.injEq] at heq
    obtain ⟨hcn, hnode, huser, hrevoked⟩ := heq
  · rw [onNode, onNode, hnode, hrevoked]
  · simp only [certificateRow, hcn, huser]

/-- What an import leaves of a table: the keys, the owners and the certificates of the other
nodes. -/
private structure IndexKept (db : Db) (agentNodeID : Option String)
    (certs : List Certificate) : Prop where
  unique : UniqueCerts certs
  owner : ∀ c ∈ certs, ∀ id ∈ c.vpnUserId, id ∈ db.users.map (·.id)
  others : ∀ node, agentNodeID ≠ some node → certs.filter (onNode node) =
    db.certs.filter (onNode node)

/-- An update of a certificate of the import's node. -/
private theorem IndexKept.update {agentNodeID : Option String} {certs : List Certificate}
    {c : Certificate} {f : Certificate → Certificate} (h : IndexKept db agentNodeID certs)
    (hc : c ∈ certs) (hnode : c.agentNodeId = agentNodeID)
    (hf : ∀ d, (f d).agentNodeId = d.agentNodeId) (hfuser : ∀ d, (f d).vpnUserId = d.vpnUserId)
    (hunique : UniqueCerts (Rows.updateWhere (fun d => d.id = c.id) f certs)) :
    IndexKept db agentNodeID (Rows.updateWhere (fun d => d.id = c.id) f certs) where
  unique := hunique
  owner d hd id hid := by
    rcases Rows.mem_updateWhere.1 hd with ⟨hd, -⟩ | ⟨d₀, hd₀, -, rfl⟩
    · exact h.owner d hd id hid
    · rw [hfuser] at hid
      exact h.owner d₀ hd₀ id hid
  others node hne := by
    refine (Rows.filter_updateWhere fun d hd hid => ?_).trans (h.others node hne)
    obtain rfl := h.unique.1.eq_of_key hd hc (of_decide_eq_true hid)
    have hoff : d.agentNodeId ≠ some node := hnode ▸ hne
    exact ⟨not_onNode_of_ne hoff, not_onNode_of_ne (by rw [hf]; exact hoff)⟩

private theorem IndexKept.change {env : SyncEnv} {imp : IssuedImport} {e : Cert.IssuedEntry}
    {certs certs' : List Certificate} (h : IndexKept db imp.agentNodeID certs)
    (hchange : Cert.IssuedChange env imp e certs certs') : IndexKept db imp.agentNodeID certs' := by
  cases hchange with
  | same => exact h
  | reactivated hfind _ _ hunique =>
    obtain ⟨hc, -, hnode⟩ := Cert.mem_of_findCert hfind
    exact h.update hc hnode (fun _ => rfl) (fun _ => rfl) hunique
  | renewed hfind _ _ hunique =>
    obtain ⟨hc, -, hnode⟩ := Cert.mem_of_findCert hfind
    exact h.update hc hnode (fun _ => rfl) (fun _ => rfl) hunique
  | created _ hunique =>
    refine ⟨hunique, fun c hc id hid => ?_, fun node hne => ?_⟩
    · rcases List.mem_append.1 hc with hc | hc
      · exact h.owner c hc id hid
      · rw [List.mem_singleton.1 hc] at hid
        cases hid
    · rw [List.filter_append, List.filter_singleton, not_onNode_of_ne hne, Bool.cond_false,
        List.append_nil]
      exact h.others node hne

/-- **A text that lists valid certificates only** renews them. -/
theorem rowColumns_syncIssued {env : SyncEnv} {imp : IssuedImport} {text : String}
    (hagent : imp.agentNodeID = some node) (hvalid : ListsValid env db node text) :
    (Cert.syncIssuedInventory env imp db.certs text).1.1.map rowColumns =
    db.certs.map rowColumns := by
  have hback : ∀ {certs : List Certificate} {c : Certificate},
      certs.map rowColumns = db.certs.map rowColumns → c ∈ certs →
        ∃ d ∈ db.certs, rowColumns d = rowColumns c := by
    intro certs c hsame hc
    have hmem : rowColumns c ∈ db.certs.map rowColumns := hsame ▸ List.mem_map_of_mem hc
    exact List.mem_map.1 hmem
  refine Cert.syncIssuedInventory_induction
    (I := fun certs => certs.map rowColumns = db.certs.map rowColumns)
    (fun e he certs certs' hsame hchange => ?_) rfl
  cases hchange with
  | same => exact hsame
  | renewed _ _ _ _ =>
    rw [Rows.map_key_updateWhere fun _ _ _ => by rfl]
    exact hsame
  | reactivated hfind _ hrevoked _ =>
    obtain ⟨hc, hcn, hnode⟩ := Cert.mem_of_findCert hfind
    obtain ⟨d, hd, heq⟩ := hback hsame hc
    simp only [rowColumns, Prod.mk.injEq] at heq
    have hnone := (hvalid e he).2 d hd (heq.1.trans hcn) (heq.2.1.trans (hnode.trans hagent))
    rw [← heq.2.2.2, hnone] at hrevoked
    cases hrevoked
  | created hfind _ =>
    obtain ⟨⟨d, hd, hcn, hnode⟩, -⟩ := hvalid e he
    obtain ⟨c, hc, heq⟩ := List.mem_map.1 (hsame.symm ▸ List.mem_map_of_mem (f := rowColumns) hd :
      rowColumns d ∈ certs.map rowColumns)
    simp only [rowColumns, Prod.mk.injEq] at heq
    exact absurd ⟨heq.1.trans hcn, heq.2.1.trans (hnode.trans hagent.symm)⟩
      (Cert.findCert_eq_none.1 hfind c hc)

private theorem indexKept_syncIssued (env : SyncEnv) (imp : IssuedImport) (text : String)
    (hpoliced : Policed db) :
    IndexKept db imp.agentNodeID (Cert.syncIssuedInventory env imp db.certs text).1.1 := by
  refine Cert.syncIssuedInventory_induction (I := IndexKept db imp.agentNodeID)
    (fun e _ certs certs' hI hchange => hI.change hchange) ?_
  exact ⟨hpoliced.keyed.certs, hpoliced.owner, fun _ _ => rfl⟩

/-- **An imported index.** -/
theorem policyKept_importIndex {env : SyncEnv} {rootCaID : String} {body : Option Fields}
    {out : Handlers.Certificates.IndexImport} (hpoliced : Policed db)
    (hsafe : PolicySafe db (.importIndex env rootCaID body))
    (h : Handlers.Certificates.rootCAImportIndex db env rootCaID body = .ok out) :
    PolicyKept db out.db := by
  obtain ⟨imp, fields, rfl, -, -, -, hagent, -, hdb⟩ :=
    Handlers.Certificates.rootCAImportIndex_of_ok h
  have hkept := indexKept_syncIssued env imp (Handlers.textField fields "issuedList") hpoliced
  have hlisted : ∀ an : Panel.AgentNode, imp.agentNodeID = some an.id →
      ListsValid env db an.id (Handlers.textField fields "issuedList") ∨
      SnapshotWaits db an.id := by
    intro an hnode
    exact hsafe fields rfl an.id (hagent ▸ hnode)
  have hsame : ∀ node, imp.agentNodeID = some node →
      ListsValid env db node (Handlers.textField fields "issuedList") →
        (Cert.syncIssuedInventory env imp db.certs (Handlers.textField fields "issuedList")).1.1.map
          rowColumns = db.certs.map rowColumns := fun _ => rowColumns_syncIssued
  rw [hdb]
  generalize (Cert.syncIssuedInventory env imp db.certs
    (Handlers.textField fields "issuedList")).1.1 = certs at hkept hsame ⊢
  refine ⟨⟨hpoliced.keyed.withCerts hkept.unique, hpoliced.users,
    hkept.owner, hpoliced.trimmed⟩, rfl, fun an _ => ?_⟩
  by_cases hnode : imp.agentNodeID = some an.id
  · rcases hlisted an hnode with hvalid | hwaits
    · exact Or.inr ⟨.of_rowColumns (hsame an.id hnode hvalid), fun hbefore => hbefore⟩
    · exact Or.inl hwaits
  · exact Or.inr ⟨.certs (hkept.others an.id hnode), fun hbefore => hbefore⟩

/-! ### Settings -/

/-- **Settings that are stored** say the same of the tunnel, or the node has a snapshot waiting. -/
theorem policyKept_upsertSettings {nodeID : String} {settings : Settings}
    {configPath : Option String} (hpoliced : Policed db)
    (hsafe : KeepsTunnel (db.settingsOf nodeID) settings ∨ SnapshotWaits db nodeID) :
    PolicyKept db (db.upsertSettings nodeID settings configPath) := by
  refine ⟨⟨⟨hpoliced.keyed.certs, hpoliced.keyed.tasks, hpoliced.keyed.nodes⟩, hpoliced.users,
    hpoliced.owner, hpoliced.trimmed⟩, rfl, fun an _ => ?_⟩
  by_cases hnode : an.id = nodeID
  · subst hnode
    rcases hsafe with hkeeps | hwaits
    · refine Or.inr ⟨⟨?_, rfl⟩, fun hbefore => hbefore⟩
      rw [Db.settingsOf_upsertSettings, if_pos rfl]
      exact hkeeps
    · exact Or.inl hwaits
  · refine Or.inr ⟨⟨?_, rfl⟩, fun hbefore => hbefore⟩
    rw [Db.settingsOf_upsertSettings, if_neg hnode]
    exact fun _ _ => rfl

/-- **Settings that are stored with a snapshot** for the node. -/
theorem policyKept_storeAndEnqueue {env : EnqueueEnv} {nodeID : String} {settings : Settings}
    {tasks : List PanelAsyncTask} (hpoliced : Policed db) (hkey : Rows.HasKey (·.id) tasks)
    (hwaits : ∀ an ∈ db.nodes, SnapshotWaits db an.id →
      SnapshotWaits { db with tasks := tasks } an.id)
    (hins : env.insertFails = false) :
    PolicyKept db
      ((({ db with tasks := tasks } : Db).upsertSettings nodeID settings none).enqueueSnapshot
      env nodeID) := by
  refine ⟨⟨⟨hpoliced.keyed.certs, Paneltasks.hasKey_upsertPendingTask hkey, hpoliced.keyed.nodes⟩,
    hpoliced.users, hpoliced.owner, hpoliced.trimmed⟩, rfl, fun an han => ?_⟩
  by_cases hnode : an.id = nodeID
  · subst hnode
    exact Or.inl (Paneltasks.waiting_upsertPendingTask (hpoliced.keyed.nodes an han) hins trivial)
  · refine Or.inr ⟨⟨?_, rfl⟩, fun hbefore => ?_⟩
    · rw [Db.settingsOf_enqueueSnapshot, Db.settingsOf_upsertSettings, if_neg hnode]
      exact fun _ _ => rfl
    · exact (hwaits an han hbefore).upsertPendingTask fun heq => absurd heq.symm hnode

/-- **A read of the settings.** -/
theorem policyKept_readSettings {env : SettingsEnv} {nodeID : String} (hpoliced : Policed db)
    (hsafe : PolicySafe db (.readSettings env nodeID))
    (h : (Panel.getOpenvpnSettingsForPanel env db nodeID).2.status = 200) :
    PolicyKept db (Panel.getOpenvpnSettingsForPanel env db nodeID).1 := by
  rcases Panel.get_of_ok h with ⟨data, agent, cp, hdata, hfield,
    hdb⟩ | ⟨⟨e, he⟩, ⟨-, hdb⟩ | ⟨hrow, hdb⟩⟩
  · rw [hdb]
    refine policyKept_upsertSettings hpoliced (hsafe.imp_left fun hkeeps => hkeeps _ ?_)
    rw [storedByRead, hdata]
    simp only [hfield, Option.mem_def]
  · rw [hdb]
    exact .of_view hpoliced rfl rfl fun an _ => .refl db an.id
  · rw [hdb]
    refine policyKept_upsertSettings hpoliced (hsafe.imp_left fun hkeeps => hkeeps _ ?_)
    rw [storedByRead, he, hrow]
    rfl

/-- The material of a node is no snapshot. -/
theorem snapshot_notMem_materialSyncTasks (settings : Settings) :
    TaskType.panelAgentSnapshot ∉ (Paneltasks.materialSyncTasks settings).map (·.1) := by
  simp only [Paneltasks.materialSyncTasks, List.map_append]
  split_ifs <;> simp

/-- **A save of the settings.** -/
theorem policyKept_saveSettings {env : SettingsEnv} {nodeID : String} {body : Fields}
    (hpoliced : Policed db) (hins : (env.taskEnv .panelAgentSnapshot).insertFails = false)
    (h : (Panel.postOpenvpnSettingsForPanel env db nodeID body).result.status = 200) :
    PolicyKept db (Panel.postOpenvpnSettingsForPanel env db nodeID body).db := by
  obtain ⟨fields, tasks, -, htasks, hdb⟩ := Panel.post_of_ok h
  obtain rfl : _ = tasks := congrArg Prod.fst htasks
  rw [hdb]
  refine policyKept_storeAndEnqueue hpoliced
    (Paneltasks.hasKey_enqueueMaterial hpoliced.keyed.tasks) (fun an _ hbefore => ?_) hins
  exact Waiting.enqueueMaterial hbefore fun _ => snapshot_notMem_materialSyncTasks _

/-! ### Tasks -/

/-- **A claim.** -/
theorem policyKept_claim {now : ℤ} {id : String} {out : List PanelAsyncTask × PanelAsyncTask}
    (hpoliced : Policed db) (h : Paneltasks.claimPendingTask now db.tasks node id = some out) :
    PolicyKept db { db with tasks := out.1 } := by
  rw [Paneltasks.claimPendingTask_fst h]
  exact ⟨⟨⟨hpoliced.keyed.certs, Paneltasks.hasKey_markProcessing hpoliced.keyed.tasks now id,
    hpoliced.keyed.nodes⟩, hpoliced.users, hpoliced.owner, hpoliced.trimmed⟩, rfl, fun an _ =>
      Or.inr ⟨⟨fun _ _ => rfl, rfl⟩, fun hbefore => Waiting.markProcessing hbefore now id⟩⟩

/-- **An execution** of a snapshot delivers the present revision. -/
theorem NoStalePolicy.execute {w w' : PolicyWorld} {env : EnqueueEnv} {now : ℤ} {id : String}
    (h : NoStalePolicy revisionOf w) (hpoliced : Policed w.db)
    (hstep : policyStep revisionOf x w (.execute env now id) = some w') :
    Policed w'.db ∧ NoStalePolicy revisionOf w' := by
  rw [policyStep, PolicyOp.apply, Option.bind_eq_some_iff] at hstep
  obtain ⟨db, hdb, hdeliver⟩ := hstep
  obtain ⟨⟨tasks, t⟩, hexec, rfl⟩ := Option.map_eq_some_iff.1 hdb
  obtain ⟨delivered, hdelivered, rfl⟩ := Option.map_eq_some_iff.1 hdeliver
  obtain ⟨hmem, rfl, -, -⟩ := Paneltasks.executeTask_eq_some hexec
  refine ⟨⟨⟨hpoliced.keyed.certs, Paneltasks.hasKey_executeTask hpoliced.keyed.tasks hexec,
    hpoliced.keyed.nodes⟩, hpoliced.users, hpoliced.owner, hpoliced.trimmed⟩,
    fun an han rev hrev hstale => ?_⟩
  have hrev : rev ∈ currentRevision revisionOf w.db an.id := hrev
  have hfind := (Rows.byKey_eq_some hpoliced.keyed.tasks).2 ⟨hmem, rfl⟩
  rw [PolicyWorld.deliver, hfind] at hdelivered
  dsimp only at hdelivered hstale
  by_cases hown : t.type = .panelAgentSnapshot ∧ t.agentNodeId = an.id
  · -- the snapshot of the node itself is delivered
    obtain ⟨htype, hnode⟩ := hown
    rw [if_pos htype, hnode, hrev, Option.map_some] at hdelivered
    rw [← Option.some.inj hdelivered, Function.update_self] at hstale
    exact absurd rfl hstale
  · have hsame : delivered an.id = w.delivered an.id := by
      split_ifs at hdelivered with htype
      · obtain ⟨rev', -, rfl⟩ := Option.map_eq_some_iff.1 hdelivered
        exact Function.update_of_ne (fun hnode => hown ⟨htype, hnode.symm⟩) _ _
      · exact congrFun (Option.some.inj hdelivered).symm an.id
    rw [hsame] at hstale
    have hbeside := (h an han rev hrev hstale).beside hpoliced.keyed.tasks hmem fun hnode htype =>
      hown ⟨htype, hnode⟩
    exact hbeside.execute (by decide) hexec

/-! ### Runs -/

private theorem toOption_eq_some {ε α : Type} {y : Except ε α} {a : α} (h : y.toOption = some a) :
    y = .ok a := by
  cases y with
  | error e => cases h
  | ok b => exact congrArg Except.ok (Option.some.inj h)

/-- A step that is not an execution keeps to its rule. -/
theorem policyKept_apply {op : PolicyOp} (hpoliced : Policed db) (hsafe : PolicySafe db op)
    (happly : op.apply x db = some db') (hop : ∀ env now id, op ≠ .execute env now id) :
    PolicyKept db db' := by
  cases op with
  | createUser env body => exact policyKept_createUser hpoliced (toOption_eq_some happly)
  | patchUser id body => exact policyKept_patchUser hpoliced hsafe (toOption_eq_some happly)
  | saveUserFirewall env id body =>
    obtain ⟨hid, hlookup, hins⟩ := hsafe
    obtain ⟨stored, rfl⟩ := Handlers.VpnUsers.saveFirewall_of_ok (toOption_eq_some happly)
    exact policyKept_enqueueUser hpoliced (fun _ => rfl) hid hlookup hins
  | saveCCD env id body =>
    obtain ⟨hid, hlookup, hins⟩ := hsafe
    obtain ⟨stored, rfl⟩ := Handlers.VpnUsers.saveCCD_of_ok (toOption_eq_some happly)
    exact policyKept_enqueueUser hpoliced (fun _ => rfl) hid hlookup hins
  | saveOrgFirewall env id body =>
    exact policyKept_saveOrgFirewall hpoliced hsafe (toOption_eq_some happly)
  | createCert env body =>
    obtain ⟨row, -, -, -, hrow, -, -, -, -, -, -, -, rfl⟩ :=
      Handlers.Certificates.create_of_ok (toOption_eq_some happly)
    exact policyKept_insert hpoliced hrow hsafe
  | importCert env body =>
    obtain ⟨row, -, -, -, hrow, -, -, -, -, -, -, -, -, -, -, -, rfl⟩ :=
      Handlers.Certificates.import_of_ok (toOption_eq_some happly)
    exact policyKept_insert hpoliced hrow hsafe
  | patchCert env id body => exact policyKept_patchCert hpoliced hsafe (toOption_eq_some happly)
  | revokeCert env id reason => exact policyKept_revokeCert hpoliced hsafe (toOption_eq_some happly)
  | importIndex env rootCaID body =>
    obtain ⟨out, hout, rfl⟩ := Option.map_eq_some_iff.1 happly
    exact policyKept_importIndex hpoliced hsafe (toOption_eq_some hout)
  | readSettings env nodeID =>
    rw [PolicyOp.apply] at happly
    split_ifs at happly with hok
    cases happly
    exact policyKept_readSettings hpoliced hsafe hok
  | saveSettings env nodeID body =>
    rw [PolicyOp.apply] at happly
    split_ifs at happly with hok
    cases happly
    exact policyKept_saveSettings hpoliced hsafe hok
  | applySettings env nodeID body =>
    rw [PolicyOp.apply] at happly
    split_ifs at happly with hok
    cases happly
    obtain ⟨cp, hdb⟩ := Panel.apply_of_ok hok
    rw [hdb]
    exact policyKept_upsertSettings hpoliced hsafe
  | saveTunnelFirewall env nodeID body =>
    rw [PolicyOp.apply] at happly
    split_ifs at happly with hok
    cases happly
    rw [Panel.applyFirewall_of_ok hok]
    exact policyKept_storeAndEnqueue hpoliced hpoliced.keyed.tasks (fun _ _ hwaits => hwaits) hsafe
  | claim now node id =>
    obtain ⟨out, hclaim, rfl⟩ := Option.map_eq_some_iff.1 happly
    exact policyKept_claim hpoliced hclaim
  | execute env now id => exact absurd rfl (hop env now id)

/-- **A step that meets the condition** keeps the law. -/
theorem NoStalePolicy.step {w w' : PolicyWorld} {op : PolicyOp}
    (h : Policed w.db ∧ NoStalePolicy revisionOf w) (hsafe : PolicySafe w.db op)
    (hstep : policyStep revisionOf x w op = some w') : Policed w'.db ∧
    NoStalePolicy revisionOf w' := by
  obtain ⟨hpoliced, h⟩ := h
  by_cases hop : ∃ env now id, op = .execute env now id
  · obtain ⟨env, now, id, rfl⟩ := hop
    exact h.execute hpoliced hstep
  · push Not at hop
    obtain ⟨db, happly, hdeliver⟩ := Option.bind_eq_some_iff.1 hstep
    have hkept := policyKept_apply hpoliced hsafe happly hop
    have hdelivered : w.deliver revisionOf op = some w.delivered := by
      cases op with
      | execute env now id => exact absurd rfl (hop env now id)
      | _ => rfl
    rw [hdelivered, Option.map_some] at hdeliver
    obtain rfl := Option.some.inj hdeliver
    exact ⟨hkept.policed, h.kept hpoliced hkept⟩

end OpenvpnControl.Agentsnapshot
