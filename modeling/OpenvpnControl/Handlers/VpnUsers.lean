import OpenvpnControl.Ccd.Render
import OpenvpnControl.Handlers.Requests

/-!
# The handlers of users and organizations

Creating and changing a user, and saving the firewall rules and the client configuration of a user
and the firewall rules of an organization. The saves enqueue a snapshot for every node on which the
user, or a user of the organization, has a certificate that is not revoked.

## Main definitions

* `VpnUsers.create`, `VpnUsers.patch`, `VpnUsers.saveFirewall`, `VpnUsers.saveCCD`,
  `Organizations.saveFirewall`: the handlers.
* `vpnUserNodes`, `orgNodes`: the nodes a snapshot is enqueued for.

## Main results

* `VpnUsers.create_of_ok`, `VpnUsers.patch_of_ok`, `VpnUsers.saveFirewall_of_ok`,
  `VpnUsers.saveCCD_of_ok`, `Organizations.saveFirewall_of_ok`: what a request that is not refused
  leaves.
-/

namespace OpenvpnControl.Handlers

open Panel (Db VpnUser Organization)
open Refusals (require fetch)

/-! ### Snapshots -/

/-- The rows that `EnqueueSnapshotForVpnUser` reads. -/
def vpnUserNodes (db : Db) (vpnUserID : String) : List String :=
  ((db.certs.filter fun c => c.vpnUserId = some vpnUserID ∧ c.revokedAt = none).filterMap
    (·.agentNodeId)).dedup

/-- The rows that `EnqueueSnapshotForOrgNodes` reads. -/
def orgNodes (db : Db) (orgID : String) : List String :=
  ((db.certs.filter fun c => c.revokedAt = none ∧
    ((c.vpnUserId.bind db.user).bind (·.organizationId)) =
    some orgID).filterMap (·.agentNodeId)).dedup

/-- `EnqueueSnapshotForVpnUser`, whose error is dropped: a query that fails enqueues nothing. -/
def enqueueSnapshotForVpnUser (env : HandlerEnv) (db : Db) (vpnUserID : String) : Db :=
  if vpnUserID = "" ∨ env.lookupFails then db
  else db.enqueueSnapshots env.taskEnv (vpnUserNodes db vpnUserID)

/-- `EnqueueSnapshotForOrgNodes`, whose error is dropped. -/
def enqueueSnapshotForOrgNodes (env : HandlerEnv) (db : Db) (orgID : String) : Db :=
  if env.lookupFails then db else db.enqueueSnapshots env.taskEnv (orgNodes db orgID)

/-! ### Rows -/

/-- The answer to a body that is no object. -/
def notJson : Refusal := ⟨400, "invalid json"⟩

/-- The answer for a user that does not exist. -/
def vpnUserNotFound : Refusal := ⟨404, "Пользователь не найден"⟩

/-- The answer when another user has the address. -/
def sameEmail : Refusal := ⟨409, "Пользователь с таким email уже существует"⟩

/-- The unique columns of `VpnUser`. -/
def UniqueUsers (users : List VpnUser) : Prop :=
  Rows.HasKey (·.id) users ∧ Rows.HasKey (·.email) users

instance (users : List VpnUser) : Decidable (UniqueUsers users) := by
  unfold UniqueUsers
  infer_instance

/-- The table a statement on `VpnUser` leaves, unless it is refused. -/
def storeUsers (users : List VpnUser) : Option (List VpnUser) :=
  if UniqueUsers users then some users else none

theorem storeUsers_eq_some {users users' : List VpnUser} :
    storeUsers users = some users' ↔ UniqueUsers users ∧ users' = users := by
  rw [storeUsers]
  split_ifs with h
  · simp [h, eq_comm]
  · simp [h]

/-- A field that a `Patch` reads when the body has it. -/
def ifField {α : Type} (body : Fields) (key : String) (read : Json → Except Refusal α) :
    Except Refusal (Option α) :=
  if hasField body key then (read (Json.field body key)).map some else .ok none

/-- `sets`: the columns of `VpnUser` that a `Patch` sets. -/
structure UserSets where
  fullName : Option String
  position : Option (Option String)
  email : Option String
  phone : Option (Option String)
  notes : Option (Option String)
  organizationId : Option (Option String)
  deriving DecidableEq

/-- Is no column set? -/
def UserSets.isEmpty (s : UserSets) : Bool := s = ⟨none, none, none, none, none, none⟩

/-- The `UPDATE` of a `Patch`. -/
def UserSets.apply (s : UserSets) (u : VpnUser) : VpnUser :=
  { u with
    fullName := s.fullName.getD u.fullName
    position := s.position.getD u.position
    email := s.email.getD u.email
    phone := s.phone.getD u.phone
    notes := s.notes.getD u.notes
    organizationId := s.organizationId.getD u.organizationId }

/-- `json.Marshal` of the settings of the package `ccd`. -/
def ccdJson (s : Ccd.Settings) : Json :=
  .obj [("ifconfigPushLocal", .str s.ifconfigPushLocal),
    ("ifconfigPushRemote", .str s.ifconfigPushRemote), ("pushRoutes", .str s.pushRoutes),
    ("iroutes", .str s.iroutes), ("dnsServers", .str s.dnsServers),
    ("customDirectives", .str s.customDirectives)]

/-- What a body says of a firewall, as it is stored. -/
def firewallOf (body : Fields) : Json :=
  Firewall.serializeForDB (strAny (Json.field body "mode")) (Json.field body "rules")
    (Json.field body "natRules")

/-! ### The handlers -/

variable (env : HandlerEnv) (db : Db)

/-- The handler `Create` of a user. -/
def VpnUsers.create (body : Option Fields) : Except Refusal Db := do
  let body ← fetch body notJson
  let fullName ← reqTrim (Json.field body "fullName") "fullName"
  let email ← reqTrim (Json.field body "email") "email"
  let orgID ← resolveOrgID db (Json.field body "organizationId")
  let row : VpnUser :=
    { id := env.ksuid (db.users.map (·.id))
      fullName := fullName
      position := nullableID (Json.field body "position")
      email := GoStrings.toLower email
      phone := nullableID (Json.field body "phone")
      organizationId := orgID
      notes := nullableID (Json.field body "notes")
      firewallRules := none
      ccdSettings := none }
  let users ← fetch (storeUsers (db.users ++ [row])) sameEmail
  return { db with users := users }

/-- The columns that a body sets. -/
def userSets (body : Fields) : Except Refusal UserSets := do
  let fullName ← ifField body "fullName" fun v => reqTrim v "fullName"
  let position ← ifField body "position" fun v => .ok (nullableID v)
  let email ← ifField body "email" fun v => (reqTrim v "email").map GoStrings.toLower
  let phone ← ifField body "phone" fun v => .ok (nullableID v)
  let notes ← ifField body "notes" fun v => .ok (nullableID v)
  let organizationId ← ifField body "organizationId" (resolveOrgID db)
  return ⟨fullName, position, email, phone, notes, organizationId⟩

/-- The handler `Patch` of a user. No snapshot is enqueued. -/
def VpnUsers.patch (id : String) (body : Option Fields) : Except Refusal Db := do
  let _ ← fetch (db.user id) vpnUserNotFound
  let body ← fetch body notJson
  let sets ← userSets db body
  require (sets.isEmpty = false) ⟨400, "Нет полей для обновления"⟩
  let users ← fetch
    (storeUsers (Rows.updateWhere (fun u => u.id = id) sets.apply db.users)) sameEmail
  return { db with users := users }

/-- The handler `SaveFirewall` of a user; a body that is no object reads as empty. -/
def VpnUsers.saveFirewall (id : String) (body : Option Fields) : Except Refusal Db := do
  let _ ← fetch (db.user id) vpnUserNotFound
  let stored := firewallOf (body.getD [])
  let users :=
    Rows.updateWhere (fun u => u.id = id) (fun u => { u with firewallRules := some stored })
    db.users
  return enqueueSnapshotForVpnUser env { db with users := users } id

/-- The handler `SaveCCD`; a body that is no object reads as empty. -/
def VpnUsers.saveCCD (id : String) (body : Option Fields) : Except Refusal Db := do
  let _ ← fetch (db.user id) vpnUserNotFound
  let stored := ccdJson (Ccd.normalize (.obj (body.getD [])))
  let users :=
    Rows.updateWhere (fun u => u.id = id) (fun u => { u with ccdSettings := some stored })
    db.users
  return enqueueSnapshotForVpnUser env { db with users := users } id

/-- The handler `SaveFirewall` of an organization. -/
def Organizations.saveFirewall (id : String) (body : Option Fields) : Except Refusal Db := do
  let body ← fetch body notJson
  let stored := firewallOf body
  let _ ← fetch (db.org id) ⟨404, "Организация не найдена"⟩
  let orgs :=
    Rows.updateWhere (fun o => o.id = id) (fun o => { o with firewallRules := some stored })
    db.orgs
  return enqueueSnapshotForOrgNodes env { db with orgs := orgs } id

/-! ### What a request leaves -/

variable {env db} {db' : Db} {body : Option Fields} {id : String}

/-- A field that a body has is read, any other is not. -/
theorem ifField_of_ok {α : Type} {fields : Fields} {key : String} {read : Json → Except Refusal α}
    {v : Option α} (h : ifField fields key read = .ok v) :
    (hasField fields key = true ∧ ∃ a, read (Json.field fields key) = .ok a ∧ v = some a) ∨
      hasField fields key = false ∧ v = none := by
  rw [ifField] at h
  split_ifs at h with hhas
  · cases hread : read (Json.field fields key) with
    | error e =>
      rw [hread] at h
      cases h
    | ok a =>
      rw [hread] at h
      exact Or.inl ⟨hhas, a, rfl, (Except.ok.inj h).symm⟩
  · exact Or.inr ⟨by simpa using hhas, (Except.ok.inj h).symm⟩

/-- **A new user.** -/
theorem VpnUsers.create_of_ok (h : VpnUsers.create env db body = .ok db') :
    ∃ row : VpnUser, UniqueUsers (db.users ++ [row]) ∧
    db' = { db with users := db.users ++ [row] } := by
  simp only [VpnUsers.create, Refusals.bind_eq_ok, Refusals.fetch_eq_ok, Refusals.pure_eq_ok] at h
  obtain ⟨fields, -, fullName, -, email, -, orgID, -, users, hstore, rfl⟩ := h
  obtain ⟨hunique, rfl⟩ := storeUsers_eq_some.1 hstore
  exact ⟨_, hunique, rfl⟩

/-- **A changed user.** -/
theorem VpnUsers.patch_of_ok (h : VpnUsers.patch db id body = .ok db') :
    ∃ (u : VpnUser) (fields : Fields) (sets : UserSets), db.user id = some u ∧ body = some fields ∧
      userSets db fields = .ok sets ∧
      UniqueUsers (Rows.updateWhere (fun u => u.id = id) sets.apply db.users) ∧
      db' = { db with users := Rows.updateWhere (fun u => u.id = id) sets.apply db.users } := by
  simp only [VpnUsers.patch, Refusals.bind_eq_ok, Refusals.fetch_eq_ok, Refusals.require_eq_ok,
    Refusals.pure_eq_ok] at h
  obtain ⟨u, hu, fields, hbody, sets, hsets, -, -, users, hstore, rfl⟩ := h
  obtain ⟨hunique, rfl⟩ := storeUsers_eq_some.1 hstore
  exact ⟨u, fields, sets, hu, hbody, hsets, hunique, rfl⟩

/-- **Saved firewall rules of a user.** -/
theorem VpnUsers.saveFirewall_of_ok (h : VpnUsers.saveFirewall env db id body = .ok db') :
    ∃ stored : Json, db' = enqueueSnapshotForVpnUser env
      { db with
        users := Rows.updateWhere (fun u => u.id = id)
          (fun u => { u with firewallRules := some stored }) db.users } id := by
  simp only [VpnUsers.saveFirewall, Refusals.bind_eq_ok, Refusals.fetch_eq_ok,
    Refusals.pure_eq_ok] at h
  obtain ⟨-, -, rfl⟩ := h
  exact ⟨_, rfl⟩

/-- **A saved client configuration.** -/
theorem VpnUsers.saveCCD_of_ok (h : VpnUsers.saveCCD env db id body = .ok db') :
    ∃ stored : Json, db' = enqueueSnapshotForVpnUser env
      { db with
        users := Rows.updateWhere (fun u => u.id = id)
          (fun u => { u with ccdSettings := some stored }) db.users } id := by
  simp only [VpnUsers.saveCCD, Refusals.bind_eq_ok, Refusals.fetch_eq_ok, Refusals.pure_eq_ok] at h
  obtain ⟨-, -, rfl⟩ := h
  exact ⟨_, rfl⟩

/-- **Saved firewall rules of an organization.** -/
theorem Organizations.saveFirewall_of_ok (h : Organizations.saveFirewall env db id body = .ok db') :
    ∃ stored : Json, db' = enqueueSnapshotForOrgNodes env
      { db with
        orgs := Rows.updateWhere (fun o => o.id = id)
          (fun o => { o with firewallRules := some stored }) db.orgs } id := by
  simp only [Organizations.saveFirewall, Refusals.bind_eq_ok, Refusals.fetch_eq_ok,
    Refusals.pure_eq_ok] at h
  obtain ⟨-, -, -, -, rfl⟩ := h
  exact ⟨_, rfl⟩

/-! ### The nodes a snapshot is for -/

/-- The nodes of a user. -/
theorem mem_vpnUserNodes {node : String} :
    node ∈ vpnUserNodes db id ↔ ∃ c ∈ db.certs, c.vpnUserId = some id ∧ c.revokedAt = none ∧
      c.agentNodeId = some node := by
  simp only [vpnUserNodes, List.mem_dedup, List.mem_filterMap, List.mem_filter,
    decide_eq_true_eq, and_assoc]

/-- The nodes of the users of an organization. -/
theorem mem_orgNodes {node : String} :
    node ∈ orgNodes db id ↔ ∃ c ∈ db.certs, c.revokedAt = none ∧
      (c.vpnUserId.bind db.user).bind (·.organizationId) = some id ∧ c.agentNodeId = some node := by
  simp only [orgNodes, List.mem_dedup, List.mem_filterMap, List.mem_filter,
    decide_eq_true_eq, and_assoc]

end OpenvpnControl.Handlers
