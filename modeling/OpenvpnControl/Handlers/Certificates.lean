import OpenvpnControl.Cert.Inventory
import OpenvpnControl.Handlers.Requests

/-!
# The certificate handlers

Issuing, importing, changing and revoking a certificate, and the import of an index. A handler is a
function from the database to the database it leaves, or to a refusal.

The checks stand in the order of the source, since the first one that fails gives the answer. Each
handler has one lemma about a request that is not refused, from which every later proof takes what
the request has passed.

## Main definitions

* `Certificates.create`, `Certificates.import`, `Certificates.patch`, `Certificates.revoke`,
  `Certificates.rootCAImportIndex`: the handlers.

## Main results

* `Certificates.create_of_ok`, `Certificates.import_of_ok`, `Certificates.patch_of_ok`,
  `Certificates.revoke_of_ok`, `Certificates.rootCAImportIndex_of_ok`: what a request that is not
  refused has passed and leaves.
-/

namespace OpenvpnControl.Handlers.Certificates

open Panel (Db Certificate UniqueCerts storeCerts)
open Cert (X509 SyncEnv IssuedImport)
open Refusals (require fetch)

variable (x : X509) (env : HandlerEnv) (db : Db)

/-! ### Checks -/

/-- The answer to a body that is no object. -/
def invalidJson : Refusal := ⟨400, "invalid json"⟩

/-- The answer for a root that does not exist. -/
def rootNotFound : Refusal := ⟨404, "Корневой сертификат не найден"⟩

/-- The answer for a node that does not exist. -/
def nodeNotFound : Refusal := ⟨404, "Agent node not found"⟩

/-- The answer for a user that does not exist. -/
def userNotFound : Refusal := ⟨404, "VPN user not found"⟩

/-- The answer for a certificate that does not exist. -/
def certNotFound : Refusal := ⟨404, "Certificate not found"⟩

/-- The answer when a valid certificate of the node has the common name. -/
def sameCN : Refusal :=
  ⟨409, "Сертификат с таким subject CN для этого сервера уже есть и не отозван."⟩

/-- The answer when a certificate has the serial number. -/
def sameSerial : Refusal := ⟨409, "Сертификат с таким серийным номером уже существует"⟩

/-- The answer to a certificate with a negative serial number. -/
def negativeSerial : Refusal :=
  ⟨422, "Сертификат отклонён: отрицательный serialNumber (например -ABCD...). Выпустите/импортируйте сертификат с положительным serialNumber."⟩

/-- `activeSameCN`; a look-up that fails finds nothing. -/
def activeSameCN (commonName : String) (agentNodeID : Option String) (excludeID : String) : Bool :=
  !env.lookupFails && db.certs.any fun c =>
    decide (c.commonName = commonName ∧ c.agentNodeId = agentNodeID ∧ c.revokedAt = none ∧
      (excludeID ≠ "" → c.id ≠ excludeID))

/-- A fresh id of a certificate. -/
def newCertID : String := env.ksuid (db.certs.map (·.id))

/-- The serial number of a certificate, which `newID` replaces when it is blank. -/
def serialOr (serial : String) : String :=
  if serial = "" then env.ksuid (db.certs.map (·.serialNumber)) else serial

/-! ### Issuing -/

/-- The days `Create` asks for: up to the expiry of the request, rounded up. -/
def requestedDays (expiresRaw : String) : ℤ :=
  match if expiresRaw = "" then none else env.parseTime expiresRaw with
  | some t => max 1 (-((env.now - t) / Cert.day))
  | none => 365

/-- The handler `Create`. -/
def create (body : Option Fields) : Except Refusal Db := do
  let body ← fetch body invalidJson
  let commonName := textField body "commonName"
  require (commonName ≠ "") ⟨400, "commonName (subject CN сертификата) обязателен"⟩
  let rootCaID := textField body "rootCaId"
  require (rootCaID ≠ "") ⟨400, "rootCaId is required"⟩
  let vpnUserID := nullableID (Json.field body "vpnUserId")
  require (∀ id ∈ vpnUserID, (db.user id).isSome) userNotFound
  let root ← fetch (db.root rootCaID) rootNotFound
  let agentNodeID := nullableID (Json.field body "agentNodeId")
  require (∀ id ∈ agentNodeID, (db.node id).isSome) nodeNotFound
  require (activeSameCN env db commonName agentNodeID "" = false) sameCN
  let issuedBy := textField body "issuedBy"
  let leaf ← (Cert.issueLeaf x env.now root.certPem root.keyPem commonName
    (requestedDays env (textField body "expiresAt"))).mapError fun e => ⟨500, e⟩
  let row : Certificate :=
    { id := newCertID env db
      commonName := commonName
      serialNumber := serialOr env db leaf.serial
      issuedBy := if issuedBy = "" then root.name else issuedBy
      rootCaId := some rootCaID
      agentNodeId := agentNodeID
      vpnUserId := vpnUserID
      certPem := some leaf.certPEM
      keyPem := some leaf.keyPEM
      expiresAt := leaf.expiresAt
      createdAt := env.now
      revokedAt := none
      revokedReason := none }
  let certs ← fetch (storeCerts (db.certs ++ [row])) sameSerial
  return ({ db with certs := certs } : Db).enqueueSnapshots env.taskEnv agentNodeID.toList

/-! ### Importing -/

/-- The handler `Import`. -/
def «import» (body : Option Fields) : Except Refusal Db := do
  let body ← fetch body invalidJson
  let certPEM := textField body "certPem"
  let keyPEM := textField body "keyPem"
  let rootCaID := textField body "rootCaId"
  let agentNodeID := textField body "agentNodeId"
  let vpnUserID := nullableID (Json.field body "vpnUserId")
  require (rootCaID ≠ "") ⟨400, "rootCaId is required"⟩
  require (agentNodeID ≠ "") ⟨400, "agentNodeId is required"⟩
  require (certPEM ≠ "") ⟨400, "certPem is required"⟩
  require (keyPEM ≠ "") ⟨400, "keyPem is required"⟩
  require (GoStrings.contains certPEM "BEGIN CERTIFICATE" = true)
    ⟨400, "certPem должен быть сертификатом в PEM-формате"⟩
  require (GoStrings.contains keyPEM "PRIVATE KEY" = true)
    ⟨400, "keyPem должен быть приватным ключом в PEM-формате"⟩
  require (Cert.hasNegativeSerial x certPEM = false) negativeSerial
  let root ← fetch (db.root rootCaID) rootNotFound
  require ((db.node agentNodeID).isSome = true) nodeNotFound
  require (∀ id ∈ vpnUserID, (db.user id).isSome) userNotFound
  (Cert.keysMatch x certPEM keyPEM).mapError fun e => ⟨422, e⟩
  (Cert.verifyIssuedByRoot x certPEM root.certPem).mapError fun e => ⟨422, e⟩
  let commonName ← (Cert.subjectCN x certPEM).mapError fun _ =>
    ⟨422, "Не удалось определить Subject CN импортируемого сертификата"⟩
  require (commonName ≠ "") ⟨422, "Не удалось определить Subject CN импортируемого сертификата"⟩
  require (activeSameCN env db commonName (some agentNodeID) "" = false) sameCN
  let leaf ← (x.parseCertificate certPEM).mapError fun _ =>
    ⟨422, "Не удалось разобрать сертификат/ключ"⟩
  let serial := serialOr env db (Cert.serialHex leaf)
  require (env.lookupFails = true ∨ serial ∉ db.certs.map (·.serialNumber)) sameSerial
  let row : Certificate :=
    { id := newCertID env db
      commonName := commonName
      serialNumber := serial
      issuedBy := root.name
      rootCaId := some rootCaID
      agentNodeId := some agentNodeID
      vpnUserId := vpnUserID
      certPem := some (Cert.ensurePEMNewline certPEM)
      keyPem := some (Cert.ensurePEMNewline keyPEM)
      expiresAt := leaf.notAfter
      createdAt := env.now
      revokedAt := none
      revokedReason := none }
  let certs ← fetch (storeCerts (db.certs ++ [row])) sameSerial
  return ({ db with certs := certs } : Db).enqueueSnapshots env.taskEnv [agentNodeID]

/-! ### Changing -/

/-- The node a `Patch` sets. -/
def patchedNode (existing : Certificate) (body : Fields) : Except Refusal (Option String) := do
  if hasField body "agentNodeId" then
    let agentNodeID := nullableID (Json.field body "agentNodeId")
    require (∀ id ∈ agentNodeID, (db.node id).isSome) nodeNotFound
    require (activeSameCN env db existing.commonName agentNodeID existing.id = false)
      ⟨409, "Another certificate already uses this user and server pair"⟩
    return agentNodeID
  else return existing.agentNodeId

/-- The user a `Patch` sets. -/
def patchedUser (existing : Certificate) (body : Fields) : Except Refusal (Option String) := do
  if hasField body "vpnUserId" then
    let vpnUserID := nullableID (Json.field body "vpnUserId")
    require (∀ id ∈ vpnUserID, (db.user id).isSome) userNotFound
    return vpnUserID
  else return existing.vpnUserId

/-- The certificate text a `Patch` sets: a blank one clears the column, any other must look like a
certificate. -/
def patchedCert (existing : Certificate) (body : Fields) : Except Refusal (Option String) := do
  if hasField body "certPem" then
    let raw := textField body "certPem"
    require (raw = "" ∨ GoStrings.contains raw "BEGIN CERTIFICATE" = true)
      ⟨400, "certPem должен быть сертификатом в PEM-формате"⟩
    require (raw = "" ∨ Cert.hasNegativeSerial x raw = false) negativeSerial
    return if raw = "" then none else some raw
  else return existing.certPem

/-- The key text a `Patch` sets. -/
def patchedKey (existing : Certificate) (body : Fields) : Except Refusal (Option String) := do
  if hasField body "keyPem" then
    let raw := textField body "keyPem"
    require (raw = "" ∨ GoStrings.contains raw "PRIVATE KEY" = true)
      ⟨400, "keyPem должен быть приватным ключом в PEM-формате"⟩
    return if raw = "" then none else some raw
  else return existing.keyPem

/-- The columns of `Certificate` a `Patch` sets. A column the body does not name keeps the value
that was read. -/
def setColumns (agentNodeID vpnUserID certPEM keyPEM : Option String) (c : Certificate) :
    Certificate :=
  { c with
    agentNodeId := agentNodeID
    vpnUserId := vpnUserID
    certPem := certPEM
    keyPem := keyPEM }

/-- The handler `Patch`. -/
def patch (id : String) (body : Option Fields) : Except Refusal Db := do
  let existing ← fetch (db.cert id) certNotFound
  let body ← fetch body invalidJson
  require (hasField body "agentNodeId" ∨ hasField body "vpnUserId" ∨ hasField body "certPem" ∨
      hasField body "keyPem") ⟨400, "Укажите agentNodeId, vpnUserId, certPem и/или keyPem"⟩
  let agentNodeID ← patchedNode env db existing body
  let vpnUserID ← patchedUser db existing body
  let certPEM ← patchedCert x existing body
  let keyPEM ← patchedKey existing body
  let checkPEM := (certPEM.or existing.certPem).getD ""
  require (¬(hasField body "vpnUserId" ∧ vpnUserID.isSome ∧ checkPEM ≠ "" ∧
      Cert.isCAOrSelfSigned x checkPEM))
    ⟨422, "К пользователю можно привязать только клиентский сертификат. Корневой сертификат привязывать нельзя."⟩
  let certs := Rows.updateWhere (fun c => c.id = id)
    (setColumns agentNodeID vpnUserID certPEM keyPEM) db.certs
  return ({ db with certs := certs } : Db).enqueueSnapshots env.taskEnv
    (existing.agentNodeId.toList ++ agentNodeID.toList).dedup

/-! ### Revoking -/

/-- `EnqueueCrlDeployForRootCa`, whose error is dropped. -/
def enqueueCrlDeploy (db : Db) (env : HandlerEnv) (rootCaID : Option String) : Db :=
  match rootCaID with
  | none => db
  | some rootCaID =>
    { db with
      tasks := Paneltasks.enqueueCrlDeployForRootCa env.taskEnv db.tasks db.settings rootCaID }

/-- The handler `Revoke`, with the reason of the request. -/
def revoke (id reason : String) : Except Refusal Db := do
  let existing ← fetch (db.cert id) certNotFound
  let reason := if GoStrings.trimSpace reason = "" then "manual revoke"
    else GoStrings.trimSpace reason
  let certs := Rows.updateWhere (fun c => c.id = id) (Cert.revokeRow env.now reason) db.certs
  return (enqueueCrlDeploy { db with certs := certs } env existing.rootCaId).enqueueSnapshots
    env.taskEnv existing.agentNodeId.toList

/-! ### Importing an index -/

/-- What an import of an index leaves. An import that a failed look-up has ended is answered with an
error, and what it has written stays. -/
structure IndexImport where
  db : Db
  issued : Cert.IssuedSyncStats
  complete : Bool

/-- The handler `RootCAImportIndex`. -/
def rootCAImportIndex (syncEnv : SyncEnv) (rootCaID : String) (body : Option Fields) :
    Except Refusal IndexImport := do
  let rootCaID := GoStrings.trimSpace rootCaID
  require (rootCaID ≠ "") ⟨400, "rootCaId is required"⟩
  let body ← fetch body invalidJson
  let issuedList := textField body "issuedList"
  require (issuedList ≠ "") ⟨400, "Требуется содержимое index.txt (issuedList)"⟩
  let root ← fetch (db.root rootCaID) rootNotFound
  let agentNodeID := nullableID (Json.field body "agentNodeId")
  require (∀ id ∈ agentNodeID, (db.node id).isSome) ⟨404, "Сервер не найден"⟩
  let synced :=
    Cert.syncIssuedInventory syncEnv ⟨rootCaID, root.name, agentNodeID⟩ db.certs issuedList
  return ⟨{ db with certs := synced.1.1 }, synced.1.2, synced.2⟩

/-! ### What a request leaves -/

variable {x env db} {db' : Db} {body : Option Fields}

/-- The row a request inserts: it is not revoked, and its node and user exist. -/
structure Inserts (db : Db) (row : Certificate) : Prop where
  unique : UniqueCerts (db.certs ++ [row])
  root : ∃ rootCaID, row.rootCaId = some rootCaID
  node : ∀ id ∈ row.agentNodeId, (db.node id).isSome
  trimmedNode : ∀ id ∈ row.agentNodeId, GoStrings.trimSpace id = id ∧ id ≠ ""
  user : ∀ id ∈ row.vpnUserId, (db.user id).isSome
  notRevoked : row.revokedAt = none

/-- **An issued certificate.** -/
theorem create_of_ok (h : create x env db body = .ok db') :
    ∃ (row : Certificate) (root : Panel.RootCertificateAuthority) (leaf : Cert.IssuedLeaf)
        (days : ℤ),
      Inserts db row ∧
      Cert.issueLeaf x env.now root.certPem root.keyPem row.commonName days = .ok leaf ∧
      row.serialNumber = serialOr env db leaf.serial ∧ row.certPem = some leaf.certPEM ∧
      row.keyPem = some leaf.keyPEM ∧ row.expiresAt = leaf.expiresAt ∧
      (∃ fields ∈ body, row.commonName = textField fields "commonName" ∧
        row.agentNodeId = nullableID (Json.field fields "agentNodeId") ∧
        row.vpnUserId = nullableID (Json.field fields "vpnUserId") ∧
        db.root (textField fields "rootCaId") = some root) ∧
      activeSameCN env db row.commonName row.agentNodeId "" = false ∧
      db' = ({ db with certs := db.certs ++ [row] } : Db).enqueueSnapshots env.taskEnv
        row.agentNodeId.toList := by
  simp only [create, Refusals.bind_eq_ok, Refusals.fetch_eq_ok, Refusals.require_eq_ok,
    Refusals.mapError_eq_ok, Refusals.pure_eq_ok] at h
  obtain ⟨fields, hfields, -, -, -, -, -, huser, root, hroot, -, hnode, -, hcn, leaf, hleaf, certs,
    hstore, rfl⟩ := h
  obtain ⟨huniq, rfl⟩ := Panel.storeCerts_eq_some.1 hstore
  refine ⟨_, root, leaf, _, ⟨huniq, ?_, ?_, ?_, ?_, ?_⟩, hleaf, ?_⟩ <;> dsimp only
  · exact ⟨_, rfl⟩
  · exact hnode
  · exact fun id hid => ⟨trimSpace_nullableID hid, nullableID_ne_empty hid⟩
  · exact huser
  · exact ⟨rfl, rfl, rfl, rfl, ⟨fields, hfields, rfl, rfl, rfl, hroot⟩, hcn, rfl⟩

theorem textField_trimmed (body : Fields) (key : String) :
    GoStrings.trimSpace (textField body key) = textField body key :=
  GoStrings.trimSpace_trimSpace _

theorem serialOr_serialHex (c : Cert.X509Certificate) :
    serialOr env db (Cert.serialHex c) = Cert.serialHex c :=
  if_neg (Cert.serialHex_ne_empty c)

/-- **An imported certificate.** -/
theorem import_of_ok (h : «import» x env db body = .ok db') :
    ∃ (row : Certificate) (certPEM keyPEM : String) (leaf : Cert.X509Certificate),
      Inserts db row ∧ GoStrings.trimSpace certPEM = certPEM ∧ GoStrings.trimSpace keyPEM = keyPEM ∧
      Cert.keysMatch x certPEM keyPEM = .ok () ∧
      x.parseCertificate certPEM = .ok leaf ∧ row.commonName = leaf.subjectCN ∧
      row.serialNumber = Cert.serialHex leaf ∧ row.certPem = some (Cert.ensurePEMNewline certPEM) ∧
      row.keyPem = some (Cert.ensurePEMNewline keyPEM) ∧ row.expiresAt = leaf.notAfter ∧
      (∃ fields ∈ body, certPEM = textField fields "certPem" ∧
        row.agentNodeId = some (textField fields "agentNodeId") ∧
        row.vpnUserId = nullableID (Json.field fields "vpnUserId")) ∧
      activeSameCN env db row.commonName row.agentNodeId "" = false ∧
      db' = ({ db with certs := db.certs ++ [row] } : Db).enqueueSnapshots env.taskEnv
        row.agentNodeId.toList := by
  simp only [«import», Refusals.bind_eq_ok, Refusals.fetch_eq_ok, Refusals.require_eq_ok,
    Refusals.mapError_eq_ok, Refusals.pure_eq_ok] at h
  obtain ⟨fields, hfields, -, -, -, hnodeID, -, -, -, -, -, -, -, -, -, -,
    root, -, -, hnode, -, huser, ⟨⟩, hkeys, -, -, cn, hcn, -, -, -, hfree, leaf, hleaf, -, -,
    certs, hstore, rfl⟩ := h
  obtain ⟨huniq, rfl⟩ := Panel.storeCerts_eq_some.1 hstore
  have hcn' : cn = leaf.subjectCN := by
    rw [Cert.subjectCN, hleaf] at hcn
    exact (Except.ok.inj hcn).symm
  refine ⟨_, textField fields "certPem", textField fields "keyPem", leaf,
    ⟨huniq, ?_, ?_, ?_, ?_, ?_⟩, textField_trimmed _ _, textField_trimmed _ _, hkeys, hleaf, ?_⟩ <;>
    dsimp only
  · exact ⟨_, rfl⟩
  · rintro id ⟨⟩
    exact hnode
  · rintro id ⟨⟩
    exact ⟨textField_trimmed _ _, hnodeID⟩
  · exact huser
  · rw [serialOr_serialHex]
    exact ⟨hcn', rfl, rfl, rfl, rfl, ⟨fields, hfields, rfl, rfl, rfl⟩, hfree, rfl⟩

/-- The node a `Patch` leaves. When the body names it, the node exists and no other valid
certificate of the node has the common name. -/
theorem patchedNode_of_ok {existing : Certificate} {fields : Fields} {agentNodeID : Option String}
    (h : patchedNode env db existing fields = .ok agentNodeID) :
    (hasField fields "agentNodeId" = true ∧
        agentNodeID = nullableID (Json.field fields "agentNodeId") ∧
        (∀ id ∈ agentNodeID, (db.node id).isSome) ∧
        activeSameCN env db existing.commonName agentNodeID existing.id = false) ∨
      hasField fields "agentNodeId" = false ∧ agentNodeID = existing.agentNodeId := by
  rw [patchedNode] at h
  by_cases hhas : hasField fields "agentNodeId" = true
  · simp only [if_pos hhas, Refusals.require_bind_eq_ok, Refusals.pure_eq_ok] at h
    obtain ⟨hnode, hcn, rfl⟩ := h
    exact Or.inl ⟨hhas, rfl, hnode, hcn⟩
  · rw [if_neg hhas, Refusals.pure_eq_ok] at h
    exact Or.inr ⟨by simpa using hhas, h.symm⟩

/-- The user a `Patch` leaves. -/
theorem patchedUser_of_ok {existing : Certificate} {fields : Fields} {vpnUserID : Option String}
    (h : patchedUser db existing fields = .ok vpnUserID) :
    (hasField fields "vpnUserId" = true ∧ vpnUserID = nullableID (Json.field fields "vpnUserId") ∧
        ∀ id ∈ vpnUserID, (db.user id).isSome) ∨
      hasField fields "vpnUserId" = false ∧ vpnUserID = existing.vpnUserId := by
  rw [patchedUser] at h
  by_cases hhas : hasField fields "vpnUserId" = true
  · simp only [if_pos hhas, Refusals.require_bind_eq_ok, Refusals.pure_eq_ok] at h
    obtain ⟨huser, rfl⟩ := h
    exact Or.inl ⟨hhas, rfl, huser⟩
  · rw [if_neg hhas, Refusals.pure_eq_ok] at h
    exact Or.inr ⟨by simpa using hhas, h.symm⟩

/-- The certificate text a `Patch` leaves. -/
theorem patchedCert_of_ok {existing : Certificate} {fields : Fields} {certPEM : Option String}
    (h : patchedCert x existing fields = .ok certPEM) :
    certPEM = if hasField fields "certPem" then nullableID (Json.field fields "certPem")
      else existing.certPem := by
  rw [patchedCert] at h
  by_cases hhas : hasField fields "certPem" = true
  · simp only [if_pos hhas, Refusals.require_bind_eq_ok, Refusals.pure_eq_ok] at h
    rw [if_pos hhas, nullableID_field]
    exact h.2.2.symm
  · rw [if_neg hhas, Refusals.pure_eq_ok] at h
    rw [if_neg hhas, h]

/-- The key text a `Patch` leaves. -/
theorem patchedKey_of_ok {existing : Certificate} {fields : Fields} {keyPEM : Option String}
    (h : patchedKey existing fields = .ok keyPEM) :
    keyPEM = if hasField fields "keyPem" then nullableID (Json.field fields "keyPem")
      else existing.keyPem := by
  rw [patchedKey] at h
  by_cases hhas : hasField fields "keyPem" = true
  · simp only [if_pos hhas, Refusals.require_bind_eq_ok, Refusals.pure_eq_ok] at h
    rw [if_pos hhas, nullableID_field]
    exact h.2.symm
  · rw [if_neg hhas, Refusals.pure_eq_ok] at h
    rw [if_neg hhas, h]

/-- **A changed certificate.** The refusal of a root for a user is passed too. -/
theorem patch_of_ok {id : String} (h : patch x env db id body = .ok db') :
    ∃ (existing : Certificate) (fields : Fields) (agentNodeID vpnUserID certPEM
      keyPEM : Option String), db.cert id = some existing ∧ body = some fields ∧
      patchedNode env db existing fields = .ok agentNodeID ∧
      patchedUser db existing fields = .ok vpnUserID ∧
      patchedCert x existing fields = .ok certPEM ∧ patchedKey existing fields = .ok keyPEM ∧
      ¬(hasField fields "vpnUserId" ∧ vpnUserID.isSome ∧
        (certPEM.or existing.certPem).getD "" ≠ "" ∧
        Cert.isCAOrSelfSigned x ((certPEM.or existing.certPem).getD "")) ∧
      db' = Db.enqueueSnapshots { db with
          certs := Rows.updateWhere (fun c => c.id = id)
            (setColumns agentNodeID vpnUserID certPEM keyPEM) db.certs }
        env.taskEnv (existing.agentNodeId.toList ++ agentNodeID.toList).dedup := by
  simp only [patch, Refusals.bind_eq_ok, Refusals.fetch_eq_ok, Refusals.require_eq_ok,
    Refusals.pure_eq_ok] at h
  obtain ⟨existing, hex, fields, hbody, -, -, agentNodeID, hnode, vpnUserID, huser, certPEM, hcert,
    keyPEM, hkey, -, hca, rfl⟩ := h
  exact ⟨existing, fields, agentNodeID, vpnUserID, certPEM, keyPEM, hex, hbody, hnode, huser, hcert,
    hkey, hca, rfl⟩

/-- **A revoked certificate.** -/
theorem revoke_of_ok {id reason : String} (h : revoke env db id reason = .ok db') :
    ∃ (existing : Certificate) (text : String), db.cert id = some existing ∧
      db' = Db.enqueueSnapshots (enqueueCrlDeploy { db with
          certs := Rows.updateWhere (fun c => c.id = id) (Cert.revokeRow env.now text) db.certs }
          env existing.rootCaId) env.taskEnv existing.agentNodeId.toList := by
  simp only [revoke, Refusals.bind_eq_ok, Refusals.fetch_eq_ok, Refusals.pure_eq_ok] at h
  obtain ⟨existing, hex, rfl⟩ := h
  exact ⟨existing, _, hex, rfl⟩

/-- **An imported index.** -/
theorem rootCAImportIndex_of_ok {syncEnv : SyncEnv} {rootCaID : String} {out : IndexImport}
    (h : rootCAImportIndex db syncEnv rootCaID body = .ok out) :
    ∃ (imp : IssuedImport) (fields : Fields), body = some fields ∧
      (db.root imp.rootCaID).isSome ∧ imp.rootCaID = GoStrings.trimSpace rootCaID ∧
      imp.rootCaID ≠ "" ∧ imp.agentNodeID = nullableID (Json.field fields "agentNodeId") ∧
      (∀ id ∈ imp.agentNodeID, (db.node id).isSome) ∧
      out.db = { db with certs :=
        (Cert.syncIssuedInventory syncEnv imp db.certs (textField fields "issuedList")).1.1 } := by
  simp only [rootCAImportIndex, Refusals.bind_eq_ok, Refusals.fetch_eq_ok, Refusals.require_eq_ok,
    Refusals.pure_eq_ok] at h
  obtain ⟨-, hroot, fields, hbody, -, -, root, hrow, -, hnode, rfl⟩ := h
  refine ⟨⟨GoStrings.trimSpace rootCaID, root.name,
    nullableID (Json.field fields "agentNodeId")⟩, fields, hbody, ?_⟩
  dsimp only
  rw [hrow]
  exact ⟨rfl, rfl, hroot, rfl, hnode, rfl⟩

end OpenvpnControl.Handlers.Certificates
