import OpenvpnControl.Cert.Pem
import OpenvpnControl.Panel.Settings

/-!
# Server certificates

The functions of the package `panel` that issue, import and delete the certificate of a node's
server. A server certificate is a row of `Certificate` with a node and without a user.

Issuing asks that the node has no certificate of the root yet; the look-up and the insert are
separate statements. An import looks for a row of the node first, by the serial number and then by
the common name; a row with the same text is refreshed, and a revoked one of the same name gets the
new text. The checks stand in the order of the source, with the messages that they answer.

## Main definitions

* `normalizeServerCN`: the common name of a server certificate.
* `issueServerCertificateForAgentNode`, `importServerCertificateForAgentNode`,
  `deleteServerCertificateForAgentNode`: the functions.

## Main results

* `issueServer_of_ok`, `importServer_of_ok`, `deleteServer_of_ok`: what a call that is not refused
  has passed and leaves.
-/

namespace OpenvpnControl.Panel

open Cert (X509)
open Refusals (require fetch)

/-- What a call is answered: the time, fresh ids, which row a `SELECT` returns first, the error of a
column that is `NULL` where a text is read, and the error of a refused statement. -/
structure ServerCertEnv where
  now : ℤ
  ksuid : List String → String
  choice : Rows.Choice Certificate
  scanError : String
  writeError : String

/-- Rows come in storage order. -/
def ServerCertEnv.quiet (now : ℤ) (ksuid : List String → String) : ServerCertEnv where
  now := now
  ksuid := ksuid
  choice := .first
  scanError := "cannot scan NULL into *string"
  writeError := "duplicate key value violates unique constraint"

variable (x : X509) (env : ServerCertEnv) (db : Db)

/-! ### The common name -/

/-- A character that `cnSanitizeRe` leaves alone. -/
def isServerCNChar (c : Char) : Bool :=
  c.isAlphanum || c = '_' || c = '.' || c = '-' || c = ':' || c = '@'

def normalizeServerCN (raw fallback : String) : String :=
  let cn := GoStrings.trimSpace raw
  let cn := if cn = "" then fallback else cn
  String.ofList ((cn.toList.map fun c => if isServerCNChar c then c else '_').take 64)

/-- The common name of a server certificate of a node. -/
def serverCN (raw nodeName agentNodeID : String) : String :=
  let cn := normalizeServerCN raw ("server:" ++ nodeName)
  if cn = "" then normalizeServerCN "" ("server-" ++ String.ofList (agentNodeID.toList.take 8))
    else cn

/-! ### Issuing -/

/-- `IssueServerCertInput`, without the key size and the algorithm, which nothing reads. -/
structure IssueServerCertInput where
  agentNodeID : String
  rootCaID : String
  commonName : String
  validityDays : ℤ

def rootCaRemainingValidityDays (now : ℤ) (certPEM : String) : ℤ :=
  match x.parseCertificate certPEM with
  | .error _ => 0
  | .ok c => max 0 (-((now - c.notAfter) / Cert.day))

/-- Is there a server certificate of the node and the root that is not revoked? -/
def hasServerCert (agentNodeID rootCaID : String) : Bool :=
  db.certs.any fun c => decide (c.agentNodeId = some agentNodeID ∧ c.rootCaId = some rootCaID ∧
    c.vpnUserId = none ∧ c.revokedAt = none)

/-- The values of a server certificate. -/
structure ServerLeaf where
  cn : String
  issuedBy : String
  rootCaID : String
  agentNodeID : String
  certPEM : String
  keyPEM : String
  expiresAt : ℤ
  serial : String

/-- The row that `insertServerCertView` inserts. -/
def ServerLeaf.row (leaf : ServerLeaf) : Certificate where
  id := env.ksuid (db.certs.map (·.id))
  commonName := leaf.cn
  serialNumber := leaf.serial
  issuedBy := leaf.issuedBy
  rootCaId := some leaf.rootCaID
  agentNodeId := some leaf.agentNodeID
  vpnUserId := none
  certPem := some leaf.certPEM
  keyPem := some leaf.keyPEM
  expiresAt := leaf.expiresAt
  createdAt := env.now
  revokedAt := none
  revokedReason := none

/-- `insertServerCertView`. -/
def insertServerCert (leaf : ServerLeaf) : Except String (List Certificate) :=
  fetch (storeCerts (db.certs ++ [leaf.row env db])) env.writeError

def issueServerCertificateForAgentNode (inp : IssueServerCertInput) : Except String Db := do
  let node ← fetch (db.node inp.agentNodeID) "Узел не найден"
  let rid := GoStrings.trimSpace inp.rootCaID
  require (rid ≠ "") "Выберите корневой сертификат"
  let root ← fetch (db.root rid) "Корневой сертификат не найден"
  require (hasServerCert db inp.agentNodeID rid = false)
    "На узле уже есть сертификат сервера. Удалите его перед выпуском нового."
  let cn := serverCN inp.commonName node.name inp.agentNodeID
  let maxByRoot := rootCaRemainingValidityDays x env.now root.certPem
  require (1 ≤ maxByRoot) "Срок действия корневого сертификата истёк или истекает сегодня"
  let requested := min (if inp.validityDays < 1 then 825 else inp.validityDays) 3650
  let leaf ← Cert.issueLeaf x env.now root.certPem root.keyPem cn
    (min (min requested maxByRoot) 3650)
  let certs ← insertServerCert env db
    { cn := cn
      issuedBy := root.name
      rootCaID := rid
      agentNodeID := inp.agentNodeID
      certPEM := leaf.certPEM
      keyPEM := leaf.keyPEM
      expiresAt := leaf.expiresAt
      serial := leaf.serial }
  return { db with certs := certs }

/-! ### Importing -/

structure ImportServerCertInput where
  agentNodeID : String
  rootCaID : String
  certPEM : String
  keyPEM : String

/-- `strings.ReplaceAll` of carriage returns, with or without a line feed, by line feeds. -/
def unixLines : List Char → List Char
  | '\r' :: '\n' :: l => '\n' :: unixLines l
  | '\r' :: l => '\n' :: unixLines l
  | c :: l => c :: unixLines l
  | [] => []

def normalizeCertPemForCompare (pem : String) : String :=
  GoStrings.trimSpace (String.ofList (unixLines pem.toList))

/-- The `UPDATE` of `tryImportBySerial`. -/
def refreshRow (leaf : ServerLeaf) (c : Certificate) : Certificate :=
  { c with
    certPem := some leaf.certPEM
    keyPem := some leaf.keyPEM
    expiresAt := leaf.expiresAt
    commonName := leaf.cn
    issuedBy := leaf.issuedBy
    rootCaId := some leaf.rootCaID
    revokedAt := none
    revokedReason := none }

/-- `tryImportBySerial`; `none` when no row has the serial number. -/
def tryImportBySerial (leaf : ServerLeaf) : Except String (Option (List Certificate)) :=
  match Rows.byKey (·.serialNumber) leaf.serial db.certs with
  | none => .ok none
  | some existing => do
    let existingCert ← fetch existing.certPem env.scanError
    let existingNode ← fetch existing.agentNodeId env.scanError
    require (normalizeCertPemForCompare existingCert = normalizeCertPemForCompare leaf.certPEM)
      "В базе уже есть другой сертификат с тем же серийным номером. Отзовите или удалите старую запись либо используйте другой файл."
    require (existingNode = leaf.agentNodeID)
      "Сертификат с этим серийным номером уже привязан к другому узлу"
    require (existing.vpnUserId = none)
      "Сертификат с этим серийным номером зарегистрирован как пользовательский"
    return some (Rows.updateWhere (fun c => c.id = existing.id) (refreshRow leaf) db.certs)

/-- The `UPDATE` of `tryImportByCN`. -/
def replaceRow (leaf : ServerLeaf) (c : Certificate) : Certificate :=
  { c with
    serialNumber := leaf.serial
    certPem := some leaf.certPEM
    keyPem := some leaf.keyPEM
    expiresAt := leaf.expiresAt
    issuedBy := leaf.issuedBy
    rootCaId := some leaf.rootCaID
    vpnUserId := none
    revokedAt := none
    revokedReason := none }

/-- The row that `tryImportByCN` reads. -/
def findServerCert (leaf : ServerLeaf) : Option Certificate :=
  env.choice.select (fun c => c.commonName = leaf.cn ∧ c.agentNodeId = some leaf.agentNodeID ∧
    c.vpnUserId = none) db.certs

/-- `tryImportByCN`; `none` when the node has no server certificate of the common name. The row read
has no user, so that the refusal of a user's row is never reached. -/
def tryImportByCN (leaf : ServerLeaf) : Except String (Option (List Certificate)) :=
  match findServerCert env db leaf with
  | none => .ok none
  | some existing => do
    let existingCert ← fetch existing.certPem env.scanError
    let samePem := normalizeCertPemForCompare existingCert = normalizeCertPemForCompare leaf.certPEM
    require (samePem ∨ existing.revokedAt.isSome)
      "На этом узле уже есть активный сертификат с таким CN."
    require (∀ c ∈ db.certs, c.serialNumber = leaf.serial → c.id = existing.id)
      (if samePem then
        "Серийный номер уже занят другой записью в базе. Обратитесь к администратору или удалите конфликтующую запись."
      else "Серийный номер уже занят другой записью. Отзовите или удалите конфликтующий сертификат.")
    let certs ← fetch (storeCerts (Rows.updateWhere (fun c => c.id = existing.id) (replaceRow leaf)
      db.certs)) env.writeError
    return some certs

/-- The end of `ImportServerCertificateForAgentNode`: the row of the serial number, the row of the
common name, or a new row. -/
def storeServerLeaf (leaf : ServerLeaf) : Except String (List Certificate) := do
  match ← tryImportBySerial env db leaf with
  | some certs => return certs
  | none =>
    match ← tryImportByCN env db leaf with
    | some certs => return certs
    | none =>
      require (hasServerCert db leaf.agentNodeID leaf.rootCaID = false)
        "На узле уже есть сертификат сервера. Удалите его перед импортом нового."
      insertServerCert env db leaf

def importServerCertificateForAgentNode (inp : ImportServerCertInput) : Except String Db := do
  let node ← fetch (db.node inp.agentNodeID) "Узел не найден"
  let rid := GoStrings.trimSpace inp.rootCaID
  require (rid ≠ "") "Выберите корневой сертификат"
  let root ← fetch (db.root rid) "Корневой сертификат не найден"
  let certPEM := GoStrings.trimSpace inp.certPEM
  let keyPEM := GoStrings.trimSpace inp.keyPEM
  require (GoStrings.contains certPEM "BEGIN CERTIFICATE" = true) "Ожидается PEM сертификата"
  require (GoStrings.contains keyPEM "BEGIN" = true) "Ожидается PEM закрытого ключа"
  Cert.keysMatch x certPEM keyPEM
  require (Cert.hasNegativeSerial x certPEM = false)
    "Импортируемый сертификат сервера отклонён: отрицательный serialNumber. Используйте сертификат с положительным serialNumber."
  (Cert.verifyIssuedByRoot x certPEM root.certPem).mapError fun _ =>
    "Сертификат не выпущен выбранным корневым сертификатом"
  let leaf ← x.parseCertificate certPEM
  let serial := Cert.serialHex leaf
  let certs ← storeServerLeaf env db
    { cn := serverCN leaf.subjectCN node.name inp.agentNodeID
      issuedBy := root.name
      rootCaID := rid
      agentNodeID := inp.agentNodeID
      certPEM := Cert.ensurePEMNewline certPEM
      keyPEM := Cert.ensurePEMNewline keyPEM
      expiresAt := leaf.notAfter
      serial := if serial = "" then env.ksuid (db.certs.map (·.serialNumber)) else serial }
  return { db with certs := certs }

/-! ### Deleting -/

/-- The key that `DeleteServerCertificateForAgentNode` blanks. -/
def unlinkPatch : Openvpn.Settings := GoMap.ofList [("panelServerCertId", .str "")]

/-- The transaction of `DeleteServerCertificateForAgentNode`. -/
def deleteServerCerts (nodeID rootID : String) : Db :=
  { db with
    certs := Rows.deleteWhere (fun c => c.agentNodeId = some nodeID ∧ c.rootCaId = some rootID ∧
      c.vpnUserId = none) db.certs }.upsertSettings nodeID
    (GoMap.overlay (db.settingsOf nodeID) unlinkPatch) none

/-- `DeleteServerCertificateForAgentNode`. The flag says whether the material tasks were enqueued:
their error is answered, and what the transaction has written stays. -/
def deleteServerCertificateForAgentNode (env : SettingsEnv) (agentNodeID : String) :
    Except String (Db × Bool) := do
  let id := GoStrings.trimSpace agentNodeID
  require (env.nodeError = none) (env.nodeError.getD "")
  let _ ← fetch (db.node id) "Узел не найден"
  require (env.settingsError = none) (env.settingsError.getD "")
  let rootID := linkedRoot (db.settingsOf id)
  require (rootID ≠ "") "Для этого сервера не задан корневой сертификат"
  require (env.writeError = none) (env.writeError.getD "")
  let db' := deleteServerCerts db id rootID
  let queued := Paneltasks.enqueueOpenvpnMaterialSyncTasks env.taskEnv db'.tasks id
    (GoMap.overlay (db.settingsOf id) unlinkPatch)
  return ({ db' with tasks := queued.1 }, queued.2)

/-! ### What a call leaves -/

variable {x env db} {db' : Db}

/-- **An issued server certificate.** -/
theorem issueServer_of_ok {inp : IssueServerCertInput}
    (h : issueServerCertificateForAgentNode x env db inp = .ok db') :
    ∃ (leaf : ServerLeaf) (root : RootCertificateAuthority) (issued : Cert.IssuedLeaf),
      (∃ days, Cert.issueLeaf x env.now root.certPem root.keyPem leaf.cn days = .ok issued) ∧
      leaf.serial = issued.serial ∧ leaf.certPEM = issued.certPEM ∧ leaf.keyPEM = issued.keyPEM ∧
      leaf.expiresAt = issued.expiresAt ∧ UniqueCerts (db.certs ++ [leaf.row env db]) ∧
      leaf.agentNodeID = inp.agentNodeID ∧ leaf.rootCaID = GoStrings.trimSpace inp.rootCaID ∧
      (∃ node ∈ db.node inp.agentNodeID,
        leaf.cn = serverCN inp.commonName node.name inp.agentNodeID) ∧
      hasServerCert db leaf.agentNodeID leaf.rootCaID = false ∧
      db' = { db with certs := db.certs ++ [leaf.row env db] } := by
  simp only [issueServerCertificateForAgentNode, insertServerCert, Refusals.bind_eq_ok,
    Refusals.fetch_eq_ok, Refusals.require_eq_ok, Refusals.pure_eq_ok] at h
  obtain ⟨node, hnode, -, -, root, -, -, hfree, -, -, issued, hissued, certs, hstore, rfl⟩ := h
  obtain ⟨huniq, rfl⟩ := storeCerts_eq_some.1 hstore
  refine ⟨_, root, issued, ?_, ?_, ?_, ?_, ?_, huniq, ?_, ?_, ⟨node, hnode, ?_⟩, ?_, rfl⟩ <;>
    dsimp only
  · exact ⟨_, hissued⟩
  · exact hfree

/-- What storing an imported server certificate does to the table. -/
inductive LeafStored (env : ServerCertEnv) (db : Db) (leaf : ServerLeaf) : List Certificate → Prop
  /-- The row of the serial number takes the values. -/
  | bySerial {existing : Certificate} :
    Rows.byKey (·.serialNumber) leaf.serial db.certs = some existing →
    existing.agentNodeId = some leaf.agentNodeID → existing.vpnUserId = none →
    LeafStored env db leaf (Rows.updateWhere (fun c => c.id = existing.id)
    (refreshRow leaf) db.certs)
  /-- The row of the common name takes the values and the serial number. -/
  | byCN {existing : Certificate} :
    findServerCert env db leaf = some existing →
    UniqueCerts (Rows.updateWhere (fun c => c.id = existing.id) (replaceRow leaf) db.certs) →
    Rows.byKey (·.serialNumber) leaf.serial db.certs = none →
    LeafStored env db leaf (Rows.updateWhere (fun c => c.id = existing.id)
    (replaceRow leaf) db.certs)
  /-- A row is inserted. -/
  | inserted : UniqueCerts (db.certs ++ [leaf.row env db]) →
    Rows.byKey (·.serialNumber) leaf.serial db.certs = none → findServerCert env db leaf = none →
    hasServerCert db leaf.agentNodeID leaf.rootCaID = false →
    LeafStored env db leaf (db.certs ++ [leaf.row env db])

theorem storeServerLeaf_of_ok {leaf : ServerLeaf} {certs : List Certificate}
    (h : storeServerLeaf env db leaf = .ok certs) : LeafStored env db leaf certs := by
  rw [storeServerLeaf, Refusals.bind_eq_ok] at h
  obtain ⟨bySerial, hserial, h⟩ := h
  rw [tryImportBySerial] at hserial
  cases hfind : Rows.byKey (·.serialNumber) leaf.serial db.certs with
  | some existing =>
    simp only [hfind, Refusals.bind_eq_ok, Refusals.fetch_eq_ok, Refusals.require_eq_ok,
      Refusals.pure_eq_ok] at hserial
    obtain ⟨-, -, node, hnode, -, -, -, rfl, -, huser, rfl⟩ := hserial
    rw [Refusals.pure_eq_ok] at h
    subst h
    exact .bySerial hfind hnode huser
  | none =>
    simp only [hfind] at hserial
    cases hserial
    rw [Refusals.bind_eq_ok] at h
    obtain ⟨byCN, hcn, h⟩ := h
    rw [tryImportByCN] at hcn
    cases hfindCN : findServerCert env db leaf with
    | some existing =>
      simp only [hfindCN, Refusals.bind_eq_ok, Refusals.fetch_eq_ok, Refusals.require_eq_ok,
        Refusals.pure_eq_ok] at hcn
      obtain ⟨-, -, -, -, -, -, certs', hstore, rfl⟩ := hcn
      obtain ⟨huniq, rfl⟩ := storeCerts_eq_some.1 hstore
      rw [Refusals.pure_eq_ok] at h
      subst h
      exact .byCN hfindCN huniq hfind
    | none =>
      simp only [hfindCN] at hcn
      cases hcn
      simp only [insertServerCert, Refusals.bind_eq_ok, Refusals.require_eq_ok,
        Refusals.fetch_eq_ok] at h
      obtain ⟨-, hfree, hstore⟩ := h
      obtain ⟨huniq, rfl⟩ := storeCerts_eq_some.1 hstore
      exact .inserted huniq hfind hfindCN hfree

/-- **An imported server certificate.** -/
theorem importServer_of_ok {inp : ImportServerCertInput}
    (h : importServerCertificateForAgentNode x env db inp = .ok db') :
    ∃ (leaf : ServerLeaf) (c : Cert.X509Certificate) (node : AgentNode) (certs : List Certificate),
      let certPEM := GoStrings.trimSpace inp.certPEM
      let keyPEM := GoStrings.trimSpace inp.keyPEM
      db.node inp.agentNodeID = some node ∧ x.parseCertificate certPEM = .ok c ∧
      Cert.keysMatch x certPEM keyPEM = .ok () ∧
      leaf.cn = serverCN c.subjectCN node.name inp.agentNodeID ∧
      leaf.agentNodeID = inp.agentNodeID ∧
      leaf.rootCaID = GoStrings.trimSpace inp.rootCaID ∧ leaf.serial = Cert.serialHex c ∧
      leaf.expiresAt = c.notAfter ∧ leaf.certPEM = Cert.ensurePEMNewline certPEM ∧
      leaf.keyPEM = Cert.ensurePEMNewline keyPEM ∧
      LeafStored env db leaf certs ∧ db' = { db with certs := certs } := by
  simp only [importServerCertificateForAgentNode, Refusals.bind_eq_ok, Refusals.fetch_eq_ok,
    Refusals.require_eq_ok, Refusals.mapError_eq_ok, Refusals.pure_eq_ok] at h
  obtain ⟨node, hnode, -, -, root, -, -, -, -, -, ⟨⟩, hkeys, -, -, -, -, c,
      hparse, certs, hstore, rfl⟩ :=
    h
  refine ⟨_, c, node, certs, hnode, hparse, hkeys, ?_, ?_, ?_, ?_, ?_, ?_, ?_,
    storeServerLeaf_of_ok hstore, rfl⟩ <;> dsimp only
  exact if_neg (Cert.serialHex_ne_empty c)

/-- **A deleted server certificate.** -/
theorem deleteServer_of_ok {env : SettingsEnv} {agentNodeID : String} {queued : Bool}
    (h : deleteServerCertificateForAgentNode db env agentNodeID = .ok (db', queued)) :
    let id := GoStrings.trimSpace agentNodeID
    let rootID := linkedRoot (db.settingsOf id)
    rootID ≠ "" ∧ (db.node id).isSome ∧
      ∃ tasks, Paneltasks.enqueueOpenvpnMaterialSyncTasks env.taskEnv db.tasks id
          (GoMap.overlay (db.settingsOf id) unlinkPatch) = (tasks, queued) ∧
        db' = { deleteServerCerts db id rootID with tasks := tasks } := by
  simp only [deleteServerCertificateForAgentNode, Refusals.bind_eq_ok, Refusals.fetch_eq_ok,
    Refusals.require_eq_ok, Refusals.pure_eq_ok, Prod.mk.injEq] at h
  obtain ⟨-, -, node, hnode, -, -, -, hroot, -, -, rfl, rfl⟩ := h
  refine ⟨hroot, by rw [hnode]; rfl, _, ?_, rfl⟩
  rfl

end OpenvpnControl.Panel
