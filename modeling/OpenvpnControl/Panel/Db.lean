import OpenvpnControl.Library.Rows
import OpenvpnControl.Paneltasks.Queue
import OpenvpnControl.Panel.FirewallPreview

/-!
# The database of the panel

The tables the handlers of settings, certificates, users and organizations read and write. Each
table is a list of rows in storage order. The columns that nothing modelled reads are left out.

A look-up by a key takes the first row with it. The tables are those of one database, so an
operation that several of them take part in, the deletion of a root for instance, is a function on
`Db`.

## Main definitions

* `Certificate`, `RootCertificateAuthority`, `VpnUser`, `Organization`, `AgentNode`: rows.
* `Db`: the tables.
* `loadSettingsRow`, `upsertSettings`: the settings of a node.
-/

namespace OpenvpnControl.Panel

open Paneltasks (PanelAsyncTask AgentNodeOpenvpnSettings EnqueueEnv)
open Openvpn (Settings)

/-- A row of `AgentNode`. -/
structure AgentNode where
  id : String
  name : String
  deriving DecidableEq

/-- A row of `RootCertificateAuthority`. -/
structure RootCertificateAuthority where
  id : String
  name : String
  commonName : String
  certPem : String
  keyPem : String
  deriving DecidableEq

/-- A row of `Certificate`. -/
structure Certificate where
  id : String
  commonName : String
  serialNumber : String
  issuedBy : String
  rootCaId : Option String
  agentNodeId : Option String
  vpnUserId : Option String
  certPem : Option String
  keyPem : Option String
  expiresAt : ℤ
  createdAt : ℤ
  revokedAt : Option ℤ
  revokedReason : Option String
  deriving DecidableEq

/-- A row of `VpnUser`. -/
structure VpnUser where
  id : String
  fullName : String
  position : Option String
  email : String
  phone : Option String
  organizationId : Option String
  notes : Option String
  firewallRules : Option Json
  ccdSettings : Option Json
  deriving DecidableEq

/-- A row of `Organization`. -/
structure Organization where
  id : String
  firewallRules : Option Json
  deriving DecidableEq

/-- The unique columns of `Certificate`. -/
def UniqueCerts (certs : List Certificate) : Prop :=
  Rows.HasKey (·.id) certs ∧ Rows.HasKey (·.serialNumber) certs

instance (certs : List Certificate) : Decidable (UniqueCerts certs) := by
  unfold UniqueCerts
  infer_instance

/-- The table a statement on `Certificate` leaves, refused when a unique column would have a value
twice. -/
def storeCerts (certs : List Certificate) : Option (List Certificate) :=
  if UniqueCerts certs then some certs else none

theorem storeCerts_eq_some {certs certs' : List Certificate} :
    storeCerts certs = some certs' ↔ UniqueCerts certs ∧ certs' = certs := by
  rw [storeCerts]
  split_ifs with h
  · simp [h, eq_comm]
  · simp [h]

/-- An update that keeps the two columns is never refused. -/
theorem UniqueCerts.updateWhere {certs : List Certificate} (h : UniqueCerts certs)
    {p : Certificate → Bool} {f : Certificate → Certificate} (hid : ∀ c, (f c).id = c.id)
    (hserial : ∀ c, (f c).serialNumber = c.serialNumber) :
    UniqueCerts (Rows.updateWhere p f certs) :=
  ⟨h.1.updateWhere fun c _ _ => hid c, h.2.updateWhere fun c _ _ => hserial c⟩

theorem UniqueCerts.deleteWhere {certs : List Certificate} (h : UniqueCerts certs)
    {p : Certificate → Bool} : UniqueCerts (Rows.deleteWhere p certs) :=
  ⟨h.1.deleteWhere, h.2.deleteWhere⟩

/-- The tables. -/
structure Db where
  nodes : List AgentNode
  roots : List RootCertificateAuthority
  certs : List Certificate
  users : List VpnUser
  orgs : List Organization
  settings : List AgentNodeOpenvpnSettings
  tasks : List PanelAsyncTask
  deriving DecidableEq

namespace Db

/-- The empty database. -/
def empty : Db := ⟨[], [], [], [], [], [], []⟩

/-- `SELECT … FROM "AgentNode" WHERE id = $1`. -/
def node (db : Db) (id : String) : Option AgentNode := Rows.byKey (·.id) id db.nodes

/-- `SELECT … FROM "RootCertificateAuthority" WHERE id = $1`. -/
def root (db : Db) (id : String) : Option RootCertificateAuthority := Rows.byKey (·.id) id db.roots

/-- `SELECT … FROM "Certificate" WHERE id = $1`. -/
def cert (db : Db) (id : String) : Option Certificate := Rows.byKey (·.id) id db.certs

/-- `SELECT … FROM "VpnUser" WHERE id = $1`. -/
def user (db : Db) (id : String) : Option VpnUser := Rows.byKey (·.id) id db.users

/-- `SELECT … FROM "Organization" WHERE id = $1`. -/
def org (db : Db) (id : String) : Option Organization := Rows.byKey (·.id) id db.orgs

/-- `loadSettingsRow`, where `none` is `pgx.ErrNoRows`. -/
def loadSettingsRow (db : Db) (nodeID : String) : Option (Settings × Option String) :=
  (Rows.byKey (·.agentNodeId) nodeID db.settings).map fun row => (row.settings, row.configPath)

/-- The stored settings of a node, if it has a row. -/
def storedSettings (db : Db) (nodeID : String) : Option Settings :=
  (db.loadSettingsRow nodeID).map Prod.fst

/-- The stored settings of a node, which are empty when it has no row. -/
def settingsOf (db : Db) (nodeID : String) : Settings := (db.storedSettings nodeID).getD ∅

/-- `upsertSettings`; without a path the stored path stays. -/
def upsertSettings (db : Db) (nodeID : String) (settings : Settings) (configPath : Option String) :
    Db :=
  { db with
    settings := Rows.upsert (·.agentNodeId) ⟨nodeID, settings, configPath⟩
      (fun row => { row with
        settings := settings
        configPath := configPath.or row.configPath }) db.settings }

/-- `EnqueueSnapshotForNode`, whose error is logged or dropped by every caller. -/
def enqueueSnapshot (db : Db) (env : EnqueueEnv) (nodeID : String) : Db :=
  { db with tasks := (Paneltasks.enqueueSnapshotForNode env db.tasks nodeID).1 }

theorem loadSettingsRow_upsertSettings (db : Db) (nodeID : String) (settings : Settings)
    (configPath : Option String) (k : String) :
    (db.upsertSettings nodeID settings configPath).loadSettingsRow k =
      if k = nodeID then
        some (settings, configPath.or ((db.loadSettingsRow nodeID).bind Prod.snd))
      else db.loadSettingsRow k := by
  simp only [loadSettingsRow, upsertSettings]
  rw [Rows.byKey_upsert]
  swap
  · exact fun _ => rfl
  split_ifs with hk
  · subst hk
    cases Rows.byKey (·.agentNodeId) k db.settings <;> simp
  · rfl

theorem storedSettings_upsertSettings (db : Db) (nodeID : String) (settings : Settings)
    (configPath : Option String) (k : String) :
    (db.upsertSettings nodeID settings configPath).storedSettings k =
      if k = nodeID then some settings else db.storedSettings k := by
  rw [storedSettings, loadSettingsRow_upsertSettings]
  split_ifs <;> rfl

@[simp] theorem settingsOf_upsertSettings (db : Db) (nodeID : String) (settings : Settings)
    (configPath : Option String) (k : String) :
    (db.upsertSettings nodeID settings configPath).settingsOf k =
      if k = nodeID then settings else db.settingsOf k := by
  rw [settingsOf, storedSettings_upsertSettings]
  split_ifs <;> rfl

theorem node_id {db : Db} {id : String} {an : AgentNode} (h : db.node id = some an) : an.id = id :=
  (Rows.mem_of_byKey_eq_some h).2

@[simp] theorem settingsOf_enqueueSnapshot (db : Db) (env : EnqueueEnv) (nodeID k : String) :
    (db.enqueueSnapshot env nodeID).settingsOf k = db.settingsOf k := rfl

end Db

/-! ### Answers -/

/-- An error of an agent call: the agent's answer, or anything else that kept it from answering. -/
inductive AgentError where
  | answer (statusCode : ℕ) (message : String) (hints : List String)
      (body : List (String × Json))
  | other (message : String)
  deriving DecidableEq

/-- The body of an answer of the panel. -/
inductive Body where
  | error (text : String)
  | agentError (text : String) (hints : List String) (output serviceLog backupPath : String)
      (rolledBack : Bool)
  | ok
  | settings (settings : Settings) (configPath : Option String) (source : String)
      (hints : Option (List String))
  | removed (settings : Settings)
  | firewall (body : FirewallBody) (message : String)
  | applied (message output configPath : String) (settings : Settings)
  deriving DecidableEq

structure Result where
  status : ℕ
  body : Body
  deriving DecidableEq

namespace Result

/-- An error with a text. -/
def error (status : ℕ) (text : String) : Result := ⟨status, .error text⟩

/-- The answer for a node that does not exist. -/
def nodeNotFound : Result := .error 404 "Узел не найден"

end Result

def agentBodyString (body : List (String × Json)) (key : String) : String :=
  (Json.field body key).asString

def agentBodyBool (body : List (String × Json)) (key : String) : Bool :=
  match Json.field body key with
  | .bool b => b
  | _ => false

def mapAgentError : AgentError → Result
  | .answer statusCode message hints body =>
    { status :=
        if statusCode = 422 then 422
        else if 400 ≤ statusCode ∧ statusCode < 500 then statusCode
        else 502
      body := .agentError message hints (agentBodyString body "output")
        (agentBodyString body "serviceLog") (agentBodyString body "backupPath")
        (agentBodyBool body "rolledBack") }
  | .other message => ⟨400, .agentError message [] "" "" "" false⟩

/-- An agent error is never answered with success. -/
theorem mapAgentError_status_ne (e : AgentError) : (mapAgentError e).status ≠ 200 := by
  cases e with
  | answer statusCode message hints body =>
    simp only [mapAgentError]
    split_ifs <;> omega
  | other message => simp [mapAgentError]

end OpenvpnControl.Panel
