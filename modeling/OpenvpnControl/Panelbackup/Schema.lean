import OpenvpnControl.Panelbackup.Restore

/-!
# The tables of a backup

The tables of `prisma/schema.prisma` that a backup has, with the types of their columns, the
expressions of the columns in the queries of `panelbackup/export.go`, the keys and the references.

A backup is a file of JSON for each table, written by one query and read by one `INSERT` for each
row. Whether a value comes back depends on the type of its column and on the expression that the
query has for it, so the schema lists both, column by column, as the source has them.

## Main definitions

* `Value`, `Row`: the values that PostgreSQL stores.
* `Column`, `columns`: the columns of a table and their expressions in its query.
* `keys`, `references`: what is unique, and what points where.
* `Valid`: the contents that the schema admits.
-/

namespace OpenvpnControl.Panelbackup

open Inserts (Tables)

/-! ### Values -/

/-- The types of the schema. -/
inductive ColumnType where
  | text
  | bool
  | int
  | bigint
  | float
  | timestamp
  | json
  deriving DecidableEq

/-- A stored value. A `timestamp` is the text that PostgreSQL writes for it, and `special` is a
floating-point value that is no number, as its text. -/
inductive Value where
  | null
  | text (s : String)
  | bool (b : Bool)
  | int (i : ℤ)
  | float (q : ℚ)
  | special (s : String)
  | timestamp (s : String)
  | json (v : Json)
  deriving DecidableEq

/-- A row: the value of each column, and `NULL` for what is no column. -/
abbrev Row : Type := String → Value

/-- The expression of a column in an export query: the column itself, the functions `z`, `zn` and
`zj`, and the expressions of `exportOpenvpnServerLogsSafe`. -/
inductive Source where
  | plain
  | z
  | zn
  | zj
  | nullif
  | coalesce (text : String)
  | coalesceId
  deriving DecidableEq

/-- A column. -/
structure Column where
  name : String
  type : ColumnType
  nullable : Bool
  source : Source
  deriving DecidableEq

/-- A value is one of the column. -/
def Column.Admits (col : Column) : Value → Prop
  | .null => col.nullable = true
  | .text _ => col.type = .text
  | .bool _ => col.type = .bool
  | .int i => (col.type = .int ∧ -2 ^ 31 ≤ i ∧ i < 2 ^ 31) ∨
    (col.type = .bigint ∧ -2 ^ 63 ≤ i ∧ i < 2 ^ 63)
  | .float q => col.type = .float ∧ Float64.nearest q = q ∧ |q| < 2 ^ 1024
  | .special _ => col.type = .float
  | .timestamp _ => col.type = .timestamp
  | .json _ => col.type = .json

/-! ### Columns -/

def organizationSQL : List Column :=
  [⟨"id", .text, false, .plain⟩, ⟨"name", .text, false, .z⟩, ⟨"inn", .text, true, .zn⟩,
    ⟨"legalAddress", .text, true, .zn⟩, ⟨"generalDirector", .text, true, .zn⟩,
    ⟨"phone", .text, true, .zn⟩, ⟨"email", .text, true, .zn⟩, ⟨"firewallRules", .json, true, .zj⟩,
    ⟨"createdAt", .timestamp, false, .plain⟩, ⟨"updatedAt", .timestamp, false, .plain⟩]

def adminSQL : List Column :=
  [⟨"id", .text, false, .plain⟩, ⟨"fullName", .text, false, .z⟩, ⟨"username", .text, false, .z⟩,
    ⟨"email", .text, true, .zn⟩, ⟨"passwordHash", .text, false, .z⟩,
    ⟨"isActive", .bool, false, .plain⟩, ⟨"inviteToken", .text, true, .zn⟩,
    ⟨"inviteExpiresAt", .timestamp, true, .plain⟩, ⟨"passwordResetToken", .text, true, .zn⟩,
    ⟨"passwordResetExpiresAt", .timestamp, true, .plain⟩, ⟨"totpEnabled", .bool, false, .plain⟩,
    ⟨"totpSecretEnc", .text, true, .zn⟩, ⟨"totpPendingSecretEnc", .text, true, .zn⟩,
    ⟨"totpPendingExpiresAt", .timestamp, true, .plain⟩, ⟨"createdAt", .timestamp, false, .plain⟩,
    ⟨"updatedAt", .timestamp, false, .plain⟩]

def rootCASQL : List Column :=
  [⟨"id", .text, false, .plain⟩, ⟨"name", .text, false, .z⟩, ⟨"commonName", .text, false, .z⟩,
    ⟨"certPem", .text, false, .z⟩, ⟨"keyPem", .text, false, .z⟩,
    ⟨"isActive", .bool, false, .plain⟩, ⟨"createdAt", .timestamp, false, .plain⟩,
    ⟨"updatedAt", .timestamp, false, .plain⟩]

def agentNodeSQL : List Column :=
  [⟨"id", .text, false, .plain⟩, ⟨"name", .text, false, .z⟩, ⟨"protocol", .text, false, .z⟩,
    ⟨"host", .text, false, .z⟩, ⟨"port", .int, false, .plain⟩, ⟨"authToken", .text, false, .z⟩,
    ⟨"agentVersion", .text, true, .zn⟩, ⟨"status", .text, false, .z⟩,
    ⟨"cpuPercent", .float, false, .plain⟩, ⟨"memoryPercent", .float, false, .plain⟩,
    ⟨"diskPercent", .float, false, .plain⟩, ⟨"diskReadBps", .float, false, .plain⟩,
    ⟨"diskWriteBps", .float, false, .plain⟩, ⟨"networkInBps", .float, false, .plain⟩,
    ⟨"networkOutBps", .float, false, .plain⟩, ⟨"activeClients", .int, false, .plain⟩,
    ⟨"lastSeenAt", .timestamp, true, .plain⟩, ⟨"openvpnBinaryPath", .text, true, .zn⟩,
    ⟨"openvpnVersion", .text, true, .zn⟩, ⟨"openvpnBuild", .text, true, .zn⟩,
    ⟨"openvpnConfigPath", .text, true, .zn⟩, ⟨"openvpnServerLogPath", .text, true, .zn⟩,
    ⟨"openvpnManagementAddr", .text, true, .zn⟩, ⟨"openvpnRunning", .bool, false, .plain⟩,
    ⟨"openvpnServiceUnit", .text, true, .zn⟩, ⟨"openvpnServiceActiveState", .text, true, .zn⟩,
    ⟨"openvpnServiceSubState", .text, true, .zn⟩, ⟨"openvpnServiceMainPid", .int, true, .plain⟩,
    ⟨"openvpnServiceActiveSince", .text, true, .zn⟩,
    ⟨"openvpnServiceRecentLogs", .json, true, .zj⟩, ⟨"openvpnLogsEnabled", .bool, false, .plain⟩,
    ⟨"openvpnLogsNote", .text, true, .zn⟩, ⟨"openvpnInfoSeenAt", .timestamp, true, .plain⟩,
    ⟨"openvpnInfoError", .text, true, .zn⟩, ⟨"createdAt", .timestamp, false, .plain⟩,
    ⟨"updatedAt", .timestamp, false, .plain⟩]

def vpnUserSQL : List Column :=
  [⟨"id", .text, false, .plain⟩, ⟨"fullName", .text, false, .z⟩, ⟨"position", .text, true, .zn⟩,
    ⟨"email", .text, false, .z⟩, ⟨"phone", .text, true, .zn⟩, ⟨"organizationId", .text, true, .zn⟩,
    ⟨"notes", .text, true, .zn⟩, ⟨"firewallRules", .json, true, .zj⟩,
    ⟨"ccdSettings", .json, true, .zj⟩, ⟨"lastVpnActivityAt", .timestamp, true, .plain⟩,
    ⟨"createdAt", .timestamp, false, .plain⟩, ⟨"updatedAt", .timestamp, false, .plain⟩]

def certificateSQL : List Column :=
  [⟨"id", .text, false, .plain⟩, ⟨"commonName", .text, false, .z⟩,
    ⟨"serialNumber", .text, false, .z⟩, ⟨"issuedBy", .text, false, .z⟩,
    ⟨"rootCaId", .text, true, .zn⟩, ⟨"agentNodeId", .text, true, .zn⟩,
    ⟨"vpnUserId", .text, true, .zn⟩, ⟨"certPem", .text, true, .zn⟩, ⟨"keyPem", .text, true, .zn⟩,
    ⟨"expiresAt", .timestamp, false, .plain⟩, ⟨"createdAt", .timestamp, false, .plain⟩,
    ⟨"revokedAt", .timestamp, true, .plain⟩, ⟨"revokedReason", .text, true, .zn⟩]

def agentNodeOpenvpnSettingsSQL : List Column :=
  [⟨"id", .text, false, .plain⟩, ⟨"agentNodeId", .text, false, .z⟩,
    ⟨"settings", .json, false, .zj⟩, ⟨"configPath", .text, true, .zn⟩,
    ⟨"createdAt", .timestamp, false, .plain⟩, ⟨"updatedAt", .timestamp, false, .plain⟩]

def agentNodeOpenvpnConfigVersionSQL : List Column :=
  [⟨"id", .text, false, .plain⟩, ⟨"agentNodeId", .text, false, .z⟩,
    ⟨"version", .int, false, .plain⟩, ⟨"settings", .json, false, .zj⟩,
    ⟨"checksum", .text, false, .z⟩, ⟨"appliedAt", .timestamp, true, .plain⟩,
    ⟨"createdAt", .timestamp, false, .plain⟩]

def agentNodeOpenvpnMaterialSQL : List Column :=
  [⟨"id", .text, false, .plain⟩, ⟨"agentNodeId", .text, false, .z⟩, ⟨"kind", .text, false, .z⟩,
    ⟨"label", .text, true, .zn⟩, ⟨"pem", .text, false, .z⟩,
    ⟨"createdAt", .timestamp, false, .plain⟩]

def clientIpAssignmentSQL : List Column :=
  [⟨"id", .text, false, .plain⟩, ⟨"agentNodeId", .text, false, .z⟩,
    ⟨"sessionId", .text, false, .z⟩, ⟨"commonName", .text, false, .z⟩,
    ⟨"realIp", .text, false, .z⟩, ⟨"virtualIp", .text, false, .z⟩,
    ⟨"connectedAt", .text, false, .z⟩, ⟨"firstSeenAt", .timestamp, false, .plain⟩,
    ⟨"lastSeenAt", .timestamp, false, .plain⟩, ⟨"endedAt", .timestamp, true, .plain⟩]

def clientSourceIpHistorySQL : List Column :=
  [⟨"id", .text, false, .plain⟩, ⟨"agentNodeId", .text, false, .z⟩,
    ⟨"sessionId", .text, false, .z⟩, ⟨"commonName", .text, false, .z⟩,
    ⟨"realIp", .text, false, .z⟩, ⟨"connectedAt", .text, false, .z⟩,
    ⟨"firstSeenAt", .timestamp, false, .plain⟩, ⟨"lastSeenAt", .timestamp, false, .plain⟩,
    ⟨"endedAt", .timestamp, true, .plain⟩, ⟨"durationSeconds", .int, true, .plain⟩]

def clientTrafficSampleSQL : List Column :=
  [⟨"id", .text, false, .plain⟩, ⟨"agentNodeId", .text, false, .z⟩,
    ⟨"sessionId", .text, false, .z⟩, ⟨"commonName", .text, false, .z⟩,
    ⟨"virtualIp", .text, false, .z⟩, ⟨"realIp", .text, false, .z⟩,
    ⟨"rxBytes", .bigint, false, .plain⟩, ⟨"txBytes", .bigint, false, .plain⟩,
    ⟨"inBps", .float, false, .plain⟩, ⟨"outBps", .float, false, .plain⟩,
    ⟨"sampledAt", .timestamp, false, .plain⟩]

def agentMetricSnapshotSQL : List Column :=
  [⟨"id", .text, false, .plain⟩, ⟨"agentNodeId", .text, false, .z⟩,
    ⟨"cpuPercent", .float, false, .plain⟩, ⟨"memoryPercent", .float, false, .plain⟩,
    ⟨"diskPercent", .float, false, .plain⟩, ⟨"diskReadBps", .float, false, .plain⟩,
    ⟨"diskWriteBps", .float, false, .plain⟩, ⟨"networkInBps", .float, false, .plain⟩,
    ⟨"networkOutBps", .float, false, .plain⟩, ⟨"activeClients", .int, false, .plain⟩,
    ⟨"createdAt", .timestamp, false, .plain⟩]

def panelAsyncTaskSQL : List Column :=
  [⟨"id", .text, false, .plain⟩, ⟨"type", .text, false, .z⟩, ⟨"status", .text, false, .z⟩,
    ⟨"agentNodeId", .text, false, .z⟩, ⟨"payload", .json, false, .zj⟩,
    ⟨"lastError", .text, true, .zn⟩, ⟨"createdAt", .timestamp, false, .plain⟩,
    ⟨"updatedAt", .timestamp, false, .plain⟩, ⟨"completedAt", .timestamp, true, .plain⟩]

def adminActionLogSQL : List Column :=
  [⟨"id", .text, false, .plain⟩, ⟨"adminId", .text, false, .z⟩,
    ⟨"adminUsername", .text, false, .z⟩, ⟨"method", .text, false, .z⟩, ⟨"path", .text, false, .z⟩,
    ⟨"action", .text, false, .z⟩, ⟨"targetType", .text, true, .zn⟩, ⟨"targetId", .text, true, .zn⟩,
    ⟨"ipAddress", .text, true, .zn⟩, ⟨"userAgent", .text, true, .zn⟩,
    ⟨"statusCode", .int, false, .plain⟩, ⟨"details", .json, true, .zj⟩,
    ⟨"createdAt", .timestamp, false, .plain⟩]

def panelAppBackupSettingsSQL : List Column :=
  [⟨"id", .int, false, .plain⟩, ⟨"intervalMinutes", .int, false, .plain⟩,
    ⟨"retainCount", .int, false, .plain⟩, ⟨"lastScheduledAt", .timestamp, true, .plain⟩,
    ⟨"updatedAt", .timestamp, false, .plain⟩]

def adminTotpRecoveryCodeSQL : List Column :=
  [⟨"id", .text, false, .plain⟩, ⟨"adminId", .text, false, .z⟩, ⟨"codeHash", .text, false, .z⟩,
    ⟨"createdAt", .timestamp, false, .plain⟩, ⟨"usedAt", .timestamp, true, .plain⟩]

/-- The query of `exportOpenvpnServerLogsSafe`. -/
def openvpnServerLogSQL : List Column :=
  [⟨"id", .text, false, .plain⟩, ⟨"agentNodeId", .text, false, .plain⟩,
    ⟨"occurredAt", .timestamp, false, .plain⟩, ⟨"occurredRaw", .text, true, .nullif⟩,
    ⟨"event", .text, false, .coalesce "(empty)"⟩, ⟨"username", .text, true, .nullif⟩,
    ⟨"ipAddress", .text, true, .nullif⟩, ⟨"rawLine", .text, false, .coalesce "."⟩,
    ⟨"fingerprint", .text, false, .coalesceId⟩, ⟨"createdAt", .timestamp, false, .plain⟩]

/-- The columns of a table. -/
def columns : String → List Column
  | "Organization" => organizationSQL
  | "Admin" => adminSQL
  | "RootCertificateAuthority" => rootCASQL
  | "AgentNode" => agentNodeSQL
  | "VpnUser" => vpnUserSQL
  | "Certificate" => certificateSQL
  | "AgentNodeOpenvpnSettings" => agentNodeOpenvpnSettingsSQL
  | "AgentNodeOpenvpnConfigVersion" => agentNodeOpenvpnConfigVersionSQL
  | "AgentNodeOpenvpnMaterial" => agentNodeOpenvpnMaterialSQL
  | "ClientIpAssignment" => clientIpAssignmentSQL
  | "ClientSourceIpHistory" => clientSourceIpHistorySQL
  | "ClientTrafficSample" => clientTrafficSampleSQL
  | "AgentMetricSnapshot" => agentMetricSnapshotSQL
  | "PanelAsyncTask" => panelAsyncTaskSQL
  | "AdminActionLog" => adminActionLogSQL
  | "PanelAppBackupSettings" => panelAppBackupSettingsSQL
  | "AdminTotpRecoveryCode" => adminTotpRecoveryCodeSQL
  | "OpenvpnServerLog" => openvpnServerLogSQL
  | _ => []

/-! ### Keys and references -/

/-- The columns that are unique together, where none of them is `NULL`. -/
def keys : String → List (List String)
  | "Admin" => [["id"], ["username"], ["email"], ["inviteToken"], ["passwordResetToken"]]
  | "RootCertificateAuthority" => [["id"], ["name"]]
  | "VpnUser" => [["id"], ["email"]]
  | "Certificate" => [["id"], ["serialNumber"]]
  | "AgentNodeOpenvpnSettings" => [["id"], ["agentNodeId"]]
  | "AgentNodeOpenvpnConfigVersion" => [["id"], ["agentNodeId", "version"]]
  | "ClientIpAssignment" => [["id"], ["agentNodeId", "sessionId"]]
  | "ClientSourceIpHistory" => [["id"], ["agentNodeId", "sessionId", "realIp"]]
  | "OpenvpnServerLog" => [["id"], ["fingerprint"]]
  | _ => [["id"]]

/-- The columns that hold the `id` of a row of another table. -/
def references : String → List (String × String)
  | "VpnUser" => [("organizationId", "Organization")]
  | "Certificate" =>
    [("rootCaId", "RootCertificateAuthority"), ("agentNodeId", "AgentNode"),
      ("vpnUserId", "VpnUser")]
  | "AdminTotpRecoveryCode" | "AdminActionLog" => [("adminId", "Admin")]
  | "AgentNodeOpenvpnSettings" | "AgentNodeOpenvpnConfigVersion" | "AgentNodeOpenvpnMaterial"
  | "ClientIpAssignment" | "ClientSourceIpHistory" | "ClientTrafficSample" | "AgentMetricSnapshot"
  | "OpenvpnServerLog" | "PanelAsyncTask" => [("agentNodeId", "AgentNode")]
  | _ => []

/-- Two rows of a table have a key in common. -/
def clash (t : String) (r r' : Row) : Bool :=
  (keys t).any fun key => key.all fun c => decide (r c ≠ .null ∧ r c = r' c)

/-- The rows that a row points to. -/
def targets (t : String) (r : Row) : List (String × (Row → Bool)) :=
  ((references t).filter fun e => r e.1 ≠ .null).map fun e => (e.2, fun p => p "id" = r e.1)

/-- **The contents that the schema admits.** -/
structure Valid (db : Tables Row) : Prop where
  typed : ∀ t ∈ importedTables, ∀ r ∈ db t, ∀ col ∈ columns t, col.Admits (r col.name)
  others : ∀ t ∈ importedTables, ∀ r ∈ db t, ∀ c, c ∉ (columns t).map Column.name → r c = .null
  distinct : ∀ t ∈ importedTables, (db t).Pairwise fun r r' => clash t r r' = false
  references : ∀ t ∈ importedTables, ∀ r ∈ db t, ∀ e ∈ references t, r e.1 ≠ .null →
    ∃ p ∈ db e.2, p "id" = r e.1

theorem nodup_columns : ∀ t ∈ importedTables, ((columns t).map Column.name).Nodup := by
  decide

end OpenvpnControl.Panelbackup
