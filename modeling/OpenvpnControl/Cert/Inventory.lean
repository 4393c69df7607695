import OpenvpnControl.Cert.Pem
import OpenvpnControl.Library.Calendar
import OpenvpnControl.Panel.Db

/-!
# Inventories

The package `cert` on inventories: the lines of an Easy-RSA `index.txt`, the import of the issued
certificates a text lists, and the two imports of revoked certificates, from a list and from a
revocation list.

A line is read by the regular expressions of the package, written here as one function for each of
their parts. The map of the source from common names to what a text says of them is a list with one
entry for each name. The order in which Go visits it is part of what an import is answered, as are
the generated ids, the clock, the choice among several rows of one name or serial number, and the
statements that fail.

An import is a loop whose turns write one row at most. What a turn can do to the table is an
inductive relation with one constructor for each outcome, `IssuedChange` and `RevokedChange`; a
property that each of them keeps is kept by the import, and the lemmas of the other files about
imports go through these three rules.

## Main definitions

* `parseEasyRsaIndexLine`, `parseInventoryLine`: one line of a text.
* `issuedEntries`: the certificates a text lists as valid, one for each common name.
* `syncIssuedInventory`, `syncRevokedInventory`, `syncRevokedFromCRL`: the imports.

## Main results

* `syncIssuedEntry_change`: what one common name of the text does to the table.
* `syncIssuedInventory_induction`, `syncRevokedInventory_induction`,
  `syncRevokedFromCRL_induction`: what every change of an import keeps, the import keeps.
-/

namespace OpenvpnControl.Cert

open Panel (Certificate UniqueCerts storeCerts)

/-! ### Lines -/

/-- The status of an index line. -/
inductive InventoryStatus where
  | valid
  | revoked
  | expired
  deriving DecidableEq

/-- `[VRE]`, in either case. -/
def inventoryStatus (c : Char) : Option InventoryStatus :=
  if c = 'V' ∨ c = 'v' then some .valid
  else if c = 'R' ∨ c = 'r' then some .revoked
  else if c = 'E' ∨ c = 'e' then some .expired
  else none

/-- `\s`. -/
def isPatternSpace (c : Char) : Bool :=
  c = ' ' || c = '\t' || c = '\n' || c = '\r' || c.toNat = 0x0c

/-- `\s+`, which leaves the rest. -/
def matchSpaces (l : List Char) : Option (List Char) :=
  if l.takeWhile isPatternSpace = [] then none else some (l.dropWhile isPatternSpace)

/-- `\d{12}Z`, with the twelve digits and the rest. -/
def matchDate (l : List Char) : Option (List Char × List Char) :=
  let digits := l.take 12
  if digits.length = 12 ∧ digits.all Char.isDigit ∧ (l.drop 12).head?.any fun c => c = 'Z' ∨ c = 'z'
  then some (digits, l.drop 13)
  else none

/-- `[0-9A-Fa-f]+`, with the digits and the rest. -/
def matchHex (l : List Char) : Option (List Char × List Char) :=
  let digits := l.takeWhile fun c => (hexValue c).isSome
  if digits = [] then none else some (digits, l.dropWhile fun c => (hexValue c).isSome)

/-- The run of characters a common name may have, `[^/\n,]*`. -/
def commonNameRun (l : List Char) : List Char :=
  l.takeWhile fun c => c ≠ '/' ∧ c ≠ '\n' ∧ c ≠ ','

/-- `cnFromDN`: the run after the first `CN=` that one follows. -/
def cnFromDN : List Char → Option (List Char)
  | c :: n :: e :: l =>
    if (c = 'C' ∨ c = 'c') ∧ (n = 'N' ∨ n = 'n') ∧ e = '=' ∧ commonNameRun l ≠ [] then
      some (commonNameRun l)
    else cnFromDN (n :: e :: l)
  | _ => none

def subjectCNFromDN (s : List Char) : String :=
  GoStrings.trimSpace (String.ofList ((cnFromDN s).getD []))

structure EasyRsaIndexEntry where
  status : InventoryStatus
  expiryUtc : List Char
  revocationUtc : Option (List Char)
  serialHex : String
  cn : String
  deriving DecidableEq

structure InventoryLineEntry where
  status : Option InventoryStatus
  cn : String
  deriving DecidableEq

/-- `strings.TrimSuffix(raw, "\r")`. -/
def trimCR (l : List Char) : List Char := if l.getLast? = some '\r' then l.dropLast else l

def trimLine (l : List Char) : List Char := GoStrings.trimList GoStrings.isSpace l

/-- The second date of an index line, where it has one: the spaces before it belong to it. -/
def matchRevocation (l : List Char) : Option (List Char) × List Char :=
  match (matchSpaces l).bind matchDate with
  | some (date, rest) => (some date, rest)
  | none => (none, l)

/-- `ParseEasyRsaIndexLine`: a status, one or two dates, a serial number and a subject. -/
def parseEasyRsaIndexLine (raw : List Char) : Option EasyRsaIndexEntry :=
  match trimLine (trimCR raw) with
  | [] => none
  | '#' :: _ => none
  | c :: rest => do
    let status ← inventoryStatus c
    let rest ← matchSpaces rest
    let (expiryUtc, rest) ← matchDate rest
    let (revocationUtc, rest) := matchRevocation rest
    let rest ← matchSpaces rest
    let (digits, rest) ← matchHex rest
    let rest ← matchSpaces rest
    let serialHex := normalizeSerialHex (String.ofList digits)
    let cn := subjectCNFromDN rest
    if serialHex = "" ∨ cn = "" then none
    else some ⟨status, expiryUtc, revocationUtc, serialHex, cn⟩

/-- `ParseInventoryLine`: a line of fields between tabs, or a common name alone. -/
def parseInventoryLine (raw : List Char) : Option InventoryLineEntry :=
  let t := trimLine raw
  if t = [] ∨ t.head? = some '#' then none
  else if '\t' ∈ t then
    let parts := t.splitOn '\t'
    match parts.headD [] with
    | [c] =>
      let cn := subjectCNFromDN (parts.getLastD [])
      (inventoryStatus c).bind fun status => if cn = "" then none else some ⟨some status, cn⟩
    | _ => none
  else
    let cn := subjectCNFromDN t
    some ⟨none, if cn = "" then String.ofList t else cn⟩

/-! ### Dates -/

/-- `time.Date`, where a month outside the year counts into the next or the last one. -/
def timeDate (year month day hh mm ss : ℤ) : ℤ :=
  Calendar.daysFromCivil (year + (month - 1) / 12) ((month - 1) % 12 + 1) day * Cert.day +
    hh * 3600 + mm * 60 + ss

/-- `parseInt2`, of two digits. -/
def parseInt2 (a b : Char) : ℤ := 10 * ((a.toNat : ℤ) - 48) + ((b.toNat : ℤ) - 48)

/-- `OpenSSLUtcTimeToDate`, of the digits of a date. Years from 50 on are of the last century. -/
def openSSLUtcTimeToDate : List Char → Option ℤ
  | y₁ :: y₂ :: m₁ :: m₂ :: d₁ :: d₂ :: h₁ :: h₂ :: n₁ :: n₂ :: s₁ :: s₂ :: _ =>
    let yy := parseInt2 y₁ y₂
    some (timeDate (if yy ≥ 50 then 1900 + yy else 2000 + yy) (parseInt2 m₁ m₂) (parseInt2 d₁ d₂)
      (parseInt2 h₁ h₂) (parseInt2 n₁ n₂) (parseInt2 s₁ s₂))
  | _ => none

def defaultImportedExpiry : ℤ := 10 * 365 * day

/-! ### The certificates of a text -/

structure IssuedEntry where
  cn : String
  serialHex : String
  expiresAt : ℤ
  deriving DecidableEq

/-- One turn of the first loop of `SyncIssuedInventory`. An index line replaces what the text said
of its common name before, another line adds a common name only. -/
def addIssuedLine (defaultExp : ℤ) (byCN : List IssuedEntry) (raw : List Char) :
    List IssuedEntry :=
  match parseEasyRsaIndexLine raw with
  | some easy =>
    if easy.status = .revoked then byCN
    else
      let entry : IssuedEntry :=
        ⟨easy.cn, easy.serialHex, (openSSLUtcTimeToDate easy.expiryUtc).getD defaultExp⟩
      Rows.upsert (·.cn) entry (fun _ => entry) byCN
  | none =>
    match parseInventoryLine raw with
    | none => byCN
    | some p =>
      if p.cn = "" ∨ p.status = some .revoked then byCN
      else if p.cn ∈ byCN.map (·.cn) then byCN
      else byCN ++ [⟨p.cn, "", defaultExp⟩]

/-- The map `byCN` of `SyncIssuedInventory`, as its entries. -/
def issuedEntries (defaultExp : ℤ) (text : String) : List IssuedEntry :=
  ((text.toList.splitOn '\n').map trimCR).foldl (addIssuedLine defaultExp) []

theorem issuedEntries_hasKey (defaultExp : ℤ) (text : String) :
    Rows.HasKey (·.cn) (issuedEntries defaultExp text) := by
  have hline : ∀ (byCN : List IssuedEntry) (raw : List Char), Rows.HasKey (·.cn) byCN →
      Rows.HasKey (·.cn) (addIssuedLine defaultExp byCN raw) := by
    intro byCN raw h
    rw [addIssuedLine]
    split
    · split_ifs
      · exact h
      · rw [Rows.upsert]
        split_ifs with hmem
        · refine h.updateWhere fun e _ he => ?_
          exact (of_decide_eq_true he).symm
        · exact h.append_singleton hmem
    · split
      · exact h
      · split_ifs with hskip hmem
        · exact h
        · exact h
        · exact h.append_singleton hmem
  rw [issuedEntries]
  generalize (text.toList.splitOn '\n').map trimCR = lines
  have hfold : ∀ (lines : List (List Char)) (byCN : List IssuedEntry), Rows.HasKey (·.cn) byCN →
      Rows.HasKey (·.cn) (lines.foldl (addIssuedLine defaultExp) byCN) := by
    intro lines
    induction lines with
    | nil => exact fun byCN h => h
    | cons raw lines ih => exact fun byCN h => ih _ (hline byCN raw h)
  exact hfold lines [] List.nodup_nil

/-! ### Importing issued certificates -/

/-- What `ksuid.New`, `time.Now`, the iteration order of a map and the database answer to an import.
A look-up or a statement may fail for each common name or serial number. -/
structure SyncEnv where
  now : ℤ
  ksuid : List String → String
  order : List IssuedEntry → List IssuedEntry
  order_perm : ∀ entries, (order entries).Perm entries
  serialOrder : List String → List String
  serialOrder_perm : ∀ serials, (serialOrder serials).Perm serials
  choice : Rows.Choice Certificate
  findFails : String → Bool
  writeFails : String → Bool

def SyncEnv.quiet (now : ℤ) (ksuid : List String → String) : SyncEnv where
  now := now
  ksuid := ksuid
  order := id
  order_perm := List.Perm.refl
  serialOrder := id
  serialOrder_perm := List.Perm.refl
  choice := .first
  findFails _ := false
  writeFails _ := false

structure IssuedSyncStats where
  created : ℕ
  skipped : ℕ
  reactivated : ℕ
  updated : ℕ
  deriving DecidableEq

def IssuedSyncStats.zero : IssuedSyncStats := ⟨0, 0, 0, 0⟩

def findCertByCNAndNode (choice : Rows.Choice Certificate) (certs : List Certificate) (cn : String)
    (agentNodeID : Option String) : Option Certificate :=
  choice.select (fun c => c.commonName = cn ∧ c.agentNodeId = agentNodeID) certs

/-- The arguments of an import of issued certificates. -/
structure IssuedImport where
  rootCaID : String
  issuedByName : String
  agentNodeID : Option String

/-- The `UPDATE` of a revoked row that the text lists as valid. -/
def reactivate (serial : String) (expiresAt : ℤ) (issuedByName : String) (c : Certificate) :
    Certificate :=
  { c with
    serialNumber := serial
    expiresAt := expiresAt
    issuedBy := issuedByName
    revokedAt := none
    revokedReason := none }

/-- The `UPDATE` of a row whose serial number or expiry the text changes. -/
def renew (serial : String) (expiresAt : ℤ) (issuedByName : String) (c : Certificate) :
    Certificate :=
  { c with serialNumber := serial, expiresAt := expiresAt, issuedBy := issuedByName }

/-- The row an import inserts. -/
def importedRow (env : SyncEnv) (imp : IssuedImport) (certs : List Certificate) (cn serial : String)
    (expiresAt : ℤ) : Certificate where
  id := env.ksuid (certs.map (·.id))
  commonName := cn
  serialNumber := serial
  issuedBy := imp.issuedByName
  rootCaId := some imp.rootCaID
  agentNodeId := imp.agentNodeID
  vpnUserId := none
  certPem := none
  keyPem := none
  expiresAt := expiresAt
  createdAt := env.now
  revokedAt := none
  revokedReason := none

/-- The serial number of an entry, which a line without one leaves to `ksuid.New`. -/
def IssuedEntry.serial (env : SyncEnv) (certs : List Certificate) (e : IssuedEntry) : String :=
  if e.serialHex = "" then env.ksuid (certs.map (·.serialNumber)) else e.serialHex

/-- The table a statement of an import leaves, unless it is refused. -/
def syncWrite (env : SyncEnv) (key : String) (new : List Certificate) :
    Option (List Certificate) :=
  if env.writeFails key then none else storeCerts new

/-- One turn of the second loop of `SyncIssuedInventory`. -/
def syncIssuedEntry (env : SyncEnv) (imp : IssuedImport) (s : List Certificate × IssuedSyncStats)
    (e : IssuedEntry) : List Certificate × IssuedSyncStats :=
  let (certs, stats) := s
  let serial := e.serial env certs
  let skipped := (certs, { stats with skipped := stats.skipped + 1 })
  match findCertByCNAndNode env.choice certs e.cn imp.agentNodeID with
  | some existing =>
    if existing.rootCaId.getD "" ≠ imp.rootCaID then skipped
    else if existing.revokedAt.isSome then
      match syncWrite env e.cn (Rows.updateWhere (fun c => c.id = existing.id)
          (reactivate serial e.expiresAt imp.issuedByName) certs) with
      | some certs' => (certs', { stats with reactivated := stats.reactivated + 1 })
      | none => skipped
    else if normalizeSerialHex existing.serialNumber ≠ normalizeSerialHex serial ∨
        existing.expiresAt ≠ e.expiresAt then
      match syncWrite env e.cn (Rows.updateWhere (fun c => c.id = existing.id)
          (renew serial e.expiresAt imp.issuedByName) certs) with
      | some certs' => (certs', { stats with updated := stats.updated + 1 })
      | none => skipped
    else skipped
  | none =>
    match syncWrite env e.cn (certs ++ [importedRow env imp certs e.cn serial e.expiresAt]) with
    | some certs' => (certs', { stats with created := stats.created + 1 })
    | none => skipped

/-- The second loop of `SyncIssuedInventory`; a look-up that fails ends it. The last component says
whether it ran to its end. -/
def syncIssuedEntries (env : SyncEnv) (imp : IssuedImport) :
    List Certificate × IssuedSyncStats → List IssuedEntry →
      (List Certificate × IssuedSyncStats) × Bool
  | s, [] => (s, true)
  | s, e :: es =>
    if env.findFails e.cn then (s, false)
    else syncIssuedEntries env imp (syncIssuedEntry env imp s e) es

/-- The certificates a text lists as valid at the time of an import. -/
def SyncEnv.entries (env : SyncEnv) (text : String) : List IssuedEntry :=
  env.order (issuedEntries (env.now + defaultImportedExpiry) text)

theorem SyncEnv.entries_hasKey (env : SyncEnv) (text : String) :
    Rows.HasKey (·.cn) (env.entries text) :=
  ((env.order_perm _).map _).nodup_iff.2 (issuedEntries_hasKey _ text)

def syncIssuedInventory (env : SyncEnv) (imp : IssuedImport) (certs : List Certificate)
    (text : String) : (List Certificate × IssuedSyncStats) × Bool :=
  if GoStrings.trimSpace text = "" then ((certs, .zero), true)
  else syncIssuedEntries env imp (certs, .zero) (env.entries text)

/-! ### Importing revoked certificates -/

structure RevokedSyncStats where
  updated : ℕ
  created : ℕ
  skipped : ℕ
  deriving DecidableEq

def revokeRow (now : ℤ) (reason : String) (c : Certificate) : Certificate :=
  { c with revokedAt := some now, revokedReason := some reason }

def importedReason : String := "imported revoke list"

/-- One turn of the loop of `SyncRevokedInventory`; `none` when it ends the loop. -/
def syncRevokedName (env : SyncEnv) (rootCaID issuedByName : String)
    (s : List Certificate × RevokedSyncStats) (cn : String) :
    Option (List Certificate × RevokedSyncStats) :=
  let (certs, stats) := s
  if env.findFails cn then none
  else match findCertByCNAndNode env.choice certs cn none with
    | some existing =>
      if existing.rootCaId.getD "" ≠ rootCaID then
        some (certs, { stats with skipped := stats.skipped + 1 })
      else if existing.revokedAt.isSome then some (certs, stats)
      else if env.writeFails cn then none
      else some (Rows.updateWhere (fun c => c.id = existing.id) (revokeRow env.now importedReason)
        certs, { stats with updated := stats.updated + 1 })
    | none =>
      let row := revokeRow env.now importedReason
        (importedRow env ⟨rootCaID, issuedByName, none⟩ certs cn
          (env.ksuid (certs.map (·.serialNumber))) (env.now + defaultImportedExpiry))
      match syncWrite env cn (certs ++ [row]) with
      | some certs' => some (certs', { stats with created := stats.created + 1 })
      | none => some (certs, { stats with skipped := stats.skipped + 1 })

/-- The loop of `SyncRevokedInventory`, with whether it ran to its end. -/
def syncRevokedNames (env : SyncEnv) (rootCaID issuedByName : String) :
    List Certificate × RevokedSyncStats → List String →
      (List Certificate × RevokedSyncStats) × Bool
  | s, [] => (s, true)
  | s, cn :: cns =>
    match syncRevokedName env rootCaID issuedByName s cn with
    | none => (s, false)
    | some s' => syncRevokedNames env rootCaID issuedByName s' cns

/-- The common names of a list, each once. -/
def revokedNames (text : String) : List String :=
  let lines := (text.toList.splitOn '\n').map trimCR
  (((lines.filterMap parseInventoryLine).map (·.cn)).filter (· ≠ "")).reverse.dedup.reverse

def syncRevokedInventory (env : SyncEnv) (certs : List Certificate)
    (rootCaID issuedByName text : String) : (List Certificate × RevokedSyncStats) × Bool :=
  if GoStrings.trimSpace text = "" then ((certs, ⟨0, 0, 0⟩), true)
  else syncRevokedNames env rootCaID issuedByName (certs, ⟨0, 0, 0⟩) (revokedNames text)

structure RevokedCrlSyncStats where
  revoked : ℕ
  skipped : ℕ
  notInDb : ℕ
  deriving DecidableEq

/-- The row of the map `bySerial`: of the rows of one serial number the last one read. -/
def findBySerial (env : SyncEnv) (certs : List Certificate) (rootCaID serial : String) :
    Option Certificate :=
  env.choice.select (fun c => c.rootCaId = some rootCaID ∧ c.agentNodeId = none ∧
    normalizeSerialHex c.serialNumber = serial) certs

/-- The loop of `SyncRevokedFromCRL`, where `read` is the table the rows were read from. -/
def syncRevokedSerials (env : SyncEnv) (rootCaID : String) (read : List Certificate) :
    List Certificate × RevokedCrlSyncStats → List String →
      (List Certificate × RevokedCrlSyncStats) × Bool
  | s, [] => (s, true)
  | (certs, stats), serial :: serials =>
    match findBySerial env read rootCaID serial with
    | none =>
      syncRevokedSerials env rootCaID read (certs, { stats with notInDb := stats.notInDb + 1 })
        serials
    | some existing =>
      if existing.revokedAt.isSome then
        syncRevokedSerials env rootCaID read (certs, stats) serials
      else if env.writeFails serial then ((certs, stats), false)
      else
        syncRevokedSerials env rootCaID read
          (Rows.updateWhere (fun c => c.id = existing.id) (revokeRow env.now "CRL (crl.pem)") certs,
            { stats with revoked := stats.revoked + 1 }) serials

def syncRevokedFromCRL (x : X509) (env : SyncEnv) (certs : List Certificate)
    (rootCaID pemText : String) : (List Certificate × RevokedCrlSyncStats) × Bool :=
  match revokedSerialSetFromCRL x pemText with
  | none => ((certs, ⟨0, 0, 0⟩), false)
  | some serials =>
    syncRevokedSerials env rootCaID certs (certs, ⟨0, 0, 0⟩) (env.serialOrder serials)

/-! ### What an import does to the table -/

theorem syncWrite_eq_some {env : SyncEnv} {key : String} {new certs' : List Certificate}
    (h : syncWrite env key new = some certs') : UniqueCerts new ∧ certs' = new := by
  rw [syncWrite] at h
  split_ifs at h
  exact Panel.storeCerts_eq_some.1 h

theorem mem_of_findCert {choice : Rows.Choice Certificate} {certs : List Certificate} {cn : String}
    {agentNodeID : Option String} {c : Certificate}
    (h : findCertByCNAndNode choice certs cn agentNodeID = some c) :
    c ∈ certs ∧ c.commonName = cn ∧ c.agentNodeId = agentNodeID := by
  obtain ⟨hc, hp⟩ := Rows.Choice.mem_of_select h
  exact ⟨hc, by simpa using hp⟩

theorem findCert_eq_none {choice : Rows.Choice Certificate} {certs : List Certificate} {cn : String}
    {agentNodeID : Option String} :
    findCertByCNAndNode choice certs cn agentNodeID = none ↔
      ∀ c ∈ certs, ¬(c.commonName = cn ∧ c.agentNodeId = agentNodeID) := by
  simp only [findCertByCNAndNode, Rows.Choice.select_eq_none, decide_eq_false_iff_not]

/-- What an import of issued certificates does to the table for one common name. -/
inductive IssuedChange (env : SyncEnv) (imp : IssuedImport) (e : IssuedEntry)
    (certs : List Certificate) : List Certificate → Prop
  /-- The row belongs to another root, says the same, or the database refuses the statement. -/
  | same : IssuedChange env imp e certs certs
  /-- A revoked row is made valid. -/
  | reactivated {c : Certificate} {serial : String} :
    findCertByCNAndNode env.choice certs e.cn imp.agentNodeID = some c →
    c.rootCaId.getD "" = imp.rootCaID → c.revokedAt.isSome = true →
    UniqueCerts (Rows.updateWhere (fun d => d.id = c.id)
      (reactivate serial e.expiresAt imp.issuedByName) certs) →
    IssuedChange env imp e certs (Rows.updateWhere (fun d => d.id = c.id)
      (reactivate serial e.expiresAt imp.issuedByName) certs)
  /-- A valid row takes the serial number and the expiry of the text. -/
  | renewed {c : Certificate} {serial : String} :
    findCertByCNAndNode env.choice certs e.cn imp.agentNodeID = some c →
    c.rootCaId.getD "" = imp.rootCaID → c.revokedAt = none →
    UniqueCerts (Rows.updateWhere (fun d => d.id = c.id)
      (renew serial e.expiresAt imp.issuedByName) certs) →
    IssuedChange env imp e certs (Rows.updateWhere (fun d => d.id = c.id)
      (renew serial e.expiresAt imp.issuedByName) certs)
  /-- A row is inserted for a common name that has none on the node. -/
  | created {serial : String} :
    findCertByCNAndNode env.choice certs e.cn imp.agentNodeID = none →
    UniqueCerts (certs ++ [importedRow env imp certs e.cn serial e.expiresAt]) →
    IssuedChange env imp e certs (certs ++ [importedRow env imp certs e.cn serial e.expiresAt])

/-- **One common name of an import.** -/
theorem syncIssuedEntry_change (env : SyncEnv) (imp : IssuedImport) (certs : List Certificate)
    (stats : IssuedSyncStats) (e : IssuedEntry) :
    IssuedChange env imp e certs (syncIssuedEntry env imp (certs, stats) e).1 := by
  rw [syncIssuedEntry]
  cases hfind : findCertByCNAndNode env.choice certs e.cn imp.agentNodeID with
  | none =>
    dsimp only
    cases hw : syncWrite env e.cn
        (certs ++ [importedRow env imp certs e.cn (e.serial env certs) e.expiresAt]) with
    | none => exact .same
    | some certs' =>
      obtain ⟨huniq, rfl⟩ := syncWrite_eq_some hw
      exact .created hfind huniq
  | some c =>
    dsimp only
    by_cases hroot : c.rootCaId.getD "" = imp.rootCaID
    · rw [if_neg (not_not.2 hroot)]
      by_cases hrev : c.revokedAt.isSome = true
      · rw [if_pos hrev]
        cases hw : syncWrite env e.cn (Rows.updateWhere (fun d => d.id = c.id)
            (reactivate (e.serial env certs) e.expiresAt imp.issuedByName) certs) with
        | none => exact .same
        | some certs' =>
          obtain ⟨huniq, rfl⟩ := syncWrite_eq_some hw
          exact .reactivated hfind hroot hrev huniq
      · rw [if_neg hrev]
        split_ifs
        · cases hw : syncWrite env e.cn (Rows.updateWhere (fun d => d.id = c.id)
              (renew (e.serial env certs) e.expiresAt imp.issuedByName) certs) with
          | none => exact .same
          | some certs' =>
            obtain ⟨huniq, rfl⟩ := syncWrite_eq_some hw
            exact .renewed hfind hroot (by simpa using hrev) huniq
        · exact .same
    · rw [if_pos hroot]
      exact .same

/-- **The rule for an import of issued certificates.** What every common name of the text keeps is
kept by the import. -/
theorem syncIssuedInventory_induction {env : SyncEnv} {imp : IssuedImport} {text : String}
    {I : List Certificate → Prop}
    (hstep : ∀ e ∈ env.entries text, ∀ certs certs', I certs →
      IssuedChange env imp e certs certs' → I certs')
    {certs : List Certificate} (h : I certs) :
    I (syncIssuedInventory env imp certs text).1.1 := by
  have hloop : ∀ (es : List IssuedEntry), (∀ e ∈ es, e ∈ env.entries text) →
      ∀ s : List Certificate × IssuedSyncStats, I s.1 → I (syncIssuedEntries env imp s es).1.1 := by
    intro es
    induction es with
    | nil => exact fun _ s hs => hs
    | cons e es ih =>
      intro hes s hs
      rw [syncIssuedEntries]
      split_ifs
      · exact hs
      · refine ih (fun e' he' => hes e' (List.mem_cons_of_mem _ he')) _ ?_
        exact hstep e (hes e List.mem_cons_self) _ _ hs (syncIssuedEntry_change env imp s.1 s.2 e)
  rw [syncIssuedInventory]
  split_ifs
  · exact h
  · exact hloop _ (fun _ he => he) _ h

/-- What one turn of an import of revoked certificates does to the table. -/
inductive RevokedChange (certs : List Certificate) : List Certificate → Prop
  | same : RevokedChange certs certs
  /-- A row is revoked. -/
  | revoked (id : String) (now : ℤ) (reason : String) :
    RevokedChange certs (Rows.updateWhere (fun c => c.id = id) (revokeRow now reason) certs)
  /-- A revoked row is inserted. -/
  | created (row : Certificate) : row.certPem = none → row.revokedAt.isSome = true →
    UniqueCerts (certs ++ [row]) → RevokedChange certs (certs ++ [row])

/-- **The rule for an import of a list of revoked certificates.** -/
theorem syncRevokedInventory_induction {I : List Certificate → Prop}
    (hstep : ∀ certs certs', I certs → RevokedChange certs certs' → I certs') {env : SyncEnv}
    {certs : List Certificate} {rootCaID issuedByName text : String}
    (h : I certs) : I (syncRevokedInventory env certs rootCaID issuedByName text).1.1 := by
  have hname : ∀ (s s' : List Certificate × RevokedSyncStats) (cn : String),
      syncRevokedName env rootCaID issuedByName s cn = some s' → RevokedChange s.1 s'.1 := by
    rintro ⟨certs, stats⟩ s' cn hs'
    rw [syncRevokedName] at hs'
    cases hfind : findCertByCNAndNode env.choice certs cn none with
    | some c =>
      simp only [hfind] at hs'
      split_ifs at hs' <;> cases hs'
      · exact .same
      · exact .same
      · exact .revoked _ _ _
    | none =>
      simp only [hfind] at hs'
      split_ifs at hs'
      split at hs'
      · next certs' hw =>
        cases hs'
        obtain ⟨huniq, rfl⟩ := syncWrite_eq_some hw
        exact .created _ rfl rfl huniq
      · cases hs'
        exact .same
  have hloop : ∀ (cns : List String) (s : List Certificate × RevokedSyncStats), I s.1 →
      I (syncRevokedNames env rootCaID issuedByName s cns).1.1 := by
    intro cns
    induction cns with
    | nil => exact fun s hs => hs
    | cons cn cns ih =>
      intro s hs
      rw [syncRevokedNames]
      cases hs' : syncRevokedName env rootCaID issuedByName s cn with
      | none => exact hs
      | some s' => exact ih s' (hstep _ _ hs (hname s s' cn hs'))
  rw [syncRevokedInventory]
  split_ifs
  · exact h
  · exact hloop _ _ h

/-- **The rule for an import of a revocation list.** -/
theorem syncRevokedFromCRL_induction {x : X509} {I : List Certificate → Prop}
    (hstep : ∀ certs certs', I certs → RevokedChange certs certs' → I certs') {env : SyncEnv}
    {certs : List Certificate} {rootCaID pemText : String}
    (h : I certs) : I (syncRevokedFromCRL x env certs rootCaID pemText).1.1 := by
  have hloop : ∀ (read : List Certificate) (serials : List String)
      (s : List Certificate × RevokedCrlSyncStats), I s.1 →
      I (syncRevokedSerials env rootCaID read s serials).1.1 := by
    intro read serials
    induction serials with
    | nil => exact fun s hs => hs
    | cons serial serials ih =>
      intro s hs
      rw [syncRevokedSerials]
      cases findBySerial env read rootCaID serial with
      | none => exact ih _ hs
      | some existing =>
        dsimp only
        split_ifs
        · exact ih _ hs
        · exact hs
        · exact ih _ (hstep _ _ hs (.revoked _ _ _))
  rw [syncRevokedFromCRL]
  cases revokedSerialSetFromCRL x pemText with
  | none => exact h
  | some serials => exact hloop _ _ _ h

end OpenvpnControl.Cert
