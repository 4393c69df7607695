import OpenvpnControl.Crl.Generate
import OpenvpnControl.Handlers.ProfileMail
import OpenvpnControl.Library.Regexp

/-!
# The files of a root

The handlers that export a root as files, and that import a root with its inventory from such files.

An export writes the certificate, the key, the index or the revocation list of a root. An import
takes the texts of such files in one request, stores the root, and runs the import of an inventory
on each text; it tells by the look of a text whether it is a revocation list or an index.

## Main definitions

* `Certificates.rootCAExport`: the handler that answers a file.
* `Cert.isProbablyCrlPem`: the test that tells a revocation list from an inventory.
* `Certificates.rootCAImport`: the handler that stores a root and reads its inventory.

## Main results

* `Certificates.rootCAExport_index`, `Certificates.rootCAExport_crl`: what an exported file holds.
* `Certificates.rootCAImport_of_ok`: what a request that is not refused has passed and leaves.
-/

namespace OpenvpnControl.Cert

/-- A text in either case. -/
def foldedText (s : String) : Regexp :=
  .all (s.toList.map fun c => .char fun d => GoStrings.foldRune d = GoStrings.foldRune c)

/-- `\s+`. -/
def regexpSpaces : Regexp := .plus (.char Regexp.space)

def crlPEMHeader1 : Regexp := .all [foldedText "BEGIN", regexpSpaces, foldedText "X509",
    regexpSpaces, foldedText "CRL"]

def crlPEMHeader2 : Regexp :=
  .all [foldedText "BEGIN", regexpSpaces, foldedText "CERTIFICATE", regexpSpaces,
    foldedText "REVOCATION", regexpSpaces, foldedText "LIST"]

def isProbablyCrlPem (text : String) : Bool :=
  let t := GoStrings.trimSpace text
  (crlPEMHeader1.find t).isSome || (crlPEMHeader2.find t).isSome

end OpenvpnControl.Cert

namespace OpenvpnControl.Handlers.Certificates

open Cert (IndexCertRow SyncEnv X509)
open Panel (Certificate Db RootCertificateAuthority)
open Refusals (require fetch)

/-! ### Exporting -/

/-- An answer of `RootCAExport`. -/
structure ExportedFile where
  fileName : String
  contentBase64 : String
  deriving DecidableEq

/-- A file with a text. -/
def exportedFile (fileName content : String) : ExportedFile :=
  ⟨fileName, base64Text (GoStrings.bytes content)⟩

/-- `ORDER BY "createdAt" ASC`, which leaves rows of one time in any order. -/
structure CreatedOrder where
  rows : List Certificate → List Certificate
  perm : ∀ certs, (rows certs).Perm certs
  sorted : ∀ certs, (rows certs).Pairwise (·.createdAt ≤ ·.createdAt)

/-- The row of an index; a column is in seconds. -/
def indexRow (c : Certificate) : IndexCertRow :=
  ⟨c.commonName, c.serialNumber, c.expiresAt * Cert.second, c.revokedAt.map (· * Cert.second)⟩

def fetchIndexRows (order : CreatedOrder) (db : Db) (rootCaID : String) : List IndexCertRow :=
  (order.rows (db.certs.filter (·.rootCaId = some rootCaID))).map indexRow

/-- `fetchRevokedRows`; a column is in seconds. -/
def fetchRevokedRows (db : Db) (rootCaID : String) : List OpenvpnControl.Certificates.RevokedRow :=
  (OpenvpnControl.Certificates.crlRows db.certs rootCaID).map fun row =>
    { row with expiresAt := row.expiresAt * Cert.second, revokedAt := row.revokedAt * Cert.second }

/-- The handler `RootCAExport`, where `gencrl` is the command that makes a revocation list in the
directory `dirUnix`. -/
def rootCAExport (order : CreatedOrder) (gencrl : Crl.CaFiles → Except (String × String) String)
    (dirUnix : String) (db : Db) (rootCaID kind : String) : Except Refusal ExportedFile := do
  let rootCaID := GoStrings.trimSpace rootCaID
  let kind := GoStrings.toLower (GoStrings.trimSpace kind)
  let root ← fetch (db.root rootCaID) rootNotFound
  if kind = "root_crt" then return exportedFile "root.crt" root.certPem
  else if kind = "root_key" then return exportedFile "root.key" root.keyPem
  else if kind = "index" then
    return exportedFile "index.txt" (Cert.buildIndexTxt (fetchIndexRows order db rootCaID))
  else if kind = "crl" then
    let pem ← (Crl.generatePEM gencrl dirUnix root.certPem root.keyPem
        (fetchRevokedRows db rootCaID)).mapError fun _ =>
      ⟨422, "Невозможно сформировать CRL: корневой сертификат и приватный ключ не совпадают или повреждены."⟩
    return exportedFile "crl.pem" pem
  else .error ⟨400, "kind должен быть root_crt, root_key, index или crl"⟩

/-! ### Importing -/

/-- What the inventory of an import leaves. An import that a failed statement has ended is answered
with an error, and what it has written stays. -/
structure InventoryImport (σ : Type) where
  certs : List Certificate
  stats : Option σ
  complete : Bool

/-- What an import of a root leaves. -/
structure RootImport where
  db : Db
  rootCaID : String
  issued : Option Cert.IssuedSyncStats
  revoked : Option (Cert.RevokedCrlSyncStats ⊕ Cert.RevokedSyncStats)
  complete : Bool

/-- The column `commonName` of an imported root. -/
def rootCommonName (x : X509) (certPEM commonName : String) : String :=
  if commonName ≠ "" then commonName
  else match Cert.subjectCN x certPEM with
    | .ok cn => if cn ≠ "" then cn else "Импортированный корневой сертификат"
    | .error _ => "Импортированный корневой сертификат"

/-- The table a new root leaves, refused when a unique column would have a value twice. -/
def storeRoots (roots : List RootCertificateAuthority) : Option (List RootCertificateAuthority) :=
  if Rows.HasKey (·.id) roots ∧ Rows.HasKey (·.name) roots then some roots else none

variable (x : X509) (env : HandlerEnv) (syncEnv : SyncEnv)

/-- The import of `issuedList`. -/
def importIssued (certs : List Certificate) (id name issuedText : String) :
    InventoryImport Cert.IssuedSyncStats :=
  if issuedText = "" then ⟨certs, none, true⟩
  else
    let synced := Cert.syncIssuedInventory syncEnv ⟨id, name, none⟩ certs issuedText
    ⟨synced.1.1, some synced.1.2, synced.2⟩

/-- The import of `revokedList`. -/
def importRevoked (certs : List Certificate) (id name revokedText : String) :
    InventoryImport (Cert.RevokedCrlSyncStats ⊕ Cert.RevokedSyncStats) :=
  if revokedText = "" then ⟨certs, none, true⟩
  else if Cert.isProbablyCrlPem revokedText then
    let synced := Cert.syncRevokedFromCRL x syncEnv certs id revokedText
    ⟨synced.1.1, some (.inl synced.1.2), synced.2⟩
  else
    let synced := Cert.syncRevokedInventory syncEnv certs id name revokedText
    ⟨synced.1.1, some (.inr synced.1.2), synced.2⟩

/-- The imports of both lists, of which the first may end the request. -/
def importInventory (db : Db) (id name issuedText revokedText : String) : RootImport :=
  let issued := importIssued syncEnv db.certs id name issuedText
  if issued.complete = false then ⟨{ db with certs := issued.certs }, id, issued.stats, none, false⟩
  else
    let revoked := importRevoked x syncEnv issued.certs id name revokedText
    ⟨{ db with certs := revoked.certs }, id, issued.stats, revoked.stats, revoked.complete⟩

/-- The handler `RootCAImport`. -/
def rootCAImport (db : Db) (body : Option Fields) : Except Refusal RootImport := do
  let body ← fetch body invalidJson
  let certPEM := textField body "certPem"
  let keyPEM := textField body "keyPem"
  require (certPEM ≠ "" ∧ keyPEM ≠ "") ⟨400, "certPem and keyPem are required"⟩
  require (GoStrings.contains certPEM "BEGIN CERTIFICATE" = true ∧
    GoStrings.contains keyPEM "BEGIN" = true) ⟨400, "Invalid PEM payload"⟩
  (Cert.keysMatch x certPEM keyPEM).mapError fun _ =>
    ⟨422, "Импорт невозможен: корневой сертификат и приватный ключ не совпадают."⟩
  let commonName := rootCommonName x certPEM (textField body "commonName")
  let name := if textField body "name" = "" then commonName else textField body "name"
  let id := env.ksuid (db.roots.map (·.id))
  let roots ← fetch (storeRoots (db.roots ++ [⟨id, name, commonName, certPEM, keyPEM⟩]))
    ⟨409, "Корневой сертификат с таким именем уже существует"⟩
  return importInventory x syncEnv
    (enqueueCrlDeploy { db with roots := roots } env (some id)) id name
    (textField body "issuedList") (textField body "revokedList")

/-! ### What a request has passed -/

section Export

variable {order : CreatedOrder} {gencrl : Crl.CaFiles → Except (String × String) String}
  {dirUnix : String} {db : Db} {rootCaID : String} {file : ExportedFile}

/-- **An exported index.** -/
theorem rootCAExport_index (h : rootCAExport order gencrl dirUnix db rootCaID "index" = .ok file) :
    file = exportedFile "index.txt"
    (Cert.buildIndexTxt (fetchIndexRows order db (GoStrings.trimSpace rootCaID))) := by
  have hkind : GoStrings.toLower (GoStrings.trimSpace "index") = "index" := by decide +kernel
  simp only [rootCAExport, hkind, Refusals.fetch_bind_eq_ok] at h
  obtain ⟨root, -, h⟩ := h
  rw [if_neg (by decide), if_neg (by decide), if_pos trivial, Refusals.pure_eq_ok] at h
  exact h.symm

/-- **An exported revocation list.** -/
theorem rootCAExport_crl (h : rootCAExport order gencrl dirUnix db rootCaID "crl" = .ok file) :
    ∃ root pem, db.root (GoStrings.trimSpace rootCaID) = some root ∧
      file = exportedFile "crl.pem" pem ∧ gencrl (Crl.caFiles dirUnix root.certPem root.keyPem
        (fetchRevokedRows db (GoStrings.trimSpace rootCaID))) = .ok pem := by
  have hkind : GoStrings.toLower (GoStrings.trimSpace "crl") = "crl" := by decide +kernel
  simp only [rootCAExport, hkind, Refusals.fetch_bind_eq_ok] at h
  obtain ⟨root, hroot, h⟩ := h
  rw [if_neg (by decide), if_neg (by decide), if_neg (by decide), if_pos trivial,
    Refusals.bind_eq_ok] at h
  obtain ⟨pem, hpem, h⟩ := h
  rw [Refusals.mapError_eq_ok, Crl.generatePEM] at hpem
  refine ⟨root, pem, hroot, (Refusals.pure_eq_ok.1 h).symm, ?_⟩
  cases hgen : gencrl (Crl.caFiles dirUnix root.certPem root.keyPem
      (fetchRevokedRows db (GoStrings.trimSpace rootCaID))) with
  | error e =>
    rw [hgen] at hpem
    cases hpem
  | ok data =>
    rw [hgen] at hpem
    exact congrArg _ (Except.ok.inj hpem)

end Export

variable {x env syncEnv} {db : Db}

/-- **An imported root** has a new id, and its inventory is read into the certificates there are. -/
theorem rootCAImport_of_ok {fields : Fields} {out : RootImport}
    (h : rootCAImport x env syncEnv db (some fields) = .ok out) :
    ∃ stored id name, id ∉ db.roots.map (·.id) ∧ stored.certs = db.certs ∧
      out = importInventory x syncEnv stored id name (textField fields "issuedList")
      (textField fields "revokedList") := by
  simp only [rootCAImport, Refusals.bind_eq_ok, Refusals.fetch_eq_ok, Refusals.require_eq_ok,
    Refusals.mapError_eq_ok, Refusals.pure_eq_ok, Option.some.injEq] at h
  obtain ⟨_, rfl, -, -, -, -, -, -, roots, hroots, rfl⟩ := h
  refine ⟨_, _, _, fun hmem => ?_, ?_, rfl⟩
  · rw [storeRoots] at hroots
    obtain ⟨hkeys, -⟩ := (Option.ite_none_right_eq_some.1 hroots)
    have hnodup := hkeys.1
    rw [Rows.HasKey, List.map_append, List.nodup_append] at hnodup
    exact hnodup.2.2 _ hmem _ (List.mem_singleton_self _) rfl
  · rfl

end OpenvpnControl.Handlers.Certificates
