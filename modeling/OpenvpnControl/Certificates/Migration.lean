import OpenvpnControl.Cert.IndexEntries
import OpenvpnControl.Cert.IssuedRuns
import OpenvpnControl.Handlers.RootFiles

/-!
# Moving a root

A root is moved to another panel with the files that are exported for it: the index, and the
revocation list. The import reads the index first, and takes no revoked certificate from it; the
revocation list then revokes the certificates that are there. This file proves that the valid
certificates arrive, and no revocation does.

## Main definitions

* `Movable`: the condition on the certificates of a root.
* `Apart`: the condition on the certificates of the other panel.
* `ListsRows`: what a revocation list names.
* `Carries`: a request has the exported files.

## Main results

* `syncTurns_created`: an import of new names makes one row for each.
* `syncRevokedSerials_of_none`: a revocation list that names no row of a root leaves the table
  alone.
* `rootCAImport_exported`: what a moved root brings.
-/

namespace OpenvpnControl.Certificates

open Cert (IndexCertRow IssuedEntry IssuedImport SyncEnv X509 normalizeSerialHex serialHexBigInt
  syncTurn syncTurns upperHex)
open Handlers (Fields HandlerEnv textField)
open Handlers.Certificates
  (CreatedOrder ExportedFile RootImport exportedFile fetchIndexRows fetchRevokedRows
  importInventory importIssued importRevoked indexRow rootCAExport rootCAImport)
open Panel (Certificate Db UniqueCerts)

/-- What a row says. -/
def rowEntry (c : Certificate) : IssuedEntry := ⟨c.commonName, c.serialNumber, c.expiresAt⟩

/-- A valid row of a root. -/
def ValidOf (rootCaID : String) (c : Certificate) : Prop :=
  c.rootCaId = some rootCaID ∧ c.revokedAt = none

instance (rootCaID : String) (c : Certificate) : Decidable (ValidOf rootCaID c) :=
  inferInstanceAs (Decidable (_ ∧ _))

/-- A row that an import has made for a root and a node: it has no user, no text and no key. -/
structure IsImported (rootCaID : String) (agentNodeID : Option String)
    (c : Certificate) : Prop where
  root : c.rootCaId = some rootCaID
  node : c.agentNodeId = agentNodeID
  user : c.vpnUserId = none
  cert : c.certPem = none
  key : c.keyPem = none
  revoked : c.revokedAt = none

/-! ### The import of the index -/

section Issued

variable {env : SyncEnv} {imp : IssuedImport} {now : ℤ} {certs : List Certificate}

/-- A row that keeps an entry from being imported as a new row. -/
def Blocks (imp : IssuedImport) (e : IssuedEntry) (c : Certificate) : Prop :=
  c.commonName = e.cn ∧ c.agentNodeId = imp.agentNodeID ∨ c.serialNumber = e.serialHex

/-- One turn for a new name. -/
theorem syncTurn_created (henv : env.Answers now) (huniq : UniqueCerts certs) {e : IssuedEntry}
    (hserial : e.serialHex ≠ "") (hfree : ∀ c ∈ certs, ¬Blocks imp e c) :
    ∃ row, syncTurn env imp certs e = certs ++ [row] ∧ rowEntry row = e ∧
    IsImported imp.rootCaID imp.agentNodeID row := by
  have hfound : ∀ {c}, Cert.findCertByCNAndNode env.choice certs e.cn imp.agentNodeID =
      some c → False := by
    intro c hfind
    obtain ⟨hc, hcn, hnode⟩ := Cert.mem_of_findCert hfind
    exact hfree c hc (Or.inl ⟨hcn, hnode⟩)
  have hturn := Cert.turn_syncTurn imp henv huniq e
  generalize syncTurn env imp certs e = table at hturn ⊢
  cases hturn with
  | foreign hfind => exact (hfound hfind).elim
  | settled hfind => exact (hfound hfind).elim
  | refused hfind => exact (hfound hfind).elim
  | moved hfind => exact (hfound hfind).elim
  | taken _ hd heq =>
    rw [IssuedEntry.serial_of_ne env hserial] at heq
    exact (hfree _ hd (Or.inr heq)).elim
  | created =>
    rw [IssuedEntry.serial_of_ne env hserial]
    exact ⟨_, rfl, rfl, rfl, rfl, rfl, rfl, rfl, rfl⟩

/-- **An import of new names makes one row for each**, and leaves the others alone. -/
theorem syncTurns_created (henv : env.Answers now) (huniq : UniqueCerts certs)
    {es : List IssuedEntry} (hserial : ∀ e ∈ es, e.serialHex ≠ "") (hnames : (es.map (·.cn)).Nodup)
    (hserials : (es.map (·.serialHex)).Nodup) (hfree : ∀ e ∈ es, ∀ c ∈ certs, ¬Blocks imp e c) :
    ∃ created, syncTurns env imp certs es = certs ++ created ∧ created.map rowEntry = es ∧
      ∀ c ∈ created, IsImported imp.rootCaID imp.agentNodeID c := by
  induction es generalizing certs with
  | nil => exact ⟨[], (List.append_nil certs).symm, rfl, fun c hc => absurd hc List.not_mem_nil⟩
  | cons e es ih =>
    obtain ⟨he, hes⟩ := List.forall_mem_cons.1 hserial
    obtain ⟨hfe, hfes⟩ := List.forall_mem_cons.1 hfree
    rw [List.map_cons, List.nodup_cons] at hnames hserials
    obtain ⟨row, hrow, hentry, himp⟩ := syncTurn_created henv huniq he hfe
    have hcnrow : row.commonName = e.cn := by rw [← hentry, rowEntry]
    have hserialrow : row.serialNumber = e.serialHex := by rw [← hentry, rowEntry]
    have huniq' := (Cert.turn_syncTurn imp henv huniq e).uniqueCerts henv huniq
    rw [hrow] at huniq'
    have hother : ∀ e' ∈ es, ∀ c ∈ certs ++ [row], ¬Blocks imp e' c := by
      intro e' he' c hc hblocks
      rcases List.mem_append.1 hc with hc | hc
      · exact hfes e' he' c hc hblocks
      · rw [List.mem_singleton.1 hc] at hblocks
        rcases hblocks with ⟨hcn, -⟩ | hserial
        · exact hnames.1 (List.mem_map.2 ⟨e', he', hcn.symm.trans hcnrow⟩)
        · exact hserials.1 (List.mem_map.2 ⟨e', he', hserial.symm.trans hserialrow⟩)
    obtain ⟨created, htable, hcreated, himported⟩ := ih huniq' hes hnames.2 hserials.2 hother
    refine ⟨row :: created, ?_, ?_, ?_⟩
    · rw [Cert.syncTurns_cons, hrow, htable, List.append_assoc, List.singleton_append]
    · rw [List.map_cons, hentry, hcreated]
    · exact List.forall_mem_cons.2 ⟨himp, himported⟩

end Issued

/-! ### The import of the revocation list -/

/-- **A list that names no row of the root** leaves the table alone, and is read to its end. -/
theorem syncRevokedSerials_of_none {env : SyncEnv} {rootCaID : String}
    {read certs : List Certificate} {stats : Cert.RevokedCrlSyncStats} {serials : List String}
    (h : ∀ serial ∈ serials, Cert.findBySerial env read rootCaID serial = none) :
    (Cert.syncRevokedSerials env rootCaID read (certs, stats) serials).1.1 = certs ∧
      (Cert.syncRevokedSerials env rootCaID read (certs, stats) serials).2 = true := by
  induction serials generalizing stats with
  | nil => exact ⟨rfl, rfl⟩
  | cons serial serials ih =>
    obtain ⟨hserial, hserials⟩ := List.forall_mem_cons.1 h
    rw [Cert.syncRevokedSerials, hserial]
    exact ih hserials

/-! ### A root that is moved -/

/-- The certificates of a root that an index carries: each of them is written as a line that is read
back, has a serial number in normal form, and the valid ones have names of their own. -/
structure Movable (certs : List Certificate) (rootCaID : String) : Prop where
  plain : ∀ c ∈ certs, c.rootCaId = some rootCaID → (indexRow c).Plain
  normal : ∀ c ∈ certs, c.rootCaId = some rootCaID →
    normalizeSerialHex c.serialNumber = c.serialNumber
  names : ((certs.filter (ValidOf rootCaID)).map fun c => GoStrings.trimSpace c.commonName).Nodup

/-- What a valid certificate says after it is moved. -/
def movedEntry (c : Certificate) : IssuedEntry := ⟨GoStrings.trimSpace c.commonName,
    c.serialNumber, c.expiresAt⟩

/-- No certificate of the other panel has the serial number of a valid one, or its name and no
node. -/
def Apart (other certs : List Certificate) (rootCaID : String) : Prop :=
  ∀ c ∈ other, ∀ d ∈ certs, ValidOf rootCaID d →
    ¬(c.commonName = GoStrings.trimSpace d.commonName ∧ c.agentNodeId = none ∨
    c.serialNumber = d.serialNumber)

/-- What `openssl` writes for some revoked rows, and what is read of it: a text with the header of a
revocation list, that names certificates of the rows when their serial numbers are in normal
form. -/
structure ListsRows (x : X509) (gencrl : Crl.CaFiles → Except (String × String) String)
    (revoked : List RevokedRow) :
    Prop where
  header : ∀ dirUnix certPEM keyPEM pem,
    gencrl (Crl.caFiles dirUnix certPEM keyPEM revoked) = .ok pem →
    Cert.isProbablyCrlPem (GoStrings.trimSpace pem) = true
  numbers : (∀ row ∈ revoked, row.serialNumber ≠ "" ∧
    normalizeSerialHex row.serialNumber = row.serialNumber) →
    ∀ dirUnix certPEM keyPEM pem, gencrl (Crl.caFiles dirUnix certPEM keyPEM revoked) = .ok pem →
      ∃ numbers, x.parseRevocationList (GoStrings.trimSpace pem) = some numbers ∧
        ∀ n ∈ numbers, n ≠ 0 → ∃ row ∈ revoked, row.serialNumber = upperHex n.natAbs

/-- The text of a field is the content of an exported file. -/
def Carries (fields : Fields) (key : String) (file : ExportedFile) : Prop :=
  Base64.decode (GoStrings.bytes file.contentBase64) =
    some (GoStrings.bytes (Handlers.strAny (Json.field fields key)))

theorem carries_exportedFile {fields : Fields} {key fileName content : String} :
    Carries fields key (exportedFile fileName content) ↔
    Handlers.strAny (Json.field fields key) = content := by
  rw [Carries, exportedFile, Handlers.bytes_base64Text, Base64.decode_encode,
    Option.some.injEq, GoStrings.bytes_inj, eq_comm]

theorem Carries.textField_eq {fields : Fields} {key fileName content : String}
    (h : Carries fields key (exportedFile fileName content)) :
    textField fields key = GoStrings.trimSpace content := by
  rw [textField, carries_exportedFile.1 h]

section Moved

variable {order : CreatedOrder} {certs : List Certificate} {rootCaID : String}

theorem indexRow_revokedAt (c : Certificate) : (indexRow c).revokedAt = none ↔ c.revokedAt = none :=
  Option.map_eq_none_iff

theorem unix_mul_second (t : ℤ) : Cert.unix (t * Cert.second) = t :=
  Int.mul_ediv_cancel t (by decide)

theorem Movable.serial_ne (hmove : Movable certs rootCaID) {c : Certificate} (hc : c ∈ certs)
    (hroot : c.rootCaId = some rootCaID) : c.serialNumber ≠ "" := by
  have hplain := (hmove.plain c hc hroot).serial
  rwa [indexRow, hmove.normal c hc hroot] at hplain

/-- What the line of a row says. -/
theorem Movable.entry_indexRow (hmove : Movable certs rootCaID) {c : Certificate} (hc : c ∈ certs)
    (hroot : c.rootCaId = some rootCaID) : (indexRow c).entry = movedEntry c := by
  rw [IndexCertRow.entry, indexRow, unix_mul_second, hmove.normal c hc hroot, movedEntry]

/-- The valid rows of an index, in the order of the export. -/
theorem valid_perm (order : CreatedOrder) (certs : List Certificate) (rootCaID : String) :
    ((order.rows (certs.filter (·.rootCaId = some rootCaID))).filter (·.revokedAt = none)).Perm
      (certs.filter (ValidOf rootCaID)) := by
  have hvalid : (certs.filter (·.rootCaId = some rootCaID)).filter (·.revokedAt = none) =
      certs.filter (ValidOf rootCaID) := by
    rw [List.filter_filter]
    exact List.filter_congr fun c _ => by simp [ValidOf, and_comm]
  rw [← hvalid]
  exact (order.perm _).filter _

/-- **The entries of an exported index** are the valid certificates. -/
theorem Movable.issuedEntries_perm {db : Db} (hmove : Movable db.certs rootCaID)
    (order : CreatedOrder) (defaultExp : ℤ) :
    (Cert.issuedEntries defaultExp (Cert.buildIndexTxt (fetchIndexRows order db rootCaID))).Perm
      ((db.certs.filter (ValidOf rootCaID)).map movedEntry) := by
  have hmem : ∀ c ∈ order.rows (db.certs.filter (·.rootCaId = some rootCaID)),
      c ∈ db.certs ∧ c.rootCaId = some rootCaID := by
    intro c hc
    obtain ⟨hc, hroot⟩ := List.mem_filter.1 ((order.perm _).mem_iff.1 hc)
    exact ⟨hc, of_decide_eq_true hroot⟩
  have hplain : ∀ row ∈ fetchIndexRows order db rootCaID, row.Plain := by
    intro row hrow
    obtain ⟨c, hc, rfl⟩ := List.mem_map.1 hrow
    exact hmove.plain c (hmem c hc).1 (hmem c hc).2
  have hrows : (fetchIndexRows order db rootCaID).filter (·.revokedAt = none) =
      ((order.rows (db.certs.filter (·.rootCaId = some rootCaID))).filter (·.revokedAt = none)).map
      indexRow := by
    rw [fetchIndexRows, List.filter_map]
    refine congrArg _ (List.filter_congr fun c _ => ?_)
    rw [Function.comp_apply, decide_eq_decide]
    exact indexRow_revokedAt c
  have hentries : ((fetchIndexRows order db rootCaID).filter (·.revokedAt = none)).map (·.entry) =
      ((order.rows (db.certs.filter (·.rootCaId = some rootCaID))).filter (·.revokedAt = none)).map
      movedEntry := by
    rw [hrows, List.map_map]
    refine List.map_congr_left fun c hc => ?_
    obtain ⟨hc, hroot⟩ := hmem c (List.mem_filter.1 hc).1
    exact hmove.entry_indexRow hc hroot
  have hnames : (((fetchIndexRows order db rootCaID).filter (·.revokedAt = none)).map
      (·.entry.cn)).Nodup := by
    have hcns := congrArg (List.map (·.cn)) hentries
    rw [List.map_map, List.map_map] at hcns
    have hperm := (valid_perm order db.certs rootCaID).map fun c => GoStrings.trimSpace c.commonName
    exact hcns ▸ hperm.nodup_iff.2 hmove.names
  rw [Cert.issuedEntries_buildIndexTxt hplain hnames, hentries]
  exact (valid_perm order db.certs rootCaID).map movedEntry

end Moved

variable {x : X509} {gencrl : Crl.CaFiles → Except (String × String) String} {order : CreatedOrder}
  {dirUnix : String} {src : Db} {rootCaID : String}

/-- A serial number of a revocation list, in normal form. -/
theorem normalizeSerialHex_serialHexBigInt_int {n : ℤ} (h : n ≠ 0) :
    normalizeSerialHex (serialHexBigInt n) = upperHex n.natAbs := by
  have habs : serialHexBigInt n = serialHexBigInt (n.natAbs : ℤ) := by
    simp only [serialHexBigInt, Int.natAbs_natCast, Int.natCast_eq_zero, Int.natAbs_eq_zero]
  rw [habs, Cert.normalizeSerialHex_serialHexBigInt (Int.natAbs_ne_zero.2 h)]

/-- The serial numbers that an exported revocation list is read as are those of revoked certificates
of the root. -/
theorem ListsRows.revokedSerialSet (hlib : ListsRows x gencrl (fetchRevokedRows src rootCaID))
    (hmove : Movable src.certs rootCaID) {certPEM keyPEM pem : String}
    (hpem : gencrl (Crl.caFiles dirUnix certPEM keyPEM (fetchRevokedRows src rootCaID)) = .ok pem) :
    ∃ serials, Cert.revokedSerialSetFromCRL x (GoStrings.trimSpace pem) = some serials ∧
      ∀ serial ∈ serials, ∃ c ∈ src.certs, c.rootCaId = some rootCaID ∧ c.revokedAt ≠ none ∧
      c.serialNumber = serial := by
  have hrow : ∀ row ∈ fetchRevokedRows src rootCaID,
      ∃ c ∈ src.certs, c.rootCaId = some rootCaID ∧ c.revokedAt ≠ none ∧
      c.serialNumber = row.serialNumber := by
    intro row hrow
    obtain ⟨row, hlisted, rfl⟩ := List.mem_map.1 hrow
    obtain ⟨c, hc, hroot, hrev, hserial, -⟩ := mem_crlRows.1 hlisted
    exact ⟨c, hc, hroot, by simp [hrev], hserial⟩
  have hnormal : ∀ row ∈ fetchRevokedRows src rootCaID,
      row.serialNumber ≠ "" ∧ normalizeSerialHex row.serialNumber = row.serialNumber := by
    intro row h
    obtain ⟨c, hc, hroot, -, hserial⟩ := hrow row h
    rw [← hserial]
    exact ⟨hmove.serial_ne hc hroot, hmove.normal c hc hroot⟩
  obtain ⟨numbers, hparse, hnumbers⟩ := hlib.numbers hnormal dirUnix certPEM keyPEM pem hpem
  refine ⟨_, by rw [Cert.revokedSerialSetFromCRL, GoStrings.trimSpace_trimSpace,
    hparse, Option.map_some], ?_⟩
  intro serial hserial
  rw [List.mem_dedup, List.mem_filter, List.mem_map] at hserial
  obtain ⟨⟨n, hn, rfl⟩, hne⟩ := hserial
  have hzero : n ≠ 0 := by
    rintro rfl
    exact absurd Cert.normalizeSerialHex_serialHexBigInt_zero (of_decide_eq_true hne)
  obtain ⟨row, hmem, hrowserial⟩ := hnumbers n hn hzero
  obtain ⟨c, hc, hroot, hrev, hcserial⟩ := hrow row hmem
  exact ⟨c, hc, hroot, hrev,
    by rw [hcserial, hrowserial, normalizeSerialHex_serialHexBigInt_int hzero]⟩

/-- **The import of an exported index** makes a row for each valid certificate. -/
theorem importIssued_exported {dst : Db} {syncEnv : SyncEnv} {now : ℤ}
    (hsrc : UniqueCerts src.certs) (hmove : Movable src.certs rootCaID) (henv : syncEnv.Answers now)
    (hdst : UniqueCerts dst.certs) (hapart : Apart dst.certs src.certs rootCaID)
    (order : CreatedOrder) (id name : String) :
    ∃ created stats, importIssued syncEnv dst.certs id name
        (GoStrings.trimSpace (Cert.buildIndexTxt (fetchIndexRows order src rootCaID))) =
          ⟨dst.certs ++ created, stats, true⟩ ∧
      (created.map rowEntry).Perm ((src.certs.filter (ValidOf rootCaID)).map movedEntry) ∧
      ∀ c ∈ created, IsImported id none c := by
  generalize htext : GoStrings.trimSpace (Cert.buildIndexTxt (fetchIndexRows order src rootCaID)) =
    text
  have hperm : (syncEnv.entries text).Perm
      ((src.certs.filter (ValidOf rootCaID)).map movedEntry) := by
    have hentries := hmove.issuedEntries_perm order (now + Cert.defaultImportedExpiry)
    rw [← Cert.issuedEntries_trimSpace, htext] at hentries
    exact (henv.perm_entries text).trans hentries
  have hvalid : ∀ e ∈ syncEnv.entries text, ∃ d ∈ src.certs,
      ValidOf rootCaID d ∧ movedEntry d = e := by
    intro e he
    obtain ⟨d, hd, rfl⟩ := List.mem_map.1 (hperm.mem_iff.1 he)
    obtain ⟨hd, hdv⟩ := List.mem_filter.1 hd
    exact ⟨d, hd, of_decide_eq_true hdv, rfl⟩
  have hserials : ((syncEnv.entries text).map (·.serialHex)).Nodup := by
    rw [(hperm.map (·.serialHex)).nodup_iff, List.map_map]
    exact hsrc.2.sublist (List.filter_sublist.map _)
  have hblank : ∀ e ∈ syncEnv.entries text, e.serialHex ≠ "" := by
    intro e he
    obtain ⟨d, hd, ⟨hroot, -⟩, rfl⟩ := hvalid e he
    exact hmove.serial_ne hd hroot
  have hblocks : ∀ e ∈ syncEnv.entries text, ∀ c ∈ dst.certs, ¬Blocks ⟨id, name, none⟩ e c := by
    intro e he c hc hb
    obtain ⟨d, hd, hdv, rfl⟩ := hvalid e he
    exact hapart c hc d hd hdv hb
  obtain ⟨created, htable, hcreated, himported⟩ :=
    syncTurns_created henv hdst hblank (syncEnv.entries_hasKey _)
    hserials hblocks
  obtain ⟨hcerts, -, hcomplete⟩ := Cert.syncIssuedInventory_eq henv ⟨id, name, none⟩ dst.certs text
  have hmade : (created.map rowEntry).Perm
      ((src.certs.filter (ValidOf rootCaID)).map movedEntry) := by
    rw [hcreated]
    exact hperm
  rw [importIssued]
  split_ifs with hempty
  · have hnil : syncEnv.entries text = [] := by
      have hall := henv.perm_entries text
      rw [hempty, Cert.issuedEntries_of_blank GoStrings.trimSpace_empty] at hall
      rw [hempty]
      exact List.perm_nil.1 hall
    refine ⟨created, none, ?_, hmade, himported⟩
    rw [hnil, List.map_eq_nil_iff] at hcreated
    rw [hcreated, List.append_nil]
  · refine ⟨created, some (Cert.syncIssuedInventory syncEnv ⟨id, name, none⟩ dst.certs text).1.2,
      ?_, hmade, himported⟩
    simp only [hcerts, htable, hcomplete]

/-- **The import of an exported revocation list** revokes no row of a root that has valid
certificates only. -/
theorem importRevoked_exported {syncEnv : SyncEnv} {certs : List Certificate}
    {id certPEM keyPEM pem : String}
    (hlib : ListsRows x gencrl (fetchRevokedRows src rootCaID)) (hsrc : UniqueCerts src.certs)
    (hmove : Movable src.certs rootCaID)
    (hpem : gencrl (Crl.caFiles dirUnix certPEM keyPEM (fetchRevokedRows src rootCaID)) = .ok pem)
    (hcerts : ∀ c ∈ certs, c.rootCaId = some id → ∃ d ∈ src.certs, ValidOf rootCaID d ∧
      c.serialNumber = d.serialNumber)
    (name : String) :
    (importRevoked x syncEnv certs id name (GoStrings.trimSpace pem)).certs = certs ∧
      (importRevoked x syncEnv certs id name (GoStrings.trimSpace pem)).complete = true := by
  rw [importRevoked]
  split_ifs with hempty hcrl
  · exact ⟨rfl, rfl⟩
  · obtain ⟨serials, hread, hserials⟩ := hlib.revokedSerialSet hmove hpem
    have hnone : ∀ serial ∈ syncEnv.serialOrder serials,
        Cert.findBySerial syncEnv certs id serial = none := by
      intro serial hserial
      obtain ⟨c, hc, -, hrev, rfl⟩ :=
        hserials serial ((syncEnv.serialOrder_perm serials).mem_iff.1 hserial)
      rw [Cert.findBySerial, Rows.Choice.select_eq_none]
      intro d hd
      refine decide_eq_false ?_
      rintro ⟨hroot, -, hnormal⟩
      obtain ⟨v, hv, ⟨hvroot, hvalid⟩, hserial⟩ := hcerts d hd hroot
      rw [hserial, hmove.normal v hv hvroot] at hnormal
      rw [← hsrc.2.eq_of_key hv hc hnormal] at hrev
      exact hrev hvalid
    have hloop := @syncRevokedSerials_of_none syncEnv id certs certs ⟨0, 0, 0⟩ _ hnone
    rw [Cert.syncRevokedFromCRL, hread]
    exact hloop
  · exact absurd (hlib.header _ _ _ _ hpem) hcrl

/-- **What a moved root brings**: a valid certificate for each that it had, without text, key and
user, and no revocation; the next revocation list of the root is empty. -/
theorem rootCAImport_exported {dst : Db} {index crl : ExportedFile} {env : HandlerEnv}
    {syncEnv : SyncEnv} {now : ℤ} {fields : Fields} {out : RootImport}
    (hlib : ListsRows x gencrl (fetchRevokedRows src (GoStrings.trimSpace rootCaID)))
    (hsrc : UniqueCerts src.certs) (hmove : Movable src.certs (GoStrings.trimSpace rootCaID))
    (hindex : rootCAExport order gencrl dirUnix src rootCaID "index" = .ok index)
    (hcrl : rootCAExport order gencrl dirUnix src rootCaID "crl" = .ok crl)
    (henv : syncEnv.Answers now)
    (hdst : UniqueCerts dst.certs) (hrefs : ∀ c ∈ dst.certs, ∀ id ∈ c.rootCaId,
    id ∈ dst.roots.map (·.id)) (hapart : Apart dst.certs src.certs (GoStrings.trimSpace rootCaID))
    (hissued : Carries fields "issuedList" index) (hrevoked : Carries fields "revokedList" crl)
    (h : rootCAImport x env syncEnv dst (some fields) = .ok out) :
    out.complete = true ∧ ∃ created, out.db.certs = dst.certs ++ created ∧
      (created.map rowEntry).Perm
      ((src.certs.filter (ValidOf (GoStrings.trimSpace rootCaID))).map movedEntry) ∧
      (∀ c ∈ created, IsImported out.rootCaID none c) ∧ crlRows out.db.certs out.rootCaID = [] := by
  obtain ⟨stored, id, name, hid, hstored, hout⟩ := Handlers.Certificates.rootCAImport_of_ok h
  rw [Handlers.Certificates.rootCAExport_index hindex] at hissued
  obtain ⟨root, pem, -, rfl, hpem⟩ := Handlers.Certificates.rootCAExport_crl hcrl
  obtain ⟨created, stats, hindexed, hperm, himported⟩ :=
    importIssued_exported hsrc hmove henv hdst hapart order id name
  -- the rows of the new root are those that the index made
  have hnew : ∀ c ∈ dst.certs ++ created, c.rootCaId = some id → c ∈ created := by
    intro c hc hroot
    rcases List.mem_append.1 hc with hc | hc
    · exact absurd (hrefs c hc id hroot) hid
    · exact hc
  have hserials : ∀ c ∈ dst.certs ++ created, c.rootCaId = some id →
      ∃ d ∈ src.certs, ValidOf (GoStrings.trimSpace rootCaID) d ∧
      c.serialNumber = d.serialNumber := by
    intro c hc hroot
    obtain ⟨d, hd, hentry⟩ :=
      List.mem_map.1 (hperm.mem_iff.1 (List.mem_map_of_mem (hnew c hc hroot)))
    obtain ⟨hd, hvalid⟩ := List.mem_filter.1 hd
    exact ⟨d, hd, of_decide_eq_true hvalid, (congrArg (·.serialHex) hentry).symm⟩
  obtain ⟨hcerts, hcomplete⟩ :=
    @importRevoked_exported _ _ _ _ _ syncEnv _ _ _ _ _ hlib hsrc hmove hpem hserials name
  simp only [importInventory, hstored, hissued.textField_eq, hindexed,
    hrevoked.textField_eq, Bool.true_eq_false, if_false, hcerts, hcomplete] at hout
  subst hout
  refine ⟨rfl, created, rfl, hperm, himported, ?_⟩
  rw [crlRows, List.filterMap_eq_nil_iff]
  intro c hc
  split_ifs with hroot
  · rw [(himported c (hnew c hc hroot)).revoked, Option.map_none]
  · rfl

/-- A root with a valid and a revoked certificate. -/
def twoCerts : Db :=
  { oneNode with
    certs :=
      [⟨"k1", "alice", "A1", "ca", some "r1", some "n1", none, none, none,
        1900000000, 1000, none, none⟩,
      ⟨"k2", "bob", "B2", "ca", some "r1", some "n1", none, none, none, 1900000000, 1000, some 2000,
        some "manual revoke"⟩] }

/-- The rows as they are stored. -/
def storageOrder : CreatedOrder where
  rows certs := certs.insertionSort (·.createdAt ≤ ·.createdAt)
  perm certs := List.perm_insertionSort _ certs
  sorted certs := List.pairwise_insertionSort _ certs

/-- The list that names the revoked one, where `openssl` reads its line. -/
def gencrlB2 (files : Crl.CaFiles) : Except (String × String) String :=
  if files.indexTxt = "R\t300317174640Z\t700101003320Z\tB2\tunknown\t/CN=bob\n" then
    .ok "-----BEGIN X509 CRL-----\nB2\n-----END X509 CRL-----\n"
  else .error ("exit status 1", "unable to load index")

/-- A library that reads the list. -/
def readsB2 : X509 :=
  { Cert.sampleX509 with
    parseRevocationList := fun text =>
      if text = "-----BEGIN X509 CRL-----\nB2\n-----END X509 CRL-----" then some [178] else none }

theorem gencrlB2_twoCerts {dirUnix certPEM keyPEM pem : String}
    (h : gencrlB2 (Crl.caFiles dirUnix certPEM keyPEM (fetchRevokedRows twoCerts "r1")) = .ok pem) :
    pem = "-----BEGIN X509 CRL-----\nB2\n-----END X509 CRL-----\n" := by
  rw [gencrlB2] at h
  split_ifs at h
  exact (Except.ok.inj h).symm

theorem listsRows_twoCerts : ListsRows readsB2 gencrlB2 (fetchRevokedRows twoCerts "r1") := by
  refine ⟨fun dirUnix certPEM keyPEM pem h => ?_, fun _ dirUnix certPEM keyPEM pem h => ?_⟩
  · rw [gencrlB2_twoCerts h]
    decide +kernel
  · rw [gencrlB2_twoCerts h]
    refine ⟨[178], by decide +kernel, fun n hn _ => ?_⟩
    rw [List.mem_singleton.1 hn]
    decide +kernel

/-- A panel with a certificate of another root. -/
def otherPanel : Db :=
  { Db.empty with
    roots := [⟨"r9", "other", "other", "BEGIN CERTIFICATE other", "BEGIN PRIVATE KEY other"⟩]
    certs :=
      [⟨"k9", "carol", "C3", "other", some "r9", none, none, none, none,
        1900000000, 1000, none, none⟩] }

/-- A request with both files. -/
def movedBody : Fields :=
  [("certPem", .str "BEGIN CERTIFICATE root"), ("keyPem", .str "BEGIN PRIVATE KEY root"),
    ("issuedList",
      .str "V\t300317174640Z\t\tA1\tunknown\t/CN=alice\nR\t300317174640Z\t700101003320Z\tB2\tunknown\t/CN=bob\n"),
    ("revokedList", .str "-----BEGIN X509 CRL-----\nB2\n-----END X509 CRL-----\n")]

theorem movable_twoCerts : Movable twoCerts.certs "r1" where
  plain := by
    intro c hc _
    rcases List.mem_cons.1 hc with rfl | hc
    · exact ⟨by decide +kernel, by decide, by decide +kernel, by unfold Cert.InUTCTime; decide,
        by simp [indexRow]⟩
    · rw [List.mem_singleton.1 hc]
      exact ⟨by decide +kernel, by decide, by decide +kernel, by unfold Cert.InUTCTime; decide,
        by unfold Cert.InUTCTime; decide⟩
  normal := by decide +kernel
  names := by decide +kernel

theorem rootCAImport_exported_twoCerts : ∃ index crl out,
    rootCAExport storageOrder gencrlB2 "/tmp" twoCerts "r1" "index" = .ok index ∧
      rootCAExport storageOrder gencrlB2 "/tmp" twoCerts "r1" "crl" = .ok crl ∧
      rootCAImport readsB2 quietEnv quietSyncEnv otherPanel (some movedBody) = .ok out ∧
      crlRows out.db.certs out.rootCaID = [] := by
  obtain ⟨index, hindex⟩ := Refusals.exists_of_isOk
    (show (rootCAExport storageOrder gencrlB2 "/tmp" twoCerts "r1" "index").isOk =
      true by decide +kernel)
  obtain ⟨crl, hcrl⟩ := Refusals.exists_of_isOk
    (show (rootCAExport storageOrder gencrlB2 "/tmp" twoCerts "r1" "crl").isOk =
      true by decide +kernel)
  obtain ⟨out, hout⟩ := Refusals.exists_of_isOk
    (show (rootCAImport readsB2 quietEnv quietSyncEnv otherPanel (some movedBody)).isOk =
      true by decide +kernel)
  have hanswers : quietSyncEnv.Answers 1000 := ⟨rfl, fun _ => rfl, fun _ => rfl,
    Paneltasks.longerIds.ksuid_fresh⟩
  have hid : GoStrings.trimSpace "r1" = "r1" := by decide +kernel
  have hissued : Carries movedBody "issuedList" index := by
    rw [Handlers.Certificates.rootCAExport_index hindex, hid, carries_exportedFile]
    decide +kernel
  have hrevoked : Carries movedBody "revokedList" crl := by
    obtain ⟨root, pem, -, rfl, hpem⟩ := Handlers.Certificates.rootCAExport_crl hcrl
    rw [hid] at hpem
    rw [gencrlB2_twoCerts hpem, carries_exportedFile]
    decide +kernel
  have hapart : Apart otherPanel.certs twoCerts.certs "r1" := by
    unfold Apart
    decide +kernel
  obtain ⟨-, created, -, -, -, hempty⟩ :=
    rootCAImport_exported (hid.symm ▸ listsRows_twoCerts) (by decide +kernel)
    (hid.symm ▸ movable_twoCerts) hindex hcrl hanswers (by decide +kernel) (by decide +kernel)
    (hid.symm ▸ hapart) hissued hrevoked hout
  exact ⟨index, crl, out, hindex, hcrl, hout, hempty⟩

end OpenvpnControl.Certificates
