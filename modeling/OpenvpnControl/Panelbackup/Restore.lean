import OpenvpnControl.Library.Float64
import OpenvpnControl.Library.Inserts
import OpenvpnControl.Library.Refusals

/-!
# Restoring a backup

`RestorePanelFromZipBuffer` of `panelbackup/service.go`. The archive is read into rows, and one
transaction empties the tables and inserts the rows. An entry that is missing, a row that is no
object and a table that the importer does not know are skipped, so that a restore of a damaged
archive can succeed and leave tables empty.

## Main definitions

* `ZipFile`, `manifest`, `entryRows`: the archive, and what the manifest lists.
* `restorePanelFromZipBuffer`: the function.
* `AllOrNothing`: what a restore should do.
* `Stopped`, `Intact`: what stops a restore, and what a restore leaves out.

## Main results

* `restore_eq_ok_iff`: when a restore succeeds, and what it leaves.
* `restore_allOrNothing_iff`: when a restore is all or nothing.
* `restore_empties_table`: a restore that succeeds without the rows of a table that is listed.
-/

namespace OpenvpnControl.Panelbackup

open Inserts (Tables)

def Format : String := "ovpn-control-panel-backup"

def Version : ℤ := 1

/-! ### Control characters -/

/-- `backupControlChars`. -/
def backupControlChar (c : Char) : Bool :=
  c.toNat ≤ 0x08 || c.toNat = 0x0b || c.toNat = 0x0c || (0x0e ≤ c.toNat && c.toNat ≤ 0x1f)

def stripBackupControlChars (s : String) : String :=
  String.ofList (s.toList.filter fun c => !backupControlChar c)

mutual

/-- `deepSanitizeForBackup`. The keys of an object stay as they are. -/
def deepSanitizeForBackup : Json → Json
  | .null => .null
  | .bool b => .bool b
  | .num n => .num n
  | .str s => .str (stripBackupControlChars s)
  | .arr xs => .arr (deepSanitizeTable xs)
  | .obj fields => .obj (deepSanitizeFields fields)

def deepSanitizeTable : List Json → List Json
  | [] => []
  | x :: xs => deepSanitizeForBackup x :: deepSanitizeTable xs

/-- The fields of an object. -/
def deepSanitizeFields : List (String × Json) → List (String × Json)
  | [] => []
  | (k, v) :: fields => (k, deepSanitizeForBackup v) :: deepSanitizeFields fields

end

/-! ### The rows of a table -/

/-- A value of a row: a decoded value, or the `int64` that `toInt64` makes. -/
inductive GoAny where
  | json (v : Json)
  | int64 (i : ℤ)

/-- An argument of an `INSERT`; a `float64` and an `int64` are the number that they are. `now` is
the `NOW()` of the statement's text. -/
inductive Arg where
  | null
  | bool (b : Bool)
  | number (q : ℚ)
  | text (s : String)
  | now
  deriving DecidableEq

def normalizeInsertValue : GoAny → Arg
  | .int64 i => .number i
  | .json .null => .null
  | .json (.bool b) => .bool b
  | .json (.num n) => .number (Float64.nearest n.value)
  | .json (.str s) => .text s
  | .json (.arr xs) => .text (Json.marshal (.arr xs))
  | .json (.obj fields) => .text (Json.marshal (.obj fields))

def strVal : Json → String
  | .null => ""
  | v => v.sprint

/-- `toInt64` of a decoded value. -/
def toInt64 : Json → ℤ
  | .num n => Float64.toInt64 (Float64.nearest n.value)
  | _ => 0

/-- `row.(map[string]any)`, where `none` is a value that is no object. -/
def asMap : Json → Option (GoMap Json)
  | .obj fields => some (GoMap.ofList fields)
  | _ => none

/-- What `insertAdmins` makes of a row. -/
def adminRow (m : GoMap Json) : GoMap Json :=
  let fullName := GoStrings.trimSpace (strVal (m.get "fullName"))
  let email := GoStrings.toLower (GoStrings.trimSpace (strVal (m.get "email")))
  let m := m.insert "fullName" (.str fullName)
  let m := m.insert "email" (if email ≠ "" then .str email else .null)
  let m := m.insert "inviteToken" .null
  let m := m.insert "inviteExpiresAt" .null
  let m := m.insert "passwordResetToken" .null
  let m := m.insert "passwordResetExpiresAt" .null
  if GoMap.get m "totpEnabled" = .null then m.insert "totpEnabled" (.bool false) else m

/-- What `insertTrafficSamples` makes of a row. -/
def trafficRow (m : GoMap Json) : GoMap GoAny :=
  ((m.mapValues .json).insert "rxBytes" (.int64 (toInt64 (m.get "rxBytes")))).insert "txBytes"
    (.int64 (toInt64 (m.get "txBytes")))

/-! ### The import -/

/-- A database with rows of type `ρ`, and the arguments of its statements by column. -/
abbrev Engine (ρ : Type) : Type := Inserts.Engine (GoMap Arg) ρ

/-- What a restore returns when it fails. -/
inductive Failure where
  | zip
  | file (name : String)
  | text (message : String)
  | mkdirAll
  | pool
  | delete
  | insert (table : String)
  | insertDefault
  | commit
  deriving DecidableEq

variable {ρ : Type}

/-- `insertSimple`; a row that is no object is passed over. -/
def insertSimple (E : Engine ρ) (table : String) :
    List (Option (GoMap GoAny)) → Tables ρ → Except Failure (Tables ρ)
  | [], db => .ok db
  | none :: rows, db => insertSimple E table rows db
  | some m :: rows, db =>
    E.insert (.insert table) (table, m.mapValues normalizeInsertValue) db >>=
      insertSimple E table rows

/-- The rows of a table as `insertSimple` takes them. -/
def plainRows (rows : List Json) : List (Option (GoMap GoAny)) :=
  rows.map fun row => (asMap row).map (GoMap.mapValues .json)

def insertAdmins (E : Engine ρ) (rows : List Json) : Tables ρ → Except Failure (Tables ρ) :=
  insertSimple E "Admin" (rows.map fun row => (asMap row).map fun m => (adminRow m).mapValues .json)

def insertTrafficSamples (E : Engine ρ) (rows : List Json) : Tables ρ → Except Failure (Tables ρ) :=
  insertSimple E "ClientTrafficSample" (rows.map fun row => (asMap row).map trafficRow)

/-- The settings that a restore inserts when the archive has none. -/
def defaultSettings : GoMap Arg :=
  GoMap.ofList [("id", .number 1), ("intervalMinutes", .number 0), ("retainCount", .number 10),
    ("lastScheduledAt", .now), ("updatedAt", .now)]

/-- The last statements of `importAllFromJSON`. -/
def insertBackupSettings (E : Engine ρ) (bset : List Json) : Tables ρ → Except Failure (Tables ρ) :=
  if bset = [] then E.insert .insertDefault ("PanelAppBackupSettings", defaultSettings)
  else insertSimple E "PanelAppBackupSettings" (plainRows bset)

/-- `importAllFromJSON`, where `data` has no rows for a name that is absent. -/
def importAllFromJSON (E : Engine ρ) (data : String → List Json) (db : Tables ρ) :
    Except Failure (Tables ρ) :=
  let simple (table : String) := insertSimple E table (plainRows (data table))
  simple "Organization" db >>= simple "RootCertificateAuthority" >>= simple "AgentNode" >>=
    insertAdmins E (data "Admin") >>= simple "AdminTotpRecoveryCode" >>= simple "VpnUser" >>=
    simple "Certificate" >>= simple "AgentNodeOpenvpnSettings" >>=
    simple "AgentNodeOpenvpnConfigVersion" >>= simple "AgentNodeOpenvpnMaterial" >>=
    simple "ClientIpAssignment" >>= simple "ClientSourceIpHistory" >>=
    insertTrafficSamples E (data "ClientTrafficSample") >>= simple "AgentMetricSnapshot" >>=
    simple "OpenvpnServerLog" >>= simple "PanelAsyncTask" >>= simple "AdminActionLog" >>=
    insertBackupSettings E (data "PanelAppBackupSettings")

/-- The tables that `wipeApplicationData` empties. -/
def wipedTables : List String :=
  ["PanelAppBackup", "AdminTotpRecoveryCode", "AdminActionLog",
    "OpenvpnServerLog", "PanelAsyncTask", "AgentMetricSnapshot", "ClientTrafficSample",
    "ClientSourceIpHistory", "ClientIpAssignment", "AgentNodeOpenvpnConfigVersion",
    "AgentNodeOpenvpnMaterial", "AgentNodeOpenvpnSettings", "Certificate", "VpnUser", "AgentNode",
    "RootCertificateAuthority", "Organization", "Admin", "PanelAppBackupSettings"]

/-- `wipeApplicationData`, when no statement fails. -/
def wipeApplicationData (db : Tables ρ) : Tables ρ := fun t => if t ∈ wipedTables then [] else db t

/-! ### The archive -/

/-- A file of an archive, with the first JSON value in it; `none` where it cannot be read. -/
structure ZipFile where
  name : String
  value : Option Json

/-- The first file of a name. -/
def file? (files : List ZipFile) (name : String) : Option ZipFile := files.find? (·.name = name)

/-- A value decoded into `[]any`; `null` is the nil slice. -/
def asRows : Json → Option (List Json)
  | .arr rows => some rows
  | .null => some []
  | _ => none

/-- The manifest, decoded into `map[string]any`. -/
def readManifest (files : List ZipFile) : Except Failure (List (String × Json)) :=
  match file? files "manifest.json" with
  | none => .error (.text "В архиве нет manifest.json")
  | some f =>
    match f.value with
    | some (.obj fields) => .ok fields
    | some .null => .ok []
    | _ => .error (.file f.name)

/-- The number that `manifest["version"].(float64)` gives, as an `int`. -/
def versionOf : Json → ℤ
  | .num n => Float64.toInt64 (Float64.nearest n.value)
  | _ => 0

/-- The checks of the manifest. -/
def checkManifest (fields : List (String × Json)) : Except Failure Unit :=
  if Json.field fields "format" ≠ .str Format then
    .error (.text "Неизвестный формат резервной копии")
  else if versionOf (Json.field fields "version") ≠ Version then
    .error (.text ("Версия архива " ++ (Json.field fields "version").sprint ++
      " не поддерживается (ожидается 1)"))
  else .ok ()

/-- The elements of `manifest["tables"]`. -/
def manifestTables (fields : List (String × Json)) : List Json :=
  (Json.field fields "tables").asSlice.elems

/-- The entry of a table. -/
def entryName (name : String) : String := "tables/" ++ name ++ ".json"

/-- One turn of the loop that reads the entries. -/
def readEntry (files : List ZipFile) (data : GoMap (List Json)) (n : Json) :
    Except Failure (GoMap (List Json)) :=
  let name := n.asString
  if name = "" then .ok data
  else match file? files (entryName name) with
    | none => .ok data
    | some f =>
      match f.value.bind asRows with
      | none => .error (.file f.name)
      | some rows => .ok (data.insert name (deepSanitizeTable rows))

/-- The rows that a restore reads. -/
def readArchive (files : List ZipFile) : Except Failure (GoMap (List Json)) := do
  let fields ← readManifest files
  checkManifest fields
  (manifestTables fields).foldlM (readEntry files) ∅

/-- What else can fail: the directory of the backups, the transaction's start, its `DELETE`
statements and its commit. -/
structure Outcomes where
  mkdirAll : Bool
  beginTx : Bool
  deletes : Bool
  commit : Bool

/-- `RestorePanelFromZipBuffer`, where `none` is an archive that `zip.NewReader` does not read. -/
def restorePanelFromZipBuffer (E : Engine ρ) (out : Outcomes) (archive : Option (List ZipFile))
    (db : Tables ρ) : Except Failure Unit × Tables ρ :=
  match archive with
  | none => (.error .zip, db)
  | some files =>
    match readArchive files with
    | .error e => (.error e, db)
    | .ok data =>
      if !out.mkdirAll then (.error .mkdirAll, db)
      else if !out.beginTx then (.error .pool, db)
      else if !out.deletes then (.error .delete, db)
      else match importAllFromJSON E (fun t =>
        (data.lookup t).getD []) (wipeApplicationData db) with
        | .error e => (.error e, db)
        | .ok db' => if out.commit then (.ok (), db') else (.error .commit, db)

/-! ### What the archive says -/

/-- The fields of the manifest, if it can be read. -/
def manifest (files : List ZipFile) : Option (List (String × Json)) :=
  ((file? files "manifest.json").bind ZipFile.value).bind fun
    | .obj fields => some fields
    | .null => some []
    | _ => none

/-- The names that the manifest lists. -/
def listed (files : List ZipFile) : List String :=
  (((manifest files).map manifestTables).getD []).filterMap fun
    | .str name => some name
    | _ => none

/-- The rows of an entry without control characters, if it is there and can be read. -/
def entryRows (files : List ZipFile) (t : String) : Option (List Json) :=
  ((file? files (entryName t)).bind fun f => f.value.bind asRows).map deepSanitizeTable

/-- The tables of `importAllFromJSON`, in its order. -/
def importedTables : List String :=
  ["Organization", "RootCertificateAuthority", "AgentNode", "Admin",
    "AdminTotpRecoveryCode", "VpnUser", "Certificate", "AgentNodeOpenvpnSettings",
    "AgentNodeOpenvpnConfigVersion", "AgentNodeOpenvpnMaterial", "ClientIpAssignment",
    "ClientSourceIpHistory", "ClientTrafficSample", "AgentMetricSnapshot", "OpenvpnServerLog",
    "PanelAsyncTask", "AdminActionLog", "PanelAppBackupSettings"]

/-- The arguments that the fields of a row are, after what `insertAdmins` clears and trims. -/
def rowArgs (t : String) (m : GoMap Json) : GoMap Arg :=
  ((if t = "Admin" then adminRow m else m).mapValues .json).mapValues normalizeInsertValue

/-- The arguments that the importer gives. -/
def importArgs (t : String) (m : GoMap Json) : GoMap Arg :=
  if t = "ClientTrafficSample" then (trafficRow m).mapValues normalizeInsertValue else rowArgs t m

/-- The rows that a restore has for a table. -/
def dataRows (files : List ZipFile) (t : String) : List Json :=
  if t ∈ listed files then (entryRows files t).getD [] else []

/-- The statements of the import of a table. -/
def tableInserts (t : String) (rows : List Json) : List (GoMap Arg) :=
  if t = "PanelAppBackupSettings" ∧ rows = [] then [defaultSettings]
  else rows.filterMap fun row => (asMap row).map (importArgs t)

/-- The statements of the import. -/
def inserts (files : List ZipFile) : List (String × GoMap Arg) :=
  Inserts.Engine.tableByTable importedTables fun t => tableInserts t (dataRows files t)

/-- The archive can be read: its manifest is of this format, and the entries that are there are
lists. -/
structure Readable (files : List ZipFile) : Prop where
  manifest : ∃ fields, manifest files = some fields ∧ Json.field fields "format" = .str Format ∧
    versionOf (Json.field fields "version") = Version
  entries : ∀ t ∈ listed files, t ≠ "" → ∀ f, file? files (entryName t) = some f →
    (f.value.bind asRows).isSome = true

/-- Something stops the restore: the archive cannot be read, or something else fails, an `INSERT`
statement for instance. -/
def Stopped (E : Engine ρ) (out : Outcomes) (archive : Option (List ZipFile))
    (db : Tables ρ) : Prop :=
  ∀ files, archive = some files →
    ¬Readable files ∨ out ≠ ⟨true, true, true, true⟩ ∨
      ¬E.Accepted (wipeApplicationData db) (inserts files)

/-- The archive is damaged: an entry that is listed is missing, has a row that is no object, or is
of a table that the importer does not know. -/
def Damaged (files : List ZipFile) : Prop :=
  ∃ t ∈ listed files, t ∉ importedTables ∨ entryRows files t = none ∨
    ∃ rows, entryRows files t = some rows ∧ ∃ row ∈ rows, row.isObj = false

/-- **All or nothing**: after a success every table that is listed has the rows of its entry, and a
damaged archive or a statement that fails gives an error and leaves every table as it was. -/
structure AllOrNothing (E : Engine ρ) (out : Outcomes) (archive : Option (List ZipFile))
    (db : Tables ρ) : Prop where
  restored : (restorePanelFromZipBuffer E out archive db).1 = .ok () →
    ∃ files, archive = some files ∧
      (∀ t ∈ listed files, t ≠ "PanelAppBackupSettings" → ∃ rows, entryRows files t = some rows ∧
        (restorePanelFromZipBuffer E out archive db).2 t =
          rows.map fun row => E.row t (rowArgs t (GoMap.ofList row.asFields))) ∧
      (restorePanelFromZipBuffer E out archive db).2 "PanelAppBackup" = [] ∧
      (restorePanelFromZipBuffer E out archive db).2 "PanelAppBackupSettings" =
        if dataRows files "PanelAppBackupSettings" = [] then
          [E.row "PanelAppBackupSettings" defaultSettings]
        else (dataRows files "PanelAppBackupSettings").map fun row =>
          E.row "PanelAppBackupSettings"
            (rowArgs "PanelAppBackupSettings" (GoMap.ofList row.asFields))
  unchanged : ∀ files, archive = some files →
    Damaged files ∨ ¬E.Accepted (wipeApplicationData db) (inserts files) →
      (∃ e, (restorePanelFromZipBuffer E out archive db).1 = .error e) ∧
        (restorePanelFromZipBuffer E out archive db).2 = db

/-- Nothing of the archive is left out or changed: it is not damaged, and the counters of the
traffic are stored as they are. -/
def Intact (E : Engine ρ) (files : List ZipFile) : Prop :=
  ¬Damaged files ∧ ∀ row ∈ dataRows files "ClientTrafficSample", ∀ m, asMap row = some m →
    E.row "ClientTrafficSample" (importArgs "ClientTrafficSample" m) =
      E.row "ClientTrafficSample" (rowArgs "ClientTrafficSample" m)

/-! ### Reading the archive -/

variable {E : Engine ρ} {out : Outcomes} {files : List ZipFile} {db : Tables ρ}

theorem mem_listed {t : String} :
    t ∈ listed files ↔ ∃ fields, manifest files = some fields ∧ .str t ∈ manifestTables fields := by
  rw [listed, List.mem_filterMap]
  constructor
  · rintro ⟨v, hv, ht⟩
    cases v with
    | str name =>
      obtain rfl := Option.some.inj ht
      cases hm : manifest files with
      | none =>
        rw [hm] at hv
        cases hv
      | some fields => exact ⟨fields, rfl, by simpa [hm] using hv⟩
    | _ => cases ht
  · rintro ⟨fields, hm, ht⟩
    exact ⟨.str t, by simpa [hm] using ht, rfl⟩

theorem asString_eq_iff {v : Json} {t : String} (ht : t ≠ "") : v.asString = t ↔ v = .str t := by
  cases v with
  | str s => simp
  | _ => simp [Json.asString, Ne.symm ht]

theorem readManifest_eq_ok_iff {fields : List (String × Json)} :
    readManifest files = .ok fields ↔ manifest files = some fields := by
  rw [readManifest, manifest]
  cases file? files "manifest.json" with
  | none => exact iff_of_false nofun nofun
  | some f =>
    obtain ⟨name, value⟩ := f
    cases value with
    | none => exact iff_of_false nofun nofun
    | some v =>
      cases v with
      | obj gs => simp
      | null => simp
      | bool b => exact iff_of_false nofun nofun
      | num n => exact iff_of_false nofun nofun
      | str s => exact iff_of_false nofun nofun
      | arr xs => exact iff_of_false nofun nofun

theorem checkManifest_eq_ok_iff {fields : List (String × Json)} {u : Unit} :
    checkManifest fields = .ok u ↔
      Json.field fields "format" = .str Format ∧
      versionOf (Json.field fields "version") = Version := by
  rw [checkManifest]
  split_ifs with hformat hversion
  · exact iff_of_false nofun fun h => hformat h.1
  · exact iff_of_false nofun fun h => hversion h.2
  · exact iff_of_true rfl ⟨not_not.1 hformat, not_not.1 hversion⟩

/-- The entry of an element of the list can be read, if it is there. -/
def EntryReads (files : List ZipFile) (n : Json) : Prop :=
  n.asString ≠ "" → ∀ f, file? files (entryName n.asString) = some f →
    (f.value.bind asRows).isSome = true

/-- The rows that are known after a turn of the loop. -/
def addEntry (files : List ZipFile) (data : GoMap (List Json)) (n : Json) : GoMap (List Json) :=
  if n.asString = "" then data
  else (entryRows files n.asString).elim data (data.insert n.asString)

theorem readEntry_eq_ok_iff {data data' : GoMap (List Json)} {n : Json} :
    readEntry files data n = .ok data' ↔ EntryReads files n ∧ data' = addEntry files data n := by
  rw [readEntry, EntryReads, addEntry, entryRows]
  by_cases hn : n.asString = ""
  · rw [if_pos hn, if_pos hn, Refusals.ok_eq_ok_iff]
    exact (and_iff_right fun h => absurd hn h).symm
  · rw [if_neg hn, if_neg hn]
    cases file? files (entryName n.asString) with
    | none =>
      rw [Refusals.ok_eq_ok_iff]
      exact (and_iff_right fun _ f hf => nomatch hf).symm
    | some f =>
      simp only [ne_eq, hn, not_false_eq_true, true_imp_iff, Option.some.injEq, forall_eq',
        Option.bind_some]
      cases f.value.bind asRows with
      | none => exact iff_of_false nofun fun h => nomatch h.1
      | some rows =>
        rw [Refusals.ok_eq_ok_iff]
        exact (and_iff_right rfl).symm

theorem foldlM_readEntry_eq_ok_iff {names : List Json} {data data' : GoMap (List Json)} :
    names.foldlM (readEntry files) data = .ok data' ↔
      (∀ n ∈ names, EntryReads files n) ∧ data' = names.foldl (addEntry files) data := by
  induction names generalizing data with
  | nil => simp [pure, Except.pure, eq_comm]
  | cons n names ih =>
    rw [List.foldlM_cons, Refusals.bind_eq_ok, List.forall_mem_cons, List.foldl_cons]
    constructor
    · rintro ⟨mid, hn, hnames⟩
      obtain ⟨hreads, rfl⟩ := readEntry_eq_ok_iff.1 hn
      obtain ⟨hreads', rfl⟩ := ih.1 hnames
      exact ⟨⟨hreads, hreads'⟩, rfl⟩
    · rintro ⟨⟨hreads, hreads'⟩, rfl⟩
      exact ⟨_, readEntry_eq_ok_iff.2 ⟨hreads, rfl⟩, ih.2 ⟨hreads', rfl⟩⟩

theorem lookup_addEntry {data : GoMap (List Json)} {n : Json} {t : String} (ht : t ≠ "") :
    (addEntry files data n).lookup t =
      if n = .str t then (entryRows files t).or (data.lookup t) else data.lookup t := by
  rw [addEntry]
  by_cases hn : n = .str t
  · subst hn
    rw [if_pos rfl, Json.asString_str, if_neg ht]
    cases entryRows files t with
    | none => rfl
    | some rows => exact GoMap.lookup_insert_eq data t t rows ▸ if_pos rfl
  · have hne : n.asString ≠ t := fun h => hn ((asString_eq_iff ht).1 h)
    rw [if_neg hn]
    split_ifs
    · rfl
    · cases entryRows files n.asString with
      | none => rfl
      | some rows => exact (GoMap.lookup_insert_eq data _ t rows).trans (if_neg (Ne.symm hne))

/-- The rows of a name after the loop. -/
theorem lookup_foldl_addEntry {names : List Json} {data : GoMap (List Json)} {t : String}
    (ht : t ≠ "") :
    (names.foldl (addEntry files) data).lookup t =
      if .str t ∈ names then (entryRows files t).or (data.lookup t) else data.lookup t := by
  induction names generalizing data with
  | nil => rfl
  | cons n names ih =>
    rw [List.foldl_cons, ih, lookup_addEntry ht]
    by_cases hn : n = .str t
    · subst hn
      cases entryRows files t <;> simp
    · simp [hn, Ne.symm hn]

theorem readArchive_eq_ok_iff {data : GoMap (List Json)} :
    readArchive files = .ok data ↔ ∃ fields, manifest files = some fields ∧
      (Json.field fields "format" = .str Format ∧
        versionOf (Json.field fields "version") = Version) ∧
      (∀ n ∈ manifestTables fields, EntryReads files n) ∧
      data = (manifestTables fields).foldl (addEntry files) ∅ := by
  simp only [readArchive, Refusals.bind_eq_ok, readManifest_eq_ok_iff, checkManifest_eq_ok_iff,
    foldlM_readEntry_eq_ok_iff, exists_const]

/-- **When an archive can be read.** -/
theorem readable_iff : Readable files ↔ ∃ data, readArchive files = .ok data := by
  have hentries {fields : List (String × Json)} (hm : manifest files = some fields) :
      (∀ t ∈ listed files, t ≠ "" → ∀ f, file? files (entryName t) = some f →
        (f.value.bind asRows).isSome = true) ↔ ∀ n ∈ manifestTables fields, EntryReads files n := by
    constructor
    · intro h n hn hne
      have hstr : n = .str n.asString := (asString_eq_iff hne).1 rfl
      exact h _ (mem_listed.2 ⟨fields, hm, hstr ▸ hn⟩) hne
    · intro h t ht hne
      obtain ⟨fields', hm', ht'⟩ := mem_listed.1 ht
      rw [hm] at hm'
      obtain rfl := Option.some.inj hm'
      exact h _ ht' hne
  constructor
  · rintro ⟨⟨fields, hm, hformat, hversion⟩, h⟩
    exact ⟨_, readArchive_eq_ok_iff.2
      ⟨fields, hm, ⟨hformat, hversion⟩, (hentries hm).1 h, rfl⟩⟩
  · rintro ⟨data, h⟩
    obtain ⟨fields, hm, ⟨hformat, hversion⟩, h', -⟩ := readArchive_eq_ok_iff.1 h
    exact ⟨⟨fields, hm, hformat, hversion⟩, (hentries hm).2 h'⟩

/-- **What a restore reads.** -/
theorem getD_lookup_readArchive {data : GoMap (List Json)} (h : readArchive files = .ok data)
    {t : String} (ht : t ≠ "") : (data.lookup t).getD [] = dataRows files t := by
  obtain ⟨fields, hm, -, -, rfl⟩ := readArchive_eq_ok_iff.1 h
  have hlisted : t ∈ listed files ↔ .str t ∈ manifestTables fields := by
    rw [mem_listed]
    constructor
    · rintro ⟨fields', hm', h'⟩
      rw [hm] at hm'
      rwa [Option.some.inj hm']
    · exact fun h' => ⟨fields, hm, h'⟩
  rw [lookup_foldl_addEntry ht, dataRows, Finmap.lookup_empty, Option.or_none]
  simp only [hlisted]
  split_ifs
  · rfl
  · rfl

/-! ### The import -/

/-- `insertSimple` runs the statements of the rows that are objects. -/
theorem does_insertSimple (E : Engine ρ) (table : String) (rows : List (Option (GoMap GoAny))) :
    E.Does (insertSimple E table rows)
      ((rows.filterMap id).map fun m => (table, m.mapValues normalizeInsertValue)) := by
  induction rows with
  | nil => exact E.does_nothing
  | cons row rows ih =>
    cases row with
    | none => exact ih
    | some m => exact (E.does_insert _ _).bind ih

/-- `insertSimple` runs the statements of a table, when it gets the arguments of the importer. -/
theorem does_tableInserts (E : Engine ρ) {t : String} {rows : List Json}
    {f : GoMap Json → GoMap GoAny} (hf : ∀ m, (f m).mapValues normalizeInsertValue = importArgs t m)
    (hrows : t = "PanelAppBackupSettings" → rows ≠ []) :
    E.Does (insertSimple E t (rows.map fun row => (asMap row).map f))
      ((tableInserts t rows).map fun a => (t, a)) := by
  have h := does_insertSimple E t (rows.map fun row => (asMap row).map f)
  rw [tableInserts, if_neg fun h' => hrows h'.1 h'.2]
  simpa [List.filterMap_map, Function.comp_def, List.map_filterMap, hf] using h

theorem does_simple (E : Engine ρ) {t : String} (rows : List Json) (ht : t ≠ "Admin")
    (ht' : t ≠ "ClientTrafficSample") (hrows : t = "PanelAppBackupSettings" → rows ≠ []) :
    E.Does (insertSimple E t (plainRows rows)) ((tableInserts t rows).map fun a => (t, a)) :=
  does_tableInserts E (fun m => by rw [importArgs, if_neg ht', rowArgs, if_neg ht]) hrows

theorem does_insertAdmins (E : Engine ρ) (rows : List Json) :
    E.Does (insertAdmins E rows) ((tableInserts "Admin" rows).map fun a => ("Admin", a)) :=
  does_tableInserts E (fun m => by rw [importArgs, if_neg (by decide), rowArgs, if_pos rfl])
    fun h => absurd h (by decide)

theorem does_insertTrafficSamples (E : Engine ρ) (rows : List Json) :
    E.Does (insertTrafficSamples E rows)
      ((tableInserts "ClientTrafficSample" rows).map fun a => ("ClientTrafficSample", a)) :=
  does_tableInserts E (fun m => by rw [importArgs, if_pos rfl]) fun h => absurd h (by decide)

theorem does_insertBackupSettings (E : Engine ρ) (rows : List Json) :
    E.Does (insertBackupSettings E rows)
      ((tableInserts "PanelAppBackupSettings" rows).map fun a =>
        ("PanelAppBackupSettings", a)) := by
  rw [insertBackupSettings]
  split_ifs with h
  · rw [tableInserts, if_pos ⟨rfl, h⟩]
    exact E.does_insert _ _
  · exact does_simple E rows (by decide) (by decide) fun _ => h

/-- **The import** runs its statements table by table. -/
theorem does_importAllFromJSON (E : Engine ρ) (data : String → List Json) :
    E.Does (importAllFromJSON E data)
      (Inserts.Engine.tableByTable importedTables fun t => tableInserts t (data t)) := by
  have hsimple {t : String} (ht : t ∉ ["Admin", "ClientTrafficSample", "PanelAppBackupSettings"]) :
      E.Does (insertSimple E t (plainRows (data t)))
        ((tableInserts t (data t)).map fun a => (t, a)) := by
    simp only [List.mem_cons, List.not_mem_nil, or_false, not_or] at ht
    exact does_simple E (data t) ht.1 ht.2.1 fun h => absurd h ht.2.2
  have hadmins := does_insertAdmins E (data "Admin")
  have htraffic := does_insertTrafficSamples E (data "ClientTrafficSample")
  have hsettings := does_insertBackupSettings E (data "PanelAppBackupSettings")
  have h := (((((((((((((((((hsimple (t := "Organization") (by decide)).bind
    (hsimple (t := "RootCertificateAuthority") (by decide))).bind
    (hsimple (t := "AgentNode") (by decide))).bind hadmins).bind
    (hsimple (t := "AdminTotpRecoveryCode") (by decide))).bind
    (hsimple (t := "VpnUser") (by decide))).bind (hsimple (t := "Certificate") (by decide))).bind
    (hsimple (t := "AgentNodeOpenvpnSettings") (by decide))).bind
    (hsimple (t := "AgentNodeOpenvpnConfigVersion") (by decide))).bind
    (hsimple (t := "AgentNodeOpenvpnMaterial") (by decide))).bind
    (hsimple (t := "ClientIpAssignment") (by decide))).bind
    (hsimple (t := "ClientSourceIpHistory") (by decide))).bind htraffic).bind
    (hsimple (t := "AgentMetricSnapshot") (by decide))).bind
    (hsimple (t := "OpenvpnServerLog") (by decide))).bind
    (hsimple (t := "PanelAsyncTask") (by decide))).bind
    (hsimple (t := "AdminActionLog") (by decide))).bind hsettings
  simp only [List.append_assoc] at h
  simp only [Inserts.Engine.tableByTable, importedTables, List.flatMap_cons, List.flatMap_nil,
    List.append_nil]
  exact h

/-! ### What a restore does -/

variable {archive : Option (List ZipFile)}

theorem nodup_importedTables : importedTables.Nodup := by
  decide

theorem wiped_of_imported {t : String} (h : t ∈ importedTables) :
    (wipeApplicationData db : Tables ρ) t = [] := by
  have hsub : ∀ u ∈ importedTables, u ∈ wipedTables := by decide
  exact if_pos (hsub t h)

/-- The import of an archive that has been read. -/
theorem does_import {data : GoMap (List Json)} (h : readArchive files = .ok data) :
    E.Does (importAllFromJSON E fun t => (data.lookup t).getD []) (inserts files) := by
  have hinserts : inserts files = Inserts.Engine.tableByTable importedTables fun t =>
      tableInserts t ((data.lookup t).getD []) := by
    refine List.flatMap_congr fun t ht => ?_
    have hne : t ≠ "" := fun h' => absurd (h' ▸ ht) (by decide)
    simp only [getD_lookup_readArchive h hne]
  rw [hinserts]
  exact does_importAllFromJSON E _

/-- A restore that nothing stops. -/
theorem restore_of_not_stopped (h : ¬Stopped E out archive db) :
    ∃ files, archive = some files ∧ E.Accepted (wipeApplicationData db) (inserts files) ∧
      restorePanelFromZipBuffer E out archive db =
        (.ok (), E.putAll (wipeApplicationData db) (inserts files)) := by
  simp only [Stopped, not_forall, not_or, not_not] at h
  obtain ⟨files, rfl, hreadable, hout, hacc⟩ := h
  obtain ⟨data, hdata⟩ := readable_iff.1 hreadable
  refine ⟨files, rfl, hacc, ?_⟩
  have himport := ((does_import hdata) _ _).2 ⟨hacc, rfl⟩
  simp only [restorePanelFromZipBuffer, hdata, hout, himport, Bool.not_true, Bool.false_eq_true,
    if_false, if_true]

/-- A restore that something stops leaves the tables as they were. -/
theorem restore_of_stopped (h : Stopped E out archive db) :
    ∃ e, restorePanelFromZipBuffer E out archive db = (.error e, db) := by
  cases archive with
  | none => exact ⟨_, rfl⟩
  | some files =>
    rw [restorePanelFromZipBuffer]
    cases hdata : readArchive files with
    | error e => exact ⟨e, rfl⟩
    | ok data =>
      cases hmkdir : out.mkdirAll with
      | false => exact ⟨_, rfl⟩
      | true =>
      cases hbegin : out.beginTx with
      | false => exact ⟨_, rfl⟩
      | true =>
      cases hdeletes : out.deletes with
      | false => exact ⟨_, rfl⟩
      | true =>
      simp only [Bool.not_true, Bool.false_eq_true, if_false]
      cases himport : importAllFromJSON E (fun t => (data.lookup t).getD [])
        (wipeApplicationData db) with
      | error e => exact ⟨e, rfl⟩
      | ok db' =>
        cases hcommit : out.commit with
        | false => exact ⟨_, rfl⟩
        | true =>
          -- nothing stopped this run
          have hacc := (((does_import hdata) _ _).1 himport).1
          have hout : out = ⟨true, true, true, true⟩ := by
            cases out
            simp_all
          rcases h files rfl with h | h | h
          · exact absurd (readable_iff.2 ⟨data, hdata⟩) h
          · exact absurd hout h
          · exact absurd hacc h

/-- **The rows of a table after a restore**: the objects of its entry, as the importer gives
them. -/
theorem restored_rows {t : String} (ht : t ∈ importedTables) :
    E.putAll (wipeApplicationData db) (inserts files) t =
      (tableInserts t (dataRows files t)).map (E.row t) := by
  rw [inserts, Inserts.Engine.putAll_tableByTable _ _ nodup_importedTables, wiped_of_imported ht,
    if_pos ht, List.nil_append]

theorem restored_panelAppBackup :
    E.putAll (wipeApplicationData db) (inserts files) "PanelAppBackup" = [] := by
  rw [inserts, Inserts.Engine.putAll_tableByTable _ _ nodup_importedTables, if_neg (by decide),
    List.append_nil]
  exact if_pos (by decide)

/-- The statements of rows that are objects. -/
theorem tableInserts_eq_map {t : String} {rows : List Json} (hobj : ∀ row ∈ rows, row.isObj = true)
    (h : t = "PanelAppBackupSettings" → rows ≠ []) :
    tableInserts t rows = rows.map fun row => importArgs t (GoMap.ofList row.asFields) := by
  rw [tableInserts, if_neg fun h' => h h'.1 h'.2]
  clear h
  induction rows with
  | nil => rfl
  | cons row rows ih =>
    obtain ⟨hrow, hrows⟩ := List.forall_mem_cons.1 hobj
    obtain ⟨fields, rfl⟩ := Json.isObj_eq_true.1 hrow
    rw [List.map_cons, ← ih hrows]
    rfl

/-! ### All or nothing -/

/-- What is listed in an archive that is not damaged. -/
theorem of_not_damaged (h : ¬Damaged files) {t : String} (ht : t ∈ listed files) :
    t ∈ importedTables ∧ entryRows files t = some (dataRows files t) ∧
      ∀ row ∈ dataRows files t, row.isObj = true := by
  have h' : ¬(t ∉ importedTables ∨ entryRows files t = none ∨
      ∃ rows, entryRows files t = some rows ∧ ∃ row ∈ rows, row.isObj = false) :=
      fun h' => h ⟨t, ht, h'⟩
  simp only [not_or, not_not, not_exists, not_and, Bool.not_eq_false] at h'
  obtain ⟨hknown, hentry, hobj⟩ := h'
  obtain ⟨rows, hrows⟩ := Option.ne_none_iff_exists'.1 hentry
  have hdata : dataRows files t = rows := by rw [dataRows, if_pos ht, hrows, Option.getD_some]
  rw [hdata]
  exact ⟨hknown, hrows, hobj rows hrows⟩

/-- The rows of a table after a restore of an archive that is not damaged. -/
theorem restored_rows_of_not_damaged (h : ¬Damaged files) {t : String} (ht : t ∈ importedTables)
    (hrows : t = "PanelAppBackupSettings" → dataRows files t ≠ []) :
    E.putAll (wipeApplicationData db) (inserts files) t =
      (dataRows files t).map fun row => E.row t (importArgs t (GoMap.ofList row.asFields)) := by
  have hobj : ∀ row ∈ dataRows files t, row.isObj = true := by
    by_cases hl : t ∈ listed files
    · exact (of_not_damaged h hl).2.2
    · rw [dataRows, if_neg hl]
      exact fun row hrow => absurd hrow List.not_mem_nil
  rw [restored_rows ht, tableInserts_eq_map hobj hrows, List.map_map]
  rfl

/-- The importer gives the arguments that the fields are, but for the counters of the traffic. -/
theorem importArgs_of_ne {t : String} (h : t ≠ "ClientTrafficSample") (m : GoMap Json) :
    importArgs t m = rowArgs t m := if_neg h

/-- A restore of an archive that is intact does what it should. -/
theorem allOrNothing_of_intact (h : Intact E files) (hacc : E.Accepted (wipeApplicationData db)
      (inserts files)) (hrestore : restorePanelFromZipBuffer E out (some files) db =
        (.ok (), E.putAll (wipeApplicationData db) (inserts files))) :
    AllOrNothing E out (some files) db := by
  obtain ⟨hnot, hcounters⟩ := h
  have htables : (restorePanelFromZipBuffer E out (some files) db).2 =
      E.putAll (wipeApplicationData db) (inserts files) := by rw [hrestore]
  refine ⟨fun _ => ⟨files, rfl, fun t ht hne => ?_, ?_, ?_⟩, ?_⟩
  · obtain ⟨hknown, hentry, hobj⟩ := of_not_damaged hnot ht
    refine ⟨_, hentry, ?_⟩
    rw [htables, restored_rows_of_not_damaged hnot hknown fun h' => absurd h' hne]
    refine List.map_congr_left fun row hrow => ?_
    by_cases htraffic : t = "ClientTrafficSample"
    · subst htraffic
      obtain ⟨fields, rfl⟩ := Json.isObj_eq_true.1 (hobj row hrow)
      exact hcounters _ hrow _ rfl
    · rw [importArgs_of_ne htraffic]
  · rw [htables]
    exact restored_panelAppBackup
  · rw [htables]
    split_ifs with hnone
    · rw [restored_rows (by decide), tableInserts, if_pos ⟨rfl, hnone⟩]
      rfl
    · rw [restored_rows_of_not_damaged hnot (by decide) fun _ => hnone]
      simp only [importArgs_of_ne (t := "PanelAppBackupSettings") (by decide)]
  · rintro files' hfiles (h | h)
    · obtain rfl := Option.some.inj hfiles
      exact absurd h hnot
    · obtain rfl := Option.some.inj hfiles
      exact absurd hacc h

/-- **When a restore is all or nothing**: something stops it, and the transaction is rolled back, or
nothing of the archive is left out. Without an error the importer leaves out an entry that is
missing or that it does not know, a row that is no object, and what it cannot read of a counter of
the traffic. -/
theorem restore_allOrNothing_iff (E : Engine ρ) (out : Outcomes) (archive : Option (List ZipFile))
    (db : Tables ρ) :
    AllOrNothing E out archive db ↔
      Stopped E out archive db ∨ ∃ files, archive = some files ∧ Intact E files := by
  by_cases hstop : Stopped E out archive db
  · refine iff_of_true ?_ (Or.inl hstop)
    obtain ⟨e, he⟩ := restore_of_stopped hstop
    refine ⟨fun h => ?_, fun files _ _ => ?_⟩
    · rw [he] at h
      cases h
    · rw [he]
      exact ⟨⟨e, rfl⟩, rfl⟩
  · rw [or_iff_right hstop]
    obtain ⟨files, rfl, hacc, hrestore⟩ := restore_of_not_stopped hstop
    have htables : (restorePanelFromZipBuffer E out (some files) db).2 =
        E.putAll (wipeApplicationData db) (inserts files) := by rw [hrestore]
    constructor
    · intro h
      have hnot : ¬Damaged files := by
        intro hd
        obtain ⟨⟨e, he⟩, -⟩ := h.unchanged files rfl (Or.inl hd)
        rw [hrestore] at he
        cases he
      refine ⟨files, rfl, hnot, fun row hrow m hm => ?_⟩
      obtain ⟨files', hfiles, hrows, -⟩ := h.restored (by rw [hrestore])
      obtain rfl := Option.some.inj hfiles
      have hlisted : "ClientTrafficSample" ∈ listed files := by
        by_contra hl
        rw [dataRows, if_neg hl] at hrow
        cases hrow
      obtain ⟨rows, hentry, htable⟩ := hrows _ hlisted (by decide)
      obtain ⟨hknown, hentry', -⟩ := of_not_damaged hnot hlisted
      obtain rfl := Option.some.inj (hentry'.symm.trans hentry)
      rw [htables, restored_rows_of_not_damaged hnot hknown fun h' =>
        absurd h' (by decide)] at htable
      have hrow' := List.map_inj_left.1 htable row hrow
      obtain ⟨fields, rfl⟩ : ∃ fields, row = .obj fields := by
        cases row with
        | obj fields => exact ⟨fields, rfl⟩
        | _ => cases hm
      obtain rfl := Option.some.inj hm
      exact hrow'
    · rintro ⟨files', hfiles, h⟩
      obtain rfl := Option.some.inj hfiles
      exact allOrNothing_of_intact h hacc hrestore

/-- The counters of a row are stored as they are when they are whole numbers of 64 bits. -/
theorem importArgs_counters {m : GoMap Json}
    (h : ∀ k ∈ ["rxBytes", "txBytes"], ∃ n, m.lookup k = some (.num n) ∧
      ∃ i : ℤ, Float64.nearest n.value = i ∧ -2 ^ 63 ≤ i ∧ i < 2 ^ 63) :
    importArgs "ClientTrafficSample" m = rowArgs "ClientTrafficSample" m := by
  have hcounter {k : String} (hk : k ∈ ["rxBytes", "txBytes"]) :
      ((m.mapValues .json).mapValues normalizeInsertValue).lookup k =
        some (normalizeInsertValue (.int64 (toInt64 (m.get k)))) := by
    obtain ⟨n, hn, i, hi, hlow, hhigh⟩ := h k hk
    simp only [GoMap.lookup_mapValues, GoMap.get, hn, Option.map_some, Option.getD_some, toInt64,
      normalizeInsertValue, hi, Float64.toInt64_intCast hlow hhigh]
  rw [importArgs, if_pos rfl, rowArgs, if_neg (by decide), trafficRow]
  refine GoMap.ext_lookup fun k => ?_
  rw [GoMap.lookup_mapValues, GoMap.lookup_insert_eq, GoMap.lookup_insert_eq]
  split_ifs with htx hrx
  · subst htx
    exact (hcounter (by simp)).symm
  · subst hrx
    exact (hcounter (by simp)).symm
  · simp only [GoMap.lookup_mapValues]

/-- An archive whose manifest lists a table that has no entry. -/
def truncatedArchive : List ZipFile :=
  [⟨"manifest.json", some (.obj [("format", .str Format), ("version", .num (JsonNumber.ofInt 1)),
    ("tables", .arr [.str "Organization"])])⟩]

/-- A database that stores the arguments and accepts every statement. -/
def lenientEngine : Engine (GoMap Arg) where
  row _ args := args
  accepts _ _ _ := true

/-- **A restore that empties a table**: the manifest lists the organizations, the archive does not
have them, and the restore succeeds. -/
theorem restore_empties_table :
    ¬∀ (ρ : Type) (E : Engine ρ) (out : Outcomes) (archive : Option (List ZipFile)) (db : Tables ρ),
      AllOrNothing E out archive db := by
  intro h
  have hall := h _ lenientEngine ⟨true, true, true, true⟩ (some truncatedArchive) fun _ => []
  have hlisted : "Organization" ∈ listed truncatedArchive := by decide +kernel
  have hdamaged : Damaged truncatedArchive := ⟨_, hlisted, Or.inr (Or.inl (by decide +kernel))⟩
  obtain ⟨⟨e, he⟩, -⟩ := hall.unchanged _ rfl (Or.inl hdamaged)
  have hok : (restorePanelFromZipBuffer lenientEngine ⟨true, true, true, true⟩
      (some truncatedArchive) fun _ => []).1.isOk = true := by decide +kernel
  rw [he] at hok
  cases hok

end OpenvpnControl.Panelbackup
