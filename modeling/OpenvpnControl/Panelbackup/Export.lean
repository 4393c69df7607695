import OpenvpnControl.Panelbackup.Schema

/-!
# Writing a backup, and the database it is restored into

`exportAllTablesJSON` and `CreatePanelBackupZip` of `panelbackup`: every row becomes a JSON object,
its numbers are decoded into `float64`, the control characters are stripped, and the rows go into an
archive. The database of a restore keeps the types, keys and references of the schema. What it makes
of a text in a column of another type is a parameter.

## Main definitions

* `Server`, `cast`, `rules`: the database.
* `sourceValue`, `rowToJson`, `exportAllTablesJSON`: the export.
* `createPanelBackupZip`: the archive.
* `Reads`: the database reads what it writes.

## Main results

* `entryRows_createPanelBackupZip`: the rows of an archive.
-/

namespace OpenvpnControl.Panelbackup

open Inserts (Tables)

/-! ### The database -/

/-- The part of PostgreSQL and its driver that is not modelled. -/
structure Server where
  /-- The value that an argument is in a column of another type. -/
  input : ColumnType → Arg → Option Value
  /-- The default of a column. -/
  default : String → String → Value

/-- The value that an argument is in a column of a type, if there is one. -/
def cast (pg : Server) : ColumnType → Arg → Option Value
  | _, .null => some .null
  | .text, .text s => some (.text s)
  | .bool, .bool b => some (.bool b)
  | .int, .number q =>
    if q = ⌊q⌋ ∧ -2 ^ 31 ≤ ⌊q⌋ ∧ ⌊q⌋ < 2 ^ 31 then some (.int ⌊q⌋) else pg.input .int (.number q)
  | .bigint, .number q =>
    if q = ⌊q⌋ ∧ -2 ^ 63 ≤ ⌊q⌋ ∧ ⌊q⌋ < 2 ^ 63 then some (.int ⌊q⌋) else pg.input .bigint (.number q)
  | .float, .number q => some (.float q)
  | .json, .bool b => some (.json (.bool b))
  | .json, .number q => some (.json (.num (Float64.format q)))
  | type, arg => pg.input type arg

/-- The value of a column in a new row. -/
def storedValue (pg : Server) (t : String) (args : GoMap Arg) (col : Column) : Option Value :=
  (args.lookup col.name).elim (some (pg.default t col.name)) (cast pg col.type)

/-- The rules of the schema. -/
def rules (pg : Server) : Inserts.Rules (GoMap Arg) Row where
  row t args c :=
    ((columns t).find? (·.name = c)).elim .null fun col => (storedValue pg t args col).getD .null
  typed t args :=
    decide (∀ c ∈ args.keys, c ∈ (columns t).map Column.name) &&
      (columns t).all fun col =>
        (storedValue pg t args col).any fun v => col.nullable || decide (v ≠ .null)
  clash := clash
  targets := targets

/-! ### The export -/

def pgStripC0Controls (s : String) : String :=
  String.ofList (s.toList.filter fun c => c.toNat ∉ [1, 2, 3, 4, 5, 6, 7, 8, 11, 12, 14, 15, 16, 17,
    18, 19, 20, 21, 22, 23, 24, 25, 26, 27, 28, 29, 30, 31])

/-- The value of the expression of a column; a `jsonb` value is written and read again. -/
def sourceValue (pg : Server) (r : Row) (col : Column) : Option Value :=
  match col.source, r col.name with
  | .z, .text s => some (.text (pgStripC0Controls s))
  | .zn, .text s => some (.text (pgStripC0Controls s))
  | .zj, .json v => cast pg .json (.text (pgStripC0Controls (Json.jsonbText v)))
  | .nullif, .text s =>
    some (if pgStripC0Controls s = "" then .null else .text (pgStripC0Controls s))
  | .coalesce d, .text s =>
    some (.text (if pgStripC0Controls s = "" then d else pgStripC0Controls s))
  | .coalesceId, .text s =>
    some (if pgStripC0Controls s = "" then r "id" else .text (pgStripC0Controls s))
  | _, v => some v

/-- `row_to_json` of a value. -/
def rowToJson : Value → Json
  | .null => .null
  | .text s => .str s
  | .bool b => .bool b
  | .int i => .num (JsonNumber.ofInt i)
  | .float q => .num (Float64.format q)
  | .special s => .str s
  | .timestamp s => .str s
  | .json v => v

/-- `row_to_json` of a row of a query. -/
def exportRow (pg : Server) (t : String) (r : Row) : Option Json :=
  ((columns t).mapM fun col => (sourceValue pg r col).map fun v => (col.name, rowToJson v)).map .obj

def queryJSONArray (pg : Server) (db : Tables Row) (t : String) : Option (List Json) :=
  ((db t).mapM (exportRow pg t)).bind fun rows => (Json.unmarshal (.arr rows)).bind asRows

/-- The entry of a table in `exportAllTablesJSON`; a query of the logs that fails has no rows. -/
def exportAllTablesJSON (pg : Server) (db : Tables Row) (t : String) : Option (List Json) :=
  if t = "OpenvpnServerLog" then some ((queryJSONArray pg db t).getD []) else queryJSONArray pg db t

/-- The manifest of an archive. -/
def manifestJson (createdAt : String) (tableNames : List String) : Json :=
  .obj [("createdAt", .str createdAt), ("format", .str Format),
    ("tables", .arr (tableNames.map .str)), ("version", .num (JsonNumber.ofInt Version))]

/-- `CreatePanelBackupZip` up to the archive, where `tableNames` and `names` are the orders in which
the two loops go over the tables. A file is given as it is decoded. -/
def createPanelBackupZip (pg : Server) (db : Tables Row) (createdAt : String)
    (tableNames names : List String) : Option (List ZipFile) :=
  (names.mapM fun t => (exportAllTablesJSON pg db t).map fun rows =>
    (⟨entryName t, Json.unmarshal (.arr (deepSanitizeTable rows))⟩ : ZipFile)).map
      (⟨"manifest.json", some (manifestJson createdAt tableNames)⟩ :: ·)

/-- The tables of `exportAllTablesJSON`. -/
def exportedTables : List String :=
  ["Organization", "Admin", "RootCertificateAuthority", "AgentNode", "VpnUser", "Certificate",
    "AgentNodeOpenvpnSettings", "AgentNodeOpenvpnConfigVersion", "AgentNodeOpenvpnMaterial",
    "ClientIpAssignment", "ClientSourceIpHistory", "ClientTrafficSample", "AgentMetricSnapshot",
    "PanelAsyncTask", "AdminActionLog", "PanelAppBackupSettings", "AdminTotpRecoveryCode",
    "OpenvpnServerLog"]

theorem exportedTables_perm : exportedTables.Perm importedTables := by
  decide

/-! ### Control characters -/

/-- The control characters of the queries are those of the archive, but for the null character,
which PostgreSQL does not store. -/
theorem backupControlChar_iff (c : Char) :
    backupControlChar c = true ↔ c.toNat = 0 ∨
      c.toNat ∈ [1, 2, 3, 4, 5, 6, 7, 8, 11, 12, 14, 15, 16, 17, 18, 19, 20, 21, 22, 23, 24, 25, 26,
      27, 28, 29, 30, 31] := by
  simp only [backupControlChar, Bool.or_eq_true, Bool.and_eq_true, decide_eq_true_eq, List.mem_cons,
    List.not_mem_nil, or_false]
  omega

@[simp] theorem strip_pgStripC0Controls (s : String) :
    stripBackupControlChars (pgStripC0Controls s) = stripBackupControlChars s := by
  rw [stripBackupControlChars, pgStripC0Controls, String.toList_ofList, List.filter_filter]
  refine congrArg String.ofList (List.filter_congr fun c _ => ?_)
  have h := backupControlChar_iff c
  grind

@[simp] theorem strip_strip (s : String) :
    stripBackupControlChars (stripBackupControlChars s) = stripBackupControlChars s := by
  rw [stripBackupControlChars, stripBackupControlChars, String.toList_ofList, List.filter_filter]
  simp

theorem pgStripC0Controls_of_printable {s : String} (h : Json.Printable s) :
    pgStripC0Controls s = s := by
  have hfilter : s.toList.filter
      (fun c => c.toNat ∉ [1, 2, 3, 4, 5, 6, 7, 8, 11, 12, 14, 15, 16, 17, 18, 19, 20, 21, 22, 23,
        24, 25, 26, 27, 28, 29, 30, 31]) = s.toList := by
    rw [List.filter_eq_self]
    intro c hc
    have hlow := h c hc
    simp only [List.mem_cons, List.not_mem_nil, or_false, decide_eq_true_eq]
    omega
  rw [pgStripC0Controls, hfilter, String.ofList_toList]

/-- `deepSanitizeForBackup` rewrites the texts. -/
theorem deepSanitizeForBackup_eq (v : Json) :
    deepSanitizeForBackup v = v.mapLeaves id stripBackupControlChars := by
  induction v using Json.induction with
  | hnull => rfl
  | hbool b => rfl
  | hnum n => rfl
  | hstr s => rfl
  | harr xs ih =>
    rw [deepSanitizeForBackup, Json.mapLeaves]
    refine congrArg Json.arr ?_
    induction xs with
    | nil => rfl
    | cons x xs ihxs =>
      obtain ⟨hx, hxs⟩ := List.forall_mem_cons.1 ih
      rw [deepSanitizeTable, Json.mapLeavesList, hx, ihxs hxs]
  | hobj fields ih =>
    rw [deepSanitizeForBackup, Json.mapLeaves]
    refine congrArg Json.obj ?_
    induction fields with
    | nil => rfl
    | cons e fields ihfields =>
      obtain ⟨he, hfields⟩ := List.forall_mem_cons.1 ih
      rw [deepSanitizeFields, Json.mapLeavesFields, he, ihfields hfields]

theorem deepSanitizeTable_eq_map (rows : List Json) :
    deepSanitizeTable rows = rows.map deepSanitizeForBackup := by
  induction rows with
  | nil => rfl
  | cons row rows ih => rw [deepSanitizeTable, ih, List.map_cons]

/-! ### The rows of an archive -/

/-- A loop that fails when a test fails. -/
private theorem mapM_eq_some_iff {α β : Type} {f : α → Option β} {p : α → Prop} {g : α → β}
    {xs : List α} {ys : List β} (h : ∀ x ∈ xs, ∀ y, f x = some y ↔ p x ∧ y = g x) :
    xs.mapM f = some ys ↔ (∀ x ∈ xs, p x) ∧ ys = xs.map g := by
  induction xs generalizing ys with
  | nil => simp [eq_comm]
  | cons x xs ih =>
    obtain ⟨hx, hxs⟩ := List.forall_mem_cons.1 h
    rw [List.mapM_cons, List.forall_mem_cons, List.map_cons]
    constructor
    · intro hsome
      obtain ⟨y, hy, hrest⟩ := Option.bind_eq_some_iff.1 hsome
      obtain ⟨zs, hzs, hcons⟩ := Option.bind_eq_some_iff.1 hrest
      obtain ⟨hp, rfl⟩ := (hx y).1 hy
      obtain ⟨hps, rfl⟩ := (ih hxs).1 hzs
      exact ⟨⟨hp, hps⟩, (Option.some.inj hcons).symm⟩
    · rintro ⟨⟨hp, hps⟩, rfl⟩
      rw [(hx _).2 ⟨hp, rfl⟩, (ih hxs).2 ⟨hps, rfl⟩]
      rfl

/-- The database reads what it writes: the texts of the values that it has are read as these values.
A text that is read as a JSON string has quotes around it and is another text. -/
structure Reads (pg : Server) (db : Tables Row) : Prop where
  timestamp : ∀ t ∈ importedTables, ∀ r ∈ db t, ∀ c s, r c = .timestamp s →
    stripBackupControlChars s = s ∧ pg.input .timestamp (.text s) = some (.timestamp s)
  special : ∀ t ∈ importedTables, ∀ r ∈ db t, ∀ c s, r c = .special s →
    stripBackupControlChars s = s ∧ pg.input .float (.text s) = some (.special s)
  jsonb : ∀ t ∈ importedTables, ∀ r ∈ db t, ∀ c v, r c = .json v →
    pg.input .json (.text v.jsonbText) = some (.json v)
  marshal : ∀ t ∈ importedTables, ∀ r ∈ db t, ∀ c v, r c = .json v →
    pg.input .json (.text (deepSanitizeForBackup (v.mapLeaves Float64.reread id)).marshal) =
      some (.json (deepSanitizeForBackup (v.mapLeaves Float64.reread id)))
  string : ∀ s, pg.input .json (.text s) ≠ some (.json (.str s))

/-- The value of the expression of a column. -/
def source (r : Row) (col : Column) : Value :=
  match col.source, r col.name with
  | .z, .text s => .text (pgStripC0Controls s)
  | .zn, .text s => .text (pgStripC0Controls s)
  | .nullif, .text s => if pgStripC0Controls s = "" then .null else .text (pgStripC0Controls s)
  | .coalesce d, .text s => .text (if pgStripC0Controls s = "" then d else pgStripC0Controls s)
  | .coalesceId, .text s => if pgStripC0Controls s = "" then r "id" else .text (pgStripC0Controls s)
  | _, v => v

/-- The JSON object of a row. -/
def rowJson (t : String) (r : Row) : Json :=
  .obj ((columns t).map fun col => (col.name, rowToJson (source r col)))

/-- A JSON value as an archive has it. -/
def archived (v : Json) : Json := deepSanitizeForBackup (v.mapLeaves Float64.reread id)

/-- The numbers of a row can be decoded. -/
def InRange (v : Json) : Prop := (v.allNumbers fun n => (Float64.parse n).isSome) = true

variable {pg : Server} {db : Tables Row} {t : String} {r : Row}

theorem archived_eq (v : Json) :
    archived v = v.mapLeaves Float64.reread stripBackupControlChars := by
  rw [archived, deepSanitizeForBackup_eq, Json.mapLeaves_mapLeaves,
    Function.id_comp, Function.comp_id]

@[simp] theorem deepSanitizeForBackup_archived (v : Json) :
    deepSanitizeForBackup (archived v) = archived v := by
  rw [archived_eq, deepSanitizeForBackup_eq, Json.mapLeaves_mapLeaves, Function.id_comp]
  exact congrArg (fun g => v.mapLeaves Float64.reread g) (funext strip_strip)

theorem sourceValue_eq (h : Reads pg db) (ht : t ∈ importedTables) (hr : r ∈ db t) (col : Column) :
    sourceValue pg r col = some (source r col) := by
  rw [sourceValue, source]
  cases hsource : col.source with
  | zj =>
    cases hv : r col.name with
    | json v =>
      have hread := h.jsonb t ht r hr col.name v hv
      simpa [cast, pgStripC0Controls_of_printable (Json.printable_jsonbText v)] using hread
    | _ => rfl
  | _ => cases r col.name <;> rfl

theorem exportRow_eq (h : Reads pg db) (ht : t ∈ importedTables) (hr : r ∈ db t) :
    exportRow pg t r = some (rowJson t r) := by
  have hfields : (columns t).mapM (fun col =>
      (sourceValue pg r col).map fun v => (col.name, rowToJson v)) =
        some ((columns t).map fun col => (col.name, rowToJson (source r col))) := by
    simp only [sourceValue_eq h ht hr, Option.map_some]
    exact List.mapM_pure
  rw [exportRow, hfields]
  rfl

/-- **The rows of a query.** -/
theorem queryJSONArray_eq_some_iff (h : Reads pg db) (ht : t ∈ importedTables) {rows : List Json} :
    queryJSONArray pg db t = some rows ↔
      (∀ r ∈ db t, InRange (rowJson t r)) ∧
        rows = (db t).map fun r => (rowJson t r).mapLeaves Float64.reread id := by
  have hrows : (db t).mapM (exportRow pg t) = some ((db t).map (rowJson t)) := by
    refine (mapM_eq_some_iff (p := fun _ => True) fun r hr j => ?_).2 ⟨fun _ _ => trivial, rfl⟩
    rw [exportRow_eq h ht hr, Option.some.injEq, true_and, eq_comm]
  have hall : (Json.arr ((db t).map (rowJson t))).allNumbers
      (fun n => (Float64.parse n).isSome) = true ↔ ∀ r ∈ db t, InRange (rowJson t r) := by
    rw [Json.allNumbers, Json.allNumbersList_eq_all, List.all_map, List.all_eq_true]
    rfl
  rw [queryJSONArray, hrows, Option.bind_some, ← hall, Json.unmarshal]
  split_ifs with hr
  · rw [Option.bind_some, Json.mapLeaves, Json.mapLeavesList_eq_map, List.map_map, asRows,
      Option.some.injEq, eq_comm, eq_true hr, true_and]
    rfl
  · exact iff_of_false (by simp) fun h' => hr h'.1

/-- The logs have no numbers. -/
theorem inRange_logs (h : ∀ col ∈ columns "OpenvpnServerLog", col.Admits (r col.name)) :
    InRange (rowJson "OpenvpnServerLog" r) := by
  have htype : ∀ col ∈ columns "OpenvpnServerLog",
      col.source ≠ .zj ∧ (col.type = .text ∨ col.type = .timestamp) := by decide
  have hplain {col : Column} (hcol : col ∈ columns "OpenvpnServerLog") :
      (rowToJson (r col.name)).allNumbers (fun n => (Float64.parse n).isSome) = true := by
    have hadmits := h col hcol
    have htext := (htype col hcol).2
    cases hv : r col.name with
    | null | text s | bool b | special s | timestamp s => rfl
    | _ =>
      rw [hv] at hadmits
      simp only [Column.Admits] at hadmits
      rcases htext with htext | htext <;> simp [htext] at hadmits
  rw [InRange, rowJson, Json.allNumbers, Json.allNumbersFields_eq_all,
    List.all_map, List.all_eq_true]
  intro col hcol
  rw [Function.comp_apply, source]
  cases hv : r col.name with
  | text s =>
    have hid := @hplain ⟨"id", .text, false, .plain⟩ (by decide)
    cases col.source with
    | nullif =>
      dsimp only
      split_ifs <;> rfl
    | coalesceId =>
      dsimp only
      split_ifs
      · exact hid
      · rfl
    | _ => rfl
  | _ =>
    have hcell := hplain hcol
    rw [hv] at hcell
    cases col.source <;> exact hcell

/-- **What `exportAllTablesJSON` has for a table.** -/
theorem exportAllTablesJSON_eq_some_iff (hvalid : Valid db) (h : Reads pg db)
    (ht : t ∈ importedTables) {rows : List Json} :
    exportAllTablesJSON pg db t = some rows ↔
      (∀ r ∈ db t, InRange (rowJson t r)) ∧
        rows = (db t).map fun r => (rowJson t r).mapLeaves Float64.reread id := by
  rw [exportAllTablesJSON]
  split_ifs with hlog
  · subst hlog
    have hall : ∀ r ∈ db "OpenvpnServerLog", InRange (rowJson "OpenvpnServerLog" r) := fun r hr =>
      inRange_logs (hvalid.typed _ ht r hr)
    rw [(queryJSONArray_eq_some_iff h ht).2 ⟨hall, rfl⟩, Option.getD_some,
      Option.some.injEq, eq_comm]
    exact (and_iff_right hall).symm
  · exact queryJSONArray_eq_some_iff h ht

/-- The rows of a table in an archive. -/
def archivedRows (db : Tables Row) (t : String) : List Json :=
  (db t).map fun r => archived (rowJson t r)

/-- The files of an archive. -/
def archiveFiles (db : Tables Row) (createdAt : String) (tableNames names : List String) :
    List ZipFile :=
  ⟨"manifest.json", some (manifestJson createdAt tableNames)⟩ ::
    names.map fun t => ⟨entryName t, some (.arr (archivedRows db t))⟩

/-- The rows in a file are decoded as they are. -/
theorem unmarshal_archivedRows (h : ∀ r ∈ db t, InRange (rowJson t r)) :
    Json.unmarshal (.arr (archivedRows db t)) = some (.arr (archivedRows db t)) := by
  have hrows : Json.unmarshal (.arr ((db t).map (rowJson t))) =
      some ((Json.arr ((db t).map (rowJson t))).mapLeaves Float64.reread id) := by
    refine Json.unmarshal_eq_some_iff.2 ⟨?_, rfl⟩
    rw [Json.allNumbers, Json.allNumbersList_eq_all, List.all_map, List.all_eq_true]
    exact h
  have hread := Json.unmarshal_mapLeaves hrows stripBackupControlChars
  have harchived : ((Json.arr ((db t).map (rowJson t))).mapLeaves Float64.reread id).mapLeaves id
      stripBackupControlChars = .arr (archivedRows db t) := by
    rw [Json.mapLeaves_mapLeaves, Json.mapLeaves, Json.mapLeavesList_eq_map,
      List.map_map, archivedRows]
    exact congrArg Json.arr (List.map_congr_left fun r _ => (archived_eq _).symm)
  rwa [harchived] at hread

/-- **When a backup succeeds**, and what is in the archive. -/
theorem createPanelBackupZip_eq_some_iff (hvalid : Valid db) (h : Reads pg db) {createdAt : String}
    {tableNames names : List String} (hnames : ∀ t ∈ names, t ∈ importedTables)
    {files : List ZipFile} :
    createPanelBackupZip pg db createdAt tableNames names = some files ↔
      (∀ t ∈ names, ∀ r ∈ db t, InRange (rowJson t r)) ∧
        files = archiveFiles db createdAt tableNames names := by
  have hfile : ∀ t ∈ names, ∀ f, ((exportAllTablesJSON pg db t).map fun rows =>
      (⟨entryName t, Json.unmarshal (.arr (deepSanitizeTable rows))⟩ : ZipFile)) = some f ↔
        (∀ r ∈ db t, InRange (rowJson t r)) ∧ f = ⟨entryName t,
        some (.arr (archivedRows db t))⟩ := by
    intro t ht f
    rw [Option.map_eq_some_iff]
    have hstrip : deepSanitizeTable ((db t).map fun r =>
        (rowJson t r).mapLeaves Float64.reread id) = archivedRows db t := by
      rw [deepSanitizeTable_eq_map, List.map_map]
      rfl
    constructor
    · rintro ⟨rows, hrows, rfl⟩
      obtain ⟨hall, rfl⟩ := (exportAllTablesJSON_eq_some_iff hvalid h (hnames t ht)).1 hrows
      rw [hstrip, unmarshal_archivedRows hall]
      exact ⟨hall, rfl⟩
    · rintro ⟨hall, rfl⟩
      refine ⟨_, (exportAllTablesJSON_eq_some_iff hvalid h (hnames t ht)).2 ⟨hall, rfl⟩, ?_⟩
      rw [hstrip, unmarshal_archivedRows hall]
  rw [createPanelBackupZip, Option.map_eq_some_iff]
  constructor
  · rintro ⟨zs, hzs, rfl⟩
    obtain ⟨hall, rfl⟩ := (mapM_eq_some_iff hfile).1 hzs
    exact ⟨hall, rfl⟩
  · rintro ⟨hall, rfl⟩
    exact ⟨_, (mapM_eq_some_iff hfile).2 ⟨hall, rfl⟩, rfl⟩

/-! ### Reading an archive again -/

variable {createdAt : String} {tableNames names : List String}

theorem entryName_inj {s t : String} (h : entryName s = entryName t) : s = t := by
  have hlist := congrArg String.toList h
  exact String.toList_inj.1 (by simpa [entryName] using hlist)

theorem entryName_ne_manifest (t : String) : "manifest.json" ≠ entryName t := by
  intro h
  have hhead := congrArg (fun s => s.toList.head?) h
  simp [entryName] at hhead

theorem manifest_archiveFiles :
    manifest (archiveFiles db createdAt tableNames names) =
      some [("createdAt", .str createdAt), ("format", .str Format),
        ("tables", .arr (tableNames.map .str)), ("version", .num (JsonNumber.ofInt Version))] := rfl

theorem listed_archiveFiles : listed (archiveFiles db createdAt tableNames names) = tableNames := by
  rw [listed, manifest_archiveFiles, Option.map_some, Option.getD_some]
  have htables : manifestTables [("createdAt", .str createdAt), ("format", .str Format),
      ("tables", .arr (tableNames.map .str)), ("version", .num (JsonNumber.ofInt Version))] =
        tableNames.map .str := rfl
  rw [htables, List.filterMap_map]
  exact List.filterMap_some

/-- The file of a table in an archive. -/
theorem file?_archiveFiles (ht : t ∈ names) :
    file? (archiveFiles db createdAt tableNames names) (entryName t) =
      some ⟨entryName t, some (.arr (archivedRows db t))⟩ := by
  rw [file?, archiveFiles, List.find?_cons_of_neg (by simpa using entryName_ne_manifest t)]
  induction names with
  | nil => cases ht
  | cons u names ih =>
    rw [List.map_cons]
    by_cases hu : u = t
    · subst hu
      exact List.find?_cons_of_pos (by simp)
    · have hne : entryName u ≠ entryName t := fun h => hu (entryName_inj h)
      rw [List.find?_cons_of_neg (by simpa using hne)]
      exact ih ((List.mem_cons.1 ht).resolve_left (Ne.symm hu))

/-- The rows that a restore reads are those of the archive. -/
theorem entryRows_archiveFiles (ht : t ∈ names) :
    entryRows (archiveFiles db createdAt tableNames names) t = some (archivedRows db t) := by
  rw [entryRows, file?_archiveFiles ht, Option.bind_some, Option.bind_some, asRows, Option.map_some,
    deepSanitizeTable_eq_map, archivedRows, List.map_map]
  exact congrArg some (List.map_congr_left fun r _ => deepSanitizeForBackup_archived _)

/-- **An archive can be read.** -/
theorem readable_archiveFiles (h : ∀ t ∈ tableNames, t ∈ names) :
    Readable (archiveFiles db createdAt tableNames names) := by
  have hversion : versionOf (.num (JsonNumber.ofInt Version)) = Version := by decide +kernel
  refine ⟨⟨_, manifest_archiveFiles, rfl, hversion⟩, fun t ht _ f hf => ?_⟩
  rw [listed_archiveFiles] at ht
  rw [file?_archiveFiles (h t ht)] at hf
  obtain rfl := Option.some.inj hf
  rfl

theorem dataRows_archiveFiles (ht : t ∈ tableNames) (ht' : t ∈ names) :
    dataRows (archiveFiles db createdAt tableNames names) t = archivedRows db t := by
  rw [dataRows, listed_archiveFiles, if_pos ht, entryRows_archiveFiles ht', Option.getD_some]

end OpenvpnControl.Panelbackup
