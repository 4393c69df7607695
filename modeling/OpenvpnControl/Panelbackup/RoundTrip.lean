import Mathlib.Computability.Primrec.List
import OpenvpnControl.Panelbackup.Export

/-!
# A backup and its restore

Every value goes through `row_to_json`, the decoder of `float64` numbers, two sanitizers and the
statements of the import. A value survives when it comes back as the value that a restore should
give. Whole numbers from `2 ^ 53` on, JSON columns that hold a string or `null`, numbers in JSON
columns that are not the shortest decimal of a `float64`, and empty texts of the logs do not.

## Main definitions

* `restoredValue`, `restoredRow`: what a restore should give.
* `RoundTrip`: a restore of a backup succeeds and gives it.
* `CellSurvives`, `Survives`: the values and the keys that survive.

## Main results

* `cast_importedArg_iff`: when a value survives.
* `roundTrip_iff`: when a database survives.
* `json_string_is_lost`: a database whose backup cannot be restored.
-/

namespace OpenvpnControl.Panelbackup

open Inserts (Tables)

/-! ### What a restore should give -/

/-- The columns of an administrator that a restore clears. -/
def adminTokens : List String :=
  ["inviteToken", "inviteExpiresAt", "passwordResetToken", "passwordResetExpiresAt"]

/-- A value without control characters in its texts. -/
def cleanValue : Value → Value
  | .text s => .text (stripBackupControlChars s)
  | .json v => .json (deepSanitizeForBackup v)
  | v => v

/-- A rewritten text. -/
def Value.mapText (f : String → String) : Value → Value
  | .text s => .text (f s)
  | v => v

/-- The value that a restore should give for the value of a column. -/
def restoredValue (t c : String) (v : Value) : Value :=
  if t = "Admin" ∧ c ∈ adminTokens then .null
  else if t = "Admin" ∧ c = "fullName" then (cleanValue v).mapText GoStrings.trimSpace
  else if t = "Admin" ∧ c = "email" then
    (cleanValue v).mapText fun s => GoStrings.toLower (GoStrings.trimSpace s)
  else cleanValue v

/-- The row that a restore should give for a row. -/
def restoredRow (t : String) (r : Row) : Row := fun c => restoredValue t c (r c)

/-- **The round trip**: the backup succeeds, in whatever order its loops go, and its restore into
any database succeeds and gives the rows that it should. -/
def RoundTrip (pg : Server) (db : Tables Row) : Prop :=
  ∀ createdAt tableNames names, tableNames.Perm exportedTables → names.Perm exportedTables →
    ∃ files, createPanelBackupZip pg db createdAt tableNames names = some files ∧
      ∀ db₀, ∃ db', restorePanelFromZipBuffer (rules pg).engine
          ⟨true, true, true, true⟩ (some files) db₀ = (.ok (), db') ∧
        db' "PanelAppBackup" = [] ∧ ∀ t ∈ importedTables, db' t = (db t).map (restoredRow t)

/-! ### What survives -/

/-- A value comes back: a 64-bit counter is a `float64`; a JSON value is neither a string nor
`null`, and its numbers are decoded as they are; a text of the logs is not empty, and neither is an
address of an administrator. -/
def CellSurvives (t : String) (col : Column) (r : Row) : Prop :=
  match r col.name with
  | .int i => col.type = .bigint → Float64.nearest i = i
  | .json v => v ≠ .null ∧ (∀ s, v ≠ .str s) ∧ v.unmarshal = some v
  | .text s =>
    match col.source with
    | .nullif => pgStripC0Controls s ≠ ""
    | .coalesce _ => pgStripC0Controls s ≠ ""
    | .coalesceId =>
      pgStripC0Controls s ≠ "" ∨ ∀ id, r "id" = .text id → stripBackupControlChars id = ""
    | _ =>
      t = "Admin" → col.name = "email" → GoStrings.trimSpace (stripBackupControlChars s) ≠ ""
  | _ => True

/-- Every value comes back, and no two rows get a key in common. -/
structure Survives (db : Tables Row) : Prop where
  cells : ∀ t ∈ importedTables, ∀ r ∈ db t, ∀ col ∈ columns t, CellSurvives t col r
  keys : ∀ t ∈ importedTables, ((db t).map (restoredRow t)).Pairwise fun r r' =>
    clash t r r' = false

/-! ### The argument of a value -/

/-- The importer changes the value of the column. -/
def Special (t c : String) : Prop :=
  (t = "Admin" ∧ c ∈ "fullName" :: "email" :: adminTokens) ∨
    (t = "ClientTrafficSample" ∧ c ∈ ["rxBytes", "txBytes"])

instance (t c : String) : Decidable (Special t c) :=
  inferInstanceAs (Decidable (_ ∨ _))

/-- The argument that the importer makes of a decoded value. -/
def importedArg (t c : String) (j : Json) : Arg :=
  if t = "Admin" ∧ c ∈ adminTokens then .null
  else if t = "Admin" ∧ c = "fullName" then .text (GoStrings.trimSpace (strVal j))
  else if t = "Admin" ∧ c = "email" then
    if GoStrings.toLower (GoStrings.trimSpace (strVal j)) ≠ "" then
      .text (GoStrings.toLower (GoStrings.trimSpace (strVal j)))
    else .null
  else if t = "Admin" ∧ c = "totpEnabled" ∧ j = .null then .bool false
  else if t = "ClientTrafficSample" ∧ c ∈ ["rxBytes", "txBytes"] then .number (toInt64 j)
  else normalizeInsertValue (.json j)

variable {pg : Server} {db : Tables Row} {t : String} {r : Row} {col : Column}

theorem importedArg_of_not_special {c : String} {j : Json} (h : ¬Special t c) (hj : j ≠ .null) :
    importedArg t c j = normalizeInsertValue (.json j) := by
  simp only [Special, List.mem_cons, not_or, not_and] at h
  obtain ⟨hadmin, htraffic⟩ := h
  rw [importedArg, if_neg fun h' => (hadmin h'.1).2.2 h'.2, if_neg fun h' => (hadmin h'.1).1 h'.2,
    if_neg fun h' => (hadmin h'.1).2.1 h'.2, if_neg fun h' => hj h'.2.2, if_neg]
  simpa using htraffic

/-- The fields of an administrator that the importer makes. -/
theorem lookup_adminRow (m : GoMap Json) (c : String) :
    (adminRow m).lookup c =
      if c ∈ adminTokens then some .null
      else if c = "fullName" then some (.str (GoStrings.trimSpace (strVal (m.get "fullName"))))
      else if c = "email" then
        some (if GoStrings.toLower (GoStrings.trimSpace (strVal (m.get "email"))) ≠ "" then
          .str (GoStrings.toLower (GoStrings.trimSpace (strVal (m.get "email")))) else .null)
      else if c = "totpEnabled" ∧ m.get "totpEnabled" = .null then some (.bool false)
      else m.lookup c := by
  rw [adminRow]
  generalize GoStrings.trimSpace (strVal (m.get "fullName")) = fullName
  generalize GoStrings.toLower (GoStrings.trimSpace (strVal (m.get "email"))) = email
  generalize (if email ≠ "" then Json.str email else .null) = emailPtr
  -- the map before the last field
  have hbefore (k : String) :
      ((((((m.insert "fullName" (.str fullName)).insert "email" emailPtr).insert "inviteToken"
        .null).insert "inviteExpiresAt" .null).insert "passwordResetToken" .null).insert
          "passwordResetExpiresAt" .null).lookup k =
        if k ∈ adminTokens then some .null
        else if k = "fullName" then some (.str fullName)
        else if k = "email" then some emailPtr
        else m.lookup k := by
    simp only [GoMap.lookup_insert_eq, adminTokens, List.mem_cons, List.not_mem_nil, or_false]
    grind
  have hget : GoMap.get ((((((m.insert "fullName" (.str fullName)).insert "email" emailPtr).insert
      "inviteToken" .null).insert "inviteExpiresAt" .null).insert "passwordResetToken" .null).insert
        "passwordResetExpiresAt" .null) "totpEnabled" = m.get "totpEnabled" := by
    rw [GoMap.get, hbefore]
    rfl
  simp only [hget]
  by_cases htotp : m.get "totpEnabled" = .null
  · rw [if_pos htotp, GoMap.lookup_insert_eq, hbefore]
    by_cases hc : c = "totpEnabled"
    · subst hc
      simp [htotp, adminTokens]
    · simp [hc]
  · rw [if_neg htotp, hbefore]
    simp [htotp]

/-- The argument of a field of an administrator. -/
theorem map_lookup_adminRow {m : GoMap Json} {c : String} {j : Json} (h : m.lookup c = some j) :
    ((adminRow m).lookup c).map (normalizeInsertValue ∘ GoAny.json) =
      some (importedArg "Admin" c j) := by
  have hget : m.get c = j := by rw [GoMap.get, h, Option.getD_some]
  rw [lookup_adminRow, importedArg]
  simp only [true_and]
  by_cases htokens : c ∈ adminTokens
  · rw [if_pos htokens, if_pos htokens]
    rfl
  rw [if_neg htokens, if_neg htokens]
  by_cases hname : c = "fullName"
  · rw [if_pos hname, if_pos hname, ← hget, hname]
    rfl
  rw [if_neg hname, if_neg hname]
  by_cases hemail : c = "email"
  · rw [if_pos hemail, if_pos hemail, ← hget, hemail]
    split_ifs <;> rfl
  rw [if_neg hemail, if_neg hemail]
  by_cases htotp : c = "totpEnabled"
  · rw [← htotp, hget]
    split_ifs with hnull htraffic
    · rfl
    · exact absurd htraffic.1 (by decide)
    · rw [h]
      rfl
  · rw [if_neg fun h' => htotp h'.1, if_neg fun h' => htotp h'.1, h, if_neg]
    · rfl
    · simp

/-- **The arguments of the importer**, column by column. -/
theorem lookup_importArgs {m : GoMap Json} {c : String} {j : Json} (h : m.lookup c = some j) :
    (importArgs t m).lookup c = some (importedArg t c j) := by
  have hget : m.get c = j := by rw [GoMap.get, h, Option.getD_some]
  rw [importArgs]
  split_ifs with htraffic
  · subst htraffic
    rw [GoMap.lookup_mapValues, trafficRow, GoMap.lookup_insert_eq, GoMap.lookup_insert_eq,
      GoMap.lookup_mapValues, h]
    split_ifs with htx hrx
    · subst htx
      simp [importedArg, normalizeInsertValue, hget]
    · subst hrx
      simp [importedArg, normalizeInsertValue, hget]
    · simp [importedArg, htx, hrx]
  · rw [rowArgs, GoMap.lookup_mapValues, GoMap.lookup_mapValues, Option.map_map]
    split_ifs with hadmin
    · subst hadmin
      exact map_lookup_adminRow h
    · rw [h, importedArg]
      simp [htraffic, hadmin]

/-! ### A value -/

/-- A column and what the importer does to its values. -/
def ArgFits (t : String) (col : Column) : Prop :=
  (col.source = .zj ↔ col.type = .json) ∧
    (col.type ≠ .text → col.type ≠ .timestamp → col.type ≠ .bigint → ¬Special t col.name) ∧
    (col.type = .bigint → t = "ClientTrafficSample" ∧ col.name ∈ ["rxBytes", "txBytes"]) ∧
    (col.type = .text ∨ col.type = .timestamp → t ≠ "ClientTrafficSample" ∨
      col.name ∉ ["rxBytes", "txBytes"])

/-- A text or time and its expression. -/
def TextFits (t : String) (col : Column) : Prop :=
  (col.type = .timestamp → Special t col.name → t = "Admin" ∧ col.name ∈ adminTokens) ∧
    (col.type = .text → Special t col.name → t = "Admin" ∧ (col.source = .z ∨ col.source = .zn) ∧
      (col.name ∈ adminTokens ∨ col.name = "fullName" ∨ col.name = "email")) ∧
    (col.type = .text →
      col.source ∈ [.plain, .z, .zn, .nullif, .coalesceId, .coalesce "(empty)", .coalesce "."])

/-- A column that can be `NULL`, or that must be there. -/
def NullFits (t : String) (col : Column) : Prop :=
  (col.nullable = true ∨ col.type = .json → importedArg t col.name .null = .null) ∧
    (col.source = .coalesceId →
      t = "OpenvpnServerLog" ∧ ⟨"id", .text, false, .plain⟩ ∈ columns "OpenvpnServerLog") ∧
    (col.source = .nullif → col.nullable = true)

instance (t : String) (col : Column) : Decidable (ArgFits t col) :=
  inferInstanceAs (Decidable (_ ∧ _))

instance (t : String) (col : Column) : Decidable (TextFits t col) :=
  inferInstanceAs (Decidable (_ ∧ _))

instance (t : String) (col : Column) : Decidable (NullFits t col) :=
  inferInstanceAs (Decidable (_ ∧ _))

/-- The columns of the schema. -/
theorem fits : ∀ t ∈ importedTables, ∀ col ∈ columns t,
    ArgFits t col ∧ TextFits t col ∧ NullFits t col := by
  decide +kernel

/-- The columns of the schema that the importer changes, and the expressions of the columns. -/
theorem columns_fit (t : String) (ht : t ∈ importedTables) (col : Column) (hcol : col ∈ columns t) :
    (col.source = .zj ↔ col.type = .json) ∧
      (col.type ≠ .text → col.type ≠ .timestamp → col.type ≠ .bigint → ¬Special t col.name) ∧
      (col.type = .bigint → t = "ClientTrafficSample" ∧ col.name ∈ ["rxBytes", "txBytes"]) ∧
      (col.type = .text ∨ col.type = .timestamp → t ≠ "ClientTrafficSample" ∨
        col.name ∉ ["rxBytes", "txBytes"]) :=
  (fits t ht col hcol).1

/-- A column that may be `NULL` keeps its `NULL`, and so does one of type `JSONB`. -/
theorem importedArg_null (t : String) (ht : t ∈ importedTables) (col : Column)
    (hcol : col ∈ columns t) :
    col.nullable = true ∨ col.type = .json → importedArg t col.name .null = .null :=
  (fits t ht col hcol).2.2.1

/-- The `id` of a log. -/
theorem id_of_coalesceId (t : String) (ht : t ∈ importedTables) (col : Column)
    (hcol : col ∈ columns t) :
    col.source = .coalesceId →
      t = "OpenvpnServerLog" ∧ ⟨"id", .text, false, .plain⟩ ∈ columns "OpenvpnServerLog" :=
  (fits t ht col hcol).2.2.2.1

/-- A column that a restore clears may be `NULL`. -/
theorem nullable_of_token : ∀ col ∈ columns "Admin", col.name ∈ adminTokens →
    col.nullable = true := by
  decide

theorem nullable_of_nullif (t : String) (ht : t ∈ importedTables) (col : Column)
    (hcol : col ∈ columns t) :
    col.source = .nullif → col.nullable = true :=
  (fits t ht col hcol).2.2.2.2

/-- The times that the importer changes are those that it clears. -/
theorem token_of_timestamp (t : String) (ht : t ∈ importedTables) (col : Column)
    (hcol : col ∈ columns t) :
    col.type = .timestamp → Special t col.name → t = "Admin" ∧ col.name ∈ adminTokens :=
  (fits t ht col hcol).2.1.1

/-- The texts that the importer changes are columns of an administrator. -/
theorem admin_of_text (t : String) (ht : t ∈ importedTables) (col : Column)
    (hcol : col ∈ columns t) :
    col.type = .text → Special t col.name → t = "Admin" ∧ (col.source = .z ∨ col.source = .zn) ∧
      (col.name ∈ adminTokens ∨ col.name = "fullName" ∨ col.name = "email") :=
  (fits t ht col hcol).2.1.2.1

/-- The expressions of the texts. -/
theorem source_of_text (t : String) (ht : t ∈ importedTables) (col : Column)
    (hcol : col ∈ columns t) :
    col.type = .text →
      col.source ∈ [.plain, .z, .zn, .nullif, .coalesceId, .coalesce "(empty)", .coalesce "."] :=
  (fits t ht col hcol).2.1.2.2

/-- The numbers of a column can be decoded. -/
def CellInRange (r : Row) (col : Column) : Prop := InRange (rowToJson (source r col))

theorem inRange_rowJson_iff : InRange (rowJson t r) ↔ ∀ col ∈ columns t, CellInRange r col := by
  rw [InRange, rowJson, Json.allNumbers, Json.allNumbersFields_eq_all,
    List.all_map, List.all_eq_true]
  rfl

/-- A value can be decoded, and its argument is stored as the value that a restore should give. -/
def CellRestored (pg : Server) (t : String) (col : Column) (r : Row) : Prop :=
  CellInRange r col ∧
    cast pg col.type (importedArg t col.name (archived (rowToJson (source r col)))) =
      some (restoredValue t col.name (r col.name))

theorem restoredValue_of_not_special {c : String} (h : ¬Special t c) (v : Value) :
    restoredValue t c v = cleanValue v := by
  simp only [Special, List.mem_cons, not_or, not_and] at h
  rw [restoredValue, if_neg fun h' => (h.1 h'.1).2.2 h'.2, if_neg fun h' => (h.1 h'.1).1 h'.2,
    if_neg fun h' => (h.1 h'.1).2.1 h'.2]

theorem restoredValue_null (c : String) : restoredValue t c .null = .null := by
  rw [restoredValue]
  split_ifs <;> rfl

/-- The expression of a column changes texts only. -/
theorem source_of_not_text (h : ∀ s, r col.name ≠ .text s) : source r col = r col.name := by
  rw [source]
  cases hv : r col.name with
  | text s => exact absurd hv (h s)
  | _ => cases col.source <;> rfl

theorem archived_num (n : JsonNumber) : archived (.num n) = .num (Float64.reread n) := by
  rw [archived_eq, Json.mapLeaves]

theorem archived_ne_null {v : Json} (h : v ≠ .null) : archived v ≠ .null := by
  rw [archived_eq]
  cases v with
  | null => exact absurd rfl h
  | _ => nofun

/-- A decoded JSON value is stored as the value that it was when it is no string and its numbers are
what they were. -/
theorem cast_archived_iff {v : Json} (hreads : Reads pg db) (ht : t ∈ importedTables)
    (hr : r ∈ db t) (hv : r col.name = .json v) (hnull : v ≠ .null) :
    cast pg .json (normalizeInsertValue (.json (archived v))) =
      some (.json (deepSanitizeForBackup v)) ↔
      (∀ s, v ≠ .str s) ∧ archived v = deepSanitizeForBackup v := by
  have hmarshal : pg.input .json (.text (archived v).marshal) = some (.json (archived v)) :=
    hreads.marshal t ht r hr col.name v hv
  rw [archived_eq] at hmarshal
  rw [archived_eq, deepSanitizeForBackup_eq]
  cases v with
  | null => exact absurd rfl hnull
  | bool b => exact iff_of_true rfl ⟨by simp, rfl⟩
  | num n =>
    have hread : cast pg .json (.number (Float64.nearest (Float64.reread n).value)) =
        some (.json (.num (Float64.reread n))) := by
      rw [Float64.nearest_reread, cast, Float64.reread]
    simp only [Json.mapLeaves, normalizeInsertValue, hread, Option.some.injEq, Value.json.injEq]
    exact (and_iff_right (by simp)).symm
  | str s => exact iff_of_false (hreads.string _) fun h => h.1 s rfl
  | arr xs =>
    simp only [Json.mapLeaves, normalizeInsertValue, cast] at hmarshal ⊢
    rw [hmarshal, Option.some.injEq, Value.json.injEq]
    exact (and_iff_right (by simp)).symm
  | obj fields =>
    simp only [Json.mapLeaves, normalizeInsertValue, cast] at hmarshal ⊢
    rw [hmarshal, Option.some.injEq, Value.json.injEq]
    exact (and_iff_right (by simp)).symm

/-- The value of a column that the importer does not change. -/
theorem cellRestored_iff {v : Value} {j : Json} (hspecial : ¬Special t col.name)
    (hv : r col.name = v) (hj : archived (rowToJson (source r col)) = j) (hne : j ≠ .null) :
    CellRestored pg t col r ↔
      CellInRange r col ∧
        cast pg col.type (normalizeInsertValue (.json j)) = some (cleanValue v) := by
  rw [CellRestored, hj, importedArg_of_not_special hspecial hne, hv,
    restoredValue_of_not_special hspecial]

theorem cellInRange_int {i : ℤ} (hv : r col.name = .int i) (hlow : -2 ^ 63 ≤ i)
    (hhigh : i < 2 ^ 63) :
    CellInRange r col := by
  rw [CellInRange, source_of_not_text (by simp [hv]), hv, InRange, rowToJson, Json.allNumbers]
  exact Float64.isSome_parse_ofInt hlow hhigh

/-- The columns that the importer clears are given as `NULL`. -/
theorem cellRestored_token (htoken : t = "Admin" ∧ col.name ∈ adminTokens)
    (hrange : CellInRange r col) : CellRestored pg t col r := by
  rw [CellRestored, importedArg, if_pos htoken, restoredValue, if_pos htoken, cast]
  exact ⟨hrange, rfl⟩

theorem cellInRange_text {s : String} (hv : r col.name = .text s)
    (hid : col.source = .coalesceId → ∃ id, r "id" = .text id) : CellInRange r col := by
  rw [CellInRange, source, hv]
  cases hsource : col.source with
  | nullif =>
    dsimp only
    split_ifs <;> rfl
  | coalesceId =>
    obtain ⟨id, hid'⟩ := hid hsource
    simp only [hid']
    split_ifs <;> rfl
  | _ => rfl

/-- A text of an administrator that the importer changes. -/
theorem cellRestored_special_text_iff {s : String} (hadmin : t = "Admin")
    (hv : r col.name = .text s) (htype : col.type = .text)
    (hsource : col.source = .z ∨ col.source = .zn) (hname : col.name ∈ adminTokens ∨
      col.name = "fullName" ∨ col.name = "email") :
    CellRestored pg t col r ↔ CellSurvives t col r := by
  have hnot : col.source ≠ .coalesceId := by
    rcases hsource with h | h <;> rw [h] <;> decide
  have hrange : CellInRange r col := cellInRange_text hv fun h => absurd h hnot
  have harchived : archived (rowToJson (source r col)) = .str (stripBackupControlChars s) := by
    have htext : source r col = .text (pgStripC0Controls s) := by
      rw [source, hv]
      rcases hsource with h | h <;> rw [h]
    rw [htext, rowToJson, archived_eq, Json.mapLeaves, strip_pgStripC0Controls]
  have hsurvives : CellSurvives t col r ↔
      (t = "Admin" → col.name = "email" →
        GoStrings.trimSpace (stripBackupControlChars s) ≠ "") := by
    rw [CellSurvives, hv]
    rcases hsource with h | h <;> rw [h]
  have hemail : "email" ∉ adminTokens := by decide
  have hfull : "fullName" ∉ adminTokens := by decide
  rw [hsurvives]
  by_cases htoken : col.name ∈ adminTokens
  · exact iff_of_true (cellRestored_token ⟨hadmin, htoken⟩ hrange) fun _ h =>
      absurd (h ▸ htoken) hemail
  have htoken' : ¬(t = "Admin" ∧ col.name ∈ adminTokens) := fun h => htoken h.2
  rw [CellRestored, and_iff_right hrange, harchived, importedArg, if_neg htoken', restoredValue,
    if_neg htoken', htype, hv]
  rcases hname.resolve_left htoken with hname | hname
  · have hadmin' : t = "Admin" ∧ col.name = "fullName" := ⟨hadmin, hname⟩
    rw [if_pos hadmin', if_pos hadmin']
    exact iff_of_true rfl fun _ h => absurd (hname.symm.trans h) (by decide)
  · have hadmin' : t = "Admin" ∧ col.name = "email" := ⟨hadmin, hname⟩
    have hnot' : ¬(t = "Admin" ∧ col.name = "fullName") := fun h =>
      absurd (hname.symm.trans h.2) (by decide)
    have hval : strVal (.str (stripBackupControlChars s)) = stripBackupControlChars s :=
      Json.sprint_str _
    rw [if_neg hnot', if_neg hnot', if_pos hadmin', if_pos hadmin', hval]
    simp only [hadmin, hname, true_imp_iff]
    by_cases hblank : GoStrings.trimSpace (stripBackupControlChars s) = ""
    · rw [hblank, if_neg (by decide)]
      exact iff_of_false (fun h => by cases h) fun h => h rfl
    · have hlower : GoStrings.toLower (GoStrings.trimSpace (stripBackupControlChars s)) ≠ "" := by
        rwa [ne_eq, GoStrings.toLower_eq_empty_iff]
      rw [if_pos hlower]
      exact iff_of_true rfl hblank

section Cells

variable (ht : t ∈ importedTables) (hcol : col ∈ columns t)

include ht hcol

/-- A column of another type than texts, times and counters is not changed. -/
theorem not_special_of_type {type : ColumnType} (h : col.type = type)
    (hplain : type ≠ .text ∧ type ≠ .timestamp ∧ type ≠ .bigint) : ¬Special t col.name :=
  (columns_fit t ht col hcol).2.1 (h ▸ hplain.1) (h ▸ hplain.2.1) (h ▸ hplain.2.2)

theorem cellRestored_null (hv : r col.name = .null) (hadmits : col.Admits .null) :
    CellRestored pg t col r := by
  have hsource : source r col = .null := by rw [source_of_not_text (by simp [hv]), hv]
  refine ⟨?_, ?_⟩
  · rw [CellInRange, hsource]
    rfl
  · have harchived : archived (rowToJson .null) = .null := rfl
    rw [hsource, harchived, importedArg_null t ht col hcol (.inl hadmits), hv,
      restoredValue_null, cast]

theorem cellRestored_bool {b : Bool} (hv : r col.name = .bool b) (hadmits : col.Admits (.bool b)) :
    CellRestored pg t col r := by
  have htype : col.type = .bool := hadmits
  have hsource : source r col = .bool b := by rw [source_of_not_text (by simp [hv]), hv]
  rw [cellRestored_iff (not_special_of_type ht hcol htype (by decide)) hv
    (by rw [hsource]; rfl : _ = Json.bool b) (by simp), CellInRange, hsource, htype]
  exact ⟨rfl, rfl⟩

theorem cellRestored_float {q : ℚ} (hv : r col.name = .float q) (hadmits : col.Admits (.float q)) :
    CellRestored pg t col r := by
  obtain ⟨htype, hfloat, hrange⟩ : col.type = .float ∧ Float64.nearest q = q ∧ |q| < 2 ^ 1024 :=
    hadmits
  have hsource : source r col = .float q := by rw [source_of_not_text (by simp [hv]), hv]
  have hread : Float64.nearest (Float64.format q).value = q := Float64.nearest_format hfloat
  have harchived : archived (rowToJson (source r col)) =
      .num (Float64.reread (Float64.format q)) := by
    rw [hsource, rowToJson, archived_num]
  rw [cellRestored_iff (not_special_of_type ht hcol htype (by decide)) hv harchived (by simp),
    CellInRange, hsource, htype]
  refine ⟨?_, ?_⟩
  · rw [InRange, rowToJson, Json.allNumbers, Float64.parse, hread, if_pos hrange]
    rfl
  · rw [normalizeInsertValue, Float64.nearest_reread, hread]
    rfl

/-- A whole number in a column of type `INTEGER`. -/
theorem cellRestored_int {i : ℤ} (hv : r col.name = .int i) (htype : col.type = .int)
    (hlow : -2 ^ 31 ≤ i) (hhigh : i < 2 ^ 31) : CellRestored pg t col r := by
  have hread : Float64.nearest i = i := Float64.nearest_intCast (by omega) (by omega)
  have harchived : archived (rowToJson (source r col)) =
      .num (Float64.reread (JsonNumber.ofInt i)) := by
    rw [source_of_not_text (by simp [hv]), hv, rowToJson, archived_num]
  rw [cellRestored_iff (not_special_of_type ht hcol htype (by decide)) hv harchived (by simp),
    htype]
  refine ⟨cellInRange_int hv (by omega) (by omega), ?_⟩
  rw [normalizeInsertValue, Float64.nearest_reread, JsonNumber.value_ofInt, hread, cast,
    Int.floor_intCast, if_pos ⟨rfl, hlow, hhigh⟩]
  rfl

/-- **A counter** comes back when it is a `float64`. -/
theorem cellRestored_bigint_iff {i : ℤ} (hv : r col.name = .int i) (htype : col.type = .bigint)
    (hlow : -2 ^ 63 ≤ i) (hhigh : i < 2 ^ 63) :
    CellRestored pg t col r ↔ Float64.nearest i = i := by
  obtain ⟨rfl, hname⟩ := (columns_fit t ht col hcol).2.2.1 htype
  have harchived : archived (rowToJson (source r col)) =
      .num (Float64.reread (JsonNumber.ofInt i)) := by
    rw [source_of_not_text (by simp [hv]), hv, rowToJson, archived_num]
  have hrange : CellInRange r col := cellInRange_int hv hlow hhigh
  have hrestored : restoredValue "ClientTrafficSample" col.name (.int i) = .int i := by
    simp [restoredValue, cleanValue]
  have harg : importedArg "ClientTrafficSample" col.name
      (.num (Float64.reread (JsonNumber.ofInt i))) =
      .number (Float64.toInt64 (Float64.nearest i)) := by
    simp only [importedArg, toInt64, Float64.nearest_reread, JsonNumber.value_ofInt]
    rw [if_neg (by simp), if_neg (by simp), if_neg (by simp), if_neg (by simp),
      if_pos ⟨trivial, hname⟩]
  obtain ⟨hlow', hhigh'⟩ := Float64.toInt64_mem (Float64.nearest i)
  rw [CellRestored, and_iff_right hrange, harchived, harg, hv, hrestored, htype, cast,
    Int.floor_intCast, if_pos ⟨rfl, hlow', hhigh'⟩, Option.some.injEq, Value.int.injEq]
  exact Float64.toInt64_nearest_eq_iff hlow hhigh

theorem cellRestored_special {s : String} (hreads : Reads pg db) (hr : r ∈ db t)
    (hv : r col.name = .special s) (hadmits : col.Admits (.special s)) :
    CellRestored pg t col r := by
  have htype : col.type = .float := hadmits
  obtain ⟨hstrip, hread⟩ := hreads.special t ht r hr col.name s hv
  have hsource : source r col = .special s := by rw [source_of_not_text (by simp [hv]), hv]
  have harchived : archived (rowToJson (source r col)) = .str s := by
    rw [hsource, rowToJson, archived_eq, Json.mapLeaves, hstrip]
  rw [cellRestored_iff (not_special_of_type ht hcol htype (by decide)) hv harchived (by simp),
    CellInRange, hsource, htype]
  exact ⟨rfl, hread⟩

theorem cellRestored_timestamp {s : String} (hreads : Reads pg db) (hr : r ∈ db t)
    (hv : r col.name = .timestamp s) (hadmits : col.Admits (.timestamp s)) :
    CellRestored pg t col r := by
  have htype : col.type = .timestamp := hadmits
  obtain ⟨hstrip, hread⟩ := hreads.timestamp t ht r hr col.name s hv
  have hsource : source r col = .timestamp s := by rw [source_of_not_text (by simp [hv]), hv]
  have hrange : CellInRange r col := by
    rw [CellInRange, hsource]
    rfl
  by_cases hspecial : Special t col.name
  · exact cellRestored_token (token_of_timestamp t ht col hcol htype hspecial) hrange
  have harchived : archived (rowToJson (source r col)) = .str s := by
    rw [hsource, rowToJson, archived_eq, Json.mapLeaves, hstrip]
  rw [cellRestored_iff hspecial hv harchived (by simp), htype]
  exact ⟨hrange, hread⟩

/-- **A JSON value** comes back when it is neither a string nor `null` and its numbers are decoded
as they are. -/
theorem cellRestored_json_iff {v : Json} (hreads : Reads pg db) (hr : r ∈ db t)
    (hv : r col.name = .json v) (hadmits : col.Admits (.json v)) :
    CellRestored pg t col r ↔ v ≠ .null ∧ (∀ s, v ≠ .str s) ∧ v.unmarshal = some v := by
  have htype : col.type = .json := hadmits
  have hspecial : ¬Special t col.name := not_special_of_type ht hcol htype (by decide)
  have hsource : source r col = .json v := by rw [source_of_not_text (by simp [hv]), hv]
  have hrestored : restoredValue t col.name (.json v) = .json (deepSanitizeForBackup v) :=
    restoredValue_of_not_special hspecial _
  rw [CellRestored, CellInRange, hsource, rowToJson, hv, hrestored, htype]
  by_cases hnull : v = .null
  · have harg : importedArg t col.name (archived v) = .null := by
      rw [hnull]
      exact importedArg_null t ht col hcol (.inr htype)
    rw [harg, cast]
    exact iff_of_false (by simp) fun h => h.1 hnull
  have harg : importedArg t col.name (archived v) = normalizeInsertValue (.json (archived v)) :=
    importedArg_of_not_special hspecial (archived_ne_null hnull)
  rw [harg, cast_archived_iff hreads ht hr hv hnull, archived_eq, deepSanitizeForBackup_eq]
  constructor
  · rintro ⟨hrange, hstr, heq⟩
    have hun : v.unmarshal = some (v.mapLeaves Float64.reread id) :=
      Json.unmarshal_eq_some_iff.2 ⟨hrange, rfl⟩
    refine ⟨hnull, hstr, (Json.unmarshal_eq_self_iff hun stripBackupControlChars).1 ?_⟩
    rw [Json.mapLeaves_mapLeaves]
    exact heq
  · rintro ⟨-, hstr, hun⟩
    have hun' : v.unmarshal = some (v.mapLeaves Float64.reread id) :=
      Json.unmarshal_eq_some_iff.2 ⟨(Json.unmarshal_eq_some_iff.1 hun).1, rfl⟩
    have heq := (Json.unmarshal_eq_self_iff hun' stripBackupControlChars).2 hun
    rw [Json.mapLeaves_mapLeaves] at heq
    exact ⟨(Json.unmarshal_eq_some_iff.1 hun).1, hstr, heq⟩

/-- **A text** comes back when it is not replaced by a default. -/
theorem cellRestored_text_iff {s : String} (hv : r col.name = .text s)
    (hadmits : col.Admits (.text s)) (hid : col.source = .coalesceId → ∃ id, r "id" = .text id) :
    CellRestored pg t col r ↔ CellSurvives t col r := by
  have htype : col.type = .text := hadmits
  by_cases hspecial : Special t col.name
  · obtain ⟨hadmin, hsource, hname⟩ := admin_of_text t ht col hcol htype hspecial
    exact cellRestored_special_text_iff hadmin hv htype hsource hname
  have hrange : CellInRange r col := cellInRange_text hv hid
  have hrestored : restoredValue t col.name (r col.name) = .text (stripBackupControlChars s) := by
    rw [hv, restoredValue_of_not_special hspecial, cleanValue]
  -- a text is stored as it is
  have hstored {u : String} (hu : source r col = .text u) :
      CellRestored pg t col r ↔ stripBackupControlChars u = stripBackupControlChars s := by
    have harchived : archived (rowToJson (source r col)) = .str (stripBackupControlChars u) := by
      rw [hu, rowToJson, archived_eq, Json.mapLeaves]
    rw [cellRestored_iff hspecial hv harchived (by simp), and_iff_right hrange, htype, cleanValue,
      normalizeInsertValue, cast, Option.some.injEq, Value.text.injEq]
  have hempty (h : pgStripC0Controls s = "") : stripBackupControlChars s = "" := by
    rw [← strip_pgStripC0Controls, h]
    rfl
  have hplain (h : source r col = .text (pgStripC0Controls s)) : CellRestored pg t col r :=
    (hstored h).2 (strip_pgStripC0Controls s)
  have hadmin (P : Prop) : t = "Admin" → col.name = "email" → P := fun ht' hname =>
    absurd (.inl ⟨ht', by rw [hname]; decide⟩) hspecial
  rw [CellSurvives, hv]
  have hmem := source_of_text t ht col hcol htype
  cases hsource : col.source with
  | plain => exact iff_of_true ((hstored (by rw [source, hv, hsource])).2 rfl) (hadmin _)
  | z => exact iff_of_true (hplain (by rw [source, hv, hsource])) (hadmin _)
  | zn => exact iff_of_true (hplain (by rw [source, hv, hsource])) (hadmin _)
  | zj => simp [hsource] at hmem
  | nullif =>
    dsimp only
    by_cases h : pgStripC0Controls s = ""
    · have hnull : archived (rowToJson (source r col)) = .null := by
        have hvalue : source r col = .null := by
          rw [source, hv, hsource]
          exact if_pos h
        rw [hvalue]
        rfl
      rw [CellRestored, hnull, importedArg_null t ht col hcol
        (.inl (nullable_of_nullif t ht col hcol hsource)), hrestored, cast]
      exact iff_of_false (by simp) (not_not.2 h)
    · exact iff_of_true (hplain (by rw [source, hv, hsource]; exact if_neg h)) h
  | coalesce d =>
    dsimp only
    by_cases h : pgStripC0Controls s = ""
    · rw [hstored (u := d) (by rw [source, hv, hsource]; exact congrArg _ (if_pos h)), hempty h]
      have hd : d = "(empty)" ∨ d = "." := by simpa [hsource] using hmem
      refine iff_of_false ?_ (not_not.2 h)
      rcases hd with rfl | rfl <;> decide
    · exact iff_of_true (hplain (by rw [source, hv, hsource]; exact congrArg _ (if_neg h))) h
  | coalesceId =>
    dsimp only
    by_cases h : pgStripC0Controls s = ""
    · obtain ⟨id, hid'⟩ := hid hsource
      rw [hstored (u := id) (by rw [source, hv, hsource, ← hid']; exact if_pos h), hempty h]
      simp [h, hid']
    · exact iff_of_true (hplain (by rw [source, hv, hsource]; exact if_neg h)) (.inl h)

/-- **A value** comes back when it survives. -/
theorem cellRestored_iff_survives (hvalid : Valid db) (hreads : Reads pg db) (hr : r ∈ db t) :
    CellRestored pg t col r ↔ CellSurvives t col r := by
  have hadmits := hvalid.typed t ht r hr col hcol
  cases hv : r col.name with
  | null =>
    exact iff_of_true (cellRestored_null ht hcol hv (hv ▸ hadmits))
      (by rw [CellSurvives, hv]; trivial)
  | bool b =>
    exact iff_of_true (cellRestored_bool ht hcol hv (hv ▸ hadmits))
      (by rw [CellSurvives, hv]; trivial)
  | float q =>
    exact iff_of_true (cellRestored_float ht hcol hv (hv ▸ hadmits))
      (by rw [CellSurvives, hv]; trivial)
  | special s =>
    have h := cellRestored_special ht hcol hreads hr hv (hv ▸ hadmits)
    exact iff_of_true h (by rw [CellSurvives, hv]; trivial)
  | timestamp s =>
    have h := cellRestored_timestamp ht hcol hreads hr hv (hv ▸ hadmits)
    exact iff_of_true h (by rw [CellSurvives, hv]; trivial)
  | int i =>
    rw [CellSurvives, hv]
    rw [hv] at hadmits
    rcases hadmits with ⟨htype, hlow, hhigh⟩ | ⟨htype, hlow, hhigh⟩
    · exact iff_of_true (cellRestored_int ht hcol hv htype hlow hhigh) fun h =>
        absurd (htype.symm.trans h) (by decide)
    · simp only [cellRestored_bigint_iff ht hcol hv htype hlow hhigh, htype, true_imp_iff]
  | json v =>
    rw [cellRestored_json_iff ht hcol hreads hr hv (hv ▸ hadmits), CellSurvives, hv]
  | text s =>
    refine cellRestored_text_iff ht hcol hv (hv ▸ hadmits) fun hsource => ?_
    obtain ⟨rfl, hid⟩ := id_of_coalesceId t ht col hcol hsource
    have hadmits' := hvalid.typed _ ht r hr _ hid
    cases hv' : r "id" with
    | text id => exact ⟨id, rfl⟩
    | _ =>
      rw [hv'] at hadmits'
      simp [Column.Admits] at hadmits'

end Cells

/-! ### A row -/

/-- The columns of the schema that the importer makes. -/
theorem made_columns :
    (∀ c ∈ "fullName" :: "email" :: "totpEnabled" :: adminTokens,
      c ∈ (columns "Admin").map Column.name) ∧
    ∀ c ∈ ["rxBytes", "txBytes"], c ∈ (columns "ClientTrafficSample").map Column.name := by
  decide

/-- The importer gives no other columns. -/
theorem lookup_importArgs_none {m : GoMap Json} {c : String} (h : m.lookup c = none)
    (hc : c ∉ (columns t).map Column.name) : (importArgs t m).lookup c = none := by
  obtain ⟨hadmin, htraffic⟩ := made_columns
  rw [importArgs]
  split_ifs with ht
  · subst ht
    have hne : c ∉ ["rxBytes", "txBytes"] := fun h' => hc (htraffic c h')
    simp only [List.mem_cons, List.not_mem_nil, or_false, not_or] at hne
    rw [GoMap.lookup_mapValues, trafficRow, GoMap.lookup_insert_eq, GoMap.lookup_insert_eq,
      GoMap.lookup_mapValues, h, if_neg hne.2, if_neg hne.1]
    rfl
  · rw [rowArgs, GoMap.lookup_mapValues, GoMap.lookup_mapValues]
    split_ifs with ht'
    · subst ht'
      have hne : c ∉ "fullName" :: "email" :: "totpEnabled" :: adminTokens :=
        fun h' => hc (hadmin c h')
      simp only [List.mem_cons, not_or] at hne
      rw [lookup_adminRow, if_neg hne.2.2.2, if_neg hne.1, if_neg hne.2.1,
        if_neg fun h' => hne.2.2.1 h'.1, h]
      rfl
    · rw [h]
      rfl

/-- The arguments of a row of the archive. -/
def archivedArgs (t : String) (r : Row) : GoMap Arg :=
  importArgs t (GoMap.ofList (archived (rowJson t r)).asFields)

theorem asFields_archived_rowJson (t : String) (r : Row) :
    (archived (rowJson t r)).asFields =
      (columns t).map fun col => (col.name, archived (rowToJson (source r col))) := by
  rw [archived_eq, rowJson, Json.mapLeaves, Json.asFields,
    Json.mapLeavesFields_eq_map, List.map_map]
  exact List.map_congr_left fun col _ => by rw [Function.comp_apply, archived_eq]

theorem lookup_archivedArgs (ht : t ∈ importedTables) (hcol : col ∈ columns t) :
    (archivedArgs t r).lookup col.name =
      some (importedArg t col.name (archived (rowToJson (source r col)))) := by
  rw [archivedArgs, asFields_archived_rowJson]
  exact lookup_importArgs (GoMap.lookup_ofList_map (nodup_columns t ht)
    (fun col => archived (rowToJson (source r col))) hcol)

theorem lookup_archivedArgs_none {c : String} (hc : c ∉ (columns t).map Column.name) :
    (archivedArgs t r).lookup c = none := by
  rw [archivedArgs, asFields_archived_rowJson]
  exact lookup_importArgs_none (GoMap.lookup_ofList_map_none _ hc) hc

theorem storedValue_archivedArgs (ht : t ∈ importedTables) (hcol : col ∈ columns t) :
    storedValue pg t (archivedArgs t r) col =
      cast pg col.type (importedArg t col.name (archived (rowToJson (source r col)))) := by
  rw [storedValue, lookup_archivedArgs ht hcol]
  rfl

/-- The column of a name. -/
theorem find?_columns {cols : List Column} (h : (cols.map Column.name).Nodup) (hcol : col ∈ cols) :
    cols.find? (·.name = col.name) = some col := by
  induction cols with
  | nil => cases hcol
  | cons c cols ih =>
    rw [List.map_cons, List.nodup_cons] at h
    rcases List.mem_cons.1 hcol with rfl | hcol
    · exact List.find?_cons_of_pos (by simp)
    · have hne : c.name ≠ col.name := fun h' => h.1 (h' ▸ List.mem_map_of_mem hcol)
      rw [List.find?_cons_of_neg (by simpa using hne)]
      exact ih h.2 hcol

/-- The value of a column in the row that is stored. -/
theorem row_archivedArgs (ht : t ∈ importedTables) (hcol : col ∈ columns t) :
    (rules pg).row t (archivedArgs t r) col.name =
      (cast pg col.type
        (importedArg t col.name (archived (rowToJson (source r col))))).getD .null := by
  show ((columns t).find? (·.name = col.name)).elim Value.null _ = _
  rw [find?_columns (nodup_columns t ht) hcol, ← storedValue_archivedArgs ht hcol]
  rfl

/-- The arguments fit the columns of the table. -/
theorem typed_archivedArgs_iff (ht : t ∈ importedTables) :
    (rules pg).typed t (archivedArgs t r) = true ↔ ∀ col ∈ columns t, ∃ v,
      cast pg col.type (importedArg t col.name (archived (rowToJson (source r col)))) = some v ∧
        (col.nullable = true ∨ v ≠ .null) := by
  have hkeys : ∀ c ∈ (archivedArgs t r).keys, c ∈ (columns t).map Column.name := by
    intro c hc
    by_contra hnot
    rw [Finmap.mem_keys, ← Finmap.lookup_isSome, lookup_archivedArgs_none hnot] at hc
    cases hc
  have htyped : (rules pg).typed t (archivedArgs t r) =
      (decide (∀ c ∈ (archivedArgs t r).keys, c ∈ (columns t).map Column.name) &&
        (columns t).all fun col => (storedValue pg t (archivedArgs t r) col).any fun v =>
          col.nullable || decide (v ≠ .null)) := rfl
  rw [htyped, decide_eq_true hkeys, Bool.true_and, List.all_eq_true]
  refine forall₂_congr fun col hcol => ?_
  rw [storedValue_archivedArgs ht hcol, Option.any_eq_true]
  simp only [Bool.or_eq_true, decide_eq_true_eq]

/-- A value that is restored as `NULL` was `NULL` or is cleared. -/
theorem nullable_of_restoredValue (hvalid : Valid db) (ht : t ∈ importedTables) (hr : r ∈ db t)
    (hcol : col ∈ columns t) (h : restoredValue t col.name (r col.name) = .null) :
    col.nullable = true := by
  by_cases htoken : t = "Admin" ∧ col.name ∈ adminTokens
  · obtain ⟨rfl, hname⟩ := htoken
    exact nullable_of_token col hcol hname
  have hnull : r col.name = .null := by
    rw [restoredValue, if_neg htoken] at h
    cases hv : r col.name with
    | null => rfl
    | _ =>
      rw [hv] at h
      split_ifs at h <;> cases h
  have hadmits := hvalid.typed t ht r hr col hcol
  rwa [hnull] at hadmits

/-- **A row** is accepted and stored as it should be when its values come back. -/
theorem row_restored_iff (hvalid : Valid db) (hreads : Reads pg db) (ht : t ∈ importedTables)
    (hr : r ∈ db t) (hrange : ∀ col ∈ columns t, CellInRange r col) :
    (rules pg).typed t (archivedArgs t r) = true ∧
        (rules pg).row t (archivedArgs t r) = restoredRow t r ↔
      ∀ col ∈ columns t, CellSurvives t col r := by
  have hcells : (∀ col ∈ columns t, CellSurvives t col r) ↔ ∀ col ∈ columns t,
      cast pg col.type (importedArg t col.name (archived (rowToJson (source r col)))) =
        some (restoredValue t col.name (r col.name)) := by
    refine forall₂_congr fun col hcol => ?_
    rw [← cellRestored_iff_survives ht hcol hvalid hreads hr, CellRestored,
      and_iff_right (hrange col hcol)]
  rw [hcells, typed_archivedArgs_iff ht]
  constructor
  · rintro ⟨htyped, hrow⟩ col hcol
    obtain ⟨v, hv, -⟩ := htyped col hcol
    have hvalue := congrFun hrow col.name
    rw [row_archivedArgs ht hcol, hv, Option.getD_some] at hvalue
    rw [hv, hvalue, restoredRow]
  · intro h
    refine ⟨fun col hcol => ⟨_, h col hcol, ?_⟩, funext fun c => ?_⟩
    · rw [or_iff_not_imp_right, not_not]
      exact nullable_of_restoredValue hvalid ht hr hcol
    by_cases hc : c ∈ (columns t).map Column.name
    · obtain ⟨col, hcol, rfl⟩ := List.mem_map.1 hc
      rw [row_archivedArgs ht hcol, h col hcol, Option.getD_some, restoredRow]
    · have hfind : (columns t).find? (·.name = c) = none := by
        rw [List.find?_eq_none]
        intro col hcol h
        exact hc (List.mem_map.2 ⟨col, hcol, by simpa using h⟩)
      show ((columns t).find? (·.name = c)).elim Value.null _ = _
      rw [hfind, restoredRow, hvalid.others t ht r hr c hc, restoredValue_null]
      rfl

/-! ### The tables -/

/-- The references of the schema. -/
theorem references_fit : ∀ t ∈ importedTables, ∀ e ∈ references t,
    e.2 ∈ importedTables ∧ ¬Special t e.1 ∧ ¬Special e.2 "id" := by
  decide +kernel

theorem mem_targets {p : String × (Row → Bool)} (hp : p ∈ targets t r) :
    ∃ e ∈ references t, r e.1 ≠ .null ∧ p = (e.2, fun p => decide (p "id" = r e.1)) := by
  obtain ⟨e, he, rfl⟩ := List.mem_map.1 hp
  obtain ⟨href, hne⟩ := List.mem_filter.1 he
  exact ⟨e, href, by simpa using hne, rfl⟩

/-- The importer goes from the tables that others point into to those that point into them. -/
theorem ordered_importedTables : (rules pg).Ordered importedTables := by
  have hlater : importedTables.Pairwise fun t u => ∀ e ∈ references t, e.2 ≠ u := by decide
  have hself : ∀ t ∈ importedTables, ∀ e ∈ references t, e.2 ≠ t := by decide
  refine ⟨nodup_importedTables, hlater.imp fun h r p hp => ?_, fun t ht r p hp => ?_⟩
  · obtain ⟨e, he, -, rfl⟩ := mem_targets hp
    exact h e he
  · obtain ⟨e, he, -, rfl⟩ := mem_targets hp
    exact hself t ht e he

/-- The rows that should be restored point to rows that should be restored. -/
theorem pointed_restoredRow (hvalid : Valid db) (ht : t ∈ importedTables) (hr : r ∈ db t)
    {db' : Tables Row} (hdb' : ∀ u ∈ importedTables, db' u = (db u).map (restoredRow u)) :
    (rules pg).Pointed db' t (restoredRow t r) := by
  intro p hp
  obtain ⟨e, he, hne, rfl⟩ := mem_targets hp
  obtain ⟨htable, hspecial, hid⟩ := references_fit t ht e he
  have hnull : r e.1 ≠ .null := fun h => hne (by rw [restoredRow, h, restoredValue_null])
  obtain ⟨r', hr', hpoint⟩ := hvalid.references t ht r hr e he hnull
  refine ⟨restoredRow e.2 r', ?_, ?_⟩
  · rw [hdb' _ htable]
    exact List.mem_map_of_mem hr'
  · rw [decide_eq_true_eq, restoredRow, restoredRow, restoredValue_of_not_special hid,
      restoredValue_of_not_special hspecial, hpoint]

/-- The statements of the import of an archive. -/
theorem tableInserts_archivedRows (h : t = "PanelAppBackupSettings" → db t ≠ []) :
    tableInserts t (archivedRows db t) = (db t).map (archivedArgs t) := by
  have hobj : ∀ row ∈ archivedRows db t, row.isObj = true := by
    intro row hrow
    obtain ⟨r, -, rfl⟩ := List.mem_map.1 hrow
    rw [archived_eq]
    rfl
  rw [tableInserts_eq_map hobj
    fun ht => by simpa [archivedRows] using h ht, archivedRows, List.map_map]
  rfl

theorem imported_of_perm {names : List String} (h : names.Perm exportedTables) :
    ∀ t ∈ names, t ∈ importedTables := fun _ ht => exportedTables_perm.mem_iff.1 (h.mem_iff.1 ht)

section Main

variable (hvalid : Valid db) (hreads : Reads pg db) (hsettings : db "PanelAppBackupSettings" ≠ [])

include hvalid hreads hsettings

/-- **The import of an archive**: every statement is accepted, and the tables are what they should
be, when everything survives. -/
theorem import_iff {createdAt : String} {tableNames names : List String}
    (htables : tableNames.Perm exportedTables) (hnames : names.Perm exportedTables)
    (hrange : ∀ t ∈ importedTables, ∀ r ∈ db t, InRange (rowJson t r)) (db₀ : Tables Row) :
    ((rules pg).engine.Accepted (wipeApplicationData db₀)
        (inserts (archiveFiles db createdAt tableNames names)) ∧
      ∀ t ∈ importedTables, (rules pg).engine.putAll (wipeApplicationData db₀)
        (inserts (archiveFiles db createdAt tableNames names)) t = (db t).map (restoredRow t)) ↔
      Survives db := by
  have hdata : ∀ t ∈ importedTables,
      tableInserts t (dataRows (archiveFiles db createdAt tableNames names) t) =
        (db t).map (archivedArgs t) := by
    intro t ht
    have hmem := exportedTables_perm.mem_iff.2 ht
    rw [dataRows_archiveFiles (htables.mem_iff.2 hmem) (hnames.mem_iff.2 hmem),
      tableInserts_archivedRows fun h => h ▸ hsettings]
  have hstored : ∀ t ∈ importedTables, (rules pg).engine.putAll (wipeApplicationData db₀)
      (inserts (archiveFiles db createdAt tableNames names)) t =
        (db t).map fun r => (rules pg).row t (archivedArgs t r) := by
    intro t ht
    rw [restored_rows ht, hdata t ht, List.map_map]
    rfl
  have haccepted := (rules pg).accepted_tableByTable (@ordered_importedTables pg)
    (fun t => tableInserts t (dataRows (archiveFiles db createdAt tableNames names) t))
    (wipeApplicationData db₀) fun t ht => wiped_of_imported ht
  rw [← inserts] at haccepted
  rw [haccepted]
  have hrow {t : String} (ht : t ∈ importedTables) {r : Row} (hr : r ∈ db t) :=
    row_restored_iff hvalid hreads ht hr (inRange_rowJson_iff.1 (hrange t ht r hr))
  constructor
  · rintro ⟨hacc, hrestored⟩
    have hrows : ∀ t ∈ importedTables, ∀ r ∈ db t,
        (rules pg).row t (archivedArgs t r) = restoredRow t r := by
      intro t ht
      have h := hrestored t ht
      rw [hstored t ht] at h
      exact List.map_inj_left.1 h
    refine ⟨fun t ht r hr => (hrow ht hr).1 ⟨?_, hrows t ht r hr⟩, fun t ht => ?_⟩
    · have htyped := (hacc t ht).1
      rw [hdata t ht] at htyped
      exact htyped _ (List.mem_map_of_mem hr)
    · have hdistinct := (hacc t ht).2.1
      have hmap : (db t).map ((rules pg).row t ∘ archivedArgs t) = (db t).map (restoredRow t) :=
        List.map_congr_left (hrows t ht)
      rw [hdata t ht, List.map_map, hmap] at hdistinct
      exact hdistinct
  · rintro ⟨hcells, hkeys⟩
    have hrows : ∀ t ∈ importedTables, ∀ r ∈ db t, (rules pg).typed t (archivedArgs t r) = true ∧
        (rules pg).row t (archivedArgs t r) = restoredRow t r :=
      fun t ht r hr => (hrow ht hr).2 (hcells t ht r hr)
    have hrestored : ∀ t ∈ importedTables, (rules pg).engine.putAll (wipeApplicationData db₀)
        (inserts (archiveFiles db createdAt tableNames names)) t = (db t).map (restoredRow t) := by
      intro t ht
      rw [hstored t ht]
      exact List.map_congr_left fun r hr => (hrows t ht r hr).2
    refine ⟨fun t ht => ?_, hrestored⟩
    rw [hdata t ht]
    refine ⟨?_, ?_, ?_⟩
    · intro a ha
      obtain ⟨r, hr, rfl⟩ := List.mem_map.1 ha
      exact (hrows t ht r hr).1
    · rw [List.map_map]
      have hmap : (db t).map ((rules pg).row t ∘ archivedArgs t) = (db t).map (restoredRow t) :=
        List.map_congr_left fun r hr => (hrows t ht r hr).2
      rw [hmap]
      exact hkeys t ht
    · intro a ha
      obtain ⟨r, hr, rfl⟩ := List.mem_map.1 ha
      rw [(hrows t ht r hr).2]
      exact pointed_restoredRow hvalid ht hr hrestored

/-- A database that comes back survives. -/
theorem survives_of_roundTrip (h : RoundTrip pg db) : Survives db := by
  obtain ⟨files, hzip, hrestore⟩ := h "" exportedTables exportedTables (.refl _) (.refl _)
  obtain ⟨hrange, rfl⟩ :=
    (createPanelBackupZip_eq_some_iff hvalid hreads (imported_of_perm (.refl _))).1 hzip
  have hrange' : ∀ t ∈ importedTables, ∀ r ∈ db t, InRange (rowJson t r) := fun t ht =>
    hrange t (exportedTables_perm.mem_iff.2 ht)
  obtain ⟨db', hok, -, hrows⟩ := hrestore db
  have hnot : ¬Stopped (rules pg).engine ⟨true, true, true, true⟩
      (some (archiveFiles db "" exportedTables exportedTables)) db := by
    intro hstop
    obtain ⟨e, he⟩ := restore_of_stopped hstop
    rw [he] at hok
    cases hok
  obtain ⟨files, hfiles, hacc, hrun⟩ := restore_of_not_stopped hnot
  obtain rfl := Option.some.inj hfiles
  rw [hrun] at hok
  obtain rfl := (Prod.mk.inj hok).2
  exact (import_iff hvalid hreads hsettings (.refl _) (.refl _) hrange' db).1 ⟨hacc, hrows⟩

/-- A database that survives comes back. -/
theorem roundTrip_of_survives (h : Survives db) : RoundTrip pg db := by
  intro createdAt tableNames names htables hnames
  have hrange : ∀ t ∈ importedTables, ∀ r ∈ db t, InRange (rowJson t r) := by
    intro t ht r hr
    rw [inRange_rowJson_iff]
    intro col hcol
    exact ((cellRestored_iff_survives ht hcol hvalid hreads hr).2 (h.cells t ht r hr col hcol)).1
  refine ⟨_, (createPanelBackupZip_eq_some_iff hvalid hreads (imported_of_perm hnames)).2
    ⟨fun t ht => hrange t (imported_of_perm hnames t ht), rfl⟩, fun db₀ => ?_⟩
  obtain ⟨hacc, hrows⟩ := (import_iff hvalid hreads hsettings htables hnames hrange db₀).2 h
  have hnot : ¬Stopped (rules pg).engine ⟨true, true, true, true⟩
      (some (archiveFiles db createdAt tableNames names)) db₀ := by
    intro hstop
    rcases hstop _ rfl with hread | hout | hrefused
    · exact hread (readable_archiveFiles fun t ht => hnames.mem_iff.2 (htables.mem_iff.1 ht))
    · exact hout rfl
    · exact hrefused hacc
  obtain ⟨files, hfiles, -, hrun⟩ := restore_of_not_stopped hnot
  obtain rfl := Option.some.inj hfiles
  exact ⟨_, hrun, restored_panelAppBackup, hrows⟩

end Main

/-- **When a database survives a backup and its restore**: every stored value is one that the query
writes, the archive keeps and the import reads back as it was, and no two rows get a key in common
on the way. -/
theorem roundTrip_iff (hvalid : Valid db) (hreads : Reads pg db)
    (hsettings : db "PanelAppBackupSettings" ≠ []) : RoundTrip pg db ↔ Survives db :=
  ⟨survives_of_roundTrip hvalid hreads hsettings, roundTrip_of_survives hvalid hreads hsettings⟩

/-! ### An organization with firewall rules -/

/-- A row with the listed values. -/
def rowOf (values : List (String × Value)) : Row := fun c => (values.lookup c).getD .null

/-- One organization, with a value in the column `firewallRules`, and the settings of the
backups. -/
def organizationDb (firewallRules : Json) : Tables Row
  | "Organization" =>
    [rowOf [("id", .text "org-1"), ("name", .text "Office"), ("firewallRules", .json firewallRules),
      ("createdAt", .timestamp "2024-05-01T10:00:00"),
      ("updatedAt", .timestamp "2024-05-01T10:00:00")]]
  | "PanelAppBackupSettings" =>
    [rowOf [("id", .int 1), ("intervalMinutes", .int 0), ("retainCount", .int 10),
      ("updatedAt", .timestamp "2024-05-01T10:00:00")]]
  | _ => []

/-- PostgreSQL on the texts of these rows. -/
def organizationServer : Server where
  input
    | .timestamp, .text "2024-05-01T10:00:00" => some (.timestamp "2024-05-01T10:00:00")
    | .json, .text "[true]" => some (.json (.arr [.bool true]))
    | .json, .text "\"any\"" => some (.json (.str "any"))
    | _, _ => none
  default _ _ := .null

theorem rowOf_of_not_mem {values : List (String × Value)} {c : String}
    (h : c ∉ values.map Prod.fst) :
    rowOf values c = .null := by
  rw [rowOf, List.lookup_eq_none_iff.2 fun e he => ?_]
  · rfl
  · have hne : c ≠ e.1 := fun h' => h (h' ▸ List.mem_map_of_mem he)
    simpa using hne

/-- The rows of these tables. -/
theorem mem_organizationDb {firewallRules : Json} (hr : r ∈ organizationDb firewallRules t) :
    ∃ values, r = rowOf values ∧ (∀ e ∈ values, e.1 ∈ (columns t).map Column.name) ∧
      (∀ e ∈ values, match e.2 with
        | .json v => v = firewallRules
        | .timestamp s => s = "2024-05-01T10:00:00"
        | .special _ => False
        | _ => True) ∧
      (∀ col ∈ columns t, col.Admits (rowOf values col.name)) ∧ references t = [] := by
  rw [organizationDb.eq_def] at hr
  split at hr
  · obtain rfl := List.mem_singleton.1 hr
    refine ⟨_, rfl, ?_, ?_, ?_, rfl⟩
    · simp [columns, organizationSQL]
    · simp
    · simp [columns, organizationSQL, rowOf, List.lookup, Column.Admits]
  · obtain rfl := List.mem_singleton.1 hr
    refine ⟨_, rfl, ?_, ?_, ?_, rfl⟩
    · simp [columns, panelAppBackupSettingsSQL]
    · simp
    · simp [columns, panelAppBackupSettingsSQL, rowOf, List.lookup, Column.Admits]
  · cases hr

theorem valid_organizationDb (firewallRules : Json) : Valid (organizationDb firewallRules) where
  typed t ht r hr := by
    obtain ⟨values, rfl, -, -, htyped, -⟩ := mem_organizationDb hr
    exact htyped
  others t ht r hr c hc := by
    obtain ⟨values, rfl, hvalues, -⟩ := mem_organizationDb hr
    refine rowOf_of_not_mem fun h => hc ?_
    obtain ⟨e, he, rfl⟩ := List.mem_map.1 h
    exact hvalues e he
  distinct t ht := by
    rw [organizationDb.eq_def]
    split <;> first | exact List.pairwise_singleton _ _ | exact List.Pairwise.nil
  references t ht r hr e he := by
    obtain ⟨values, rfl, -, -, -, href⟩ := mem_organizationDb hr
    rw [href] at he
    cases he

/-- A value of one of these rows. -/
theorem value_organizationDb {firewallRules : Json} (hr : r ∈ organizationDb firewallRules t)
    (c : String) :
    match r c with
      | .json v => v = firewallRules
      | .timestamp s => s = "2024-05-01T10:00:00"
      | .special _ => False
      | _ => True := by
  obtain ⟨values, rfl, -, hvalues, -⟩ := mem_organizationDb hr
  rw [rowOf]
  cases h : values.lookup c with
  | none => trivial
  | some v =>
    obtain ⟨before, after, rfl, -⟩ := List.lookup_eq_some_iff.1 h
    exact hvalues (c, v) (by simp)

theorem reads_organizationDb {firewallRules : Json}
    (hjsonb : organizationServer.input .json (.text firewallRules.jsonbText) =
      some (.json firewallRules))
    (hmarshal : organizationServer.input .json (.text (archived firewallRules).marshal) =
      some (.json (archived firewallRules))) :
    Reads organizationServer (organizationDb firewallRules) where
  timestamp t ht r hr c s hv := by
    have h := value_organizationDb hr c
    rw [hv] at h
    rw [h]
    exact ⟨by decide +kernel, rfl⟩
  special t ht r hr c s hv := by
    have h := value_organizationDb hr c
    rw [hv] at h
    exact h.elim
  jsonb t ht r hr c v hv := by
    have h := value_organizationDb hr c
    rw [hv] at h
    rw [h]
    exact hjsonb
  marshal t ht r hr c v hv := by
    have h := value_organizationDb hr c
    rw [hv] at h
    rw [h]
    exact hmarshal
  string s h := by
    simp only [organizationServer] at h
    split at h <;> simp_all

/-- A list of firewall rules comes back when the other values do. -/
theorem roundTrip_iff_organizationDb :
    RoundTrip organizationServer (organizationDb (.arr [.bool true])) ↔
      Survives (organizationDb (.arr [.bool true])) :=
  roundTrip_iff (valid_organizationDb _)
    (reads_organizationDb (by decide +kernel) (by decide +kernel)) nofun

/-- **A JSON string is lost**: a backup of an organization whose firewall rules are a string cannot
be restored as it was. -/
theorem json_string_is_lost :
    Valid (organizationDb (.str "any")) ∧ Reads organizationServer (organizationDb (.str "any")) ∧
      organizationDb (.str "any") "PanelAppBackupSettings" ≠ [] ∧
      organizationDb (.str "any") "Admin" = [] ∧
      ¬RoundTrip organizationServer (organizationDb (.str "any")) := by
  have hreads : Reads organizationServer (organizationDb (.str "any")) :=
    reads_organizationDb (by decide +kernel) (by decide +kernel)
  refine ⟨valid_organizationDb _, hreads, nofun, rfl, fun h => ?_⟩
  have hsurvives := survives_of_roundTrip (valid_organizationDb _) hreads nofun h
  have hcell := hsurvives.cells "Organization" (by decide) _ (List.mem_singleton.2 rfl)
    ⟨"firewallRules", .json, true, .zj⟩ (by decide)
  exact hcell.2.1 "any" rfl

end OpenvpnControl.Panelbackup
