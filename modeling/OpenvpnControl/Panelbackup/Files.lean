import OpenvpnControl.Library.Newest
import OpenvpnControl.Library.Runs
import OpenvpnControl.Panelbackup.Schema

/-!
# The files of the backups

A backup is a row of `PanelAppBackup` and a file in the directory of the backups.
`CreatePanelBackupZip`, `PruneOldBackups` and `RestorePanelFromZipBuffer` write and remove the two
in separate steps, each of which can fail.

## Main definitions

* `World`: the database, the rows of `PanelAppBackup` and the files.
* `createPanelBackup`, `pruneOldBackups`, `restorePanel`: the operations, with what happens in their
  steps.
* `Backed`: every row has its file.
* `Operation.Safe`: no row is left whose file was not written or was removed.

## Main results

* `backed_step`: what one operation keeps.
* `backups_createPanelBackup`: a backup without failures keeps the newest rows.
* `inStep_of_safe`: rows and files stay in step in every run of safe operations.
-/

namespace OpenvpnControl.Panelbackup

open Inserts (Tables)

/-! ### Rows and files -/

/-- A row of `PanelAppBackup`. The time is in milliseconds, as the column has it. -/
structure BackupRow where
  id : String
  fileName : String
  sizeBytes : ℕ
  trigger : String
  createdAt : ℕ
  deriving DecidableEq

/-- The state between two operations: the other tables, `PanelAppBackup`, and the regular files in
the directory of the backups. -/
structure World where
  db : Tables Row
  backups : List BackupRow
  files : String → Option (List UInt8)

/-- The name of the file of a backup. -/
def zipName (id : String) : String := id ++ ".zip"

/-- Every row of `PanelAppBackup` has its file, of the size that the row says; `id` is the primary
key. -/
structure Backed (w : World) : Prop where
  distinct : (w.backups.map BackupRow.id).Nodup
  file : ∀ b ∈ w.backups, ∃ bytes, w.files (zipName b.id) = some bytes ∧ bytes.length = b.sizeBytes

/-- Which step of an operation fails. -/
inductive BackupFailure where
  | mkdirAll
  | archive
  | settings
  | insert
  | writeFile
  | list
  deriving DecidableEq

/-! ### The settings -/

structure SettingsRow where
  intervalMinutes : ℤ
  retainCount : ℤ
  lastScheduledAt : Value
  deriving DecidableEq

/-- `Scan` of a row of `PanelAppBackupSettings`. -/
def scanSettings (r : Row) : Option SettingsRow :=
  match r "intervalMinutes", r "retainCount" with
  | .int interval, .int retain => some ⟨interval, retain, r "lastScheduledAt"⟩
  | _, _ => none

/-- The settings that `EnsureBackupSettingsRow` inserts. -/
def defaultSettingsRow (now : String) : Row
  | "id" => .int 1
  | "intervalMinutes" => .int 0
  | "retainCount" => .int 10
  | "lastScheduledAt" | "updatedAt" => .timestamp now
  | _ => .null

/-- The row of `PanelAppBackupSettings` that the statements read. -/
def settingsRow (db : Tables Row) : Option Row :=
  (db "PanelAppBackupSettings").find? fun r => r "id" = .int 1

/-- `EnsureBackupSettingsRow`, where `query` and `insert` say whether its statements succeed. -/
def ensureBackupSettingsRow (query insert : Bool) (now : String) (db : Tables Row) :
    Except BackupFailure SettingsRow × Tables Row :=
  if !query then (.error .settings, db)
  else match settingsRow db with
    | some r => ((scanSettings r).elim (.error .settings) .ok, db)
    | none =>
      if insert then (.ok ⟨0, 10, .timestamp now⟩, Function.update db "PanelAppBackupSettings"
        (db "PanelAppBackupSettings" ++ [defaultSettingsRow now]))
      else (.error .settings, db)

/-! ### Pruning -/

/-- What happens in the steps of `PruneOldBackups`. -/
structure PruneRun where
  /-- Do the statements of `EnsureBackupSettingsRow` succeed? -/
  query : Bool
  insert : Bool
  now : String
  /-- The ids that the query gives in its order; the loop stops early when the query breaks off. -/
  listing : Option (List String)
  /-- Is the file of a backup removed, and its row? -/
  removes : String → Bool
  deletes : String → Bool

/-- The bounds on the number of backups. -/
def clampRetain (retain : ℤ) : ℕ :=
  let retain := if retain < 1 then 1 else retain
  (if retain > 500 then 500 else retain).toNat

/-- One turn of the loop of `PruneOldBackups`, which goes on when a step fails. -/
def pruneOne (p : PruneRun) (w : World) (id : String) : World :=
  let w := if p.removes id then { w with files := Function.update w.files (zipName id) none } else w
  if p.deletes id then { w with backups := w.backups.filter (·.id ≠ id) } else w

def pruneOldBackups (p : PruneRun) (w : World) : Except BackupFailure Unit × World :=
  match ensureBackupSettingsRow p.query p.insert p.now w.db with
  | (.error e, db) => (.error e, { w with db := db })
  | (.ok settings, db) =>
    match p.listing with
    | none => (.error .list, { w with db := db })
    | some ids =>
      if ids.length ≤ clampRetain settings.retainCount then (.ok (), { w with db := db })
      else (.ok (), (ids.drop (clampRetain settings.retainCount)).foldl
        (pruneOne p) { w with db := db })

/-! ### Backups -/

/-- What `os.WriteFile` does. When it fails, the file stays as it was or has what was written so
far. -/
inductive WriteOutcome where
  | written
  | failed (left : Option (List UInt8))

/-- What happens in the steps of `CreatePanelBackupZip`. -/
structure CreateRun where
  trigger : String
  mkdirAll : Bool
  /-- The archive, where `none` is a failure of the export or of the zip writer. -/
  zipBytes : Option (List UInt8)
  /-- `time.Now().UTC()` in the format of the file name. -/
  nowText : String
  /-- `ksuid.New()`. -/
  id : String
  /-- `NOW()`. -/
  createdAt : ℕ
  insert : Bool
  write : WriteOutcome
  prune : PruneRun

/-- `strings.NewReplacer(":", "-", ".", "-")` on a time. -/
def fileNameTime (s : String) : String := s.map fun c => if c = ':' ∨ c = '.' then '-' else c

/-- The row that a backup inserts. -/
def CreateRun.row (c : CreateRun) (zipBytes : List UInt8) : BackupRow where
  id := c.id
  fileName := "panel-backup-" ++ fileNameTime c.nowText ++ ".zip"
  sizeBytes := zipBytes.length
  trigger := if c.trigger = "" then "manual" else c.trigger
  createdAt := c.createdAt

/-- Is the row stored? The id is a primary key and the size is an `INTEGER`. -/
def CreateRun.stores (c : CreateRun) (w : World) (zipBytes : List UInt8) : Bool :=
  c.insert && decide (c.id ∉ w.backups.map BackupRow.id) && decide (zipBytes.length < 2 ^ 31)

/-- The state with the row and with a file that has the content `left`. -/
def CreateRun.withFile (c : CreateRun) (w : World) (zipBytes left : List UInt8) : World :=
  { w with backups := w.backups ++ [c.row zipBytes]
           files := Function.update w.files (zipName c.id) (some left) }

/-- `CreatePanelBackupZip`. -/
def createPanelBackup (c : CreateRun) (w : World) : Except BackupFailure BackupRow × World :=
  if !c.mkdirAll then (.error .mkdirAll, w)
  else match c.zipBytes with
    | none => (.error .archive, w)
    | some zipBytes =>
      if !c.stores w zipBytes then (.error .insert, w)
      else match c.write with
        | .failed none => (.error .writeFile, { w with backups := w.backups ++ [c.row zipBytes] })
        | .failed (some left) => (.error .writeFile, c.withFile w zipBytes left)
        | .written =>
          match pruneOldBackups c.prune (c.withFile w zipBytes zipBytes) with
          | (.error e, w') => (.error e, w')
          | (.ok (), w') => (.ok (c.row zipBytes), w')

/-! ### Restoring -/

/-- What happens in the steps of `RestorePanelFromZipBuffer`. -/
structure RestoreRun where
  out : Outcomes
  archive : Option (List ZipFile)
  readDir : Bool
  removes : String → Bool

/-- `RestorePanelFromZipBuffer`. The transaction empties `PanelAppBackup`, so the last `DELETE`
finds no rows. -/
def restorePanel (E : Engine Row) (r : RestoreRun) (w : World) : Except Failure Unit × World :=
  match restorePanelFromZipBuffer E r.out r.archive w.db with
  | (.error e, db) => (.error e, { w with db := db })
  | (.ok (), db) =>
    (.ok (), { db := db, backups := [], files := fun name =>
      if r.readDir && ".zip".toList.isSuffixOf name.toList && r.removes name then
        none else w.files name })

/-! ### Runs -/

inductive Operation where
  | create (c : CreateRun)
  | prune (p : PruneRun)
  | restore (r : RestoreRun)

def step (E : Engine Row) (w : World) : Operation → Option World
  | .create c => some (createPanelBackup c w).2
  | .prune p => some (pruneOldBackups p w).2
  | .restore r => some (restorePanel E r w).2

/-- No row that is pruned loses its file and stays. -/
def PruneRun.Safe (p : PruneRun) (w : World) : Prop :=
  ∀ settings ids, (ensureBackupSettingsRow p.query p.insert p.now w.db).1 =
    .ok settings → p.listing = some ids →
    ∀ id ∈ ids.drop (clampRetain settings.retainCount), p.removes id = true → p.deletes id = true

/-- The file of a row that is stored is written, and the pruning is safe. -/
def CreateRun.Safe (c : CreateRun) (w : World) : Prop :=
  ∀ zipBytes, c.mkdirAll = true → c.zipBytes = some zipBytes → c.stores w zipBytes = true →
    c.write = .written ∧ c.prune.Safe w

/-- The operations that keep rows and files in step. -/
def Operation.Safe (w : World) : Operation → Prop
  | .create c => c.Safe w
  | .prune p => p.Safe w
  | .restore _ => True

/-- A pruning without failures: the query gives all rows, from the newest to the oldest. -/
structure PruneRun.Faultless (p : PruneRun) (backups : List BackupRow) : Prop where
  query : p.query = true
  insert : p.insert = true
  listing : ∃ rows : List BackupRow, rows.Perm backups ∧
    rows.Pairwise (fun a b => b.createdAt ≤ a.createdAt) ∧ p.listing = some (rows.map BackupRow.id)
  removes : ∀ id, p.removes id = true
  deletes : ∀ id, p.deletes id = true

/-- A backup without failures. -/
structure CreateRun.Faultless (c : CreateRun) (w : World) (zipBytes : List UInt8) : Prop where
  mkdirAll : c.mkdirAll = true
  archive : c.zipBytes = some zipBytes
  stores : c.stores w zipBytes = true
  write : c.write = .written
  prune : c.prune.Faultless (w.backups ++ [c.row zipBytes])

/-- The number of backups to keep, where `none` is a row that cannot be scanned. -/
def retainCount (db : Tables Row) : Option ℤ :=
  match settingsRow db with
  | some r => (scanSettings r).map SettingsRow.retainCount
  | none => some 10

/-- Rows and files are in step, and a backup without failures keeps the newest rows. -/
structure InStep (w : World) : Prop where
  backed : Backed w
  newest : ∀ c zipBytes n, c.Faultless w zipBytes → retainCount w.db = some n →
    ((w.backups ++ [c.row zipBytes]).map BackupRow.createdAt).Nodup →
      (createPanelBackup c w).2.backups =
        Newest.newest BackupRow.createdAt (max 1 (min 500 n)).toNat (w.backups ++ [c.row zipBytes])

variable {w : World} {p : PruneRun} {c : CreateRun} {r : RestoreRun}

/-! ### One operation -/

theorem zipName_inj {id id' : String} (h : zipName id = zipName id') : id = id' := by
  rw [zipName, zipName, ← String.toList_inj, String.toList_append, String.toList_append,
    List.append_cancel_right_eq] at h
  exact String.toList_inj.1 h

/-- The other tables do not matter. -/
theorem Backed.congr {w' : World} (h : Backed w) (hbackups : w'.backups = w.backups)
    (hfiles : w'.files = w.files) :
    Backed w' where
  distinct := hbackups ▸ h.distinct
  file := by
    rw [hbackups, hfiles]
    exact h.file

theorem pruneOne_backups (p : PruneRun) (w : World) (id : String) :
    (pruneOne p w id).backups = if p.deletes id then w.backups.filter (·.id ≠ id)
    else w.backups := by
  rw [pruneOne]
  cases p.removes id <;> cases p.deletes id <;> rfl

theorem pruneOne_files (p : PruneRun) (w : World) (id : String) :
    (pruneOne p w id).files = if p.removes id then Function.update w.files (zipName id) none
    else w.files := by
  rw [pruneOne]
  cases p.removes id <;> cases p.deletes id <;> rfl

/-- A row and its file go together. -/
theorem Backed.pruneOne {id : String} (h : Backed w)
    (hsafe : p.removes id = true → p.deletes id = true) :
    Backed (pruneOne p w id) := by
  have hsub : (Panelbackup.pruneOne p w id).backups.Sublist w.backups := by
    rw [pruneOne_backups]
    split_ifs
    · exact List.filter_sublist
    · exact List.Sublist.refl _
  refine ⟨h.distinct.sublist (hsub.map _), fun b hb => ?_⟩
  rw [pruneOne_files]
  split_ifs with hremoves
  · -- the row of the file that is removed is deleted
    rw [pruneOne_backups, if_pos (hsafe hremoves), List.mem_filter, decide_eq_true_eq] at hb
    rw [Function.update_of_ne fun hname => hb.2 (zipName_inj hname)]
    exact h.file b hb.1
  · exact h.file b (hsub.mem hb)

theorem Backed.pruneAll {ids : List String} (h : Backed w)
    (hsafe : ∀ id ∈ ids, p.removes id = true → p.deletes id = true) :
    Backed (ids.foldl (Panelbackup.pruneOne p) w) := by
  induction ids generalizing w with
  | nil => exact h
  | cons id ids ih =>
    obtain ⟨hid, hids⟩ := List.forall_mem_cons.1 hsafe
    exact ih (h.pruneOne hid) hids

/-- **A safe pruning** keeps rows and files in step. -/
theorem Backed.pruneOldBackups (h : Backed w) (hsafe : p.Safe w) :
    Backed (pruneOldBackups p w).2 := by
  rw [Panelbackup.pruneOldBackups]
  rcases hensure : ensureBackupSettingsRow p.query p.insert p.now w.db with ⟨e | settings, db⟩
  · exact h.congr rfl rfl
  · cases hlisting : p.listing with
    | none => exact h.congr rfl rfl
    | some ids =>
      dsimp only
      split_ifs
      · exact h.congr rfl rfl
      · have hread : Backed { w with db := db } := h.congr rfl rfl
        exact hread.pruneAll (hsafe settings ids (by rw [hensure]) hlisting)

/-- The row and the file of a backup are added together. -/
theorem Backed.written {zipBytes : List UInt8} (h : Backed w)
    (hstores : c.stores w zipBytes = true) :
    Backed (c.withFile w zipBytes zipBytes) where
  distinct := by
    rw [CreateRun.stores, Bool.and_eq_true, Bool.and_eq_true, decide_eq_true_eq] at hstores
    rw [CreateRun.withFile, List.map_append, List.nodup_append]
    refine ⟨h.distinct, List.nodup_singleton _, fun a ha b hb => ?_⟩
    rw [List.map_singleton, List.mem_singleton] at hb
    subst hb
    exact ne_of_mem_of_not_mem ha hstores.1.2
  file b hb := by
    rw [CreateRun.stores, Bool.and_eq_true, Bool.and_eq_true, decide_eq_true_eq] at hstores
    dsimp only [CreateRun.withFile] at hb ⊢
    obtain hb | hb := List.mem_append.1 hb
    · have hother : b.id ≠ c.id := ne_of_mem_of_not_mem (List.mem_map_of_mem hb) hstores.1.2
      rw [Function.update_of_ne fun hname => hother (zipName_inj hname)]
      exact h.file b hb
    · obtain rfl := List.mem_singleton.1 hb
      exact ⟨zipBytes, Function.update_self _ _ _, rfl⟩

/-- **A safe backup** keeps rows and files in step. -/
theorem Backed.createPanelBackup (h : Backed w) (hsafe : c.Safe w) :
    Backed (createPanelBackup c w).2 := by
  rw [Panelbackup.createPanelBackup]
  split_ifs with hmkdir
  · exact h
  cases harchive : c.zipBytes with
  | none => exact h
  | some zipBytes =>
    dsimp only
    split_ifs with hrefused
    · exact h
    have hstores : c.stores w zipBytes = true := by simpa using hrefused
    obtain ⟨hwrite, hprune⟩ := hsafe zipBytes (by simpa using hmkdir) harchive hstores
    have hwritten := (h.written hstores).pruneOldBackups hprune
    rw [hwrite]
    dsimp only
    split <;> rename_i heq <;> rw [heq] at hwritten <;> exact hwritten

/-- A restore leaves all rows or none. -/
theorem Backed.restorePanel (E : Engine Row) (h : Backed w) : Backed (restorePanel E r w).2 := by
  rw [Panelbackup.restorePanel]
  split
  · exact h.congr rfl rfl
  · exact ⟨List.nodup_nil, nofun⟩

/-- **What one operation keeps.** -/
theorem backed_step (E : Engine Row) (w : World) (e : Operation) (w' : World) (h : Backed w)
    (hsafe : e.Safe w) (hstep : step E w e = some w') : Backed w' := by
  cases e with
  | create c =>
    obtain rfl := Option.some.inj hstep
    exact h.createPanelBackup hsafe
  | prune p =>
    obtain rfl := Option.some.inj hstep
    exact h.pruneOldBackups hsafe
  | restore r =>
    obtain rfl := Option.some.inj hstep
    exact h.restorePanel E

/-! ### The newest rows -/

theorem clampRetain_eq (n : ℤ) : clampRetain n = (max 1 (min 500 n)).toNat := by
  rw [clampRetain]
  split_ifs <;> omega

theorem ensureBackupSettingsRow_of_retainCount {db : Tables Row} {n : ℤ}
    (h : retainCount db = some n) (now : String) :
    ∃ settings db', ensureBackupSettingsRow true true now db = (.ok settings, db') ∧
    settings.retainCount = n := by
  rw [retainCount] at h
  rw [ensureBackupSettingsRow]
  cases hrow : settingsRow db with
  | none =>
    rw [hrow] at h
    exact ⟨_, _, rfl, Option.some.inj h⟩
  | some r =>
    rw [hrow, Option.map_eq_some_iff] at h
    obtain ⟨settings, hscan, rfl⟩ := h
    exact ⟨settings, db, by simp [hscan], rfl⟩

theorem backups_foldl_pruneOne (hdeletes : ∀ id, p.deletes id = true) (ids : List String)
    (w : World) :
    (ids.foldl (pruneOne p) w).backups = w.backups.filter fun b => b.id ∉ ids := by
  induction ids generalizing w with
  | nil => simp
  | cons id ids ih =>
    rw [List.foldl_cons, ih, pruneOne_backups, if_pos (hdeletes id), List.filter_filter]
    refine List.filter_congr fun b _ => ?_
    simp [Bool.and_comm]

/-- The rows after a pruning without failures. -/
theorem backups_pruneOldBackups {n : ℤ} {rows : List BackupRow} (hquery : p.query = true)
    (hinsert : p.insert = true) (hdeletes : ∀ id, p.deletes id = true)
    (hlisting : p.listing = some (rows.map BackupRow.id)) (hretain : retainCount w.db = some n) :
    (pruneOldBackups p w).2.backups = w.backups.filter fun b => b.id ∉
    (rows.drop (clampRetain n)).map BackupRow.id := by
  obtain ⟨settings, db, hensure, rfl⟩ := ensureBackupSettingsRow_of_retainCount hretain p.now
  rw [pruneOldBackups, hquery, hinsert, hensure, hlisting]
  dsimp only
  split_ifs with hshort
  · rw [List.length_map] at hshort
    simp [List.drop_eq_nil_of_le hshort]
  · rw [backups_foldl_pruneOne hdeletes, List.map_drop]

/-- **A backup without failures** keeps the newest rows. -/
theorem backups_createPanelBackup {zipBytes : List UInt8} {n : ℤ} (h : Backed w)
    (hfaultless : c.Faultless w zipBytes) (hretain : retainCount w.db = some n)
    (hdistinct : ((w.backups ++ [c.row zipBytes]).map BackupRow.createdAt).Nodup) :
    (createPanelBackup c w).2.backups =
      Newest.newest BackupRow.createdAt (max 1 (min 500 n)).toNat
      (w.backups ++ [c.row zipBytes]) := by
  obtain ⟨rows, hperm, hsorted, hlisting⟩ := hfaultless.prune.listing
  have hids : (rows.map BackupRow.id).Nodup :=
    (hperm.map _).nodup_iff.2 (h.written hfaultless.stores).distinct
  have hlisted : Newest.Listed BackupRow.createdAt rows :=
    (hsorted.and (List.pairwise_map.1 ((hperm.map _).nodup_iff.2 hdistinct))).imp fun hle =>
      lt_of_le_of_ne hle.1 (Ne.symm hle.2)
  have hbackups : (createPanelBackup c w).2.backups =
      (pruneOldBackups c.prune (c.withFile w zipBytes zipBytes)).2.backups := by
    rw [createPanelBackup, hfaultless.mkdirAll, hfaultless.archive]
    simp only [hfaultless.stores, hfaultless.write, Bool.not_true, Bool.false_eq_true, if_false]
    split <;> rename_i heq <;> rw [heq]
  have hpruned :=
    backups_pruneOldBackups (w := c.withFile w zipBytes zipBytes) hfaultless.prune.query
    hfaultless.prune.insert hfaultless.prune.deletes hlisting hretain
  rw [hbackups, hpruned, clampRetain_eq]
  refine Newest.filter_not_mem_drop hperm hlisted _ fun b hb => ?_
  rw [decide_eq_true_eq, List.mem_map]
  refine not_congr ⟨?_, fun hmem => ⟨b, hmem, rfl⟩⟩
  rintro ⟨b', hmem, hid⟩
  -- the id is a key, so the row with the id of a listed row is this row
  rwa [← List.inj_on_of_nodup_map hids (List.mem_of_mem_drop hmem) (hperm.mem_iff.2 hb) hid]

/-! ### Runs -/

/-- **Rows and files stay in step** in every run of safe operations. An operation is safe when the
file of a row that is stored is written, and no row whose file is pruned stays. -/
theorem inStep_of_safe (E : Engine Row) (w w' : World) (es : List Operation) (h : Backed w)
    (hsafe : Runs.Meets (step E) Operation.Safe w es) (hrun : Runs.run (step E) w es = some w') :
    InStep w' := by
  have hbacked : Backed w' := Runs.run_invariant_of_meets (backed_step E) h hsafe hrun
  exact ⟨hbacked, fun c zipBytes n hfaultless hretain hdistinct =>
    backups_createPanelBackup hbacked hfaultless hretain hdistinct⟩

/-- A panel without backups. -/
def emptyWorld : World where
  db := fun _ => []
  backups := []
  files := fun _ => none

/-- A first backup, whose file is written or not. -/
def firstBackup (write : WriteOutcome) : CreateRun where
  trigger := "manual"
  mkdirAll := true
  zipBytes := some [80, 75, 5, 6]
  nowText := "2026-01-02T03:04:05.678Z"
  id := "2abcdefghijklmnopqrstuvwxyz"
  createdAt := 1767323045678
  insert := true
  write := write
  prune := ⟨true, true, "2026-01-02 03:04:05.678", some ["2abcdefghijklmnopqrstuvwxyz"],
    fun _ => true, fun _ => true⟩

theorem backed_emptyWorld : Backed emptyWorld := ⟨List.nodup_nil, nofun⟩

/-- A database that stores what it is given. -/
def anyEngine : Engine Row := ⟨fun _ _ _ => .null, fun _ _ _ => true⟩

/-- A panel without backups whose settings keep one. -/
def keepsOne : World where
  db table := if table = "PanelAppBackupSettings" then
    [fun
      | "id" | "retainCount" => .int 1
      | "intervalMinutes" => .int 0
      | _ => .null] else []
  backups := []
  files := fun _ => none

/-- A backup a day later, which lists both backups. -/
def secondBackup : CreateRun where
  trigger := "scheduled"
  mkdirAll := true
  zipBytes := some [80, 75, 5, 6, 0]
  nowText := "2026-01-03T03:04:05.678Z"
  id := "2bcdefghijklmnopqrstuvwxyza"
  createdAt := 1767409445678
  insert := true
  write := .written
  prune :=
    { query := true
      insert := true
      now := "2026-01-03 03:04:05.678"
      listing := some ["2bcdefghijklmnopqrstuvwxyza", "2abcdefghijklmnopqrstuvwxyz"]
      removes := fun _ => true
      deletes := fun _ => true }

/-- The second backup prunes the first one. -/
theorem inStep_firstBackup : ∃ w,
    Runs.run (step anyEngine) keepsOne [.create (firstBackup .written),
      .create secondBackup] = some w ∧ w.backups = [secondBackup.row [80, 75, 5, 6, 0]] ∧
        w.files (zipName (firstBackup .written).id) = none ∧ InStep w := by
  have hsafe : Runs.Meets (step anyEngine) Operation.Safe keepsOne
      [.create (firstBackup .written), .create secondBackup] :=
    ⟨fun _ _ _ _ => ⟨rfl, fun _ _ _ _ _ _ _ => rfl⟩, fun _ _ =>
      ⟨fun _ _ _ _ => ⟨rfl, fun _ _ _ _ _ _ _ => rfl⟩, fun _ _ => trivial⟩⟩
  exact ⟨_, rfl, by decide +kernel, by decide +kernel,
    inStep_of_safe anyEngine keepsOne _ _ ⟨List.nodup_nil, by simp [keepsOne]⟩ hsafe rfl⟩

/-- When the file cannot be written, the row is there without it. -/
theorem row_without_file : ¬∀ (E : Engine Row) (w w' : World) (es : List Operation), Backed w →
    Runs.run (step E) w es = some w' → InStep w' := by
  intro h
  have hstep :=
    h anyEngine emptyWorld _ [.create (firstBackup (.failed none))] backed_emptyWorld rfl
  obtain ⟨bytes, hfile, -⟩ := hstep.backed.file ((firstBackup (.failed none)).row [80, 75, 5, 6])
    (List.mem_singleton.2 rfl)
  cases hfile

end OpenvpnControl.Panelbackup
