import OpenvpnControl.Library.Runs
import OpenvpnControl.Panelbackup.RoundTrip

/-!
# A backup beside the rest of the panel

The queries of `exportAllTablesJSON` run one after the other, in the order of a map and outside a
transaction. The rest of the panel inserts, updates and deletes rows between them. Each of its
statements keeps the references of the schema, but the archive has each table as it was at another
time. This file says under which condition on the statements the rows of the archive keep the
references.

## Main definitions

* `ExportEvent`, `ExportState`: an export, query by query, and the statements between its queries.
* `ExportState.view`: each table as the archive has it, or would get it now.
* `KeepsReferences`: the condition on a statement.
* `Restorable`: the exported rows keep the references, and their import fails none.

## Main results

* `valid_view`: what the archive has, or would get now, is what the schema admits.
* `pointed_at_insert`: the import of contents that the schema admits fails no reference.
* `export_restorable`: in runs whose statements meet the condition the export can be restored.
* `reference_is_lost`: a user without its organization.
-/

namespace OpenvpnControl.Panelbackup

open Inserts (Tables)

/-! ### The export -/

/-- What happens during an export: a statement of the rest of the panel, as the contents that it
leaves, or the next query, which may fail. -/
inductive ExportEvent where
  | statement (db : Tables Row)
  | query (executes : Bool)

/-- The database, the rows of the tables that were read, and the tables that remain, in the order of
the loop. -/
structure ExportState where
  db : Tables Row
  read : List (String × List Row)
  rest : List String

/-- The start of `exportAllTablesJSON`. -/
def startExport (db : Tables Row) (names : List String) : ExportState := ⟨db, [], names⟩

namespace ExportState

/-- One step of the export. A query that fails ends it, but for that of the logs, which then has no
rows. -/
def step (s : ExportState) : ExportEvent → Option ExportState
  | .statement db => some { s with db := db }
  | .query executes =>
    match s.rest with
    | [] => none
    | t :: rest =>
      if executes then some ⟨s.db, (t, s.db t) :: s.read, rest⟩
      else if t = "OpenvpnServerLog" then some ⟨s.db, (t, []) :: s.read, rest⟩
      else none

/-- The rows that were read. -/
def exported (s : ExportState) : Tables Row := fun t => (s.read.lookup t).getD []

/-- Each table as it was read, or as it is now. -/
def view (s : ExportState) : Tables Row := fun t => if t ∈ s.rest then s.db t else s.exported t

end ExportState

/-- The rows that the column points to are there. -/
def PointsInto (rows : List Row) (c : String) (targets : List Row) : Prop :=
  ∀ r ∈ rows, r c ≠ .null → ∃ p ∈ targets, p "id" = r c

instance (rows : List Row) (c : String) (targets : List Row) :
    Decidable (PointsInto rows c targets) :=
  inferInstanceAs (Decidable (∀ r ∈ rows, r c ≠ .null → ∃ p ∈ targets, p "id" = r c))

/-- A statement of the rest of the panel leaves contents that the schema admits. -/
def Admitted : ExportEvent → Prop
  | .statement db => Valid db
  | .query _ => True

/-- **The condition on a statement of the rest of the panel.** No row that it leaves in a table that
is still to be read points to a row that the archive has not, in a table that was read. And no row
of the archive points to a row that it does not leave, in a table that is still to be read. -/
def KeepsReferences (s : ExportState) : ExportEvent → Prop
  | .statement db => ∀ t ∈ importedTables, ∀ e ∈ references t,
      (t ∈ s.rest → e.2 ∉ s.rest → PointsInto (db t) e.1 (s.exported e.2)) ∧
        (t ∉ s.rest → e.2 ∈ s.rest → PointsInto (s.exported t) e.1 (db e.2))
  | .query _ => True

instance : (s : ExportState) → (event : ExportEvent) → Decidable (KeepsReferences s event)
  | s, .statement db => inferInstanceAs (Decidable (∀ t ∈ importedTables, ∀ e ∈ references t,
      (t ∈ s.rest → e.2 ∉ s.rest → PointsInto (db t) e.1 (s.exported e.2)) ∧
        (t ∉ s.rest → e.2 ∈ s.rest → PointsInto (s.exported t) e.1 (db e.2))))
  | _, .query _ => isTrue trivial

/-- **What a backup should be**: the exported rows keep the references, and no statement of
the import of their archive into the emptied database fails one. -/
def Restorable (pg : Server) (out : Tables Row) : Prop :=
  (∀ t ∈ importedTables, ∀ e ∈ references t, PointsInto (out t) e.1 (out e.2)) ∧
    ∀ createdAt tableNames names files, tableNames.Perm exportedTables → names.Perm exportedTables →
      createPanelBackupZip pg out createdAt tableNames names = some files →
      ∀ db₀ before s after, inserts files = before ++ s :: after →
        (rules pg).Pointed ((rules pg).engine.putAll (wipeApplicationData db₀) before) s.1
          ((rules pg).row s.1 s.2)

/-! ### The rows of the archive -/

variable {pg : Server} {s s' : ExportState} {event : ExportEvent} {t : String} {r : Row}

/-- No table points to the logs. -/
theorem references_ne_logs : ∀ t ∈ importedTables, ∀ e ∈ references t,
    e.2 ≠ "OpenvpnServerLog" := by
  decide

/-- Contents without the rows of a table that no other points to. -/
theorem Valid.without_logs {db : Tables Row} (h : Valid db) :
    Valid (Function.update db "OpenvpnServerLog" []) := by
  have hrow {t : String} {r : Row} (hr : r ∈ Function.update db "OpenvpnServerLog" [] t) : r ∈
      db t := by
    by_cases ht : t = "OpenvpnServerLog"
    · subst ht
      rw [Function.update_self] at hr
      cases hr
    · rwa [Function.update_of_ne ht] at hr
  refine ⟨fun t ht r hr => h.typed t ht r (hrow hr), fun t ht r hr => h.others t ht r (hrow hr),
    fun t ht => ?_, fun t ht r hr e he hne => ?_⟩
  · by_cases hlog : t = "OpenvpnServerLog"
    · subst hlog
      rw [Function.update_self]
      exact List.Pairwise.nil
    · rw [Function.update_of_ne hlog]
      exact h.distinct t ht
  · rw [Function.update_of_ne (references_ne_logs t ht e he)]
    exact h.references t ht r (hrow hr) e he hne

/-- Contents with the same rows in the tables of a backup. -/
theorem Valid.congr {db db' : Tables Row} (h : Valid db)
    (heq : ∀ t ∈ importedTables, db' t = db t) :
    Valid db' where
  typed t ht r hr := h.typed t ht r (heq t ht ▸ hr)
  others t ht r hr := h.others t ht r (heq t ht ▸ hr)
  distinct t ht := by
    rw [heq t ht]
    exact h.distinct t ht
  references t ht r hr e he hne := by
    rw [heq e.2 (references_fit t ht e he).1]
    exact h.references t ht r (heq t ht ▸ hr) e he hne

/-- **A query does not change the view**, but for a query of the logs that fails. -/
theorem view_query {executes : Bool} (hnodup : s.rest.Nodup)
    (hstep : s.step (.query executes) = some s') :
    s'.rest.Nodup ∧
      (s'.view = s.view ∨ s'.view = Function.update s.view "OpenvpnServerLog" []) := by
  obtain ⟨db, read, rest⟩ := s
  rw [ExportState.step] at hstep
  cases rest with
  | nil => cases hstep
  | cons t rest =>
    obtain ⟨hnot, hrest⟩ := List.nodup_cons.1 hnodup
    have hview (rows : List Row) : (⟨db, (t, rows) :: read, rest⟩ : ExportState).view =
        Function.update (⟨db, read, t :: rest⟩ : ExportState).view t rows := by
      funext u
      by_cases hu : u = t
      · subst hu
        rw [Function.update_self, ExportState.view, if_neg hnot,
          ExportState.exported, List.lookup_cons]
        simp
      · have hbeq : (u == t) = false := by simpa using hu
        rw [Function.update_of_ne hu, ExportState.view, ExportState.view, ExportState.exported,
          ExportState.exported, List.lookup_cons, hbeq]
        simp [hu]
    dsimp only at hstep
    split_ifs at hstep with hexec hlog
    · cases hstep
      refine ⟨hrest, Or.inl ?_⟩
      rw [hview]
      refine Function.update_eq_self_iff.2 ?_
      rw [ExportState.view, if_pos List.mem_cons_self]
    · cases hstep
      subst hlog
      exact ⟨hrest, Or.inr (hview [])⟩

/-- **A statement that meets the condition** leaves what the archive has, or would get now, as the
schema admits it. -/
theorem valid_view_statement {db : Tables Row} (hview : Valid s.view) (hdb : Valid db)
    (hok : KeepsReferences s (.statement db)) : Valid ({ s with db := db } : ExportState).view := by
  have hcase (t : String) : ({ s with db := db } : ExportState).view t =
      if t ∈ s.rest then db t else s.exported t := rfl
  have hold {t : String} (ht : t ∉ s.rest) : s.view t = s.exported t := if_neg ht
  refine ⟨fun t ht r hr => ?_, fun t ht r hr => ?_, fun t ht => ?_, fun t ht r hr e he hne => ?_⟩
  · rw [hcase] at hr
    split_ifs at hr with hrest
    · exact hdb.typed t ht r hr
    · exact hview.typed t ht r (by rwa [hold hrest])
  · rw [hcase] at hr
    split_ifs at hr with hrest
    · exact hdb.others t ht r hr
    · exact hview.others t ht r (by rwa [hold hrest])
  · rw [hcase]
    split_ifs with hrest
    · exact hdb.distinct t ht
    · rw [← hold hrest]
      exact hview.distinct t ht
  · obtain ⟨hinto, hfrom⟩ := hok t ht e he
    rw [hcase] at hr ⊢
    by_cases hrest : t ∈ s.rest <;> by_cases htarget : e.2 ∈ s.rest
    · rw [if_pos hrest] at hr
      rw [if_pos htarget]
      exact hdb.references t ht r hr e he hne
    · rw [if_pos hrest] at hr
      rw [if_neg htarget]
      exact hinto hrest htarget r hr hne
    · rw [if_neg hrest] at hr
      rw [if_pos htarget]
      exact hfrom hrest htarget r hr hne
    · rw [if_neg hrest, ← hold hrest] at hr
      rw [if_neg htarget, ← hold htarget]
      exact hview.references t ht r hr e he hne

/-- **What the archive has, or would get now, is what the schema admits**, after every run whose
statements meet the condition. -/
theorem valid_view {db : Tables Row} {names : List String} {events : List ExportEvent}
    (hdb : Valid db) (hnames : names.Perm exportedTables) (hevents : ∀ e ∈ events, Admitted e)
    (hok : Runs.Meets ExportState.step KeepsReferences (startExport db names) events)
    (hrun : Runs.run ExportState.step (startExport db names) events = some s) : Valid s.view := by
  have hstart : (startExport db names).rest.Nodup ∧ Valid (startExport db names).view := by
    refine ⟨(hnames.trans exportedTables_perm).nodup_iff.2 nodup_importedTables,
      hdb.congr fun t ht => if_pos ?_⟩
    exact (hnames.trans exportedTables_perm).mem_iff.2 ht
  refine (Runs.run_invariant_of_meets
    (I := fun s : ExportState => s.rest.Nodup ∧ Valid s.view) (fun s e s' hs hok hstep => ?_) hstart
    (hok.and_forall_mem hevents) hrun).2
  cases e with
  | statement db =>
    cases hstep
    exact ⟨hs.1, valid_view_statement hs.2 hok.2 hok.1⟩
  | query executes =>
    obtain ⟨hnodup, hsame | hlogs⟩ := view_query hs.1 hstep
    · rw [hsame]
      exact ⟨hnodup, hs.2⟩
    · rw [hlogs]
      exact ⟨hnodup, hs.2.without_logs⟩

/-! ### The import of the archive -/

/-- The columns of a reference are texts that the importer gives as they are. -/
theorem reference_columns : ∀ t ∈ importedTables, ∀ e ∈ references t,
    (∃ col ∈ columns t, col.name = e.1 ∧ col.type = .text ∧ col.source ∈ [.plain, .z, .zn] ∧
      (t, col.name) ≠ ("Admin", "email")) ∧
    (∃ col ∈ columns e.2, col.name = "id" ∧ col.type = .text ∧ col.source ∈ [.plain, .z, .zn] ∧
      (e.2, col.name) ≠ ("Admin", "email")) ∧
    t ≠ "PanelAppBackupSettings" ∧ e.2 ≠ "PanelAppBackupSettings" := by
  decide +kernel

/-- A text column keeps its values. -/
theorem row_text_column {out : Tables Row} (hvalid : Valid out) (hreads : Reads pg out)
    (ht : t ∈ importedTables) (hr : r ∈ out t) {col : Column} (hcol : col ∈ columns t)
    (htype : col.type = .text) (hsource : col.source ∈ [.plain, .z, .zn])
    (hemail : (t, col.name) ≠ ("Admin", "email")) :
    (rules pg).row t (archivedArgs t r) col.name = restoredValue t col.name (r col.name) := by
  have hsurvives : CellSurvives t col r := by
    have hadmits := hvalid.typed t ht r hr col hcol
    have hemail' : t = "Admin" → col.name ≠ "email" := fun h h' => hemail (by rw [h, h'])
    rw [CellSurvives]
    cases hv : r col.name with
    | null | bool b | float q | special s | timestamp s => trivial
    | int i => exact fun h => absurd (htype.symm.trans h) (by decide)
    | json v =>
      rw [hv] at hadmits
      exact absurd (htype.symm.trans hadmits) (by decide)
    | text s =>
      simp only [List.mem_cons, List.not_mem_nil, or_false] at hsource
      rcases hsource with h | h | h <;>
        · rw [h]
          exact fun hadmin hname => absurd hname (hemail' hadmin)
  rw [row_archivedArgs ht hcol,
    ((cellRestored_iff_survives ht hcol hvalid hreads hr).2 hsurvives).2, Option.getD_some]

/-- **The import of contents that the schema admits fails no reference.** -/
theorem pointed_at_insert {out : Tables Row} (hvalid : Valid out) (hreads : Reads pg out)
    {createdAt : String} {tableNames names : List String} (htables : tableNames.Perm exportedTables)
    (hnames : names.Perm exportedTables) (db₀ : Tables Row)
    {before after : List (String × GoMap Arg)} {i : String × GoMap Arg}
    (h : inserts (archiveFiles out createdAt tableNames names) = before ++ i :: after) :
    (rules pg).Pointed ((rules pg).engine.putAll (wipeApplicationData db₀) before) i.1
      ((rules pg).row i.1 i.2) := by
  have hdata {u : String} (hu : u ∈ importedTables) (hne : u ≠ "PanelAppBackupSettings") :
      tableInserts u (dataRows (archiveFiles out createdAt tableNames names) u) =
        (out u).map (archivedArgs u) := by
    have hmem := exportedTables_perm.mem_iff.2 hu
    rw [dataRows_archiveFiles (htables.mem_iff.2 hmem) (hnames.mem_iff.2 hmem),
      tableInserts_archivedRows fun h => absurd h hne]
  obtain ⟨t, args⟩ := i
  obtain ⟨u, ht, hargs⟩ : ∃ u ∈ importedTables, (t, args) ∈
      (tableInserts u (dataRows (archiveFiles out createdAt tableNames names) u)).map
      fun a => (u, a) := by
    refine List.mem_flatMap.1
      (?_ : (t, args) ∈ inserts (archiveFiles out createdAt tableNames names))
    rw [h]
    exact List.mem_append_right _ List.mem_cons_self
  obtain ⟨args', hargs, heq⟩ := List.mem_map.1 hargs
  cases heq
  intro p hp
  obtain ⟨e, he, hne, rfl⟩ := mem_targets hp
  obtain ⟨⟨col, hcol, hname, htype, hsource, hemail⟩, ⟨id, hid, hidname,
    hidtype, hidsource, hidemail⟩, hsettings, hsettings'⟩ := reference_columns t ht e he
  obtain ⟨htarget, hspecial, hidspecial⟩ := references_fit t ht e he
  rw [hdata ht hsettings] at hargs
  obtain ⟨r, hr, rfl⟩ := List.mem_map.1 hargs
  have hvalue := row_text_column hvalid hreads ht hr hcol htype hsource hemail
  rw [hname, restoredValue_of_not_special hspecial] at hvalue
  have hnull : r e.1 ≠ .null := fun h' => hne (by rw [hvalue, h']; rfl)
  obtain ⟨r', hr', hpoint⟩ := hvalid.references t ht r hr e he hnull
  have hvalue' := row_text_column hvalid hreads htarget hr' hid hidtype hidsource hidemail
  rw [hidname, restoredValue_of_not_special hidspecial] at hvalue'
  -- the row that it points to is inserted before it
  have hbefore : (e.2, archivedArgs e.2 r') ∈ before := by
    refine (rules pg).mem_before ordered_importedTables h hp htarget ?_
    rw [hdata htarget hsettings']
    exact List.mem_map_of_mem hr'
  refine ⟨(rules pg).row e.2 (archivedArgs e.2 r'), ?_, ?_⟩
  · rw [Inserts.Engine.putAll_apply]
    refine List.mem_append_right _ (List.mem_map.2 ⟨_, List.mem_filter.2 ⟨hbefore, ?_⟩, rfl⟩)
    exact decide_eq_true rfl
  · rw [decide_eq_true_eq, hvalue', hvalue, hpoint]

/-- **Every backup can be restored whose run meets the condition.** Each query of an export is a
statement of its own, and the rest of the panel writes between them. Nothing that an exported row
refers to may be missing from the archive when the run is over. -/
theorem export_restorable {db : Tables Row} {names : List String} {events : List ExportEvent}
    (hdb : Valid db) (hnames : names.Perm exportedTables) (hevents : ∀ e ∈ events, Admitted e)
    (hok : Runs.Meets ExportState.step KeepsReferences (startExport db names) events)
    (hrun : Runs.run ExportState.step (startExport db names) events = some s) (hend : s.rest = [])
    (hreads : Reads pg s.exported) : Restorable pg s.exported := by
  have hview : s.view = s.exported := by
    funext t
    rw [ExportState.view, if_neg (by rw [hend]; exact List.not_mem_nil)]
  have hvalid : Valid s.exported := hview ▸ valid_view hdb hnames hevents hok hrun
  refine ⟨fun t ht e he r hr hne => hvalid.references t ht r hr e he hne, ?_⟩
  intro createdAt tableNames names' files htables hnames' hzip db₀ before i after hsplit
  obtain ⟨-, rfl⟩ :=
    (createPanelBackupZip_eq_some_iff hvalid hreads (imported_of_perm hnames')).1 hzip
  exact pointed_at_insert hvalid hreads htables hnames' db₀ hsplit

/-! ### A user of a new organization -/

/-- An organization. -/
def office : Row := rowOf [("id", .text "org-1"), ("name", .text "Office"),
  ("createdAt", .timestamp "2024-05-01T10:00:00"), ("updatedAt", .timestamp "2024-05-01T10:00:00")]

/-- A user of it. -/
def officeUser : Row := rowOf [("id", .text "user-1"), ("fullName", .text "Ann Lee"),
  ("email", .text "ann@office"), ("organizationId", .text "org-1"),
  ("createdAt", .timestamp "2024-05-01T10:00:00"), ("updatedAt", .timestamp "2024-05-01T10:00:00")]

/-- These organizations and users, and nothing else. -/
def officeDb (organizations users : List Row) : Tables Row
  | "Organization" => organizations
  | "VpnUser" => users
  | _ => []

/-- The queries of the tables after that of the organizations. -/
def laterQueries : List ExportEvent := List.replicate 17 (.query true)

/-- The value of a column is one of the listed values. -/
theorem mem_of_rowOf {values : List (String × Value)} {c : String} {v : Value}
    (h : rowOf values c = v) (hv : v ≠ .null) : (c, v) ∈ values := by
  rw [rowOf] at h
  cases hlookup : values.lookup c with
  | none =>
    rw [hlookup] at h
    exact absurd h.symm hv
  | some w =>
    rw [hlookup] at h
    obtain ⟨before, after, rfl, -⟩ := List.lookup_eq_some_iff.1 hlookup
    cases h
    simp

/-- The rows that were read of the listed tables. -/
theorem exported_map {db rows : Tables Row} {names rest : List String} (ht : t ∈ names) :
    (⟨db, names.map fun u => (u, rows u), rest⟩ : ExportState).exported t = rows t := by
  rw [ExportState.exported]
  induction names with
  | nil => cases ht
  | cons u names ih =>
    rw [List.map_cons, List.lookup_cons]
    by_cases hu : t = u
    · subst hu
      simp
    · have hbeq : (t == u) = false := by simpa using hu
      rw [hbeq]
      exact ih ((List.mem_cons.1 ht).resolve_left hu)

/-- The rows of these tables. -/
theorem mem_officeDb {organizations users : List Row}
    (ho : organizations = [] ∨ organizations = [office]) (hu : users = [] ∨ users = [officeUser])
    (hr : r ∈ officeDb organizations users t) :
    (t = "Organization" ∧ r = office) ∨
    (t = "VpnUser" ∧ r = officeUser ∧ users = [officeUser]) := by
  rw [officeDb.eq_def] at hr
  split at hr
  · rcases ho with rfl | rfl
    · cases hr
    · exact Or.inl ⟨rfl, List.mem_singleton.1 hr⟩
  · rcases hu with rfl | rfl
    · cases hr
    · exact Or.inr ⟨rfl, List.mem_singleton.1 hr, rfl⟩
  · cases hr

theorem valid_officeDb {organizations users : List Row}
    (ho : organizations = [] ∨ organizations = [office]) (hu : users = [] ∨ users = [officeUser])
    (hboth : users = [officeUser] → organizations = [office]) :
    Valid (officeDb organizations users) := by
  refine ⟨fun t ht r hr col hcol => ?_, fun t ht r hr c hc => ?_, fun t ht => ?_,
    fun t ht r hr e he hne => ?_⟩
  · rcases mem_officeDb ho hu hr with ⟨rfl, rfl⟩ | ⟨rfl, rfl, -⟩
    · revert col
      simp [columns, organizationSQL, office, rowOf, List.lookup, Column.Admits]
    · revert col
      simp [columns, vpnUserSQL, officeUser, rowOf, List.lookup, Column.Admits]
  · rcases mem_officeDb ho hu hr with ⟨rfl, rfl⟩ | ⟨rfl, rfl, -⟩
    · refine rowOf_of_not_mem (mt (fun h => ?_) hc)
      clear hc
      revert c
      decide
    · refine rowOf_of_not_mem (mt (fun h => ?_) hc)
      clear hc
      revert c
      decide
  · have hone {rows : List Row} (h : rows = [] ∨ ∃ r, rows = [r]) :
        rows.Pairwise fun r r' => clash t r r' = false := by
      rcases h with rfl | ⟨r, rfl⟩
      · exact List.Pairwise.nil
      · exact List.pairwise_singleton _ _
    rw [officeDb.eq_def]
    split
    · exact hone (ho.imp_right fun h => ⟨_, h⟩)
    · exact hone (hu.imp_right fun h => ⟨_, h⟩)
    · exact hone (Or.inl rfl)
  · rcases mem_officeDb ho hu hr with ⟨rfl, rfl⟩ | ⟨rfl, rfl, husers⟩
    · cases he
    · obtain rfl := List.mem_singleton.1 he
      rw [hboth husers]
      exact ⟨office, List.mem_singleton.2 rfl, rfl⟩

/-- PostgreSQL reads the rows that an export has of these tables. -/
theorem reads_officeDb {db organizations users : Tables Row}
    (ho : ∀ t, organizations t = [] ∨ organizations t = [office])
    (hu : ∀ t, users t = [] ∨ users t = [officeUser]) :
    Reads organizationServer (⟨db, exportedTables.reverse.map fun t =>
      (t, officeDb (organizations t) (users t) t), []⟩ : ExportState).exported := by
  have hvalue {t : String} (ht : t ∈ importedTables) {r : Row} {c : String} {v : Value}
      (hr : r ∈ (⟨db, exportedTables.reverse.map fun t =>
        (t, officeDb (organizations t) (users t) t), []⟩ : ExportState).exported t)
      (hv : r c = v) (hne : v ≠ .null) : v = .timestamp "2024-05-01T10:00:00" ∨ ∃ s,
        v = .text s := by
    rw [exported_map (List.mem_reverse.2 (exportedTables_perm.mem_iff.2 ht))] at hr
    rcases mem_officeDb (ho t) (hu t) hr with ⟨-, rfl⟩ | ⟨-, rfl, -⟩ <;>
      · have hmem := mem_of_rowOf hv hne
        simp only [List.mem_cons, Prod.mk.injEq, List.not_mem_nil, or_false] at hmem
        grind
  refine ⟨fun t ht r hr c s hv => ?_, fun t ht r hr c s hv => ?_, fun t ht r hr c s hv => ?_,
    fun t ht r hr c s hv => ?_, fun s hs => ?_⟩
  · rcases hvalue ht hr hv nofun with h | ⟨s, h⟩
    · cases h
      exact ⟨by decide +kernel, rfl⟩
    · cases h
  · rcases hvalue ht hr hv nofun with h | ⟨s, h⟩ <;> cases h
  · rcases hvalue ht hr hv nofun with h | ⟨s, h⟩ <;> cases h
  · rcases hvalue ht hr hv nofun with h | ⟨s, h⟩ <;> cases h
  · exact (@reads_organizationDb (.arr [.bool true]) (by decide +kernel)
      (by decide +kernel)).string s hs

/-- The statements and the queries of these runs. -/
theorem admitted_office {databases : List (Tables Row)} (h : ∀ db ∈ databases, Valid db) :
    ∀ e ∈ .query true :: databases.map .statement ++ laterQueries, Admitted e := by
  intro e he
  rcases List.mem_cons.1 he with rfl | he
  · trivial
  · rcases List.mem_append.1 he with he | he
    · obtain ⟨db, hdb, rfl⟩ := List.mem_map.1 he
      exact h db hdb
    · obtain rfl := List.eq_of_mem_replicate he
      trivial

/-- A user that is added while the tables are read, of an organization that was there before. -/
theorem export_restorable_office :
    Restorable organizationServer (⟨officeDb [office] [officeUser],
      exportedTables.reverse.map fun t =>
      (t, officeDb [office] [officeUser] t), []⟩ : ExportState).exported := by
  have hbefore : Valid (officeDb [office] []) := valid_officeDb (.inr rfl) (.inl rfl) nofun
  have hafter : Valid (officeDb [office] [officeUser]) :=
    valid_officeDb (.inr rfl) (.inr rfl) fun _ => rfl
  have hreads := @reads_officeDb (officeDb [office] [officeUser]) (fun _ => [office])
    (fun _ => [officeUser]) (fun _ => .inr rfl) fun _ => .inr rfl
  exact export_restorable hbefore (.refl exportedTables)
    (admitted_office (List.forall_mem_singleton.2 hafter)) (by decide +kernel) rfl rfl hreads

/-- **A reference is lost**: an organization and its user are added after the organizations were
read, and the archive has the user only. -/
theorem reference_is_lost :
    ¬∀ (pg : Server) (db : Tables Row) (names : List String) (events : List
      ExportEvent) (s : ExportState), Valid db → names.Perm exportedTables →
      (∀ e ∈ events, Admitted e) →
      Runs.run ExportState.step (startExport db names) events = some s → s.rest = [] →
      Reads pg s.exported → Restorable pg s.exported := by
  intro h
  have hfirst : Valid (officeDb [office] []) := valid_officeDb (.inr rfl) (.inl rfl) nofun
  have hsecond : Valid (officeDb [office] [officeUser]) :=
    valid_officeDb (.inr rfl) (.inr rfl) fun _ => rfl
  have hreads := @reads_officeDb (officeDb [office] [officeUser])
    (fun t => if t = "Organization" then [] else [office]) (fun _ => [officeUser])
    (fun t => by split_ifs <;> simp) fun _ => .inr rfl
  have hrestorable := h organizationServer (officeDb [] []) exportedTables _ _
    (valid_officeDb (.inl rfl) (.inl rfl) nofun) (.refl _)
    (admitted_office (List.forall_mem_cons.2 ⟨hfirst, List.forall_mem_singleton.2 hsecond⟩))
      rfl rfl hreads
  obtain ⟨p, hp, -⟩ := hrestorable.1 "VpnUser" (by decide) ("organizationId",
    "Organization") (by decide) officeUser (List.mem_singleton.2 rfl) nofun
  cases hp

end OpenvpnControl.Panelbackup
