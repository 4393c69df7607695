import OpenvpnControl.Agent.LogLines
import OpenvpnControl.Library.Base64
import OpenvpnControl.Library.Json
import OpenvpnControl.Library.Requests
import OpenvpnControl.Library.Since
import OpenvpnControl.Panel.Db

/-!
# The table of the log lines

A loop asks every agent for the last lines of its log and stores them, and each pass deletes the
lines that have become too old. Meanwhile nodes are added and removed, and a root that is detached
from a node takes the lines of the node with it. This file says which lines are stored, whatever the
order of the statements and whichever of them fail.

## Main definitions

* `extractOpenvpnLogs`, `syncNodeOpenVPNInfo`, `syncAllOpenVPNInfo`: a pass of the loop.
* `LogWorld`, `Statement`: what the statements share, and what they do with the table.
* `Reports`, `Removes`: the statements that store a line, and those that delete it.
* `LogRun`, `LogInv`: a run of passes and requests side by side, and what holds in it.

## Main results

* `law`: what a statement does to the row of a line.
* `LogInv.stored_iff`: which lines are stored in any run.
-/

namespace OpenvpnControl.Agent.LogTable

open LogLines (OpenvpnServerLog ParsedLogLine Reported parseOpenVpnLogLine persistLine
  cleanupOldOpenvpnLogs splitLine
  readTimestamp)

/-! ### What an agent answers -/

/-- The strings of an array. -/
def toStringSlice (arr : List Json) : List String := arr.filterMap fun v => match v with
  | .str s => some s
  | _ => none

/-- `extractOpenvpnLogs`, where `gunzip` is the text of a compressed log. -/
def extractOpenvpnLogs (gunzip : List UInt8 → Option String) (info : GoMap Json) : List String :=
  match info.get "recentLogs" with
  | .arr (v :: vs) => toStringSlice (v :: vs)
  | _ =>
    let b64 := (info.get "compressedLogsB64").asString
    if b64 = "" then []
    else
      match (Base64.decode (GoStrings.bytes b64)).bind gunzip with
      | none => []
      | some text => ((GoStrings.split text '\n').map GoStrings.trimSpace).filter (· ≠ "")

/-- The last thousand lines. -/
def lastLines (logs : List String) : List String := logs.drop (logs.length - 1000)

/-! ### Statements -/

/-- What the statements share. -/
structure LogWorld where
  now : ℤ
  nodes : List Panel.AgentNode
  table : List OpenvpnServerLog

/-- What a statement does with the table; the other statements leave it. -/
inductive Statement where
  | insert (nodeID : String) (reported : Reported)
  | cleanup (retentionDays now : ℤ) (executed : Bool)
  | clear (nodeID : String)
  | other

section Programs

variable (sha1Hex : String → String)

/-- The table after a statement. -/
def Statement.run (table : List OpenvpnServerLog) : Statement → List OpenvpnServerLog
  | insert nodeID reported => persistLine sha1Hex nodeID table reported
  | cleanup retentionDays now executed => cleanupOldOpenvpnLogs retentionDays now executed table
  | clear nodeID => Rows.deleteWhere (fun row => row.agentNodeId = nodeID) table
  | other => table

/-- A statement on the table. -/
def exec (label : LogWorld → Statement) : Request LogWorld Statement Unit :=
  .write label fun w => { w with table := (label w).run sha1Hex w.table }

/-- A statement that leaves the table. -/
def leave : Request LogWorld Statement Unit := .write (fun _ => .other) id

/-- Reads the clock. -/
def clock : Request LogWorld Statement ℤ := .read (fun _ => .other) (·.now)

/-- What the agents answer, and which statements fail: the error of the list of nodes, of an agent
or of the update of its node, and whether the statement of the line at a place, or of the cleanup,
is executed. -/
structure Poll where
  listError : Option String
  info : String → Except String (GoMap Json)
  updateError : String → Option String
  inserted : String → ℕ → Bool
  cleaned : String → Bool

structure SyncResult where
  node : String
  ok : Bool
  error : String
  deriving DecidableEq

/-- `persistOpenvpnLogs`: the clock is read for each line, and the reference to the node is
checked. -/
def persistOpenvpnLogs (inserted : ℕ → Bool) (nodeID : String) : ℕ → List String →
    Request LogWorld Statement Unit
  | _, [] => pure ()
  | k, line :: lines =>
    clock >>= fun now =>
      (match parseOpenVpnLogLine now line with
        | none => pure ()
        | some _ =>
          exec sha1Hex fun w =>
            .insert nodeID ⟨line, now, inserted k &&
              (Rows.byKey (·.id) nodeID w.nodes).isSome⟩) >>= fun _ =>
        persistOpenvpnLogs inserted nodeID (k + 1) lines

variable (gunzip : List UInt8 → Option String) (retentionDays : ℤ)

def syncNodeOpenVPNInfo (poll : Poll) (n : Panel.AgentNode) :
    Request LogWorld Statement SyncResult :=
  match poll.info n.id with
  | .error msg => leave >>= fun _ => pure ⟨n.name, false, msg⟩
  | .ok info =>
    leave >>= fun _ =>
      match poll.updateError n.id with
      | some msg => pure ⟨n.name, false, msg⟩
      | none =>
        persistOpenvpnLogs sha1Hex (poll.inserted n.id) n.id 0
          (lastLines (extractOpenvpnLogs gunzip info)) >>= fun _ =>
          clock >>= fun now =>
            exec sha1Hex (fun _ => .cleanup retentionDays now (poll.cleaned n.id)) >>= fun _ =>
              pure ⟨n.name, true, ""⟩

def syncAllOpenVPNInfo (poll : Poll) :
    Request LogWorld Statement (Except String (List SyncResult)) :=
  .read (fun _ => .other) (·.nodes) >>= fun nodes =>
    match poll.listError with
    | some e => pure (.error e)
    | none => (Request.collect (syncNodeOpenVPNInfo sha1Hex gunzip retentionDays poll) nodes) >>=
      fun results =>
        pure (.ok results)

/-- What changes the table between two restores of a backup: a pass of the loop, a node that is
added or removed, and the transaction that detaches the root of a node. -/
inductive LogRequest where
  | sync (poll : Poll)
  | createNode (n : Panel.AgentNode)
  | deleteNode (id : String)
  | removeRootCa (nodeID : String)

/-- The statements of a request. The lines of a node go with it. -/
def LogRequest.program : LogRequest → Request LogWorld Statement (Except String (List SyncResult))
  | sync poll => syncAllOpenVPNInfo sha1Hex gunzip retentionDays poll
  | createNode n => .write (fun _ => .other) (fun w => { w with nodes := w.nodes ++ [n] }) >>=
    fun _ => pure (.ok [])
  | deleteNode id =>
    .write (fun _ => .clear id)
      (fun w =>
        { w with
          nodes := Rows.deleteWhere (fun n => n.id = id) w.nodes
          table := (Statement.clear id).run sha1Hex w.table }) >>= fun _ => pure (.ok [])
  | removeRootCa nodeID => exec sha1Hex (fun _ => .clear nodeID) >>= fun _ => pure (.ok [])

/-- The clock goes on. -/
def tick (now : ℤ) (w : LogWorld) : Option LogWorld := if w.now ≤ now then
    some { w with now := now } else none

end Programs

/-! ### The row of a line -/

section Rows

/-- The date that is read from a line. -/
def lineDate (line : String) : Option ℤ :=
  (splitLine (GoStrings.trimSpace line)).bind fun p => readTimestamp p.1

/-- A line that is stored: it is not blank, and its event is not one of the management interface. -/
def HasRow (line : String) : Prop := (parseOpenVpnLogLine 0 line).isSome = true

/-- The text whose hash is the fingerprint. -/
def fingerprintText (nodeID raw : String) : String :=
  nodeID ++ "|" ++ ((splitLine raw).map Prod.fst).getD "" ++ "|" ++ raw

/-- The row of a parsed line. -/
def storedRow (sha1Hex : String → String) (nodeID : String) (row : ParsedLogLine) :
    OpenvpnServerLog :=
  ⟨nodeID, Timestamp.stamp row.occurredAt, row.occurredRaw, row.event, row.username,
    row.ipAddress, row.rawLine, sha1Hex (fingerprintText nodeID row.rawLine)⟩

theorem parse_trimSpace (now : ℤ) (line : String) :
    parseOpenVpnLogLine now (GoStrings.trimSpace line) = parseOpenVpnLogLine now line := by
  simp only [parseOpenVpnLogLine, GoStrings.trimSpace_trimSpace]

/-- The time at which a line is parsed is only a date. -/
theorem isSome_parse (now now' : ℤ) (line : String) :
    (parseOpenVpnLogLine now line).isSome = (parseOpenVpnLogLine now' line).isSome := by
  simp only [parseOpenVpnLogLine]
  split_ifs <;> simp only [Option.isSome_some, Option.isSome_none]

/-- What a parsed line keeps of the line. -/
theorem parse_eq_some {now : ℤ} {line : String} {row : ParsedLogLine}
    (h : parseOpenVpnLogLine now line = some row) :
    row.occurredAt = (lineDate line).getD now ∧
      row.occurredRaw = (splitLine (GoStrings.trimSpace line)).map Prod.fst ∧
      row.rawLine = GoStrings.trimSpace line := by
  rw [parseOpenVpnLogLine] at h
  dsimp only at h
  split_ifs at h
  obtain rfl := Option.some.inj h
  refine ⟨?_, by dsimp only, by dsimp only⟩
  rw [lineDate]
  cases splitLine (GoStrings.trimSpace line) <;> rfl

variable {sha1Hex : String → String} {table : List OpenvpnServerLog} {nodeID line : String} {t : ℤ}

/-- A turn of the loop stores the row of the line unless its fingerprint is there. -/
theorem persistLine_eq {reported : Reported} {row : ParsedLogLine}
    (h : parseOpenVpnLogLine reported.now reported.line = some row) :
    persistLine sha1Hex nodeID table reported =
      if reported.executed = false ∨ (storedRow sha1Hex nodeID row).fingerprint ∈
      table.map (·.fingerprint) then table
      else table ++ [storedRow sha1Hex nodeID row] := by
  obtain ⟨-, hraw, hline⟩ := parse_eq_some h
  have htext : nodeID ++ "|" ++ row.occurredRaw.getD "" ++ "|" ++ row.rawLine =
      fingerprintText nodeID row.rawLine := by
    rw [fingerprintText, hraw, hline]
  rw [persistLine, h]
  dsimp only
  rw [htext]
  rfl

theorem persistLine_of_none {reported : Reported}
    (h : parseOpenVpnLogLine reported.now reported.line = none) :
    persistLine sha1Hex nodeID table reported = table := by
  rw [persistLine, h]

/-! ### Fingerprints -/

theorem Taken.notMem {c : Char → Bool} {count : ℕ → Prop} (l : LogLines.Taken c count)
    (h : c '|' = false) :
    '|' ∉ l.chars := fun hmem => l.ne h '|' hmem rfl

theorem bar_notMem_clock (c : LogLines.Clock) : '|' ∉ c.text := by
  simp [LogLines.Clock.text, Taken.notMem c.hour (by decide), Taken.notMem c.minute (by decide),
    Taken.notMem c.second (by decide)]

theorem bar_notMem_zone (z : LogLines.Zone) : '|' ∉ z.text := by
  cases z with
  | utc => decide
  | offset negative hours colon minutes =>
    have hhours := Taken.notMem hours (by decide)
    have hminutes := Taken.notMem minutes (by decide)
    cases negative <;> cases colon <;> simp [LogLines.Zone.text, hhours, hminutes]

theorem bar_notMem_fraction (f : LogLines.Fraction) : '|' ∉ f.text := by
  have hdigits := Taken.notMem f.digits (by decide)
  rw [LogLines.Fraction.text]
  cases f.comma <;> simp [hdigits]

/-- A timestamp has no bar. -/
theorem bar_notMem_text (s : LogLines.Stamp) : '|' ∉ s.text := by
  cases s with
  | iso s =>
    have hfraction : '|' ∉ s.fractionText := by
      rw [LogLines.Iso.fractionText]
      cases s.fraction with
      | none => exact List.not_mem_nil
      | some f => exact bar_notMem_fraction f
    have hzone : '|' ∉ s.zoneText := by
      rw [LogLines.Iso.zoneText]
      cases s.zone with
      | none => exact List.not_mem_nil
      | some z => exact bar_notMem_zone z
    have hseparator : '|' ≠ s.separator := by
      rw [LogLines.Iso.separator]
      split_ifs <;> decide
    simp [LogLines.Stamp.text, LogLines.Iso.text, LogLines.Iso.date,
      Taken.notMem s.year (by decide), Taken.notMem s.month (by decide),
      Taken.notMem s.day (by decide), hseparator, bar_notMem_clock, hfraction, hzone]
  | ctime s =>
    simp [LogLines.Stamp.text, LogLines.Ctime.text, Taken.notMem s.weekday (by decide),
      Taken.notMem s.gap₁ (by decide), Taken.notMem s.month (by decide),
      Taken.notMem s.gap₂ (by decide), Taken.notMem s.day (by decide),
      Taken.notMem s.gap₃ (by decide), bar_notMem_clock, Taken.notMem s.gap₄ (by decide),
      Taken.notMem s.year (by decide)]

/-- A fingerprint is that of one line of one node. -/
theorem fingerprintText_inj {a b raw raw' : String} (ha : '|' ∉ a.toList) (hb : '|' ∉ b.toList)
    (h : fingerprintText a raw = fingerprintText b raw') : a = b ∧ raw = raw' := by
  have hstamp : ∀ raw, '|' ∉ (((splitLine raw).map Prod.fst).getD "").toList := by
    intro raw
    cases hsplit : splitLine raw with
    | none => decide
    | some p =>
      obtain ⟨s, hs⟩ := LogLines.exists_stamp hsplit
      rw [Option.map_some, Option.getD_some, hs, String.toList_ofList]
      exact bar_notMem_text s
  have hlist := congrArg String.toList h
  have hbar : "|".toList = ['|'] := rfl
  simp only [fingerprintText, String.toList_append, List.append_assoc, hbar,
    List.singleton_append] at hlist
  obtain ⟨hab, hrest⟩ := GoStrings.append_cons_inj ha hb hlist
  obtain ⟨-, hraw⟩ := GoStrings.append_cons_inj (hstamp raw) (hstamp raw') hrest
  exact ⟨String.toList_inj.1 hab, String.toList_inj.1 hraw⟩

end Rows

/-! ### What a statement does to a line -/

section Law

/-- A row is that of its line, with the fingerprint of the line, whose text is one of some texts. -/
structure Made (sha1Hex : String → String) (texts : Set String)
    (row : OpenvpnServerLog) : Prop where
  parsed : ∃ now p, parseOpenVpnLogLine now row.rawLine = some p ∧
    row = storedRow sha1Hex row.agentNodeId p
  node : '|' ∉ row.agentNodeId.toList
  text : fingerprintText row.agentNodeId row.rawLine ∈ texts

/-- The table has rows of lines only, and no fingerprint twice. -/
structure Kept (sha1Hex : String → String) (texts : Set String)
    (table : List OpenvpnServerLog) : Prop where
  made : ∀ row ∈ table, Made sha1Hex texts row
  unique : (table.map (·.fingerprint)).Nodup

/-- A line of a node is stored. -/
def Stored (nodeID line : String) (table : List OpenvpnServerLog) : Prop :=
  ∃ row ∈ table, row.agentNodeId = nodeID ∧ row.rawLine = GoStrings.trimSpace line

/-- A statement that stores the line, where it is not yet there. -/
def Reports (nodeID line : String) (st : Statement) : Prop :=
  ∃ reported, st = .insert nodeID reported ∧ reported.executed = true ∧
    GoStrings.trimSpace reported.line = GoStrings.trimSpace line

/-- The date before which a cleanup deletes. -/
def cutoff (retentionDays now : ℤ) : ℤ :=
  Timestamp.param
    (now - Int.bmod ((if retentionDays < 1 then 10 else retentionDays) * Timestamp.day) (2 ^ 64))

/-- A statement that deletes the lines of a node with the date. -/
def Removes (nodeID : String) (t : ℤ) (st : Statement) : Prop :=
  st = .clear nodeID ∨
    ∃ retentionDays now, st = .cleanup retentionDays now true ∧ Timestamp.stamp t <
    cutoff retentionDays now

/-- Lines are stored for nodes without a bar in their id, and the texts of their fingerprints are
known. -/
def Statement.Ok (texts : Set String) : Statement → Prop
  | insert nodeID reported =>
    '|' ∉ nodeID.toList ∧ fingerprintText nodeID (GoStrings.trimSpace reported.line) ∈ texts
  | _ => True

variable {sha1Hex : String → String} {texts : Set String} {table : List OpenvpnServerLog}
  {nodeID line : String} {t : ℤ}

theorem made_storedRow (hnode : '|' ∉ nodeID.toList)
    (htext : fingerprintText nodeID (GoStrings.trimSpace line) ∈ texts) {now : ℤ}
    {row : ParsedLogLine} (h : parseOpenVpnLogLine now line = some row) :
    Made sha1Hex texts (storedRow sha1Hex nodeID row) := by
  have hraw : (storedRow sha1Hex nodeID row).rawLine = GoStrings.trimSpace line :=
    (parse_eq_some h).2.2
  refine ⟨⟨now, row, ?_, rfl⟩, hnode, ?_⟩
  · rw [hraw, parse_trimSpace, h]
  · rw [hraw]
    exact htext

theorem Made.fingerprint_eq {row : OpenvpnServerLog} (h : Made sha1Hex texts row) :
    row.fingerprint = sha1Hex (fingerprintText row.agentNodeId row.rawLine) := by
  obtain ⟨now, p, -, hrow⟩ := h.parsed
  have hfingerprint := congrArg (·.fingerprint) hrow
  have hraw : row.rawLine = p.rawLine := congrArg (·.rawLine) hrow
  rw [hraw]
  exact hfingerprint

/-- A row whose line has a date has this date. -/
theorem Made.occurredAt_eq {row : OpenvpnServerLog} (h : Made sha1Hex texts row)
    (ht : lineDate row.rawLine = some t) :
    row.occurredAt = Timestamp.stamp t := by
  obtain ⟨now, p, hp, hrow⟩ := h.parsed
  have hdate : row.occurredAt = Timestamp.stamp p.occurredAt := congrArg (·.occurredAt) hrow
  rw [hdate, (parse_eq_some hp).1, ht, Option.getD_some]

/-- **No line of a node is stored twice.** -/
theorem Kept.lines_nodup (h : Kept sha1Hex texts table) :
    (table.map fun row => (row.agentNodeId, row.rawLine)).Nodup := by
  have hmap : table.map (·.fingerprint) =
      (table.map fun row => (row.agentNodeId, row.rawLine)).map fun p =>
      sha1Hex (fingerprintText p.1 p.2) := by
    rw [List.map_map]
    exact List.map_congr_left fun row hrow => (h.made row hrow).fingerprint_eq
  have hunique := h.unique
  rw [hmap] at hunique
  exact hunique.of_map

/-- A table without some of its rows. -/
theorem Kept.deleteWhere (h : Kept sha1Hex texts table) (p : OpenvpnServerLog → Bool) :
    Kept sha1Hex texts (Rows.deleteWhere p table) where
  made row hrow := h.made row (Rows.mem_deleteWhere.1 hrow).1
  unique := h.unique.sublist (List.filter_sublist.map _)

/-- **One statement** keeps the table. -/
theorem Kept.run (h : Kept sha1Hex texts table) {st : Statement} (hst : st.Ok texts) :
    Kept sha1Hex texts (st.run sha1Hex table) := by
  cases st with
  | insert nodeID reported =>
    rw [Statement.run]
    cases hparse : parseOpenVpnLogLine reported.now reported.line with
    | none =>
      rw [persistLine_of_none hparse]
      exact h
    | some row =>
      rw [persistLine_eq hparse]
      split_ifs with hskip
      · exact h
      · obtain ⟨-, hnew⟩ := not_or.1 hskip
        have hmade : Made sha1Hex texts (storedRow sha1Hex nodeID row) :=
          made_storedRow hst.1 hst.2 hparse
        refine ⟨List.forall_mem_append.2 ⟨h.made, List.forall_mem_singleton.2 hmade⟩, ?_⟩
        rw [List.map_append, List.map_singleton, List.nodup_append_comm]
        exact List.nodup_cons.2 ⟨hnew, h.unique⟩
  | cleanup retentionDays now executed =>
    cases executed with
    | true => exact h.deleteWhere _
    | false => exact h
  | clear nodeID => exact h.deleteWhere _
  | other => exact h

/-- A row that a statement leaves was there, or is that of the line it stores. -/
theorem mem_run {row : OpenvpnServerLog} {st : Statement} (h : row ∈ st.run sha1Hex table) :
    row ∈ table ∨
      ∃ reported, st = .insert row.agentNodeId reported ∧ row.rawLine =
      GoStrings.trimSpace reported.line := by
  cases st with
  | insert nodeID reported =>
    rw [Statement.run] at h
    cases hparse : parseOpenVpnLogLine reported.now reported.line with
    | none =>
      rw [persistLine_of_none hparse] at h
      exact .inl h
    | some p =>
      rw [persistLine_eq hparse] at h
      split_ifs at h
      · exact .inl h
      · obtain h | h := List.mem_append.1 h
        · exact .inl h
        · obtain rfl := List.mem_singleton.1 h
          exact .inr ⟨reported, rfl, (parse_eq_some hparse).2.2⟩
  | cleanup retentionDays now executed =>
    cases executed with
    | true => exact .inl (Rows.mem_deleteWhere.1 h).1
    | false => exact .inl h
  | clear nodeID => exact .inl (Rows.mem_deleteWhere.1 h).1
  | other => exact .inl h

/-- An insert stores its line, and leaves the others. -/
theorem stored_insert (hsha : Set.InjOn sha1Hex texts) (hline : HasRow line)
    (h : Kept sha1Hex texts table) {other : String} {reported : Reported}
    (hst : (Statement.insert other reported).Ok texts) :
    Stored nodeID line (persistLine sha1Hex other table reported) ↔
      Reports nodeID line (.insert other reported) ∨ Stored nodeID line table := by
  have hreports : Reports nodeID line (.insert other reported) ↔
      other = nodeID ∧ reported.executed = true ∧
        GoStrings.trimSpace reported.line = GoStrings.trimSpace line := by
    constructor
    · rintro ⟨_, heq, hexecuted, htrim⟩
      obtain ⟨rfl, rfl⟩ := Statement.insert.inj heq
      exact ⟨rfl, hexecuted, htrim⟩
    · rintro ⟨rfl, hexecuted, htrim⟩
      exact ⟨reported, rfl, hexecuted, htrim⟩
  rw [hreports]
  cases hparse : parseOpenVpnLogLine reported.now reported.line with
  | none =>
    -- a line without a row is not the line
    have hother : GoStrings.trimSpace reported.line ≠ GoStrings.trimSpace line := by
      intro htrim
      rw [HasRow, isSome_parse 0 reported.now, ← parse_trimSpace, ← htrim,
        parse_trimSpace, hparse] at hline
      cases hline
    rw [persistLine_of_none hparse]
    simp [hother]
  | some row =>
    have hraw := (parse_eq_some hparse).2.2
    rw [persistLine_eq hparse]
    split_ifs with hskip
    · -- the row is left out, so it is not executed or there already
      refine ⟨.inr, ?_⟩
      rintro (⟨rfl, hexecuted, htrim⟩ | hstored)
      · obtain hfalse | hmem := hskip
        · rw [hexecuted] at hfalse
          cases hfalse
        · obtain ⟨r, hr, hfingerprint⟩ := List.mem_map.1 hmem
          have hmade := h.made r hr
          rw [hmade.fingerprint_eq] at hfingerprint
          have htext : fingerprintText other row.rawLine ∈ texts := hraw ▸ hst.2
          obtain ⟨hnode, hrawline⟩ :=
            fingerprintText_inj hmade.node hst.1 (hsha hmade.text htext hfingerprint)
          exact ⟨r, hr, hnode, by rw [hrawline, hraw, htrim]⟩
      · exact hstored
    · obtain ⟨hexecuted, -⟩ := not_or.1 hskip
      have hexecuted := Bool.eq_true_of_not_eq_false hexecuted
      constructor
      · rintro ⟨r, hr, hnode, hline⟩
        obtain hr | hr := List.mem_append.1 hr
        · exact .inr ⟨r, hr, hnode, hline⟩
        · obtain rfl := List.mem_singleton.1 hr
          exact .inl ⟨hnode, hexecuted, hraw.symm.trans hline⟩
      · rintro (⟨rfl, -, htrim⟩ | ⟨r, hr, hrest⟩)
        · exact ⟨_, List.mem_append_right _ (List.mem_singleton_self _), rfl, hraw.trans htrim⟩
        · exact ⟨r, List.mem_append_left _ hr, hrest⟩

/-- **What a statement does to a line with a date.** -/
theorem law (hsha : Set.InjOn sha1Hex texts) (hline : HasRow line) (ht : lineDate line = some t) :
    Since.Law (fun table st => Statement.run sha1Hex table st)
    (Kept sha1Hex texts) (Stored nodeID line)
      (Statement.Ok texts) (fun _ => Reports nodeID line) (Removes nodeID t) where
  keeps h hst := h.run hst
  there_iff {table st} h hst := by
    have hdated : ∀ row ∈ table, row.rawLine = GoStrings.trimSpace line →
        row.occurredAt = Timestamp.stamp t := by
      intro row hrow hraw
      refine (h.made row hrow).occurredAt_eq ?_
      rw [hraw, ← ht, lineDate, lineDate, GoStrings.trimSpace_trimSpace]
    cases st with
    | insert other reported =>
      have hkept : ¬Removes nodeID t (.insert other reported) := by
        rintro (h | ⟨_, _, h, -⟩) <;> cases h
      rw [Statement.run, stored_insert hsha hline h hst, and_iff_left hkept]
    | cleanup retentionDays now executed =>
      have hnone : ¬Reports nodeID line (.cleanup retentionDays now executed) := by
        rintro ⟨_, h, -⟩
        cases h
      rw [or_iff_right hnone]
      cases executed with
      | false =>
        have hkept : ¬Removes nodeID t (.cleanup retentionDays now false) := by
          rintro (h | ⟨_, _, h, -⟩) <;> cases h
        rw [and_iff_left hkept]
        rfl
      | true =>
        have hremoves : Removes nodeID t (.cleanup retentionDays now true) ↔
            Timestamp.stamp t < cutoff retentionDays now := by
          constructor
          · rintro (h | ⟨_, _, h, hlt⟩)
            · cases h
            · obtain ⟨rfl, rfl, -⟩ := Statement.cleanup.inj h
              exact hlt
          · exact fun hlt => .inr ⟨retentionDays, now, rfl, hlt⟩
        rw [hremoves]
        constructor
        · rintro ⟨row, hrow, hnode, hraw⟩
          obtain ⟨hmem, hdate⟩ := Rows.mem_deleteWhere.1 hrow
          refine ⟨⟨row, hmem, hnode, hraw⟩, ?_⟩
          rw [hdated row hmem hraw] at hdate
          exact of_decide_eq_false hdate
        · rintro ⟨⟨row, hmem, hnode, hraw⟩, hdate⟩
          refine ⟨row, Rows.mem_deleteWhere.2 ⟨hmem, ?_⟩, hnode, hraw⟩
          rw [hdated row hmem hraw]
          exact decide_eq_false hdate
    | clear other =>
      have hnone : ¬Reports nodeID line (.clear other) := by rintro ⟨_, h, -⟩; cases h
      have hremoves : Removes nodeID t (.clear other) ↔ other = nodeID := by
        constructor
        · rintro (h | ⟨_, _, h, -⟩)
          · exact Statement.clear.inj h
          · cases h
        · rintro rfl
          exact .inl rfl
      rw [or_iff_right hnone, hremoves]
      constructor
      · rintro ⟨row, hrow, rfl, hraw⟩
        obtain ⟨hmem, hother⟩ := Rows.mem_deleteWhere.1 hrow
        exact ⟨⟨row, hmem, rfl, hraw⟩, Ne.symm (of_decide_eq_false hother)⟩
      · rintro ⟨⟨row, hmem, rfl, hraw⟩, hother⟩
        exact ⟨row, Rows.mem_deleteWhere.2 ⟨hmem, decide_eq_false (Ne.symm hother)⟩, rfl, hraw⟩
    | other =>
      have hnone : ¬Reports nodeID line .other := by rintro ⟨_, h, -⟩; cases h
      have hkept : ¬Removes nodeID t .other := by rintro (h | ⟨_, _, h, -⟩) <;> cases h
      rw [or_iff_right hnone, and_iff_left hkept]
      rfl

end Law

/-! ### Runs -/

section Runs

variable {sha1Hex : String → String} {gunzip : List UInt8 → Option String} {retentionDays : ℤ}
  {s t : Requests.Shared LogRequest LogWorld Statement} {i : ℕ}

/-- A line stands in an answer of the agent of a node that a pass has got. -/
def Answered (gunzip : List UInt8 → Option String) (started : List LogRequest) (i : ℕ)
    (nodeID line : String) : Prop :=
  ∃ poll info, started[i]? = some (.sync poll) ∧ poll.info nodeID = .ok info ∧
    line ∈ lastLines (extractOpenvpnLogs gunzip info)

/-- The texts of the fingerprints of the lines that were answered. -/
def answeredTexts (gunzip : List UInt8 → Option String) (started : List LogRequest) : Set String :=
  {text | ∃ i nodeID line, Answered gunzip started i nodeID line ∧
    text = fingerprintText nodeID (GoStrings.trimSpace line)}

/-- The table is that of the statements made so far. Every line in them was answered, for a node
without a bar in its id, and every cleanup has the days of the configuration and a time that is
past. -/
structure LogInv (sha1Hex : String → String) (gunzip : List UInt8 → Option String)
    (retentionDays : ℤ) (s : Requests.Shared LogRequest LogWorld Statement) : Prop where
  table : s.world.table = Since.replay (fun table st => Statement.run sha1Hex table st) []
    (s.history.map Prod.snd)
  nodes : ∀ n ∈ s.world.nodes, '|' ∉ n.id.toList
  answered : ∀ i nodeID reported, (i, Statement.insert nodeID reported) ∈ s.history →
    '|' ∉ nodeID.toList ∧ Answered gunzip s.started i nodeID reported.line
  past : ∀ i days now executed, (i, Statement.cleanup days now executed) ∈ s.history →
    days = retentionDays ∧ now ≤ s.world.now

/-- What starts: a node is added under an id without a bar. -/
def LogRequest.Starts : LogRequest → Prop
  | createNode n => '|' ∉ n.id.toList
  | _ => True

instance : DecidablePred LogRequest.Starts
  | .createNode n => inferInstanceAs (Decidable ('|' ∉ n.id.toList))
  | .sync _ => isTrue trivial
  | .deleteNode _ => isTrue trivial
  | .removeRootCa _ => isTrue trivial

/-- The rules of the table. -/
def logRules (sha1Hex : String → String) (gunzip : List UInt8 → Option String) (retentionDays : ℤ) :
    Requests.Rules LogRequest ℤ LogWorld Statement (Except String (List SyncResult)) where
  inv := LogInv sha1Hex gunzip retentionDays
  rely u v := u.now ≤ v.now
  guar _ _ _ := True
  post _ _ := True
  stmtOk _ _ _ := True
  startOk _ r := r.Starts
  envOk _ _ := True

/-- What a statement needs to keep the invariant. -/
structure Fits (gunzip : List UInt8 → Option String) (retentionDays : ℤ) (i : ℕ)
    (t : Requests.Shared LogRequest LogWorld Statement) (st : Statement) : Prop where
  answered : ∀ nodeID reported, st = .insert nodeID reported →
    '|' ∉ nodeID.toList ∧ Answered gunzip t.started i nodeID reported.line
  past : ∀ days now executed, st = .cleanup days now executed →
    days = retentionDays ∧ now ≤ t.world.now

theorem fits_other : Fits gunzip retentionDays i t .other where
  answered _ _ h := by cases h
  past _ _ _ h := by cases h

theorem fits_clear (nodeID : String) : Fits gunzip retentionDays i t (.clear nodeID) where
  answered _ _ h := by cases h
  past _ _ _ h := by cases h

/-- **One statement** keeps the invariant. -/
theorem stmtKept {label : LogWorld → Statement} {write : LogWorld → LogWorld}
    (h : LogInv sha1Hex gunzip retentionDays t)
    (hfits : Fits gunzip retentionDays i t (label t.world))
    (htable : (write t.world).table = (label t.world).run sha1Hex t.world.table)
    (hnow : (write t.world).now = t.world.now)
    (hnodes : ∀ n ∈ (write t.world).nodes, '|' ∉ n.id.toList) :
    (logRules sha1Hex gunzip retentionDays).StmtKept i t label write where
  inv := by
    refine ⟨?_, hnodes, fun j nodeID reported hmem => ?_, fun j days now executed hmem => ?_⟩
    · rw [Requests.after_world, Requests.after_history, List.map_cons, Since.replay_cons, ← h.table]
      exact htable
    · obtain heq | hmem := List.mem_cons.1 hmem
      · obtain ⟨rfl, hst⟩ := Prod.mk.inj heq
        exact hfits.answered nodeID reported hst.symm
      · exact h.answered j nodeID reported hmem
    · rw [Requests.after_world, hnow]
      obtain heq | hmem := List.mem_cons.1 hmem
      · exact hfits.past days now executed (Prod.mk.inj heq).2.symm
      · exact h.past j days now executed hmem
  rely := hnow.ge
  guar := trivial

/-- A statement on the table. -/
theorem keeps_exec {label : LogWorld → Statement}
    {Q : Unit → Requests.Shared LogRequest LogWorld Statement → Prop}
    (h : ∀ t, Requests.Rely (fun u v : LogWorld => u.now ≤ v.now) i s t →
      LogInv sha1Hex gunzip retentionDays t → Fits gunzip retentionDays i t (label t.world) ∧
        Q () (t.after i label fun w => { w with table := (label w).run sha1Hex w.table })) :
    (logRules sha1Hex gunzip retentionDays).Keeps i (exec sha1Hex label) Q s :=
  Requests.Rules.keeps_stmt.2 fun t hrely hinv _ => by
    obtain ⟨hfits, hQ⟩ := h t hrely hinv
    exact ⟨stmtKept hinv hfits rfl rfl hinv.nodes, Requests.Rules.keeps_done.2 hQ⟩

/-- A read, or a write on another table. -/
theorem keeps_read {α : Type} {f : LogWorld → α}
    {Q : α → Requests.Shared LogRequest LogWorld Statement → Prop}
    (h : ∀ t, Requests.Rely (fun u v : LogWorld => u.now ≤ v.now) i s t →
      LogInv sha1Hex gunzip retentionDays t → Q (f t.world) (t.after i (fun _ => .other) id)) :
    (logRules sha1Hex gunzip retentionDays).Keeps i (.read (fun _ => .other) f) Q s :=
  Requests.Rules.keeps_stmt.2 fun t hrely hinv _ =>
    ⟨stmtKept hinv fits_other rfl rfl hinv.nodes, Requests.Rules.keeps_done.2 (h t hrely hinv)⟩

variable {poll : Poll} {r : LogRequest}

/-- The lines of an answer. -/
theorem keeps_persist {inserted : ℕ → Bool} {nodeID : String} {info : GoMap Json}
    {lines : List String} (k : ℕ) (hinfo : poll.info nodeID = .ok info)
    (hnode : '|' ∉ nodeID.toList)
    (hlines : ∀ line ∈ lines, line ∈ lastLines (extractOpenvpnLogs gunzip info))
    (hr : s.started[i]? = some (.sync poll)) :
    (logRules sha1Hex gunzip retentionDays).Keeps i
      (persistOpenvpnLogs sha1Hex inserted nodeID k lines)
      (fun _ t => t.started[i]? = some (.sync poll)) s := by
  induction lines generalizing k s with
  | nil => exact Requests.Rules.keeps_pure.2 hr
  | cons line lines ih =>
    obtain ⟨hline, hlines⟩ := List.forall_mem_cons.1 hlines
    refine Requests.Rules.keeps_bind.2 (keeps_read fun t hrely hinv => ?_)
    have hr := hrely.started_get hr
    refine Requests.Rules.keeps_bind.2 ?_
    cases parseOpenVpnLogLine t.world.now line with
    | none => exact Requests.Rules.keeps_pure.2 (ih (k + 1) hlines hr)
    | some row =>
      refine keeps_exec fun u hrely hinv => ?_
      have hr := hrely.started_get hr
      refine ⟨⟨?_, fun _ _ _ h => (by cases h)⟩, ih (k + 1) hlines hr⟩
      rintro _ _ heq
      obtain ⟨rfl, rfl⟩ := Statement.insert.inj heq
      exact ⟨hnode, poll, info, hr, hinfo, hline⟩

/-- A node of a pass. -/
theorem keeps_syncNode {n : Panel.AgentNode} (hnode : '|' ∉ n.id.toList)
    (hr : s.started[i]? = some (.sync poll)) :
    (logRules sha1Hex gunzip retentionDays).Keeps i
      (syncNodeOpenVPNInfo sha1Hex gunzip retentionDays poll n)
      (fun _ t => t.started[i]? = some (.sync poll)) s := by
  rw [syncNodeOpenVPNInfo]
  cases hinfo : poll.info n.id with
  | error msg =>
    refine Requests.Rules.keeps_bind.2 (keeps_read fun t hrely hinv => ?_)
    exact Requests.Rules.keeps_pure.2 (hrely.started_get hr)
  | ok info =>
    refine Requests.Rules.keeps_bind.2 (keeps_read fun t hrely hinv => ?_)
    have hr := hrely.started_get hr
    cases poll.updateError n.id with
    | some msg => exact Requests.Rules.keeps_pure.2 hr
    | none =>
      refine Requests.Rules.keeps_bind.2
        (Requests.Rules.Keeps.mono (keeps_persist 0 hinfo hnode (fun line h => h) hr) fun _ u hr =>
          ?_)
      refine Requests.Rules.keeps_bind.2 (keeps_read fun v hrely hinv => ?_)
      have hr := hrely.started_get hr
      -- the clock has not gone back since it was read
      refine Requests.Rules.keeps_bind.2 (keeps_exec fun w hrely hinv =>
        ⟨⟨fun _ _ h => (by cases h), ?_⟩, ?_⟩)
      · rintro _ _ _ heq
        obtain ⟨rfl, rfl, -⟩ := Statement.cleanup.inj heq
        exact ⟨rfl, hrely.world⟩
      · exact Requests.Rules.keeps_pure.2 (hrely.started_get hr)

/-- **Every request** keeps the invariant. -/
theorem keeps_program (hstarts : r.Starts) (hr : s.started[i]? = some r) :
    (logRules sha1Hex gunzip retentionDays).Keeps i (r.program sha1Hex gunzip retentionDays)
    (fun _ _ => True) s := by
  cases r with
  | sync poll =>
    refine Requests.Rules.keeps_bind.2 (keeps_read fun t hrely hinv => ?_)
    have hr := hrely.started_get hr
    cases poll.listError with
    | some e => exact Requests.Rules.keeps_pure.2 trivial
    | none =>
      have hnodes : (logRules sha1Hex gunzip retentionDays).Keeps i
          (Request.collect (syncNodeOpenVPNInfo sha1Hex gunzip retentionDays poll) t.world.nodes)
          (fun _ t => t.started[i]? = some (.sync poll)) (t.after i (fun _ => .other) id) :=
        Requests.Rules.keeps_collect (fun n hn u hr => keeps_syncNode (hinv.nodes n hn) hr) hr
      exact Requests.Rules.keeps_bind.2 (hnodes.mono fun _ _ _ =>
        Requests.Rules.keeps_pure.2 trivial)
  | createNode n =>
    refine Requests.Rules.keeps_write fun t hrely hinv _ =>
      ⟨stmtKept hinv fits_other rfl rfl ?_, ?_⟩
    · exact List.forall_mem_append.2 ⟨hinv.nodes, List.forall_mem_singleton.2 hstarts⟩
    · exact Requests.Rules.keeps_pure.2 trivial
  | deleteNode id =>
    refine Requests.Rules.keeps_write fun t hrely hinv _ =>
      ⟨stmtKept hinv (fits_clear id) rfl rfl ?_, ?_⟩
    · exact fun n hn => hinv.nodes n (Rows.mem_deleteWhere.1 hn).1
    · exact Requests.Rules.keeps_pure.2 trivial
  | removeRootCa nodeID =>
    refine Requests.Rules.keeps_bind.2 (keeps_exec fun t hrely hinv => ⟨fits_clear nodeID, ?_⟩)
    exact Requests.Rules.keeps_pure.2 trivial

theorem logRules_lawful : (logRules sha1Hex gunzip retentionDays).Lawful tick where
  refl _ := le_rfl
  trans := le_trans
  start {s r} h _ := by
    refine ⟨h.table, h.nodes, fun i nodeID reported hmem => ?_, h.past⟩
    obtain ⟨hnode, poll, info, hr, hrest⟩ := h.answered i nodeID reported hmem
    exact ⟨hnode, poll, info, List.getElem?_append_left (List.getElem?_eq_some_iff.1 hr).1 ▸ hr,
      hrest⟩
  env {s now w} h _ htick := by
    rw [tick] at htick
    split_ifs at htick with hle
    obtain rfl := Option.some.inj htick
    refine ⟨⟨h.table, h.nodes, h.answered, fun i days past executed hmem => ?_⟩, hle⟩
    obtain ⟨hdays, hpast⟩ := h.past i days past executed hmem
    exact ⟨hdays, hpast.trans hle⟩

/-- What starts in a run. -/
def EventStarts : Requests.Event LogRequest ℤ → Prop
  | .start r => r.Starts
  | _ => True

instance : DecidablePred EventStarts
  | .start r => inferInstanceAs (Decidable r.Starts)
  | .act _ => isTrue trivial
  | .env _ => isTrue trivial

/-- What runs: passes and requests side by side, from a database without lines. -/
def LogRun (sha1Hex : String → String) (gunzip : List UInt8 → Option String) (retentionDays : ℤ)
    (w : LogWorld) (events : List (Requests.Event LogRequest ℤ))
    (t : Requests.Pool LogRequest LogWorld Statement (Except String (List SyncResult))) : Prop :=
  w.table = [] ∧ (∀ n ∈ w.nodes, '|' ∉ n.id.toList) ∧ (∀ e ∈ events, EventStarts e) ∧
    Runs.run (Requests.step (LogRequest.program sha1Hex gunzip retentionDays) tick)
    (.initial w) events = some t

/-- **The invariant holds in every run.** -/
theorem LogRun.inv {w : LogWorld} {events : List (Requests.Event LogRequest ℤ)}
    {t : Requests.Pool LogRequest LogWorld Statement (Except String (List SyncResult))}
    (h : LogRun sha1Hex gunzip retentionDays w events t) :
    LogInv sha1Hex gunzip retentionDays t.toShared := by
  obtain ⟨hempty, hnodes, hstarts, hrun⟩ := h
  have hinitial : LogInv sha1Hex gunzip retentionDays ⟨w, [], []⟩ := by
    exact ⟨hempty, hnodes, fun _ _ _ he => absurd he List.not_mem_nil, fun _ _ _ _ he =>
      absurd he List.not_mem_nil⟩
  have hok : Runs.Meets (Requests.step (LogRequest.program sha1Hex gunzip retentionDays) tick)
      (logRules sha1Hex gunzip retentionDays).StepOk (.initial w) events := by
    refine ((Runs.meets_of_forall (fun _ _ => trivial) _ events).and_forall_mem hstarts).mono
      fun s e he => ?_
    cases e with
    | start r => exact he.2
    | act i => exact fun _ _ _ _ => trivial
    | env now => trivial
  exact (Requests.Rules.run_inv logRules_lawful (.initial hinitial)
    (fun r s _ hr _ => keeps_program hr (Requests.starting_get s r)) hok hrun).inv

/-! ### What is stored -/

variable {w : LogWorld} {events : List (Requests.Event LogRequest ℤ)}
  {p : Requests.Pool LogRequest LogWorld Statement (Except String (List SyncResult))}
  {nodeID line : String} {d : ℤ}

/-- The statements of a run store answered lines only. -/
theorem LogInv.ok (h : LogInv sha1Hex gunzip retentionDays s) :
    ∀ st ∈ s.history.map Prod.snd, st.Ok (answeredTexts gunzip s.started) := by
  intro st hst
  obtain ⟨⟨i, st⟩, he, rfl⟩ := List.mem_map.1 hst
  cases st with
  | insert nodeID reported =>
    obtain ⟨hnode, hanswered⟩ := h.answered i nodeID reported he
    exact ⟨hnode, i, nodeID, reported.line, hanswered, rfl⟩
  | cleanup _ _ _ | clear _ | other => trivial

theorem kept_nil {texts : Set String} : Kept sha1Hex texts [] :=
  ⟨fun _ hrow => absurd hrow List.not_mem_nil, List.nodup_nil⟩

/-- No line of a node is stored twice in a run. -/
theorem LogInv.kept (h : LogInv sha1Hex gunzip retentionDays s) :
    Kept sha1Hex (answeredTexts gunzip s.started) s.world.table := by
  have hok := h.ok
  rw [h.table]
  generalize s.history.map Prod.snd = sts at hok
  induction sts with
  | nil => exact kept_nil
  | cons st sts ih =>
    obtain ⟨hst, hsts⟩ := List.forall_mem_cons.1 hok
    exact (ih hsts).run hst

/-- Every row is that of a line that an agent has answered. -/
theorem LogInv.answered_row (h : LogInv sha1Hex gunzip retentionDays s) {row : OpenvpnServerLog}
    (hrow : row ∈ s.world.table) :
    ∃ i line, Answered gunzip s.started i row.agentNodeId line ∧ row.rawLine =
    GoStrings.trimSpace line := by
  have hinsert : ∀ sts : List Statement,
      row ∈ Since.replay (fun table st => Statement.run sha1Hex table st) [] sts →
      ∃ reported, .insert row.agentNodeId reported ∈ sts ∧ row.rawLine =
      GoStrings.trimSpace reported.line := by
    intro sts
    induction sts with
    | nil => exact fun hmem => absurd hmem List.not_mem_nil
    | cons st sts ih =>
      intro hmem
      rw [Since.replay_cons] at hmem
      obtain hmem | ⟨reported, rfl, hraw⟩ := mem_run hmem
      · obtain ⟨reported, hst, hraw⟩ := ih hmem
        exact ⟨reported, List.mem_cons_of_mem _ hst, hraw⟩
      · exact ⟨reported, List.mem_cons_self, hraw⟩
  rw [h.table] at hrow
  obtain ⟨reported, hst, hraw⟩ := hinsert _ hrow
  obtain ⟨⟨i, st⟩, he, rfl⟩ := List.mem_map.1 hst
  exact ⟨i, reported.line, (h.answered i _ reported he).2, hraw⟩

/-- **Which lines are stored**: a line that a statement has stored, and that no later one has
deleted. -/
theorem LogInv.stored_iff (h : LogInv sha1Hex gunzip retentionDays s)
    (hsha : Set.InjOn sha1Hex (answeredTexts gunzip s.started)) (hline : HasRow line)
    (hd : lineDate line = some d) :
    Stored nodeID line s.world.table ↔
      ∃ later st earlier, s.history.map Prod.snd = later ++ st :: earlier ∧ Reports nodeID line st ∧
        ∀ st' ∈ later, ¬Removes nodeID d st' := by
  rw [h.table]
  refine (law hsha hline hd).present_iff_mem kept_nil h.ok ?_
  rintro ⟨row, hrow, -⟩
  exact absurd hrow List.not_mem_nil

theorem cutoff_mono {now now' : ℤ} (h : now ≤ now') : cutoff retentionDays now ≤
    cutoff retentionDays now' :=
  Timestamp.param_mono (Int.sub_le_sub_right h _)

/-- No cleanup has deleted a line that is not yet too old. -/
theorem LogInv.removes_iff (h : LogInv sha1Hex gunzip retentionDays s)
    (hd : cutoff retentionDays s.world.now ≤ Timestamp.stamp d) {st : Statement}
    (hst : st ∈ s.history.map Prod.snd) : Removes nodeID d st ↔ st = .clear nodeID := by
  refine or_iff_left ?_
  rintro ⟨days, now, rfl, hlt⟩
  obtain ⟨⟨i, st⟩, he, rfl⟩ := List.mem_map.1 hst
  obtain ⟨rfl, hnow⟩ := h.past i days now true he
  exact absurd (hlt.trans_le (cutoff_mono hnow)) (not_lt.2 hd)

end Runs

end OpenvpnControl.Agent.LogTable
