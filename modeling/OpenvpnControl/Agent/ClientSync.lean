import OpenvpnControl.Agent.ClientsPersist

/-!
# A poll of all agents

`SyncClientsSnapshot` asks every agent for its clients, stores those it is told of, closes the
sessions that are gone from the nodes that answered, and removes old rows. This file follows a
session of a node through the passes of a poll.

## Main definitions

* `syncClientsSnapshot`: the poll.
* `World.synced`: what a poll writes alone.
* `Reflects`: the open sessions of a node are the reported ones.

## Main results

* `alone_syncClientsSnapshot`: the poll writes `World.synced`.
* `open_sessions_reported`: after a poll the open sessions of a node that answered are those it
  reported, and a node that did not answer keeps its sessions.
-/

namespace OpenvpnControl.Agent

open Timestamp (stamp param second day)

/-- The values of `config.Config` that a poll reads. -/
structure Config where
  clientSessionFreshness : ℤ

structure ClientRow where
  nodeID : String
  ok : Bool
  clients : List LiveClient

/-- `ClientsList`, which is `none` on an error. -/
def clientsList (nodeID : String) : Request World Statement (Option (List LiveClient)) :=
  query fun w => (w.answer nodeID).map fun clients => clients.map fun c => ⟨c, nodeID, w.clock⟩

/-- The row of a node. -/
def clientRow (n : AgentNode) : Request World Statement ClientRow := do
  let list ← clientsList n.id
  match list with
  | none => pure ⟨n.id, false, []⟩
  | some list => pure ⟨n.id, true, list⟩

/-- The session ids of a row that are not empty. -/
def ClientRow.sessionIDs (row : ClientRow) : List String := (row.clients.map (·.id)).filter (· ≠ "")

/-- `activeSessionsByNode`, which is `none` for a node that was not polled. -/
def activeSessionsByNode (rows : List ClientRow) (nodeID : String) : Option (List String) :=
  ((rows.filter fun row => row.ok && row.nodeID = nodeID).getLast?).map (·.sessionIDs)

def activeCNLower (x : PollEnv) (clients : List LiveClient) : List String :=
  (clients.map fun c => x.toLower (GoStrings.trimSpace c.commonName)).filter (· ≠ "")

/-- The users of the certificates with one of some common names. -/
def World.matchedUsers (x : PollEnv) (cns : List String) (w : World) : List String :=
  w.certificates.filterMap fun c =>
    if x.lower (GoStrings.trimSet [' '] c.commonName) ∈ cns then c.vpnUserId else none

/-- An argument of a statement, by its type in Go. -/
inductive Arg where
  | time (t : ℤ)
  | texts (l : List String)

/-- The statement that stores a time: `$1` is an array of names and `$2` the time. `pgx` sends no
statement with an argument that it cannot encode for the type of its parameter. -/
def setActivity (x : PollEnv) (arg₁ arg₂ : Arg) : Request World Statement Unit :=
  match arg₁, arg₂ with
  | .texts cns, .time now => execOf fun w => .setActivity (w.matchedUsers x cns) now
  | _, _ => pure ()

/-- The two statements of a poll on the users, where common names were reported. The second one is
called with the time first, and its error is dropped. -/
def updateActivity (x : PollEnv) (now : ℤ) (cns : List String) : Request World Statement Unit :=
  if cns = [] then pure ()
  else do
    execOf fun w => .clearActivity (w.matchedUsers x cns)
    setActivity x (.time now) (.texts cns)

def syncClientsSnapshot (x : PollEnv) (cfg : Config) : Request World Statement Unit := do
  let nodeRows ← query (·.nodes)
  let clientRows ← Request.collect clientRow nodeRows
  let now ← query (·.clock)
  let sessionCutoff := now - cfg.clientSessionFreshness
  let polled := clientRows.filter (·.ok)
  let allClients := polled.flatMap (·.clients)
  Request.each (upsertClientFromAgent x now) allClients
  Request.each (fun row => closeStaleAssignmentsForNode row.nodeID row.sessionIDs now) polled
  let openRows ← query fun w => w.sources.filter fun r => r.endedAt = none
  closeSources now (openRows.filter fun r =>
    (activeSessionsByNode clientRows r.agentNodeId).any (r.sessionId ∉ ·))
  exec (.deleteSources (now - 90 * day))
  updateActivity x now (activeCNLower x allClients)
  Request.each (fun row => exec (.closeStale row.nodeID now sessionCutoff)) polled
  exec (.deleteAssignments (now - 30 * day))

/-! ### What a poll writes -/

/-- The row of a node, from what its agent answers. -/
def World.clientRow (w : World) (n : AgentNode) : ClientRow :=
  match w.answer n.id with
  | none => ⟨n.id, false, []⟩
  | some clients => ⟨n.id, true, clients.map fun c => ⟨c, n.id, w.clock⟩⟩

/-- The rows of the nodes that answer. -/
def World.polled (w : World) : List ClientRow := (w.nodes.map w.clientRow).filter (·.ok)

/-- The clients of all nodes that answer. -/
def World.allClients (w : World) : List LiveClient := w.polled.flatMap (·.clients)

/-- The clients are stored. -/
def World.upsertClients (x : PollEnv) (now : ℤ) (clients : List LiveClient) (w : World) : World :=
  clients.foldl (World.upsertClient x now) w

/-- The sessions that are gone are closed, node by node. -/
def World.closeStaleRows (now : ℤ) (rows : List ClientRow) (w : World) : World :=
  rows.foldl (fun w row => w.closeStaleFor now row.nodeID row.sessionIDs) w

/-- The addresses of sessions that are gone are closed. -/
def World.closeMissing (now : ℤ) (rows : List ClientRow) (w : World) : World :=
  { w with
    sources := Rows.updateWhere
      (fun r => decide (r.endedAt = none) &&
        (activeSessionsByNode rows r.agentNodeId).any (r.sessionId ∉ ·)) (·.closeAt now) w.sources }

/-- The users that are not matched lose their times; those that are matched get none. -/
def World.markActivity (x : PollEnv) (cns : List String) (w : World) : World :=
  if cns = [] then w else w.exec (.clearActivity (w.matchedUsers x cns))

/-- The sessions that were not seen for long are closed, node by node. -/
def World.closeNotFresh (now sessionCutoff : ℤ) (rows : List ClientRow) (w : World) : World :=
  rows.foldl (fun w row => w.exec (.closeStale row.nodeID now sessionCutoff)) w

/-- What a poll writes. -/
def World.synced (x : PollEnv) (cfg : Config) (w : World) : World :=
  let now := w.clock
  let stored := (w.upsertClients x now w.allClients).closeStaleRows now w.polled
  let closed := (stored.closeMissing now (w.nodes.map w.clientRow)).exec
    (.deleteSources (now - 90 * day))
  let marked := closed.markActivity x (activeCNLower x w.allClients)
  (marked.closeNotFresh now (now - cfg.clientSessionFreshness) w.polled).exec
    (.deleteAssignments (now - 30 * day))

variable {x : PollEnv} {cfg : Config} {w : World} {now : ℤ}

theorem alone_clientRow (n : AgentNode) (w : World) : (clientRow n).alone w =
    (w, w.clientRow n) := by
  rw [clientRow, Request.alone_bind, clientsList, alone_query, World.clientRow]
  cases w.answer n.id <;> rfl

theorem World.Keyed.upsertClients (h : w.Keyed) (clients : List LiveClient) :
    (w.upsertClients x now clients).Keyed := by
  rw [World.upsertClients]
  induction clients generalizing w with
  | nil => exact h
  | cons c clients ih => exact ih (h.upsertClient c)

theorem World.Keyed.closeStaleRows (h : w.Keyed) (rows : List ClientRow) :
    (w.closeStaleRows now rows).Keyed := by
  rw [World.closeStaleRows]
  induction rows generalizing w with
  | nil => exact h
  | cons row rows ih => exact ih (h.closeStaleFor _)

theorem alone_upsertClients (clients : List LiveClient) :
    (Request.each (upsertClientFromAgent x now) clients).alone w =
      (w.upsertClients x now clients, ()) := by
  rw [Request.alone_each, World.upsertClients]
  simp only [alone_upsertClientFromAgent]

theorem alone_closeStaleRows (h : w.Keyed) (rows : List ClientRow) :
    (Request.each (fun row : ClientRow =>
      closeStaleAssignmentsForNode row.nodeID row.sessionIDs now)
      rows).alone w = (w.closeStaleRows now rows, ()) := by
  rw [World.closeStaleRows]
  induction rows generalizing w with
  | nil => rfl
  | cons row rows ih =>
    rw [Request.each, Request.alone_bind, alone_closeStaleAssignmentsForNode h.sourceIds,
      ih (h.closeStaleFor _), List.foldl_cons]

theorem alone_closeMissing (h : w.Keyed) (rows : List ClientRow) :
    (closeSources now ((w.sources.filter fun r => r.endedAt = none).filter fun r =>
      (activeSessionsByNode rows r.agentNodeId).any (r.sessionId ∉ ·))).alone w =
      (w.closeMissing now rows, ()) := by
  rw [List.filter_filter, alone_closeSources h.sourceIds, World.closeMissing]
  simp only [Bool.and_comm]

theorem alone_updateActivity (cns : List String) :
    (updateActivity x now cns).alone w = (w.markActivity x cns, ()) := by
  rw [updateActivity, World.markActivity]
  split_ifs <;> rfl

theorem alone_closeNotFresh (sessionCutoff : ℤ) (rows : List ClientRow) :
    (Request.each (fun row : ClientRow => exec (.closeStale row.nodeID now sessionCutoff))
      rows).alone w = (w.closeNotFresh now sessionCutoff rows, ()) := by
  rw [Request.alone_each]
  rfl

/-- **The poll alone.** -/
theorem alone_syncClientsSnapshot (h : w.Keyed) :
    (syncClientsSnapshot x cfg).alone w = (w.synced x cfg, ()) := by
  have hstored : (w.upsertClients x w.clock w.allClients).Keyed := h.upsertClients _
  have hclosed : ((w.upsertClients x w.clock w.allClients).closeStaleRows w.clock w.polled).Keyed :=
    hstored.closeStaleRows w.polled
  rw [syncClientsSnapshot, Request.alone_bind, alone_query, Request.alone_bind,
    Request.alone_collect alone_clientRow, Request.alone_bind, alone_query]
  dsimp only
  change ((Request.each (upsertClientFromAgent x w.clock) w.allClients) >>= _).alone w = _
  rw [Request.alone_bind, alone_upsertClients, Request.alone_bind]
  change (Request.alone _ (Prod.fst (Request.alone (Request.each _ w.polled) _))) = _
  rw [alone_closeStaleRows hstored, Request.alone_bind, alone_query]
  dsimp only
  rw [Request.alone_bind, alone_closeMissing hclosed, Request.alone_bind, alone_exec,
    Request.alone_bind]
  change (Request.alone _ (Prod.fst (Request.alone (updateActivity x w.clock
    (activeCNLower x w.allClients)) _))) = _
  rw [alone_updateActivity, Request.alone_bind]
  change (Request.alone _ (Prod.fst (Request.alone (Request.each _ w.polled) _))) = _
  rw [alone_closeNotFresh]
  rfl

/-! ### The nodes that answer -/

theorem mem_polled {row : ClientRow} : row ∈ w.polled ↔ ∃ n ∈ w.nodes, ∃ clients,
    w.answer n.id = some clients ∧ row = ⟨n.id, true, clients.map fun c => ⟨c, n.id, w.clock⟩⟩ := by
  rw [World.polled, List.mem_filter, List.mem_map]
  constructor
  · rintro ⟨⟨n, hn, rfl⟩, hok⟩
    rw [World.clientRow] at hok ⊢
    cases hanswer : w.answer n.id with
    | none =>
      rw [hanswer] at hok
      cases hok
    | some clients => exact ⟨n, hn, clients, hanswer, rfl⟩
  · rintro ⟨n, hn, clients, hanswer, rfl⟩
    exact ⟨⟨n, hn, by rw [World.clientRow, hanswer]⟩, rfl⟩

/-- A node has one row. -/
theorem eq_of_mem_polled {row : ClientRow} (hrow : row ∈ w.polled) {clients : List VpnClient}
    (hanswer : w.answer row.nodeID = some clients) :
    row = ⟨row.nodeID, true, clients.map fun c => ⟨c, row.nodeID, w.clock⟩⟩ := by
  obtain ⟨n, -, clients', hanswer', rfl⟩ := mem_polled.1 hrow
  rw [hanswer] at hanswer'
  rw [Option.some.inj hanswer']

/-- A client of a row is one of its node. -/
theorem nodeId_of_mem_polled {row : ClientRow} (hrow : row ∈ w.polled) {c : LiveClient}
    (hc : c ∈ row.clients) : c.nodeId = row.nodeID := by
  obtain ⟨n, -, clients, -, rfl⟩ := mem_polled.1 hrow
  obtain ⟨c, -, rfl⟩ := List.mem_map.1 hc
  rfl

/-- Among the clients of all nodes, those of one node are the ones it reported. -/
theorem filter_allClients (h : Rows.HasKey (·.id) w.nodes) {n : AgentNode} (hn : n ∈ w.nodes)
    {clients : List VpnClient} (hanswer : w.answer n.id = some clients) (p : LiveClient → Bool)
    (hp : ∀ c, p c = true → c.nodeId = n.id) :
    w.allClients.filter p = (clients.map fun c => ⟨c, n.id, w.clock⟩).filter p := by
  have hothers : ∀ rows : List AgentNode, n.id ∉ rows.map (·.id) →
      (((rows.map w.clientRow).filter (·.ok)).flatMap (·.clients)).filter p = [] := by
    intro rows hnot
    rw [List.filter_eq_nil_iff]
    intro c hc hpc
    obtain ⟨row, hrow, hc⟩ := List.mem_flatMap.1 hc
    obtain ⟨m, hm, rfl⟩ := List.mem_map.1 (List.mem_filter.1 hrow).1
    have hnode : c.nodeId = m.id := by
      rw [World.clientRow] at hc
      cases hm' : w.answer m.id with
      | none =>
        rw [hm'] at hc
        cases hc
      | some clients' =>
        rw [hm'] at hc
        obtain ⟨c', -, rfl⟩ := List.mem_map.1 hc
        rfl
    exact hnot (List.mem_map.2 ⟨m, hm, hnode.symm.trans (hp c hpc)⟩)
  obtain ⟨before, after, hsplit⟩ := List.append_of_mem hn
  rw [hsplit, Rows.HasKey, List.map_append, List.map_cons] at h
  have hbefore : n.id ∉ before.map (·.id) := fun hmem =>
    (List.nodup_append.1 h).2.2 _ hmem _ List.mem_cons_self rfl
  have hafter : n.id ∉ after.map (·.id) := (List.nodup_cons.1 (List.nodup_append.1 h).2.1).1
  have hself : w.clientRow n = ⟨n.id, true, clients.map fun c => ⟨c, n.id, w.clock⟩⟩ := by
    rw [World.clientRow, hanswer]
  rw [World.allClients, World.polled, hsplit, List.map_append,
    List.filter_append, List.flatMap_append, List.filter_append, hothers before hbefore,
    List.map_cons, hself, List.filter_cons_of_pos rfl, List.flatMap_cons, List.filter_append,
    hothers after hafter, List.nil_append, List.append_nil]

/-- The last client of a list with a session id. -/
def lastReported (clients : List VpnClient) (sessionID : String) : Option VpnClient :=
  (clients.filter fun c => c.id = sessionID).getLast?

theorem lastReported_eq_none {clients : List VpnClient} {sessionID : String} :
    lastReported clients sessionID = none ↔ ∀ c ∈ clients, c.id ≠ sessionID := by
  rw [lastReported, List.getLast?_eq_none_iff, List.filter_eq_nil_iff]
  exact forall₂_congr fun c _ => by rw [decide_eq_true_eq]

theorem of_lastReported {clients : List VpnClient} {sessionID : String} {c : VpnClient}
    (h : lastReported clients sessionID = some c) : c ∈ clients ∧ c.id = sessionID := by
  obtain ⟨hmem, hid⟩ := List.mem_filter.1 (List.mem_of_getLast? h)
  exact ⟨hmem, of_decide_eq_true hid⟩

/-! ### The sessions through the passes -/

/-- The row of a session. -/
def World.session (w : World) (nodeID sessionID : String) : Option ClientIpAssignment :=
  Rows.byKey (·.key) (nodeID, sessionID) w.assignments

theorem assignments_upsertClients (clients : List LiveClient) (w : World) :
    (w.upsertClients x now clients).assignments = (clients.filter (·.Stored)).foldl
      (fun t c => Rows.upsert (·.key) (newAssignment now c) (touchAssignment now c) t)
      w.assignments := by
  rw [World.upsertClients]
  induction clients generalizing w with
  | nil => rfl
  | cons c clients ih =>
    rw [List.foldl_cons, ih, World.upsertClient, List.filter_cons]
    by_cases h : c.Stored
    · simp only [if_pos h, decide_eq_true h, if_true, List.foldl_cons]
      rfl
    · simp only [if_neg h, decide_eq_false h, Bool.false_eq_true, if_false]

/-- **A session after the clients are stored**: the last client with its id counts. -/
theorem session_upsertClients (h : w.Keyed) {n : AgentNode} (hn : n ∈ w.nodes) (hid : n.id ≠ "")
    {clients : List VpnClient} (hanswer : w.answer n.id = some clients) {sessionID : String}
    (hs : sessionID ≠ "") :
    (w.upsertClients x now w.allClients).session n.id sessionID =
      match lastReported clients sessionID with
      | none => w.session n.id sessionID
      | some c => some (((w.session n.id sessionID).map
          (touchAssignment now ⟨c, n.id, w.clock⟩)).getD (newAssignment now ⟨c, n.id,
          w.clock⟩)) := by
  rw [World.session, assignments_upsertClients, Rows.byKey_foldl_upsert]
  · have hfilter : ((w.allClients.filter (·.Stored)).filter fun c =>
        decide ((newAssignment now c).key = (n.id, sessionID))) =
        (clients.filter fun c => c.id = sessionID).map fun c => ⟨c, n.id, w.clock⟩ := by
      rw [List.filter_filter, filter_allClients h.nodes hn hanswer]
      · rw [List.filter_map]
        congr 1
        refine List.filter_congr fun c _ => ?_
        simp only [Function.comp_apply, newAssignment, ClientIpAssignment.key,
          Prod.mk.injEq, true_and, LiveClient.Stored, ne_eq, hid, not_false_eq_true]
        by_cases hc : c.id = sessionID
        · simp [hc, hs]
        · simp [hc]
      · intro c hc
        rw [Bool.and_eq_true, decide_eq_true_eq] at hc
        exact congrArg Prod.fst hc.1
    rw [hfilter, List.getLast?_map, lastReported]
    cases (clients.filter fun c => decide (c.id = sessionID)).getLast? <;> rfl
  · exact fun _ _ => rfl
  · intro c c' hkey
    obtain ⟨hnode, hsession⟩ := Prod.mk.inj hkey
    simp only [newAssignment] at hnode hsession
    simp only [touchAssignment, newAssignment, hnode, hsession]
  · exact fun _ _ _ => rfl

/-- A session of which no client is stored. -/
theorem session_upsertClients_of_not {clients : List LiveClient} {nodeID sessionID : String}
    (h : ∀ c ∈ clients, c.Stored → ¬(c.nodeId = nodeID ∧ c.id = sessionID)) (w : World) :
    (w.upsertClients x now clients).session nodeID sessionID = w.session nodeID sessionID := by
  have hnone : ((clients.filter (·.Stored)).filter fun c =>
      decide ((newAssignment now c).key = (nodeID, sessionID))) = [] := by
    rw [List.filter_eq_nil_iff]
    intro c hc hkey
    obtain ⟨hmem, hstored⟩ := List.mem_filter.1 hc
    exact h c hmem (of_decide_eq_true hstored) (Prod.mk.inj (of_decide_eq_true hkey))
  rw [World.session, assignments_upsertClients, Rows.byKey_foldl_upsert]
  · rw [hnone]
    rfl
  · exact fun _ _ => rfl
  · intro c c' hkey
    obtain ⟨hnode, hsession⟩ := Prod.mk.inj hkey
    simp only [newAssignment] at hnode hsession
    simp only [touchAssignment, newAssignment, hnode, hsession]
  · exact fun _ _ _ => rfl

/-- A row of a node that answered without its session. -/
def ClientRow.Misses (row : ClientRow) (nodeID sessionID : String) : Prop :=
  row.nodeID ≠ "" ∧ nodeID = row.nodeID ∧ sessionID ∉ row.sessionIDs

instance (row : ClientRow) (nodeID sessionID : String) : Decidable (row.Misses nodeID sessionID) :=
  inferInstanceAs (Decidable (_ ∧ _))

theorem assignments_closeStaleRows (rows : List ClientRow) (w : World) :
    (w.closeStaleRows now rows).assignments = rows.foldl (fun t row => Rows.updateWhere
      (fun r => decide (row.Misses r.agentNodeId r.sessionId ∧ r.endedAt = none)) (·.close now) t)
      w.assignments := by
  rw [World.closeStaleRows]
  induction rows generalizing w with
  | nil => rfl
  | cons row rows ih =>
    rw [List.foldl_cons, ih, List.foldl_cons]
    congr 1
    rw [World.closeStaleFor]
    split_ifs with hnode
    · refine (Rows.updateWhere_eq_self fun r _ => decide_eq_false fun h => h.1.1 hnode).symm
    · dsimp only
      congr 1
      funext r
      simp only [ClientRow.Misses, ne_eq, hnode, not_false_eq_true, true_and, decide_eq_decide]
      tauto

/-- **A session after the sessions that are gone are closed.** -/
theorem session_closeStaleRows (rows : List ClientRow) (nodeID sessionID : String) :
    (w.closeStaleRows now rows).session nodeID sessionID =
      (w.session nodeID sessionID).map fun r =>
        if (∃ row ∈ rows, row.Misses nodeID sessionID) ∧ r.endedAt = none then
        r.close now else r := by
  rw [World.session, assignments_closeStaleRows, Rows.byKey_foldl_updateWhere]
  · rw [World.session]
    refine Option.map_congr fun r hr => ?_
    obtain ⟨hnode, hsession⟩ := Prod.mk.inj (Rows.mem_of_byKey_eq_some hr).2
    rw [hnode, hsession]
    congr 1
    rw [List.any_eq_true]
    simp only [decide_eq_true_eq, eq_iff_iff]
    exact ⟨fun ⟨row, hrow, hmiss, hopen⟩ => ⟨⟨row, hrow, hmiss⟩, hopen⟩,
      fun ⟨⟨row, hrow, hmiss⟩, hopen⟩ => ⟨row, hrow, hmiss, hopen⟩⟩
  · exact fun _ => rfl
  · exact fun row r => decide_eq_false fun h => Option.some_ne_none _ h.2

/-- **A session after those not seen for long are closed.** -/
theorem session_closeNotFresh (sessionCutoff : ℤ) (rows : List ClientRow)
    (nodeID sessionID : String) :
    (w.closeNotFresh now sessionCutoff rows).session nodeID sessionID =
      (w.session nodeID sessionID).map fun r =>
        if (∃ row ∈ rows, nodeID = row.nodeID) ∧ r.endedAt = none ∧
        r.lastSeenAt < param sessionCutoff
        then r.close now else r := by
  have hfold : ∀ (rows : List ClientRow) (w : World),
      (w.closeNotFresh now sessionCutoff rows).assignments =
      rows.foldl (fun t row => Rows.updateWhere
        (fun r => decide (r.agentNodeId = row.nodeID ∧ r.endedAt = none ∧
          r.lastSeenAt < param sessionCutoff)) (·.close now) t) w.assignments := by
    intro rows
    induction rows with
    | nil => exact fun _ => rfl
    | cons row rows ih => exact fun w => ih _
  rw [World.session, hfold, Rows.byKey_foldl_updateWhere]
  · rw [World.session]
    refine Option.map_congr fun r hr => ?_
    obtain ⟨hnode, -⟩ := Prod.mk.inj (Rows.mem_of_byKey_eq_some hr).2
    rw [hnode]
    congr 1
    rw [List.any_eq_true]
    simp only [decide_eq_true_eq, eq_iff_iff]
    exact ⟨fun ⟨row, hrow, hid, hopen⟩ => ⟨⟨row, hrow, hid⟩, hopen⟩,
      fun ⟨⟨row, hrow, hid⟩, hopen⟩ => ⟨row, hrow, hid, hopen⟩⟩
  · exact fun _ => rfl
  · exact fun row r => decide_eq_false fun h => Option.some_ne_none _ h.2.1

theorem World.Keyed.closeMissing (h : w.Keyed) (rows : List ClientRow) :
    (w.closeMissing now rows).Keyed :=
  ⟨h.nodes, h.users, h.assignments, h.sources.updateWhere fun _ _ _ => rfl,
    h.sourceIds.updateWhere fun _ _ _ => rfl⟩

theorem World.Keyed.markActivity (h : w.Keyed) (cns : List String) :
    (w.markActivity x cns).Keyed := by
  rw [World.markActivity]
  split_ifs
  · exact h
  · exact h.exec (q := .clearActivity _) trivial

theorem World.Keyed.closeNotFresh (h : w.Keyed) (sessionCutoff : ℤ) (rows : List ClientRow) :
    (w.closeNotFresh now sessionCutoff rows).Keyed := by
  rw [World.closeNotFresh]
  induction rows generalizing w with
  | nil => exact h
  | cons row rows ih => exact ih (h.exec (q := .closeStale row.nodeID now sessionCutoff) trivial)

/-- The tables before the last statement of a poll. -/
def World.beforeRetention (x : PollEnv) (cfg : Config) (w : World) : World :=
  (((((w.upsertClients x w.clock w.allClients).closeStaleRows w.clock w.polled).closeMissing w.clock
    (w.nodes.map w.clientRow)).exec (.deleteSources (w.clock - 90 * day))).markActivity x
      (activeCNLower x w.allClients)).closeNotFresh w.clock (w.clock -
      cfg.clientSessionFreshness) w.polled

theorem World.Keyed.beforeRetention (h : w.Keyed) : (w.beforeRetention x cfg).Keyed :=
  (((((h.upsertClients _).closeStaleRows _).closeMissing _).exec (q := .deleteSources _)
    trivial).markActivity _).closeNotFresh _ _

/-- **A poll keeps the unique columns.** -/
theorem World.Keyed.synced (h : w.Keyed) : (w.synced x cfg).Keyed :=
  h.beforeRetention.exec (q := .deleteAssignments _) trivial

/-- A poll leaves the clock, the nodes and the certificates alone. -/
structure World.Fixes (w w' : World) : Prop where
  clock : w'.clock = w.clock
  nodes : w'.nodes = w.nodes
  certificates : w'.certificates = w.certificates

theorem World.Fixes.refl (w : World) : w.Fixes w := ⟨rfl, rfl, rfl⟩

theorem World.Fixes.trans {w₁ w₂ w₃ : World} (h : w₁.Fixes w₂) (h' : w₂.Fixes w₃) : w₁.Fixes w₃ :=
  ⟨h'.clock.trans h.clock, h'.nodes.trans h.nodes, h'.certificates.trans h.certificates⟩

theorem World.fixes_exec (q : Statement) (w : World) : w.Fixes (w.exec q) := by
  cases q <;> exact ⟨rfl, rfl, rfl⟩

theorem World.fixes_foldl {α : Type} {f : World → α → World} (hf : ∀ (w : World) a, w.Fixes (f w a))
    (l : List α) (w : World) : w.Fixes (l.foldl f w) := by
  induction l generalizing w with
  | nil => exact .refl w
  | cons a l ih => exact (hf w a).trans (ih _)

theorem World.fixes_upsertClient (w : World) (client : LiveClient) :
    w.Fixes (w.upsertClient x now client) := by
  rw [World.upsertClient]
  split_ifs
  · exact (World.fixes_exec _ w).trans (World.fixes_exec _ _)
  · exact .refl w

theorem World.fixes_closeStaleFor (w : World) (nodeID : String) (activeSessionIDs : List String) :
    w.Fixes (w.closeStaleFor now nodeID activeSessionIDs) := by
  rw [World.closeStaleFor]
  split_ifs
  · exact .refl w
  · exact ⟨rfl, rfl, rfl⟩

theorem World.fixes_markActivity (cns : List String) (w : World) :
    w.Fixes (w.markActivity x cns) := by
  rw [World.markActivity]
  split_ifs
  · exact .refl w
  · exact World.fixes_exec _ w

theorem World.fixes_closeNotFresh (sessionCutoff : ℤ) (rows : List ClientRow) (w : World) :
    w.Fixes (w.closeNotFresh now sessionCutoff rows) :=
  World.fixes_foldl (fun v (row : ClientRow) =>
    World.fixes_exec (.closeStale row.nodeID now sessionCutoff) v) rows w

theorem World.fixes_synced (w : World) : w.Fixes (w.synced x cfg) := by
  have hstored : w.Fixes (w.upsertClients x w.clock w.allClients) :=
    World.fixes_foldl World.fixes_upsertClient _ w
  have hclosed : w.Fixes
      ((w.upsertClients x w.clock w.allClients).closeStaleRows w.clock w.polled) :=
    hstored.trans
      (World.fixes_foldl (fun v (row : ClientRow) =>
        v.fixes_closeStaleFor row.nodeID row.sessionIDs) _ _)
  have hmissing : w.Fixes (((w.upsertClients x w.clock w.allClients).closeStaleRows w.clock
      w.polled).closeMissing w.clock (w.nodes.map w.clientRow)) :=
    hclosed.trans ⟨rfl, rfl, rfl⟩
  have hmarked := (hmissing.trans (World.fixes_exec (.deleteSources (w.clock - 90 * day)) _)).trans
    (@World.fixes_markActivity x (activeCNLower x w.allClients) _)
  exact (hmarked.trans
    (World.fixes_closeNotFresh (w.clock - cfg.clientSessionFreshness) w.polled _)).trans
    (World.fixes_exec (.deleteAssignments (w.clock - 30 * day)) _)

theorem nodes_synced : (w.synced x cfg).nodes = w.nodes := w.fixes_synced.nodes

theorem assignments_markActivity (cns : List String) :
    (w.markActivity x cns).assignments = w.assignments := by
  rw [World.markActivity]
  split_ifs <;> rfl

/-- An ended session past the thirty days after which it is removed. -/
def ClientIpAssignment.Expired (now : ℤ) (r : ClientIpAssignment) : Prop :=
  r.endedAt.any (· < param (now - 30 * day)) = true

instance (now : ℤ) (r : ClientIpAssignment) : Decidable (r.Expired now) :=
  inferInstanceAs (Decidable (_ = true))

theorem ClientIpAssignment.not_expired_of_open {r : ClientIpAssignment} (h : r.endedAt = none) :
    ¬r.Expired now := by
  rw [ClientIpAssignment.Expired, h]
  exact Bool.false_ne_true

/-- **A session after a poll**, from the session after the clients are stored. -/
theorem session_synced (h : w.Keyed) (nodeID sessionID : String) :
    (w.synced x cfg).session nodeID sessionID =
      (((w.upsertClients x w.clock w.allClients).session nodeID sessionID).map fun r =>
        if (∃ row ∈ w.polled, row.Misses nodeID sessionID) ∧ r.endedAt = none then r.close w.clock
        else if (∃ row ∈ w.polled, nodeID = row.nodeID) ∧ r.endedAt = none ∧
          r.lastSeenAt < param (w.clock - cfg.clientSessionFreshness) then r.close w.clock
        else r).filter fun r => decide ¬r.Expired w.clock := by
  have hbefore : (w.beforeRetention x cfg).session nodeID sessionID =
      ((w.upsertClients x w.clock w.allClients).session nodeID sessionID).map fun r =>
        if (∃ row ∈ w.polled, row.Misses nodeID sessionID) ∧ r.endedAt = none then r.close w.clock
        else if (∃ row ∈ w.polled, nodeID = row.nodeID) ∧ r.endedAt = none ∧
          r.lastSeenAt < param (w.clock - cfg.clientSessionFreshness) then r.close w.clock
        else r := by
    rw [World.beforeRetention, session_closeNotFresh, World.session, assignments_markActivity]
    change Option.map _ (World.session (World.closeStaleRows _ _ _) nodeID sessionID) = _
    rw [session_closeStaleRows, Option.map_map]
    congr 1
    funext r
    rw [Function.comp_apply]
    by_cases hclose : (∃ row ∈ w.polled, row.Misses nodeID sessionID) ∧ r.endedAt = none
    · rw [if_pos hclose, if_pos hclose, if_neg fun hopen => Option.some_ne_none _ hopen.2.1]
    · rw [if_neg hclose, if_neg hclose]
  rw [← hbefore]
  refine (Rows.byKey_deleteWhere h.beforeRetention.assignments (nodeID, sessionID)).trans ?_
  refine congrArg (fun p => Option.filter p _) (funext fun r => ?_)
  by_cases hexpired : r.Expired w.clock
  · rw [decide_eq_false (not_not.2 hexpired)]
    exact congrArg not hexpired
  · rw [decide_eq_true hexpired]
    exact congrArg not (Bool.eq_false_of_not_eq_true hexpired)

/-! ### The sessions of a node -/

/-- The open sessions of a node are the ones it reported last, with the values of the last report of
each. -/
structure Reflects (nodeID : String) (clients : List VpnClient) (now : ℤ) (w : World) : Prop where
  reported : ∀ s, s ≠ "" → (∃ c ∈ clients, c.id = s) →
    ∃! r, r ∈ w.assignments ∧ r.agentNodeId = nodeID ∧ r.sessionId = s ∧ r.endedAt = none
  values : ∀ r ∈ w.assignments, r.agentNodeId = nodeID → r.endedAt = none →
    r.sessionId ≠ "" ∧ ∃ c, lastReported clients r.sessionId = some c ∧
    r.commonName = c.commonName ∧
      r.realIp = c.hostIP ∧ r.virtualIp = c.virtualIp ∧ r.connectedAt = c.connectedAt ∧
      r.lastSeenAt = stamp now

theorem mem_assignments (h : w.Keyed) {r : ClientIpAssignment} :
    r ∈ w.assignments ↔ w.session r.agentNodeId r.sessionId = some r := by
  rw [World.session, Rows.byKey_eq_some h.assignments]
  exact ⟨fun hr => ⟨hr, rfl⟩, fun hr => hr.1⟩

theorem session_key {nodeID sessionID : String} {r : ClientIpAssignment}
    (h : w.session nodeID sessionID = some r) : r.agentNodeId = nodeID ∧ r.sessionId = sessionID :=
  Prod.mk.inj (Rows.mem_of_byKey_eq_some h).2

/-- What a client that was stored leaves of its session. -/
theorem stored_values {o : Option ClientIpAssignment} {c : LiveClient} {r : ClientIpAssignment}
    (h : r = (o.map (touchAssignment now c)).getD (newAssignment now c)) :
    r.endedAt = none ∧ r.commonName = c.commonName ∧ r.realIp = c.hostIP ∧
      r.virtualIp = c.virtualIp ∧ r.connectedAt = c.connectedAt ∧ r.lastSeenAt = stamp now := by
  cases o with
  | none =>
    rw [h, Option.map_none, Option.getD_none]
    simp only [newAssignment, and_self]
  | some r₀ =>
    rw [h, Option.map_some, Option.getD_some]
    simp only [touchAssignment, and_self]

section Node

variable (h : w.Keyed) {n : AgentNode} (hn : n ∈ w.nodes) (hid : n.id ≠ "")
  {clients : List VpnClient} (hanswer : w.answer n.id = some clients)

include hanswer in
/-- The session ids of the row of a node that answered. -/
theorem misses_iff (hn : n ∈ w.nodes) (hid : n.id ≠ "") {s : String} :
    (∃ row ∈ w.polled, row.Misses n.id s) ↔ s = "" ∨ ∀ c ∈ clients, c.id ≠ s := by
  have hids : ∀ row : ClientRow, row = ⟨n.id, true, clients.map fun c => ⟨c, n.id, w.clock⟩⟩ →
      (s ∉ row.sessionIDs ↔ s = "" ∨ ∀ c ∈ clients, c.id ≠ s) := by
    rintro row rfl
    rw [ClientRow.sessionIDs, List.mem_filter, List.map_map, List.mem_map,
      decide_eq_true_eq, not_and_or, not_not, or_comm, not_exists]
    exact or_congr_right (forall_congr' fun c => not_and)
  constructor
  · rintro ⟨row, hrow, -, hnode, hmiss⟩
    have heq := eq_of_mem_polled hrow (hnode ▸ hanswer)
    rw [← hnode] at heq
    exact (hids row heq).1 hmiss
  · intro hs
    exact ⟨_, mem_polled.2 ⟨n, hn, clients, hanswer, rfl⟩, hid, rfl, (hids _ rfl).2 hs⟩

include h hn hid hanswer in
/-- **A reported session is open.** -/
theorem session_reported (hfresh : second ≤ cfg.clientSessionFreshness) {s : String} (hs : s ≠ "")
    {c : VpnClient} (hc : lastReported clients s = some c) :
    (w.synced x cfg).session n.id s = some (((w.session n.id s).map
      (touchAssignment w.clock ⟨c, n.id, w.clock⟩)).getD (newAssignment w.clock ⟨c, n.id,
      w.clock⟩)) := by
  obtain ⟨r, hr⟩ : ∃ r, r = ((w.session n.id s).map
      (touchAssignment w.clock ⟨c, n.id, w.clock⟩)).getD (newAssignment w.clock ⟨c,
      n.id, w.clock⟩) :=
    ⟨_, rfl⟩
  obtain ⟨hopen, -, -, -, -, hseen⟩ := stored_values hr
  have hstored : (w.upsertClients x w.clock w.allClients).session n.id s = some r := by
    rw [session_upsertClients h hn hid hanswer hs, hc, hr]
  have hmiss : ¬((∃ row ∈ w.polled, row.Misses n.id s) ∧ r.endedAt = none) := by
    rw [misses_iff hanswer hn hid]
    rintro ⟨hnone | hnone, -⟩
    · exact hs hnone
    · exact hnone c (of_lastReported hc).1 (of_lastReported hc).2
  have hnotfresh : ¬((∃ row ∈ w.polled, n.id = row.nodeID) ∧ r.endedAt = none ∧
      r.lastSeenAt < param (w.clock - cfg.clientSessionFreshness)) := by
    rintro ⟨-, -, hlt⟩
    rw [hseen] at hlt
    exact absurd (Timestamp.param_le_stamp hfresh) (not_le.2 hlt)
  rw [session_synced h, hstored, Option.map_some, if_neg hmiss, if_neg hnotfresh, ← hr]
  exact Option.filter_some_pos (decide_eq_true (ClientIpAssignment.not_expired_of_open hopen))

include h hn hid hanswer in
/-- **A session that is not reported is not open.** -/
theorem session_not_reported {s : String} (hs : s = "" ∨ ∀ c ∈ clients, c.id ≠ s)
    {r : ClientIpAssignment} (hr : (w.synced x cfg).session n.id s = some r) :
    r.endedAt ≠ none := by
  rw [session_synced h, Option.filter_eq_some_iff, Option.map_eq_some_iff] at hr
  obtain ⟨⟨r₀, -, hr⟩, -⟩ := hr
  by_cases hopen : r₀.endedAt = none
  · rw [if_pos ⟨(misses_iff hanswer hn hid).2 hs, hopen⟩] at hr
    rw [← hr]
    exact Option.some_ne_none _
  · rw [if_neg fun hclose => hopen hclose.2, if_neg fun hclose => hopen hclose.2.1] at hr
    rw [← hr]
    exact hopen

include h hn hid hanswer in
/-- The open sessions of a node that answered are the ones it reported. -/
theorem reflects_synced (hfresh : second ≤ cfg.clientSessionFreshness) :
    Reflects n.id clients w.clock (w.synced x cfg) := by
  have hkeyed : (w.synced x cfg).Keyed := h.synced
  refine ⟨fun s hs ⟨c, hc, hcs⟩ => ?_, fun r hr hnode hopen => ?_⟩
  · obtain ⟨c', hlast⟩ := Option.ne_none_iff_exists'.1 fun hnone =>
      lastReported_eq_none.1 hnone c hc hcs
    have hsession := session_reported h hn hid hanswer (x := x) hfresh hs hlast
    obtain ⟨hrnode, hrsession⟩ := session_key hsession
    refine ⟨_, ⟨(mem_assignments hkeyed).2 ?_, hrnode, hrsession, (stored_values rfl).1⟩, ?_⟩
    · rw [hrnode, hrsession]
      exact hsession
    · rintro r ⟨hr, hnode, hs', -⟩
      rw [mem_assignments hkeyed, hnode, hs', hsession] at hr
      exact (Option.some.inj hr).symm
  · have hsession := (mem_assignments hkeyed).1 hr
    rw [hnode] at hsession
    have hreported : ¬(r.sessionId = "" ∨ ∀ c ∈ clients, c.id ≠ r.sessionId) := fun hmiss =>
      session_not_reported h hn hid hanswer hmiss hsession hopen
    obtain ⟨hs, hsome⟩ := not_or.1 hreported
    obtain ⟨c, hlast⟩ := Option.ne_none_iff_exists'.1 fun hnone =>
      hsome (lastReported_eq_none.1 hnone)
    rw [session_reported h hn hid hanswer hfresh hs hlast] at hsession
    exact ⟨hs, c, hlast, (stored_values (Option.some.inj hsession).symm).2⟩

end Node

/-- **A node that did not answer keeps its sessions**, but for those ended long ago. -/
theorem session_failed (h : w.Keyed) {nodeID : String} (hanswer : w.answer nodeID = none)
    (s : String) :
    (w.synced x cfg).session nodeID s = (w.session nodeID s).filter fun r =>
    decide ¬r.Expired w.clock := by
  have hpolled : ∀ row ∈ w.polled, nodeID ≠ row.nodeID := by
    intro row hrow hnode
    obtain ⟨n, -, clients, hsome, rfl⟩ := mem_polled.1 hrow
    rw [hnode, hsome] at hanswer
    cases hanswer
  have hstored : (w.upsertClients x w.clock w.allClients).session nodeID s =
      w.session nodeID s := by
    refine session_upsertClients_of_not (fun c hc _ hkey => ?_) w
    obtain ⟨row, hrow, hc⟩ := List.mem_flatMap.1 hc
    exact hpolled row hrow (hkey.1.symm.trans (nodeId_of_mem_polled hrow hc))
  have hid : (fun r : ClientIpAssignment =>
      if (∃ row ∈ w.polled, row.Misses nodeID s) ∧ r.endedAt = none then r.close w.clock
      else if (∃ row ∈ w.polled, nodeID = row.nodeID) ∧ r.endedAt = none ∧
        r.lastSeenAt < param (w.clock - cfg.clientSessionFreshness) then r.close w.clock
      else r) = id := by
    funext r
    rw [if_neg fun ⟨⟨row, hrow, hmiss⟩, _⟩ => hpolled row hrow hmiss.2.1,
      if_neg fun ⟨⟨row, hrow, hnode⟩, _⟩ => hpolled row hrow hnode]
    rfl
  rw [session_synced h, hstored, hid, Option.map_id, id]

/-- **After a poll the open sessions are the reported ones.** A node that answered has an open
session for each session id it reported, and no other one; a node that did not answer keeps its
rows, but for those that ended long ago. -/
theorem open_sessions_reported (h : w.Keyed) (hids : ∀ n ∈ w.nodes, n.id ≠ "")
    (hfresh : second ≤ cfg.clientSessionFreshness) : ∀ n ∈ w.nodes,
    (∀ clients, w.answer n.id = some clients →
      Reflects n.id clients w.clock ((syncClientsSnapshot x cfg).alone w).1) ∧
    (w.answer n.id = none → ∀ r : ClientIpAssignment, r.agentNodeId = n.id →
      (r ∈ ((syncClientsSnapshot x cfg).alone w).1.assignments ↔
        r ∈ w.assignments ∧ ¬r.Expired w.clock)) := by
  rw [alone_syncClientsSnapshot h]
  intro n hn
  refine ⟨fun clients hanswer => reflects_synced h hn (hids n hn) hanswer hfresh,
    fun hanswer r hr => ?_⟩
  dsimp only
  rw [mem_assignments h.synced, mem_assignments h, hr, session_failed h hanswer,
    Option.filter_eq_some_iff, decide_eq_true_eq]

/-- Texts as the language writes them, and ids that are longer than those in use. -/
def pollEnv : PollEnv where
  ksuid := GoStrings.freshText
  ksuid_fresh := GoStrings.freshText_not_mem
  toLower := GoStrings.toLower
  lower := GoStrings.toLower

/-- A minute after 2023-11-14T22:13:20Z. One node reports a session twice and another with an empty
id, and has an open session that it does not report; the other node does not answer. -/
def twoNodes : World where
  clock := 1700000060000000000
  answer id := if id = "n1" then some [⟨"1", "alice", "198.51.100.7:1194", "10.8.0.2", "22:13"⟩,
    ⟨"", "UNDEF", "198.51.100.9:500", "", ""⟩,
    ⟨"1", "alice", "198.51.100.8:1194", "10.8.0.3", "22:14"⟩]
    else none
  disconnects _ _ := false
  nodes := [⟨"n1", 1⟩, ⟨"n2", 0⟩]
  users := []
  certificates := []
  assignments := [⟨"n1", "0", "bob", "203.0.113.5", "10.8.0.9", "22:10", 1700000000000000000,
      1700000000000000000, none⟩,
    ⟨"n2", "7", "carol", "203.0.113.6", "10.9.0.2", "22:11",
      1700000000000000000, 1700000000000000000, none⟩]
  sources := []

theorem twoNodes_keyed : twoNodes.Keyed :=
  ⟨by decide, List.nodup_nil, by decide, List.nodup_nil, List.nodup_nil⟩

theorem open_sessions_reported_twoNodes :
    (∀ clients, twoNodes.answer "n1" = some clients → Reflects "n1" clients twoNodes.clock
      ((syncClientsSnapshot pollEnv ⟨15 * second⟩).alone twoNodes).1) ∧
    (twoNodes.answer "n1" = none → ∀ r : ClientIpAssignment, r.agentNodeId = "n1" →
      (r ∈ ((syncClientsSnapshot pollEnv ⟨15 * second⟩).alone twoNodes).1.assignments ↔
        r ∈ twoNodes.assignments ∧ ¬r.Expired twoNodes.clock)) :=
  open_sessions_reported twoNodes_keyed (by decide) (by decide) ⟨"n1", 1⟩ (by decide)

end OpenvpnControl.Agent
