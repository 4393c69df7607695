import Mathlib.Data.List.DropRight
import OpenvpnControl.Library.GoStrings
import OpenvpnControl.Library.Requests
import OpenvpnControl.Library.Rows
import OpenvpnControl.Library.Timestamp

/-!
# The sessions of VPN clients

A poll asks the agent of a node for its clients, and stores them in two tables: a row of
`ClientIpAssignment` for a session, and a row of `ClientSourceIpHistory` for a session and the
address it comes from. The functions of `clients_persist.go` are programs of statements on these
tables. The table of traffic samples, which no other statement reads, is left out.

## Main definitions

* `VpnClient`, `ClientIpAssignment`, `ClientSourceIpHistory`, `World`: what a poll reads and writes.
* `Statement`, `World.exec`: the statements, and what they write.
* `upsertClientFromAgent`, `closeStaleAssignmentsForNode`, `closeClientSessionInDB`: the programs.

## Main results

* `World.Keyed.exec`: every statement keeps the unique columns.
* `alone_upsertClientFromAgent`, `alone_closeStaleAssignmentsForNode`: what a program writes alone.
-/

namespace OpenvpnControl.Agent

open Timestamp (stamp param)

/-! ### Rows -/

/-- `vpnClientJSON`. -/
structure VpnClient where
  id : String
  commonName : String
  remoteIp : String
  virtualIp : String
  connectedAt : String
  deriving DecidableEq

/-- A client that `ClientsList` returns: with its node, and the time at which the agent answered. -/
structure LiveClient extends VpnClient where
  nodeId : String
  answeredAt : ℤ
  deriving DecidableEq

/-- A row of `ClientIpAssignment`. -/
structure ClientIpAssignment where
  agentNodeId : String
  sessionId : String
  commonName : String
  realIp : String
  virtualIp : String
  connectedAt : String
  firstSeenAt : ℤ
  lastSeenAt : ℤ
  endedAt : Option ℤ
  deriving DecidableEq

/-- A row of `ClientSourceIpHistory`. -/
structure ClientSourceIpHistory where
  id : String
  agentNodeId : String
  sessionId : String
  commonName : String
  realIp : String
  connectedAt : String
  firstSeenAt : ℤ
  lastSeenAt : ℤ
  endedAt : Option ℤ
  durationSeconds : Option ℤ
  deriving DecidableEq

/-- The unique columns of `ClientIpAssignment`. -/
def ClientIpAssignment.key (r : ClientIpAssignment) : String × String :=
  (r.agentNodeId, r.sessionId)

/-- The unique columns of `ClientSourceIpHistory`. -/
def ClientSourceIpHistory.key (r : ClientSourceIpHistory) : String × String × String :=
  (r.agentNodeId, r.sessionId, r.realIp)

/-- The columns of `AgentNode` that the polls read. -/
structure AgentNode where
  id : String
  activeClients : ℤ
  deriving DecidableEq

/-- The columns of `VpnUser` that a poll reads and writes. -/
structure VpnUser where
  id : String
  lastVpnActivityAt : Option ℤ
  deriving DecidableEq

/-- The columns of `Certificate` that the polls read. -/
structure Certificate where
  commonName : String
  vpnUserId : Option String
  deriving DecidableEq

/-- The clock, the agents, and the tables. `answer` is what the agent of a node answers to a request
for its clients, and `none` an error; `disconnects` tells whether the agent of a node disconnects a
client. -/
structure World where
  clock : ℤ
  answer : String → Option (List VpnClient)
  disconnects : String → String → Bool
  nodes : List AgentNode
  users : List VpnUser
  certificates : List Certificate
  assignments : List ClientIpAssignment
  sources : List ClientSourceIpHistory

/-- What the language and the database do: `ksuid.New`, of the texts in use, `strings.ToLower` and
`LOWER`. -/
structure PollEnv where
  ksuid : List String → String
  ksuid_fresh : ∀ ids, ksuid ids ∉ ids
  toLower : String → String
  lower : String → String

def remoteAddrHostOnly (addr : String) : String :=
  let s := (GoStrings.trimSpace addr).toList
  let inner := (s.drop 1).takeWhile (· ≠ ']')
  let host := (s.rdropWhile (· ≠ ':')).dropLast
  let tail := s.rtakeWhile (· ≠ ':')
  -- an address in brackets, which are not empty
  if s.head? = some '[' ∧ ']' ∈ s ∧ inner ≠ [] then String.ofList inner
  -- a port of at most five digits after an address with a dot
  else if ':' ∈ s ∧ host ≠ [] ∧ tail.all Char.isDigit ∧ 1 ≤ tail.length ∧
    tail.length ≤ 5 ∧ '.' ∈ host then
    String.ofList host
  else String.ofList s

/-- The address that a client comes from, without the port. -/
def VpnClient.hostIP (client : VpnClient) : String := remoteAddrHostOnly client.remoteIp

/-! ### Statements -/

/-- The statements. -/
inductive Statement where
  | read
  | upsertSource (now : ℤ) (id : String) (client : LiveClient)
  | upsertAssignment (now : ℤ) (client : LiveClient)
  | closeAssignments (nodeID : String) (now : ℤ)
  | closeOtherAssignments (nodeID : String) (activeSessionIDs : List String) (now : ℤ)
  | closeStale (nodeID : String) (now sessionCutoff : ℤ)
  | closeSession (nodeID sessionID : String) (now : ℤ)
  | closeSource (id : String) (now duration : ℤ)
  | deleteAssignments (endedRetention : ℤ)
  | deleteSources (sourceRetention : ℤ)
  | clearActivity (userIDs : List String)
  | setActivity (userIDs : List String) (now : ℤ)
  deriving DecidableEq

/-- The row that is inserted for a client. -/
def newAssignment (now : ℤ) (client : LiveClient) : ClientIpAssignment :=
  ⟨client.nodeId, client.id, client.commonName, client.hostIP, client.virtualIp,
    client.connectedAt, stamp now, stamp now, none⟩

/-- The row of a client that is reported again. -/
def touchAssignment (now : ℤ) (client : LiveClient) (r : ClientIpAssignment) : ClientIpAssignment :=
  { r with
    commonName := client.commonName
    realIp := client.hostIP
    virtualIp := client.virtualIp
    connectedAt := client.connectedAt
    lastSeenAt := stamp now
    endedAt := none }

/-- The row that is inserted for a client and its address. -/
def newSource (now : ℤ) (id : String) (client : LiveClient) : ClientSourceIpHistory :=
  ⟨id, client.nodeId, client.id, client.commonName, client.hostIP, client.connectedAt, stamp now,
    stamp now, none, none⟩

/-- The row of a client that is reported again from an address. -/
def touchSource (now : ℤ) (client : LiveClient) (r : ClientSourceIpHistory) :
    ClientSourceIpHistory :=
  { r with
    commonName := client.commonName
    connectedAt := client.connectedAt
    lastSeenAt := stamp now
    endedAt := none
    durationSeconds := none }

/-- A session that is closed. -/
def ClientIpAssignment.close (now : ℤ) (r : ClientIpAssignment) : ClientIpAssignment :=
  { r with endedAt := some (stamp now) }

/-- An address that is closed. -/
def ClientSourceIpHistory.close (now duration : ℤ) (r : ClientSourceIpHistory) :
    ClientSourceIpHistory :=
  { r with endedAt := some (stamp now), durationSeconds := some duration }

/-- What a statement writes. -/
def World.exec (w : World) : Statement → World
  | .read => w
  | .upsertSource now id client =>
    { w with
      sources := Rows.upsert (·.key) (newSource now id client) (touchSource now client) w.sources }
  | .upsertAssignment now client =>
    { w with
      assignments := Rows.upsert (·.key) (newAssignment now client) (touchAssignment now client)
        w.assignments }
  | .closeAssignments nodeID now =>
    { w with
      assignments :=
        Rows.updateWhere (fun r => r.agentNodeId = nodeID ∧ r.endedAt = none) (·.close now)
        w.assignments }
  | .closeOtherAssignments nodeID activeSessionIDs now =>
    { w with
      assignments := Rows.updateWhere
        (fun r => r.agentNodeId = nodeID ∧ r.endedAt = none ∧ r.sessionId ∉ activeSessionIDs)
        (·.close now) w.assignments }
  | .closeStale nodeID now sessionCutoff =>
    { w with
      assignments := Rows.updateWhere
        (fun r => r.agentNodeId = nodeID ∧ r.endedAt = none ∧ r.lastSeenAt < param sessionCutoff)
        (·.close now) w.assignments }
  | .closeSession nodeID sessionID now =>
    { w with
      assignments := Rows.updateWhere
        (fun r => r.agentNodeId = nodeID ∧ r.sessionId = sessionID ∧ r.endedAt = none) (·.close now)
        w.assignments }
  | .closeSource id now duration =>
    { w with sources := Rows.updateWhere (fun r => r.id = id) (·.close now duration) w.sources }
  | .deleteAssignments endedRetention =>
    { w with
      assignments :=
        Rows.deleteWhere (fun r => r.endedAt.any (· < param endedRetention)) w.assignments }
  | .deleteSources sourceRetention =>
    { w with
      sources := Rows.deleteWhere (fun r => r.endedAt.any (· < param sourceRetention)) w.sources }
  | .clearActivity userIDs =>
    { w with
      users := Rows.updateWhere (fun u => u.lastVpnActivityAt ≠ none ∧ u.id ∉ userIDs)
        (fun u => { u with lastVpnActivityAt := none }) w.users }
  | .setActivity userIDs now =>
    { w with
      users := Rows.updateWhere (fun u => u.id ∈ userIDs)
        (fun u => { u with lastVpnActivityAt := some (stamp now) }) w.users }

/-! ### Programs -/

/-- A statement whose values are read from the state it runs in. -/
def execOf (q : World → Statement) : Request World Statement Unit :=
  .stmt q (fun w => w.exec (q w)) fun _ => .done ()

/-- A statement. -/
def exec (q : Statement) : Request World Statement Unit := execOf fun _ => q

/-- A query, or a call of an agent. -/
def query {α : Type} (f : World → α) : Request World Statement α := .read (fun _ => .read) f

def upsertClientFromAgent (x : PollEnv) (now : ℤ) (client : LiveClient) :
    Request World Statement Unit :=
  if client.nodeId = "" ∨ client.id = "" then pure ()
  else do
    execOf fun w => .upsertSource now (x.ksuid (w.sources.map (·.id))) client
    exec (.upsertAssignment now client)

/-- The seconds from the first to the last sight of a session. -/
def durationSeconds (now firstSeen : ℤ) : ℤ := max 0 ((now - firstSeen).tdiv Timestamp.second)

/-- The loop that closes rows by their ids. -/
def closeSources (now : ℤ) (rows : List ClientSourceIpHistory) : Request World Statement Unit :=
  Request.each (fun r => exec (.closeSource r.id now (durationSeconds now r.firstSeenAt))) rows

def closeOpenSourceIPForNodeSessions (nodeID : String) (activeSessionIDs : List String) (now : ℤ) :
    Request World Statement Unit :=
  if nodeID = "" then pure ()
  else do
    let rows ← if activeSessionIDs = [] then
        query fun w => w.sources.filter fun r => r.agentNodeId = nodeID ∧ r.endedAt = none
      else query fun w => w.sources.filter fun r =>
        r.agentNodeId = nodeID ∧ r.endedAt = none ∧ r.sessionId ∉ activeSessionIDs
    closeSources now rows

def closeStaleAssignmentsForNode (nodeID : String) (activeSessionIDs : List String) (now : ℤ) :
    Request World Statement Unit :=
  if nodeID = "" then pure ()
  else do
    if activeSessionIDs = [] then exec (.closeAssignments nodeID now)
    else exec (.closeOtherAssignments nodeID activeSessionIDs now)
    closeOpenSourceIPForNodeSessions nodeID activeSessionIDs now

def closeOpenSourceIPForSession (nodeID sessionID : String) (now : ℤ) :
    Request World Statement Unit := do
  let rows ← query fun w => w.sources.filter fun r =>
    r.agentNodeId = nodeID ∧ r.sessionId = sessionID ∧ r.endedAt = none
  closeSources now rows

def closeClientSessionInDB (nodeID sessionID : String) (now : ℤ) : Request World Statement Unit :=
  if nodeID = "" ∨ sessionID = "" then pure ()
  else do
    exec (.closeSession nodeID sessionID now)
    closeOpenSourceIPForSession nodeID sessionID now

/-! ### The unique columns -/

/-- The unique columns of the tables. -/
structure World.Keyed (w : World) : Prop where
  nodes : Rows.HasKey (·.id) w.nodes
  users : Rows.HasKey (·.id) w.users
  assignments : Rows.HasKey (·.key) w.assignments
  sources : Rows.HasKey (·.key) w.sources
  sourceIds : Rows.HasKey (·.id) w.sources

/-- A new row of the table of addresses has an id that no row has. -/
def Statement.Fresh (w : World) : Statement → Prop
  | .upsertSource _ id _ => id ∉ w.sources.map (·.id)
  | _ => True

variable {x : PollEnv} {w : World} {now : ℤ} {nodeID : String}

/-- A row inserted with a new id, or updated. -/
theorem sourceIds_upsert {t : List ClientSourceIpHistory} (h : Rows.HasKey (·.id) t) {id : String}
    (hid : id ∉ t.map (·.id)) (client : LiveClient) :
    Rows.HasKey (·.id)
      (Rows.upsert (·.key) (newSource now id client) (touchSource now client) t) := by
  rw [Rows.upsert]
  split_ifs
  · exact h.updateWhere fun r _ _ => rfl
  · exact h.append_singleton hid

/-- **Every statement keeps the unique columns.** -/
theorem World.Keyed.exec (h : w.Keyed) {q : Statement} (hq : q.Fresh w) : (w.exec q).Keyed := by
  cases q with
  | read => exact h
  | upsertSource now id client =>
    exact ⟨h.nodes, h.users, h.assignments, h.sources.upsert fun _ => rfl,
      sourceIds_upsert h.sourceIds hq client⟩
  | upsertAssignment now client =>
    exact ⟨h.nodes, h.users, h.assignments.upsert fun _ => rfl, h.sources, h.sourceIds⟩
  | closeAssignments nodeID now =>
    exact ⟨h.nodes, h.users, h.assignments.updateWhere fun _ _ _ => rfl, h.sources, h.sourceIds⟩
  | closeOtherAssignments nodeID activeSessionIDs now =>
    exact ⟨h.nodes, h.users, h.assignments.updateWhere fun _ _ _ => rfl, h.sources, h.sourceIds⟩
  | closeStale nodeID now sessionCutoff =>
    exact ⟨h.nodes, h.users, h.assignments.updateWhere fun _ _ _ => rfl, h.sources, h.sourceIds⟩
  | closeSession nodeID sessionID now =>
    exact ⟨h.nodes, h.users, h.assignments.updateWhere fun _ _ _ => rfl, h.sources, h.sourceIds⟩
  | closeSource id now duration =>
    exact ⟨h.nodes, h.users, h.assignments, h.sources.updateWhere fun _ _ _ => rfl,
      h.sourceIds.updateWhere fun _ _ _ => rfl⟩
  | deleteAssignments endedRetention =>
    exact ⟨h.nodes, h.users, h.assignments.deleteWhere, h.sources, h.sourceIds⟩
  | deleteSources sourceRetention =>
    exact ⟨h.nodes, h.users, h.assignments, h.sources.deleteWhere, h.sourceIds.deleteWhere⟩
  | clearActivity userIDs =>
    exact ⟨h.nodes, h.users.updateWhere fun _ _ _ => rfl, h.assignments, h.sources, h.sourceIds⟩
  | setActivity userIDs now =>
    exact ⟨h.nodes, h.users.updateWhere fun _ _ _ => rfl, h.assignments, h.sources, h.sourceIds⟩

/-! ### The programs alone -/

@[simp] theorem alone_execOf (q : World → Statement) (w : World) :
    (execOf q).alone w = (w.exec (q w), ()) := rfl

@[simp] theorem alone_exec (q : Statement) (w : World) : (exec q).alone w = (w.exec q, ()) := rfl

@[simp] theorem alone_query {α : Type} (f : World → α) (w : World) : (query f).alone w = (w, f w) :=
  rfl

/-- The clients that `UpsertClientFromAgent` stores. -/
def LiveClient.Stored (client : LiveClient) : Prop := client.nodeId ≠ "" ∧ client.id ≠ ""

instance (client : LiveClient) : Decidable client.Stored := inferInstanceAs (Decidable (_ ∧ _))

/-- What `UpsertClientFromAgent` writes. -/
def World.upsertClient (x : PollEnv) (now : ℤ) (w : World) (client : LiveClient) : World :=
  if client.Stored then
    (w.exec (.upsertSource now (x.ksuid (w.sources.map (·.id))) client)).exec
      (.upsertAssignment now client)
  else w

theorem alone_upsertClientFromAgent (client : LiveClient) :
    (upsertClientFromAgent x now client).alone w = (w.upsertClient x now client, ()) := by
  rw [upsertClientFromAgent, World.upsertClient]
  by_cases h : client.Stored
  · rw [if_neg (not_or.2 h), if_pos h]
    rfl
  · rw [if_pos (by rw [LiveClient.Stored, not_and_or, not_not, not_not] at h; exact h), if_neg h]
    rfl

theorem World.Keyed.upsertClient (h : w.Keyed) (client : LiveClient) :
    (w.upsertClient x now client).Keyed := by
  rw [World.upsertClient]
  split_ifs
  · exact (h.exec (q := .upsertSource now _ client) (x.ksuid_fresh _)).exec
      (q := .upsertAssignment now client) trivial
  · exact h

/-- A row that is closed with its duration. -/
def ClientSourceIpHistory.closeAt (now : ℤ) (r : ClientSourceIpHistory) : ClientSourceIpHistory :=
  r.close now (Agent.durationSeconds now r.firstSeenAt)

/-- **The rows that were selected are closed**, and no other one. -/
theorem alone_closeSources (h : Rows.HasKey (·.id) w.sources) (p : ClientSourceIpHistory → Bool) :
    (closeSources now (w.sources.filter p)).alone w =
      ({ w with sources := Rows.updateWhere p (·.closeAt now) w.sources }, ()) := by
  have hfold : ∀ (l : List ClientSourceIpHistory) (w : World),
      l.foldl (fun w r => w.exec (.closeSource r.id now (durationSeconds now r.firstSeenAt))) w =
        { w with
          sources := l.foldl (fun t s => Rows.updateWhere (fun r => r.id = s.id)
            (·.close now (durationSeconds now s.firstSeenAt)) t) w.sources } := by
    intro l
    induction l with
    | nil => exact fun _ => rfl
    | cons s l ih =>
      intro w
      rw [List.foldl_cons, ih, List.foldl_cons]
      rfl
  have hid : ∀ s r : ClientSourceIpHistory,
      (r.close now (durationSeconds now s.firstSeenAt)).id = r.id := fun _ _ => rfl
  have hclose : (w.sources.filter p).foldl
      (fun t s => Rows.updateWhere (fun r => decide (r.id = s.id))
      (·.close now (durationSeconds now s.firstSeenAt)) t) w.sources =
      Rows.updateWhere p (fun r => r.close now (durationSeconds now r.firstSeenAt)) w.sources :=
    Rows.foldl_updateWhere_key hid h
  rw [closeSources, Request.alone_each]
  simp only [alone_exec]
  rw [hfold, hclose]
  rfl

/-- What `CloseStaleAssignmentsForNode` writes. -/
def World.closeStaleFor (now : ℤ) (nodeID : String) (activeSessionIDs : List String)
    (w : World) : World :=
  if nodeID = "" then w
  else
    { w with
      assignments := Rows.updateWhere
        (fun r => r.agentNodeId = nodeID ∧ r.endedAt = none ∧ r.sessionId ∉ activeSessionIDs)
        (·.close now) w.assignments
      sources := Rows.updateWhere
        (fun r => r.agentNodeId = nodeID ∧ r.endedAt = none ∧ r.sessionId ∉ activeSessionIDs)
        (·.closeAt now) w.sources }

/-- **The two statements for an empty list and for another one** do the same. -/
theorem alone_closeStaleAssignmentsForNode (h : Rows.HasKey (·.id) w.sources)
    (activeSessionIDs : List String) :
    (closeStaleAssignmentsForNode nodeID activeSessionIDs now).alone w =
      (w.closeStaleFor now nodeID activeSessionIDs, ()) := by
  rw [closeStaleAssignmentsForNode, World.closeStaleFor]
  split_ifs with hnode hids
  · rfl
  · subst hids
    rw [Request.alone_bind, alone_exec, closeOpenSourceIPForNodeSessions, if_neg hnode, if_pos rfl,
      Request.alone_bind, alone_query]
    refine (alone_closeSources (w := w.exec (.closeAssignments nodeID now)) h _).trans ?_
    simp only [World.exec, List.not_mem_nil, not_false_eq_true, and_true]
  · rw [Request.alone_bind, alone_exec, closeOpenSourceIPForNodeSessions, if_neg hnode, if_neg hids,
      Request.alone_bind, alone_query]
    exact alone_closeSources (w := w.exec (.closeOtherAssignments nodeID activeSessionIDs now)) h _

theorem World.Keyed.closeStaleFor (h : w.Keyed) (activeSessionIDs : List String) :
    (w.closeStaleFor now nodeID activeSessionIDs).Keyed := by
  rw [World.closeStaleFor]
  split_ifs
  · exact h
  · exact ⟨h.nodes, h.users, h.assignments.updateWhere fun _ _ _ => rfl,
      h.sources.updateWhere fun _ _ _ => rfl, h.sourceIds.updateWhere fun _ _ _ => rfl⟩

end OpenvpnControl.Agent
