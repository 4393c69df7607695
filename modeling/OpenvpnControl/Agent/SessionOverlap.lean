import OpenvpnControl.Agent.SourceHistory

/-!
# Writers that overlap

Besides the poll of all agents, two pages of the panel ask agents for clients and store what they
are told, and a session that is disconnected is closed at once. Each of these reads the clock and
the answers of the agents before it writes, so that a slow one writes what is out of date. This file
runs any number of them side by side, statement by statement.

## Main definitions

* `Writer`, `Writer.program`: what writes the sessions, and its program.
* `Sighting`, `World.sighting`: what the two tables have in common.
* `Statement.InOrder`: a statement writes no older times over newer ones.
* `Monotone`: the times of all rows go forward, and a session that was disconnected is reopened by a
  later answer only.

## Main results

* `sessions_monotone`: a run of statements in order is monotone.
* `slow_writer_not_monotone`: a slow writer stores a last time before the first one.
-/

namespace OpenvpnControl.Agent

open Requests (Shared Pool Event Rules)
open Timestamp (stamp second)

/-! ### Programs -/

/-- `userCertificateCNs`, in lower case. -/
def userCertificateCNs (x : PollEnv) (vpnUserID : String) : Request World Statement (List String) :=
  query fun w => ((w.certificates.filter fun c => c.vpnUserId = some vpnUserID).map fun c =>
    GoStrings.trimSet [' '] c.commonName).filter (· ≠ "") |>.map x.toLower

/-- The loop of `supplementUserVpnSessions` over the clients of a node. -/
def supplementUserClients (x : PollEnv) (now : ℤ) (cnSet : List String) (live : List LiveClient) :
    Request World Statement Unit :=
  Request.each (fun c =>
    if x.toLower (GoStrings.trimSpace c.commonName) = "" then pure ()
    else if x.toLower (GoStrings.trimSpace c.commonName) ∉ cnSet then pure ()
    else upsertClientFromAgent x now c) live

/-- The loop of `supplementUserVpnSessions` over the nodes. -/
def supplementUserNode (x : PollEnv) (now : ℤ) (cnSet : List String) (n : AgentNode) :
    Request World Statement Unit := do
  let live ← clientsList n.id
  match live with
  | none => pure ()
  | some live => supplementUserClients x now cnSet live

def supplementUserVpnSessions (x : PollEnv) (vpnUserID : String) (now : ℤ) :
    Request World Statement Unit := do
  let cns ← userCertificateCNs x vpnUserID
  if cns = [] then pure ()
  else do
    let nodes ← query (·.nodes)
    Request.each (supplementUserNode x now cns) nodes

/-- `VPNSessions`, up to what it reads for its response. -/
def vpnSessions (x : PollEnv) (vpnUserID : String) : Request World Statement Unit := do
  let now ← query (·.clock)
  supplementUserVpnSessions x vpnUserID now

/-- The loop of `supplementLiveClients` over the clients of a node, which returns the keys seen so
far. -/
def supplementClients (x : PollEnv) (now : ℤ) :
    List LiveClient → List String → Request World Statement (List String)
  | [], seen => pure seen
  | c :: live, seen =>
    if c.nodeId = "" ∨ c.id = "" then supplementClients x now live seen
    else if c.nodeId ++ "\t" ++ c.id ∈ seen then supplementClients x now live seen
    else do
      upsertClientFromAgent x now c
      supplementClients x now live ((c.nodeId ++ "\t" ++ c.id) :: seen)

/-- The loop of `supplementLiveClients` over the nodes. -/
def supplementNodes (x : PollEnv) (now : ℤ) :
    List AgentNode → List String → Request World Statement Unit
  | [], _ => pure ()
  | n :: nodes, seen => do
    let live ← clientsList n.id
    let seen ← supplementClients x now (live.getD []) seen
    supplementNodes x now nodes seen

/-- `supplementLiveClients`, where `seen` has the keys of the rows that the page has already. -/
def supplementLiveClients (x : PollEnv) (seen : List String) : Request World Statement Unit := do
  let nodes ← query fun w => w.nodes.filter fun n => 0 < n.activeClients
  let now ← query (·.clock)
  supplementNodes x now nodes seen

def disconnect (nodeID clientID : String) : Request World Statement Unit := do
  let ok ← query fun w => w.disconnects nodeID clientID
  if ok then do
    let now ← query (·.clock)
    closeClientSessionInDB nodeID clientID now
  else pure ()

/-- What writes the sessions. -/
inductive Writer where
  | sync
  | sessions (vpnUserID : String)
  | list (seen : List String)
  | disconnect (nodeID clientID : String)
  deriving DecidableEq

/-- The program of a writer. -/
def Writer.program (x : PollEnv) (cfg : Config) : Writer → Request World Statement Unit
  | .sync => syncClientsSnapshot x cfg
  | .sessions vpnUserID => vpnSessions x vpnUserID
  | .list seen => supplementLiveClients x seen
  | .disconnect nodeID clientID => Agent.disconnect nodeID clientID

/-- What changes besides: time goes on, the agents answer otherwise, and other parts of the panel
write nodes, users and certificates. -/
structure Surroundings where
  clock : ℤ
  answer : String → Option (List VpnClient)
  disconnects : String → String → Bool
  nodes : List AgentNode
  users : List VpnUser
  certificates : List Certificate

/-- The surroundings change. -/
def surround (e : Surroundings) (w : World) : Option World :=
  if w.clock ≤ e.clock ∧ (e.nodes.map (·.id)).Nodup ∧ (e.users.map (·.id)).Nodup then
    some { w with
      clock := e.clock
      answer := e.answer
      disconnects := e.disconnects
      nodes := e.nodes
      users := e.users
      certificates := e.certificates }
  else none

/-- The panel and its writers. -/
abbrev System := Pool Writer World Statement Unit

/-- A step of a writer, or of the surroundings. -/
def overlapStep (x : PollEnv) (cfg : Config) : System → Event Writer Surroundings → Option System :=
  Requests.step (Writer.program x cfg) surround

/-! ### What is promised -/

/-- A row of one of the two tables. -/
inductive Track where
  | session (nodeID sessionID : String)
  | address (nodeID sessionID realIp : String)
  deriving DecidableEq

/-- The times of a row. -/
structure Sighting where
  firstSeenAt : ℤ
  lastSeenAt : ℤ
  endedAt : Option ℤ
  deriving DecidableEq

/-- The times of a session. -/
def ClientIpAssignment.sighting (r : ClientIpAssignment) : Sighting :=
  ⟨r.firstSeenAt, r.lastSeenAt, r.endedAt⟩

/-- The times of an address. -/
def ClientSourceIpHistory.sighting (r : ClientSourceIpHistory) : Sighting :=
  ⟨r.firstSeenAt, r.lastSeenAt, r.endedAt⟩

/-- The times of a row of the tables. -/
def World.sighting (w : World) : Track → Option Sighting
  | .session nodeID sessionID => (w.session nodeID sessionID).map (·.sighting)
  | .address nodeID sessionID realIp => (w.source nodeID sessionID realIp).map (·.sighting)

/-- A row is there and closed. -/
def World.Closed (w : World) (k : Track) : Prop := ∃ v, w.sighting k = some v ∧ v.endedAt ≠ none

/-- The client that a statement stores. -/
def Statement.client : Statement → Option LiveClient
  | .upsertSource _ _ client => some client
  | .upsertAssignment _ client => some client
  | _ => none

/-- No row was seen for the last time before the first one. The last time of a row never decreases.
A row that `Disconnect` closed at `t`, and that was closed ever since, is not opened by a statement
that stores a client of an answer before `t`. -/
structure Monotone (x : PollEnv) (cfg : Config) (s₀ : System)
    (events : List (Event Writer Surroundings)) :
    Prop where
  ordered : ∀ past rest, events = past ++ rest → ∀ s,
    Runs.run (overlapStep x cfg) s₀ past = some s →
    ∀ k, ∀ v ∈ s.world.sighting k, v.firstSeenAt ≤ v.lastSeenAt
  forward : ∀ past e rest, events = past ++ e :: rest →
    ∀ s s', Runs.run (overlapStep x cfg) s₀ past = some s → overlapStep x cfg s e = some s' →
    ∀ k, ∀ v ∈ s.world.sighting k, ∀ v' ∈ s'.world.sighting k, v.lastSeenAt ≤ v'.lastSeenAt
  closed : ∀ past i mid j rest, events = past ++ .act i :: (mid ++ .act j :: rest) →
    ∀ s s₁ s₂ s₃, Runs.run (overlapStep x cfg) s₀ past = some s →
    overlapStep x cfg s (.act i) = some s₁ → Runs.run (overlapStep x cfg) s₁ mid = some s₂ →
    overlapStep x cfg s₂ (.act j) = some s₃ →
    (∃ nodeID clientID, s.started[i]? = some (.disconnect nodeID clientID)) →
    ∀ k, ∀ v ∈ s.world.sighting k, v.endedAt = none →
    ∀ v₁ ∈ s₁.world.sighting k, ∀ t ∈ v₁.endedAt,
    Runs.Meets (overlapStep x cfg) (fun u _ => u.world.Closed k) s₁ (mid ++ [.act j]) →
    ∀ v₃ ∈ s₃.world.sighting k, v₃.endedAt = none →
    ∀ q, s₃.history.head? = some (j, q) → ∀ c ∈ q.client, t ≤ c.answeredAt

/-- A statement writes no older times over newer ones: a row that a client is stored in was not seen
after the time that is stored, and if it is closed, not closed after the answer that the client is
from; a row that is closed by its id is open. -/
def Statement.InOrder (w : World) : Statement → Prop
  | .upsertSource now _ client => ∀ r ∈ w.source client.nodeId client.id client.hostIP,
      r.lastSeenAt ≤ stamp now ∧ ∀ t ∈ r.endedAt, t ≤ client.answeredAt
  | .upsertAssignment now client => ∀ r ∈ w.session client.nodeId client.id,
      r.lastSeenAt ≤ stamp now ∧ ∀ t ∈ r.endedAt, t ≤ client.answeredAt
  | .closeSource id _ _ => ∀ r ∈ w.sources, r.id = id → r.endedAt = none
  | _ => True

variable {x : PollEnv} {cfg : Config} {w : World} {now : ℤ}

/-! ### What a statement does to a row -/

/-- What a statement in order does to a row: nothing, store a client, close it, or remove it. -/
inductive Change (client : Option LiveClient) : Option Sighting → Option Sighting → Prop
  | same (o : Option Sighting) : Change client o o
  | first (t : ℤ) : Change client none (some ⟨t, t, none⟩)
  | again {v : Sighting} {t : ℤ} (hlast : v.lastSeenAt ≤ t)
      (hended : ∀ e ∈ v.endedAt, ∀ c ∈ client, e ≤ c.answeredAt) :
      Change client (some v) (some ⟨v.firstSeenAt, t, none⟩)
  | close {v : Sighting} (t : ℤ) (hopen : v.endedAt = none) :
      Change client (some v) (some { v with endedAt := some t })
  | remove (v : Sighting) : Change client (some v) none

/-- Rows that are closed where they are open. -/
theorem change_close {ρ : Type} {client : Option LiveClient} {sighting : ρ → Sighting}
    {p : ρ → Bool} {f : ρ → ρ} {t : ℤ}
    (hf : ∀ r, sighting (f r) = { sighting r with endedAt := some t }) {o : Option ρ}
    (hp : ∀ r ∈ o, p r = true → (sighting r).endedAt = none) :
    Change client (o.map sighting) ((o.map fun r => if p r then f r else r).map sighting) := by
  cases o with
  | none => exact .same none
  | some r =>
    simp only [Option.map_some]
    by_cases hr : p r = true
    · rw [if_pos hr, hf]
      exact .close t (hp r rfl hr)
    · rw [if_neg hr]
      exact .same _

/-- Rows that are removed. -/
theorem change_delete {ρ : Type} {client : Option LiveClient} {sighting : ρ → Sighting}
    (p : ρ → Bool) (o : Option ρ) : Change client (o.map sighting) ((o.filter p).map sighting) := by
  cases o with
  | none => exact .same none
  | some r =>
    rw [Option.filter_some]
    split_ifs
    · exact .same _
    · exact .remove _

/-- The row that a client is stored in. -/
theorem change_upsert {ρ : Type} {client : LiveClient}
    {sighting : ρ → Sighting} {new : ρ} {f : ρ → ρ} {t : ℤ} (hnew : sighting new = ⟨t, t, none⟩)
    (hf : ∀ r, sighting (f r) = ⟨(sighting r).firstSeenAt, t, none⟩) {o : Option ρ}
    (ho : ∀ r ∈ o, (sighting r).lastSeenAt ≤ t ∧ ∀ e ∈ (sighting r).endedAt,
      e ≤ client.answeredAt) :
    Change (some client) (o.map sighting) (some (sighting ((o.map f).getD new))) := by
  cases o with
  | none =>
    rw [Option.map_none, Option.map_none, Option.getD_none, hnew]
    exact .first t
  | some r =>
    obtain ⟨hlast, hended⟩ := ho r rfl
    rw [Option.map_some, Option.map_some, Option.getD_some, hf]
    exact .again hlast fun e he c hc => Option.some.inj hc ▸ hended e he

theorem key_newSource {id : String} {client : LiveClient} :
    (newSource now id client).key = (client.nodeId, client.id, client.hostIP) := by
  simp only [newSource, ClientSourceIpHistory.key]

/-- A session after a statement that closes open ones. -/
theorem change_close_session {client : Option LiveClient} {w' : World}
    {p : ClientIpAssignment → Bool}
    (hw : w'.assignments = Rows.updateWhere p (·.close now) w.assignments)
    (hp : ∀ r, p r = true → r.endedAt = none) (nodeID sessionID : String) :
    Change client (w.sighting (.session nodeID sessionID))
    (w'.sighting (.session nodeID sessionID)) := by
  have hkey : ∀ r : ClientIpAssignment, (r.close now).key = r.key := fun _ => rfl
  rw [World.sighting, World.sighting, World.session, World.session, hw,
    Rows.byKey_updateWhere fun r _ => hkey r]
  exact change_close (fun _ => rfl) fun r _ hr => hp r hr

/-- **What a statement in order does to a row.** -/
theorem change_exec (h : w.Keyed) {q : Statement} (hq : q.InOrder w) (k : Track) :
    Change q.client (w.sighting k) ((w.exec q).sighting k) := by
  cases k with
  | session nodeID sessionID =>
    cases q with
    | upsertAssignment now client =>
      have hkey : ∀ r : ClientIpAssignment, (touchAssignment now client r).key = r.key :=
        fun _ => rfl
      rw [World.sighting, World.sighting, World.session, World.session, World.exec]
      dsimp only
      rw [Rows.byKey_upsert hkey]
      split_ifs with hself
      · have hself : (nodeID, sessionID) = (client.nodeId, client.id) := hself
        obtain ⟨rfl, rfl⟩ := Prod.mk.inj hself
        rw [← World.session]
        refine change_upsert (t := stamp now) ?_ (fun r => ?_) fun r hr => ?_
        · rfl
        · rfl
        · exact hq r hr
      · exact .same _
    | closeAssignments nodeID now =>
      exact change_close_session rfl (fun r hr => (of_decide_eq_true hr).2) _ _
    | closeOtherAssignments nodeID activeSessionIDs now =>
      exact change_close_session rfl (fun r hr => (of_decide_eq_true hr).2.1) _ _
    | closeStale nodeID now sessionCutoff =>
      exact change_close_session rfl (fun r hr => (of_decide_eq_true hr).2.1) _ _
    | closeSession nodeID sessionID now =>
      exact change_close_session rfl (fun r hr => (of_decide_eq_true hr).2.2) _ _
    | deleteAssignments endedRetention =>
      rw [World.sighting, World.sighting, World.session, World.session, World.exec]
      dsimp only
      rw [Rows.byKey_deleteWhere h.assignments]
      exact change_delete _ _
    | _ => exact .same _
  | address nodeID sessionID realIp =>
    cases q with
    | upsertSource now id client =>
      have hkey : ∀ r : ClientSourceIpHistory, (touchSource now client r).key = r.key :=
        fun _ => rfl
      rw [World.sighting, World.sighting, World.source, World.source, World.exec]
      dsimp only
      rw [Rows.byKey_upsert hkey, key_newSource]
      split_ifs with hself
      · rw [hself, ← World.source]
        refine change_upsert (t := stamp now) ?_ (fun r => ?_) fun r hr => ?_
        · rfl
        · rfl
        · exact hq r hr
      · exact .same _
    | closeSource id now duration =>
      have hkey : ∀ r : ClientSourceIpHistory, (r.close now duration).key = r.key := fun _ => rfl
      rw [World.sighting, World.sighting, World.source, World.source, World.exec]
      dsimp only
      rw [Rows.byKey_updateWhere fun r _ => hkey r]
      exact change_close (fun _ => rfl) fun r hr hid =>
        hq r (Rows.mem_of_byKey_eq_some hr).1 (of_decide_eq_true hid)
    | deleteSources sourceRetention =>
      rw [World.sighting, World.sighting, World.source, World.source, World.exec]
      dsimp only
      rw [Rows.byKey_deleteWhere h.sources]
      exact change_delete _ _
    | _ => exact .same _

/-- What every change keeps. -/
theorem Change.ordered {client : Option LiveClient} {o o' : Option Sighting}
    (h : Change client o o')
    (ho : ∀ v ∈ o, v.firstSeenAt ≤ v.lastSeenAt) : ∀ v ∈ o', v.firstSeenAt ≤ v.lastSeenAt := by
  cases h with
  | same => exact ho
  | first t =>
    rintro v ⟨⟩
    exact le_rfl
  | again hlast =>
    rintro v ⟨⟩
    exact (ho _ rfl).trans hlast
  | @close v =>
    rintro v' ⟨⟩
    exact ho v rfl
  | remove =>
    rintro v ⟨⟩

theorem Change.forward {client : Option LiveClient} {v v' : Sighting}
    (h : Change client (some v) (some v')) : v.lastSeenAt ≤ v'.lastSeenAt := by
  cases h with
  | same => exact le_rfl
  | again hlast => exact hlast
  | close t => exact le_rfl

/-- A row that is closed is closed at the same time, opened by a later answer, or removed. -/
theorem Change.closed {client : Option LiveClient} {v v' : Sighting} {t : ℤ}
    (h : Change client (some v) (some v')) (hv : v.endedAt = some t) :
    v'.endedAt = some t ∨ v'.endedAt = none ∧ ∀ c ∈ client, t ≤ c.answeredAt := by
  cases h with
  | same => exact Or.inl hv
  | again hlast hended => exact Or.inr ⟨rfl, hended t hv⟩
  | close t hopen =>
    rw [hopen] at hv
    cases hv

/-! ### The statements of the programs -/

/-- Each statement of a program writes what it says, and new rows have new ids. -/
abbrev ExecProgram {α : Type} (p : Request World Statement α) : Prop :=
  p.All fun label write => ∀ w, (label w).Fresh w ∧ write w = w.exec (label w)

theorem execs_execOf {q : World → Statement} (hq : ∀ w, (q w).Fresh w) : ExecProgram (execOf q) :=
  Request.all_stmt.2 ⟨fun w => ⟨hq w, rfl⟩, fun _ => Request.all_done _⟩

theorem execs_exec {q : Statement} (hq : ∀ w, q.Fresh w) : ExecProgram (exec q) := execs_execOf hq

theorem execs_query {α : Type} (f : World → α) : ExecProgram (query f) :=
  Request.all_read.2 fun _ => ⟨trivial, rfl⟩

theorem execs_upsertClientFromAgent (client : LiveClient) :
    ExecProgram (upsertClientFromAgent x now client) := by
  rw [upsertClientFromAgent]
  refine Request.all_ite (Request.all_pure _) ?_
  refine (execs_execOf ?_).bind fun _ => execs_exec fun _ => by trivial
  exact fun w => x.ksuid_fresh _

theorem execs_closeSources (rows : List ClientSourceIpHistory) :
    ExecProgram (closeSources now rows) :=
  Request.all_each (fun _ => execs_exec fun _ => by trivial) rows

theorem execs_closeStaleAssignmentsForNode (nodeID : String) (activeSessionIDs : List String) :
    ExecProgram (closeStaleAssignmentsForNode nodeID activeSessionIDs now) := by
  have hsources : ExecProgram (closeOpenSourceIPForNodeSessions nodeID activeSessionIDs now) := by
    rw [closeOpenSourceIPForNodeSessions]
    refine Request.all_ite (Request.all_pure _) (Request.all_ite ?_ ?_)
    · exact (execs_query _).bind execs_closeSources
    · exact (execs_query _).bind execs_closeSources
  rw [closeStaleAssignmentsForNode]
  refine Request.all_ite (Request.all_pure _) (Request.all_ite ?_ ?_)
  · exact (execs_exec fun _ => by trivial).bind fun _ => hsources
  · exact (execs_exec fun _ => by trivial).bind fun _ => hsources

theorem execs_closeClientSessionInDB (nodeID sessionID : String) :
    ExecProgram (closeClientSessionInDB nodeID sessionID now) := by
  rw [closeClientSessionInDB]
  refine Request.all_ite (Request.all_pure _) ((execs_exec fun _ => by trivial).bind fun _ => ?_)
  exact (execs_query _).bind execs_closeSources

theorem execs_clientRow (n : AgentNode) : ExecProgram (clientRow n) := by
  rw [clientRow]
  refine (execs_query _).bind fun list => ?_
  cases list <;> exact Request.all_pure _

theorem execs_updateActivity (cns : List String) : ExecProgram (updateActivity x now cns) := by
  rw [updateActivity]
  refine Request.all_ite (Request.all_pure _) ((execs_execOf fun _ => by trivial).bind fun _ => ?_)
  exact Request.all_pure _

theorem execs_syncClientsSnapshot : ExecProgram (syncClientsSnapshot x cfg) := by
  rw [syncClientsSnapshot]
  refine (execs_query _).bind fun nodeRows =>
    (Request.all_collect execs_clientRow _).bind fun rows =>
    (execs_query _).bind fun now => ?_
  refine (Request.all_each execs_upsertClientFromAgent _).bind fun _ => ?_
  refine (Request.all_each (fun _ => execs_closeStaleAssignmentsForNode _ _) _).bind fun _ => ?_
  refine (execs_query _).bind fun openRows => (execs_closeSources _).bind fun _ => ?_
  refine (execs_exec fun _ => by trivial).bind fun _ => (execs_updateActivity _).bind fun _ => ?_
  refine (Request.all_each (fun _ => execs_exec fun _ => by trivial) _).bind fun _ => ?_
  exact execs_exec fun _ => by trivial

theorem execs_vpnSessions (vpnUserID : String) : ExecProgram (vpnSessions x vpnUserID) := by
  have hclients : ∀ now cns live, ExecProgram (supplementUserClients x now cns live) :=
    fun now cns live =>
    Request.all_each (fun c => Request.all_ite (Request.all_pure _)
      (Request.all_ite (Request.all_pure _) (execs_upsertClientFromAgent c))) live
  have hnode : ∀ now cns n, ExecProgram (supplementUserNode x now cns n) := by
    intro now cns n
    rw [supplementUserNode]
    refine (execs_query _).bind fun live => ?_
    cases live with
    | none => exact Request.all_pure _
    | some live => exact hclients now cns live
  rw [vpnSessions]
  refine (execs_query _).bind fun now => ?_
  rw [supplementUserVpnSessions]
  refine (execs_query _).bind fun cns => Request.all_ite (Request.all_pure _) ?_
  exact (execs_query _).bind fun nodes => Request.all_each (hnode now cns) nodes

theorem execs_supplementClients (live : List LiveClient) (seen : List String) :
    ExecProgram (supplementClients x now live seen) := by
  induction live generalizing seen with
  | nil => exact Request.all_pure _
  | cons c live ih =>
    rw [supplementClients]
    refine Request.all_ite (ih seen) (Request.all_ite (ih seen) ?_)
    exact (execs_upsertClientFromAgent c).bind fun _ => ih _

theorem execs_supplementLiveClients (seen : List String) :
    ExecProgram (supplementLiveClients x seen) := by
  have hnodes : ∀ now nodes seen, ExecProgram (supplementNodes x now nodes seen) := by
    intro now nodes
    induction nodes with
    | nil => exact fun _ => Request.all_pure _
    | cons n nodes ih =>
      exact fun seen => (execs_query _).bind fun live => (execs_supplementClients _ seen).bind ih
  rw [supplementLiveClients]
  exact (execs_query _).bind fun nodes => (execs_query _).bind fun now => hnodes now nodes seen

theorem execs_disconnect (nodeID clientID : String) : ExecProgram (disconnect nodeID clientID) := by
  rw [disconnect]
  refine (execs_query _).bind fun ok => Request.all_ite ?_ (Request.all_pure _)
  exact (execs_query _).bind fun now => execs_closeClientSessionInDB nodeID clientID

theorem execs_program (r : Writer) : ExecProgram (r.program x cfg) := by
  cases r with
  | sync => exact execs_syncClientsSnapshot
  | sessions vpnUserID => exact execs_vpnSessions vpnUserID
  | list seen => exact execs_supplementLiveClients seen
  | disconnect nodeID clientID => exact execs_disconnect nodeID clientID

/-! ### Runs -/

/-- No row was seen for the last time before the first one. -/
def World.Ordered (w : World) : Prop := ∀ k, ∀ v ∈ w.sighting k, v.firstSeenAt ≤ v.lastSeenAt

/-- The rules of a run in which all statements are in order. -/
def overlapRules : Rules Writer Surroundings World Statement Unit where
  inv s := s.world.Keyed ∧ s.world.Ordered
  rely _ _ := True
  guar i s s' := ∃ q : Statement, q.InOrder s.world ∧ s'.world = s.world.exec q ∧
    s'.history = (i, q) :: s.history
  post _ _ := True
  stmtOk _ s q := q.InOrder s.world
  startOk _ _ := True
  envOk _ _ := True

theorem surround_eq_some {e : Surroundings} {w' : World} (h : surround e w = some w') :
    (e.nodes.map (·.id)).Nodup ∧ (e.users.map (·.id)).Nodup ∧
      w'.nodes = e.nodes ∧ w'.users = e.users ∧
      w'.assignments = w.assignments ∧ w'.sources = w.sources := by
  rw [surround] at h
  split_ifs at h with hguard
  obtain ⟨-, hnodes, husers⟩ := hguard
  rw [← Option.some.inj h]
  exact ⟨hnodes, husers, rfl, rfl, rfl, rfl⟩

theorem sighting_congr {w' : World} (ha : w'.assignments = w.assignments)
    (hs : w'.sources = w.sources) (k : Track) : w'.sighting k = w.sighting k := by
  cases k with
  | session nodeID sessionID =>
    rw [World.sighting, World.sighting, World.session, World.session, ha]
  | address nodeID sessionID realIp =>
    rw [World.sighting, World.sighting, World.source, World.source, hs]

theorem overlapRules_lawful : overlapRules.Lawful surround where
  refl _ := trivial
  trans _ _ := trivial
  start h _ := h
  env {s e w'} hinv _ hstep := by
    obtain ⟨hnodes, husers, hn, hu, ha, hs⟩ := surround_eq_some hstep
    refine ⟨⟨⟨hn ▸ hnodes, hu ▸ husers, ha ▸ hinv.1.assignments, hs ▸ hinv.1.sources,
      hs ▸ hinv.1.sourceIds⟩, fun k v hv => ?_⟩, trivial⟩
    rw [sighting_congr ha hs] at hv
    exact hinv.2 k v hv

/-- A statement in order keeps the rules. -/
theorem stmtKept_overlap {i : ℕ} {s : Shared Writer World Statement} {label : World → Statement}
    {write : World → World}
    (hexec : (label s.world).Fresh s.world ∧ write s.world = s.world.exec (label s.world))
    (hinv : overlapRules.inv s) (hok : (label s.world).InOrder s.world) :
    overlapRules.StmtKept i s label write := by
  obtain ⟨hfresh, hwrite⟩ := hexec
  refine ⟨?_, trivial, label s.world, hok, hwrite, rfl⟩
  change (write s.world).Keyed ∧ (write s.world).Ordered
  rw [hwrite]
  exact ⟨hinv.1.exec hfresh, fun k => (change_exec hinv.1 hok k).ordered (hinv.2 k)⟩

theorem keeps_overlap {i : ℕ} (r : Writer) (t : Shared Writer World Statement) :
    overlapRules.Keeps i (r.program x cfg) (fun _ _ => True) t :=
  (Rules.keeps_of_quiet (L := fun _ => True) (execs_program r) (Request.ends_true _)
    fun _ _ hexec u hinv hok => ⟨trivial, stmtKept_overlap (hexec u.world) hinv hok⟩).mono
      fun _ _ _ => trivial

variable {s₀ s s' : System} {events : List (Event Writer Surroundings)}

/-- The rules hold in every state of a run of statements in order. -/
theorem run_overlap (h : overlapRules.PoolInv s₀)
    (hok : Runs.Meets (overlapStep x cfg) overlapRules.StepOk s₀ events)
    (hrun : Runs.run (overlapStep x cfg) s₀ events = some s) : overlapRules.PoolInv s :=
  Rules.run_inv overlapRules_lawful h (fun r _ _ _ _ => keeps_overlap r _) hok hrun

theorem poolInv_step (h : overlapRules.PoolInv s) {e : Event Writer Surroundings}
    (hok : overlapRules.StepOk s e) (hstep : overlapStep x cfg s e = some s') :
    overlapRules.PoolInv s' :=
  @run_overlap x cfg s s' [e] h ⟨hok, fun _ _ => trivial⟩
    (Runs.run_cons_eq_some.2 ⟨s', hstep, rfl⟩)

/-- **What a step does to a row.** -/
theorem change_step (h : overlapRules.PoolInv s) {e : Event Writer Surroundings}
    (hok : overlapRules.StepOk s e) (hstep : overlapStep x cfg s e = some s') (k : Track) :
    ∃ client, Change client (s.world.sighting k) (s'.world.sighting k) ∧
      ∀ j, e = .act j → ∃ q, s'.history.head? = some (j, q) ∧ q.client = client := by
  cases e with
  | start r =>
    obtain rfl := Option.some.inj hstep
    exact ⟨none, .same _, fun j hj => by cases hj⟩
  | act i =>
    obtain ⟨q, hq, hworld, hhistory⟩ := h.guar overlapRules_lawful hok hstep
    refine ⟨q.client, ?_, fun j hj => ⟨q, ?_, rfl⟩⟩
    · rw [hworld]
      exact change_exec h.inv.1 hq k
    · obtain rfl := Event.act.inj hj
      rw [hhistory, List.head?_cons]
  | env e =>
    obtain ⟨w', hw', rfl⟩ := Option.map_eq_some_iff.1 hstep
    obtain ⟨-, -, -, -, ha, hs⟩ := surround_eq_some hw'
    refine ⟨none, ?_, fun j hj => by cases hj⟩
    rw [sighting_congr ha hs]
    exact .same _

/-- **A row that stays closed** stays closed at the same time. -/
theorem endedAt_of_closed (h : overlapRules.PoolInv s)
    (hok : Runs.Meets (overlapStep x cfg) overlapRules.StepOk s events) {k : Track}
    (hclosed : Runs.Meets (overlapStep x cfg) (fun u _ => u.world.Closed k) s events)
    (hrun : Runs.run (overlapStep x cfg) s events = some s') {t : ℤ}
    (ht : ∀ v ∈ s.world.sighting k, ∀ e ∈ v.endedAt, e = t) :
    ∀ v ∈ s'.world.sighting k, ∀ e ∈ v.endedAt, e = t := by
  have hboth : Runs.Meets (overlapStep x cfg)
      (fun u e => overlapRules.StepOk u e ∧ u.world.Closed k) s events :=
    hok.and_imp (fun _ _ hok hclosed => ⟨hok, hclosed⟩) hclosed
  refine (Runs.run_invariant_of_meets (I := fun u : System => overlapRules.PoolInv u ∧
    ∀ v ∈ u.world.sighting k, ∀ e ∈ v.endedAt, e = t) ?_ ⟨h, ht⟩ hboth hrun).2
  rintro u e u' ⟨hu, htime⟩ ⟨hok, v, hv, hne⟩ hstep
  refine ⟨poolInv_step hu hok hstep, fun v' hv' d hd => ?_⟩
  obtain ⟨client, hchange, -⟩ := change_step hu hok hstep k
  obtain ⟨t', ht'⟩ := Option.ne_none_iff_exists'.1 hne
  rw [hv, Option.mem_def.1 hv'] at hchange
  have hended : v'.endedAt = some t' := (hchange.closed ht').resolve_right fun hopen => by
    rw [hopen.1] at hd
    cases hd
  rw [hended] at hd
  exact (Option.some.inj hd).symm.trans (htime v hv t' ht')

/-- **A run of statements in order is monotone**, however the statements of polls and disconnects
interleave and whichever of them fail. The condition is on each statement that is executed, and on
what its table holds at that moment; it does not ask that polls do not overlap. -/
theorem sessions_monotone (h : w.Keyed) (hordered : w.Ordered)
    (hok : Runs.Meets (overlapStep x cfg) overlapRules.StepOk (Pool.initial w) events) :
    Monotone x cfg (Pool.initial w) events := by
  have hinitial : overlapRules.PoolInv (Pool.initial w : System) :=
    Rules.PoolInv.initial ⟨h, hordered⟩
  refine ⟨?_, ?_, ?_⟩
  · rintro past rest rfl s hs
    exact (run_overlap hinitial (Runs.meets_append.1 hok).1 hs).inv.2
  · rintro past e rest rfl s s' hs hstep k v hv v' hv'
    obtain ⟨hpast, hrest⟩ := Runs.meets_append.1 hok
    obtain ⟨client, hchange, -⟩ :=
      change_step (run_overlap hinitial hpast hs) (hrest s hs).1 hstep k
    rw [Option.mem_def.1 hv, Option.mem_def.1 hv'] at hchange
    exact hchange.forward
  · rintro past i mid j rest rfl s s₁ s₂ s₃ hs hclose hmid hreopen -
      k v hv hopen v₁ hv₁ t ht hclosed v₃ hv₃ hopen₃ q hq c hc
    obtain ⟨hpast, hrest⟩ := Runs.meets_append.1 hok
    have hinv := run_overlap hinitial hpast hs
    obtain ⟨hok₀, hrest₁⟩ := hrest s hs
    have hinv₁ := poolInv_step hinv hok₀ hclose
    obtain ⟨hokmid, hrest₂⟩ := Runs.meets_append.1 (hrest₁ s₁ hclose)
    have hinv₂ := run_overlap hinv₁ hokmid hmid
    obtain ⟨hclosedmid, hlast⟩ := Runs.meets_append.1 hclosed
    have htime := endedAt_of_closed hinv₁ hokmid hclosedmid hmid (k := k)
        (t := t) fun v' hv' e he => by
      rw [← Option.some.inj ((Option.mem_def.1 hv₁).symm.trans hv')] at he
      exact Option.some.inj (he.symm.trans ht)
    -- the row is closed at `t` when the client is stored
    obtain ⟨v₂, hv₂, hne⟩ := (hlast s₂ hmid).1
    obtain ⟨t', ht'⟩ := Option.ne_none_iff_exists'.1 hne
    obtain ⟨client, hchange, hlabel⟩ := change_step hinv₂ (hrest₂ s₂ hmid).1 hreopen k
    obtain ⟨q', hq', hclient⟩ := hlabel j rfl
    rw [hv₂, Option.mem_def.1 hv₃] at hchange
    rcases hchange.closed ht' with hended | ⟨-, hlater⟩
    · rw [hopen₃] at hended
      cases hended
    · rw [hq] at hq'
      obtain ⟨-, rfl⟩ := Prod.mk.inj (Option.some.inj hq')
      rw [← htime v₂ hv₂ t' ht']
      exact hlater c (hclient ▸ hc)

instance (w : World) : (q : Statement) → Decidable (q.InOrder w)
  | .upsertSource now _ client => inferInstanceAs (Decidable (∀ r ∈ w.source client.nodeId client.id
      client.hostIP, r.lastSeenAt ≤ stamp now ∧ ∀ t ∈ r.endedAt, t ≤ client.answeredAt))
  | .upsertAssignment now client =>
      inferInstanceAs (Decidable (∀ r ∈ w.session client.nodeId client.id,
        r.lastSeenAt ≤ stamp now ∧ ∀ t ∈ r.endedAt, t ≤ client.answeredAt))
  | .closeSource id _ _ =>
    inferInstanceAs (Decidable (∀ r ∈ w.sources, r.id = id → r.endedAt = none))
  | .read | .closeAssignments _ _ | .closeOtherAssignments _ _ _ | .closeStale _ _ _
  | .closeSession _ _ _ | .deleteAssignments _ | .deleteSources _ | .clearActivity _
  | .setActivity _ _ => isTrue trivial

instance (i : ℕ) (t : Shared Writer World Statement) (q : Statement) :
    Decidable (overlapRules.stmtOk i t q) := inferInstanceAs (Decidable (q.InOrder t.world))

instance (t : Shared Writer World Statement) (r : Writer) : Decidable (overlapRules.startOk t r) :=
  isTrue trivial

instance (t : Shared Writer World Statement) (e : Surroundings) :
    Decidable (overlapRules.envOk t e) :=
  isTrue trivial

/-- The node of `oneNode` has one client, who can be disconnected. -/
def oneClient (now : ℤ) : Surroundings where
  clock := now
  answer id := if id = "n1" then some [⟨"1", "alice", "198.51.100.7:1194", "10.8.0.2", "22:13"⟩]
    else none
  disconnects nodeID clientID := nodeID = "n1" ∧ clientID = "1"
  nodes := [⟨"n1", 1⟩]
  users := []
  certificates := []

/-- A writer starts, at a time, and takes some steps. -/
def starting (now : ℤ) (r : Writer) (i steps : ℕ) : List (Event Writer Surroundings) :=
  .env (oneClient now) :: .start r :: List.replicate steps (.act i)

/-- The page of clients stores a session, which is disconnected, and a poll finds it again. -/
def reconnecting : List (Event Writer Surroundings) :=
  starting 1700000010000000000 (.list []) 0 5 ++
    (starting 1700000020000000000 (.disconnect "n1" "1") 1 5 ++
      starting 1700000030000000000 .sync 2 5)

theorem oneNode_ordered : oneNode.Ordered := by
  rintro k v hv
  cases k <;> cases hv

theorem sessions_monotone_reconnecting :
    Monotone pollEnv ⟨15 * second⟩ (Pool.initial oneNode) reconnecting :=
  sessions_monotone oneNode_ready.keyed oneNode_ordered (by decide +kernel)

/-- The page of clients reads the clock and the answer, a poll reads both ten seconds later and
stores the session, and then the page stores it. -/
def slowPage : List (Event Writer Surroundings) :=
  starting 1700000010000000000 (.list []) 0 3 ++
    (starting 1700000020000000000 .sync 1 5 ++ List.replicate 2 (.act 0))

/-- **A slow writer** stores a last time before the first one. -/
theorem slow_writer_not_monotone :
    ¬Monotone pollEnv ⟨15 * second⟩ (Pool.initial oneNode) slowPage := by
  intro hmonotone
  have hrun : (Runs.run (overlapStep pollEnv ⟨15 * second⟩) (Pool.initial oneNode) slowPage).map
      (fun s => s.world.sighting (.session "n1" "1")) =
        some (some ⟨1700000020000000000, 1700000010000000000, none⟩) := by
    decide +kernel
  obtain ⟨s, hs, hsighting⟩ := Option.map_eq_some_iff.1 hrun
  have hle := hmonotone.ordered slowPage [] (List.append_nil _).symm s hs _ _ hsighting
  exact absurd hle (by decide)

end OpenvpnControl.Agent
