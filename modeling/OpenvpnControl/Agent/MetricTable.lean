import OpenvpnControl.Agent.LogTable
import OpenvpnControl.Library.Float64
import OpenvpnControl.Library.Grouping

/-!
# The metrics of the nodes

A loop asks every agent for its metrics, stores them with the node and as a snapshot, and deletes
the snapshots that have become too old. The overview shows the nodes with their snapshots of the
last minutes. This file says which ones these are, whatever the order of the statements and
whichever of them fail.

## Main definitions

* `syncNodeMetrics`, `syncAllNodes`: a pass of the loop.
* `overview`: the nodes and their snapshots.
* `recorded`: the snapshots that were stored, but for those that went with a removed node.

## Main results

* `recent_run`: a statement leaves the snapshots that the overview may show.
* `overview_run`: the snapshots of a node in any run.
-/

namespace OpenvpnControl.Agent.MetricTable

open LogTable (SyncResult)

/-! ### Metrics -/

/-- The metrics of a node. -/
structure Metrics where
  cpuPercent : ℚ
  memoryPercent : ℚ
  diskPercent : ℚ
  diskReadBps : ℚ
  diskWriteBps : ℚ
  networkInBps : ℚ
  networkOutBps : ℚ
  activeClients : ℤ
  deriving DecidableEq

/-- A row of `AgentNode`. -/
structure NodeRow where
  id : String
  name : String
  status : String
  metrics : Metrics
  lastSeenAt : Option ℤ
  deriving DecidableEq

/-- A row of `AgentMetricSnapshot`. -/
structure AgentMetricSnapshot where
  agentNodeId : String
  metrics : Metrics
  createdAt : ℤ
  deriving DecidableEq

def num : Json → ℚ
  | .num n => Float64.nearest n.value
  | _ => 0

def str (v : Json) (default : String) : String := if v.asString = "" then default else v.asString

/-- The metrics of an answer. -/
def readMetrics (metrics : GoMap Json) : Metrics where
  cpuPercent := num (metrics.get "cpuPercent")
  memoryPercent := num (metrics.get "memoryPercent")
  diskPercent := num (metrics.get "diskPercent")
  diskReadBps := num (metrics.get "diskReadBps")
  diskWriteBps := num (metrics.get "diskWriteBps")
  networkInBps := num (metrics.get "networkInBps")
  networkOutBps := num (metrics.get "networkOutBps")
  activeClients := Float64.toInt64 (num (metrics.get "activeClients"))

/-- The time since which the snapshots are kept and shown. The product of durations has 64 bits,
which holds 153722867 minutes; more of them wrap. -/
def metricsSince (minutes now : ℤ) : ℤ :=
  Timestamp.param (now - Int.bmod (minutes * 60 * Timestamp.second) (2 ^ 64))

theorem metricsSince_mono {minutes now now' : ℤ} (h : now ≤ now') :
    metricsSince minutes now ≤ metricsSince minutes now' :=
  Timestamp.param_mono (Int.sub_le_sub_right h _)

/-! ### Statements -/

/-- What the statements share. -/
structure MetricWorld where
  now : ℤ
  nodes : List NodeRow
  snapshots : List AgentMetricSnapshot

/-- A statement that is executed; a statement on other tables, or one that fails, is `other`. -/
inductive Statement where
  | unknown (nodeID : String)
  | update (nodeID status : String) (metrics : Metrics)
  | snapshot (row : AgentMetricSnapshot)
  | cleanup (cutoff : ℤ)
  | create (n : NodeRow)
  | rename (nodeID name : String)
  | delete (nodeID : String)
  | other

/-- The tables after a statement. The snapshots of a node go with it. -/
def Statement.run (w : MetricWorld) : Statement → MetricWorld
  | unknown nodeID =>
    { w with
      nodes := Rows.updateWhere (fun n => n.id = nodeID)
        (fun n => { n with status := "UNKNOWN", metrics := { n.metrics with activeClients := 0 } })
        w.nodes }
  | update nodeID status metrics =>
    { w with
      nodes := Rows.updateWhere (fun n => n.id = nodeID)
        (fun n =>
          { n with
            status := status
            metrics := metrics
            lastSeenAt := some (Timestamp.stamp w.now) }) w.nodes }
  | snapshot row => { w with snapshots := w.snapshots ++ [row] }
  | cleanup cutoff =>
    { w with snapshots := Rows.deleteWhere (fun row => row.createdAt < cutoff) w.snapshots }
  | create n => { w with nodes := w.nodes ++ [n] }
  | rename nodeID name =>
    { w with nodes := Rows.updateWhere (fun n => n.id = nodeID) (fun n =>
      { n with name := name }) w.nodes }
  | delete nodeID =>
    { w with
      nodes := Rows.deleteWhere (fun n => n.id = nodeID) w.nodes
      snapshots := Rows.deleteWhere (fun row => row.agentNodeId = nodeID) w.snapshots }
  | other => w

@[simp] theorem Statement.run_now (w : MetricWorld) (st : Statement) : (st.run w).now = w.now := by
  cases st <;> rfl

/-- A statement on the tables. -/
def exec (label : MetricWorld → Statement) : Request MetricWorld Statement Unit :=
  .write label fun w => (label w).run w

/-- Reads the clock. -/
def clock : Request MetricWorld Statement ℤ := .read (fun _ => .other) (·.now)

/-- What the agents answer, and which statements fail: the error of the list of nodes, of an agent
or of the update of its node, and whether the other statements of a node are executed. -/
structure Poll where
  listError : Option String
  metrics : String → Except String (GoMap Json)
  unknownSet : String → Bool
  updateError : String → Option String
  stored : String → Bool
  cleaned : String → Bool

/-- `syncNodeMetrics`. The reference of a snapshot to its node is checked, and the tasks of the node
are on other tables. -/
def syncNodeMetrics (minutes : ℤ) (poll : Poll) (n : NodeRow) :
    Request MetricWorld Statement SyncResult :=
  match poll.metrics n.id with
  | .error msg =>
    exec (fun _ => if poll.unknownSet n.id then .unknown n.id else .other) >>= fun _ =>
      pure ⟨n.name, false, msg⟩
  | .ok metrics =>
    match poll.updateError n.id with
    | some msg => exec (fun _ => .other) >>= fun _ => pure ⟨n.name, false, msg⟩
    | none =>
      exec (fun _ => .update n.id (str (metrics.get "status") "ONLINE") (readMetrics metrics)) >>=
        fun _ =>
        clock >>= fun metricAt =>
          exec (fun w =>
            if poll.stored n.id ∧ ∃ row ∈ w.nodes, row.id = n.id then
              .snapshot ⟨n.id, readMetrics metrics, Timestamp.stamp metricAt⟩
            else .other) >>= fun _ =>
            exec (fun _ => if poll.cleaned n.id then .cleanup (metricsSince minutes metricAt)
              else .other) >>= fun _ =>
              (if str (metrics.get "status") "ONLINE" = "ONLINE" then exec fun _ => .other
                else pure ()) >>= fun _ =>
                pure ⟨n.name, true, ""⟩

def syncAllNodes (minutes : ℤ) (poll : Poll) :
    Request MetricWorld Statement (Except String (List SyncResult)) :=
  .read (fun _ => .other) (·.nodes) >>= fun nodes =>
    match poll.listError with
    | some e => pure (.error e)
    | none => Request.collect (syncNodeMetrics minutes poll) nodes >>= fun results =>
      pure (.ok results)

/-- What writes the tables between two restores of a backup: a pass, of the loop or by request, and
a node that is added, renamed or removed. -/
inductive MetricRequest where
  | sync (poll : Poll)
  | createNode (n : NodeRow)
  | patchNode (id name : String)
  | deleteNode (id : String)

/-- The statements of a request. -/
def MetricRequest.program (minutes : ℤ) :
    MetricRequest → Request MetricWorld Statement (Except String (List SyncResult))
  | sync poll => syncAllNodes minutes poll
  | createNode n => exec (fun _ => .create n) >>= fun _ => pure (.ok [])
  | patchNode id name => exec (fun _ => .rename id name) >>= fun _ => pure (.ok [])
  | deleteNode id => exec (fun _ => .delete id) >>= fun _ => pure (.ok [])

/-- The clock goes on. -/
def tick (now : ℤ) (w : MetricWorld) : Option MetricWorld := if w.now ≤ now then
    some { w with now := now } else none

/-! ### The overview -/

/-- A response of the overview. -/
structure OverviewPage where
  totalServers : ℕ
  totalClients : ℤ
  servers : List (NodeRow × List AgentMetricSnapshot)

/-- The rows of the first query. -/
def agentRows (agentNodeID : String) (nodes : List NodeRow) : List NodeRow :=
  nodes.filter fun n => agentNodeID = "" ∨ n.id = agentNodeID

/-- The rows of the second query. -/
def historyRows (minutes : ℤ) (agentNodeID : String) (now : ℤ)
    (snapshots : List AgentMetricSnapshot) :
    List AgentMetricSnapshot :=
  snapshots.filter fun row =>
    metricsSince minutes now ≤ row.createdAt ∧ (agentNodeID = "" ∨ row.agentNodeId = agentNodeID)

/-- `Overview`, on what the two queries answer: an error of the second one is dropped. -/
def overview (agents : Except String (List NodeRow)) (history : Option (List AgentMetricSnapshot)) :
    Except (ℤ × String) OverviewPage :=
  match agents with
  | .error e => .error (500, e)
  | .ok agents =>
    let byNode := Grouping.collect (·.agentNodeId) (fun rows row => rows ++ [row])
      (fun _ => []) (history.getD [])
    .ok
      { totalServers := agents.length
        totalClients := (agents.map (·.metrics.activeClients)).sum
        servers := agents.map fun a => (a, byNode a.id) }

/-- The snapshots of a node are those with its id. -/
theorem byNode_eq (history : List AgentMetricSnapshot) (id : String) :
    Grouping.collect (·.agentNodeId) (fun rows row => rows ++ [row]) (fun _ => []) history id =
      history.filter fun row => row.agentNodeId = id := by
  have happend : ∀ l init : List AgentMetricSnapshot, l.foldl (fun rows row => rows ++ [row]) init =
      init ++ l := by
    intro l
    induction l with
    | nil => exact fun init => (List.append_nil init).symm
    | cons row l ih =>
      intro init
      rw [List.foldl_cons, ih, List.append_assoc, List.singleton_append]
  rw [Grouping.collect_apply, happend, List.nil_append]

/-! ### What a statement leaves -/

/-- What a statement stores, and what goes with a removed node. -/
def Statement.record (snapshots : List AgentMetricSnapshot) : Statement → List AgentMetricSnapshot
  | snapshot row => snapshots ++ [row]
  | delete nodeID => Rows.deleteWhere (fun row => row.agentNodeId = nodeID) snapshots
  | _ => snapshots

/-- The snapshots that were stored, but for those that went with a removed node; the latest
statement is the first. -/
def recorded (history : List Statement) : List AgentMetricSnapshot :=
  Since.replay (fun snapshots st => Statement.record snapshots st) [] history

theorem recorded_cons (st : Statement) (earlier : List Statement) :
    recorded (st :: earlier) = st.record (recorded earlier) := rfl

/-- The snapshots since a time. -/
def since (t : ℤ) (snapshots : List AgentMetricSnapshot) : List AgentMetricSnapshot :=
  snapshots.filter fun row => t ≤ row.createdAt

/-- A cleanup deletes no snapshots of the time that is shown. -/
def Statement.Past (minutes now : ℤ) : Statement → Prop
  | cleanup cutoff => cutoff ≤ metricsSince minutes now
  | _ => True

theorem since_deleteWhere (t : ℤ) (p : AgentMetricSnapshot → Bool)
    (snapshots : List AgentMetricSnapshot) :
    since t (Rows.deleteWhere p snapshots) = Rows.deleteWhere p (since t snapshots) := by
  simp only [since, Rows.deleteWhere]
  rw [List.filter_comm]

/-- **A statement leaves the snapshots** since a time that is shown, but for a new one and those of
a removed node. -/
theorem recent_run {minutes t : ℤ} {w : MetricWorld} {st : Statement} {earlier : List Statement}
    (hst : st.Past minutes w.now) (ht : metricsSince minutes w.now ≤ t)
    (h : since t w.snapshots = since t (recorded earlier)) :
    since t (st.run w).snapshots = since t (recorded (st :: earlier)) := by
  rw [recorded_cons]
  cases st with
  | snapshot row =>
    have happend : ∀ snapshots, since t (snapshots ++ [row]) = since t snapshots ++ since t [row] :=
      fun snapshots =>
      List.filter_append ..
    rw [Statement.run, Statement.record, happend, happend, h]
  | delete nodeID => rw [Statement.run, Statement.record, since_deleteWhere, since_deleteWhere, h]
  | cleanup cutoff =>
    have hkept : Rows.deleteWhere (fun row => decide (row.createdAt < cutoff))
        (since t w.snapshots) = since t w.snapshots := by
      refine Rows.deleteWhere_eq_self fun row hrow => ?_
      have hrecent : t ≤ row.createdAt := of_decide_eq_true (List.mem_filter.1 hrow).2
      exact decide_eq_false (not_lt.2 ((hst.trans ht).trans hrecent))
    change since t (Rows.deleteWhere _ w.snapshots) = since t (recorded earlier)
    rw [since_deleteWhere, hkept, h]
  | unknown _ | update _ _ _ | create _ | rename _ _ | other => exact h

/-! ### Runs -/

section Runs

variable {minutes : ℤ} {s t : Requests.Shared MetricRequest MetricWorld Statement} {i : ℕ}

/-- The snapshots of the time that is shown are those that were stored. -/
def MetricInv (minutes : ℤ) (s : Requests.Shared MetricRequest MetricWorld Statement) : Prop :=
  ∀ t, metricsSince minutes s.world.now ≤ t →
    since t s.world.snapshots = since t (recorded (s.history.map Prod.snd))

/-- The rules of the tables. -/
def metricRules (minutes : ℤ) :
    Requests.Rules MetricRequest ℤ MetricWorld Statement (Except String (List SyncResult)) where
  inv := MetricInv minutes
  rely u v := u.now ≤ v.now
  guar _ _ _ := True
  post _ _ := True
  stmtOk _ _ _ := True
  startOk _ _ := True
  envOk _ _ := True

/-- **One statement** keeps the invariant. -/
theorem stmtKept {label : MetricWorld → Statement} (h : MetricInv minutes t)
    (hpast : (label t.world).Past minutes t.world.now) :
    (metricRules minutes).StmtKept i t label fun w => (label w).run w where
  inv t' ht' := by
    rw [Requests.after_world, Statement.run_now] at ht'
    exact recent_run hpast ht' (h t' ht')
  rely := (Statement.run_now _ _).ge
  guar := trivial

/-- A statement on the tables, and what follows. -/
theorem keeps_exec {β : Type} {label : MetricWorld → Statement}
    {k : Unit → Request MetricWorld Statement β}
    {Q : β → Requests.Shared MetricRequest MetricWorld Statement → Prop}
    (h : ∀ t : Requests.Shared MetricRequest MetricWorld Statement, s.world.now ≤ t.world.now →
      (label t.world).Past minutes t.world.now ∧ ∀ u :
      Requests.Shared MetricRequest MetricWorld Statement,
        u.world.now = t.world.now → (metricRules minutes).Keeps i (k ()) Q u) :
    (metricRules minutes).Keeps i (exec label >>= k) Q s :=
  Requests.Rules.keeps_write fun t hrely hinv _ => by
    obtain ⟨hpast, hnext⟩ := h t hrely.world
    exact ⟨stmtKept hinv hpast, hnext _ (Statement.run_now _ _)⟩

/-- The clock is read, and what follows. -/
theorem keeps_clock {β : Type} {k : ℤ → Request MetricWorld Statement β}
    {Q : β → Requests.Shared MetricRequest MetricWorld Statement → Prop}
    (h : ∀ now, ∀ u : Requests.Shared MetricRequest MetricWorld Statement, u.world.now = now →
      (metricRules minutes).Keeps i (k now) Q u) :
    (metricRules minutes).Keeps i (clock >>= k) Q s :=
  Requests.Rules.keeps_read fun t _ hinv _ => by
    have hkept : (metricRules minutes).StmtKept i t (fun _ => .other) id := stmtKept hinv trivial
    exact ⟨hkept, h _ _ rfl⟩

/-- A node of a pass. -/
theorem keeps_syncNode (poll : Poll) (n : NodeRow) :
    (metricRules minutes).Keeps i (syncNodeMetrics minutes poll n) (fun _ _ => True) s := by
  rw [syncNodeMetrics]
  cases poll.metrics n.id with
  | error msg =>
    refine keeps_exec fun t _ => ⟨?_, fun u _ => Requests.Rules.keeps_pure.2 trivial⟩
    split_ifs <;> trivial
  | ok metrics =>
    dsimp only
    cases poll.updateError n.id with
    | some msg => exact keeps_exec fun t _ =>
      ⟨trivial, fun u _ => Requests.Rules.keeps_pure.2 trivial⟩
    | none =>
      refine keeps_exec fun _ _ => ⟨trivial, fun _ _ => keeps_clock fun metricAt u hu => ?_⟩
      refine keeps_exec fun v hv => ⟨?_, fun v' hv' => keeps_exec fun w hw => ⟨?_, fun w' _ => ?_⟩⟩
      · split_ifs <;> trivial
      · -- the clock has not gone back since it was read
        have hnow : metricAt ≤ w.world.now := ((hu.ge.trans hv).trans hv'.ge).trans hw
        split_ifs
        · exact metricsSince_mono hnow
        · trivial
      · split_ifs
        · exact keeps_exec fun _ _ => ⟨trivial, fun _ _ => Requests.Rules.keeps_pure.2 trivial⟩
        · exact Requests.Rules.keeps_pure.2 trivial

/-- **Every request** keeps the invariant. -/
theorem keeps_program (r : MetricRequest) :
    (metricRules minutes).Keeps i (r.program minutes) (fun _ _ => True) s := by
  cases r with
  | sync poll =>
    refine Requests.Rules.keeps_read fun t _ hinv _ => ?_
    have hkept : (metricRules minutes).StmtKept i t (fun _ => .other) id := stmtKept hinv trivial
    refine ⟨hkept, ?_⟩
    cases poll.listError with
    | some e => exact Requests.Rules.keeps_pure.2 trivial
    | none =>
      have hnodes : (metricRules minutes).Keeps i
          (Request.collect (syncNodeMetrics minutes poll) t.world.nodes)
          (fun _ _ => True) (t.after i (fun _ => .other) id) :=
        Requests.Rules.keeps_collect (fun n _ _ _ => keeps_syncNode poll n) trivial
      exact Requests.Rules.keeps_bind.2 (hnodes.mono fun _ _ _ =>
        Requests.Rules.keeps_pure.2 trivial)
  | createNode n => exact keeps_exec fun _ _ =>
    ⟨trivial, fun _ _ => Requests.Rules.keeps_pure.2 trivial⟩
  | patchNode id name => exact keeps_exec fun _ _ =>
    ⟨trivial, fun _ _ => Requests.Rules.keeps_pure.2 trivial⟩
  | deleteNode id => exact keeps_exec fun _ _ =>
    ⟨trivial, fun _ _ => Requests.Rules.keeps_pure.2 trivial⟩

theorem metricRules_lawful : (metricRules minutes).Lawful tick where
  refl _ := le_rfl
  trans := le_trans
  start h _ := h
  env {s now w} h _ htick := by
    rw [tick] at htick
    split_ifs at htick with hle
    obtain rfl := Option.some.inj htick
    exact ⟨fun t ht => h t ((metricsSince_mono hle).trans ht), hle⟩

/-- A run of passes and requests side by side, from a database without snapshots. -/
def MetricRun (minutes : ℤ) (w : MetricWorld) (events : List (Requests.Event MetricRequest ℤ))
    (p : Requests.Pool MetricRequest MetricWorld Statement (Except String (List SyncResult))) :
    Prop :=
  w.snapshots = [] ∧ Runs.run (Requests.step (MetricRequest.program minutes) tick)
    (.initial w) events = some p

/-- **The invariant holds in every run.** -/
theorem MetricRun.inv {w : MetricWorld} {events : List (Requests.Event MetricRequest ℤ)}
    {p : Requests.Pool MetricRequest MetricWorld Statement (Except String (List SyncResult))}
    (h : MetricRun minutes w events p) : MetricInv minutes p.toShared := by
  obtain ⟨hempty, hrun⟩ := h
  have hinitial : MetricInv minutes ⟨w, [], []⟩ := fun t _ => congrArg (since t) hempty
  have hok : Runs.Meets (Requests.step (MetricRequest.program minutes) tick)
      (metricRules minutes).StepOk (.initial w) events := by
    refine Runs.meets_of_forall (fun s e => ?_) _ events
    cases e with
    | start r => trivial
    | act i => exact fun _ _ _ _ => trivial
    | env now => trivial
  exact (Requests.Rules.run_inv metricRules_lawful (.initial hinitial) (fun r _ _ _ _ =>
    keeps_program r) hok hrun).inv

/-- **The overview** shows each node with the snapshots since `metricsSince` that were stored for it
since it was last removed: no cleanup of any pass has deleted one of them. Both queries are
answered; one that fails shows an error, or no snapshots. -/
theorem overview_run {w : MetricWorld} {events : List (Requests.Event MetricRequest ℤ)}
    {p : Requests.Pool MetricRequest MetricWorld Statement (Except String (List SyncResult))}
    (hrun : MetricRun minutes w events p) (agentNodeID : String) {agents : List NodeRow}
    {history : List AgentMetricSnapshot}
    (hagents : agents.Perm (agentRows agentNodeID p.world.nodes))
    (hhistory : history.Perm (historyRows minutes agentNodeID p.world.now p.world.snapshots)) :
    ∃ page, overview (.ok agents) (some history) = .ok page ∧ page.servers.map Prod.fst = agents ∧
      ∀ server ∈ page.servers, server.2.Perm ((recorded (p.history.map Prod.snd)).filter fun row =>
        metricsSince minutes p.world.now ≤ row.createdAt ∧ row.agentNodeId = server.1.id) := by
  refine ⟨_, rfl, ?_, ?_⟩
  · rw [List.map_map]
    exact List.map_id agents
  intro server hserver
  obtain ⟨a, ha, rfl⟩ := List.mem_map.1 hserver
  -- the id that the request asks for is that of the node
  have hid : agentNodeID = "" ∨ a.id = agentNodeID :=
    of_decide_eq_true (List.mem_filter.1 (hagents.mem_iff.1 ha)).2
  have hshown := hrun.inv (metricsSince minutes p.world.now) le_rfl
  rw [Option.getD_some, byNode_eq]
  refine (hhistory.filter _).trans (.of_eq ?_)
  calc
    (historyRows minutes agentNodeID p.world.now p.world.snapshots).filter
        (fun row => row.agentNodeId = a.id)
    _ = (since (metricsSince minutes p.world.now) p.world.snapshots).filter fun row =>
        row.agentNodeId = a.id := by
      rw [historyRows, since, List.filter_filter, List.filter_filter]
      refine List.filter_congr fun row _ => ?_
      by_cases hrow : row.agentNodeId = a.id
      · simp [hrow, hid]
      · simp [hrow]
    _ = (recorded (p.history.map Prod.snd)).filter fun row =>
        metricsSince minutes p.world.now ≤ row.createdAt ∧ row.agentNodeId = a.id := by
      rw [hshown, since, List.filter_filter]
      exact List.filter_congr fun row _ => by simp [and_comm]

end Runs

/-- A pass in which each agent answers three clients. -/
def threeClients : Poll where
  listError := none
  metrics _ := .ok (GoMap.ofList [("activeClients", .num (JsonNumber.ofInt 3))])
  unknownSet _ := true
  updateError _ := none
  stored _ := true
  cleaned _ := true

/-- Two nodes, before their first answers. -/
def twoNodes : MetricWorld where
  now := 1725274800000000000
  nodes :=
    [⟨"n1", "Office", "UNKNOWN", ⟨0, 0, 0, 0, 0, 0, 0, 0⟩, none⟩,
      ⟨"n2", "Store", "UNKNOWN", ⟨0, 0, 0, 0, 0, 0, 0, 0⟩, none⟩]
  snapshots := []

/-- A pass, and two hours later a second one, in which a node is removed between its update and its
snapshot. -/
def passesAndRemoval : List (Requests.Event MetricRequest ℤ) :=
  Requests.Event.start (MetricRequest.sync threeClients) ::
    List.replicate 11 (Requests.Event.act 0) ++ Requests.Event.env 1725282000000000000 ::
    Requests.Event.start (MetricRequest.sync threeClients) ::
    List.replicate 7 (Requests.Event.act 1) ++
    Requests.Event.start (MetricRequest.deleteNode "n2") :: Requests.Event.act 2 ::
    List.replicate 4 (Requests.Event.act 1)

theorem overview_run_passesAndRemoval :
    ∃ p page, MetricRun 60 twoNodes passesAndRemoval p ∧
      (recorded (p.history.map Prod.snd)).length = 2 ∧ p.world.snapshots.length = 1 ∧
      overview (.ok (agentRows "" p.world.nodes))
        (some (historyRows 60 "" p.world.now p.world.snapshots)) = .ok page ∧
      page.servers.map Prod.fst = agentRows "" p.world.nodes ∧
      ∀ server ∈ page.servers, server.2.Perm ((recorded (p.history.map Prod.snd)).filter fun row =>
        metricsSince 60 p.world.now ≤ row.createdAt ∧ row.agentNodeId = server.1.id) := by
  have hany : (Runs.run (Requests.step (MetricRequest.program 60) tick) (.initial twoNodes)
      passesAndRemoval).any (fun p => decide ((recorded (p.history.map Prod.snd)).length = 2 ∧
        p.world.snapshots.length = 1)) = true := by
    decide +kernel
  obtain ⟨p, hp, hlengths⟩ := (Option.any_eq_true _ _).1 hany
  obtain ⟨hrecorded, hkept⟩ := of_decide_eq_true hlengths
  have hrun : MetricRun 60 twoNodes passesAndRemoval p := ⟨rfl, hp⟩
  obtain ⟨page, hpage⟩ := overview_run hrun "" (.refl _) (.refl _)
  exact ⟨p, page, hrun, hrecorded, hkept, hpage⟩

end OpenvpnControl.Agent.MetricTable
