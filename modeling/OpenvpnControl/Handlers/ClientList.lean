import OpenvpnControl.Agent.SessionOverlap
import OpenvpnControl.Handlers.RemoteAddresses
import OpenvpnControl.Handlers.TrafficSamples
import OpenvpnControl.Library.Grouping

/-!
# The page of clients

The handler `List` of clients answers the open sessions that are stored, with the traffic of each,
and the clients that the agents report besides. The traffic samples come newest first, and are
grouped by a text that is made of the node and the session; the history of a session is reversed
where it is, in the map. An agent is asked only where the number of clients stored with its node is
positive, and a client that it reports is stored, with a sample, before it is added to the page.

## Main definitions

* `clientList`: the answer of the handler.
* `Lists`: what the page should have.

## Main results

* `client_page`: it has every session once, with the newest samples of the session in the order of
  time, and what it has is open in the table.
* `alone_supplementLiveClients`: the clients that are stored meanwhile are those that the page has
  besides.
-/

namespace OpenvpnControl.Handlers

open Agent (AgentNode ClientIpAssignment LiveClient PollEnv World)
open Timestamp (param)

variable {R : Type} [Zero R]

/-- The values of `config.Config` that the handler reads. -/
structure ClientsConfig where
  clientSessionFreshness : ℤ
  clientTrafficHistoryMinutes : ℤ

/-- A row of the answer. -/
structure ClientEntry (R : Type) where
  id : String
  commonName : String
  remoteIp : String
  virtualIp : String
  connectedAt : String
  nodeId : String
  inBps : R
  outBps : R
  trafficHistory : List (TrafficSample R)

/-- An entry of `traffic`. -/
structure SessionTraffic (R : Type) where
  latestIn : R
  latestOut : R
  hasLatest : Bool
  history : List (TrafficSample R)

/-! ### The handler -/

def historyTake (cfg : ClientsConfig) : ℕ :=
  let minutes := (cfg.clientTrafficHistoryMinutes * 30).bmod (2 ^ 64)
  (if 300 < minutes then 300 else if minutes < 1 then 1 else minutes).toNat

/-- `key`. -/
def trafficKey (nodeID sessID : String) : String := nodeID ++ ":" ++ sessID

/-- What a sample changes of an entry. -/
def SessionTraffic.add (take : ℕ) (e : SessionTraffic R) (s : TrafficSample R) :
    SessionTraffic R where
  latestIn := if e.hasLatest then e.latestIn else s.inBps
  latestOut := if e.hasLatest then e.latestOut else s.outBps
  hasLatest := true
  history := if e.history.length < take then e.history ++ [s] else e.history

/-- The entry that the map has for a missing key. -/
def SessionTraffic.none : SessionTraffic R := ⟨0, 0, false, []⟩

/-- The loop over the samples. -/
def collectTraffic (take : ℕ) (samples : List (TrafficSample R)) : String → SessionTraffic R :=
  Grouping.collect (fun s => trafficKey s.agentNodeId s.sessionId) (SessionTraffic.add take)
    (fun _ => .none) samples

/-- The history is reversed in the array that the entry and every row of its key share. -/
def SessionTraffic.reverse (e : SessionTraffic R) : SessionTraffic R :=
  { e with history := e.history.reverse }

/-- The map after the loop over the sessions. -/
def reversedTraffic (traffic : String → SessionTraffic R) (rows : List ClientIpAssignment) :
    String → SessionTraffic R :=
  Grouping.collect (fun r : ClientIpAssignment => trafficKey r.agentNodeId r.sessionId)
    (fun e _ => e.reverse) traffic rows

/-- A row of the answer for a session that is stored. -/
def storedEntry (traffic : String → SessionTraffic R) (r : ClientIpAssignment) : ClientEntry R :=
  let tr := traffic (trafficKey r.agentNodeId r.sessionId)
  ⟨r.sessionId, r.commonName, remoteHost r.realIp, r.virtualIp, r.connectedAt,
    r.agentNodeId, tr.latestIn, tr.latestOut, tr.history⟩

/-- The rows of the answer for the sessions that are stored. -/
def storedEntries (cfg : ClientsConfig) (rows : List ClientIpAssignment)
    (samples : List (TrafficSample R)) :
    List (ClientEntry R) :=
  rows.map (storedEntry (reversedTraffic (collectTraffic (historyTake cfg) samples) rows))

/-- The key of a session in `seen`. -/
def seenKey (nodeID sid : String) : String := nodeID ++ "\t" ++ sid

/-- `seen`, when the first node is asked. -/
def seenKeys (page : List (ClientEntry R)) : List String :=
  (page.filter fun e => e.nodeId ≠ "" ∧ e.id ≠ "").map fun e => seenKey e.nodeId e.id

/-- What the agents of the nodes with clients answer, one after the other. An error is no client. -/
def reportedClients (w : World) : List LiveClient :=
  (w.nodes.filter fun n => 0 < n.activeClients).flatMap fun n =>
    ((w.answer n.id).getD []).map fun c => ⟨c, n.id, w.clock⟩

/-- The clients that the loops of `supplementLiveClients` add to the answer. -/
def addedClients : List String → List LiveClient → List LiveClient
  | _, [] => []
  | seen, c :: live =>
    if c.nodeId = "" ∨ c.id = "" then addedClients seen live
    else if seenKey c.nodeId c.id ∈ seen then addedClients seen live
    else c :: addedClients (seenKey c.nodeId c.id :: seen) live

/-- A row of the answer for a client that an agent reports. -/
def liveEntry (rates : R × R) (c : LiveClient) : ClientEntry R :=
  ⟨c.id, c.commonName, remoteHost c.remoteIp, c.virtualIp, c.connectedAt,
    c.nodeId, rates.1, rates.2, []⟩

/-- The rows of the answer for the clients that are added. Each is stored before its rates are
read. -/
def liveEntries (x : TrafficEnv R) (now : ℤ) : List (TrafficSample R) →
    List LiveClient → List (ClientEntry R)
  | _, [] => []
  | table, c :: live =>
    let table := x.store now table c
    liveEntry (x.latestSessionTrafficBps table c.nodeId c.id) c :: liveEntries x now table live

/-- The handler `List`, where `rows` and `samples` are the answers to its queries, and `table` has
the samples that are stored. -/
def clientList (x : TrafficEnv R) (cfg : ClientsConfig) (w : World) (table : List (TrafficSample R))
    (rows : List ClientIpAssignment) (samples : List (TrafficSample R)) : List (ClientEntry R) :=
  let page := storedEntries cfg rows samples
  page ++ liveEntries x w.clock table (addedClients (seenKeys page) (reportedClients w))

/-! ### What the page should have -/

/-- The time from which on sessions and samples are read. -/
def cutoff (cfg : ClientsConfig) (w : World) : ℤ := w.clock - cfg.clientSessionFreshness

/-- The rows that the query of sessions selects. -/
def openRows (cfg : ClientsConfig) (w : World) : List ClientIpAssignment :=
  w.assignments.filter fun r => r.endedAt = none ∧ param (cutoff cfg w) ≤ r.lastSeenAt

/-- The session is stored, open, and was seen lately. -/
def IsOpen (cfg : ClientsConfig) (w : World) (nodeID sessID : String) : Prop :=
  ∃ r ∈ openRows cfg w, r.agentNodeId = nodeID ∧ r.sessionId = sessID

/-- The agent of a node with clients reports the session. -/
def IsReported (w : World) (nodeID sessID : String) : Prop :=
  sessID ≠ "" ∧ ∃ n ∈ w.nodes, n.id = nodeID ∧ 0 < n.activeClients ∧
    ∃ clients, w.answer nodeID = some clients ∧ ∃ c ∈ clients, c.id = sessID

/-- The samples that are as recent as an open session is. -/
def recentSamples (cfg : ClientsConfig) (w : World) (table : List (TrafficSample R)) :
    List (TrafficSample R) :=
  table.filter fun s => param (cutoff cfg w) ≤ s.sampledAt

/-- The rates of a row. -/
def ClientEntry.rates (e : ClientEntry R) : R × R := (e.inBps, e.outBps)

/-- **The page of clients**: each session that is open or reported, once. A session that is open has
the rates of its newest sample, and its newest samples in the order of time, as far as they are
answered; one that is only reported has the rates of its newest sample when it is stored. -/
structure Lists (x : TrafficEnv R) (cfg : ClientsConfig) (w : World)
    (table samples : List (TrafficSample R)) (page : List (ClientEntry R)) : Prop where
  once : (page.map fun e => (e.nodeId, e.id)).Nodup
  complete : ∀ nodeID sessID, (∃ e ∈ page, e.nodeId = nodeID ∧ e.id = sessID) ↔
    IsOpen cfg w nodeID sessID ∨ IsReported w nodeID sessID
  rates : ∀ e ∈ page, IsOpen cfg w e.nodeId e.id →
    (samplesOf e.nodeId e.id samples ≠ [] →
      Newest (samplesOf e.nodeId e.id (recentSamples cfg w table)) e.rates) ∧
    (samplesOf e.nodeId e.id samples = [] → e.rates = (0, 0))
  history : ∀ e ∈ page, IsOpen cfg w e.nodeId e.id →
    e.trafficHistory = ((samplesOf e.nodeId e.id samples).take (historyTake cfg)).reverse ∧
    (e.trafficHistory.Pairwise fun s t => s.sampledAt ≤ t.sampledAt) ∧
    ∀ t ∈ samplesOf e.nodeId e.id (recentSamples cfg w table), t ∉ e.trafficHistory →
      ∀ s ∈ e.trafficHistory, t.sampledAt ≤ s.sampledAt
  live : ∀ e ∈ page, ¬IsOpen cfg w e.nodeId e.id → e.trafficHistory = [] ∧
    ∃ c ∈ reportedClients w, c.nodeId = e.nodeId ∧ c.id = e.id ∧
      (x.fails (.latest e.nodeId e.id) = false ∧
          samplesOf e.nodeId e.id (x.store w.clock table c) ≠ [] →
        Newest (samplesOf e.nodeId e.id (x.store w.clock table c)) e.rates) ∧
      (x.fails (.latest e.nodeId e.id) = true ∨
          samplesOf e.nodeId e.id (x.store w.clock table c) = [] →
        e.rates = (0, 0))

/-- The ids of nodes have no separator of the keys. -/
structure PlainNodes (w : World) : Prop where
  ne_empty : ∀ n ∈ w.nodes, n.id ≠ ""
  colon : ∀ n ∈ w.nodes, ':' ∉ n.id.toList
  tab : ∀ n ∈ w.nodes, '\t' ∉ n.id.toList

/-- The references of the tables, which the database keeps. -/
structure NodesExist (w : World) (table : List (TrafficSample R)) : Prop where
  assignments : ∀ r ∈ w.assignments, ∃ n ∈ w.nodes, n.id = r.agentNodeId
  samples : ∀ s ∈ table, ∃ n ∈ w.nodes, n.id = s.agentNodeId

/-- The answers to the queries: the open sessions in some order, and the newest samples. -/
structure Queried (x : TrafficEnv R) (cfg : ClientsConfig) (w : World)
    (table : List (TrafficSample R)) (rows : List ClientIpAssignment)
    (samples : List (TrafficSample R)) : Prop where
  rows : rows.Perm (openRows cfg w)
  samples : SamplesAnswer x (cutoff cfg w) table samples

/-! ### Keys -/

theorem trafficKey_inj {a b c d : String} (ha : ':' ∉ a.toList) (hc : ':' ∉ c.toList) :
    trafficKey a b = trafficKey c d ↔ a = c ∧ b = d := by
  constructor
  · intro h
    have hlists := congrArg String.toList h
    simp only [trafficKey, String.toList_append, List.append_assoc] at hlists
    obtain ⟨hac, hbd⟩ := GoStrings.append_cons_inj ha hc hlists
    exact ⟨String.toList_inj.1 hac, String.toList_inj.1 hbd⟩
  · rintro ⟨rfl, rfl⟩
    rfl

theorem seenKey_inj {a b c d : String} (ha : '\t' ∉ a.toList) (hc : '\t' ∉ c.toList) :
    seenKey a b = seenKey c d ↔ a = c ∧ b = d := by
  constructor
  · intro h
    have hlists := congrArg String.toList h
    simp only [seenKey, String.toList_append, List.append_assoc] at hlists
    obtain ⟨hac, hbd⟩ := GoStrings.append_cons_inj ha hc hlists
    exact ⟨String.toList_inj.1 hac, String.toList_inj.1 hbd⟩
  · rintro ⟨rfl, rfl⟩
    rfl

variable {x : TrafficEnv R} {cfg : ClientsConfig} {w : World} {rows : List ClientIpAssignment}
  {table samples : List (TrafficSample R)} {take : ℕ}

/-! ### The traffic of a session -/

/-- The entry of a session with some samples. -/
def SessionTraffic.of (take : ℕ) (l : List (TrafficSample R)) : SessionTraffic R :=
  ⟨(l.head?.map (·.inBps)).getD 0, (l.head?.map (·.outBps)).getD 0, !l.isEmpty, l.take take⟩

theorem SessionTraffic.of_append_singleton (l : List (TrafficSample R)) (s : TrafficSample R) :
    SessionTraffic.of take (l ++ [s]) = (SessionTraffic.of take l).add take s := by
  have hhistory : (l ++ [s]).take take = if (l.take take).length < take then l.take take ++ [s]
      else l.take take := by
    by_cases h : l.length < take
    · rw [List.take_of_length_le (by simp; omega), List.take_of_length_le (by omega), if_pos h]
    · rw [List.take_append_of_le_length (by omega), if_neg (by simp; omega)]
  cases l with
  | nil => simpa [SessionTraffic.of, SessionTraffic.add] using hhistory
  | cons t l => simpa [SessionTraffic.of, SessionTraffic.add] using hhistory

theorem foldl_add (l : List (TrafficSample R)) :
    l.foldl (SessionTraffic.add take) .none = SessionTraffic.of take l := by
  induction l using List.reverseRecOn with
  | nil => simp [SessionTraffic.of, SessionTraffic.none]
  | append_singleton l s ih => rw [List.foldl_append, ih, SessionTraffic.of_append_singleton]; rfl

/-- **The entry of a session** has its samples, when the ids of nodes have no colon. -/
theorem collectTraffic_apply {nodeID sessID : String} (hnode : ':' ∉ nodeID.toList)
    (hsamples : ∀ s ∈ samples, ':' ∉ s.agentNodeId.toList) :
    collectTraffic take samples (trafficKey nodeID sessID) =
      SessionTraffic.of take (samplesOf nodeID sessID samples) := by
  have hfilter : (samples.filter fun s => trafficKey s.agentNodeId s.sessionId =
      trafficKey nodeID sessID) = samplesOf nodeID sessID samples :=
    List.filter_congr fun s hs => by
      rw [decide_eq_decide]
      exact trafficKey_inj (hsamples s hs) hnode
  rw [collectTraffic, Grouping.collect_apply, hfilter, foldl_add]

omit [Zero R] in
/-- The history of each row is reversed once. -/
theorem reversedTraffic_apply (traffic : String → SessionTraffic R)
    (hrows : (rows.map fun r => trafficKey r.agentNodeId r.sessionId).Nodup)
    {r : ClientIpAssignment} (hr : r ∈ rows) :
    reversedTraffic traffic rows (trafficKey r.agentNodeId r.sessionId) =
      (traffic (trafficKey r.agentNodeId r.sessionId)).reverse :=
  Grouping.collect_of_nodup hrows hr

/-! ### The clients that are added -/

/-- The keys of the clients that are added are new, and each is added once. -/
theorem addedClients_keys (seen : List String) (live : List LiveClient) :
    ((addedClients seen live).map fun c => seenKey c.nodeId c.id).Nodup ∧
      ∀ c ∈ addedClients seen live, c ∈ live ∧ c.Stored ∧ seenKey c.nodeId c.id ∉ seen := by
  induction live generalizing seen with
  | nil => exact ⟨List.nodup_nil, nofun⟩
  | cons c live ih =>
    rw [addedClients]
    split_ifs with hempty hseen
    · exact ⟨(ih seen).1, fun d hd => ⟨List.mem_cons_of_mem _ ((ih seen).2 d hd).1,
        ((ih seen).2 d hd).2⟩⟩
    · exact ⟨(ih seen).1, fun d hd => ⟨List.mem_cons_of_mem _ ((ih seen).2 d hd).1,
        ((ih seen).2 d hd).2⟩⟩
    · obtain ⟨hnodup, hall⟩ := ih (seenKey c.nodeId c.id :: seen)
      constructor
      · rw [List.map_cons, List.nodup_cons]
        refine ⟨fun hmem => ?_, hnodup⟩
        obtain ⟨d, hd, hkey⟩ := List.mem_map.1 hmem
        exact (hall d hd).2.2 (hkey ▸ List.mem_cons_self)
      · intro d hd
        rcases List.mem_cons.1 hd with rfl | hd
        · exact ⟨List.mem_cons_self, not_or.1 hempty, hseen⟩
        · obtain ⟨hlive, hstored, hnew⟩ := hall d hd
          exact ⟨List.mem_cons_of_mem _ hlive, hstored, fun h => hnew (List.mem_cons_of_mem _ h)⟩

/-- No client is left out that is not seen. -/
theorem exists_mem_addedClients {seen : List String} {live : List LiveClient} {c : LiveClient}
    (hc : c ∈ live) (hstored : c.Stored) (hnew : seenKey c.nodeId c.id ∉ seen) :
    ∃ d ∈ addedClients seen live, seenKey d.nodeId d.id = seenKey c.nodeId c.id := by
  induction live generalizing seen with
  | nil => cases hc
  | cons d live ih =>
    rw [addedClients]
    split_ifs with hempty hseen
    · rcases List.mem_cons.1 hc with rfl | hc
      · exact absurd hempty (not_or.2 hstored)
      · exact ih hc hnew
    · rcases List.mem_cons.1 hc with rfl | hc
      · exact absurd hseen hnew
      · exact ih hc hnew
    · by_cases hkey : seenKey d.nodeId d.id = seenKey c.nodeId c.id
      · exact ⟨d, List.mem_cons_self, hkey⟩
      · rcases List.mem_cons.1 hc with rfl | hc
        · exact absurd rfl hkey
        · have hnew' : seenKey c.nodeId c.id ∉ seenKey d.nodeId d.id :: seen := by
            rw [List.mem_cons, not_or]
            exact ⟨Ne.symm hkey, hnew⟩
          obtain ⟨e, he, hekey⟩ := ih hc hnew'
          exact ⟨e, List.mem_cons_of_mem _ he, hekey⟩

/-- A client that is reported is one of a node with clients. -/
theorem mem_reportedClients {c : LiveClient} (hc : c ∈ reportedClients w) :
    ∃ n ∈ w.nodes, n.id = c.nodeId ∧ 0 < n.activeClients ∧
      ∃ clients, w.answer c.nodeId = some clients ∧ c.toVpnClient ∈ clients := by
  obtain ⟨n, hn, hc⟩ := List.mem_flatMap.1 hc
  obtain ⟨hmem, hactive⟩ := List.mem_filter.1 hn
  obtain ⟨d, hd, rfl⟩ := List.mem_map.1 hc
  cases hanswer : w.answer n.id with
  | none =>
    rw [hanswer] at hd
    cases hd
  | some clients =>
    rw [hanswer] at hd
    exact ⟨n, hmem, rfl, of_decide_eq_true hactive, clients, rfl, hd⟩

theorem isReported_iff {nodeID sessID : String} :
    IsReported w nodeID sessID ↔ sessID ≠ "" ∧ ∃ c ∈ reportedClients w,
    c.nodeId = nodeID ∧ c.id = sessID := by
  refine and_congr_right fun _ => ⟨?_, ?_⟩
  · rintro ⟨n, hn, rfl, hactive, clients, hanswer, c, hc, rfl⟩
    refine ⟨⟨c, n.id, w.clock⟩, List.mem_flatMap.2 ⟨n, List.mem_filter.2 ⟨hn,
      decide_eq_true hactive⟩, ?_⟩, rfl, rfl⟩
    rw [hanswer]
    exact List.mem_map_of_mem hc
  · rintro ⟨c, hc, rfl, rfl⟩
    obtain ⟨n, hn, hid, hactive, clients, hanswer, hmem⟩ := mem_reportedClients hc
    exact ⟨n, hn, hid, hactive, clients, hanswer, c.toVpnClient, hmem, rfl⟩

/-! ### The page -/

section Page

variable (hkeyed : w.Keyed) (hplain : PlainNodes w) (hnodes : NodesExist w table)
  (hqueried : Queried x cfg w table rows samples)

theorem mem_storedEntries {e : ClientEntry R} :
    e ∈ storedEntries cfg rows samples ↔
      ∃ r ∈ rows, storedEntry (reversedTraffic (collectTraffic (historyTake cfg) samples) rows) r =
      e :=
  List.mem_map

omit [Zero R] in
include hnodes hqueried in
/-- The node of a row exists. -/
theorem exists_node {r : ClientIpAssignment} (hr : r ∈ rows) :
    ∃ n ∈ w.nodes, n.id = r.agentNodeId :=
  hnodes.assignments r (List.mem_filter.1 (hqueried.rows.subset hr)).1

omit [Zero R] in
include hkeyed hqueried in
theorem nodup_keys : (rows.map (·.key)).Nodup :=
  ((hqueried.rows.map _).nodup_iff).2 (hkeyed.assignments.sublist (List.filter_sublist.map _))

omit [Zero R] in
include hkeyed hplain hnodes hqueried in
/-- The rows have different keys in the map. -/
theorem nodup_trafficKeys : (rows.map fun r => trafficKey r.agentNodeId r.sessionId).Nodup := by
  have hnodup := nodup_keys hkeyed hqueried
  refine List.Nodup.map_on (fun r hr r' hr' hkey => ?_) (List.Nodup.of_map _ hnodup)
  obtain ⟨n, hn, hid⟩ := exists_node hnodes hqueried hr
  obtain ⟨n', hn', hid'⟩ := exists_node hnodes hqueried hr'
  have hpair := (trafficKey_inj (hid ▸ hplain.colon n hn) (hid' ▸ hplain.colon n' hn')).1 hkey
  exact List.inj_on_of_nodup_map hnodup hr hr' (Prod.ext hpair.1 hpair.2)

include hkeyed hplain hnodes hqueried in
/-- **A row of a session that is stored** has the samples of the session. -/
theorem storedEntry_traffic {r : ClientIpAssignment} (hr : r ∈ rows) :
    reversedTraffic (collectTraffic take samples) rows (trafficKey r.agentNodeId r.sessionId) =
      (SessionTraffic.of take (samplesOf r.agentNodeId r.sessionId samples)).reverse := by
  obtain ⟨n, hn, hid⟩ := exists_node hnodes hqueried hr
  rw [reversedTraffic_apply _ (nodup_trafficKeys hkeyed hplain hnodes hqueried) hr,
    collectTraffic_apply]
  · exact hid ▸ hplain.colon n hn
  · intro s hs
    obtain ⟨m, hm, hmid⟩ := hnodes.samples s (hqueried.samples.mem hs).1
    exact hmid ▸ hplain.colon m hm

omit [Zero R] in
include hqueried in
theorem isOpen_iff {nodeID sessID : String} :
    IsOpen cfg w nodeID sessID ↔ ∃ r ∈ rows, r.agentNodeId = nodeID ∧ r.sessionId = sessID :=
  exists_congr fun _ => and_congr_left fun _ => hqueried.rows.mem_iff.symm

include hplain hnodes hqueried in
/-- The keys that are seen are those of open sessions. -/
theorem mem_seenKeys_iff {nodeID sessID : String} (hnode : ∃ n ∈ w.nodes, n.id = nodeID)
    (hsess : sessID ≠ "") :
    seenKey nodeID sessID ∈ seenKeys (storedEntries cfg rows samples) ↔
    IsOpen cfg w nodeID sessID := by
  obtain ⟨n, hn, rfl⟩ := hnode
  rw [isOpen_iff hqueried, seenKeys, List.mem_map]
  constructor
  · rintro ⟨e, he, hkey⟩
    obtain ⟨r, hr, rfl⟩ := mem_storedEntries.1 (List.mem_filter.1 he).1
    obtain ⟨m, hm, hmid⟩ := exists_node hnodes hqueried hr
    exact ⟨r, hr, (seenKey_inj (hmid ▸ hplain.tab m hm) (hplain.tab n hn)).1 hkey⟩
  · rintro ⟨r, hr, hnode, rfl⟩
    refine ⟨_, List.mem_filter.2 ⟨mem_storedEntries.2 ⟨r, hr, rfl⟩, decide_eq_true ⟨?_, hsess⟩⟩, ?_⟩
    · exact fun hempty => hplain.ne_empty n hn (hnode.symm.trans hempty)
    · rw [← hnode]
      rfl

include hplain hnodes hqueried in
/-- A client that is added is reported, and its session is not open. -/
theorem of_mem_addedClients {c : LiveClient}
    (hc : c ∈ addedClients (seenKeys (storedEntries cfg rows samples)) (reportedClients w)) :
    IsReported w c.nodeId c.id ∧ ¬IsOpen cfg w c.nodeId c.id := by
  obtain ⟨hlive, hstored, hnew⟩ := (addedClients_keys _ _).2 c hc
  obtain ⟨n, hn, hid, -⟩ := mem_reportedClients hlive
  exact ⟨isReported_iff.2 ⟨hstored.2, c, hlive, rfl, rfl⟩, fun hopen =>
    hnew ((mem_seenKeys_iff hplain hnodes hqueried ⟨n, hn, hid⟩ hstored.2).2 hopen)⟩

/-- The sessions of the rows are those of the clients that are added. -/
theorem keys_liveEntries (now : ℤ) (table : List (TrafficSample R)) (live : List LiveClient) :
    (liveEntries x now table live).map (fun e => (e.nodeId, e.id)) =
      live.map fun c => (c.nodeId, c.id) := by
  induction live generalizing table with
  | nil => rfl
  | cons c live ih =>
    rw [liveEntries, List.map_cons, List.map_cons, ih]
    rfl

/-- **A row of a client that is added** has the rates of its session when this client alone is
stored. -/
theorem mem_liveEntries {now : ℤ} {live : List LiveClient}
    (hlive : (live.map fun c => (c.nodeId, c.id)).Nodup) {e : ClientEntry R}
    (he : e ∈ liveEntries x now table live) :
    ∃ c ∈ live,
    e = liveEntry (x.latestSessionTrafficBps (x.store now table c) c.nodeId c.id) c := by
  induction live generalizing table with
  | nil => cases he
  | cons c live ih =>
    rw [List.map_cons, List.nodup_cons] at hlive
    rcases List.mem_cons.1 he with rfl | he
    · exact ⟨c, List.mem_cons_self, rfl⟩
    · obtain ⟨d, hd, rfl⟩ := ih hlive.2 he
      refine ⟨d, List.mem_cons_of_mem _ hd, ?_⟩
      -- the sample of `c` is one of another session
      have hother : ¬(c.nodeId = d.nodeId ∧ c.id = d.id) := by
        rintro ⟨hnode, hid⟩
        exact hlive.1 (List.mem_map.2 ⟨d, hd, Prod.ext hnode.symm hid.symm⟩)
      have hsame : samplesOf d.nodeId d.id (x.store now table c) =
          samplesOf d.nodeId d.id table := by
        rw [TrafficEnv.samplesOf_store, if_neg fun h => hother h.1, List.append_nil]
      rw [TrafficEnv.latestSessionTrafficBps_store_congr d hsame]

include hkeyed hplain hnodes hqueried in
/-- **The page of clients** has every session once, with its own samples. -/
theorem clientList_lists : Lists x cfg w table samples (clientList x cfg w table rows samples) := by
  have hstored : ∀ e ∈ storedEntries cfg rows samples, IsOpen cfg w e.nodeId e.id := by
    intro e he
    obtain ⟨r, hr, rfl⟩ := mem_storedEntries.1 he
    exact (isOpen_iff hqueried).2 ⟨r, hr, rfl, rfl⟩
  have hnodup : ((addedClients (seenKeys (storedEntries cfg rows samples)) (reportedClients w)).map
      fun c => (c.nodeId, c.id)).Nodup := by
    refine List.Nodup.of_map (fun k => seenKey k.1 k.2) ?_
    rw [List.map_map]
    exact (addedClients_keys _ _).1
  have hadded : ∀ e ∈ liveEntries x w.clock table
      (addedClients (seenKeys (storedEntries cfg rows samples)) (reportedClients w)),
      IsReported w e.nodeId e.id ∧ ¬IsOpen cfg w e.nodeId e.id := by
    intro e he
    obtain ⟨c, hc, rfl⟩ := mem_liveEntries hnodup he
    exact of_mem_addedClients hplain hnodes hqueried hc
  constructor
  · rw [clientList, List.map_append, List.nodup_append]
    refine ⟨?_, ?_, ?_⟩
    · rw [storedEntries, List.map_map]
      exact nodup_keys hkeyed hqueried
    · rw [keys_liveEntries]
      exact hnodup
    · rintro k hk k' hk' rfl
      obtain ⟨e, he, rfl⟩ := List.mem_map.1 hk
      obtain ⟨e', he', hpair⟩ := List.mem_map.1 hk'
      obtain ⟨hnode, hid⟩ := Prod.mk.inj hpair
      exact (hadded e' he').2 (hnode ▸ hid ▸ hstored e he)
  · intro nodeID sessID
    rw [clientList]
    constructor
    · rintro ⟨e, he, rfl, rfl⟩
      rcases List.mem_append.1 he with he | he
      · exact Or.inl (hstored e he)
      · exact Or.inr (hadded e he).1
    · rintro hsession
      by_cases hopen : IsOpen cfg w nodeID sessID
      · obtain ⟨r, hr, rfl, rfl⟩ := (isOpen_iff hqueried).1 hopen
        exact ⟨_, List.mem_append_left _ (mem_storedEntries.2 ⟨r, hr, rfl⟩), rfl, rfl⟩
      · obtain ⟨hne, c, hc, rfl, rfl⟩ := isReported_iff.1 (hsession.resolve_left hopen)
        obtain ⟨n, hn, hid, -⟩ := mem_reportedClients hc
        obtain ⟨d, hd, hkey⟩ := exists_mem_addedClients hc ⟨hid ▸ hplain.ne_empty n hn, hne⟩
          (mt (mem_seenKeys_iff hplain hnodes hqueried ⟨n, hn, hid⟩ hne).1 hopen)
        obtain ⟨m, hm, hmid, -⟩ := mem_reportedClients ((addedClients_keys _ _).2 d hd).1
        have htabs : '\t' ∉ d.nodeId.toList ∧ '\t' ∉ c.nodeId.toList :=
          ⟨hmid ▸ hplain.tab m hm, hid ▸ hplain.tab n hn⟩
        have hd' : (d.nodeId, d.id) ∈ (liveEntries x w.clock table
            (addedClients (seenKeys (storedEntries cfg rows samples)) (reportedClients w))).map
              fun e => (e.nodeId, e.id) := by
          rw [keys_liveEntries]
          exact List.mem_map_of_mem hd
        obtain ⟨e, he, hpair⟩ := List.mem_map.1 hd'
        obtain ⟨hnode, hsess⟩ := Prod.mk.inj hpair
        obtain ⟨hdnode, hdsess⟩ := (seenKey_inj htabs.1 htabs.2).1 hkey
        exact ⟨e, List.mem_append_right _ he, hnode.trans hdnode, hsess.trans hdsess⟩
  · intro e he hopen
    rcases List.mem_append.1 he with he | he
    · obtain ⟨r, hr, rfl⟩ := mem_storedEntries.1 he
      have hrates : (storedEntry
          (reversedTraffic (collectTraffic (historyTake cfg) samples) rows) r).rates =
          ((samplesOf r.agentNodeId r.sessionId samples).head?.map fun s =>
            (s.inBps, s.outBps)).getD
            (0, 0) := by
        simp only [ClientEntry.rates, storedEntry,
          storedEntry_traffic hkeyed hplain hnodes hqueried hr,
          SessionTraffic.reverse, SessionTraffic.of]
        cases (samplesOf r.agentNodeId r.sessionId samples).head? <;> rfl
      change (samplesOf r.agentNodeId r.sessionId samples ≠ [] →
        Newest (samplesOf r.agentNodeId r.sessionId (recentSamples cfg w table)) _) ∧
          (samplesOf r.agentNodeId r.sessionId samples = [] → _)
      rw [hrates]
      refine ⟨fun hne => ?_, fun hnil => ?_⟩
      · obtain ⟨s, hs⟩ := Option.isSome_iff_exists.1 (List.isSome_head?.2 hne)
        have hnewest := hqueried.samples.newest_head hs
        rw [hs]
        exact hnewest
      · rw [hnil]
        rfl
    · exact absurd hopen (hadded e he).2
  · intro e he hopen
    rcases List.mem_append.1 he with he | he
    · obtain ⟨r, hr, rfl⟩ := mem_storedEntries.1 he
      have hhistory : (storedEntry (reversedTraffic (collectTraffic (historyTake cfg) samples) rows)
          r).trafficHistory =
          ((samplesOf r.agentNodeId r.sessionId samples).take (historyTake cfg)).reverse := by
        rw [storedEntry, storedEntry_traffic hkeyed hplain hnodes hqueried hr]
        rfl
      refine ⟨hhistory, ?_, fun t ht hout s hs => ?_⟩
      · rw [hhistory, List.pairwise_reverse]
        exact hqueried.samples.newestFirst.sublist
          ((List.take_sublist _ _).trans List.filter_sublist)
      · rw [hhistory, List.mem_reverse] at hout hs
        exact hqueried.samples.le_of_mem_take hs ht hout
    · exact absurd hopen (hadded e he).2
  · intro e he hopen
    rcases List.mem_append.1 he with he | he
    · exact absurd (hstored e he) hopen
    · obtain ⟨c, hc, rfl⟩ := mem_liveEntries hnodup he
      obtain ⟨hlive, hcstored, -⟩ := (addedClients_keys _ _).2 c hc
      have hrates := @TrafficEnv.newest_latestSessionTrafficBps R _ x
        (x.store w.clock table c) c.nodeId c.id hcstored.1 hcstored.2
      exact ⟨rfl, c, hlive, rfl, rfl, hrates⟩

end Page

/-! ### The clients that are stored -/

variable {y : PollEnv} {now : ℤ}

open Agent
  (clientsList supplementClients supplementLiveClients supplementNodes upsertClientFromAgent)

theorem addedClients_append (seen : List String) (live live' : List LiveClient) :
    addedClients seen (live ++ live') = addedClients seen live ++
      addedClients (((addedClients seen live).map fun c => seenKey c.nodeId c.id).reverse ++
      seen) live' := by
  induction live generalizing seen with
  | nil => rfl
  | cons c live ih =>
    rw [List.cons_append, addedClients, addedClients]
    split_ifs with hempty hseen
    · exact ih seen
    · exact ih seen
    · rw [ih, List.map_cons, List.reverse_cons, List.append_assoc,
        List.cons_append, List.singleton_append]

theorem alone_supplementClients (live : List LiveClient) (seen : List String) (w : World) :
    (supplementClients y now live seen).alone w =
      (w.upsertClients y now (addedClients seen live),
        ((addedClients seen live).map fun c => seenKey c.nodeId c.id).reverse ++ seen) := by
  induction live generalizing seen w with
  | nil => rfl
  | cons c live ih =>
    by_cases hempty : c.nodeId = "" ∨ c.id = ""
    · rw [supplementClients, if_pos hempty, addedClients, if_pos hempty]
      exact ih seen w
    rw [supplementClients, if_neg hempty, addedClients, if_neg hempty]
    by_cases hseen : seenKey c.nodeId c.id ∈ seen
    · rw [if_pos hseen, if_pos (show c.nodeId ++ "\t" ++ c.id ∈ seen from hseen)]
      exact ih seen w
    · rw [if_neg hseen, if_neg (show c.nodeId ++ "\t" ++ c.id ∉ seen from hseen),
        Request.alone_bind, Agent.alone_upsertClientFromAgent]
      refine (ih (seenKey c.nodeId c.id :: seen) _).trans ?_
      rw [List.map_cons, List.reverse_cons, List.append_assoc, List.singleton_append]
      rfl

/-- Storing a client leaves the agents alone. -/
theorem answer_upsertClients (clients : List LiveClient) (w : World) :
    (w.upsertClients y now clients).answer = w.answer := by
  rw [World.upsertClients]
  induction clients generalizing w with
  | nil => rfl
  | cons c clients ih =>
    rw [List.foldl_cons, ih, World.upsertClient]
    split_ifs <;> rfl

theorem upsertClients_append (clients clients' : List LiveClient) (w : World) :
    w.upsertClients y now (clients ++ clients') =
    (w.upsertClients y now clients).upsertClients y now clients' :=
  List.foldl_append

theorem alone_supplementNodes (nodes : List AgentNode) (seen : List String) (w : World) :
    (supplementNodes y now nodes seen).alone w =
      (w.upsertClients y now (addedClients seen (nodes.flatMap fun n =>
        ((w.answer n.id).getD []).map fun c => ⟨c, n.id, w.clock⟩)), ()) := by
  induction nodes generalizing seen w with
  | nil => rfl
  | cons n nodes ih =>
    have hlist : (clientsList n.id).alone w =
        (w, (w.answer n.id).map fun clients => clients.map fun c => ⟨c, n.id, w.clock⟩) := rfl
    have hfixes : w.Fixes (w.upsertClients y now (addedClients seen
        (((w.answer n.id).map fun clients => clients.map fun c => ⟨c, n.id, w.clock⟩).getD []))) :=
      World.fixes_foldl World.fixes_upsertClient _ w
    have hget : ((w.answer n.id).map fun clients => clients.map fun c =>
        (⟨c, n.id, w.clock⟩ : LiveClient)).getD [] =
        ((w.answer n.id).getD []).map fun c => ⟨c, n.id, w.clock⟩ := by
      cases w.answer n.id <;> rfl
    rw [supplementNodes, Request.alone_bind, hlist, Request.alone_bind, alone_supplementClients, ih,
      answer_upsertClients, hfixes.clock, hget, List.flatMap_cons,
      addedClients_append, upsertClients_append]

/-- **The clients that are stored meanwhile** are those that the page has besides. -/
theorem alone_supplementLiveClients (seen : List String) (w : World) :
    (supplementLiveClients y seen).alone w =
      (w.upsertClients y w.clock (addedClients seen (reportedClients w)), ()) := by
  rw [supplementLiveClients, Request.alone_bind, Agent.alone_query,
    Request.alone_bind, Agent.alone_query, alone_supplementNodes]
  rfl

/-- A session after a client is stored. -/
theorem session_upsertClient (d : LiveClient) (w : World) (nodeID sessID : String) :
    (w.upsertClient y now d).session nodeID sessID =
      if d.Stored ∧ nodeID = d.nodeId ∧ sessID = d.id then
        some (((w.session nodeID sessID).map (Agent.touchAssignment now d)).getD
        (Agent.newAssignment now d))
      else w.session nodeID sessID := by
  rw [World.upsertClient]
  by_cases hstored : d.Stored
  · rw [if_pos hstored]
    refine (@Rows.byKey_upsert _ _ _ ClientIpAssignment.key (Agent.newAssignment now d)
      (Agent.touchAssignment now d) w.assignments (fun _ => rfl) (nodeID, sessID)).trans ?_
    have hkey : (nodeID, sessID) = (Agent.newAssignment now d).key ↔ d.Stored ∧
        nodeID = d.nodeId ∧ sessID = d.id := by
      rw [Agent.newAssignment, ClientIpAssignment.key, Prod.mk.injEq]
      exact ⟨fun h => ⟨hstored, h⟩, fun h => h.2⟩
    exact if_congr hkey rfl rfl
  · rw [if_neg hstored, if_neg fun h => hstored h.1]

/-- A session that is open, or one of whose clients is stored, is open when the clients are
stored. -/
theorem session_open_upsertClients {nodeID sessID : String} (clients : List LiveClient) (w : World)
    (h : (∃ r, w.session nodeID sessID = some r ∧ r.endedAt = none) ∨
      ∃ c ∈ clients, c.Stored ∧ nodeID = c.nodeId ∧ sessID = c.id) :
    ∃ r, (w.upsertClients y now clients).session nodeID sessID = some r ∧ r.endedAt = none := by
  induction clients generalizing w with
  | nil => exact h.resolve_right nofun
  | cons d clients ih =>
    rw [World.upsertClients, List.foldl_cons, ← World.upsertClients]
    refine ih _ ?_
    by_cases hd : d.Stored ∧ nodeID = d.nodeId ∧ sessID = d.id
    · refine Or.inl ⟨_, (session_upsertClient d w nodeID sessID).trans (if_pos hd), ?_⟩
      cases w.session nodeID sessID <;> rfl
    · rw [session_upsertClient, if_neg hd]
      refine h.imp_right ?_
      rintro ⟨c, hc, hcd⟩
      rcases List.mem_cons.1 hc with rfl | hc
      · exact absurd hcd hd
      · exact ⟨c, hc, hcd⟩

/-- **The page and the table agree**: the page has every session once, with its own samples, and
every session of the page is open in the table when the request is done. -/
theorem client_page (hkeyed : w.Keyed) (hplain : PlainNodes w) (hnodes : NodesExist w table)
    (hqueried : Queried x cfg w table rows samples) :
    Lists x cfg w table samples (clientList x cfg w table rows samples) ∧
      ∀ e ∈ clientList x cfg w table rows samples, ∃ r,
        ((supplementLiveClients y (seenKeys (storedEntries cfg rows samples))).alone w).1.session
          e.nodeId e.id = some r ∧ r.endedAt = none := by
  have hlists := clientList_lists hkeyed hplain hnodes hqueried
  refine ⟨hlists, fun e he => ?_⟩
  rw [alone_supplementLiveClients]
  refine session_open_upsertClients _ w ?_
  rcases List.mem_append.1 he with he | he
  · obtain ⟨r, hr, rfl⟩ := mem_storedEntries.1 he
    obtain ⟨hmem, hopen⟩ := List.mem_filter.1 (hqueried.rows.subset hr)
    exact Or.inl ⟨r, (Rows.byKey_eq_some hkeyed.assignments).2 ⟨hmem, rfl⟩,
      (of_decide_eq_true hopen).1⟩
  · have hkey : (e.nodeId, e.id) ∈ (addedClients (seenKeys (storedEntries cfg rows samples))
        (reportedClients w)).map fun c => (c.nodeId, c.id) := by
      rw [← @keys_liveEntries R _ x w.clock table]
      exact List.mem_map_of_mem he
    obtain ⟨c, hc, hpair⟩ := List.mem_map.1 hkey
    obtain ⟨hnode, hid⟩ := Prod.mk.inj hpair
    exact Or.inr ⟨c, hc, ((addedClients_keys _ _).2 c hc).2.1, hnode.symm, hid.symm⟩

/-- Two nodes, of which one answers, with an open session and the client of another one. -/
def onePage : World where
  clock := 3000000000
  answer nodeID := if nodeID = "n1" then some [⟨"s1", "alice", "1.2.3.4:5", "10.8.0.2", "t"⟩,
    ⟨"s2", "bob", "1.2.3.5:5", "10.8.0.3", "t"⟩] else none
  disconnects _ _ := false
  nodes := [⟨"n1", 2⟩, ⟨"n2", 1⟩]
  users := []
  certificates := []
  assignments := [⟨"n1", "s1", "alice", "1.2.3.4", "10.8.0.2", "t", 0, 2000000000, none⟩]
  sources := []

/-- Samples of two sessions, the older ones first. -/
def twoSessions : List (TrafficSample ℕ) :=
  [⟨"n1", "s1", 100, 10, 5, 6, 1000000000⟩, ⟨"n1", "s2", 40, 4, 0, 0, 1500000000⟩,
    ⟨"n1", "s1", 800, 90, 7, 8, 2000000000⟩]

/-- Rates in whole bytes, of counters that are the same for every client; nothing fails. -/
def wholeRates : TrafficEnv ℕ where
  counters _ := (90, 4)
  rate d now lastAt := (d * 1000000000 / (now - lastAt)).toNat
  newest l := l.maxOn? (·.sampledAt)
  newest_eq_none l h := by
    by_contra hne
    have hsome : (l.maxOn? (·.sampledAt)).isSome = true := List.isSome_maxOn?_iff.2 hne
    rw [h] at hsome
    cases hsome
  newest_spec l s h := by
    refine ⟨List.maxOn?_mem h, fun t ht => ?_⟩
    have hle : t.sampledAt ≤ ((l.maxOn? (·.sampledAt)).get _).sampledAt :=
      List.le_apply_get_maxOn?_of_mem ht
    simpa only [h, Option.get_some] using hle
  fails _ := false

theorem client_page_onePage :
    let cfg : ClientsConfig := ⟨15000000000, 15⟩
    let page := clientList wholeRates cfg onePage twoSessions onePage.assignments
      [twoSessions[2], twoSessions[1], twoSessions[0]]
    (page.map fun e => (e.id, e.rates)) = [("s1", (7, 8)), ("s2", (33, 0))] ∧
      Lists wholeRates cfg onePage twoSessions [twoSessions[2],
      twoSessions[1], twoSessions[0]] page ∧
      ∀ e ∈ page, ∃ r, ((supplementLiveClients Agent.pollEnv (seenKeys (storedEntries cfg
        onePage.assignments [twoSessions[2], twoSessions[1], twoSessions[0]]))).alone
          onePage).1.session e.nodeId e.id = some r ∧ r.endedAt = none := by
  refine ⟨by decide +kernel, client_page ⟨by decide, by decide, by decide, by decide, by decide⟩
    ⟨by decide, by decide, by decide⟩ ⟨by decide, by decide⟩ ⟨by decide, ?_⟩⟩
  exact ⟨[twoSessions[2], twoSessions[1], twoSessions[0]],
    by decide +kernel, by decide +kernel, rfl⟩

end OpenvpnControl.Handlers
