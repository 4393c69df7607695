import OpenvpnControl.Agent.ClientSync
import OpenvpnControl.Library.Runs

/-!
# The addresses of a session

`ClientSourceIpHistory` has a row for a session and each address it was seen from. The time at which
a row ends is the one at which its session is gone from the agent, so that a session that moves to
another address keeps the row of the old one open. This file follows the rows of a session through
sequences of polls.

## Main definitions

* `Poll`, `pollStep`: a poll, and a step of the panel.
* `OneOpen`: a session has one open address, the one it is reported from.
* `AddressesKept`: what a poll does to the addresses.

## Main results

* `addresses_kept`: what every poll of a sequence does to the addresses.
* `roaming_leaves_open`: a session that moves has two open addresses.
-/

namespace OpenvpnControl.Agent

open Timestamp (stamp param second day)

/-- A poll: the time at which the panel reads the clock, and what the agents answer. -/
structure Poll where
  now : ℤ
  answer : String → Option (List VpnClient)

/-- The panel when a poll begins. -/
def World.facing (w : World) (p : Poll) : World := { w with clock := p.now, answer := p.answer }

/-- One poll. -/
def pollStep (x : PollEnv) (cfg : Config) (w : World) (p : Poll) : Option World :=
  some ((syncClientsSnapshot x cfg).alone (w.facing p)).1

/-- No node reports a session id twice. -/
def Poll.Once (p : Poll) : Prop :=
  ∀ nodeID clients, p.answer nodeID = some clients →
    ((clients.map (·.id)).filter (· ≠ "")).Nodup

/-- The session ids that a poll reports with the clients that have them. -/
def Poll.Reports (p : Poll) (w : World) (nodeID : String) (c : VpnClient) : Prop :=
  (∃ n ∈ w.nodes, n.id = nodeID) ∧ (∃ clients, p.answer nodeID = some clients ∧
    c ∈ clients) ∧ c.id ≠ ""

/-- The rows of a session. -/
def World.addresses (w : World) (nodeID sessionID : String) : Set ClientSourceIpHistory :=
  fun r => r ∈ w.sources ∧ r.agentNodeId = nodeID ∧ r.sessionId = sessionID

/-- A session has one open address, the one it is reported from, and the other ones are closed, not
before they were last seen. -/
structure OneOpen (nodeID : String) (c : VpnClient) (w : World) : Prop where
  one : ∃! r, r ∈ w.addresses nodeID c.id ∧ r.endedAt = none
  current : ∀ r ∈ w.addresses nodeID c.id, r.endedAt = none → r.realIp = c.hostIP
  earlier : ∀ r ∈ w.addresses nodeID c.id, r.realIp ≠ c.hostIP → ∃ t,
    r.endedAt = some t ∧ r.lastSeenAt ≤ t

/-- A session is reported from the address that is open, if one is. -/
def KeepsAddress (nodeID : String) (c : VpnClient) (w : World) : Prop :=
  ∀ r ∈ w.addresses nodeID c.id, r.endedAt = none → r.realIp = c.hostIP

/-- What a poll does to the addresses. The one that a session is reported from is open. The other
open ones stay as they are, so that there is one open address if and only if the session is not
reported from a new one. A session that a node does not report has no open address. A row ends not
before it was last seen. -/
structure AddressesKept (p : Poll) (w w' : World) : Prop where
  reported : ∀ nodeID c, p.Reports w nodeID c →
    ∃! r, r ∈ w'.addresses nodeID c.id ∧ r.realIp = c.hostIP ∧ r.endedAt = none
  others : ∀ nodeID c, p.Reports w nodeID c → ∀ r : ClientSourceIpHistory, r.realIp ≠ c.hostIP →
    r.endedAt = none → (r ∈ w'.addresses nodeID c.id ↔ r ∈ w.addresses nodeID c.id)
  one : ∀ nodeID c, p.Reports w nodeID c → (OneOpen nodeID c w' ↔ KeepsAddress nodeID c w)
  gone : ∀ n ∈ w.nodes, ∀ clients, p.answer n.id = some clients → ∀ s, (∀ c ∈ clients, c.id ≠ s) →
    ∀ r ∈ w'.addresses n.id s, r.endedAt ≠ none
  ended : ∀ r ∈ w'.sources, ∀ t ∈ r.endedAt, r.lastSeenAt ≤ t

variable {x : PollEnv} {cfg : Config} {w : World} {now : ℤ} {nodeID sessionID realIp : String}

/-! ### An address through the passes -/

/-- The row of a session and an address. -/
def World.source (w : World) (nodeID sessionID realIp : String) : Option ClientSourceIpHistory :=
  Rows.byKey (·.key) (nodeID, sessionID, realIp) w.sources

theorem mem_sources (h : w.Keyed) {r : ClientSourceIpHistory} :
    r ∈ w.sources ↔ w.source r.agentNodeId r.sessionId r.realIp = some r := by
  rw [World.source, Rows.byKey_eq_some h.sources]
  exact ⟨fun hr => ⟨hr, rfl⟩, fun hr => hr.1⟩

theorem source_key {r : ClientSourceIpHistory} (h : w.source nodeID sessionID realIp = some r) :
    r.agentNodeId = nodeID ∧ r.sessionId = sessionID ∧ r.realIp = realIp := by
  obtain ⟨hnode, hrest⟩ := Prod.mk.inj (Rows.mem_of_byKey_eq_some h).2
  exact ⟨hnode, Prod.mk.inj hrest⟩

/-- A client is stored at an address. -/
def LiveClient.At (c : LiveClient) (nodeID sessionID realIp : String) : Prop :=
  c.Stored ∧ c.nodeId = nodeID ∧ c.id = sessionID ∧ c.hostIP = realIp

theorem source_upsertClient {c : LiveClient} (h : c.Stored) (w : World) :
    (w.upsertClient x now c).source nodeID sessionID realIp =
      if (nodeID, sessionID, realIp) = (c.nodeId, c.id, c.hostIP) then
        some (((w.source nodeID sessionID realIp).map (touchSource now c)).getD
          (newSource now (x.ksuid (w.sources.map (·.id))) c))
      else w.source nodeID sessionID realIp := by
  have htouch : ∀ r, (touchSource now c r).key = r.key := fun _ => rfl
  have hnew : (newSource now (x.ksuid (w.sources.map (·.id))) c).key =
      (c.nodeId, c.id, c.hostIP) := by
    rw [ClientSourceIpHistory.key, newSource]
  rw [World.upsertClient, if_pos h, World.source, World.source, ← hnew, ← Rows.byKey_upsert htouch]
  rfl

theorem source_upsertClient_of_not {c : LiveClient} (h : ¬c.At nodeID sessionID realIp)
    (w : World) :
    (w.upsertClient x now c).source nodeID sessionID realIp = w.source nodeID sessionID realIp := by
  by_cases hstored : c.Stored
  · rw [source_upsertClient hstored, if_neg]
    simp only [Prod.mk.injEq]
    exact fun hkey => h ⟨hstored, hkey.1.symm, hkey.2.1.symm, hkey.2.2.symm⟩
  · rw [World.upsertClient, if_neg hstored]

theorem source_upsertClient_of {c : LiveClient} (h : c.At nodeID sessionID realIp) (w : World) :
    ∃ r, (w.upsertClient x now c).source nodeID sessionID realIp = some r ∧ r.endedAt = none := by
  obtain ⟨hstored, hnode, hsession, hip⟩ := h
  rw [source_upsertClient hstored, if_pos (by rw [hnode, hsession, hip])]
  refine ⟨_, rfl, ?_⟩
  cases w.source nodeID sessionID realIp <;> rfl

/-- An address that no client is stored at. -/
theorem source_upsertClients_of_not {clients : List LiveClient}
    (h : ∀ c ∈ clients, ¬c.At nodeID sessionID realIp) (w : World) :
    (w.upsertClients x now clients).source nodeID sessionID realIp =
    w.source nodeID sessionID realIp := by
  rw [World.upsertClients]
  induction clients generalizing w with
  | nil => rfl
  | cons c clients ih =>
    obtain ⟨hc, hclients⟩ := List.forall_mem_cons.1 h
    rw [List.foldl_cons, ih hclients, source_upsertClient_of_not hc]

/-- **An address that a client is stored at is open.** -/
theorem source_upsertClients_of {clients : List LiveClient}
    (h : ∃ c ∈ clients, c.At nodeID sessionID realIp) (w : World) :
    ∃ r, (w.upsertClients x now clients).source nodeID sessionID realIp =
    some r ∧ r.endedAt = none := by
  rw [World.upsertClients]
  induction clients using List.reverseRecOn with
  | nil =>
    obtain ⟨c, hc, -⟩ := h
    exact absurd hc List.not_mem_nil
  | append_singleton clients c ih =>
    rw [List.foldl_append, List.foldl_cons, List.foldl_nil]
    by_cases hc : c.At nodeID sessionID realIp
    · exact source_upsertClient_of hc _
    · rw [source_upsertClient_of_not hc]
      refine ih ?_
      obtain ⟨c', hc', hat⟩ := h
      rcases List.mem_append.1 hc' with hc' | hc'
      · exact ⟨c', hc', hat⟩
      · rw [List.mem_singleton.1 hc'] at hat
        exact absurd hat hc

theorem sources_closeStaleRows (rows : List ClientRow) (w : World) :
    (w.closeStaleRows now rows).sources = rows.foldl (fun t row => Rows.updateWhere
      (fun r => decide (row.Misses r.agentNodeId r.sessionId ∧ r.endedAt = none)) (·.closeAt now) t)
      w.sources := by
  rw [World.closeStaleRows]
  induction rows generalizing w with
  | nil => rfl
  | cons row rows ih =>
    rw [List.foldl_cons, ih, List.foldl_cons]
    congr 1
    rw [World.closeStaleFor]
    split_ifs with hnode
    · refine (Rows.updateWhere_eq_self fun r _ => decide_eq_false fun h => h.1.1 hnode).symm
    · dsimp only
      congr 1
      funext r
      simp only [ClientRow.Misses, ne_eq, hnode, not_false_eq_true, true_and, decide_eq_decide]
      tauto

/-- **An address after the sessions that are gone are closed.** -/
theorem source_closeStaleRows (rows : List ClientRow) :
    (w.closeStaleRows now rows).source nodeID sessionID realIp =
      (w.source nodeID sessionID realIp).map fun r =>
        if (∃ row ∈ rows, row.Misses nodeID sessionID) ∧ r.endedAt = none then
        r.closeAt now else r := by
  rw [World.source, sources_closeStaleRows, Rows.byKey_foldl_updateWhere]
  · rw [World.source]
    refine Option.map_congr fun r hr => ?_
    obtain ⟨hnode, hsession, -⟩ := source_key hr
    rw [hnode, hsession]
    congr 1
    rw [List.any_eq_true]
    simp only [decide_eq_true_eq, eq_iff_iff]
    exact ⟨fun ⟨row, hrow, hmiss, hopen⟩ => ⟨⟨row, hrow, hmiss⟩, hopen⟩,
      fun ⟨⟨row, hrow, hmiss⟩, hopen⟩ => ⟨row, hrow, hmiss, hopen⟩⟩
  · exact fun _ => rfl
  · exact fun row r => decide_eq_false fun h => Option.some_ne_none _ h.2

/-- An address after the second pass, which closes what the first one left open. -/
theorem source_closeMissing (rows : List ClientRow) :
    (w.closeMissing now rows).source nodeID sessionID realIp =
      (w.source nodeID sessionID realIp).map fun r =>
        if r.endedAt = none ∧ (activeSessionsByNode rows nodeID).any
        (sessionID ∉ ·) then r.closeAt now
        else r := by
  have hkey : ∀ r : ClientSourceIpHistory, (r.closeAt now).key = r.key := fun _ => rfl
  rw [World.source, World.closeMissing]
  dsimp only
  rw [Rows.byKey_updateWhere fun r _ => hkey r, ← World.source]
  refine Option.map_congr fun r hr => ?_
  obtain ⟨hnode, hsession, -⟩ := source_key hr
  rw [hnode, hsession]
  congr 1
  rw [Bool.and_eq_true, decide_eq_true_eq]

theorem sources_markActivity (cns : List String) : (w.markActivity x cns).sources = w.sources := by
  rw [World.markActivity]
  split_ifs <;> rfl

theorem sources_closeNotFresh (sessionCutoff : ℤ) (rows : List ClientRow) :
    (w.closeNotFresh now sessionCutoff rows).sources = w.sources := by
  rw [World.closeNotFresh]
  induction rows generalizing w with
  | nil => rfl
  | cons row rows ih => exact ih

/-- The panel after the passes that store and close. -/
def World.closed (x : PollEnv) (w : World) : World :=
  ((w.upsertClients x w.clock w.allClients).closeStaleRows w.clock w.polled).closeMissing w.clock
    (w.nodes.map w.clientRow)

theorem World.Keyed.closed (h : w.Keyed) : (w.closed x).Keyed :=
  ((h.upsertClients _).closeStaleRows _).closeMissing _

/-- The last statements of a poll leave the addresses alone. -/
theorem sources_synced : (w.synced x cfg).sources =
    Rows.deleteWhere (fun r => r.endedAt.any (· < param (w.clock - 90 * day)))
    (w.closed x).sources := by
  change (World.closeNotFresh _ _ _ _).sources = _
  rw [sources_closeNotFresh, sources_markActivity]
  rfl

/-- The session ids of a node that answered. -/
theorem activeSessionsByNode_of_mem {n : AgentNode} (hn : n ∈ w.nodes) {clients : List VpnClient}
    (hanswer : w.answer n.id = some clients) :
    activeSessionsByNode (w.nodes.map w.clientRow) n.id =
      some ((clients.map (·.id)).filter (· ≠ "")) := by
  have hself : (⟨n.id, true, clients.map fun c => ⟨c, n.id, w.clock⟩⟩ : ClientRow) ∈
      (w.nodes.map w.clientRow).filter fun row => row.ok && row.nodeID = n.id := by
    obtain ⟨hmap, -⟩ := List.mem_filter.1 (mem_polled.2 ⟨n, hn, clients, hanswer, rfl⟩)
    exact List.mem_filter.2 ⟨hmap, by simp⟩
  obtain ⟨row, hlast⟩ := Option.ne_none_iff_exists'.1 fun hnone =>
    List.ne_nil_of_mem hself (List.getLast?_eq_none_iff.1 hnone)
  obtain ⟨hmap, hrow⟩ := List.mem_filter.1 (List.mem_of_getLast? hlast)
  rw [Bool.and_eq_true, decide_eq_true_eq] at hrow
  have heq := eq_of_mem_polled (List.mem_filter.2 ⟨hmap, hrow.1⟩) (hrow.2 ▸ hanswer)
  rw [activeSessionsByNode, hlast, Option.map_some, heq, ClientRow.sessionIDs, List.map_map]
  rfl

section Reported

variable {n : AgentNode} (hn : n ∈ w.nodes) (hid : n.id ≠ "") {clients : List VpnClient}
  (hanswer : w.answer n.id = some clients) {c : VpnClient} (hc : c ∈ clients) (hcid : c.id ≠ "")

include hn hid hanswer hc hcid

/-- The addresses of a session that was reported, after the passes that store and close. -/
theorem source_closed (ip : String) :
    (w.closed x).source n.id c.id ip =
    (w.upsertClients x w.clock w.allClients).source n.id c.id ip := by
  have hmem : c.id ∈ (clients.map (·.id)).filter (· ≠ "") :=
    List.mem_filter.2 ⟨List.mem_map_of_mem hc, by simpa using hcid⟩
  have hmiss : ¬∃ row ∈ w.polled, row.Misses n.id c.id := by
    rw [misses_iff hanswer hn hid]
    rintro (hnone | hnone)
    · exact hcid hnone
    · exact hnone c hc rfl
  rw [World.closed, source_closeMissing, source_closeStaleRows, Option.map_map,
    activeSessionsByNode_of_mem hn hanswer]
  refine (Option.map_congr fun r _ => ?_).trans Option.map_id'
  rw [Function.comp_apply, if_neg (not_and_of_not_left _ hmiss), if_neg]
  rintro ⟨-, hnot⟩
  exact of_decide_eq_true hnot hmem

/-- **The reported address of a session is open.** -/
theorem source_reported (h : w.Keyed) :
    ∃ r, (w.synced x cfg).source n.id c.id c.hostIP = some r ∧ r.endedAt = none := by
  have hat : ∃ c' ∈ w.allClients, c'.At n.id c.id c.hostIP :=
    ⟨⟨c, n.id, w.clock⟩, List.mem_flatMap.2 ⟨_, mem_polled.2 ⟨n, hn, clients, hanswer, rfl⟩,
      List.mem_map_of_mem hc⟩, ⟨hid, hcid⟩, rfl, rfl, rfl⟩
  obtain ⟨r, hr, hopen⟩ := @source_upsertClients_of x w.clock _ _ _ _ hat w
  refine ⟨r, ?_, hopen⟩
  rw [World.source, sources_synced, Rows.byKey_deleteWhere h.closed.sources]
  refine Option.filter_eq_some_iff.2 ⟨(source_closed hn hid hanswer hc hcid _).trans hr, ?_⟩
  rw [hopen]
  rfl

/-- **The other addresses of a session that was reported** are as they were, where its node reported
it once, but for those that ended long ago. -/
theorem source_other (h : w.Keyed)
    (honce : ((clients.map (·.id)).filter (· ≠ "")).Nodup) {ip : String}
    (hip : ip ≠ c.hostIP) : (w.synced x cfg).source n.id c.id ip =
      (w.source n.id c.id ip).filter fun r => !r.endedAt.any (· < param (w.clock - 90 * day)) := by
  have hnot : ∀ c' ∈ w.allClients, ¬c'.At n.id c.id ip := by
    rintro c' hc' ⟨-, hnode, hsession, hhost⟩
    obtain ⟨row, hrow, hc'⟩ := List.mem_flatMap.1 hc'
    have hrownode := (nodeId_of_mem_polled hrow hc').symm.trans hnode
    rw [eq_of_mem_polled hrow (hrownode ▸ hanswer)] at hc'
    obtain ⟨c₀, hc₀, rfl⟩ := List.mem_map.1 hc'
    have hids : c₀.id = c.id := hsession
    have hsame : c₀ = c := by
      rw [List.filter_map] at honce
      exact List.inj_on_of_nodup_map honce (List.mem_filter.2 ⟨hc₀, by simpa [hids] using hcid⟩)
        (List.mem_filter.2 ⟨hc, by simpa using hcid⟩) hids
    exact hip (hhost.symm.trans (by rw [hsame]))
  rw [World.source, sources_synced, Rows.byKey_deleteWhere h.closed.sources]
  refine congrArg (Option.filter _) ?_
  exact (source_closed hn hid hanswer hc hcid _).trans (source_upsertClients_of_not hnot w)

end Reported

/-! ### When the addresses were seen -/

/-- No row of the table was seen after a time, and none was closed before it was last seen. -/
def SeenBy (now : ℤ) (t : List ClientSourceIpHistory) : Prop :=
  ∀ r ∈ t, r.lastSeenAt ≤ stamp now ∧ ∀ e ∈ r.endedAt, r.lastSeenAt ≤ e

theorem SeenBy.mono {t : List ClientSourceIpHistory} {now' : ℤ} (h : SeenBy now t)
    (hle : now ≤ now') :
    SeenBy now' t :=
  fun r hr => ⟨(h r hr).1.trans (Timestamp.stamp_mono hle), (h r hr).2⟩

theorem SeenBy.upsertClient (h : SeenBy now w.sources) (c : LiveClient) :
    SeenBy now (w.upsertClient x now c).sources := by
  rw [World.upsertClient]
  split_ifs
  · intro r hr
    rcases Rows.mem_of_mem_upsert hr with hr | rfl | ⟨r₀, -, rfl⟩
    · exact h r hr
    · exact ⟨le_rfl, fun e he => by cases he⟩
    · exact ⟨le_rfl, fun e he => by cases he⟩
  · exact h

theorem SeenBy.close {t : List ClientSourceIpHistory} (h : SeenBy now t)
    (p : ClientSourceIpHistory → Bool) : SeenBy now (Rows.updateWhere p (·.closeAt now) t) := by
  intro r hr
  rcases Rows.mem_updateWhere.1 hr with ⟨hr, -⟩ | ⟨r₀, hr₀, -, rfl⟩
  · exact h r hr
  · refine ⟨(h r₀ hr₀).1, fun e he => ?_⟩
    rw [← Option.some.inj he]
    exact (h r₀ hr₀).1

/-- **A poll keeps the times in order.** -/
theorem SeenBy.synced (h : SeenBy w.clock w.sources) : SeenBy w.clock (w.synced x cfg).sources := by
  have hstored : ∀ (clients : List LiveClient) (v : World), SeenBy w.clock v.sources →
      SeenBy w.clock (v.upsertClients x w.clock clients).sources := by
    intro clients
    induction clients with
    | nil => exact fun _ hv => hv
    | cons c clients ih => exact fun v hv => ih _ (hv.upsertClient c)
  have hclosed : ∀ (rows : List ClientRow) (v : World), SeenBy w.clock v.sources →
      SeenBy w.clock (v.closeStaleRows w.clock rows).sources := by
    intro rows
    induction rows with
    | nil => exact fun _ hv => hv
    | cons row rows ih =>
      refine fun v hv => ih _ ?_
      change SeenBy w.clock (v.closeStaleFor w.clock row.nodeID row.sessionIDs).sources
      rw [World.closeStaleFor]
      split_ifs
      · exact hv
      · exact hv.close _
  rw [sources_synced]
  intro r hr
  exact (hclosed _ _ (hstored _ _ h)).close _ r (Rows.mem_deleteWhere.1 hr).1

/-! ### Polls -/

theorem Poll.reports_iff {p : Poll} {c : VpnClient} : p.Reports w nodeID c ↔
    ∃ n ∈ w.nodes, n.id = nodeID ∧ ∃ clients, p.answer nodeID = some clients ∧
    c ∈ clients ∧ c.id ≠ "" :=
  ⟨fun ⟨⟨n, hn, hid⟩, ⟨clients, hanswer, hc⟩, hne⟩ => ⟨n, hn, hid, clients, hanswer, hc, hne⟩,
    fun ⟨n, hn, hid, clients, hanswer, hc, hne⟩ => ⟨⟨n, hn, hid⟩, ⟨clients, hanswer, hc⟩, hne⟩⟩

/-- **The other open addresses of a session** stay as they are. -/
theorem others_synced (h : w.Keyed) (hids : ∀ n ∈ w.nodes, n.id ≠ "") {p : Poll}
    (hp : w.answer = p.answer)
    (honce : p.Once) {c : VpnClient} (hc : p.Reports w nodeID c) {r : ClientSourceIpHistory}
    (hip : r.realIp ≠ c.hostIP) (hopen : r.endedAt = none) :
    r ∈ (w.synced x cfg).addresses nodeID c.id ↔ r ∈ w.addresses nodeID c.id := by
  obtain ⟨n, hn, rfl, clients, hanswer, hmem, hne⟩ := Poll.reports_iff.1 hc
  have hkeyed : (w.synced x cfg).Keyed := h.synced
  refine and_congr_left fun ⟨hnode, hsession⟩ => ?_
  rw [mem_sources hkeyed, mem_sources h, hnode, hsession,
    source_other hn (hids n hn) (hp ▸ hanswer) hmem hne h (honce _ _ hanswer) hip,
    Option.filter_eq_some_iff, hopen]
  exact and_iff_left rfl

/-- **The reported address of a session** has one row, and it is open. -/
theorem reported_synced (h : w.Keyed) (hids : ∀ n ∈ w.nodes, n.id ≠ "") {p : Poll}
    (hp : w.answer = p.answer) {c : VpnClient} (hc : p.Reports w nodeID c) :
    ∃! r, r ∈ (w.synced x cfg).addresses nodeID c.id ∧ r.realIp = c.hostIP ∧ r.endedAt = none := by
  obtain ⟨n, hn, rfl, clients, hanswer, hmem, hne⟩ := Poll.reports_iff.1 hc
  have hkeyed : (w.synced x cfg).Keyed := h.synced
  obtain ⟨r, hr, hopen⟩ : ∃ r, (w.synced x cfg).source n.id c.id c.hostIP =
      some r ∧ r.endedAt = none :=
    source_reported hn (hids n hn) (hp ▸ hanswer) hmem hne h
  obtain ⟨hnode, hsession, hip⟩ := source_key hr
  refine ⟨r, ⟨⟨(mem_sources hkeyed).2 ?_, hnode, hsession⟩, hip, hopen⟩, ?_⟩
  · rw [hnode, hsession, hip]
    exact hr
  · rintro r' ⟨⟨hr', hnode', hsession'⟩, hip', -⟩
    rw [mem_sources hkeyed, hnode', hsession', hip', hr] at hr'
    exact (Option.some.inj hr').symm

/-- **One poll** leaves a session that it reports one open address if and only if it does not find
it at a new one. -/
theorem oneOpen_synced_iff (h : w.Keyed) (hids : ∀ n ∈ w.nodes, n.id ≠ "")
    (hseen : SeenBy w.clock (w.synced x cfg).sources) {p : Poll} (hp : w.answer = p.answer)
    (honce : p.Once) {c : VpnClient} (hc : p.Reports w nodeID c) :
    OneOpen nodeID c (w.synced x cfg) ↔ KeepsAddress nodeID c w := by
  constructor
  · intro hone r hr hopen
    by_contra hip
    exact hip (hone.current r ((others_synced h hids hp honce hc hip hopen).2 hr) hopen)
  · intro hkeep
    have hcurrent : ∀ r ∈ (w.synced x cfg).addresses nodeID c.id, r.endedAt = none →
        r.realIp = c.hostIP := fun r hr hopen => by_contra fun hip =>
      hip (hkeep r ((others_synced h hids hp honce hc hip hopen).1 hr) hopen)
    obtain ⟨r, ⟨hr, -, hopen⟩, huniq⟩ : ∃! r, r ∈ (w.synced x cfg).addresses nodeID c.id ∧
        r.realIp = c.hostIP ∧ r.endedAt = none := reported_synced h hids hp hc
    refine ⟨⟨r, ⟨hr, hopen⟩, fun r' ⟨hr', hopen'⟩ => huniq r' ⟨hr',
      hcurrent r' hr' hopen', hopen'⟩⟩, hcurrent, fun r' hr' hip => ?_⟩
    obtain ⟨t, ht⟩ := Option.ne_none_iff_exists'.1 fun hopen' => hip (hcurrent r' hr' hopen')
    exact ⟨t, ht, (hseen r' hr'.1).2 t ht⟩

/-- **A session that its node does not report** has no open address. -/
theorem gone_synced (h : w.Keyed) {n : AgentNode} (hn : n ∈ w.nodes) (hid : n.id ≠ "")
    {clients : List VpnClient} (hanswer : w.answer n.id = some clients)
    (hs : ∀ c ∈ clients, c.id ≠ sessionID)
    {r : ClientSourceIpHistory} (hr : r ∈ (w.synced x cfg).addresses n.id sessionID) :
    r.endedAt ≠ none := by
  obtain ⟨hr, hnode, hsession⟩ := hr
  have hmiss : ∃ row ∈ w.polled, row.Misses n.id sessionID :=
    (misses_iff hanswer hn hid).2 (Or.inr hs)
  rw [sources_synced, Rows.mem_deleteWhere] at hr
  have hrow := (mem_sources h.closed).1 hr.1
  rw [hnode, hsession, World.closed, source_closeMissing, source_closeStaleRows, Option.map_map,
    Option.map_eq_some_iff] at hrow
  obtain ⟨r₀, -, hrow⟩ := hrow
  rw [Function.comp_apply] at hrow
  by_cases hopen : r₀.endedAt = none
  · rw [if_pos (c := _ ∧ r₀.endedAt = none) ⟨hmiss, hopen⟩,
      if_neg fun hagain => Option.some_ne_none _ hagain.1] at hrow
    rw [← hrow]
    exact Option.some_ne_none _
  · rw [if_neg (c := _ ∧ r₀.endedAt = none) fun hclose => hopen hclose.2,
      if_neg fun hclose => hopen hclose.1] at hrow
    rw [← hrow]
    exact hopen

/-- The panel after a poll. -/
def World.after (x : PollEnv) (cfg : Config) (w : World) (p : Poll) : World :=
  (w.facing p).synced x cfg

theorem pollStep_eq (h : w.Keyed) (p : Poll) : pollStep x cfg w p = some (w.after x cfg p) := by
  have hkeyed : (w.facing p).Keyed := ⟨h.nodes, h.users, h.assignments, h.sources, h.sourceIds⟩
  rw [pollStep, alone_syncClientsSnapshot hkeyed]
  rfl

/-- What a poll keeps for the polls after it. -/
structure World.Ready (w : World) : Prop where
  keyed : w.Keyed
  ids : ∀ n ∈ w.nodes, n.id ≠ ""
  seen : SeenBy w.clock w.sources

theorem World.Ready.facing (h : w.Ready) {p : Poll} (hp : w.clock ≤ p.now) : (w.facing p).Ready :=
  ⟨⟨h.keyed.nodes, h.keyed.users, h.keyed.assignments, h.keyed.sources, h.keyed.sourceIds⟩, h.ids,
    h.seen.mono hp⟩

theorem World.Ready.after (h : w.Ready) {p : Poll} (hp : w.clock ≤ p.now) :
    (w.after x cfg p).Ready := by
  have hready := h.facing hp
  have hfixes : (w.facing p).Fixes (w.after x cfg p) := (w.facing p).fixes_synced
  refine ⟨hready.keyed.synced, ?_, ?_⟩
  · rw [hfixes.nodes]
    exact hready.ids
  · rw [hfixes.clock]
    exact hready.seen.synced

theorem clock_after (w : World) (p : Poll) : (w.after x cfg p).clock = p.now :=
  (w.facing p).fixes_synced.clock

/-- **One poll**. -/
theorem addressesKept_after (h : w.Ready) {p : Poll} (hp : w.clock ≤ p.now) (honce : p.Once) :
    AddressesKept p w (w.after x cfg p) := by
  have hready := h.facing hp
  have hseen : SeenBy (w.facing p).clock (w.after x cfg p).sources := hready.seen.synced
  exact {
    reported := fun _ _ hc => reported_synced hready.keyed hready.ids rfl hc
    others := fun _ _ hc _ hip hopen => others_synced hready.keyed hready.ids rfl honce hc hip hopen
    one := fun _ _ hc => oneOpen_synced_iff hready.keyed hready.ids hseen rfl honce hc
    gone := fun n hn _ hanswer _ hs _ hr => gone_synced hready.keyed hn
      (hready.ids n hn) hanswer hs hr
    ended := fun r hr => (hseen r hr).2 }

/-- **Every poll opens the reported addresses and closes the sessions that are gone.** A session has
one open address after a poll if and only if the poll does not find it at a new one; an address that
a session left stays open until the session is gone. -/
theorem addresses_kept (h : w.Ready) {polls : List Poll}
    (hclock : (w.clock :: polls.map (·.now)).Pairwise (· ≤ ·)) (honce : ∀ p ∈ polls, p.Once) :
    Runs.Meets (pollStep x cfg)
    (fun w p => ∀ w', pollStep x cfg w p = some w' → AddressesKept p w w') w
      polls := by
  induction polls generalizing w with
  | nil => trivial
  | cons p polls ih =>
    obtain ⟨hle, hclock⟩ := List.pairwise_cons.1 hclock
    have hp : w.clock ≤ p.now := hle _ List.mem_cons_self
    obtain ⟨hpo, honce⟩ := List.forall_mem_cons.1 honce
    have hstep : pollStep x cfg w p = some (w.after x cfg p) := pollStep_eq h.keyed p
    have hrest : ((w.after x cfg p).clock :: polls.map (·.now)).Pairwise (· ≤ ·) := by
      rw [clock_after]
      exact hclock
    rw [Runs.meets_cons_of_some hstep]
    refine ⟨fun w' hw' => ?_, ih (h.after hp) hrest honce⟩
    rw [hstep] at hw'
    exact Option.some.inj hw' ▸ addressesKept_after h hp hpo

/-- A panel with one node, at the beginning. -/
def oneNode : World where
  clock := 1700000000000000000
  answer _ := none
  disconnects _ _ := false
  nodes := [⟨"n1", 0⟩]
  users := []
  certificates := []
  assignments := []
  sources := []

/-- A poll that finds one session, at an address. -/
def pollAt (now : ℤ) (remoteIp : String) : Poll where
  now := now
  answer id := if id = "n1" then some [⟨"1", "alice", remoteIp, "10.8.0.2", "22:13"⟩] else none

theorem pollAt_once (now : ℤ) (remoteIp : String) : (pollAt now remoteIp).Once := by
  intro nodeID clients hanswer
  rw [pollAt] at hanswer
  dsimp only at hanswer
  split_ifs at hanswer
  rw [← Option.some.inj hanswer]
  exact List.nodup_singleton "1"

theorem oneNode_ready : oneNode.Ready where
  keyed := ⟨by decide, List.nodup_nil, List.nodup_nil, List.nodup_nil, List.nodup_nil⟩
  ids := by decide
  seen _ hr := absurd hr List.not_mem_nil

theorem addresses_kept_oneNode :
    Runs.Meets (pollStep pollEnv ⟨15 * second⟩)
      (fun w p => ∀ w', pollStep pollEnv ⟨15 * second⟩ w p = some w' → AddressesKept p w w') oneNode
      [pollAt 1700000010000000000 "198.51.100.7:1194",
        pollAt 1700000020000000000 "198.51.100.9:1194"] := by
  refine addresses_kept oneNode_ready (by decide) fun p hp => ?_
  rcases List.mem_cons.1 hp with rfl | hp
  · exact pollAt_once _ _
  · rw [List.mem_singleton.1 hp]
    exact pollAt_once _ _

/-- **A session that moves leaves its old address open.** -/
theorem roaming_leaves_open : ¬∀ (w : World) (polls : List Poll), w.Ready →
    (w.clock :: polls.map (·.now)).Pairwise (· ≤ ·) → (∀ p ∈ polls, p.Once) →
      Runs.Meets (pollStep pollEnv ⟨15 * second⟩)
        (fun w p => ∀ w', pollStep pollEnv ⟨15 * second⟩ w p = some w' →
          ∀ nodeID c, p.Reports w nodeID c → OneOpen nodeID c w') w polls := by
  intro hall
  obtain ⟨p, hp⟩ : ∃ p, p = pollAt 1700000010000000000 "198.51.100.7:1194" := ⟨_, rfl⟩
  obtain ⟨q, hq⟩ : ∃ q, q = pollAt 1700000020000000000 "198.51.100.9:1194" := ⟨_, rfl⟩
  have hponce : p.Once := hp ▸ pollAt_once _ _
  have hqonce : q.Once := hq ▸ pollAt_once _ _
  have hpnow : oneNode.clock ≤ p.now := by
    rw [hp]
    decide
  have hready : (oneNode.after pollEnv ⟨15 * second⟩ p).Ready := oneNode_ready.after hpnow
  have hqnow : (oneNode.after pollEnv ⟨15 * second⟩ p).clock ≤ q.now := by
    rw [clock_after, hp, hq]
    decide
  obtain ⟨hfirst, hrest⟩ :=
    hall oneNode [p, q] oneNode_ready (by rw [hp, hq]; decide) (by simp [hponce, hqonce])
  have hstep : pollStep pollEnv ⟨15 * second⟩ oneNode p =
      some (oneNode.after pollEnv ⟨15 * second⟩ p) :=
    pollStep_eq oneNode_ready.keyed p
  have hpreports : p.Reports oneNode "n1" ⟨"1", "alice", "198.51.100.7:1194",
      "10.8.0.2", "22:13"⟩ := by
    refine ⟨⟨_, List.mem_singleton_self _, rfl⟩, ⟨_, ?_, List.mem_singleton_self _⟩, by decide⟩
    rw [hp]
    rfl
  have hqreports : q.Reports (oneNode.after pollEnv ⟨15 * second⟩ p) "n1"
      ⟨"1", "alice", "198.51.100.9:1194", "10.8.0.2", "22:13"⟩ := by
    refine ⟨?_, ⟨_, ?_, List.mem_singleton_self _⟩, by decide⟩
    · rw [World.after, nodes_synced]
      exact ⟨_, List.mem_singleton_self _, rfl⟩
    · rw [hq]
      rfl
  -- the open row of the first poll is still open at the second, which finds another address
  have hone := hfirst _ hstep _ _ hpreports
  have htwo := (hrest _ hstep).1 _ (pollStep_eq hready.keyed q) _ _ hqreports
  obtain ⟨r, ⟨hr, hopen⟩, -⟩ := hone.one
  have hkeeps := ((addressesKept_after hready hqnow hqonce).one _ _ hqreports).1 htwo r hr hopen
  rw [hone.current r hr hopen] at hkeeps
  exact absurd hkeeps (by decide +kernel)

end OpenvpnControl.Agent
