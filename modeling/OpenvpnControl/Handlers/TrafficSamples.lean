import OpenvpnControl.Agent.ClientsPersist

/-!
# Traffic samples

`UpsertClientFromAgent` stores a sample with the counters that an agent reports for a session, and
the rates since the newest sample before. The page of clients reads the samples in two ways: the ten
thousand newest ones that are not older than an open session may be, for the sessions that are
stored, and the newest one of a session, for a session that it stores itself. The rows of a table
come in any order where their times are equal, so either query has more than one possible answer.

The errors of these queries and of the insertion are dropped, and what is missing then is taken to
be zero or nothing.

## Main definitions

* `TrafficSample`, `TrafficEnv`: a row of the table, and what the queries and the rates depend on.
* `TrafficEnv.newSample`, `TrafficEnv.store`: the sample that is stored for a client.
* `TrafficEnv.latestSessionTrafficBps`: the rates of the newest sample of a session.
* `SamplesAnswer`: the answer to the query of the newest samples of all sessions.
* `Newest`: rates that are those of a newest sample.

## Main results

* `SamplesAnswer.newest_head`, `SamplesAnswer.le_of_mem_take`: the samples of a session that are
  answered are its newest ones.
* `TrafficEnv.newest_latestSessionTrafficBps`: whose rates a session is shown with.
* `TrafficEnv.samplesOf_store`: what storing a client changes of the samples of a session.
-/

namespace OpenvpnControl.Handlers

open Agent (LiveClient)
open Timestamp (stamp param)

variable {R : Type}

/-! ### Samples -/

/-- A row of `ClientTrafficSample`. -/
structure TrafficSample (R : Type) where
  agentNodeId : String
  sessionId : String
  rxBytes : ℤ
  txBytes : ℤ
  inBps : R
  outBps : R
  sampledAt : ℤ
  deriving DecidableEq

/-- The samples of a session. -/
def samplesOf (nodeID sessID : String) (samples : List (TrafficSample R)) :
    List (TrafficSample R) :=
  samples.filter fun s => s.agentNodeId = nodeID ∧ s.sessionId = sessID

/-- The samples come with the newest ones first. -/
def NewestFirst (samples : List (TrafficSample R)) : Prop :=
  samples.Pairwise fun s t => t.sampledAt ≤ s.sampledAt

instance (samples : List (TrafficSample R)) : Decidable (NewestFirst samples) :=
  inferInstanceAs (Decidable (List.Pairwise _ _))

/-- The rates are those of a newest sample. -/
def Newest (samples : List (TrafficSample R)) (rates : R × R) : Prop :=
  ∃ s ∈ samples, (∀ t ∈ samples, t.sampledAt ≤ s.sampledAt) ∧ rates = (s.inBps, s.outBps)

/-- A query of samples, or the insertion of one. -/
inductive TrafficQuery where
  | samples
  | last (nodeID sessID : String)
  | insert (nodeID sessID : String)
  | latest (nodeID sessID : String)
  deriving DecidableEq

/-- What the samples depend on: the counters that are reported with a client, the quotient of some
bytes and the seconds between two times, the row that `ORDER BY "sampledAt" DESC LIMIT 1` chooses,
and which statements fail. -/
structure TrafficEnv (R : Type) where
  counters : LiveClient → ℤ × ℤ
  rate : ℤ → ℤ → ℤ → R
  newest : List (TrafficSample R) → Option (TrafficSample R)
  newest_eq_none : ∀ l, newest l = none → l = []
  newest_spec : ∀ l s, newest l = some s → s ∈ l ∧ ∀ t ∈ l, t.sampledAt ≤ s.sampledAt
  fails : TrafficQuery → Bool

/-- The zero `time.Time`. -/
def zeroTime : ℤ := -62135596800 * Timestamp.second

namespace TrafficEnv

variable [Zero R] (x : TrafficEnv R)

/-- A rate in `UpsertClientFromAgent`. Without a sample before it is 0. -/
def bps (now bytes : ℤ) (last : Option (ℤ × ℤ)) : R :=
  match last with
  | none => 0
  | some (lastBytes, lastAt) =>
    -- the difference has 64 bits
    let d := (bytes - lastBytes).bmod (2 ^ 64)
    if lastAt ≠ zeroTime ∧ 0 < now - lastAt ∧ 0 < d then x.rate d now lastAt else 0

/-- The sample that `UpsertClientFromAgent` stores. -/
def newSample (now : ℤ) (table : List (TrafficSample R)) (c : LiveClient) : TrafficSample R :=
  let last := if x.fails (.last c.nodeId c.id) then none
    else x.newest (samplesOf c.nodeId c.id table)
  let (rxBytes, txBytes) := x.counters c
  ⟨c.nodeId, c.id, rxBytes, txBytes,
    x.bps now rxBytes (last.map fun s => (s.rxBytes, s.sampledAt)),
    x.bps now txBytes (last.map fun s => (s.txBytes, s.sampledAt)), stamp now⟩

/-- The table after a client is stored. -/
def store (now : ℤ) (table : List (TrafficSample R)) (c : LiveClient) : List (TrafficSample R) :=
  if x.fails (.insert c.nodeId c.id) then table else table ++ [x.newSample now table c]

def latestSessionTrafficBps (table : List (TrafficSample R)) (nodeID sessID : String) : R × R :=
  if nodeID = "" ∨ sessID = "" ∨ x.fails (.latest nodeID sessID) then (0, 0)
  else ((x.newest (samplesOf nodeID sessID table)).map fun s => (s.inBps, s.outBps)).getD (0, 0)

end TrafficEnv

/-- The answer to the query of samples from `cutoff` on, of which there are at most ten thousand; a
query that fails has none. -/
def SamplesAnswer (x : TrafficEnv R) (cutoff : ℤ) (table samples : List (TrafficSample R)) : Prop :=
  if x.fails .samples then samples = []
  else ∃ l, l.Perm (table.filter fun s => param cutoff ≤ s.sampledAt) ∧ NewestFirst l ∧
    samples = l.take 10000

/-! ### The newest samples -/

/-- In a list with the newest samples first, one that is left out is not newer than one that is
taken. -/
theorem NewestFirst.le_of_mem_take {l : List (TrafficSample R)} (h : NewestFirst l) {n : ℕ}
    {s t : TrafficSample R} (hs : s ∈ l.take n) (ht : t ∈ l) (hout : t ∉ l.take n) :
    t.sampledAt ≤ s.sampledAt := by
  rw [NewestFirst, ← List.take_append_drop n l, List.pairwise_append] at h
  rw [← List.take_append_drop n l] at ht
  exact h.2.2 s hs t ((List.mem_append.1 ht).resolve_left hout)

theorem NewestFirst.le_head {l : List (TrafficSample R)} (h : NewestFirst l) {s : TrafficSample R}
    (hs : l.head? = some s) : ∀ t ∈ l, t.sampledAt ≤ s.sampledAt := by
  intro t ht
  obtain ⟨l, rfl⟩ := List.head?_eq_some_iff.1 hs
  rcases List.mem_cons.1 ht with rfl | ht
  · exact le_rfl
  · exact (List.pairwise_cons.1 h).1 t ht

theorem mem_samplesOf {nodeID sessID : String} {samples : List (TrafficSample R)}
    {s : TrafficSample R} :
    s ∈ samplesOf nodeID sessID samples ↔ s ∈ samples ∧ s.agentNodeId = nodeID ∧
    s.sessionId = sessID := by
  rw [samplesOf, List.mem_filter, decide_eq_true_eq]

section Answer

variable {x : TrafficEnv R} {cutoff : ℤ} {table samples : List (TrafficSample R)}

/-- The query answers stored samples that are not older than `cutoff`. -/
theorem SamplesAnswer.mem (h : SamplesAnswer x cutoff table samples) {s : TrafficSample R}
    (hs : s ∈ samples) : s ∈ table ∧ param cutoff ≤ s.sampledAt := by
  rw [SamplesAnswer] at h
  split_ifs at h
  · rw [h] at hs
    cases hs
  · obtain ⟨l, hperm, -, rfl⟩ := h
    obtain ⟨hmem, hrecent⟩ := List.mem_filter.1 (hperm.mem_iff.1 (List.mem_of_mem_take hs))
    exact ⟨hmem, of_decide_eq_true hrecent⟩

theorem SamplesAnswer.newestFirst (h : SamplesAnswer x cutoff table samples) :
    NewestFirst samples := by
  rw [SamplesAnswer] at h
  split_ifs at h
  · rw [h]
    exact List.Pairwise.nil
  · obtain ⟨l, -, hsorted, rfl⟩ := h
    exact hsorted.sublist (List.take_sublist _ _)

/-- **A sample that is left out** is not newer than one that is answered. -/
theorem SamplesAnswer.newest (h : SamplesAnswer x cutoff table samples) {s t : TrafficSample R}
    (hs : s ∈ samples) (ht : t ∈ table) (hrecent : param cutoff ≤ t.sampledAt)
    (hout : t ∉ samples) :
    t.sampledAt ≤ s.sampledAt := by
  rw [SamplesAnswer] at h
  split_ifs at h
  · rw [h] at hs
    cases hs
  · obtain ⟨l, hperm, hsorted, rfl⟩ := h
    exact hsorted.le_of_mem_take hs
      (hperm.mem_iff.2 (List.mem_filter.2 ⟨ht, decide_eq_true hrecent⟩)) hout

/-- The first sample that is answered of a session is a newest one of those that are stored. -/
theorem SamplesAnswer.newest_head (h : SamplesAnswer x cutoff table samples)
    {nodeID sessID : String} {s : TrafficSample R}
    (hs : (samplesOf nodeID sessID samples).head? = some s) :
    Newest (samplesOf nodeID sessID (table.filter fun t => param cutoff ≤ t.sampledAt))
      (s.inBps, s.outBps) := by
  obtain ⟨hmem, hsession⟩ := mem_samplesOf.1 (List.mem_of_head? hs)
  obtain ⟨htable, hrecent⟩ := h.mem hmem
  refine ⟨s, mem_samplesOf.2 ⟨List.mem_filter.2 ⟨htable, decide_eq_true hrecent⟩,
    hsession⟩, ?_, rfl⟩
  intro t ht
  obtain ⟨ht, htsession⟩ := mem_samplesOf.1 ht
  obtain ⟨httable, htrecent⟩ := List.mem_filter.1 ht
  by_cases hanswered : t ∈ samples
  · have hsorted : NewestFirst (samplesOf nodeID sessID samples) :=
      h.newestFirst.sublist List.filter_sublist
    exact hsorted.le_head hs t (mem_samplesOf.2 ⟨hanswered, htsession⟩)
  · exact h.newest hmem httable (of_decide_eq_true htrecent) hanswered

/-- A stored sample of a session that is not among its first ones that are answered is not newer
than these. -/
theorem SamplesAnswer.le_of_mem_take (h : SamplesAnswer x cutoff table samples)
    {nodeID sessID : String} {n : ℕ} {s t : TrafficSample R}
    (hs : s ∈ (samplesOf nodeID sessID samples).take n)
    (ht : t ∈ samplesOf nodeID sessID (table.filter fun t => param cutoff ≤ t.sampledAt))
    (hout : t ∉ (samplesOf nodeID sessID samples).take n) : t.sampledAt ≤ s.sampledAt := by
  obtain ⟨ht, hsession⟩ := mem_samplesOf.1 ht
  obtain ⟨htable, hrecent⟩ := List.mem_filter.1 ht
  by_cases hanswered : t ∈ samples
  · have hsorted : NewestFirst (samplesOf nodeID sessID samples) :=
      h.newestFirst.sublist List.filter_sublist
    exact hsorted.le_of_mem_take hs (mem_samplesOf.2 ⟨hanswered, hsession⟩) hout
  · exact h.newest (mem_samplesOf.1 (List.mem_of_mem_take hs)).1 htable (of_decide_eq_true hrecent)
      hanswered

/-- All samples are answered where they are no more than ten thousand. -/
theorem SamplesAnswer.perm (h : SamplesAnswer x cutoff table samples)
    (hanswered : x.fails .samples = false)
    (hlength : (table.filter fun s => param cutoff ≤ s.sampledAt).length ≤ 10000) :
    samples.Perm (table.filter fun s => param cutoff ≤ s.sampledAt) := by
  rw [SamplesAnswer, hanswered, if_neg Bool.false_ne_true] at h
  obtain ⟨l, hperm, -, rfl⟩ := h
  rwa [List.take_of_length_le (hperm.length_eq.trans_le hlength)]

end Answer

/-! ### The samples of a session that is stored -/

namespace TrafficEnv

variable [Zero R] {x : TrafficEnv R} {now : ℤ} {table table' : List (TrafficSample R)}
  {nodeID sessID : String}

/-- **Whose rates a session is shown with**: those of its newest sample, if it has one and the query
does not fail. -/
theorem newest_latestSessionTrafficBps (hnode : nodeID ≠ "") (hsess : sessID ≠ "") :
    (x.fails (.latest nodeID sessID) = false ∧ samplesOf nodeID sessID table ≠ [] →
      Newest (samplesOf nodeID sessID table) (x.latestSessionTrafficBps table nodeID sessID)) ∧
    (x.fails (.latest nodeID sessID) = true ∨ samplesOf nodeID sessID table = [] →
      x.latestSessionTrafficBps table nodeID sessID = (0, 0)) := by
  cases hnewest : x.newest (samplesOf nodeID sessID table) with
  | none =>
    have hzero : x.latestSessionTrafficBps table nodeID sessID = (0, 0) := by
      rw [latestSessionTrafficBps, hnewest]
      split_ifs <;> rfl
    exact ⟨fun h => absurd (x.newest_eq_none _ hnewest) h.2, fun _ => hzero⟩
  | some s =>
    obtain ⟨hmem, hlast⟩ := x.newest_spec _ _ hnewest
    refine ⟨fun h => ⟨s, hmem, hlast, ?_⟩, fun h => ?_⟩
    · rw [latestSessionTrafficBps, hnewest, if_neg (by simp [hnode, hsess, h.1])]
      rfl
    · rcases h with hfails | hnil
      · rw [latestSessionTrafficBps, if_pos (.inr (.inr hfails))]
      · rw [hnil] at hmem
        cases hmem

/-- **What storing a client changes** of the samples of a session. -/
theorem samplesOf_store (c : LiveClient) :
    samplesOf nodeID sessID (x.store now table c) = samplesOf nodeID sessID table ++
      if (c.nodeId = nodeID ∧ c.id = sessID) ∧ x.fails (.insert c.nodeId c.id) = false
      then [x.newSample now table c] else [] := by
  have hkey : (x.newSample now table c).agentNodeId = c.nodeId ∧
      (x.newSample now table c).sessionId = c.id := ⟨rfl, rfl⟩
  rw [store]
  cases hfails : x.fails (.insert c.nodeId c.id) with
  | true => simp
  | false =>
    by_cases hsession : c.nodeId = nodeID ∧ c.id = sessID
    · simp [samplesOf, List.filter_append, hkey, hsession]
    · simp [samplesOf, List.filter_append, hkey, hsession]

/-- The sample that is stored, and the rates that are shown, depend on the samples of the session
alone. -/
theorem latestSessionTrafficBps_store_congr (c : LiveClient)
    (h : samplesOf c.nodeId c.id table = samplesOf c.nodeId c.id table') :
    x.latestSessionTrafficBps (x.store now table c) c.nodeId c.id =
      x.latestSessionTrafficBps (x.store now table' c) c.nodeId c.id := by
  rw [latestSessionTrafficBps, latestSessionTrafficBps, samplesOf_store, samplesOf_store, newSample,
    newSample, h]

end TrafficEnv

end OpenvpnControl.Handlers
