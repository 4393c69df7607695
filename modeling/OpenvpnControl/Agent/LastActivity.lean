import OpenvpnControl.Agent.SourceHistory

/-!
# The last activity of a user

The list of users shows when a user was last connected, long after the session is gone. A poll means
to store its time with the users whose certificates have a common name that an agent reported, and
clears the times of all others. The statement that stores is called with its two arguments the other
way round, so it is refused and its error dropped, and what is left of the pass is the clearing.
This file follows the stored times through sequences of polls.

A time in the table is therefore one that was there before the first poll, as after a restore from a
backup (`lastActivity_of_run`), and a poll keeps the times right only where there is nothing to
store and nothing to clear.

## Main definitions

* `Poll.Sees`: a poll finds a user connected.
* `lastSeen`: the time of the latest poll that found a user connected.
* `ActivityKept`: the stored times are the latest ones, and never go back.
* `Timely`: a poll has no time to store and none to clear.

## Main results

* `lastActivity_of_run`: no sequence of polls gives a user a time.
* `last_activity_kept_iff`: when a sequence of polls keeps the times.
* `connected_user_without_time`: a user who is connected gets no time.
-/

namespace OpenvpnControl.Agent

open Timestamp (stamp second)

/-- The clients that the agent of a node reports, none on an error. -/
def Poll.clients (p : Poll) (n : AgentNode) : List VpnClient := (p.answer n.id).getD []

/-- The common name of a client, trimmed and in lower case. -/
def VpnClient.name (x : PollEnv) (c : VpnClient) : String :=
  x.toLower (GoStrings.trimSpace c.commonName)

/-- The common name of a certificate, trimmed and in lower case. -/
def Certificate.name (x : PollEnv) (c : Certificate) : String :=
  x.lower (GoStrings.trimSet [' '] c.commonName)

/-- A poll finds a user connected: a client has the common name of one of the user's
certificates. -/
def Poll.Sees (x : PollEnv) (w : World) (p : Poll) (userID : String) : Prop :=
  ∃ n ∈ w.nodes, ∃ c ∈ p.clients n, c.name x ≠ "" ∧
    ∃ cert ∈ w.certificates, cert.vpnUserId = some userID ∧ cert.name x = c.name x

instance (x : PollEnv) (w : World) (p : Poll) (userID : String) : Decidable (p.Sees x w userID) :=
  inferInstanceAs (Decidable (∃ n ∈ w.nodes, ∃ c ∈ p.clients n, _ ∧ ∃ cert ∈ w.certificates, _))

/-- A poll finds a client that has a name. -/
def Poll.Names (x : PollEnv) (w : World) (p : Poll) : Prop :=
  ∃ n ∈ w.nodes, ∃ c ∈ p.clients n, c.name x ≠ ""

instance (x : PollEnv) (w : World) (p : Poll) : Decidable (p.Names x w) :=
  inferInstanceAs (Decidable (∃ n ∈ w.nodes, ∃ c ∈ p.clients n, _))

/-- The time that is stored with a user. -/
def World.lastActivity (w : World) (userID : String) : Option ℤ :=
  (Rows.byKey (·.id) userID w.users).bind (·.lastVpnActivityAt)

/-- The time of the latest of some polls that found a user connected, and the time that was stored
before them if none did. -/
def lastSeen (x : PollEnv) (w : World) (polls : List Poll) (userID : String) : Option ℤ :=
  match (polls.filter fun p => p.Sees x w userID).getLast? with
  | none => w.lastActivity userID
  | some p => some (stamp p.now)

/-- After each poll the stored time of a user is the latest one at which the user was connected; a
time that is stored is not removed, and no earlier one takes its place. -/
structure ActivityKept (x : PollEnv) (cfg : Config) (w : World) (polls : List Poll) : Prop where
  latest : ∀ past rest, polls = past ++ rest → ∀ w', Runs.run (pollStep x cfg) w past = some w' →
    ∀ u ∈ w.users, w'.lastActivity u.id = lastSeen x w past u.id
  monotone : ∀ past mid rest, polls = past ++ mid ++ rest → ∀ w' w'',
    Runs.run (pollStep x cfg) w past = some w' → Runs.run (pollStep x cfg) w' mid = some w'' →
    ∀ u ∈ w.users, ∀ t, w'.lastActivity u.id = some t → ∃ t',
    w''.lastActivity u.id = some t' ∧ t ≤ t'

/-- A poll has no time to store and none to clear: the users it finds connected have its own time
already and, where it finds a client that has a name, they are all users that have a time. -/
structure Timely (x : PollEnv) (w : World) (p : Poll) : Prop where
  stored : ∀ u ∈ w.users, p.Sees x w u.id → u.lastVpnActivityAt = some (stamp p.now)
  kept : p.Names x w → ∀ u ∈ w.users, u.lastVpnActivityAt ≠ none → p.Sees x w u.id

variable {x : PollEnv} {cfg : Config} {w : World} {now : ℤ}

/-! ### The users through the passes -/

theorem users_foldl {α : Type} {f : World → α → World}
    (hf : ∀ (w : World) a, (f w a).users = w.users) (l : List α)
    (w : World) : (l.foldl f w).users = w.users := by
  induction l generalizing w with
  | nil => rfl
  | cons a l ih => rw [List.foldl_cons, ih, hf]

theorem users_upsertClient (w : World) (client : LiveClient) :
    (w.upsertClient x now client).users = w.users := by
  rw [World.upsertClient]
  split_ifs <;> rfl

theorem users_closeStaleFor (w : World) (nodeID : String) (activeSessionIDs : List String) :
    (w.closeStaleFor now nodeID activeSessionIDs).users = w.users := by
  rw [World.closeStaleFor]
  split_ifs <;> rfl

theorem users_closed (w : World) : (w.closed x).users = w.users :=
  (users_foldl (fun v (row : ClientRow) =>
    users_closeStaleFor v row.nodeID row.sessionIDs) _ _).trans
    (users_foldl users_upsertClient _ _)

theorem certificates_closed (w : World) : (w.closed x).certificates = w.certificates := by
  have hstored : w.Fixes (w.upsertClients x w.clock w.allClients) :=
    World.fixes_foldl World.fixes_upsertClient _ w
  exact (hstored.trans (World.fixes_foldl
    (fun v (row : ClientRow) => v.fixes_closeStaleFor row.nodeID row.sessionIDs) _ _)).certificates

/-- Only the statement that clears the times changes the users. -/
theorem users_synced :
    (w.synced x cfg).users = (w.markActivity x (activeCNLower x w.allClients)).users := by
  have hfresh : ∀ (cutoff : ℤ) (rows : List ClientRow) (v : World),
      (v.closeNotFresh w.clock cutoff rows).users = v.users :=
    fun cutoff rows v => users_foldl (f := fun v (row : ClientRow) =>
      v.exec (.closeStale row.nodeID w.clock cutoff)) (fun _ _ => rfl) rows v
  have hmarked : ∀ v : World, v.users = w.users → v.certificates = w.certificates →
      (v.markActivity x (activeCNLower x w.allClients)).users =
        (w.markActivity x (activeCNLower x w.allClients)).users := by
    intro v husers hcerts
    have hmatched : ∀ cns, v.matchedUsers x cns = w.matchedUsers x cns := fun cns => by
      rw [World.matchedUsers, hcerts, World.matchedUsers]
    rw [World.markActivity, World.markActivity, hmatched]
    split_ifs
    · exact husers
    · simp only [World.exec, husers]
  exact (hfresh _ _ _).trans (hmarked _ (users_closed w) (certificates_closed w))

/-- **A user after the statement**: the time is cleared or stays. -/
theorem lastActivity_markActivity {cns : List String} (hcns : cns ≠ []) {u : VpnUser}
    (hu : Rows.byKey (·.id) u.id w.users = some u) :
    (w.markActivity x cns).lastActivity u.id =
      if u.id ∈ w.matchedUsers x cns then u.lastVpnActivityAt else none := by
  rw [World.lastActivity, World.markActivity, if_neg hcns]
  have hclear : ∀ v : VpnUser, ({ v with lastVpnActivityAt := none } : VpnUser).id = v.id :=
    fun _ => rfl
  simp only [World.exec]
  rw [Rows.byKey_updateWhere fun v _ => hclear v, hu]
  simp only [Option.map_some, Option.bind_some]
  by_cases hmatched : u.id ∈ w.matchedUsers x cns
  · simp [hmatched]
  · by_cases hnone : u.lastVpnActivityAt = none
    · simp [hmatched, hnone]
    · simp [hmatched, hnone]

/-! ### One poll -/

theorem mem_allClients {c : LiveClient} : c ∈ w.allClients ↔
    ∃ n ∈ w.nodes, ∃ d ∈ (w.answer n.id).getD [], c = ⟨d, n.id, w.clock⟩ := by
  rw [World.allClients, List.mem_flatMap]
  constructor
  · rintro ⟨row, hrow, hc⟩
    obtain ⟨n, hn, clients, hanswer, rfl⟩ := mem_polled.1 hrow
    obtain ⟨d, hd, rfl⟩ := List.mem_map.1 hc
    exact ⟨n, hn, d, by rwa [hanswer], rfl⟩
  · rintro ⟨n, hn, d, hd, rfl⟩
    cases hanswer : w.answer n.id with
    | none =>
      rw [hanswer] at hd
      exact absurd hd List.not_mem_nil
    | some clients =>
      rw [hanswer] at hd
      exact ⟨_, mem_polled.2 ⟨n, hn, clients, hanswer, rfl⟩, List.mem_map_of_mem hd⟩

theorem mem_activeCNLower {p : Poll} {s : String} : s ∈ activeCNLower x (w.facing p).allClients ↔
    ∃ n ∈ w.nodes, ∃ c ∈ p.clients n, c.name x = s ∧ s ≠ "" := by
  rw [activeCNLower, List.mem_filter, List.mem_map, decide_eq_true_eq]
  constructor
  · rintro ⟨⟨c, hc, hs⟩, hne⟩
    obtain ⟨n, hn, d, hd, rfl⟩ := mem_allClients.1 hc
    exact ⟨n, hn, d, hd, hs, hne⟩
  · rintro ⟨n, hn, d, hd, hs, hne⟩
    exact ⟨⟨_, mem_allClients.2 ⟨n, hn, d, hd, rfl⟩, hs⟩, hne⟩

theorem names_iff {p : Poll} : p.Names x w ↔ activeCNLower x (w.facing p).allClients ≠ [] := by
  constructor
  · rintro ⟨n, hn, c, hc, hne⟩
    exact List.ne_nil_of_mem (mem_activeCNLower.2 ⟨n, hn, c, hc, rfl, hne⟩)
  · intro hcns
    obtain ⟨s, hs⟩ := List.exists_mem_of_ne_nil _ hcns
    obtain ⟨n, hn, c, hc, rfl, hne⟩ := mem_activeCNLower.1 hs
    exact ⟨n, hn, c, hc, hne⟩

/-- The users that the statements match are those that the poll finds connected. -/
theorem sees_iff {p : Poll} {userID : String} : p.Sees x w userID ↔
    userID ∈ w.matchedUsers x (activeCNLower x (w.facing p).allClients) := by
  rw [World.matchedUsers, List.mem_filterMap]
  constructor
  · rintro ⟨n, hn, c, hc, hne, cert, hcert, huser, hname⟩
    refine ⟨cert, hcert, ?_⟩
    rw [← huser]
    exact if_pos (mem_activeCNLower.2 ⟨n, hn, c, hc, hname.symm, hname ▸ hne⟩)
  · rintro ⟨cert, hcert, hmatch⟩
    split_ifs at hmatch with hmem
    obtain ⟨n, hn, c, hc, hname, hne⟩ := mem_activeCNLower.1 hmem
    exact ⟨n, hn, c, hc, hname ▸ hne, cert, hcert, hmatch, hname.symm⟩

theorem lastActivity_of_mem (h : w.Keyed) {u : VpnUser} (hu : u ∈ w.users) :
    w.lastActivity u.id = u.lastVpnActivityAt := by
  rw [World.lastActivity, (Rows.byKey_eq_some h.users).2 ⟨hu, rfl⟩, Option.bind_some]

/-- **A user after a poll.** -/
theorem lastActivity_after (h : w.Keyed) (p : Poll) {u : VpnUser} (hu : u ∈ w.users) :
    (w.after x cfg p).lastActivity u.id =
      if p.Names x w ∧ ¬p.Sees x w u.id then none else u.lastVpnActivityAt := by
  have hrow : Rows.byKey (·.id) u.id (w.facing p).users = some u :=
    (Rows.byKey_eq_some h.users).2 ⟨hu, rfl⟩
  rw [World.lastActivity, World.after, users_synced, ← World.lastActivity]
  by_cases hnames : p.Names x w
  · rw [lastActivity_markActivity (names_iff.1 hnames) hrow]
    have hmatched : p.Sees x w u.id ↔
        u.id ∈ (w.facing p).matchedUsers x (activeCNLower x (w.facing p).allClients) := sees_iff
    by_cases hseen : p.Sees x w u.id
    · rw [if_pos (hmatched.1 hseen), if_neg fun hgone => hgone.2 hseen]
    · rw [if_neg (hmatched.not.1 hseen), if_pos ⟨hnames, hseen⟩]
  · rw [if_neg fun hgone => hnames hgone.1, ← lastActivity_of_mem h hu, World.markActivity,
      if_pos (not_not.1 fun hne => hnames (names_iff.2 hne))]
    rfl

theorem Poll.Sees.names {p : Poll} {userID : String} (hseen : p.Sees x w userID) : p.Names x w := by
  obtain ⟨n, hn, c, hc, hne, -⟩ := hseen
  exact ⟨n, hn, c, hc, hne⟩

/-- **One poll keeps the times** if and only if it has none to store and none to clear. -/
theorem timely_iff (h : w.Keyed) (p : Poll) : Timely x w p ↔
    ∀ u ∈ w.users, (w.after x cfg p).lastActivity u.id =
      if p.Sees x w u.id then some (stamp p.now) else w.lastActivity u.id := by
  constructor
  · rintro ⟨hstored, hkept⟩ u hu
    rw [lastActivity_after h p hu, lastActivity_of_mem h hu]
    by_cases hseen : p.Sees x w u.id
    · rw [if_neg fun hgone => hgone.2 hseen, if_pos hseen, hstored u hu hseen]
    · rw [if_neg hseen]
      split_ifs with hgone
      · exact (not_imp_comm.1 (hkept hgone.1 u hu) hseen).symm
      · rfl
  · intro hstep
    refine ⟨fun u hu hseen => ?_, fun hnames u hu hvalued => ?_⟩
    · have hafter := hstep u hu
      rwa [lastActivity_after h p hu, if_neg fun hgone => hgone.2 hseen, if_pos hseen] at hafter
    · by_contra hseen
      have hafter := hstep u hu
      rw [lastActivity_after h p hu, if_pos ⟨hnames, hseen⟩, if_neg hseen,
        lastActivity_of_mem h hu] at hafter
      exact hvalued hafter.symm

/-! ### Sequences of polls -/

theorem lastSeen_append_singleton (polls : List Poll) (p : Poll) (userID : String) :
    lastSeen x w (polls ++ [p]) userID =
      if p.Sees x w userID then some (stamp p.now) else lastSeen x w polls userID := by
  rw [lastSeen, List.filter_append]
  by_cases hseen : p.Sees x w userID
  · rw [if_pos hseen]
    simp [hseen]
  · rw [if_neg hseen, lastSeen]
    simp [hseen]

/-- No stored time is after the clock. -/
def Seen (w : World) : Prop := ∀ userID, ∀ t ∈ w.lastActivity userID, t ≤ stamp w.clock

/-- The latest time is not after the clock. -/
theorem lastSeen_le (hseen : Seen w) {polls : List Poll} {userID : String} (hle : w.clock ≤ now)
    (hpolls : ∀ p ∈ polls, p.now ≤ now) {t : ℤ} (ht : lastSeen x w polls userID = some t) :
    t ≤ stamp now := by
  rw [lastSeen] at ht
  cases hlast : (polls.filter fun p => p.Sees x w userID).getLast? with
  | none =>
    rw [hlast] at ht
    exact (hseen _ _ ht).trans (Timestamp.stamp_mono hle)
  | some p =>
    rw [hlast] at ht
    have hp := (List.mem_filter.1 (List.mem_of_getLast? hlast)).1
    exact (Option.some.inj ht).symm.trans_le (Timestamp.stamp_mono (hpolls p hp))

/-- More polls do not take the latest time back. -/
theorem lastSeen_append (hseen : Seen w) {past mid : List Poll} {userID : String}
    (hclock : (w.clock :: (past ++ mid).map (·.now)).Pairwise (· ≤ ·)) {t : ℤ}
    (ht : lastSeen x w past userID = some t) :
    ∃ t', lastSeen x w (past ++ mid) userID = some t' ∧ t ≤ t' := by
  induction mid using List.reverseRecOn with
  | nil => exact ⟨t, by rw [List.append_nil, ht], le_rfl⟩
  | append_singleton mid p ih =>
    rw [← List.append_assoc, List.map_append, ← List.cons_append, List.pairwise_append] at hclock
    obtain ⟨hbefore, -, hp⟩ := hclock
    obtain ⟨t', ht', hle⟩ := ih hbefore
    rw [← List.append_assoc, lastSeen_append_singleton]
    split_ifs
    · refine ⟨_, rfl, hle.trans (lastSeen_le hseen ?_ (fun q hq => ?_) ht')⟩
      · exact hp _ List.mem_cons_self _ (List.mem_singleton_self _)
      · exact hp _ (List.mem_cons_of_mem _ (List.mem_map_of_mem hq)) _ (List.mem_singleton_self _)
    · exact ⟨t', ht', hle⟩

/-- What a sequence of polls leaves as it was. -/
structure World.Same (w w' : World) : Prop where
  keyed : w'.Keyed
  nodes : w'.nodes = w.nodes
  certificates : w'.certificates = w.certificates
  users : w'.users.map (·.id) = w.users.map (·.id)

theorem userIds_synced : (w.synced x cfg).users.map (·.id) = w.users.map (·.id) := by
  rw [users_synced, World.markActivity]
  split_ifs
  · rfl
  · simp only [World.exec]
    exact Rows.map_key_updateWhere fun _ _ _ => rfl

theorem World.Same.after {w₀ : World} (h : w₀.Same w) (p : Poll) : w₀.Same (w.after x cfg p) := by
  have hfixes : (w.facing p).Fixes (w.after x cfg p) := (w.facing p).fixes_synced
  have hkeyed : (w.facing p).Keyed :=
    ⟨h.keyed.nodes, h.keyed.users, h.keyed.assignments, h.keyed.sources, h.keyed.sourceIds⟩
  exact ⟨hkeyed.synced, hfixes.nodes.trans h.nodes, hfixes.certificates.trans h.certificates,
    userIds_synced.trans h.users⟩

theorem sees_congr {w₀ : World} (h : w₀.Same w) (p : Poll) (userID : String) :
    p.Sees x w userID ↔ p.Sees x w₀ userID := by
  rw [Poll.Sees, Poll.Sees, h.nodes, h.certificates]

theorem World.Same.run {w₀ : World} (h : w₀.Same w) {polls : List Poll} {w' : World}
    (hrun : Runs.run (pollStep x cfg) w polls = some w') : w₀.Same w' := by
  refine Runs.run_invariant (I := w₀.Same) (fun v p v' hv hstep => ?_) h hrun
  rw [pollStep_eq hv.keyed] at hstep
  exact Option.some.inj hstep ▸ hv.after p

/-- A user of the table at the beginning is one of the table after some polls. -/
theorem World.Same.exists_user {w₀ : World} (h : w₀.Same w) {u : VpnUser} (hu : u ∈ w₀.users) :
    ∃ v ∈ w.users, v.id = u.id := by
  have hid : u.id ∈ w.users.map (·.id) := by
    rw [h.users]
    exact List.mem_map_of_mem hu
  exact List.mem_map.1 hid

/-- **No sequence of polls gives a user a time**: a time that is stored after it was stored
before. -/
theorem lastActivity_of_run (h : w.Keyed) {polls : List Poll} {w' : World}
    (hrun : Runs.run (pollStep x cfg) w polls = some w') :
    ∀ u ∈ w.users, ∀ t, w'.lastActivity u.id = some t → u.lastVpnActivityAt = some t := by
  let Inv (v : World) : Prop := w.Same v ∧
    ∀ u ∈ w.users, ∀ t, v.lastActivity u.id = some t → u.lastVpnActivityAt = some t
  have hinit : Inv w :=
    ⟨⟨h, rfl, rfl, rfl⟩, fun u hu t ht => by rwa [lastActivity_of_mem h hu] at ht⟩
  refine (Runs.run_invariant (I := Inv) (fun v p v' ⟨hv, hold⟩ hstep => ?_) hinit hrun).2
  rw [pollStep_eq hv.keyed] at hstep
  obtain rfl := Option.some.inj hstep
  refine ⟨hv.after p, fun u hu t ht => hold u hu t ?_⟩
  obtain ⟨u', hu', hid⟩ := hv.exists_user hu
  rw [← hid, lastActivity_after hv.keyed p hu'] at ht
  rw [← hid, lastActivity_of_mem hv.keyed hu']
  split_ifs at ht
  exact ht

/-- **The times are the latest ones after every poll if and only if each poll keeps them.** -/
theorem latest_iff (h : w.Keyed) (polls : List Poll) :
    (∀ past rest, polls = past ++ rest → ∀ w', Runs.run (pollStep x cfg) w past = some w' →
      ∀ u ∈ w.users, w'.lastActivity u.id = lastSeen x w past u.id) ↔
    Runs.Meets (pollStep x cfg) (Timely x) w polls := by
  have hsame : w.Same w := ⟨h, rfl, rfl, rfl⟩
  rw [Runs.meets_iff_forall_append]
  constructor
  · rintro hlatest past p rest hpolls w' hrun
    have hw' := hsame.run hrun
    have hnext : Runs.run (pollStep x cfg) w (past ++ [p]) = some (w'.after x cfg p) := by
      rw [Runs.run_append, hrun, Option.bind_some, Runs.run_cons, pollStep_eq hw'.keyed]
      rfl
    refine (@timely_iff x cfg w' hw'.keyed p).2 fun v hv => ?_
    have hid : v.id ∈ w.users.map (·.id) := by
      rw [← hw'.users]
      exact List.mem_map_of_mem hv
    obtain ⟨u, hu, hvu⟩ := List.mem_map.1 hid
    have hsplit : polls = past ++ [p] ++ rest := by
      rw [hpolls, List.append_assoc, List.singleton_append]
    rw [← hvu, hlatest (past ++ [p]) rest hsplit _ hnext u hu, lastSeen_append_singleton,
      hlatest past (p :: rest) hpolls w' hrun u hu]
    exact if_congr (sees_congr hw' p u.id).symm rfl rfl
  · intro hmeets past rest hpolls w' hrun u hu
    induction past using List.reverseRecOn generalizing rest w' with
    | nil =>
      rw [← Option.some.inj hrun]
      rfl
    | append_singleton past p ih =>
      rw [List.append_assoc, List.singleton_append] at hpolls
      rw [Runs.run_append, Option.bind_eq_some_iff] at hrun
      obtain ⟨v, hv, hstep⟩ := hrun
      have hsamev := hsame.run hv
      rw [Runs.run_cons, pollStep_eq hsamev.keyed] at hstep
      obtain ⟨u', hu', hid⟩ := hsamev.exists_user hu
      rw [← Option.some.inj hstep, lastSeen_append_singleton, ← ih (p :: rest) hpolls v hv, ← hid,
        (timely_iff hsamev.keyed p).1 (hmeets past p rest hpolls v hv) u' hu']
      exact if_congr (sees_congr hsamev p u'.id) rfl rfl

/-- **The last activity of every user is kept if and only if no poll has a time to store or to
clear**: it finds connected those users only who have its own time already, and where it finds a
client that has a name, these are all users who have a time. -/
theorem last_activity_kept_iff (h : w.Keyed) (hseen : Seen w) {polls : List Poll}
    (hclock : (w.clock :: polls.map (·.now)).Pairwise (· ≤ ·)) :
    ActivityKept x cfg w polls ↔ Runs.Meets (pollStep x cfg) (Timely x) w polls := by
  refine ⟨fun hkept => (latest_iff h polls).1 hkept.latest, fun hmeets => ?_⟩
  have hlatest := (latest_iff h polls).2 hmeets
  refine ⟨hlatest, fun past mid rest hpolls w' w'' hpast hmid u hu t ht => ?_⟩
  have hrun : Runs.run (pollStep x cfg) w (past ++ mid) = some w'' := by
    rw [Runs.run_append, hpast]
    exact hmid
  rw [hlatest past (mid ++ rest) (by rw [hpolls, List.append_assoc]) w' hpast u hu] at ht
  rw [hlatest (past ++ mid) rest hpolls w'' hrun u hu]
  refine lastSeen_append hseen ?_ ht
  rw [hpolls, List.map_append, ← List.cons_append] at hclock
  exact (List.pairwise_append.1 hclock).1

/-- A panel with one node and two users, at the beginning. -/
def twoUsers : World where
  clock := 1700000000000000000
  answer _ := none
  disconnects _ _ := false
  nodes := [⟨"n1", 0⟩]
  users := [⟨"u1", none⟩, ⟨"u2", none⟩]
  certificates := [⟨"alice", some "u1"⟩, ⟨"bob", some "u2"⟩]
  assignments := []
  sources := []

/-- A poll that finds one client. -/
def pollFor (now : ℤ) (commonName : String) : Poll where
  now := now
  answer id := if id = "n1" then some [⟨"1", commonName, "198.51.100.7:1194", "10.8.0.2", "22:13"⟩]
    else none

theorem twoUsers_keyed : twoUsers.Keyed :=
  ⟨by decide, by decide, List.nodup_nil, List.nodup_nil, List.nodup_nil⟩

theorem twoUsers_seen : Seen twoUsers := by
  intro userID t ht
  obtain ⟨u, hu, hvalue⟩ := Option.bind_eq_some_iff.1 ht
  rcases List.mem_cons.1 (Rows.mem_of_byKey_eq_some hu).1 with rfl | hu
  · cases hvalue
  · rw [List.mem_singleton.1 hu] at hvalue
    cases hvalue

theorem last_activity_kept_iff_twoUsers :
    ActivityKept pollEnv ⟨15 * second⟩ twoUsers
        [pollFor 1700000010000000000 "Alice", pollFor 1700000020000000000 "alice"] ↔
      Runs.Meets (pollStep pollEnv ⟨15 * second⟩) (Timely pollEnv) twoUsers
        [pollFor 1700000010000000000 "Alice", pollFor 1700000020000000000 "alice"] :=
  last_activity_kept_iff twoUsers_keyed twoUsers_seen (by decide)

/-- **A user who is connected gets no time.** -/
theorem connected_user_without_time :
    ¬ActivityKept pollEnv ⟨15 * second⟩ twoUsers [pollFor 1700000010000000000 "alice"] := by
  intro hkept
  have hrun : ((Runs.run (pollStep pollEnv ⟨15 * second⟩) twoUsers
      [pollFor 1700000010000000000 "alice"]).map (·.lastActivity "u1")) = some none := by
    decide +kernel
  obtain ⟨w', hw', hnone⟩ := Option.map_eq_some_iff.1 hrun
  have hlatest := hkept.latest _ [] rfl w' hw' ⟨"u1", none⟩ List.mem_cons_self
  rw [hnone] at hlatest
  exact absurd hlatest (by decide +kernel)

end OpenvpnControl.Agent
