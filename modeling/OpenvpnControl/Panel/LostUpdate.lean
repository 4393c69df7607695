import Mathlib.Logic.Relation
import OpenvpnControl.Library.ReadModifyWrite
import OpenvpnControl.Panel.Settings

/-!
# Two requests on one settings row

The settings handlers load the whole settings row of a node, merge in memory and store the whole
row, without a lock. So what one request sets survives another one only when the other one loads the
row after it was stored, or stores before it.

## Main definitions

* `Request`: the requests that write the settings row, with what they set and what they store.
* `LeftAs`: a value under a key, as the normalisation leaves it.
* `Request.Keeps`: what a request keeps of the row it loads.

## Main results

* `row_post`, `row_get`, `row_applyFirewall`, `row_removeRootCa`: the handlers store what their
  request stores.
* `set_keys_survive`: which keys survive in a run of two requests.
* `set_key_lost`: a run that loses a key.
-/

namespace OpenvpnControl.Panel

open Openvpn (Settings)
open ReadModifyWrite (Event State after start)

/-- A request that writes the settings row, with what the agent answers and whether the read of the
row fails where its error is dropped. -/
inductive Request where
  | get (scanFloat : String → Option JsonNumber) (agent : Settings) (readFails : Bool)
  | getOffline
  | post (incoming : Settings) (readFails : Bool)
  | applyFirewall (reqBody : List (String × Json))
  | removeRootCa

namespace Request

/-- The keys a request sets. -/
def sets : Request → Settings
  | get _ _ _ => ∅
  | getOffline => ∅
  | post incoming _ => incoming
  | applyFirewall reqBody => firewallPatch reqBody
  | removeRootCa => detachPatch

/-- The settings a request stores, when the row it loads holds `row`. A read of the settings of an
agent that does not answer stores only where there is no row. -/
def written : Request → Option Settings → Option Settings
  | get scanFloat agent readFails, row =>
    some (shownSettings scanFloat (if readFails then ∅ else row.getD ∅) agent)
  | getOffline, none => some Openvpn.initialServerSettings
  | getOffline, some _ => none
  | post incoming readFails, row =>
    some (postedSettings (if readFails then ∅ else row.getD ∅) incoming)
  | applyFirewall reqBody, row => some (firewallSettings (row.getD ∅) reqBody)
  | removeRootCa, row => some (detachedSettings (row.getD ∅))

/-- What a request stores, as a row. -/
def store (r : Request) (row : Option Settings) : Option (Option Settings) :=
  (r.written row).map some

/-- The request reads the row, and its merge keeps the stored entry of the key. -/
def Keeps : Request → Settings → String → Prop
  | get scanFloat agent readFails, prev, k =>
    readFails = false ∧
      Openvpn.mergeEntry scanFloat agent k (prev.lookup k) = prev.lookup k
  | post _ readFails, _, _ => readFails = false
  | _, _, _ => True

end Request

/-! ### The handlers -/

section Handlers

variable {env : SettingsEnv} {db : Db} {nodeID : String} {reqBody : List (String × Json)}

/-- A save stores what its request stores. -/
theorem row_post (h : (postOpenvpnSettingsForPanel env db nodeID reqBody).result.status = 200) :
    ∃ fields, Json.field reqBody "settings" = .obj fields ∧
      (postOpenvpnSettingsForPanel env db nodeID reqBody).db.storedSettings nodeID =
        after (Request.post (GoMap.ofList fields) env.settingsError.isSome).store
          (db.storedSettings nodeID) := by
  obtain ⟨fields, tasks, hbody, -, hdb⟩ := post_of_ok h
  refine ⟨fields, hbody, ?_⟩
  have hrow := Db.storedSettings_upsertSettings { db with tasks := tasks } nodeID
    (postedSettings (env.prev db nodeID) (GoMap.ofList fields)) none nodeID
  rw [if_pos rfl] at hrow
  rw [hdb]
  exact hrow

/-- A read whose agent answers stores what its request stores. -/
theorem row_get (h : (getOpenvpnSettingsForPanel env db nodeID).2.status = 200) :
    ∃ r : Request, r.sets = ∅ ∧ (getOpenvpnSettingsForPanel env db nodeID).1.storedSettings nodeID =
      after r.store (db.storedSettings nodeID) := by
  rcases get_of_ok h with ⟨data, agent, cp, -, -, hdb⟩ | ⟨-, ⟨hrow, hdb⟩ | ⟨hrow, hdb⟩⟩
  · refine ⟨.get env.scanFloat (GoMap.ofList agent) env.settingsError.isSome, rfl, ?_⟩
    rw [hdb, Db.storedSettings_upsertSettings, if_pos rfl]
    rfl
  · obtain ⟨settings, hsettings⟩ := Option.isSome_iff_exists.1 hrow
    refine ⟨.getOffline, rfl, ?_⟩
    rw [hdb, hsettings]
    rfl
  · refine ⟨.getOffline, rfl, ?_⟩
    rw [hdb, Db.storedSettings_upsertSettings, if_pos rfl, hrow]
    rfl

/-- A saved firewall stores what its request stores. -/
theorem row_applyFirewall (h : (applyFirewallConfigForPanel env db nodeID reqBody).2.status = 200) :
    (applyFirewallConfigForPanel env db nodeID reqBody).1.storedSettings nodeID =
      after (Request.applyFirewall reqBody).store (db.storedSettings nodeID) := by
  have hrow := Db.storedSettings_upsertSettings db nodeID
    (firewallSettings (db.settingsOf nodeID) reqBody) none nodeID
  rw [if_pos rfl] at hrow
  rw [applyFirewall_of_ok h]
  exact hrow

/-- A detached root stores what its request stores. -/
theorem row_removeRootCa (h : (removeRootCaForPanel env db nodeID reqBody).2.status = 200) :
    let agentNodeID := GoStrings.trimSpace nodeID
    (removeRootCaForPanel env db nodeID reqBody).1.storedSettings agentNodeID =
      after Request.removeRootCa.store (db.storedSettings agentNodeID) := by
  intro agentNodeID
  obtain ⟨-, hdb⟩ := removeRootCa_of_ok h
  rw [hdb]
  have hafter : ∀ (db' : Db) (rootID : String) (next : Settings),
      (afterDetach env db' agentNodeID rootID next).1.storedSettings agentNodeID =
        db'.storedSettings agentNodeID := by
    intro db' rootID next
    simp only [afterDetach]
    split_ifs <;> rfl
  rw [hafter, detachRoot, Db.storedSettings_upsertSettings, if_pos rfl]
  rfl

end Handlers

/-! ### Values under a key -/

/-- The normalisation of some settings that hold `x` under the key leaves `y` there. -/
def EnsureStep (k : String) (x y : Option Json) : Prop :=
  ∃ m : Settings, m.lookup k = x ∧ (Openvpn.ensureOpenvpnSettingsReady m).lookup k = y

/-- The value `y` is what normalisations leave of `x` under the key. -/
def LeftAs (k : String) : Option Json → Option Json → Prop := Relation.ReflTransGen (EnsureStep k)

theorem leftAs_ensure (k : String) (m : Settings) :
    LeftAs k (m.lookup k) ((Openvpn.ensureOpenvpnSettingsReady m).lookup k) :=
  Relation.ReflTransGen.single ⟨m, rfl, rfl⟩

/-- The entry of a row under a key. -/
def entry (row : Option Settings) (k : String) : Option Json := (row.getD ∅).lookup k

/-- **A request stores the keys it sets**, as the normalisation leaves them. -/
theorem leftAs_written {r : Request} {row : Option Settings} {k : String} {v : Json}
    (hk : r.sets.lookup k = some v) :
    ∃ s, r.written row = some s ∧ LeftAs k (some v) (s.lookup k) := by
  cases r with
  | get scanFloat agent readFails => exact absurd hk (by simp [Request.sets])
  | getOffline => exact absurd hk (by simp [Request.sets])
  | post incoming readFails =>
    refine ⟨_, rfl, ?_⟩
    rw [Request.sets] at hk
    have hentry := leftAs_ensure k (GoMap.overlay (if readFails then ∅ else row.getD ∅) incoming)
    rw [GoMap.lookup_overlay, hk, Option.some_or] at hentry
    exact hentry
  | applyFirewall reqBody =>
    refine ⟨_, rfl, ?_⟩
    rw [Request.sets] at hk
    rw [firewallSettings, GoMap.lookup_overlay, hk, Option.some_or]
    exact Relation.ReflTransGen.refl
  | removeRootCa =>
    refine ⟨_, rfl, ?_⟩
    rw [Request.sets] at hk
    rw [detachedSettings, GoMap.lookup_overlay, hk, Option.some_or]
    exact Relation.ReflTransGen.refl

/-- The entry of the row a request stores. -/
theorem entry_after {r : Request} {row : Option Settings} {s : Settings}
    (h : r.written row = some s) (k : String) : entry (after r.store row) k = s.lookup k := by
  rw [entry, after, Request.store, h, Option.map_some, Option.getD_some, Option.getD_some]

/-- **A request keeps the keys it does not set**, as the normalisation leaves them. -/
theorem leftAs_kept {r : Request} {row : Settings} {k : String} (hk : r.sets.lookup k = none)
    (hkeeps : r.Keeps row k) : LeftAs k (row.lookup k) (entry (after r.store (some row)) k) := by
  cases r with
  | get scanFloat agent readFails =>
    obtain ⟨rfl, hmerge⟩ := hkeeps
    have hwritten : (Request.get scanFloat agent false).written (some row) =
        some (shownSettings scanFloat row agent) := rfl
    have hentry := leftAs_ensure k (Openvpn.mergeSettingsForDisplay scanFloat row agent)
    rw [Openvpn.lookup_mergeSettingsForDisplay, hmerge] at hentry
    rw [entry_after hwritten]
    exact hentry
  | getOffline => exact Relation.ReflTransGen.refl
  | post incoming readFails =>
    obtain rfl : readFails = false := hkeeps
    rw [Request.sets] at hk
    have hwritten : (Request.post incoming false).written (some row) =
        some (postedSettings row incoming) := rfl
    have hentry := leftAs_ensure k (GoMap.overlay row incoming)
    rw [GoMap.lookup_overlay, hk, Option.none_or] at hentry
    rw [entry_after hwritten]
    exact hentry
  | applyFirewall reqBody =>
    rw [Request.sets] at hk
    have hwritten : (Request.applyFirewall reqBody).written (some row) =
        some (firewallSettings row reqBody) := rfl
    rw [entry_after hwritten, firewallSettings, GoMap.lookup_overlay, hk, Option.none_or]
    exact Relation.ReflTransGen.refl
  | removeRootCa =>
    rw [Request.sets] at hk
    have hwritten : Request.removeRootCa.written (some row) = some (detachedSettings row) := rfl
    rw [entry_after hwritten, detachedSettings, GoMap.lookup_overlay, hk, Option.none_or]
    exact Relation.ReflTransGen.refl

/-! ### Two requests -/

/-- The steps of the two requests on the row. -/
def writeStep (reqs : Bool → Request) (s : State (Option Settings)) (e : Event) :
    Option (State (Option Settings)) :=
  ReadModifyWrite.step (fun i => (reqs i).store) s e

/-- A request that finds a row leaves one. -/
theorem isSome_after {r : Request} {row : Option Settings} (h : row.isSome = true) :
    (after r.store row).isSome = true := by
  rw [after, Request.store]
  cases hw : r.written row with
  | none => exact h
  | some s => rfl

/-- The read of an agent that does not answer leaves a row alone. -/
theorem getOffline_store {row : Option Settings} (h : row.isSome = true) :
    Request.getOffline.store row = none := by
  obtain ⟨settings, rfl⟩ := Option.isSome_iff_exists.1 h
  rfl

/-- The keys a request sets are in the row it stores. -/
theorem leftAs_after {r : Request} {k : String} {v : Json} (hk : r.sets.lookup k = some v)
    (row : Option Settings) : LeftAs k (some v) (entry (after r.store row) k) := by
  obtain ⟨s, hs, hleft⟩ := @leftAs_written r row k v hk
  rw [entry_after hs]
  exact hleft

/-- **Which keys survive two requests.** The keys of the request that stores last hold, and so do
those of a request when the other one only reads the settings of an agent that does not answer.
Where the last one has loaded the row after the other one stored, the other one's keys hold too,
unless the last one sets them or does not keep them. -/
theorem set_keys_survive {reqs : Bool → Request} {row : Option Settings} {events : List Event}
    {t : State (Option Settings)} (hdone : ∀ j, t.phase j = .finished)
    (hrun : Runs.run (writeStep reqs) (start row) events = some t) (i : Bool) :
    ([Event.store (!i), .store i].Sublist events ∨
        (reqs (!i) = .getOffline ∧ row.isSome = true) →
      ∀ k v, (reqs i).sets.lookup k = some v → LeftAs k (some v) (entry t.row k)) ∧
    ([Event.store (!i), .load i].Sublist events →
      ∀ k v, (reqs (!i)).sets.lookup k = some v → (reqs i).sets.lookup k = none →
        (∀ prev, (reqs (!i)).written row = some prev → (reqs i).Keeps prev k) →
        LeftAs k (some v) (entry t.row k)) := by
  obtain ⟨j, ⟨rfl, hrow⟩ | ⟨⟨l, rfl⟩, hrow⟩⟩ := ReadModifyWrite.schedule_of_run hdone hrun
  · -- one request after the other
    rw [hrow]
    rcases ReadModifyWrite.eq_or_eq_not i j with rfl | rfl
    · refine ⟨fun hlast k v hk => ?_, fun hafter => ?_⟩
      · rcases hlast with hlast | ⟨hoff, hsome⟩
        · exact absurd hlast (by cases j <;> decide)
        · have hleft := leftAs_after hk row
          rw [after, hoff, getOffline_store (isSome_after hsome), Option.getD_none]
          exact hleft
      · exact absurd hafter (by cases j <;> decide)
    · rw [Bool.not_not]
      refine ⟨fun _ k v hk => leftAs_after hk _, fun _ k v hk hnone hkeeps => ?_⟩
      obtain ⟨prev, hprev, hleft⟩ := @leftAs_written (reqs (!i)) row k v hk
      have hstored : after (reqs (!i)).store row = some prev := by
        rw [after, Request.store, hprev]
        rfl
      rw [hstored]
      exact hleft.trans (leftAs_kept hnone (hkeeps prev hprev))
  · -- both have loaded before the first one stores
    rw [hrow]
    rcases ReadModifyWrite.eq_or_eq_not i j with rfl | rfl
    · refine ⟨fun hlast k v hk => ?_, fun hafter => ?_⟩
      · rcases hlast with hlast | ⟨hoff, hsome⟩
        · exact absurd hlast (by cases j <;> cases l <;> decide)
        · rw [hoff, getOffline_store hsome, Option.getD_none]
          exact leftAs_after hk row
      · exact absurd hafter (by cases j <;> cases l <;> decide)
    · rw [Bool.not_not]
      refine ⟨fun _ k v hk => ?_, fun hafter => ?_⟩
      · obtain ⟨s, hs, hleft⟩ := @leftAs_written (reqs i) row k v hk
        have hstored : (reqs i).store row = some (some s) := by
          rw [Request.store, hs, Option.map_some]
        rw [hstored, Option.getD_some]
        exact hleft
      · exact absurd hafter (by cases i <;> cases l <;> decide)

/-- A save of the port and a save of the firewall. -/
private def portAndFirewall (i : Bool) : Request :=
  if i then .applyFirewall [] else .post (GoMap.ofList [("port", .str "1195")]) false

/-- The port and then the firewall. -/
theorem set_keys_survive_portAndFirewall :
    ∃ t, Runs.run (writeStep portAndFirewall) (start none)
        [.load false, .store false, .load true, .store true] = some t ∧
      LeftAs "port" (some (.str "1195")) (entry t.row "port") := by
  refine ⟨_, rfl, (@set_keys_survive portAndFirewall none
    [.load false, .store false, .load true, .store true] _ (fun j => ?_) rfl true).2 (by decide)
    "port" _ ?_ ?_ fun _ _ => trivial⟩
  · cases j <;> rfl
  · show (GoMap.ofList [("port", Json.str "1195")]).lookup "port" = some (.str "1195")
    decide +kernel
  · show (firewallPatch []).lookup "port" = none
    decide +kernel

/-- The normalisation does not touch the port. -/
theorem leftAs_port {x y : Option Json} (h : LeftAs "port" x y) : x = y := by
  induction h with
  | refl => rfl
  | tail _ hstep ih =>
    obtain ⟨m, rfl, rfl⟩ := hstep
    rw [ih, Openvpn.lookup_ensureOpenvpnSettingsReady]
    simp [Openvpn.readyEntry, Openvpn.defaultOf, Openvpn.materialDefault, Openvpn.blankDropped]

/-- **A saved port is lost**: a save of the firewall loads the row before the port is stored, and
stores after it. -/
theorem set_key_lost :
    ¬∀ (reqs : Bool → Request) (row : Option Settings) (events : List Event)
      (t : State (Option Settings)),
      (∀ j, t.phase j = .finished) → Runs.run (writeStep reqs) (start row) events = some t →
      ∀ i k v, (reqs i).sets.lookup k = some v →
        ∃ j w, (reqs j).sets.lookup k = some w ∧ LeftAs k (some w) (entry t.row k) := by
  intro h
  have hset : (portAndFirewall false).sets.lookup "port" = some (.str "1195") := by
    show (GoMap.ofList [("port", Json.str "1195")]).lookup "port" = some (.str "1195")
    decide +kernel
  have hunset : (portAndFirewall true).sets.lookup "port" = none := by
    show (firewallPatch []).lookup "port" = none
    decide +kernel
  obtain ⟨j, w, hw, hleft⟩ := h portAndFirewall (some (GoMap.ofList [("port", .str "1194")]))
    [.load false, .load true, .store false, .store true] _ (fun j => by cases j <;> rfl) rfl
    false "port" (.str "1195") hset
  have hport := leftAs_port hleft
  cases j with
  | true =>
    rw [hunset] at hw
    cases hw
  | false =>
    rw [← Option.some.inj (hset.symm.trans hw)] at hport
    have hold : some (Json.str "1195") =
        (firewallSettings (GoMap.ofList [("port", .str "1194")]) []).lookup "port" := hport
    exact absurd hold (by decide +kernel)

end OpenvpnControl.Panel
