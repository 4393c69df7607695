import OpenvpnControl.Library.Runs
import OpenvpnControl.Panel.Settings

/-!
# Panel and agent after saves of the settings

A save stores the posted settings and sends the agent what it may see of them, unless it decides
that nothing the agent sees has changed. It decides so before the settings are normalised, and the
stored settings may be normalised nevertheless. This file says when the agent still holds what the
panel has stored.

## Main definitions

* `agentView`: the part of a payload that is neither panel data nor a material path.
* `PanelAgents`, `save`: the database and the payload each agent last accepted, and one save.
* `Agrees`: the agent of a node holds what the panel has stored.
* `KeepsAgent`: the saves after which it still does.

## Main results

* `agrees_of_saves`: every run of such saves keeps the agreement.
* `agreement_lost`: saves of the other kinds that lose it.
-/

namespace OpenvpnControl.Panel

open Openvpn

/-- Is the key neither panel data nor a material path? -/
def agentVisible (k : String) : Bool := !isPanelMetadataOrMaterialPath k

/-- The part of a payload that is neither panel data nor a material path. -/
def agentView (payload : Settings) : Settings := payload.filterKeys agentVisible

/-- The database and, for each node, the payload its agent last accepted. -/
structure PanelAgents where
  db : Db
  accepted : String → Settings

/-- A call of `PostOpenvpnSettingsForPanel`. -/
structure PostCall where
  env : SettingsEnv
  nodeID : String
  reqBody : List (String × Json)

/-- The agent of the node holds what the panel has stored. -/
def Agrees (nodeID : String) (p : PanelAgents) : Prop :=
  agentView (p.accepted nodeID) = agentView (prepareAgentSettings (p.db.settingsOf nodeID))

instance (nodeID : String) (p : PanelAgents) : Decidable (Agrees nodeID p) := by
  unfold Agrees
  infer_instance

/-- What the call answers and leaves. -/
def PostCall.outcome (c : PostCall) (db : Db) : PostOutcome :=
  postOpenvpnSettingsForPanel c.env db c.nodeID c.reqBody

/-- One call; the agent stores exactly what it accepts. -/
def save (p : PanelAgents) (c : PostCall) : Option PanelAgents :=
  some
    { db := (c.outcome p.db).db
      accepted := fun n =>
        if n = c.nodeID then ((c.outcome p.db).accepted).getD (p.accepted n) else p.accepted n }

/-- The stored settings are as the normalisation leaves them, as far as the agent sees, and no key
that the agent sees is posted as `null` where none is stored. -/
structure Settled (prev incoming : Settings) : Prop where
  normal : agentView (prepareAgentSettings (normalizeServerSettings prev)) =
    agentView (prepareAgentSettings prev)
  noNull : ∀ k, agentVisible k = true → incoming.lookup k = some .null → prev.lookup k ≠ none

/-- The call reads the stored settings, does not fail after the agent has accepted its payload, and
skips the push only for settled settings. -/
structure KeepsAgent (db : Db) (c : PostCall) : Prop where
  reads : c.env.settingsError = none
  completes : (c.outcome db).accepted.isSome → (c.outcome db).result.status = 200
  settled : ∀ fields, Json.field c.reqBody "settings" = .obj fields →
    let prev := db.settingsOf c.nodeID
    let incoming := GoMap.ofList fields
    skipAgentSettingsPush prev (GoMap.overlay prev incoming) incoming = true → Settled prev incoming

/-! ### What a save leaves -/

theorem storePosted_cases (env : SettingsEnv) (db : Db) (nodeID : String) (merged : Settings) :
    ((storePosted env db nodeID merged).2.status = 200 ∧
        ∀ n, (storePosted env db nodeID merged).1.settingsOf n =
          if n = nodeID then merged else db.settingsOf n) ∨
      ((storePosted env db nodeID merged).2.status ≠ 200 ∧
        ∀ n, (storePosted env db nodeID merged).1.settingsOf n = db.settingsOf n) := by
  rw [storePosted]
  rcases henq : Paneltasks.enqueueOpenvpnMaterialSyncTasks env.taskEnv db.tasks nodeID merged with
    ⟨tasks, _ | _⟩
  · exact Or.inr ⟨by simp [Result.error], fun n => rfl⟩
  · cases env.writeError with
    | some text => exact Or.inr ⟨by simp [Result.error], fun n => rfl⟩
    | none =>
      refine Or.inl ⟨rfl, fun n => ?_⟩
      rw [Db.settingsOf_enqueueSnapshot, Db.settingsOf_upsertSettings]
      rfl

/-- The stored settings as the call reads them. -/
def PostCall.prev (c : PostCall) (db : Db) : Settings :=
  if c.env.settingsError.isSome then ∅ else db.settingsOf c.nodeID

/-- **What a call of `PostOpenvpnSettingsForPanel` leaves**: it is refused and changes nothing, or
the payload of the merged settings has been accepted and the merged settings are stored if the call
succeeds. -/
theorem outcome_cases (db : Db) (c : PostCall) :
    ((c.outcome db).accepted = none ∧ (c.outcome db).db = db) ∨
      ∃ fields, Json.field c.reqBody "settings" = .obj fields ∧
        (c.outcome db).accepted = postPayload (c.prev db) (GoMap.ofList fields) ∧
        (((c.outcome db).result.status = 200 ∧ ∀ n, (c.outcome db).db.settingsOf n =
            if n = c.nodeID then postedSettings (c.prev db) (GoMap.ofList fields)
            else db.settingsOf n) ∨
          ((c.outcome db).result.status ≠ 200 ∧
            ∀ n, (c.outcome db).db.settingsOf n = db.settingsOf n)) := by
  simp only [PostCall.outcome, PostCall.prev, postOpenvpnSettingsForPanel]
  cases c.env.nodeError with
  | some text => exact Or.inl ⟨rfl, rfl⟩
  | none =>
    cases han : db.node c.nodeID with
    | none => exact Or.inl ⟨rfl, rfl⟩
    | some an =>
      have hid := Db.node_id han
      cases hbody : Json.field c.reqBody "settings" with
      | obj fields =>
        simp only [hid]
        generalize hprev : (if c.env.settingsError.isSome then ∅ else db.settingsOf c.nodeID) = prev
        have hstore := storePosted_cases c.env db c.nodeID
          (postedSettings prev (GoMap.ofList fields))
        cases hpay : postPayload prev (GoMap.ofList fields) with
        | none => exact Or.inr ⟨fields, rfl, hpay.symm, hstore⟩
        | some payload =>
          cases c.env.agentWrite with
          | error e => exact Or.inl ⟨rfl, rfl⟩
          | ok data => exact Or.inr ⟨fields, rfl, hpay.symm, hstore⟩
      | _ => exact Or.inl ⟨rfl, rfl⟩

/-! ### The part the agent sees -/

theorem agentView_eq_iff {s t : Settings} :
    agentView s = agentView t ↔ ∀ k, agentVisible k = true → s.lookup k = t.lookup k := by
  constructor
  · intro h k hk
    have hlook := congrArg (fun m : Settings => m.lookup k) h
    simpa only [agentView, GoMap.lookup_filterKeys, hk, if_true] using hlook
  · intro h
    refine GoMap.ext_lookup fun k => ?_
    rw [agentView, agentView, GoMap.lookup_filterKeys, GoMap.lookup_filterKeys]
    split_ifs with hk
    · exact h k hk
    · rfl

/-- The keys the normalisation of the material paths writes are not seen by the agent. -/
theorem lookup_postedSettings_of_visible {prev incoming : Settings} {k : String}
    (hk : agentVisible k = true) :
    (postedSettings prev incoming).lookup k =
      (normalizeServerSettings (GoMap.overlay prev incoming)).lookup k := by
  rw [postedSettings, ensureOpenvpnSettingsReady, lookup_ensureMaterialPaths]
  have hmat : materialDefault k = none := by
    by_contra hne
    have hpath : k ∈ materialPathKeys := by
      simp only [materialDefault] at hne
      split_ifs at hne <;> simp_all [materialPathKeys]
    simp [agentVisible, isPanelMetadataOrMaterialPath, hpath] at hk
  rw [hmat]

/-- The normalisation of a key the agent sees reads that key and `data-ciphers` only. -/
theorem lookup_normalizeServerSettings_congr {s t : Settings} {k : String}
    (hk : s.lookup k = t.lookup k) (hdc : s.lookup "data-ciphers" = t.lookup "data-ciphers") :
    (normalizeServerSettings s).lookup k = (normalizeServerSettings t).lookup k := by
  rw [lookup_normalizeServerSettings, lookup_normalizeServerSettings, hk, hdc]

/-- What the agent is sent under a key it sees. -/
theorem lookup_prepareAgentSettings {s : Settings} {k : String} (hk : agentVisible k = true) :
    (prepareAgentSettings s).lookup k =
      if k ∈ panelOnlyKeys ∨
          (k = "auth" ∧ dataCiphersUseAuth (settingStr s "data-ciphers") = false) then none
      else s.lookup k := by
  simp only [agentVisible, isPanelMetadataOrMaterialPath, Bool.not_or, Bool.and_eq_true,
    Bool.not_eq_true', decide_eq_false_iff_not] at hk
  rw [lookup_prepare]
  simp only [Withheld, hk.1, hk.2, Bool.false_eq_true, false_and, false_or]

theorem agentView_prepare_congr {s t : Settings}
    (h : ∀ k, agentVisible k = true → k ∉ panelOnlyKeys → s.lookup k = t.lookup k) :
    agentView (prepareAgentSettings s) = agentView (prepareAgentSettings t) := by
  rw [agentView_eq_iff]
  intro k hk
  have hdc : settingStr s "data-ciphers" = settingStr t "data-ciphers" := by
    rw [settingStr, settingStr, h "data-ciphers" (by decide) (by decide)]
  rw [lookup_prepareAgentSettings hk, lookup_prepareAgentSettings hk, hdc]
  by_cases hclient : k ∈ panelOnlyKeys
  · simp [hclient]
  · rw [h k hk hclient]

/-- When the push is skipped, the merged settings are the stored ones under every key the agent
sees. -/
theorem lookup_overlay_of_skip {prev incoming : Settings} {k : String}
    (hskip : skipAgentSettingsPush prev (GoMap.overlay prev incoming) incoming = true)
    (hk : agentVisible k = true) (hnull : incoming.lookup k = some .null → prev.lookup k ≠ none) :
    (GoMap.overlay prev incoming).lookup k = prev.lookup k := by
  rw [GoMap.lookup_overlay]
  cases hin : incoming.lookup k with
  | none => exact Option.none_or
  | some v =>
    have hmem : k ∈ incoming := Finmap.lookup_isSome.1 (by rw [hin]; rfl)
    have hhidden : isPanelMetadataOrMaterialPath k = false := by
      simpa [agentVisible] using hk
    rw [skipAgentSettingsPush, Bool.or_eq_true] at hskip
    rcases hskip with hall | hchanged
    · -- the request holds nothing but panel data and material paths
      rw [incomingIsPanelMetadataOrMaterialPathsOnly, decide_eq_true_iff] at hall
      rw [hall.2 k (Finmap.mem_keys.2 hmem)] at hhidden
      cases hhidden
    · rw [onlyPanelMetadataAndMaterialPathsChanged, decide_eq_true_iff] at hchanged
      have hover : (GoMap.overlay prev incoming).lookup k = some v := by
        rw [GoMap.lookup_overlay, hin, Option.some_or]
      have hover_mem : k ∈ (GoMap.overlay prev incoming).keys :=
        Finmap.mem_keys.2 (Finmap.lookup_isSome.1 (by rw [hover]; rfl))
      have hequal := hchanged k (Finset.mem_union_right _ hover_mem)
      rw [hhidden, hover, jsonEqual, decide_eq_true_iff] at hequal
      rw [Option.some_or]
      cases hprev : prev.lookup k with
      | none =>
        rw [hprev] at hequal hnull
        have hv : Json.null = v := by simpa using hequal
        exact absurd rfl (hnull (by rw [hin, hv]))
      | some w =>
        rw [hprev] at hequal
        have hw : w = v := by simpa using hequal
        rw [hw]

/-- **A skipped push loses nothing** when the settings are settled. -/
theorem agentView_postedSettings_of_skip {prev incoming : Settings}
    (hskip : skipAgentSettingsPush prev (GoMap.overlay prev incoming) incoming = true)
    (hsettled : Settled prev incoming) :
    agentView (prepareAgentSettings (postedSettings prev incoming)) =
      agentView (prepareAgentSettings prev) := by
  rw [← hsettled.normal]
  refine agentView_prepare_congr fun k hk _ => ?_
  rw [lookup_postedSettings_of_visible hk]
  exact lookup_normalizeServerSettings_congr
    (lookup_overlay_of_skip hskip hk (hsettled.noNull k hk))
    (lookup_overlay_of_skip hskip (by decide) (hsettled.noNull _ (by decide)))

/-! ### Runs of saves -/

/-- **One save.** -/
theorem agrees_of_save {nodeID : String} {p q : PanelAgents} {c : PostCall}
    (hagrees : Agrees nodeID p) (hok : c.nodeID = nodeID → KeepsAgent p.db c)
    (hsave : save p c = some q) : Agrees nodeID q := by
  obtain rfl := Option.some.inj hsave
  have hcases := outcome_cases p.db c
  by_cases hnode : nodeID = c.nodeID
  swap
  · -- the save is of another node
    have hset : (c.outcome p.db).db.settingsOf nodeID = p.db.settingsOf nodeID := by
      rcases hcases with ⟨-, hdb⟩ | ⟨fields, -, -, ⟨-, hset⟩ | ⟨-, hset⟩⟩
      · rw [hdb]
      · rw [hset, if_neg hnode]
      · rw [hset]
    simpa only [Agrees, hset, if_neg hnode] using hagrees
  subst hnode
  have hkeep := hok rfl
  have hprev : c.prev p.db = p.db.settingsOf c.nodeID := by
    rw [PostCall.prev, hkeep.reads]
    rfl
  rw [hprev] at hcases
  rcases hcases with ⟨hacc, hdb⟩ | ⟨fields, hbody, hacc, hstore⟩
  · simpa only [Agrees, hacc, hdb, if_true, Option.getD_none] using hagrees
  have hsettled := hkeep.settled fields hbody
  simp only [Agrees, if_true]
  cases hpay : postPayload (p.db.settingsOf c.nodeID) (GoMap.ofList fields) with
  | none =>
    rw [hacc, hpay, Option.getD_none]
    rcases hstore with ⟨-, hset⟩ | ⟨-, hset⟩
    · rw [hset, if_pos rfl, hagrees]
      rw [postPayload] at hpay
      split_ifs at hpay with hskip hequal
      · exact (agentView_postedSettings_of_skip hskip (hsettled hskip)).symm
      · rw [agentSettingsEqual, decide_eq_true_iff] at hequal
        rw [hequal]
    · rw [hset]
      exact hagrees
  | some payload =>
    have hstatus := hkeep.completes (by rw [hacc, hpay]; rfl)
    rw [hacc, hpay, Option.getD_some]
    rcases hstore with ⟨-, hset⟩ | ⟨hfail, -⟩
    · rw [hset, if_pos rfl]
      rw [postPayload] at hpay
      split_ifs at hpay
      rw [← Option.some.inj hpay]
    · exact absurd hstatus hfail

/-- **Panel and agent do not drift apart** in a run of saves whose calls on the node all keep the
agent. -/
theorem agrees_of_saves {nodeID : String} {p q : PanelAgents} {calls : List PostCall}
    (hagrees : Agrees nodeID p)
    (hok : Runs.Meets save (fun p c => c.nodeID = nodeID → KeepsAgent p.db c) p calls)
    (hrun : Runs.run save p calls = some q) : Agrees nodeID q :=
  Runs.run_invariant_of_meets (fun _ _ _ => agrees_of_save) hagrees hok hrun

/-- A database with one node and the given settings. -/
private def oneNode (settings : Settings) : Db :=
  { Db.empty with nodes := [⟨"n1", "node"⟩], settings := [⟨"n1", settings, none⟩] }

/-- A save of the given settings on that node. -/
private def saveOf (env : SettingsEnv) (fields : List (String × Json)) : PostCall :=
  ⟨env, "n1", [("settings", .obj fields)]⟩

/-- Settings in normal form. -/
private def normalSettings : Settings :=
  GoMap.ofList [("data-ciphers", .str "AES-256-GCM"), ("tls-version-min", .str "1.2")]

/-- A pushed save and then a skipped one. -/
theorem agrees_of_saves_port_policy :
    ∃ q, Runs.run save ⟨oneNode normalSettings, fun _ => normalSettings⟩
        [saveOf .quiet [("port", .str "1195")],
          saveOf .quiet [("panelFirewallDefaultPolicy", .str "allow")]] = some q ∧
      Agrees "n1" q := by
  have hagrees : Agrees "n1" ⟨oneNode normalSettings, fun _ => normalSettings⟩ := by
    decide +kernel
  have hok : Runs.Meets save (fun p c => c.nodeID = "n1" → KeepsAgent p.db c)
      ⟨oneNode normalSettings, fun _ => normalSettings⟩
      [saveOf .quiet [("port", .str "1195")],
        saveOf .quiet [("panelFirewallDefaultPolicy", .str "allow")]] := by
    refine ⟨fun _ => ⟨rfl, fun _ => by decide +kernel, fun fields hfields hskip => ?_⟩,
      fun p hp => ⟨fun _ => ?_, fun _ _ => trivial⟩⟩
    · obtain rfl := Json.obj.inj hfields
      exact absurd hskip (by decide +kernel)
    · obtain rfl := Option.some.inj hp
      refine ⟨rfl, fun _ => by decide +kernel, fun fields hfields hskip => ?_⟩
      obtain rfl := Json.obj.inj hfields
      refine ⟨by decide +kernel, fun k _ hk => ?_⟩
      rw [GoMap.lookup_ofList_cons] at hk
      split_ifs at hk
      · cases hk
      · rw [GoMap.lookup_ofList_nil] at hk
        cases hk
  exact ⟨_, rfl, agrees_of_saves hagrees hok rfl⟩

/-- Does the node's agent hold what is stored before the run, and not after a last save that
succeeds? -/
private def drifts (p : PanelAgents) (calls : List PostCall) (last : PostCall) : Bool :=
  decide (Agrees "n1" p) && (Runs.run save p calls).any fun q =>
    decide ((last.outcome q.db).result.status = 200) &&
      (save q last).any fun q' => !decide (Agrees "n1" q')

/-- **Saves that lose the agreement**: a skipped push of settings that are not in normal form; a key
posted as `null` where none is stored; a failed read of the stored settings; and a save that fails
after the agent accepted, before a skipped one. -/
theorem agreement_lost :
    drifts ⟨oneNode ∅, fun _ => ∅⟩ []
        (saveOf .quiet [("panelFirewallDefaultPolicy", .str "allow")]) = true ∧
      drifts ⟨oneNode normalSettings, fun _ => normalSettings⟩ []
        (saveOf .quiet [("port", .null)]) = true ∧
      drifts ⟨oneNode (normalSettings.insert "port" (.str "1194")),
          fun _ => normalSettings.insert "port" (.str "1194")⟩ []
        (saveOf { SettingsEnv.quiet with settingsError := some "timeout" }
          [("panelFirewallDefaultPolicy", .str "allow")]) = true ∧
      drifts ⟨oneNode normalSettings, fun _ => normalSettings⟩
        [saveOf { SettingsEnv.quiet with writeError := some "timeout" } [("port", .str "1195")]]
        (saveOf .quiet [("panelFirewallDefaultPolicy", .str "allow")]) = true := by
  refine ⟨?_, ?_, ?_, ?_⟩ <;> decide +kernel

end OpenvpnControl.Panel
