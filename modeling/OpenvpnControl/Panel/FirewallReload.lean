import OpenvpnControl.Firewall.StoredFormat
import OpenvpnControl.Panel.Settings

/-!
# Checking, saving and reloading the tunnel firewall

The panel normalises the tunnel firewall of a request when it checks or saves it, and again when it
reads the stored settings. This file proves that both give the same answer, and that a second save
changes nothing.

## Main definitions

* `Db.read`: the settings as the panel reads them.
* `checkFirewallConfigForPanel`, `getFirewallConfig`: the handlers beside
  `applyFirewallConfigForPanel`.
* `firewallKeys`: the keys that a save sets.

## Main results

* `normalizeFirewallBaseRules_toJson`, `normalizeFirewallNatRules_toJson`: normalised rules are read
  as they are.
* `getFirewallConfigForPanel_firewallSettings`: stored settings show the firewall of the request.
* `status_apply_iff`: when a save succeeds.
* `check_save_reload`: check, save and reload show the same firewall.
-/

namespace OpenvpnControl.Panel

open Openvpn (Settings)
open Firewall (FirewallRule FirewallNatRule Policy trimmed str)

/-! ### Reading -/

/-- The settings as `loadSettingsRow` reads them: its error is dropped, and numbers are `float64`. A
row without an object is read as one without settings. -/
def Db.read (db : Db) : Db :=
  { db with
    settings := db.settings.map fun row =>
      { row with settings := row.settings.mapValues Json.unmarshalDropped } }

theorem Db.loadSettingsRow_read (db : Db) (k : String) :
    db.read.loadSettingsRow k =
      (db.loadSettingsRow k).map fun row => (row.1.mapValues Json.unmarshalDropped, row.2) := by
  rw [loadSettingsRow, read, loadSettingsRow, Rows.byKey, Rows.byKey, List.find?_map,
    Option.map_map, Option.map_map]
  rfl

/-- Reading is not seen twice. -/
theorem mapValues_unmarshalDropped (m : Settings) :
    (m.mapValues Json.unmarshalDropped).mapValues Json.unmarshalDropped =
    m.mapValues Json.unmarshalDropped := by
  refine GoMap.ext_lookup fun k => ?_
  rw [GoMap.lookup_mapValues, GoMap.lookup_mapValues, Option.map_map]
  exact congrArg (fun f => Option.map f (m.lookup k))
    (funext Json.unmarshalDropped_unmarshalDropped)

/-! ### The handlers -/

def checkFirewallConfigForPanel (env : SettingsEnv) (db : Db) (nodeID : String)
    (reqBody : List (String × Json)) :
    Result :=
  match env.nodeError, db.node nodeID, env.settingsError with
  | some text, _, _ => .error 500 text
  | none, none, _ => .nodeNotFound
  | none, some _, some text => .error 500 text
  | none, some node, none =>
    let (policy, rules, natRules) := tunnelFromBody reqBody
    let tunnelContext := parseTunnelContext (db.settingsOf node.id)
    ⟨200, .firewall (firewallBody ⟨node.id, node.name⟩ policy rules natRules tunnelContext)
      "Конфигурация tunnel firewall валидна."⟩

/-- `GetFirewallConfigForPanel`: an error, or the body that is answered with status 200. -/
def getFirewallConfig (env : SettingsEnv) (db : Db) (nodeID : String) :
    Except Result FirewallBody :=
  match env.nodeError, db.node nodeID, env.settingsError with
  | some text, _, _ => .error (.error 500 text)
  | none, none, _ => .error .nodeNotFound
  | none, some _, some text => .error (.error 500 text)
  | none, some node, none =>
    .ok (getFirewallConfigForPanel ⟨node.id, node.name⟩ (db.storedSettings node.id))

/-- The body of a request for a node with some settings. -/
def requestedFirewall (node : AgentNode) (settings : Settings) (reqBody : List (String × Json)) :
    FirewallBody :=
  let (policy, rules, natRules) := tunnelFromBody reqBody
  firewallBody ⟨node.id, node.name⟩ policy rules natRules (parseTunnelContext settings)

/-- The firewall that an answer shows. -/
def shownFirewall : Result → Option FirewallBody
  | ⟨_, .firewall body _⟩ => some body
  | _ => none

/-- The database reads the node and its settings. -/
def SettingsEnv.Reads (env : SettingsEnv) : Prop := env.nodeError = none ∧ env.settingsError = none

instance (env : SettingsEnv) : Decidable env.Reads := inferInstanceAs (Decidable (_ ∧ _))

section Handlers

variable {env : SettingsEnv} {db : Db} {nodeID : String} {reqBody : List (String × Json)}
  {node : AgentNode}

/-- **What a check shows.** -/
theorem shownFirewall_check (hnode : db.node nodeID = some node) (hreads : env.Reads) :
    shownFirewall (checkFirewallConfigForPanel env db nodeID reqBody) =
      some (requestedFirewall node (db.settingsOf nodeID) reqBody) := by
  rw [checkFirewallConfigForPanel, hnode, hreads.1, hreads.2, requestedFirewall]
  obtain ⟨policy, rules, natRules⟩ := tunnelFromBody reqBody
  simp only [shownFirewall, Db.node_id hnode]

/-- **What a save shows.** -/
theorem shownFirewall_apply (hnode : db.node nodeID = some node) (hreads : env.Reads)
    (hwrite : env.writeError = none) :
    shownFirewall (applyFirewallConfigForPanel env db nodeID reqBody).2 =
      some (requestedFirewall node (db.settingsOf nodeID) reqBody) := by
  rw [applyFirewallConfigForPanel, hnode, hreads.1, hreads.2, hwrite, requestedFirewall]
  obtain ⟨policy, rules, natRules⟩ := tunnelFromBody reqBody
  simp only [shownFirewall, Db.node_id hnode]

/-- **What a read shows.** -/
theorem getFirewallConfig_eq (hnode : db.node nodeID = some node) (hreads : env.Reads) :
    getFirewallConfig env db nodeID =
      .ok (getFirewallConfigForPanel ⟨node.id, node.name⟩ (db.storedSettings nodeID)) := by
  rw [getFirewallConfig, hnode, hreads.1, hreads.2]
  simp only [Db.node_id hnode]

/-- A save succeeds exactly when the node exists and the database executes every statement. -/
theorem status_apply_iff : (applyFirewallConfigForPanel env db nodeID reqBody).2.status = 200 ↔
    (∃ node, db.node nodeID = some node) ∧ env.Reads ∧ env.writeError = none := by
  rw [applyFirewallConfigForPanel, SettingsEnv.Reads]
  cases hread : env.nodeError with
  | some text => simp [Result.error]
  | none =>
    cases hnode : db.node nodeID with
    | none => simp [Result.nodeNotFound, Result.error]
    | some node =>
      cases hsettings : env.settingsError with
      | some text => simp [Result.error]
      | none => cases hwrite : env.writeError <;> simp [Result.error]

end Handlers

/-! ### Normalised rules -/

@[simp] theorem equalFold_text (a : Firewall.Action) :
    (if GoStrings.equalFold a.text "deny" then Firewall.Action.deny else .allow) = a := by
  cases a <;> decide

@[simp] theorem normalizeFirewallDefaultPolicy_text (p : Policy) :
    normalizeFirewallDefaultPolicy (.str p.text) = p := by
  cases p <;> decide

@[simp] theorem ofText_trimSpace_text (p : Firewall.Proto) :
    Firewall.Proto.ofText (GoStrings.toLower (GoStrings.trimSpace p.text)) = p := by
  cases p <;> decide +kernel

@[simp] theorem ofText_trimSpace_natType (t : Firewall.NatType) :
    Firewall.NatType.ofText (GoStrings.toLower (GoStrings.trimSpace t.text)) = t := by
  cases t <;> decide +kernel

/-- A numbered id. -/
theorem numbered {pre : String} (hne : pre ≠ "")
    (hpre : ∀ c ∈ pre.toList, GoStrings.isSpace c = false) (n : ℕ) :
    pre ++ Nat.repr n ≠ "" ∧ GoStrings.trimSpace (pre ++ Nat.repr n) = pre ++ Nat.repr n := by
  refine ⟨fun h => hne (String.append_eq_empty_iff.1 h).1,
    GoStrings.trimSpace_eq_self fun c hc => ?_⟩
  rw [String.toList_append, List.mem_append, Nat.toList_repr] at hc
  obtain hc | hc := hc
  · exact hpre c hc
  · have hdigit := Nat.isDigit_of_mem_toDigits (by decide) (by decide) hc
    rw [Char.isDigit, Bool.and_eq_true, decide_eq_true_eq, decide_eq_true_eq] at hdigit
    have hlow : 48 ≤ c.toNat := hdigit.1
    have hhigh : c.toNat ≤ 57 := hdigit.2
    have hspace : c ≠ ' ' := by
      rintro rfl
      exact absurd hlow (by decide)
    simp only [GoStrings.isSpace, hspace, decide_false, Bool.false_or,
      Bool.or_eq_false_iff, Bool.and_eq_false_iff, decide_eq_false_iff_not]
    omega

/-- The id of a normalised row. -/
theorem id_normalised {pre : String} (hne : pre ≠ "")
    (hpre : ∀ c ∈ pre.toList, GoStrings.isSpace c = false)
    (n : ℕ) (src : List (String × Json)) {id : String}
    (h : (if trimmed src "id" = "" then pre ++ Nat.repr n else trimmed src "id") = id) :
    id ≠ "" ∧ GoStrings.trimSpace id = id := by
  subst h
  split_ifs with hid
  · exact numbered hne hpre n
  · exact ⟨hid, Firewall.trimSpace_trimmed src _⟩

/-- **A normal rule is read as it is**, wherever it stands. -/
theorem normalizeFirewallRule_toJson {r : FirewallRule} (h : r.Normal)
    (htrim : GoStrings.trimSpace r.id = r.id) (i : ℕ) :
    normalizeFirewallRule r.toJson.asFields i = r := by
  have hid : trimmed r.toJson.asFields "id" = r.id := htrim
  have haction : str r.toJson.asFields "action" = r.action.text := rfl
  have hproto : trimmed r.toJson.asFields "proto" = GoStrings.trimSpace r.proto.text := rfl
  have hdestination : trimmed r.toJson.asFields "destination" = r.destination := h.destination
  have hports : trimmed r.toJson.asFields "ports" = r.ports := h.ports
  have hnote : trimmed r.toJson.asFields "note" = r.note := h.note
  rw [normalizeFirewallRule, hid, if_neg h.id, haction, equalFold_text, hproto,
    ofText_trimSpace_text, hdestination, hports, hnote]

/-- What the panel makes of a row is a normal rule. -/
theorem normal_normalizeFirewallRule (src : List (String × Json)) (i : ℕ) :
    (normalizeFirewallRule src i).Normal ∧
      GoStrings.trimSpace (normalizeFirewallRule src i).id = (normalizeFirewallRule src i).id := by
  have hidEq : (if trimmed src "id" = "" then "rule-" ++ Nat.repr (i + 1) else trimmed src "id") =
      (normalizeFirewallRule src i).id := by
    rw [normalizeFirewallRule]
  obtain ⟨hid, htrim⟩ := id_normalised (by decide) (by decide) (i + 1) src hidEq
  refine ⟨⟨hid, ?_, ?_, ?_⟩, htrim⟩ <;>
  · rw [normalizeFirewallRule]
    exact Firewall.trimSpace_trimmed src _

/-- A device is opened under one name. -/
theorem linuxDevice_linuxDevice {t : String} (ht : GoStrings.trimSpace t = t) :
    GoStrings.trimSpace (Firewall.linuxDevice t) = Firewall.linuxDevice t ∧
      Firewall.linuxDevice (Firewall.linuxDevice t) = Firewall.linuxDevice t := by
  by_cases htun : GoStrings.toLower t = "tun"
  · rw [Firewall.linuxDevice.eq_def t, if_pos htun]
    decide +kernel
  · by_cases htap : GoStrings.toLower t = "tap"
    · rw [Firewall.linuxDevice.eq_def t, if_neg htun, if_pos htap]
      decide +kernel
    · have hself : Firewall.linuxDevice t = t := by
        rw [Firewall.linuxDevice, if_neg htun, if_neg htap]
      rw [hself, hself]
      exact ⟨ht, rfl⟩

/-- **A normal translation is read as it is**, wherever it stands. -/
theorem normalizeFirewallNatRule_toJson {r : FirewallNatRule} (h : r.Normal)
    (htrim : GoStrings.trimSpace r.id = r.id)
    (hdevice : Firewall.linuxDevice r.outInterface = r.outInterface) (i : ℕ) :
    normalizeFirewallNatRule r.toJson.asFields i = r := by
  have hid : trimmed r.toJson.asFields "id" = r.id := htrim
  have htype : trimmed r.toJson.asFields "type" = GoStrings.trimSpace r.type.text := rfl
  have hsrc : trimmed r.toJson.asFields "src" = r.src := h.src
  have hdst : trimmed r.toJson.asFields "dst" = r.dst := h.dst
  have hout : trimmed r.toJson.asFields "outInterface" = r.outInterface := h.outInterface
  have hto : trimmed r.toJson.asFields "toAddress" = r.toAddress := h.toAddress
  have hnote : trimmed r.toJson.asFields "note" = r.note := h.note
  have hiface : (if r.outInterface = "" then "" else linuxIfaceFromOpenvpnDev r.outInterface) =
      r.outInterface := by
    split_ifs with hempty
    · exact hempty.symm
    · rw [linuxIfaceFromOpenvpnDev, h.outInterface, if_neg hempty, hdevice]
  rw [normalizeFirewallNatRule, hid, if_neg h.id, htype, ofText_trimSpace_natType, hsrc, hdst,
    hout, hiface, hto, hnote]

/-- What the panel makes of a row is a normal translation. -/
theorem normal_normalizeFirewallNatRule (src : List (String × Json)) (i : ℕ) :
    (normalizeFirewallNatRule src i).Normal ∧
      GoStrings.trimSpace (normalizeFirewallNatRule src i).id =
      (normalizeFirewallNatRule src i).id ∧
      Firewall.linuxDevice (normalizeFirewallNatRule src i).outInterface =
        (normalizeFirewallNatRule src i).outInterface := by
  have hidEq : (if trimmed src "id" = "" then "nat-" ++ Nat.repr (i + 1) else trimmed src "id") =
      (normalizeFirewallNatRule src i).id := by
    rw [normalizeFirewallNatRule]
  obtain ⟨hid, htrim⟩ := id_normalised (by decide) (by decide) (i + 1) src hidEq
  have hout := Firewall.trimSpace_trimmed src "outInterface"
  have hiface : (normalizeFirewallNatRule src i).outInterface =
      if trimmed src "outInterface" = "" then ""
      else Firewall.linuxDevice (trimmed src "outInterface") := by
    rw [normalizeFirewallNatRule]
    dsimp only
    split_ifs with hempty
    · rfl
    · rw [linuxIfaceFromOpenvpnDev, hout, if_neg hempty]
  have hdevice : GoStrings.trimSpace (normalizeFirewallNatRule src i).outInterface =
        (normalizeFirewallNatRule src i).outInterface ∧
      Firewall.linuxDevice (normalizeFirewallNatRule src i).outInterface =
        (normalizeFirewallNatRule src i).outInterface := by
    rw [hiface]
    split_ifs
    · decide +kernel
    · exact linuxDevice_linuxDevice hout
  refine ⟨⟨hid, ?_, ?_, hdevice.1, ?_, ?_⟩, htrim, hdevice.2⟩ <;>
  · rw [normalizeFirewallNatRule]
    exact Firewall.trimSpace_trimmed src _

/-! ### Lists of rules -/

/-- A loop that leaves every element of a list alone leaves the list alone. -/
theorem map_zipIdx_toJson {α : Type} {norm : List (String × Json) → ℕ → α} {toJson : α → Json}
    {rules : List α} (h : ∀ r ∈ rules, ∀ i, norm (toJson r).asFields i = r) :
    ((Json.arr (rules.map toJson)).asSlice.elems.zipIdx.map fun (row, i) =>
      norm row.asFields i) = rules := by
  have hmap :=
    @Firewall.filterMap_zipIdx_map _ _ (fun i (row : Json) =>
      some (norm row.asFields i)) toJson rules
    fun r hr i => congrArg some (h r hr i)
  exact (congrFun List.filterMap_eq_map _).symm.trans hmap

/-- **Normalised rules are read as they are.** -/
theorem normalizeFirewallBaseRules_toJson (raw : Json) :
    normalizeFirewallBaseRules (.arr ((normalizeFirewallBaseRules raw).map (·.toJson))) =
      normalizeFirewallBaseRules raw := by
  rw [normalizeFirewallBaseRules.eq_def (.arr _)]
  refine map_zipIdx_toJson fun r hr i => ?_
  rw [normalizeFirewallBaseRules, List.mem_map] at hr
  obtain ⟨⟨row, j⟩, -, rfl⟩ := hr
  obtain ⟨hnormal, htrim⟩ := normal_normalizeFirewallRule row.asFields j
  exact normalizeFirewallRule_toJson hnormal htrim i

/-- **Normalised translations are read as they are.** -/
theorem normalizeFirewallNatRules_toJson (raw : Json) :
    normalizeFirewallNatRules (.arr ((normalizeFirewallNatRules raw).map (·.toJson))) =
      normalizeFirewallNatRules raw := by
  rw [normalizeFirewallNatRules.eq_def (.arr _)]
  refine map_zipIdx_toJson fun r hr i => ?_
  rw [normalizeFirewallNatRules, List.mem_map] at hr
  obtain ⟨⟨row, j⟩, -, rfl⟩ := hr
  obtain ⟨hnormal, htrim, hdevice⟩ := normal_normalizeFirewallNatRule row.asFields j
  exact normalizeFirewallNatRule_toJson hnormal htrim hdevice i

/-! ### The stored settings -/

/-- The keys that `ApplyFirewallConfigForPanel` sets. -/
def firewallKeys : List String :=
  ["panelFirewallTunnelDefaultPolicy", "panelFirewallTunnelRules", "panelFirewallTunnelNatRules"]

/-- What a request sets under each key. -/
theorem lookup_firewallPatch (reqBody : List (String × Json)) (k : String) :
    (firewallPatch reqBody).lookup k =
      if k = "panelFirewallTunnelDefaultPolicy" then some (.str (tunnelFromBody reqBody).1.text)
      else if k = "panelFirewallTunnelRules" then
      some (.arr ((tunnelFromBody reqBody).2.1.map (·.toJson)))
      else if k = "panelFirewallTunnelNatRules" then
      some (.arr ((tunnelFromBody reqBody).2.2.map (·.toJson)))
      else none := by
  rw [firewallPatch]
  obtain ⟨policy, rules, natRules⟩ := tunnelFromBody reqBody
  simp only [GoMap.lookup_ofList_cons, GoMap.lookup_ofList_nil]

/-- The other keys stay as they are. -/
theorem lookup_firewallSettings_of_not_mem {k : String} (hk : k ∉ firewallKeys) (prev : Settings)
    (reqBody : List (String × Json)) :
    (firewallSettings prev reqBody).lookup k = prev.lookup k := by
  simp only [firewallKeys, List.mem_cons, List.not_mem_nil, or_false, not_or] at hk
  rw [firewallSettings, GoMap.lookup_overlay, lookup_firewallPatch, if_neg hk.1,
    if_neg hk.2.1, if_neg hk.2.2, Option.none_or]

/-- The tunnel stays as it is. -/
theorem parseTunnelContext_firewallSettings (prev : Settings) (reqBody : List (String × Json)) :
    parseTunnelContext (firewallSettings prev reqBody) = parseTunnelContext prev := by
  have hdev := @lookup_firewallSettings_of_not_mem "dev" (by decide) prev reqBody
  have hserver := @lookup_firewallSettings_of_not_mem "server" (by decide) prev reqBody
  rw [parseTunnelContext, parseTunnelContext, GoMap.get, GoMap.get, GoMap.get,
    GoMap.get, hdev, hserver]

/-- **Stored settings show the firewall of the request.** -/
theorem getFirewallConfigForPanel_firewallSettings (node : AgentNode) (prev : Settings)
    (reqBody : List (String × Json)) :
    getFirewallConfigForPanel ⟨node.id, node.name⟩ (some (firewallSettings prev reqBody)) =
      requestedFirewall node prev reqBody := by
  have hpolicy : (firewallSettings prev reqBody).get "panelFirewallTunnelDefaultPolicy" =
      .str (tunnelFromBody reqBody).1.text := by
    rw [GoMap.get, firewallSettings, GoMap.lookup_overlay, lookup_firewallPatch,
      if_pos rfl, Option.some_or, Option.getD_some]
  have hrules : (firewallSettings prev reqBody).get "panelFirewallTunnelRules" =
      .arr ((tunnelFromBody reqBody).2.1.map (·.toJson)) := by
    rw [GoMap.get, firewallSettings, GoMap.lookup_overlay, lookup_firewallPatch,
      if_neg (by decide), if_pos rfl, Option.some_or, Option.getD_some]
  have hnat : (firewallSettings prev reqBody).get "panelFirewallTunnelNatRules" =
      .arr ((tunnelFromBody reqBody).2.2.map (·.toJson)) := by
    rw [GoMap.get, firewallSettings, GoMap.lookup_overlay, lookup_firewallPatch, if_neg (by decide),
      if_neg (by decide), if_pos rfl, Option.some_or, Option.getD_some]
  have hrules' :=
    normalizeFirewallBaseRules_toJson (Json.field (Json.field reqBody "tunnel").asFields "rules")
  have hnat' :=
    normalizeFirewallNatRules_toJson (Json.field (Json.field reqBody "tunnel").asFields "natRules")
  rw [getFirewallConfigForPanel, Option.getD_some, hpolicy, hrules, hnat,
    parseTunnelContext_firewallSettings]
  simp only [Json.isNull, Bool.false_eq_true, if_false, normalizeFirewallDefaultPolicy_text,
    requestedFirewall, tunnelFromBody, hrules', hnat']

/-- **A second save** changes nothing. -/
theorem firewallSettings_firewallSettings (prev : Settings) (reqBody : List (String × Json)) :
    firewallSettings (firewallSettings prev reqBody) reqBody = firewallSettings prev reqBody := by
  refine GoMap.ext_lookup fun k => ?_
  simp only [firewallSettings, GoMap.lookup_overlay]
  cases (firewallPatch reqBody).lookup k <;> rfl

/-- What a save stores is read as it is. -/
theorem mapValues_firewallSettings {prev : Settings}
    (hprev : prev.mapValues Json.unmarshalDropped = prev) (reqBody : List (String × Json)) :
    (firewallSettings prev reqBody).mapValues Json.unmarshalDropped =
    firewallSettings prev reqBody := by
  have hrule : ∀ rules : List FirewallRule,
      (Json.arr (rules.map (·.toJson))).unmarshalDropped = .arr (rules.map (·.toJson)) :=
      fun rules => by
    rw [Json.unmarshalDropped, Json.unmarshalDroppedList_eq_map, List.map_map]
    rfl
  have hnat : ∀ rules : List FirewallNatRule,
      (Json.arr (rules.map (·.toJson))).unmarshalDropped = .arr (rules.map (·.toJson)) :=
      fun rules => by
    rw [Json.unmarshalDropped, Json.unmarshalDroppedList_eq_map, List.map_map]
    rfl
  have hpatch : ∀ k, ((firewallPatch reqBody).lookup k).map Json.unmarshalDropped =
      (firewallPatch reqBody).lookup k := by
    intro k
    rw [lookup_firewallPatch]
    split_ifs
    · rfl
    · exact congrArg some (hrule _)
    · exact congrArg some (hnat _)
    · rfl
  refine GoMap.ext_lookup fun k => ?_
  have hlookup := congrArg (Finmap.lookup k) hprev
  rw [GoMap.lookup_mapValues] at hlookup
  rw [GoMap.lookup_mapValues, firewallSettings, GoMap.lookup_overlay,
    Option.map_or, hpatch, hlookup]

/-! ### Check, save and reload -/

section Requests

variable {env : SettingsEnv} {db : Db} {nodeID : String} {reqBody : List (String × Json)}

theorem settingsOf_read (db : Db) (k : String) :
    db.read.settingsOf k = (db.settingsOf k).mapValues Json.unmarshalDropped := by
  rw [Db.settingsOf, Db.storedSettings, Db.loadSettingsRow_read, Db.settingsOf, Db.storedSettings]
  cases db.loadSettingsRow k <;> rfl

/-- The row of a node after a save, and the other rows. -/
theorem loadSettingsRow_apply (h : (applyFirewallConfigForPanel env db nodeID reqBody).2.status =
    200) (k : String) :
    (applyFirewallConfigForPanel env db nodeID reqBody).1.loadSettingsRow k =
      if k = nodeID then
        some (firewallSettings (db.settingsOf nodeID) reqBody,
        (db.loadSettingsRow nodeID).bind Prod.snd)
      else db.loadSettingsRow k := by
  rw [applyFirewall_of_ok h]
  exact Db.loadSettingsRow_upsertSettings db nodeID _ none k

/-- The rows after a save are read as they are stored. -/
theorem loadSettingsRow_read_apply
    (h : (applyFirewallConfigForPanel env db.read nodeID reqBody).2.status = 200) (k : String) :
    (applyFirewallConfigForPanel env db.read nodeID reqBody).1.read.loadSettingsRow k =
      (applyFirewallConfigForPanel env db.read nodeID reqBody).1.loadSettingsRow k := by
  rw [Db.loadSettingsRow_read, loadSettingsRow_apply h]
  split_ifs with hk
  · have hprev : (db.read.settingsOf nodeID).mapValues Json.unmarshalDropped =
        db.read.settingsOf nodeID := by
      rw [settingsOf_read, mapValues_unmarshalDropped]
    rw [Option.map_some, mapValues_firewallSettings hprev]
  · rw [Db.loadSettingsRow_read, Option.map_map]
    exact congrArg (fun f => Option.map f (db.loadSettingsRow k))
      (funext fun row => Prod.ext (mapValues_unmarshalDropped row.1) rfl)

/-- **Check, save and reload** show the same firewall; the save changes the three keys of the node
only, and a second one changes nothing. -/
theorem check_save_reload
    (h : (applyFirewallConfigForPanel env db.read nodeID reqBody).2.status = 200) :
    let saved := (applyFirewallConfigForPanel env db.read nodeID reqBody).1
    ∃ body, shownFirewall (applyFirewallConfigForPanel env db.read nodeID reqBody).2 = some body ∧
      (∀ env' : SettingsEnv, env'.Reads →
        shownFirewall (checkFirewallConfigForPanel env' db.read nodeID reqBody) = some body) ∧
      (∀ env' : SettingsEnv, env'.Reads → getFirewallConfig env' saved.read nodeID = .ok body) ∧
      (∀ k ∉ firewallKeys, (saved.read.settingsOf nodeID).lookup k =
        (db.read.settingsOf nodeID).lookup k) ∧
      (∀ other ≠ nodeID, saved.read.loadSettingsRow other = db.read.loadSettingsRow other) ∧
      ∀ env' : SettingsEnv, env'.Reads → env'.writeError = none →
        shownFirewall (applyFirewallConfigForPanel env' saved.read nodeID reqBody).2 = some body ∧
          ∀ other,
          (applyFirewallConfigForPanel env' saved.read nodeID reqBody).1.loadSettingsRow other =
            saved.loadSettingsRow other := by
  intro saved
  obtain ⟨⟨node, hnode⟩, hreads, hwrite⟩ := status_apply_iff.1 h
  have hsaved : saved.read.node nodeID = some node := by
    have hdb : saved = _ := applyFirewall_of_ok h
    rw [hdb]
    exact hnode
  have hrow := loadSettingsRow_apply h
  have hread := loadSettingsRow_read_apply h
  have hstored : saved.read.storedSettings nodeID =
      some (firewallSettings (db.read.settingsOf nodeID) reqBody) := by
    rw [Db.storedSettings, hread, hrow, if_pos rfl, Option.map_some]
  have hsettings : saved.read.settingsOf nodeID = firewallSettings
      (db.read.settingsOf nodeID) reqBody := by
    rw [Db.settingsOf, hstored, Option.getD_some]
  have hagain : requestedFirewall node (saved.read.settingsOf nodeID) reqBody =
      requestedFirewall node (db.read.settingsOf nodeID) reqBody := by
    rw [hsettings, requestedFirewall, requestedFirewall, parseTunnelContext_firewallSettings]
  refine ⟨_, shownFirewall_apply hnode hreads hwrite, fun env' hreads' =>
    shownFirewall_check hnode hreads', ?_, ?_, ?_, ?_⟩
  · intro env' hreads'
    rw [getFirewallConfig_eq hsaved hreads', hstored, getFirewallConfigForPanel_firewallSettings]
  · intro k hk
    rw [hsettings, lookup_firewallSettings_of_not_mem hk]
  · intro other hother
    rw [hread, hrow, if_neg hother]
  · intro env' hreads' hwrite'
    have h' : (applyFirewallConfigForPanel env' saved.read nodeID reqBody).2.status = 200 :=
      status_apply_iff.2 ⟨⟨node, hsaved⟩, hreads', hwrite'⟩
    refine ⟨(shownFirewall_apply hsaved hreads' hwrite').trans (congrArg some hagain),
      fun other => ?_⟩
    rw [loadSettingsRow_apply h', hsettings, firewallSettings_firewallSettings, hread,
      hread, hrow, hrow, if_pos rfl]
    split_ifs with hother
    · rfl
    · rfl

end Requests

/-- A node whose settings hold a number out of the range of `float64`. -/
def numberedDb : Db :=
  { Db.empty with
    nodes := [⟨"n1", "node"⟩]
    settings :=
      [⟨"n1", GoMap.ofList [("keepalive", .num (.ofDecimal false 1 400)), ("dev", .str "tun")],
        none⟩] }

/-- A request with a rule and a translation without ids. -/
def numberedBody : List (String × Json) :=
  [("tunnel",
    .obj [("defaultPolicy", .str "Allow"), ("rules", .arr [.obj [("proto", .str " UDP")]]),
    ("natRules", .arr [.obj [("outInterface", .str "TUN")]])])]

/-- The node of `numberedDb` keeps its other settings. -/
theorem check_save_reload_numbered :
    ∃ body, shownFirewall (applyFirewallConfigForPanel .quiet numberedDb.read "n1" numberedBody).2 =
      some body ∧ getFirewallConfig .quiet
        (applyFirewallConfigForPanel .quiet numberedDb.read "n1" numberedBody).1.read "n1" =
        .ok body := by
  obtain ⟨body, hbody, -, hget, -⟩ := @check_save_reload .quiet numberedDb "n1" numberedBody rfl
  exact ⟨body, hbody, hget .quiet (by decide)⟩

end OpenvpnControl.Panel
