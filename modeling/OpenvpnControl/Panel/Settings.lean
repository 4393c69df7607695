import OpenvpnControl.Panel.Db

/-!
# The settings handlers

The functions of the package `panel` that read, save and apply the settings of a node, save its
tunnel firewall and detach its root certificate. What each writes is a function of the stored
settings and the request; the handlers add the database, the agent and the task queue.

Every one of them loads the whole row of settings, computes a new one and stores it, and the source
drops the error of the first of these steps in three of them: a read that fails counts as a row
without settings. `SettingsEnv` lists what a request is answered, the errors that are dropped
included. The snapshot that a save enqueues runs in a goroutine of its own in the source; here it is
enqueued with the save, since nothing after it in the request reads the queue.

## Main definitions

* `shownSettings`, `postedSettings`, `firewallSettings`, `detachedSettings`: what the handlers
  write.
* `postPayload`: what a save sends to the agent.
* `getOpenvpnSettingsForPanel`, `postOpenvpnSettingsForPanel`, `applyFirewallConfigForPanel`,
  `removeRootCaForPanel`, `applyOpenvpnSettingsForPanel`: the handlers.

## Main results

* `post_of_ok`, `get_of_ok`, `applyFirewall_of_ok`, `removeRootCa_of_ok`, `apply_of_ok`: what a
  request that succeeds leaves.
-/

namespace OpenvpnControl.Panel

open Openvpn (Settings)
open Paneltasks (EnqueueEnv TaskType)

/-- What the database, the agent and the task queue answer to one request. -/
structure SettingsEnv where
  scanFloat : String → Option JsonNumber
  nodeError : Option String
  settingsError : Option String
  rootError : Option String
  writeError : Option String
  agentSettings : Except AgentError (List (String × Json))
  agentWrite : Except AgentError (List (String × Json))
  settingsRefsFail : Bool
  certRefsFail : Bool
  rootDeleteFails : Bool
  reloadFails : Bool
  taskEnv : TaskType → EnqueueEnv
  taskError : String

/-- The agent accepts everything and reports no settings, and the database executes every
statement. -/
def SettingsEnv.quiet : SettingsEnv where
  scanFloat _ := none
  nodeError := none
  settingsError := none
  rootError := none
  writeError := none
  agentSettings := .ok [("settings", .obj [])]
  agentWrite := .ok []
  settingsRefsFail := false
  certRefsFail := false
  rootDeleteFails := false
  reloadFails := false
  taskEnv _ := Paneltasks.longerIds
  taskError := ""

def strField (body : List (String × Json)) (key : String) : String :=
  GoStrings.trimSpace (Json.field body key).asString

/-! ### What is written -/

/-- The settings that `GetOpenvpnSettingsForPanel` writes back. -/
def shownSettings (scanFloat : String → Option JsonNumber) (prev agent : Settings) : Settings :=
  Openvpn.ensureOpenvpnSettingsReady (Openvpn.mergeSettingsForDisplay scanFloat prev agent)

/-- The settings that `PostOpenvpnSettingsForPanel` writes. -/
def postedSettings (prev incoming : Settings) : Settings :=
  Openvpn.ensureOpenvpnSettingsReady (GoMap.overlay prev incoming)

/-- What `PostOpenvpnSettingsForPanel` sends to the agent, if anything. Whether the push is skipped
is decided before the settings are made ready. -/
def postPayload (prev incoming : Settings) : Option Settings :=
  if Openvpn.skipAgentSettingsPush prev (GoMap.overlay prev incoming) incoming then none
  else if Openvpn.agentSettingsEqual prev (postedSettings prev incoming) then none
  else some (Openvpn.prepareAgentSettings (postedSettings prev incoming))

def firewallPatch (reqBody : List (String × Json)) : Settings :=
  let (policy, rules, natRules) := tunnelFromBody reqBody
  GoMap.ofList
    [("panelFirewallTunnelDefaultPolicy", .str policy.text),
      ("panelFirewallTunnelRules", .arr (rules.map (·.toJson))),
      ("panelFirewallTunnelNatRules", .arr (natRules.map (·.toJson)))]

/-- The settings that `ApplyFirewallConfigForPanel` writes. -/
def firewallSettings (prev : Settings) (reqBody : List (String × Json)) : Settings :=
  GoMap.overlay prev (firewallPatch reqBody)

def detachPatch : Settings :=
  GoMap.ofList [("panelRootCaId", .str ""), ("panelServerCertId", .str "")]

/-- The settings that `RemoveRootCaForPanel` writes. -/
def detachedSettings (prev : Settings) : Settings := GoMap.overlay prev detachPatch

/-! ### Reading the settings -/

def fallbackHints : List String :=
  ["Проверьте, что агент доступен по host/port и токену.",
    "Задайте на агенте OPENVPN_SERVER_CONF к пути server.conf."]

/-- The hints of a failed agent call. -/
def hintsOf : AgentError → List String
  | .answer _ _ hints _ => if hints = [] then fallbackHints else hints
  | .other _ => fallbackHints

def nonEmpty (s : String) : Option String := if s = "" then none else some s

/-- `GetOpenvpnSettingsForPanel`. When the agent answers, the merged settings are written back, and
an error of the read before is dropped. -/
def getOpenvpnSettingsForPanel (env : SettingsEnv) (db : Db) (nodeID : String) : Db × Result :=
  match env.nodeError, db.node nodeID with
  | some text, _ => (db, .error 500 text)
  | none, none => (db, .nodeNotFound)
  | none, some an =>
    match env.agentSettings with
    | .ok data =>
      match Json.field data "settings" with
      | .obj agentSettings =>
        let prev := if env.settingsError.isSome then ∅ else db.settingsOf an.id
        let merged := shownSettings env.scanFloat prev (GoMap.ofList agentSettings)
        let cp := nonEmpty (strField data "configPath")
        match env.writeError with
        | some text => (db, .error 500 text)
        | none => (db.upsertSettings an.id merged cp, ⟨200, .settings merged cp "agent" none⟩)
      | _ => (db, .error 502 "Некорректный ответ агента (settings)")
    | .error e =>
      match env.settingsError, db.loadSettingsRow an.id with
      | some text, _ => (db, .error 500 text)
      | none, some (prev, configPath) =>
        (db, ⟨200, .settings prev configPath "database" (some (hintsOf e))⟩)
      | none, none =>
        match env.writeError with
        | some text => (db, .error 500 text)
        | none =>
          (db.upsertSettings an.id Openvpn.initialServerSettings none,
            ⟨200, .settings Openvpn.initialServerSettings none "seed" (some (hintsOf e))⟩)

/-! ### Saving the settings -/

structure PostOutcome where
  db : Db
  result : Result
  accepted : Option Settings

/-- The second half of `PostOpenvpnSettingsForPanel`, after the agent. The snapshot is enqueued in
the background, and its error is logged. -/
def storePosted (env : SettingsEnv) (db : Db) (nodeID : String) (merged : Settings) : Db × Result :=
  match Paneltasks.enqueueOpenvpnMaterialSyncTasks env.taskEnv db.tasks nodeID merged with
  | (tasks, false) => ({ db with tasks := tasks }, .error 500 env.taskError)
  | (tasks, true) =>
    match env.writeError with
    | some text => ({ db with tasks := tasks }, .error 500 text)
    | none =>
      ((({ db with tasks := tasks } : Db).upsertSettings nodeID merged none).enqueueSnapshot
        (env.taskEnv .panelAgentSnapshot) nodeID, ⟨200, .ok⟩)

/-- `PostOpenvpnSettingsForPanel`; an error of the read of the stored settings is dropped. -/
def postOpenvpnSettingsForPanel (env : SettingsEnv) (db : Db) (nodeID : String)
    (reqBody : List (String × Json)) : PostOutcome :=
  match env.nodeError, db.node nodeID with
  | some text, _ => ⟨db, .error 500 text, none⟩
  | none, none => ⟨db, .nodeNotFound, none⟩
  | none, some an =>
    match Json.field reqBody "settings" with
    | .obj fields =>
      let incoming := GoMap.ofList fields
      let prev := if env.settingsError.isSome then ∅ else db.settingsOf an.id
      match postPayload prev incoming, env.agentWrite with
      | some _, .error e => ⟨db, mapAgentError e, none⟩
      | payload, _ =>
        let (db', result) := storePosted env db an.id (postedSettings prev incoming)
        ⟨db', result, payload⟩
    | _ => ⟨db, .error 400 "Требуется объект settings", none⟩

/-! ### The tunnel firewall -/

/-- `ApplyFirewallConfigForPanel`. The snapshot is enqueued in the background, and its error is
logged. -/
def applyFirewallConfigForPanel (env : SettingsEnv) (db : Db) (nodeID : String)
    (reqBody : List (String × Json)) : Db × Result :=
  match env.nodeError, db.node nodeID, env.settingsError with
  | some text, _, _ => (db, .error 500 text)
  | none, none, _ => (db, .nodeNotFound)
  | none, some _, some text => (db, .error 500 text)
  | none, some node, none =>
    match env.writeError with
    | some text => (db, .error 500 text)
    | none =>
      let prev := db.settingsOf node.id
      let (policy, rules, natRules) := tunnelFromBody reqBody
      let body := firewallBody ⟨node.id, node.name⟩ policy rules natRules (parseTunnelContext prev)
      ((db.upsertSettings node.id (firewallSettings prev reqBody) none).enqueueSnapshot
        (env.taskEnv .panelAgentSnapshot) node.id,
        ⟨200, .firewall body "Конфигурация tunnel firewall сохранена."⟩)

/-! ### Detaching the root certificate -/

/-- The trimmed root link of a settings row. -/
def linkedRoot (settings : Settings) : String := Paneltasks.trimmedSetting settings "panelRootCaId"

theorem linkedRoot_detachedSettings (prev : Settings) :
    linkedRoot (detachedSettings prev) = "" := by
  have hpatch : detachPatch.lookup "panelRootCaId" = some (.str "") := by decide +kernel
  rw [linkedRoot, Paneltasks.trimmedSetting, GoMap.get, detachedSettings,
    GoMap.lookup_overlay, hpatch, Option.some_or]
  decide +kernel

/-- `DELETE FROM "RootCertificateAuthority" WHERE id = $1`; the certificates of the root lose their
link. -/
def deleteRoot (db : Db) (rootID : String) : Db :=
  { db with
    roots := Rows.deleteWhere (fun r => r.id = rootID) db.roots
    certs := Rows.updateWhere (fun c => c.rootCaId = some rootID)
      (fun c => { c with rootCaId := none }) db.certs }

/-- Is the root linked by a settings row or a certificate? A count that fails reads as none. -/
def rootInUse (env : SettingsEnv) (db : Db) (rootID : String) : Bool :=
  (!env.settingsRefsFail && db.settings.any fun row => decide (linkedRoot row.settings = rootID)) ||
    (!env.certRefsFail && db.certs.any fun c => decide (c.rootCaId = some rootID))

/-- The transaction of `RemoveRootCaForPanel`: the certificates of the node and the root go, and the
links are blanked. -/
def detachRoot (db : Db) (nodeID rootID : String) : Db :=
  { db with
    certs := Rows.deleteWhere (fun c => c.agentNodeId = some nodeID ∧ c.rootCaId = some rootID)
      db.certs }.upsertSettings nodeID (detachedSettings (db.settingsOf nodeID)) none

/-- What `RemoveRootCaForPanel` does after its transaction: the root goes when nothing links it, and
the material tasks of the node are enqueued, whose error is logged. -/
def afterDetach (env : SettingsEnv) (db : Db) (nodeID rootID : String) (next : Settings) :
    Db × Settings :=
  let db := if rootInUse env db rootID ∨ env.rootDeleteFails then db else deleteRoot db rootID
  let merged := if env.reloadFails then next else db.settingsOf nodeID
  ({ db with
      tasks := (Paneltasks.enqueueOpenvpnMaterialSyncTasks env.taskEnv db.tasks nodeID merged).1 },
    merged)

def removeRootCaForPanel (env : SettingsEnv) (db : Db) (nodeID : String)
    (reqBody : List (String × Json)) : Db × Result :=
  let agentNodeID := GoStrings.trimSpace nodeID
  match env.nodeError, db.node agentNodeID, env.settingsError with
  | some text, _, _ => (db, .error 500 text)
  | none, none, _ => (db, .nodeNotFound)
  | none, some _, some text => (db, .error 500 text)
  | none, some _, none =>
    let prev := db.settingsOf agentNodeID
    let rootID := linkedRoot prev
    if rootID = "" then (db, .error 400 "Для этого сервера не задан корневой сертификат")
    else match env.rootError with
      | some text => (db, .error 500 text)
      | none =>
        let expectedCN := GoStrings.trimSpace (((db.root rootID).map (·.commonName)).getD "")
        if expectedCN = "" ∨ strField reqBody "confirmCommonName" ≠ expectedCN then
          (db, .error 400
            "Подтвердите удаление: введите точный Common Name (CN) корневого сертификата.")
        else match env.writeError with
          | some text => (db, .error 500 text)
          | none =>
            let (db', merged) :=
              afterDetach env (detachRoot db agentNodeID rootID) agentNodeID rootID
                (detachedSettings prev)
            (db', ⟨200, .removed merged⟩)

/-! ### Applying a configuration -/

/-- The settings that `ApplyOpenvpnSettingsForPanel` writes: the posted ones, and the agent's on top
when it answers. -/
def appliedSettings (env : SettingsEnv) (prev incoming : Settings) : Settings :=
  let settings := postedSettings prev incoming
  match env.agentSettings with
  | .ok agentData =>
    match Json.field agentData "settings" with
    | .obj snap => shownSettings env.scanFloat settings (GoMap.ofList snap)
    | _ => settings
  | .error _ => settings

def applyOpenvpnSettingsForPanel (env : SettingsEnv) (db : Db) (nodeID : String)
    (reqBody : List (String × Json)) : Db × Result :=
  match env.nodeError, db.node nodeID with
  | some text, _ => (db, .error 500 text)
  | none, none => (db, .nodeNotFound)
  | none, some an =>
    if strField reqBody "rawConfig" = "" then (db, .error 400 "Требуется rawConfig")
    else match env.agentWrite with
      | .error e => (db, mapAgentError e)
      | .ok applyData =>
        let prev := if env.settingsError.isSome then ∅ else db.settingsOf an.id
        let settings :=
          appliedSettings env prev (GoMap.ofList (Json.field reqBody "settings").asFields)
        let configPath := agentBodyString applyData "configPath"
        match env.writeError with
        | some text => (db, .error 500 text)
        | none =>
          (db.upsertSettings an.id settings (nonEmpty configPath),
            ⟨200, .applied "Конфигурация записана на агенте, OpenVPN перезапущен."
              (agentBodyString applyData "output") configPath settings⟩)

/-! ### What a handler leaves when it succeeds -/

variable {env : SettingsEnv} {db : Db} {nodeID : String} {reqBody : List (String × Json)}

/-- The stored settings where a failed read is dropped. -/
def SettingsEnv.prev (env : SettingsEnv) (db : Db) (nodeID : String) : Settings :=
  if env.settingsError.isSome then ∅ else db.settingsOf nodeID

/-- **A save that succeeds.** -/
theorem post_of_ok (h : (postOpenvpnSettingsForPanel env db nodeID reqBody).result.status = 200) :
    ∃ fields tasks, Json.field reqBody "settings" = .obj fields ∧
      let merged := postedSettings (env.prev db nodeID) (GoMap.ofList fields)
      Paneltasks.enqueueOpenvpnMaterialSyncTasks env.taskEnv db.tasks nodeID merged =
          (tasks, true) ∧
        (postOpenvpnSettingsForPanel env db nodeID reqBody).db =
          (({ db with tasks := tasks } : Db).upsertSettings nodeID merged none).enqueueSnapshot
            (env.taskEnv .panelAgentSnapshot) nodeID := by
  have hstore : ∀ (merged : Settings) (payload : Option Settings),
      (PostOutcome.mk (storePosted env db nodeID merged).1 (storePosted env db nodeID merged).2
        payload).result.status = 200 →
      ∃ tasks, Paneltasks.enqueueOpenvpnMaterialSyncTasks env.taskEnv db.tasks nodeID merged =
          (tasks, true) ∧
        (storePosted env db nodeID merged).1 =
          (({ db with tasks := tasks } : Db).upsertSettings nodeID merged none).enqueueSnapshot
            (env.taskEnv .panelAgentSnapshot) nodeID := by
    intro merged payload hok
    simp only [storePosted] at hok ⊢
    rcases henq : Paneltasks.enqueueOpenvpnMaterialSyncTasks env.taskEnv db.tasks nodeID merged with
      ⟨tasks, _ | _⟩
    · simp [henq, Result.error] at hok
    · rw [henq] at hok
      cases hwrite : env.writeError with
      | some text => simp [hwrite, Result.error] at hok
      | none => exact ⟨tasks, rfl, rfl⟩
  simp only [postOpenvpnSettingsForPanel] at h ⊢
  cases hnode : env.nodeError with
  | some text => simp [hnode, Result.error] at h
  | none =>
    cases han : db.node nodeID with
    | none => simp [hnode, han, Result.nodeNotFound, Result.error] at h
    | some an =>
      cases hbody : Json.field reqBody "settings" with
      | obj fields =>
        simp only [hnode, han, hbody, Db.node_id han] at h ⊢
        rw [← SettingsEnv.prev] at h ⊢
        cases hpay : postPayload (env.prev db nodeID) (GoMap.ofList fields) with
        | none =>
          rw [hpay] at h
          obtain ⟨tasks, henq, hdb⟩ := hstore _ _ h
          exact ⟨fields, tasks, rfl, henq, hdb⟩
        | some payload =>
          cases hwrite : env.agentWrite with
          | error e =>
            rw [hpay, hwrite] at h
            exact absurd h (mapAgentError_status_ne e)
          | ok data =>
            rw [hpay, hwrite] at h
            obtain ⟨tasks, henq, hdb⟩ := hstore _ _ h
            exact ⟨fields, tasks, rfl, henq, hdb⟩
      | _ => simp [hnode, han, hbody, Result.error] at h

/-- **A read that succeeds**: the agent has answered and the merged settings are written back, or it
has not, and the seed is written where there is no row. -/
theorem get_of_ok (h : (getOpenvpnSettingsForPanel env db nodeID).2.status = 200) :
    (∃ data agent cp, env.agentSettings = .ok data ∧ Json.field data "settings" = .obj agent ∧
        (getOpenvpnSettingsForPanel env db nodeID).1 =
          db.upsertSettings nodeID
            (shownSettings env.scanFloat (env.prev db nodeID) (GoMap.ofList agent)) cp) ∨
      (∃ e, env.agentSettings = .error e) ∧
        ((db.storedSettings nodeID).isSome ∧ (getOpenvpnSettingsForPanel env db nodeID).1 = db ∨
          db.storedSettings nodeID = none ∧ (getOpenvpnSettingsForPanel env db nodeID).1 =
            db.upsertSettings nodeID Openvpn.initialServerSettings none) := by
  simp only [getOpenvpnSettingsForPanel] at h ⊢
  cases hnode : env.nodeError with
  | some text => simp [hnode, Result.error] at h
  | none =>
    cases han : db.node nodeID with
    | none => simp [hnode, han, Result.nodeNotFound, Result.error] at h
    | some an =>
      cases hagent : env.agentSettings with
      | ok data =>
        cases hdata : Json.field data "settings" with
        | obj agent =>
          cases hwrite : env.writeError with
          | some text => simp [hnode, han, hagent, hdata, hwrite, Result.error] at h
          | none =>
            refine Or.inl ⟨data, agent, nonEmpty (strField data "configPath"), rfl, hdata, ?_⟩
            simp only [hdata, Db.node_id han, SettingsEnv.prev]
        | _ => simp [hnode, han, hagent, hdata, Result.error] at h
      | error e =>
        cases hread : env.settingsError with
        | some text => simp [hnode, han, hagent, hread, Result.error] at h
        | none =>
          simp only [Db.node_id han]
          cases hrow : db.loadSettingsRow nodeID with
          | some row =>
            exact Or.inr ⟨⟨e, rfl⟩, Or.inl ⟨by simp [Db.storedSettings, hrow], rfl⟩⟩
          | none =>
            cases hwrite : env.writeError with
            | some text =>
              simp [hnode, han, hagent, hread, Db.node_id han, hrow, hwrite, Result.error] at h
            | none => exact Or.inr ⟨⟨e, rfl⟩, Or.inr ⟨by simp [Db.storedSettings, hrow], rfl⟩⟩

theorem applyFirewall_of_ok
    (h : (applyFirewallConfigForPanel env db nodeID reqBody).2.status = 200) :
    (applyFirewallConfigForPanel env db nodeID reqBody).1 =
      (db.upsertSettings nodeID (firewallSettings (db.settingsOf nodeID) reqBody)
        none).enqueueSnapshot (env.taskEnv .panelAgentSnapshot) nodeID := by
  simp only [applyFirewallConfigForPanel] at h ⊢
  cases hnode : env.nodeError with
  | some text => simp [hnode, Result.error] at h
  | none =>
    cases han : db.node nodeID with
    | none => simp [hnode, han, Result.nodeNotFound, Result.error] at h
    | some an =>
      cases hread : env.settingsError with
      | some text => simp [hnode, han, hread, Result.error] at h
      | none =>
        cases hwrite : env.writeError with
        | some text => simp [hnode, han, hread, hwrite, Result.error] at h
        | none => simp only [Db.node_id han]

/-- **Detaching a root certificate** is refused and leaves the database alone, or goes through. -/
theorem removeRootCa_cases (env : SettingsEnv) (db : Db) (nodeID : String)
    (reqBody : List (String × Json)) :
    let agentNodeID := GoStrings.trimSpace nodeID
    let prev := db.settingsOf agentNodeID
    (removeRootCaForPanel env db nodeID reqBody).2.status ≠ 200 ∧
        (removeRootCaForPanel env db nodeID reqBody).1 = db ∨
      linkedRoot prev ≠ "" ∧ (db.node agentNodeID).isSome ∧
        (removeRootCaForPanel env db nodeID reqBody).1 =
          (afterDetach env (detachRoot db agentNodeID (linkedRoot prev)) agentNodeID
            (linkedRoot prev) (detachedSettings prev)).1 := by
  simp only [removeRootCaForPanel]
  cases hnode : env.nodeError with
  | some text => exact Or.inl ⟨by simp [Result.error], rfl⟩
  | none =>
    cases han : db.node (GoStrings.trimSpace nodeID) with
    | none => exact Or.inl ⟨by simp [Result.nodeNotFound, Result.error], rfl⟩
    | some an =>
      cases hread : env.settingsError with
      | some text => exact Or.inl ⟨by simp [Result.error], rfl⟩
      | none =>
        dsimp only
        by_cases hroot : linkedRoot (db.settingsOf (GoStrings.trimSpace nodeID)) = ""
        · rw [if_pos hroot]
          exact Or.inl ⟨by simp [Result.error], rfl⟩
        · rw [if_neg hroot]
          cases hrootRead : env.rootError with
          | some text => exact Or.inl ⟨by simp [Result.error], rfl⟩
          | none =>
            dsimp only
            split_ifs with hcn
            · exact Or.inl ⟨by simp [Result.error], rfl⟩
            · cases hwrite : env.writeError with
              | some text => exact Or.inl ⟨by simp [Result.error], rfl⟩
              | none => exact Or.inr ⟨hroot, rfl, rfl⟩

theorem removeRootCa_of_ok (h : (removeRootCaForPanel env db nodeID reqBody).2.status = 200) :
    let agentNodeID := GoStrings.trimSpace nodeID
    let prev := db.settingsOf agentNodeID
    linkedRoot prev ≠ "" ∧ (removeRootCaForPanel env db nodeID reqBody).1 =
      (afterDetach env (detachRoot db agentNodeID (linkedRoot prev)) agentNodeID (linkedRoot prev)
        (detachedSettings prev)).1 := by
  rcases removeRootCa_cases env db nodeID reqBody with ⟨hne, -⟩ | ⟨hroot, -, hdb⟩
  · exact absurd h hne
  · exact ⟨hroot, hdb⟩

theorem apply_of_ok (h : (applyOpenvpnSettingsForPanel env db nodeID reqBody).2.status = 200) :
    ∃ cp, (applyOpenvpnSettingsForPanel env db nodeID reqBody).1 =
      db.upsertSettings nodeID (appliedSettings env (env.prev db nodeID)
        (GoMap.ofList (Json.field reqBody "settings").asFields)) cp := by
  simp only [applyOpenvpnSettingsForPanel] at h ⊢
  cases hnode : env.nodeError with
  | some text => simp [hnode, Result.error] at h
  | none =>
    cases han : db.node nodeID with
    | none => simp [hnode, han, Result.nodeNotFound, Result.error] at h
    | some an =>
      by_cases hraw : strField reqBody "rawConfig" = ""
      · simp [hnode, han, hraw, Result.error] at h
      · simp only [hnode, han, if_neg hraw, Db.node_id han] at h ⊢
        cases hagent : env.agentWrite with
        | error e =>
          rw [hagent] at h
          exact absurd h (mapAgentError_status_ne e)
        | ok data =>
          cases hwrite : env.writeError with
          | some text => simp [hagent, hwrite, Result.error] at h
          | none => exact ⟨nonEmpty (agentBodyString data "configPath"), rfl⟩

end OpenvpnControl.Panel
