import OpenvpnControl.Library.Json

/-!
# OpenVPN settings of a node

The settings of a node are a JSON object. This file holds the functions of the package `openvpn`
that read one setting as text, fill in defaults, drop blank directives, merge the stored settings
with those of the agent, and prepare what is sent to the agent.

A loop over a map is written with `GoMap.range`, so its result does not depend on the order in
which Go visits the keys. `fmt.Sscanf` with `%f` is the parameter `scanFloat`; nothing here depends
on which texts it accepts.

## Main definitions

* `settingStr`: the text of a setting.
* `normalizeServerSettings`, `ensureMaterialPaths`: the two halves of `ensureOpenvpnSettingsReady`.
* `mergeSettingsForDisplay`: the stored settings under those of the agent.
* `prepareAgentSettings`, `skipAgentSettingsPush`, `agentSettingsEqual`: what the agent is sent, and
  when.

## Main results

* `lookup_mergeSettingsForDisplay`: the merge, key by key.
* `lookup_ensureOpenvpnSettingsReady`: the normalisation, key by key.
-/

namespace OpenvpnControl.Openvpn

/-- A JSON object of settings. -/
abbrev Settings : Type := GoMap Json

/-! ### The text of a setting -/

/-- The text of a directive: line breaks and surrounding white space and quotes are removed. -/
def cleanText (s : String) : String :=
  GoStrings.trimSpace (GoStrings.trimSet ['"']
    (GoStrings.replaceChar '\r' [] (GoStrings.replaceChar '\n' [' '] (GoStrings.trimSpace s))))

/-- The text of an entry, where an absent entry and `null` read as `""`. -/
def settingText : Option Json → String
  | none => ""
  | some v => if v.isNull then "" else cleanText v.sprint

def settingStr (settings : Settings) (key : String) : String := settingText (settings.lookup key)

@[simp] theorem settingText_none : settingText none = "" := rfl

@[simp] theorem settingText_null : settingText (some .null) = "" := rfl

@[simp] theorem settingText_str (s : String) : settingText (some (.str s)) = cleanText s := by
  simp [settingText, Json.isNull]

/-- A blank text is cleaned to the empty text. -/
theorem cleanText_of_blank {s : String} (h : GoStrings.trimSpace s = "") : cleanText s = "" := by
  simp only [cleanText, h, GoStrings.replaceChar_empty, GoStrings.trimSet_empty,
    GoStrings.trimSpace_empty]

/-- A text with a character that is neither white space nor a quote is not cleaned away. -/
theorem cleanText_ne_empty {s : String} {c : Char} (hc : c ∈ s.toList)
    (hspace : GoStrings.isSpace c = false) (hquote : c ≠ '"') : cleanText s ≠ "" := by
  have hn : c ≠ '\n' := by
    rintro rfl
    cases hspace
  have hr : c ≠ '\r' := by
    rintro rfl
    cases hspace
  have hmem : c ∈ (cleanText s).toList := by
    simp only [cleanText, GoStrings.trimSpace, GoStrings.trimSet, GoStrings.replaceChar,
      String.toList_ofList]
    refine GoStrings.mem_trimList (GoStrings.mem_trimList ?_ (by simpa using hquote)) hspace
    refine GoStrings.mem_replaceList.2 (Or.inr ⟨GoStrings.mem_replaceList.2 (Or.inr ⟨?_, hn⟩), hr⟩)
    exact GoStrings.mem_trimList hc hspace
  intro h
  rw [h] at hmem
  cases hmem

/-- `settings[key] = value` when the text of the entry is blank. -/
def fillBlank (key value : String) (settings : Settings) : Settings :=
  if settingStr settings key = "" then settings.insert key (.str value) else settings

/-- `delete(settings, key)` when the text of the entry is blank. -/
def dropBlank (key : String) (settings : Settings) : Settings :=
  if settingStr settings key = "" then settings.erase key else settings

theorem lookup_fillBlank (key value : String) (settings : Settings) (k : String) :
    (fillBlank key value settings).lookup k =
      if k = key ∧ settingText (settings.lookup key) = "" then some (.str value)
      else settings.lookup k := by
  rw [fillBlank, settingStr]
  split_ifs with h hk hk
  · rw [GoMap.lookup_insert_eq, if_pos hk.1]
  · rw [GoMap.lookup_insert_eq, if_neg fun hkey => hk ⟨hkey, h⟩]
  · exact absurd hk.2 h
  · rfl

theorem lookup_dropBlank (key : String) (settings : Settings) (k : String) :
    (dropBlank key settings).lookup k =
      if k = key ∧ settingText (settings.lookup key) = "" then none else settings.lookup k := by
  rw [dropBlank, settingStr]
  split_ifs with h hk hk
  · rw [GoMap.lookup_erase_eq, if_pos hk.1]
  · rw [GoMap.lookup_erase_eq, if_neg fun hkey => hk ⟨hkey, h⟩]
  · exact absurd hk.2 h
  · rfl

/-! ### Defaults -/

/-- `dataCiphersUseAuth`: does one of the data ciphers need a separate HMAC? -/
def dataCiphersUseAuth (dc : String) : Bool :=
  let low := GoStrings.toLower (GoStrings.trimSpace dc)
  if low = "" then true
  else if GoStrings.contains low "cbc" then true
  else if GoStrings.contains low "gcm" then false
  else true

def ensureServerCryptoDefaults (settings : Settings) : Settings :=
  let settings := fillBlank "data-ciphers" "AES-256-GCM:AES-128-GCM" settings
  let settings := fillBlank "tls-version-min" "1.2" settings
  let settings := dropBlank "cipher" settings
  if dataCiphersUseAuth (settingStr settings "data-ciphers") then
    fillBlank "auth" "SHA256" settings
  else settings

/-- `NormalizeManagementValue`: `host:port` is written `host port`. -/
def normalizeManagementValue (raw : String) : String :=
  let raw := GoStrings.trimSpace raw
  if raw = "" then ""
  else if GoStrings.contains raw " " then raw
  else match GoStrings.splitHostPort raw with
    | some (host, port) => if host ≠ "" ∧ port ≠ "" then host ++ " " ++ port else raw
    | none => raw

def normalizeManagementSetting (settings : Settings) : Settings :=
  let raw := settingStr settings "management"
  if raw = "" then settings else settings.insert "management" (.str (normalizeManagementValue raw))

def normalizeTunnelSetting (settings : Settings) : Settings :=
  dropBlank "group" (dropBlank "user" (dropBlank "fragment" settings))

def normalizeOptionalDirectives (settings : Settings) : Settings :=
  ["verify-x509-name", "comp-lzo", "allow-compression"].foldl (fun s k => dropBlank k s) settings

def normalizeServerSettings (settings : Settings) : Settings :=
  normalizeOptionalDirectives (normalizeTunnelSetting (normalizeManagementSetting
    (ensureServerCryptoDefaults settings)))

/-- `settings[key] = value` when the panel link is set and the path is blank. -/
def fillLinked (link key value : String) (settings : Settings) : Settings :=
  if settingStr settings link ≠ "" then fillBlank key value settings else settings

/-- `EnsureMaterialPaths`. No path is a link, so the link may be tested for each path. -/
def ensureMaterialPaths (settings : Settings) : Settings :=
  let settings := fillLinked "panelRootCaId" "ca" "/etc/openvpn/ca.crt" settings
  let settings := fillLinked "panelRootCaId" "crl-verify" "/etc/openvpn/crl.pem" settings
  let settings := fillLinked "panelServerCertId" "cert" "/etc/openvpn/server.crt" settings
  let settings := fillLinked "panelServerCertId" "key" "/etc/openvpn/server.key" settings
  let settings := fillLinked "panelDhMaterialId" "dh" "/etc/openvpn/dh.pem" settings
  fillLinked "panelTlsAuthMaterialId" "tls-auth" "/etc/openvpn/ta.key 0" settings

def ensureOpenvpnSettingsReady (settings : Settings) : Settings :=
  ensureMaterialPaths (normalizeServerSettings settings)

/-- A number of a seed, written `mant · 10 ^ exp`. -/
private def seedNum (mant : ℕ) (exp : ℤ) (h : mant % 10 = 0 → mant = 0 ∧ exp = 0) : Json :=
  .num ⟨false, mant, exp, fun h' => ⟨(h h').1, (h h').2, rfl⟩⟩

/-- `InitialServerSettings`: the seed when the agent is unreachable. -/
def initialServerSettings : Settings :=
  GoMap.ofList
    ([("port", seedNum 1194 0 (by decide)), ("proto", .str "udp"), ("dev", .str "tun0"),
      ("remote", .str "\x7b\x7bhost\x7d\x7d \x7b\x7bport\x7d\x7d"),
      ("resolv-retry", .str "infinite"), ("nobind", .bool true),
      ("key-direction", .str "\x7b\x7bkey_direction\x7d\x7d"), ("topology", .str "subnet"),
      ("daemon", .bool false), ("mode", .str "server"),
      ("server", .str "10.8.0.0 255.255.255.0"), ("max-clients", seedNum 1 2 (by decide)),
      ("keepalive", .str "10 120"), ("plugin", .arr []), ("persist-key", .bool true),
      ("persist-tun", .bool true), ("duplicate-cn", .bool false), ("client-to-client", .bool false),
      ("float", .bool false), ("data-ciphers", .str "AES-256-GCM:AES-128-GCM"),
      ("auth", .str "SHA256"), ("tls-version-min", .str "1.2"), ("verb", seedNum 3 0 (by decide)),
      ("client-verb", seedNum 3 0 (by decide)), ("mute", seedNum 2 1 (by decide)),
      ("mute-replay-warnings", .bool false), ("script-security", seedNum 2 0 (by decide)),
      ("reneg-sec", seedNum 0 0 (by decide)), ("hand-window", seedNum 6 1 (by decide)),
      ("tun-mtu", seedNum 15 2 (by decide)), ("mssfix", seedNum 145 1 (by decide)),
      ("push", .arr []), ("route", .arr [])] ++
    ["local", "server-bridge", "ca", "cert", "key", "dh", "ecdh-curve", "tls-auth", "tls-crypt",
      "tls-crypt-v2", "crl-verify", "verify-x509-name", "management", "status", "log", "log-append",
      "up", "down", "data-ciphers-fallback", "tls-ciphersuites", "cipher", "fragment", "user",
      "group", "ifconfig-pool-persist", "comp-lzo", "allow-compression", "panelRootCaId",
      "panelServerCertId", "panelDhMaterialId", "panelTlsAuthMaterialId"].map fun k => (k, .str ""))

/-! ### Merging with the agent -/

/-- The client-only keys. -/
def panelOnlyKeys : List String :=
  ["remote", "resolv-retry", "nobind", "key-direction", "client-verb", "remote-cert-tls"]

/-- The keys that hold the path of a PEM file on the node. -/
def materialPathKeys : List String :=
  ["ca", "cert", "key", "dh", "ecdh-curve", "crl-verify", "tls-auth", "tls-crypt", "tls-crypt-v2"]

def settingValueIsEmpty : Json → Bool
  | .null => true
  | .bool _ => false
  | .arr xs => xs.isEmpty
  | .num _ => false
  | v => GoStrings.trimSpace v.sprint = ""

theorem settingValueIsEmpty_str (s : String) :
    settingValueIsEmpty (.str s) = true ↔ GoStrings.trimSpace s = "" := by
  rw [settingValueIsEmpty, Json.sprint_str, decide_eq_true_iff] <;> simp

theorem settingValueIsEmpty_obj (fields : List (String × Json)) :
    settingValueIsEmpty (.obj fields) = false := by
  have hm : 'm' ∈ (Json.sprint (.obj fields)).toList := by
    rw [Json.sprint, String.toList_append, String.toList_append]
    simp
  rw [settingValueIsEmpty, decide_eq_false_iff_not, GoStrings.trimSpace_eq_empty_iff]
  · exact fun h => absurd (h 'm' hm) (by decide)
  all_goals simp

/-- The only empty value whose text is not blank is the empty list. -/
theorem eq_arr_nil_of_empty {v : Json} (hempty : settingValueIsEmpty v = true)
    (htext : settingText (some v) ≠ "") : v = .arr [] := by
  cases v with
  | null => exact absurd rfl htext
  | bool b => cases hempty
  | num n => cases hempty
  | str s =>
    rw [settingText_str] at htext
    exact absurd (cleanText_of_blank ((settingValueIsEmpty_str s).1 hempty)) htext
  | arr xs => rw [List.isEmpty_iff.1 hempty]
  | obj fields =>
    rw [settingValueIsEmpty_obj] at hempty
    cases hempty

def numericSettingValue (scanFloat : String → Option JsonNumber) : Json → Option JsonNumber
  | .num n => some n
  | v =>
    let s := GoStrings.trimSpace v.sprint
    if s = "" then none else scanFloat s

def staleZeroFragmentFromDB (scanFloat : String → Option JsonNumber) (key : String) (dbVal : Json)
    (agent : Settings) : Bool :=
  key = "fragment" && (agent.lookup "fragment").isNone &&
    ((numericSettingValue scanFloat dbVal).map JsonNumber.isZero).getD false

def mergeSettingsForDisplay (scanFloat : String → Option JsonNumber)
    (db agent : Settings) : Settings :=
  let out := db.range (fun k v cur =>
    if GoStrings.hasPrefix k "panel" then some v
    else if k = "user" ∨ k = "group" then some v
    else if settingValueIsEmpty v then cur
    else if staleZeroFragmentFromDB scanFloat k v agent then cur
    else if settingValueIsEmpty (cur.getD .null) then some v
    else cur) agent
  let out := GoMap.copyKeys panelOnlyKeys db out
  match db.lookup "auth" with
  | some v => if settingValueIsEmpty v then out else out.insert "auth" v
  | none => out

/-! ### The merge and the normalisation, key by key -/

/-- The keys the merge always takes from the stored settings. -/
def keptFromDB (k : String) : Bool :=
  GoStrings.hasPrefix k "panel" || decide (k = "user" ∨ k = "group" ∨ k ∈ panelOnlyKeys)

/-- The entry the merge leaves under a key, from the stored entry and the agent's. -/
def mergeEntry (scanFloat : String → Option JsonNumber) (agent : Settings) (k : String)
    (db : Option Json) : Option Json :=
  let cur := agent.lookup k
  if keptFromDB k then db.or cur
  else match db with
    | none => cur
    | some v =>
      if settingValueIsEmpty v then cur
      else if k = "auth" then some v
      else if staleZeroFragmentFromDB scanFloat k v agent then cur
      else if settingValueIsEmpty (cur.getD .null) then some v
      else cur

/-- **The merge, key by key.** -/
theorem lookup_mergeSettingsForDisplay (scanFloat : String → Option JsonNumber)
    (db agent : Settings) (k : String) :
    (mergeSettingsForDisplay scanFloat db agent).lookup k =
      mergeEntry scanFloat agent k (db.lookup k) := by
  by_cases hauth : k = "auth"
  · subst hauth
    have hkept : keptFromDB "auth" = false := by decide
    have honly : "auth" ∉ panelOnlyKeys := by decide
    have hpanel : GoStrings.hasPrefix "auth" "panel" = false := by decide
    simp only [mergeEntry, mergeSettingsForDisplay, hkept]
    cases hdb : db.lookup "auth" with
    | none => simp [GoMap.lookup_copyKeys, GoMap.lookup_range, hdb, honly]
    | some v =>
      by_cases hv : settingValueIsEmpty v = true
      · simp [GoMap.lookup_copyKeys, GoMap.lookup_range, hdb, honly, hpanel, hv]
      · simp [hv]
  · -- the last statement of the source writes `auth` only
    have hloop : (mergeSettingsForDisplay scanFloat db agent).lookup k =
        (GoMap.copyKeys panelOnlyKeys db (db.range (fun k v cur =>
          if GoStrings.hasPrefix k "panel" then some v
          else if k = "user" ∨ k = "group" then some v
          else if settingValueIsEmpty v then cur
          else if staleZeroFragmentFromDB scanFloat k v agent then cur
          else if settingValueIsEmpty (cur.getD .null) then some v
          else cur) agent)).lookup k := by
      rw [mergeSettingsForDisplay]
      cases db.lookup "auth" with
      | none => rfl
      | some v =>
        dsimp only
        split_ifs
        · rfl
        · rw [GoMap.lookup_insert_eq, if_neg hauth]
    rw [hloop, GoMap.lookup_copyKeys, GoMap.lookup_range]
    simp only [mergeEntry, keptFromDB]
    cases hdb : db.lookup k with
    | none => simp
    | some v =>
      by_cases hpanel : GoStrings.hasPrefix k "panel" = true
      · simp [hpanel]
      · by_cases honly : k ∈ panelOnlyKeys
        · simp [honly]
        · by_cases huser : k = "user" ∨ k = "group"
          · rcases huser with rfl | rfl <;> simp
          · simp [hpanel, honly, huser, hauth]

/-- The panel link a material path depends on, with the default path. -/
def materialDefault (k : String) : Option (String × String) :=
  if k = "ca" then some ("panelRootCaId", "/etc/openvpn/ca.crt")
  else if k = "crl-verify" then some ("panelRootCaId", "/etc/openvpn/crl.pem")
  else if k = "cert" then some ("panelServerCertId", "/etc/openvpn/server.crt")
  else if k = "key" then some ("panelServerCertId", "/etc/openvpn/server.key")
  else if k = "dh" then some ("panelDhMaterialId", "/etc/openvpn/dh.pem")
  else if k = "tls-auth" then some ("panelTlsAuthMaterialId", "/etc/openvpn/ta.key 0")
  else none

/-- The directives the normalisation deletes when they are blank. -/
def blankDropped : List String :=
  ["cipher", "fragment", "user", "group", "verify-x509-name", "comp-lzo", "allow-compression"]

/-- An entry, or the default when its text is blank. -/
def orDefault (v : Option Json) (d : String) : Option Json :=
  if settingText v = "" then some (.str d) else v

/-- The default the normalisation writes under a key whose text is blank. -/
def defaultOf (s : Settings) (k : String) : Option String :=
  if k = "data-ciphers" then some "AES-256-GCM:AES-128-GCM"
  else if k = "tls-version-min" then some "1.2"
  else if k = "auth" then
    if dataCiphersUseAuth
        (settingText (orDefault (s.lookup "data-ciphers") "AES-256-GCM:AES-128-GCM")) then
      some "SHA256"
    else none
  else match materialDefault k with
    | some (link, d) => if settingText (s.lookup link) ≠ "" then some d else none
    | none => none

/-- The entry the normalisation leaves under a key. -/
def readyEntry (s : Settings) (k : String) : Option Json :=
  match defaultOf s k with
  | some d => orDefault (s.lookup k) d
  | none =>
    if k ∈ blankDropped then (if settingText (s.lookup k) = "" then none else s.lookup k)
    else if k = "management" ∧ settingText (s.lookup k) ≠ "" then
      some (.str (normalizeManagementValue (settingText (s.lookup k))))
    else s.lookup k

theorem lookup_fillBlank_self (key value : String) (s : Settings) :
    (fillBlank key value s).lookup key = orDefault (s.lookup key) value := by
  rw [lookup_fillBlank, orDefault]
  simp

theorem lookup_fillBlank_of_ne {key k : String} (h : k ≠ key) (value : String) (s : Settings) :
    (fillBlank key value s).lookup k = s.lookup k := by
  rw [lookup_fillBlank, if_neg fun hk => h hk.1]

theorem lookup_dropBlank_self (key : String) (s : Settings) :
    (dropBlank key s).lookup key =
      if settingText (s.lookup key) = "" then none else s.lookup key := by
  rw [lookup_dropBlank]
  simp

theorem lookup_dropBlank_of_ne {key k : String} (h : k ≠ key) (s : Settings) :
    (dropBlank key s).lookup k = s.lookup k := by
  rw [lookup_dropBlank, if_neg fun hk => h hk.1]

theorem lookup_fillLinked (link key value : String) (s : Settings) (k : String) :
    (fillLinked link key value s).lookup k =
      if k = key ∧ settingText (s.lookup link) ≠ "" then orDefault (s.lookup key) value
      else s.lookup k := by
  rw [fillLinked, settingStr]
  by_cases hlink : settingText (s.lookup link) = ""
  · simp [hlink]
  · by_cases hk : k = key
    · subst hk
      simp [hlink, lookup_fillBlank_self]
    · simp [hlink, hk, lookup_fillBlank_of_ne hk]

/-- What `EnsureMaterialPaths` leaves under a key. -/
theorem lookup_ensureMaterialPaths (s : Settings) (k : String) :
    (ensureMaterialPaths s).lookup k =
      match materialDefault k with
      | some (link, d) =>
        if settingText (s.lookup link) ≠ "" then orDefault (s.lookup k) d else s.lookup k
      | none => s.lookup k := by
  simp only [ensureMaterialPaths, lookup_fillLinked, materialDefault]
  by_cases h₁ : k = "ca"
  · subst h₁
    simp
  by_cases h₂ : k = "crl-verify"
  · subst h₂
    simp
  by_cases h₃ : k = "cert"
  · subst h₃
    simp
  by_cases h₄ : k = "key"
  · subst h₄
    simp
  by_cases h₅ : k = "dh"
  · subst h₅
    simp
  by_cases h₆ : k = "tls-auth"
  · subst h₆
    simp
  simp [h₁, h₂, h₃, h₄, h₅, h₆]

/-- What `EnsureServerCryptoDefaults` leaves under a key. -/
theorem lookup_ensureServerCryptoDefaults (s : Settings) (k : String) :
    (ensureServerCryptoDefaults s).lookup k =
      if k = "data-ciphers" then orDefault (s.lookup k) "AES-256-GCM:AES-128-GCM"
      else if k = "tls-version-min" then orDefault (s.lookup k) "1.2"
      else if k = "cipher" then (if settingText (s.lookup k) = "" then none else s.lookup k)
      else if k = "auth" ∧ dataCiphersUseAuth
          (settingText (orDefault (s.lookup "data-ciphers") "AES-256-GCM:AES-128-GCM")) then
        orDefault (s.lookup k) "SHA256"
      else s.lookup k := by
  have hdc : (dropBlank "cipher" (fillBlank "tls-version-min" "1.2"
      (fillBlank "data-ciphers" "AES-256-GCM:AES-128-GCM" s))).lookup "data-ciphers" =
      orDefault (s.lookup "data-ciphers") "AES-256-GCM:AES-128-GCM" := by
    rw [lookup_dropBlank_of_ne (by decide), lookup_fillBlank_of_ne (by decide),
      lookup_fillBlank_self]
  have hauth (c : Bool) (m : Settings) : (if c then fillBlank "auth" "SHA256" m else m).lookup k =
      if k = "auth" ∧ c then orDefault (m.lookup k) "SHA256" else m.lookup k := by
    by_cases hk : k = "auth"
    · subst hk
      cases c <;> simp [lookup_fillBlank_self]
    · cases c <;> simp [hk, lookup_fillBlank_of_ne hk]
  simp only [ensureServerCryptoDefaults, settingStr, hauth, hdc]
  by_cases h₁ : k = "data-ciphers"
  · subst h₁
    simp [hdc]
  by_cases h₂ : k = "tls-version-min"
  · subst h₂
    simp [lookup_dropBlank, lookup_fillBlank_self, lookup_fillBlank_of_ne]
  by_cases h₃ : k = "cipher"
  · subst h₃
    simp [lookup_dropBlank_self, lookup_fillBlank_of_ne]
  by_cases h₄ : k = "auth"
  · subst h₄
    simp [lookup_dropBlank, lookup_fillBlank]
  simp [lookup_dropBlank, lookup_fillBlank, h₁, h₂, h₃, h₄]

theorem lookup_normalizeManagementSetting (s : Settings) (k : String) :
    (normalizeManagementSetting s).lookup k =
      if k = "management" ∧ settingText (s.lookup k) ≠ "" then
        some (.str (normalizeManagementValue (settingText (s.lookup k))))
      else s.lookup k := by
  simp only [normalizeManagementSetting, settingStr]
  by_cases hk : k = "management"
  · subst hk
    by_cases h : settingText (s.lookup "management") = "" <;> simp [h]
  · by_cases h : settingText (s.lookup "management") = "" <;> simp [h, hk]

/-- The normalisation of directives deletes the blank ones among six keys. -/
theorem lookup_dropBlankDirectives (s : Settings) (k : String) :
    (normalizeOptionalDirectives (normalizeTunnelSetting s)).lookup k =
      if k ∈ blankDropped ∧ k ≠ "cipher" ∧ settingText (s.lookup k) = "" then none
      else s.lookup k := by
  simp only [normalizeOptionalDirectives, normalizeTunnelSetting, List.foldl_cons, List.foldl_nil,
    lookup_dropBlank, blankDropped]
  by_cases h₁ : k = "allow-compression"
  · subst h₁
    simp
  by_cases h₂ : k = "comp-lzo"
  · subst h₂
    simp
  by_cases h₃ : k = "verify-x509-name"
  · subst h₃
    simp
  by_cases h₄ : k = "group"
  · subst h₄
    simp
  by_cases h₅ : k = "user"
  · subst h₅
    simp
  by_cases h₆ : k = "fragment"
  · subst h₆
    simp
  by_cases h₇ : k = "cipher"
  · subst h₇
    simp
  simp [h₁, h₂, h₃, h₄, h₅, h₆, h₇]

/-- What `NormalizeServerSettings` leaves under a key. -/
theorem lookup_normalizeServerSettings (s : Settings) (k : String) :
    (normalizeServerSettings s).lookup k =
      if k = "data-ciphers" then orDefault (s.lookup k) "AES-256-GCM:AES-128-GCM"
      else if k = "tls-version-min" then orDefault (s.lookup k) "1.2"
      else if k ∈ blankDropped then (if settingText (s.lookup k) = "" then none else s.lookup k)
      else if k = "auth" then
        if dataCiphersUseAuth
            (settingText (orDefault (s.lookup "data-ciphers") "AES-256-GCM:AES-128-GCM")) then
          orDefault (s.lookup k) "SHA256"
        else s.lookup k
      else if k = "management" ∧ settingText (s.lookup k) ≠ "" then
        some (.str (normalizeManagementValue (settingText (s.lookup k))))
      else s.lookup k := by
  simp only [normalizeServerSettings, lookup_dropBlankDirectives,
    lookup_normalizeManagementSetting, lookup_ensureServerCryptoDefaults]
  by_cases h₁ : k = "data-ciphers"
  · subst h₁
    simp [blankDropped]
  by_cases h₂ : k = "tls-version-min"
  · subst h₂
    simp [blankDropped]
  by_cases h₃ : k = "cipher"
  · subst h₃
    simp [blankDropped]
  by_cases h₄ : k = "auth"
  · subst h₄
    simp [blankDropped]
  by_cases h₅ : k = "management"
  · subst h₅
    simp [blankDropped]
  by_cases h₆ : k ∈ blankDropped <;> simp [h₁, h₂, h₃, h₄, h₅, h₆]

/-- **The normalisation, key by key.** -/
theorem lookup_ensureOpenvpnSettingsReady (s : Settings) (k : String) :
    (ensureOpenvpnSettingsReady s).lookup k = readyEntry s k := by
  simp only [ensureOpenvpnSettingsReady, lookup_ensureMaterialPaths]
  -- the material paths and their links are not touched by the first half
  have hother : ∀ l ∈ ["ca", "crl-verify", "cert", "key", "dh", "tls-auth", "panelRootCaId",
      "panelServerCertId", "panelDhMaterialId", "panelTlsAuthMaterialId"],
      (normalizeServerSettings s).lookup l = s.lookup l := by
    intro l hl
    simp only [List.mem_cons, List.not_mem_nil, or_false] at hl
    rcases hl with rfl | rfl | rfl | rfl | rfl | rfl | rfl | rfl | rfl | rfl <;>
      simp [lookup_normalizeServerSettings, blankDropped]
  by_cases hmat : k ∈ ["ca", "crl-verify", "cert", "key", "dh", "tls-auth"]
  · simp only [List.mem_cons, List.not_mem_nil, or_false] at hmat
    rcases hmat with rfl | rfl | rfl | rfl | rfl | rfl
    · by_cases hlink : settingText (s.lookup "panelRootCaId") = "" <;>
        simp [materialDefault, defaultOf, readyEntry, blankDropped, hother, hlink]
    · by_cases hlink : settingText (s.lookup "panelRootCaId") = "" <;>
        simp [materialDefault, defaultOf, readyEntry, blankDropped, hother, hlink]
    · by_cases hlink : settingText (s.lookup "panelServerCertId") = "" <;>
        simp [materialDefault, defaultOf, readyEntry, blankDropped, hother, hlink]
    · by_cases hlink : settingText (s.lookup "panelServerCertId") = "" <;>
        simp [materialDefault, defaultOf, readyEntry, blankDropped, hother, hlink]
    · by_cases hlink : settingText (s.lookup "panelDhMaterialId") = "" <;>
        simp [materialDefault, defaultOf, readyEntry, blankDropped, hother, hlink]
    · by_cases hlink : settingText (s.lookup "panelTlsAuthMaterialId") = "" <;>
        simp [materialDefault, defaultOf, readyEntry, blankDropped, hother, hlink]
  · have hnone : materialDefault k = none := by
      simp only [List.mem_cons, List.not_mem_nil, or_false, not_or] at hmat
      simp [materialDefault, hmat]
    simp only [hnone, lookup_normalizeServerSettings, readyEntry, defaultOf]
    by_cases hdc : k = "data-ciphers"
    · simp [hdc]
    by_cases htls : k = "tls-version-min"
    · simp [htls]
    by_cases hauth : k = "auth"
    · subst hauth
      cases dataCiphersUseAuth
        (settingText (orDefault (s.lookup "data-ciphers") "AES-256-GCM:AES-128-GCM")) <;>
        simp [blankDropped]
    · simp [hdc, htls, hauth]

/-- The defaults of the normalisation. -/
def defaults : List String :=
  ["AES-256-GCM:AES-128-GCM", "1.2", "SHA256", "/etc/openvpn/ca.crt", "/etc/openvpn/crl.pem",
    "/etc/openvpn/server.crt", "/etc/openvpn/server.key", "/etc/openvpn/dh.pem",
    "/etc/openvpn/ta.key 0"]

theorem mem_defaults_of_materialDefault {k link d : String}
    (h : materialDefault k = some (link, d)) : d ∈ defaults := by
  simp only [materialDefault] at h
  split_ifs at h
  all_goals
    obtain ⟨-, rfl⟩ := Prod.mk.inj (Option.some.inj h)
    simp [defaults]

theorem mem_defaults_of_defaultOf {s : Settings} {k d : String} (h : defaultOf s k = some d) :
    d ∈ defaults := by
  rw [defaultOf] at h
  split_ifs at h
  · simp [defaults, ← Option.some.inj h]
  · simp [defaults, ← Option.some.inj h]
  · simp [defaults, ← Option.some.inj h]
  · cases hm : materialDefault k with
    | none =>
      rw [hm] at h
      cases h
    | some p =>
      rw [hm] at h
      dsimp only at h
      split_ifs at h
      obtain rfl := Option.some.inj h
      exact mem_defaults_of_materialDefault hm

/-- Every default is a text that reads back as itself. -/
theorem settingText_default : ∀ d ∈ defaults, settingText (some (.str d)) = d ∧ d ≠ "" := by
  decide +kernel

/-! ### What the agent is sent -/

def stripPanelOnlySettings (settings : Settings) : Settings :=
  settings.filterKeys fun k => !GoStrings.hasPrefix k "panel" && decide (k ∉ panelOnlyKeys)

def stripEmptyManagedDirectiveValues (settings : Settings) : Settings :=
  settings.filterKeys fun k => !decide (k ∈ materialPathKeys ∧ settingStr settings k = "")

def stripAuthIncompatibleWithDataCiphers (settings : Settings) : Settings :=
  if !dataCiphersUseAuth (settingStr settings "data-ciphers") then settings.erase "auth"
  else settings

def prepareAgentSettings (settings : Settings) : Settings :=
  stripAuthIncompatibleWithDataCiphers
    (stripEmptyManagedDirectiveValues (stripPanelOnlySettings settings))

/-- A key that the agent is not sent. -/
def Withheld (s : Settings) (k : String) : Prop :=
  GoStrings.hasPrefix k "panel" = true ∨ k ∈ panelOnlyKeys ∨
    (k ∈ materialPathKeys ∧ settingText (s.lookup k) = "") ∨
      (k = "auth" ∧ dataCiphersUseAuth (settingStr s "data-ciphers") = false)

instance (s : Settings) (k : String) : Decidable (Withheld s k) :=
  inferInstanceAs (Decidable (_ ∨ _))

/-- **What the agent is sent**, key by key. -/
theorem lookup_prepare (s : Settings) (k : String) :
    (prepareAgentSettings s).lookup k = if Withheld s k then none else s.lookup k := by
  have hpanel (l : String) : (stripPanelOnlySettings s).lookup l =
      if GoStrings.hasPrefix l "panel" = true ∨ l ∈ panelOnlyKeys then none else s.lookup l := by
    rw [stripPanelOnlySettings, GoMap.lookup_filterKeys]
    by_cases h : GoStrings.hasPrefix l "panel" = true <;> by_cases h' : l ∈ panelOnlyKeys <;>
      simp [h, h']
  have hempty (l : String) :
      (stripEmptyManagedDirectiveValues (stripPanelOnlySettings s)).lookup l =
        if GoStrings.hasPrefix l "panel" = true ∨ l ∈ panelOnlyKeys ∨
          (l ∈ materialPathKeys ∧ settingText (s.lookup l) = "") then none else s.lookup l := by
    rw [stripEmptyManagedDirectiveValues, GoMap.lookup_filterKeys, settingStr, hpanel]
    by_cases h : GoStrings.hasPrefix l "panel" = true
    · simp [h]
    by_cases h' : l ∈ panelOnlyKeys
    · simp [h']
    by_cases h'' : l ∈ materialPathKeys <;> simp [h, h', h'']
  have hdc : settingStr (stripEmptyManagedDirectiveValues (stripPanelOnlySettings s))
      "data-ciphers" = settingStr s "data-ciphers" := by
    have hnot : ¬(GoStrings.hasPrefix "data-ciphers" "panel" = true ∨
        "data-ciphers" ∈ panelOnlyKeys) ∧ "data-ciphers" ∉ materialPathKeys := by decide
    rw [settingStr, settingStr, hempty, if_neg]
    tauto
  have hstrip : (prepareAgentSettings s).lookup k =
      if k = "auth" ∧ dataCiphersUseAuth (settingStr s "data-ciphers") = false then none
      else (stripEmptyManagedDirectiveValues (stripPanelOnlySettings s)).lookup k := by
    rw [prepareAgentSettings, stripAuthIncompatibleWithDataCiphers, hdc]
    generalize dataCiphersUseAuth (settingStr s "data-ciphers") = useAuth
    cases useAuth with
    | true => simp
    | false =>
      rw [if_pos (by decide), GoMap.lookup_erase_eq]
      simp only [and_true]
  rw [hstrip, hempty]
  by_cases hauth : k = "auth" ∧ dataCiphersUseAuth (settingStr s "data-ciphers") = false
  · rw [if_pos hauth, if_pos (.inr (.inr (.inr hauth)))]
  · rw [if_neg hauth]
    refine if_congr ?_ rfl rfl
    rw [Withheld, or_iff_left hauth]

def isPanelMetadataOrMaterialPath (key : String) : Bool :=
  GoStrings.hasPrefix key "panel" || decide (key ∈ materialPathKeys)

def incomingIsPanelMetadataOrMaterialPathsOnly (incoming : Settings) : Bool :=
  incoming ≠ ∅ ∧ ∀ k ∈ incoming.keys, isPanelMetadataOrMaterialPath k

/-- `jsonEqual`: two entries with the same JSON text, where an absent entry reads as `null`. -/
def jsonEqual (a b : Option Json) : Bool := a.getD .null = b.getD .null

def onlyPanelMetadataAndMaterialPathsChanged (prev merged : Settings) : Bool :=
  ∀ k ∈ prev.keys ∪ merged.keys,
    jsonEqual (prev.lookup k) (merged.lookup k) ∨ isPanelMetadataOrMaterialPath k

def skipAgentSettingsPush (prev merged incoming : Settings) : Bool :=
  incomingIsPanelMetadataOrMaterialPathsOnly incoming ||
    onlyPanelMetadataAndMaterialPathsChanged prev merged

/-- `AgentSettingsEqual`: the two payloads have the same JSON text. -/
def agentSettingsEqual (prev merged : Settings) : Bool :=
  prepareAgentSettings prev = prepareAgentSettings merged

end OpenvpnControl.Openvpn
