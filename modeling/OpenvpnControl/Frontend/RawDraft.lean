import Mathlib.Data.Finset.Sort
import Mathlib.Data.List.Sort
import OpenvpnControl.Library.JsStrings
import OpenvpnControl.Openvpn.Settings

/-!
# The raw draft of a server configuration

The frontend writes a draft of `server.conf` from the settings of a node
(`fallbackRawFromSettings`), and the backend sends the settings to the agent, which writes the file
(`PrepareAgentSettings`). Both leave out the keys of the panel and of the client profiles, each with
its own lists and rules. This file says for which settings the directives of the draft are the
settings that are sent.

## Main definitions

* `SettingValue`, `serverFields`: the values of the settings, and the types of their fields.
* `buildOpenVpnPayloadForAgent`, `fallbackDirectives`, `fallbackRawFromSettings`: the draft.
* `Agree`: the draft has the settings that are sent.
* `Alike`: the settings that both sides read alike.

## Main results

* `lookup_buildOpenVpnPayloadForAgent`: the payload of the frontend, key by key.
* `values_fallbackDirectives`: the values of the draft, key by key.
* `agree_iff`: when the directives of the draft are the settings that are sent.
* `split_fallbackRawFromSettings_iff`: when the lines of its text are its directives.
* `draft_has_auth`: with AES-GCM ciphers the draft has `auth`, which is not sent.
-/

namespace OpenvpnControl.Frontend

open GoStrings (split hasPrefix)
open JsStrings (trim nonblank toNumber ofNumber)
open Openvpn (settingStr settingText cleanText dataCiphersUseAuth panelOnlyKeys materialPathKeys
  prepareAgentSettings)

/-! ### Values -/

/-- A value of a setting. -/
inductive SettingValue where
  | text (s : String)
  | number (n : JsonNumber)
  | flag (b : Bool)
  | list (items : List String)
  deriving DecidableEq

namespace SettingValue

/-- The value as the backend decodes it. -/
def toJson : SettingValue → Json
  | .text s => .str s
  | .number n => .num n
  | .flag b => .bool b
  | .list items => .arr (items.map .str)

/-- `String(value)`. -/
def toJsString : SettingValue → String
  | .text s => s
  | .number n => ofNumber n
  | .flag b => if b then "true" else "false"
  | .list items => ",".intercalate items

/-- `Number(value)`, where `none` is not finite. -/
def toJsNumber : SettingValue → Option JsonNumber
  | .text s => toNumber s
  | .number n => some n
  | .flag b => some (if b then .ofInt 1 else .zero)
  | .list items => toNumber (",".intercalate items)

/-- `value || ""`, as a string. -/
def orEmpty : SettingValue → String
  | .number n => if n.isZero then "" else ofNumber n
  | .flag b => if b then "true" else ""
  | v => v.toJsString

end SettingValue

/-! ### The fields of the form -/

/-- The type of a field. -/
inductive FieldType where
  | number
  | select
  | text
  | checkbox
  | textarea
  deriving DecidableEq

/-- `OPENVPN_SERVER_SETTINGS_FIELDS`: the keys and the types of the fields. -/
def serverFields : List (String × FieldType) :=
  [("port", .number), ("proto", .select), ("dev", .text), ("remote", .text),
    ("resolv-retry", .text), ("nobind", .checkbox), ("key-direction", .text),
    ("remote-cert-tls", .text), ("topology", .select), ("local", .text), ("daemon", .checkbox),
    ("mode", .select), ("server", .text), ("server-bridge", .text), ("max-clients", .number),
    ("keepalive", .text), ("ca", .text), ("cert", .text), ("key", .text), ("dh", .text),
    ("ecdh-curve", .text), ("tls-auth", .text), ("tls-crypt", .text), ("tls-crypt-v2", .text),
    ("crl-verify", .text), ("verify-x509-name", .text), ("management", .text), ("status", .text),
    ("log", .text), ("log-append", .text), ("plugin", .textarea), ("up", .text), ("down", .text),
    ("persist-key", .checkbox), ("persist-tun", .checkbox), ("duplicate-cn", .checkbox),
    ("client-to-client", .checkbox), ("float", .checkbox), ("data-ciphers", .text),
    ("data-ciphers-fallback", .text), ("tls-ciphersuites", .text), ("cipher", .text),
    ("auth", .text), ("tls-version-min", .text), ("verb", .number), ("client-verb", .number),
    ("mute", .number), ("mute-replay-warnings", .checkbox), ("script-security", .number),
    ("reneg-sec", .number), ("hand-window", .number), ("tun-mtu", .number), ("mssfix", .number),
    ("fragment", .number), ("user", .text), ("group", .text), ("ifconfig-pool-persist", .text),
    ("comp-lzo", .select), ("allow-compression", .select),
    ("push", .textarea), ("route", .textarea)]

/-- `PANEL_ONLY_OPENVPN_KEYS`. -/
def panelOnlyOpenvpnKeys : List String :=
  ["panelRootCaId", "panelServerCertId", "panelDhMaterialId", "panelTlsAuthMaterialId", "remote",
    "resolv-retry", "nobind", "key-direction", "client-verb", "remote-cert-tls"]

/-- What the loop over the fields makes of the entry of a field. -/
def fieldEntry : FieldType → Option SettingValue → Option SettingValue
  | .number, v => v.bind fun v => if v = .text "" then none else v.toJsNumber.map .number
  | .textarea, some (.list items) => some (.list (nonblank items))
  | .textarea, v => some (.list (nonblank (split ((v.map SettingValue.orEmpty).getD "") '\n')))
  | .select, v => if v = some (.text "") then none else v
  | .text, v | .checkbox, v => v

def buildOpenVpnPayloadForAgent (settings : GoMap SettingValue) : GoMap SettingValue :=
  let out := serverFields.foldl (fun out f => out.alter f.1 (fieldEntry f.2)) settings
  panelOnlyOpenvpnKeys.foldl (fun out pk => out.erase pk) out

/-! ### The draft -/

/-- A line of the draft: a key, and a value that may be in quotes. -/
structure Directive where
  key : String
  value : Option String
  quoted : Bool

/-- The line. -/
def Directive.line (d : Directive) : String :=
  match d.value with
  | none => d.key
  | some s => if d.quoted then d.key ++ " \"" ++ s ++ "\"" else d.key ++ " " ++ s

/-- The lines of an entry of the payload. -/
def directivesOf (key : String) : SettingValue → List Directive
  | .text s => if s = "" then [] else [⟨key, some (trim s), false⟩]
  | .flag b => if b then [⟨key, none, false⟩] else []
  | .list items => (nonblank items).map fun s =>
    ⟨key, some s, decide (key = "push" ∨ key = "route")⟩
  | .number n => [⟨key, some (trim (ofNumber n)), false⟩]

/-- What the frontend gets from its browser: the order in which an object lists its keys, and the
order of strings in Russian. -/
structure Browser where
  /-- `Object.keys`. -/
  keys : GoMap SettingValue → List String
  nodup_keys : ∀ m, (keys m).Nodup
  mem_keys : ∀ m k, k ∈ keys m ↔ k ∈ m
  /-- `a.localeCompare(b, "ru")`. -/
  localeCompare : String → String → ℤ

variable (browser : Browser)

/-- The lines of `fallbackRawFromSettings`. -/
def fallbackDirectives (settings : GoMap SettingValue) : List Directive :=
  let payload := (buildOpenVpnPayloadForAgent settings).filterKeys fun k => !hasPrefix k "panel"
  let preferredKeys := serverFields.map Prod.fst
  let payloadKeys := browser.keys payload
  let restKeys := (payloadKeys.filter fun k => k ∉ preferredKeys).insertionSort fun a b =>
    browser.localeCompare a b ≤ 0
  let keys := preferredKeys.filter (fun k => k ∈ payloadKeys) ++ restKeys
  keys.flatMap fun key => ((payload.lookup key).map (directivesOf key)).getD []

def fallbackRawFromSettings (settings : GoMap SettingValue) : String :=
  "\n".intercalate ((fallbackDirectives browser settings).map Directive.line)

/-- The values of a key in the draft, line by line. -/
def drafted (settings : GoMap SettingValue) (key : String) : List (Option String) :=
  ((fallbackDirectives browser settings).filter fun d => d.key = key).map Directive.value

/-! ### Agreement -/

/-- The values of the lines that a setting is. -/
def lines : Json → List (Option String)
  | .str s => [some (trim s)]
  | .num n => [some (ofNumber n)]
  | .bool b => if b then [none] else []
  | .arr items => (nonblank (items.map Json.asString)).map some
  | _ => []

/-- A string that is not blank, a number, `true`, or a list with an entry that is not blank. -/
def Telling : Json → Prop
  | .str s => trim s ≠ ""
  | .num _ => True
  | .bool b => b = true
  | .arr items => ∃ x ∈ items, trim x.asString ≠ ""
  | _ => False

/-- The settings as the backend decodes them. -/
def decoded (settings : GoMap SettingValue) : Openvpn.Settings :=
  settings.mapValues SettingValue.toJson

/-- **The two ways to a `server.conf` agree.** Every directive of the draft is sent with the same
values, and every setting that is sent and says something is in the draft. -/
structure Agree (settings : GoMap SettingValue) : Prop where
  sent : ∀ d ∈ fallbackDirectives browser settings, ∃ v,
    (prepareAgentSettings (decoded settings)).lookup d.key = some v ∧
      drafted browser settings d.key = lines v
  drafted : ∀ k v, (prepareAgentSettings (decoded settings)).lookup k = some v → Telling v →
    ∃ d ∈ fallbackDirectives browser settings, d.key = k

/-! ### What both sides read alike -/

/-- No line is written for the value. -/
def Silent : SettingValue → Prop
  | .text s => s = ""
  | .number _ => False
  | .flag b => b = false
  | .list items => nonblank items = []

instance : DecidablePred Silent
  | .text s => inferInstanceAs (Decidable (s = ""))
  | .number _ => isFalse id
  | .flag b => inferInstanceAs (Decidable (b = false))
  | .list items => inferInstanceAs (Decidable (nonblank items = []))

/-- A value of a field of numbers is left as it is: a number; a text that is empty or the text of
the number that it is; or a list whose entries, joined by commas, are a number which is its only
entry that is not blank, or no number while all its entries are blank. -/
def NumberKept : SettingValue → Prop
  | .text s => s = "" ∨ ∃ n, toNumber s = some n ∧ ofNumber n = trim s
  | .number _ => True
  | .flag _ => False
  | .list items =>
    match toNumber (",".intercalate items) with
    | some n => nonblank items = [ofNumber n]
    | none => nonblank items = []

/-- A value of a field of lines is left as it is: a list, a text in one line, `false`, or a number
that is not zero. -/
def LinesKept : SettingValue → Prop
  | .text s => '\n' ∉ (trim s).toList
  | .number n => n.isZero = false
  | .flag b => b = false
  | .list _ => True

/-- **The settings that both sides read alike.** -/
structure Alike (settings : GoMap SettingValue) : Prop where
  auth : dataCiphersUseAuth (settingStr (decoded settings) "data-ciphers") = true ∨
    ∀ v, settings.lookup "auth" = some v → Silent v
  paths : ∀ k ∈ materialPathKeys, ∀ s, settings.lookup k = some (.text s) →
    s = "" ∨ cleanText s ≠ ""
  numbers : ∀ k, (k, FieldType.number) ∈ serverFields → k ∉ panelOnlyKeys →
    ∀ v, settings.lookup k = some v → NumberKept v
  textareas : ∀ k, (k, FieldType.textarea) ∈ serverFields →
    ∀ v, settings.lookup k = some v → LinesKept v

/-! ### The payload, key by key -/

variable {browser} {settings : GoMap SettingValue} {k : String} {v : SettingValue}

theorem nodup_serverFields : (serverFields.map Prod.fst).Nodup := by
  decide

theorem panelOnlyOpenvpnKeys_eq :
    ∀ k ∈ panelOnlyOpenvpnKeys, hasPrefix k "panel" = true ∨ k ∈ panelOnlyKeys := by
  decide

theorem panelOnlyKeys_subset : ∀ k ∈ panelOnlyKeys, k ∈ panelOnlyOpenvpnKeys := by
  decide

private theorem lookup_foldl_fields {fields : List (String × FieldType)}
    (h : (fields.map Prod.fst).Nodup) (m : GoMap SettingValue) :
    (fields.foldl (fun out f => out.alter f.1 (fieldEntry f.2)) m).lookup k =
      ((fields.lookup k).map fun type => fieldEntry type (m.lookup k)).getD (m.lookup k) := by
  induction fields generalizing m with
  | nil => rfl
  | cons f fields ih =>
    obtain ⟨key, type⟩ := f
    obtain ⟨hnot, hrest⟩ := List.nodup_cons.1 h
    rw [List.foldl_cons, ih hrest, GoMap.lookup_alter, List.lookup_cons]
    by_cases hk : k = key
    · subst hk
      have hnone : fields.lookup k = none := by
        refine List.lookup_eq_none_iff.2 fun e he => ?_
        have hmem : e.1 ∈ fields.map Prod.fst := List.mem_map_of_mem he
        have hne : k ≠ e.1 := fun h' => hnot (h' ▸ hmem)
        simpa using hne
      simp [hnone]
    · have hbeq : (k == key) = false := by simpa using hk
      simp [hbeq, hk]

private theorem lookup_foldl_erase (keys : List String) (m : GoMap SettingValue) :
    (keys.foldl (fun out pk => out.erase pk) m).lookup k = if k ∈ keys then
    none else m.lookup k := by
  induction keys generalizing m with
  | nil => rfl
  | cons key keys ih =>
    rw [List.foldl_cons, ih, GoMap.lookup_erase_eq]
    by_cases hk : k = key <;> by_cases hmem : k ∈ keys <;> simp [hk, hmem]

/-- **The payload of the frontend**, key by key. -/
theorem lookup_buildOpenVpnPayloadForAgent (settings : GoMap SettingValue) (k : String) :
    (buildOpenVpnPayloadForAgent settings).lookup k =
      if k ∈ panelOnlyOpenvpnKeys then none
      else ((serverFields.lookup k).map fun type => fieldEntry type (settings.lookup k)).getD
        (settings.lookup k) := by
  rw [buildOpenVpnPayloadForAgent, lookup_foldl_erase, lookup_foldl_fields nodup_serverFields]

/-- The values of an entry of the payload. -/
def values : SettingValue → List (Option String)
  | .text s => if s = "" then [] else [some (trim s)]
  | .flag b => if b then [none] else []
  | .list items => (nonblank items).map some
  | .number n => [some (ofNumber n)]

theorem map_value_directivesOf (key : String) (v : SettingValue) :
    (directivesOf key v).map Directive.value = values v := by
  cases v with
  | text s => rw [directivesOf, values]; split_ifs <;> rfl
  | number n => rw [directivesOf, values, JsStrings.trim_ofNumber]; rfl
  | flag b => cases b <;> rfl
  | list items => rw [directivesOf, values, List.map_map]; rfl

theorem key_of_mem_directivesOf {key : String} {d : Directive} (h : d ∈ directivesOf key v) :
    d.key = key := by
  cases v with
  | text s =>
    rw [directivesOf] at h
    split_ifs at h
    · cases h
    · rw [List.mem_singleton.1 h]
  | number n => rw [List.mem_singleton.1 h]
  | flag b =>
    rw [directivesOf] at h
    split_ifs at h
    · rw [List.mem_singleton.1 h]
    · cases h
  | list items =>
    obtain ⟨s, -, rfl⟩ := List.mem_map.1 h
    rfl

/-- The part of a list of directives that one key has. -/
private theorem filter_flatMap {keys : List String} (h : keys.Nodup) {f : String → List Directive}
    (hf : ∀ key, ∀ d ∈ f key, d.key = key) :
    (keys.flatMap f).filter (fun d => d.key = k) = if k ∈ keys then f k else [] := by
  induction keys with
  | nil => rfl
  | cons key keys ih =>
    obtain ⟨hnot, hrest⟩ := List.nodup_cons.1 h
    rw [List.flatMap_cons, List.filter_append, ih hrest]
    by_cases hk : key = k
    · subst hk
      have hself : (f key).filter (fun d => d.key = key) = f key :=
        List.filter_eq_self.2 fun d hd => decide_eq_true (hf key d hd)
      rw [hself, if_neg hnot, if_pos List.mem_cons_self, List.append_nil]
    · have hnone : (f key).filter (fun d => d.key = k) = [] :=
        List.filter_eq_nil_iff.2 fun d hd => by simpa [hf key d hd] using hk
      rw [hnone, List.nil_append]
      simp [Ne.symm hk]

/-- A key that the frontend leaves out. -/
def LeftOut (k : String) : Prop := hasPrefix k "panel" = true ∨ k ∈ panelOnlyKeys

instance (k : String) : Decidable (LeftOut k) := inferInstanceAs (Decidable (_ ∨ _))

theorem drafted_payload (settings : GoMap SettingValue) (k : String) :
    ((buildOpenVpnPayloadForAgent settings).filterKeys fun k => !hasPrefix k "panel").lookup k =
      if LeftOut k then none
      else ((serverFields.lookup k).map fun type => fieldEntry type (settings.lookup k)).getD
        (settings.lookup k) := by
  rw [GoMap.lookup_filterKeys, lookup_buildOpenVpnPayloadForAgent]
  by_cases hpanel : hasPrefix k "panel" = true
  · have hleft : LeftOut k := Or.inl hpanel
    rw [if_neg (by simp [hpanel]), if_pos hleft]
  · rw [if_pos (by simpa using hpanel)]
    refine if_congr ⟨fun h => panelOnlyOpenvpnKeys_eq k h, fun h => ?_⟩ rfl rfl
    exact panelOnlyKeys_subset k (h.resolve_left hpanel)

/-- **The values of the draft**, key by key. -/
theorem drafted_eq (settings : GoMap SettingValue) (k : String) :
    drafted browser settings k =
      if LeftOut k then []
      else ((((serverFields.lookup k).map fun type => fieldEntry type (settings.lookup k)).getD
        (settings.lookup k)).map values).getD [] := by
  rw [drafted, fallbackDirectives]
  have hpayload := drafted_payload settings k
  generalize (buildOpenVpnPayloadForAgent settings).filterKeys (fun k => !hasPrefix k "panel") =
    payload at hpayload
  have hnodup := browser.nodup_keys payload
  have hmem := browser.mem_keys payload
  generalize browser.keys payload = payloadKeys at hnodup hmem
  have hkeys : (((serverFields.map Prod.fst).filter (fun k => k ∈ payloadKeys)) ++
      (payloadKeys.filter fun k => k ∉ serverFields.map Prod.fst).insertionSort fun a b =>
        browser.localeCompare a b ≤ 0).Nodup := by
    refine (nodup_serverFields.filter _).append
      ((List.perm_insertionSort _ _).nodup_iff.2 (hnodup.filter _)) fun key hfirst hrest => ?_
    have hnot := (List.mem_filter.1 (List.mem_insertionSort _ |>.1 hrest)).2
    exact of_decide_eq_true hnot (List.mem_filter.1 hfirst).1
  rw [filter_flatMap hkeys fun key d hd => ?_]
  · have hiff : k ∈ ((serverFields.map Prod.fst).filter (fun k => k ∈ payloadKeys)) ++
        (payloadKeys.filter fun k => k ∉ serverFields.map Prod.fst).insertionSort (fun a b =>
          browser.localeCompare a b ≤ 0) ↔ k ∈ payload := by
      rw [List.mem_append, List.mem_insertionSort, List.mem_filter, List.mem_filter, ← hmem]
      simp only [decide_eq_true_eq]
      tauto
    have hright : (if LeftOut k then []
        else ((((serverFields.lookup k).map fun type => fieldEntry type (settings.lookup k)).getD
          (settings.lookup k)).map values).getD []) = ((payload.lookup k).map values).getD [] := by
      rw [hpayload]
      split_ifs <;> rfl
    rw [hright]
    by_cases hk : k ∈ payload
    · rw [if_pos (hiff.2 hk)]
      cases payload.lookup k with
      | none => rfl
      | some v => exact map_value_directivesOf k v
    · rw [if_neg (mt hiff.1 hk), Finmap.lookup_eq_none.2 hk]
      rfl
  · cases hv : payload.lookup key with
    | none =>
      rw [hv] at hd
      cases hd
    | some v =>
      rw [hv] at hd
      exact key_of_mem_directivesOf hd

/-! ### One key -/

/-- The two sides agree on a key. -/
def AgreeAt (browser : Browser) (settings : GoMap SettingValue) (k : String) : Prop :=
  (drafted browser settings k ≠ [] → ∃ v,
    (prepareAgentSettings (decoded settings)).lookup k = some v ∧
    drafted browser settings k = lines v) ∧
  ∀ v, (prepareAgentSettings (decoded settings)).lookup k = some v → Telling v →
    drafted browser settings k ≠ []

theorem drafted_ne_nil_iff :
    drafted browser settings k ≠ [] ↔ ∃ d ∈ fallbackDirectives browser settings, d.key = k := by
  rw [drafted, ne_eq, List.map_eq_nil_iff, List.filter_eq_nil_iff]
  simp

/-- The two sides agree when they agree on every key. -/
theorem agree_iff_forall : Agree browser settings ↔ ∀ k, AgreeAt browser settings k := by
  constructor
  · refine fun h k => ⟨fun hne => ?_, fun v hv htelling =>
      drafted_ne_nil_iff.2 (h.drafted k v hv htelling)⟩
    obtain ⟨d, hd, rfl⟩ := drafted_ne_nil_iff.1 hne
    exact h.sent d hd
  · exact fun h => ⟨fun d hd => (h d.key).1 (drafted_ne_nil_iff.2 ⟨d, hd, rfl⟩),
      fun k v hv htelling => drafted_ne_nil_iff.1 ((h k).2 v hv htelling)⟩

/-- A key on which they agree, by what the draft has and what is sent. -/
theorem agreeAt_of_absent (h : drafted browser settings k = [])
    (h' : (prepareAgentSettings (decoded settings)).lookup k = none) :
    AgreeAt browser settings k := by
  refine ⟨fun hne => absurd h hne, fun v hv => ?_⟩
  rw [h'] at hv
  cases hv

theorem agreeAt_withheld_iff (h : (prepareAgentSettings (decoded settings)).lookup k = none) :
    AgreeAt browser settings k ↔ drafted browser settings k = [] := by
  refine ⟨fun hagree => ?_, fun hnil => agreeAt_of_absent hnil h⟩
  by_contra hne
  obtain ⟨v, hv, -⟩ := hagree.1 hne
  rw [h] at hv
  cases hv

theorem lines_ne_nil {j : Json} (h : Telling j) : lines j ≠ [] := by
  cases j with
  | str s => nofun
  | num n => nofun
  | bool b =>
    rw [Telling] at h
    rw [h]
    nofun
  | arr items =>
    obtain ⟨x, hx, hne⟩ := h
    rw [lines, ne_eq, List.map_eq_nil_iff, JsStrings.nonblank_eq_nil_iff]
    exact fun hall => hne (hall _ (List.mem_map_of_mem hx))
  | null | obj fields => exact h.elim

/-- A setting that is sent agrees with its entry in the payload. -/
theorem agreeAt_sent_iff {j : Json}
    (h : (prepareAgentSettings (decoded settings)).lookup k = some j) :
    AgreeAt browser settings k ↔ drafted browser settings k = lines j ∨
      (drafted browser settings k = [] ∧ ¬Telling j) := by
  have hsome {P : Json → Prop} : (∀ v, (prepareAgentSettings (decoded settings)).lookup k =
      some v → P v) ↔ P j := by
    rw [h]
    simp
  rw [AgreeAt, hsome]
  by_cases hnil : drafted browser settings k = []
  · rw [hnil]
    refine ⟨fun hagree => Or.inr ⟨rfl, fun htelling => hagree.2 htelling rfl⟩, fun hagree => ?_⟩
    refine ⟨fun hne => absurd rfl hne, fun htelling => ?_⟩
    rcases hagree with hlines | ⟨-, hnot⟩
    · exact absurd hlines.symm (lines_ne_nil htelling)
    · exact absurd htelling hnot
  · rw [or_iff_left fun h' => hnil h'.1]
    refine ⟨fun hagree => ?_, fun heq => ⟨fun _ => ⟨j, h, heq⟩, fun _ => hnil⟩⟩
    obtain ⟨v, hv, heq⟩ := hagree.1 hnil
    rw [h] at hv
    rw [heq, Option.some.inj hv]

/-! ### One value -/

/-- The lines of an entry say what the setting says. -/
def Says (w : List (Option String)) (v : SettingValue) : Prop :=
  w = lines v.toJson ∨ (w = [] ∧ ¬Telling v.toJson)

theorem lines_toJson_list (items : List String) :
    lines (SettingValue.list items).toJson = (nonblank items).map some := by
  rw [SettingValue.toJson, lines, List.map_map]
  exact congrArg (fun xs => (nonblank xs).map some) (List.map_id items)

theorem telling_toJson_list_iff {items : List String} :
    Telling (SettingValue.list items).toJson ↔ nonblank items ≠ [] := by
  rw [SettingValue.toJson, Telling, ne_eq, JsStrings.nonblank_eq_nil_iff]
  simp [Json.asString]

/-- An entry that the loop leaves alone. -/
theorem says_values (v : SettingValue) : Says (values v) v := by
  cases v with
  | text s =>
    by_cases hs : s = ""
    · subst hs
      exact Or.inr ⟨rfl, fun h => h (by decide)⟩
    · exact Or.inl (if_neg hs)
  | number n => exact Or.inl rfl
  | flag b => exact Or.inl rfl
  | list items => exact Or.inl (lines_toJson_list items).symm

private theorem map_some_inj {xs ys : List String} : xs.map some = ys.map some ↔ xs = ys :=
  (List.map_injective_iff.2 (Option.some_injective String)).eq_iff

/-- **A field of numbers.** -/
theorem says_number_iff :
    Says (((fieldEntry .number (some v)).map values).getD []) v ↔ NumberKept v := by
  rw [fieldEntry, Option.bind_some]
  cases v with
  | text s =>
    by_cases hs : s = ""
    · subst hs
      exact iff_of_true (Or.inr ⟨rfl, fun h => h (by decide)⟩) (Or.inl rfl)
    rw [if_neg (by simpa using hs), NumberKept, or_iff_right hs, SettingValue.toJsNumber]
    cases hn : toNumber s with
    | none =>
      have hblank : trim s ≠ "" := by
        intro hblank
        rw [JsStrings.toNumber_of_blank hblank] at hn
        cases hn
      refine iff_of_false ?_ (by simp)
      rintro (h | ⟨-, h⟩)
      · cases h
      · exact h hblank
    | some n =>
      simp [Says, values, lines, SettingValue.toJson]
  | number n => exact iff_of_true (Or.inl rfl) trivial
  | flag b =>
    refine iff_of_false ?_ id
    rintro (h | ⟨h, -⟩)
    · cases b <;> cases h
    · cases h
  | list items =>
    rw [if_neg (by simp), NumberKept, SettingValue.toJsNumber, Says, lines_toJson_list,
      telling_toJson_list_iff, not_not]
    cases hn : toNumber (",".intercalate items) with
    | none =>
      refine ⟨fun h => h.elim (fun h => List.map_eq_nil_iff.1 h.symm) And.right, fun h => ?_⟩
      exact Or.inr ⟨rfl, h⟩
    | some n =>
      rw [Option.map_some, Option.map_some, Option.getD_some, values]
      refine (or_iff_left fun h => ?_).trans ((@map_some_inj [ofNumber n] _).trans eq_comm)
      cases h.1

/-- **A field of lines.** -/
theorem says_textarea_iff :
    Says (((fieldEntry .textarea (some v)).map values).getD []) v ↔ LinesKept v := by
  have hlist (xs : List String) : values (.list (nonblank xs)) = (nonblank xs).map some := by
    rw [values, JsStrings.nonblank_nonblank]
  cases v with
  | text s =>
    have hentry : ((fieldEntry .textarea (some (.text s))).map values).getD [] =
        (nonblank (split s '\n')).map some := hlist _
    rw [hentry, LinesKept, ← JsStrings.nonblank_split_iff, ← map_some_inj,
      JsStrings.nonblank_singleton, Says]
    split_ifs with hblank
    · have hnil : nonblank (split s '\n') = [] :=
        JsStrings.nonblank_split_of_spaces (JsStrings.trim_eq_empty_iff.1 hblank)
      rw [hnil]
      exact iff_of_true (Or.inr ⟨rfl, fun h => h hblank⟩) rfl
    · exact or_iff_left fun h => h.2 hblank
  | number n =>
    have hentry : ((fieldEntry .textarea (some (.number n))).map values).getD [] =
        (nonblank (split (if n.isZero then "" else ofNumber n) '\n')).map some := hlist _
    rw [hentry, LinesKept]
    cases hzero : n.isZero with
    | true =>
      refine iff_of_false ?_ nofun
      rintro (h | h)
      · cases h
      · exact h.2 trivial
    | false =>
      refine iff_of_true (Or.inl ?_) rfl
      rw [if_neg (by decide), JsStrings.nonblank_split_ofNumber]
      rfl
  | flag b =>
    cases b with
    | true =>
      refine iff_of_false ?_ nofun
      have hentry : ((fieldEntry .textarea (some (.flag true))).map values).getD [] =
          [some "true"] := by
        decide +kernel
      rw [hentry]
      rintro (h | h)
      · cases h
      · cases h.1
    | false => exact iff_of_true (Or.inl (by decide +kernel)) rfl
  | list items =>
    refine iff_of_true (Or.inl ?_) trivial
    rw [fieldEntry, Option.map_some, Option.getD_some, hlist, lines_toJson_list]

/-! ### What is sent -/

/-- Only a text is read as blank. -/
theorem settingText_toJson_ne_empty (h : ∀ s, v ≠ .text s) : settingText (some v.toJson) ≠ "" := by
  cases v with
  | text s => exact absurd rfl (h s)
  | number n =>
    have hne : n.sprint.toList ≠ [] := fun h => Json.sprint_ne_empty n (by simpa using h)
    obtain ⟨c, hc⟩ := List.exists_mem_of_ne_nil _ hne
    rcases Json.numeral_sprint n c hc with hdigit | hsymbol
    · rw [Char.isDigit, Bool.and_eq_true, decide_eq_true_eq, decide_eq_true_eq] at hdigit
      have hlow : 48 ≤ c.toNat := hdigit.1
      have hhigh : c.toNat ≤ 57 := hdigit.2
      refine Openvpn.cleanText_ne_empty (c := c) hc ?_ ?_
      · have hblank : c ≠ ' ' := by
          rintro rfl
          exact absurd hlow (by decide)
        simp only [GoStrings.isSpace, hblank, decide_false, Bool.false_or, Bool.or_eq_false_iff,
          Bool.and_eq_false_iff, decide_eq_false_iff_not]
        omega
      · rintro rfl
        exact absurd hlow (by decide)
    · have hall : ∀ d ∈ ['-', '+', '.', 'e'], GoStrings.isSpace d = false ∧ d ≠ '"' := by decide
      exact Openvpn.cleanText_ne_empty (c := c) hc (hall c hsymbol).1 (hall c hsymbol).2
  | flag b => cases b <;> decide +kernel
  | list items =>
    refine Openvpn.cleanText_ne_empty (c := '[') ?_ (by decide) (by decide)
    rw [SettingValue.toJson, Json.sprint, String.toList_append, String.toList_append]
    exact List.mem_append_left _ (List.mem_append_left _ (by decide))

/-- The fields of the form. -/
theorem fields_fit :
    (∀ f ∈ serverFields, LeftOut f.1 → f.1 ∈ panelOnlyKeys ∧ f.2 ≠ .textarea) ∧
      (∀ k ∈ "auth" :: materialPathKeys, ¬LeftOut k ∧ serverFields.lookup k = some .text) := by
  decide +kernel

theorem mem_serverFields_iff {type : FieldType} :
    (k, type) ∈ serverFields ↔ serverFields.lookup k = some type :=
  (GoMap.lookup_eq_some_iff_mem nodup_serverFields).symm

theorem lookup_decoded : (decoded settings).lookup k =
    (settings.lookup k).map SettingValue.toJson :=
  GoMap.lookup_mapValues _ _ _

/-- The condition on the value of one key. -/
def AlikeAt (settings : GoMap SettingValue) (k : String) (v : SettingValue) : Prop :=
  (k = "auth" → dataCiphersUseAuth (settingStr (decoded settings) "data-ciphers") =
    true ∨ Silent v) ∧
  (k ∈ materialPathKeys → ∀ s, v = .text s → s = "" ∨ cleanText s ≠ "") ∧
  ((k, FieldType.number) ∈ serverFields → k ∉ panelOnlyKeys → NumberKept v) ∧
  ((k, FieldType.textarea) ∈ serverFields → LinesKept v)

theorem alike_iff_forall : Alike settings ↔ ∀ k v, settings.lookup k = some v →
    AlikeAt settings k v := by
  constructor
  · refine fun h k v hv => ⟨?_, fun hk s hs => h.paths k hk s (hs ▸ hv), fun hk hnot =>
      h.numbers k hk hnot v hv, fun hk => h.textareas k hk v hv⟩
    rintro rfl
    exact h.auth.imp_right fun hall => hall v hv
  · intro h
    refine ⟨?_, fun k hk s hs => (h k _ hs).2.1 hk s rfl, fun k hk hnot v hv =>
      (h k v hv).2.2.1 hk hnot, fun k hk v hv => (h k v hv).2.2.2 hk⟩
    by_cases huse : dataCiphersUseAuth (settingStr (decoded settings) "data-ciphers") = true
    · exact Or.inl huse
    · exact Or.inr fun v hv => ((h "auth" v hv).1 rfl).resolve_left huse

theorem silent_iff : values v = [] ↔ Silent v := by
  cases v with
  | text s => rw [values, Silent]; split_ifs with h <;> simp [h]
  | number n => exact iff_of_false nofun id
  | flag b => cases b <;> simp [values, Silent]
  | list items => exact List.map_eq_nil_iff

/-- The draft has nothing of a key without a setting. -/
theorem drafted_of_none (h : settings.lookup k = none) : drafted browser settings k = [] := by
  rw [drafted_eq, h]
  split_ifs
  · rfl
  · cases serverFields.lookup k with
    | none => rfl
    | some type => cases type <;> rfl

/-- The draft has the lines of a key that the loop leaves alone. -/
theorem drafted_of_plain (hnot : ¬LeftOut k) (h : settings.lookup k = some v)
    (hnumber : (k, FieldType.number) ∉ serverFields)
    (htextarea : (k, FieldType.textarea) ∉ serverFields) :
    drafted browser settings k = values v := by
  rw [drafted_eq, if_neg hnot, h]
  rw [mem_serverFields_iff] at hnumber htextarea
  cases htype : serverFields.lookup k with
  | none => rfl
  | some type =>
    cases type with
    | number => exact absurd htype hnumber
    | textarea => exact absurd htype htextarea
    | text | checkbox => rfl
    | select =>
      rw [Option.map_some, Option.getD_some, fieldEntry]
      split_ifs with hempty
      · cases hempty
        rfl
      · rfl

/-- A key that the frontend leaves out is not sent. -/
theorem agreeAt_of_leftOut (h : LeftOut k) : AgreeAt browser settings k := by
  refine agreeAt_of_absent (by rw [drafted_eq, if_pos h]) ?_
  have hwithheld : Openvpn.Withheld (decoded settings) k := by
    rcases h with h | h
    · exact Or.inl h
    · exact Or.inr (Or.inl h)
  rw [Openvpn.lookup_prepare, if_pos hwithheld]

theorem alikeAt_of_leftOut (h : LeftOut k) : AlikeAt settings k v := by
  obtain ⟨hfields, htexts⟩ := fields_fit
  refine ⟨?_, fun hk => ?_, fun hk hnot => ?_, fun hk => ?_⟩
  · rintro rfl
    exact absurd h (htexts "auth" List.mem_cons_self).1
  · exact absurd h (htexts k (List.mem_cons_of_mem _ hk)).1
  · exact absurd (hfields _ hk h).1 hnot
  · exact absurd rfl (hfields _ hk h).2

/-- A field that is no text is neither `auth` nor a path. -/
theorem not_text_field {type : FieldType} (hk : (k, type) ∈ serverFields) (htype : type ≠ .text) :
    k ≠ "auth" ∧ k ∉ materialPathKeys := by
  rw [mem_serverFields_iff] at hk
  have hnot : k ∉ "auth" :: materialPathKeys := by
    intro h
    rw [(fields_fit.2 k h).2] at hk
    exact htype (Option.some.inj hk).symm
  rw [List.mem_cons, not_or] at hnot
  exact hnot

/-- A field that is no text is sent. -/
theorem lookup_prepare_field {type : FieldType} (hk : (k, type) ∈ serverFields)
    (htype : type ≠ .text) (hnot : ¬LeftOut k) (hv : settings.lookup k = some v) :
    (prepareAgentSettings (decoded settings)).lookup k = some v.toJson := by
  obtain ⟨hauth, hpath⟩ := not_text_field hk htype
  rw [Openvpn.lookup_prepare, lookup_decoded, hv, if_neg]
  · rfl
  · rintro (h | h | h | h)
    · exact hnot (Or.inl h)
    · exact hnot (Or.inr h)
    · exact hpath h.1
    · exact hauth h.1

/-- **One key that the loop leaves alone.** -/
theorem agreeAt_iff_of_plain (hnot : ¬LeftOut k) (hv : settings.lookup k = some v)
    (hnumber : (k, FieldType.number) ∉ serverFields)
    (htextarea : (k, FieldType.textarea) ∉ serverFields) :
    AgreeAt browser settings k ↔ AlikeAt settings k v := by
  have hdrafted : drafted browser settings k = values v :=
    drafted_of_plain hnot hv hnumber htextarea
  have hprepare := Openvpn.lookup_prepare (decoded settings) k
  rw [lookup_decoded, hv] at hprepare
  by_cases hwithheld : Openvpn.Withheld (decoded settings) k
  · rw [if_pos hwithheld] at hprepare
    rw [agreeAt_withheld_iff hprepare, hdrafted, silent_iff]
    rcases hwithheld with h | h | ⟨hpath, hblank⟩ | ⟨rfl, huse⟩
    · exact absurd (Or.inl h) hnot
    · exact absurd (Or.inr h) hnot
    · -- only a text is read as blank, and it is not drafted when it is empty
      rw [lookup_decoded, hv, Option.map_some] at hblank
      have htext : ∃ s, v = .text s := by
        by_contra h
        exact settingText_toJson_ne_empty (not_exists.1 h) hblank
      obtain ⟨s, rfl⟩ := htext
      rw [SettingValue.toJson, Openvpn.settingText_str] at hblank
      have hauth : k ≠ "auth" := by
        rintro rfl
        exact absurd hpath (by decide)
      constructor
      · intro hs
        exact ⟨fun h => absurd h hauth, fun _ s' h => Or.inl (by cases h; exact hs),
          fun h => absurd h hnumber, fun h => absurd h htextarea⟩
      · intro h
        exact (h.2.1 hpath s rfl).resolve_right (not_not.2 hblank)
    · constructor
      · intro hs
        exact ⟨fun _ => Or.inr hs, fun h => absurd h (by decide), fun h => absurd h hnumber,
          fun h => absurd h htextarea⟩
      · intro h
        exact (h.1 rfl).resolve_left (by simp [huse])
  · rw [if_neg hwithheld, Option.map_some] at hprepare
    rw [agreeAt_sent_iff hprepare, hdrafted]
    refine iff_of_true (says_values v) ⟨?_, fun hpath s hs => Or.inr fun hblank => hwithheld ?_,
      fun h => absurd h hnumber, fun h => absurd h htextarea⟩
    · rintro rfl
      refine Or.inl (Bool.eq_true_of_not_eq_false fun huse => hwithheld ?_)
      exact Or.inr (Or.inr (Or.inr ⟨rfl, huse⟩))
    · refine Or.inr (Or.inr (Or.inl ⟨hpath, ?_⟩))
      rw [lookup_decoded, hv, hs, Option.map_some, SettingValue.toJson,
        Openvpn.settingText_str, hblank]

/-- **One key**: the two sides agree on it when its value is read alike. -/
theorem agreeAt_iff (hv : settings.lookup k = some v) :
    AgreeAt browser settings k ↔ AlikeAt settings k v := by
  by_cases hleft : LeftOut k
  · exact iff_of_true (agreeAt_of_leftOut hleft) (alikeAt_of_leftOut hleft)
  have hdrafted {type : FieldType} (hk : (k, type) ∈ serverFields) :
      drafted browser settings k = ((fieldEntry type (some v)).map values).getD [] := by
    rw [drafted_eq, if_neg hleft, mem_serverFields_iff.1 hk, hv]
    rfl
  by_cases hnumber : (k, FieldType.number) ∈ serverFields
  · obtain ⟨hauth, hpath⟩ := not_text_field hnumber nofun
    rw [agreeAt_sent_iff (lookup_prepare_field hnumber nofun hleft hv), hdrafted hnumber]
    refine says_number_iff.trans ⟨fun h => ?_, fun h => h.2.2.1 hnumber fun hk => hleft (Or.inr hk)⟩
    refine ⟨fun hk => absurd hk hauth, fun hk => absurd hk hpath, fun _ _ => h, fun hk => ?_⟩
    rw [mem_serverFields_iff] at hk hnumber
    rw [hnumber] at hk
    cases hk
  by_cases htextarea : (k, FieldType.textarea) ∈ serverFields
  · obtain ⟨hauth, hpath⟩ := not_text_field htextarea nofun
    rw [agreeAt_sent_iff (lookup_prepare_field htextarea nofun hleft hv), hdrafted htextarea]
    exact says_textarea_iff.trans ⟨fun h => ⟨fun hk => absurd hk hauth, fun hk => absurd hk hpath,
      fun hk => absurd hk hnumber, fun _ => h⟩, fun h => h.2.2.2 htextarea⟩
  exact agreeAt_iff_of_plain hleft hv hnumber htextarea

/-- A key without a setting. -/
theorem agreeAt_of_none (hv : settings.lookup k = none) : AgreeAt browser settings k := by
  refine agreeAt_of_absent (drafted_of_none hv) ?_
  rw [Openvpn.lookup_prepare, lookup_decoded, hv]
  split_ifs <;> rfl

/-- **When the draft has the settings that are sent.** Both directions go key by key: a key on which
a value is not read alike has lines in the draft that the sent value does not have, or is sent
without a line. -/
theorem agree_iff (browser : Browser) (settings : GoMap SettingValue) :
    Agree browser settings ↔ Alike settings := by
  rw [agree_iff_forall, alike_iff_forall]
  refine forall_congr' fun k => ⟨fun h v hv => (agreeAt_iff hv).1 h, fun h => ?_⟩
  cases hv : settings.lookup k with
  | none => exact agreeAt_of_none hv
  | some v => exact (agreeAt_iff hv).2 (h v hv)

/-! ### The text of the draft -/

/-- **The lines of the text** are the directives when none of them has a line break inside. A value
that is pushed as one line with a break in it becomes two lines of the file. -/
theorem split_fallbackRawFromSettings_iff (h : fallbackDirectives browser settings ≠ []) :
    split (fallbackRawFromSettings browser settings) '\n' =
        (fallbackDirectives browser settings).map Directive.line ↔
      ∀ d ∈ fallbackDirectives browser settings, '\n' ∉ d.line.toList := by
  constructor
  · intro hsplit d hd
    have hmem : d.line ∈ split (fallbackRawFromSettings browser settings) '\n' := by
      rw [hsplit]
      exact List.mem_map_of_mem hd
    exact (GoStrings.mem_split hmem).1
  · intro hone
    have hlines : ∀ line ∈ (fallbackDirectives browser settings).map Directive.line,
        split line '\n' = [line] := by
      intro line hline
      obtain ⟨d, hd, rfl⟩ := List.mem_map.1 hline
      exact GoStrings.split_of_not_mem (hone d hd)
    have hne : (fallbackDirectives browser settings).map Directive.line ≠ [] := by simpa using h
    rw [fallbackRawFromSettings, show "\n" = String.singleton '\n' from rfl,
      GoStrings.split_intercalate hne, List.flatMap_congr hlines, List.flatMap_singleton']

/-! ### A draft with `auth` -/

/-- A browser that lists keys and sorts strings by their characters. -/
def plainBrowser : Browser where
  keys m := m.keys.sort (· ≤ ·)
  nodup_keys _ := Finset.sort_nodup _ _
  mem_keys _ _ := by rw [Finset.mem_sort, Finmap.mem_keys]
  localeCompare a b := if a ≤ b then if a = b then 0 else -1 else 1

/-- The settings of a node with AES-GCM ciphers and a stored `auth`. -/
def gcmSettings : GoMap SettingValue :=
  GoMap.ofList [("data-ciphers", .text "AES-256-GCM:AES-128-GCM"), ("auth", .text "SHA256")]

/-- **With AES-GCM ciphers the draft has `auth`**, which is not sent. -/
theorem draft_has_auth : ¬∀ (browser : Browser) (settings : GoMap SettingValue),
    Agree browser settings := by
  intro h
  have hlookup : gcmSettings.lookup "auth" = some (.text "SHA256") := by decide +kernel
  have hauth :=
    ((agreeAt_iff hlookup).1 (agree_iff_forall.1 (h plainBrowser gcmSettings) "auth")).1 rfl
  revert hauth
  decide +kernel

end OpenvpnControl.Frontend
