import OpenvpnControl.Firewall.Stored
import OpenvpnControl.Openvpn.Settings

/-!
# The tunnel firewall as the panel shows it

The panel normalises the stored rules on its own, apart from the package `firewall`, and renders a
script from them.

The page shows the rules and the script of the tunnel before anything is applied, from the settings
that are stored. The agent applies what its snapshot says, which another package reads from the same
settings; whether the two agree is the subject of `Firewall.Agreement`.

## Main definitions

* `normalizeFirewallRule`, `normalizeFirewallNatRule`: one row.
* `parseTunnelContext`: the tunnel of a node.
* `renderFirewallDualScriptPreview`: the script.
* `firewallBody`, `getFirewallConfigForPanel`: what the panel answers.
-/

namespace OpenvpnControl.Panel

open Firewall (FirewallRule FirewallNatRule Policy TunnelContext trimmed str)

/-! ### The tunnel -/

/-- An octet of `ipv4OctetsToInt`. -/
def octet (part : String) : Option ℕ :=
  (GoStrings.atoi part).bind fun n => if n < 0 ∨ 255 < n then none else some n.toNat

def ipv4OctetsToInt (s : String) : Option (BitVec 32) :=
  match GoStrings.split s '.' with
  | [a, b, c, d] =>
    match octet a, octet b, octet c, octet d with
    | some a, some b, some c, some d => some (Firewall.packOctets a b c d)
    | _, _, _, _ => none
  | _ => none

def netmaskDottedToPrefix (maskStr : String) : Option ℕ :=
  (ipv4OctetsToInt maskStr).bind Firewall.maskPrefix

/-- The class `\s` of a regular expression. -/
def regexpSpace (c : Char) : Bool :=
  c = ' ' || c = '\t' || c = '\n' || c.toNat = 12 || c = '\r'

/-- The two groups of `serverLineRe`, `^(\S+)\s+(\S+)$`. -/
def serverLineRe (s : String) : Option (String × String) :=
  let first := s.toList.takeWhile (!regexpSpace ·)
  let rest := s.toList.dropWhile (!regexpSpace ·)
  let second := rest.dropWhile regexpSpace
  if first ≠ [] ∧ rest ≠ [] ∧ second ≠ [] ∧ second.all (!regexpSpace ·) then
    some (String.ofList first, String.ofList second)
  else none

def openvpnServerLineToCidr (serverLine : String) : String :=
  match serverLineRe (GoStrings.trimSpace serverLine) with
  | none => ""
  | some (ip, second) =>
    match (GoStrings.atoi second).filter fun pl => decide (0 ≤ pl ∧ pl ≤ 32) with
    | some pl => ip ++ "/" ++ Nat.repr pl.toNat
    | none =>
      if GoStrings.contains second "." then
        match netmaskDottedToPrefix second with
        | some pref => ip ++ "/" ++ Nat.repr pref
        | none => ""
      else ""

def linuxIfaceFromOpenvpnDev (dev : String) : String :=
  let s := GoStrings.trimSpace dev
  if s = "" then "" else Firewall.linuxDevice s

def parseTunnelContext (settings : Openvpn.Settings) : TunnelContext :=
  let rawDev := GoStrings.trimSpace (settings.get "dev").asString
  let serverDirective := GoStrings.trimSpace (settings.get "server").asString
  { tunnelInterface := if rawDev = "" then "tun0" else linuxIfaceFromOpenvpnDev rawDev
    vpnSubnet :=
      match serverLineRe serverDirective with
      | some (a, b) => a ++ " " ++ b
      | none => ""
    vpnSubnetCidr := openvpnServerLineToCidr serverDirective }

/-! ### The rules -/

def normalizeFirewallRule (src : List (String × Json)) (idx : ℕ) : FirewallRule where
  id := if trimmed src "id" = "" then "rule-" ++ Nat.repr (idx + 1) else trimmed src "id"
  action := if GoStrings.equalFold (str src "action") "deny" then .deny else .allow
  proto := .ofText (GoStrings.toLower (trimmed src "proto"))
  destination := trimmed src "destination"
  ports := trimmed src "ports"
  note := trimmed src "note"

/-- `NormalizeFirewallBaseRules`; a row that is no object is a rule without fields. -/
def normalizeFirewallBaseRules (raw : Json) : List FirewallRule :=
  raw.asSlice.elems.zipIdx.map fun (row, i) => normalizeFirewallRule row.asFields i

def normalizeFirewallNatRule (src : List (String × Json)) (idx : ℕ) : FirewallNatRule where
  id := if trimmed src "id" = "" then "nat-" ++ Nat.repr (idx + 1) else trimmed src "id"
  type := .ofText (GoStrings.toLower (trimmed src "type"))
  src := trimmed src "src"
  dst := trimmed src "dst"
  outInterface :=
    if trimmed src "outInterface" = "" then ""
    else linuxIfaceFromOpenvpnDev (trimmed src "outInterface")
  toAddress := trimmed src "toAddress"
  note := trimmed src "note"

def normalizeFirewallNatRules (raw : Json) : List FirewallNatRule :=
  raw.asSlice.elems.zipIdx.map fun (row, i) => normalizeFirewallNatRule row.asFields i

def normalizeFirewallDefaultPolicy (raw : Json) : Policy :=
  if GoStrings.equalFold raw.asString "allow" then .allow else .deny

def tunnelFromBody (body : List (String × Json)) :
    Policy × List FirewallRule × List FirewallNatRule :=
  let tunnel := (Json.field body "tunnel").asFields
  (normalizeFirewallDefaultPolicy (Json.field tunnel "defaultPolicy"),
    normalizeFirewallBaseRules (Json.field tunnel "rules"),
    normalizeFirewallNatRules (Json.field tunnel "natRules"))

/-! ### The script -/

structure NodeRef where
  id : String
  name : String
  deriving DecidableEq, Repr

/-- A text between two others, or nothing when it is empty. -/
def clause (before s after : String) : String := if s = "" then "" else before ++ s ++ after

/-- A line of `renderFirewallScriptPreview` for a rule. -/
def ruleLine (ctx : TunnelContext) (r : FirewallRule) : String :=
  let cidr := GoStrings.trimSpace ctx.vpnSubnetCidr
  "    " ++ GoStrings.trimSpace
    (clause "iifname \"" ctx.tunnelInterface "\" " ++ clause "ip saddr " cidr " " ++
      (if r.proto = .any then "" else r.proto.text ++ " ") ++
      clause "ip daddr " r.destination " " ++
      clause "dport \x7b " r.ports " \x7d " ++ (if r.action = .deny then
      "drop" else "accept")) ++ ";"

/-- The first text that is not empty. -/
def firstOf : List String → String
  | [] => ""
  | s :: ss => if s = "" then firstOf ss else s

def renderFirewallScriptPreview (node : NodeRef) (defaultPolicy : Policy)
    (baseRules : List FirewallRule) (ctx : TunnelContext) : String :=
  let cidr := GoStrings.trimSpace ctx.vpnSubnetCidr
  String.intercalate "\n"
    (["# firewall preview for node: " ++ firstOf [node.name, node.id, "unknown"],
        "# scope: tunnel interface \"" ++ ctx.tunnelInterface ++ "\" + VPN subnet \"" ++
          firstOf [cidr, ctx.vpnSubnet, "n/a"] ++ "\"",
        "table inet ovpn_clients \x7b", "  chain forward \x7b",
        "    type filter hook forward priority 0;",
        "    policy " ++ (if defaultPolicy = .allow then "accept" else "drop") ++ ";"] ++
      baseRules.map (ruleLine ctx) ++ ["  \x7d", "\x7d"])

/-- A line of the script for an address translation. -/
def natLine (r : FirewallNatRule) : String :=
  let src := clause "ip saddr " r.src " "
  let dst := clause "ip daddr " r.dst " "
  let target := clause "to " r.toAddress ""
  let line := match r.type with
    | .dnat => src ++ dst ++ clause "iifname \"" r.outInterface "\" " ++ "dnat " ++ target
    | .snat => src ++ dst ++ clause "oifname \"" r.outInterface "\" " ++ " snat " ++ target
    | .masquerade => src ++ dst ++ clause "oifname \"" r.outInterface "\" " ++ " masquerade"
  "    " ++ GoStrings.trimSpace line ++ ";"

def renderFirewallDualScriptPreview (node : NodeRef) (tunnelDefaultPolicy : Policy)
    (tunnelRules : List FirewallRule) (natRules : List FirewallNatRule) (ctx : TunnelContext) :
    String :=
  let post := natRules.filter (·.type ≠ .dnat)
  let pre := natRules.filter (·.type = .dnat)
  let nat := ["table ip ovpn_nat \x7b", "  chain postrouting \x7b",
      "    type nat hook postrouting priority 100;"] ++ post.map natLine ++ ["  \x7d",
      "  chain prerouting \x7b", "    type nat hook prerouting priority -100;"] ++
    pre.map natLine ++ ["  \x7d", "\x7d"]
  String.intercalate "\n"
    [renderFirewallScriptPreview node tunnelDefaultPolicy tunnelRules ctx,
      "", "# --- tunnel nat ---", String.intercalate "\n" nat]

/-! ### The answer -/

/-- The tunnel configuration in an answer. -/
structure TunnelBody where
  defaultPolicy : Policy
  rules : List FirewallRule
  natRules : List FirewallNatRule
  deriving DecidableEq, Repr

structure FirewallBody where
  tunnel : TunnelBody
  tunnelContext : TunnelContext
  preview : String
  deriving DecidableEq, Repr

def firewallBody (node : NodeRef) (policy : Policy) (rules : List FirewallRule)
    (natRules : List FirewallNatRule) (ctx : TunnelContext) : FirewallBody where
  tunnel := ⟨policy, rules, natRules⟩
  tunnelContext := ctx
  preview := renderFirewallDualScriptPreview node policy rules natRules ctx

/-- The body of `GetFirewallConfigForPanel` for a node and its settings row. -/
def getFirewallConfigForPanel (node : NodeRef) (row : Option Openvpn.Settings) : FirewallBody :=
  let settings := row.getD ∅
  let fallbackDefault := normalizeFirewallDefaultPolicy (settings.get "panelFirewallDefaultPolicy")
  let fallbackRules := normalizeFirewallBaseRules (settings.get "panelFirewallBaseRules")
  let tunnelDefaultPolicy :=
    if (settings.get "panelFirewallTunnelDefaultPolicy").isNull then fallbackDefault
    else normalizeFirewallDefaultPolicy (settings.get "panelFirewallTunnelDefaultPolicy")
  let tunnelRules :=
    if (settings.get "panelFirewallTunnelRules").isNull then fallbackRules
    else normalizeFirewallBaseRules (settings.get "panelFirewallTunnelRules")
  let natRules := normalizeFirewallNatRules (settings.get "panelFirewallTunnelNatRules")
  firewallBody node tunnelDefaultPolicy tunnelRules natRules (parseTunnelContext settings)

end OpenvpnControl.Panel
