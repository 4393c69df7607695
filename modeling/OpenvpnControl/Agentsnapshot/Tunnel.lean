import OpenvpnControl.Firewall.Stored
import OpenvpnControl.Openvpn.Settings

/-!
# The tunnel part of an agent snapshot

The agent of a node enforces the tunnel firewall that the package `agentsnapshot` reads from the
stored settings of the node. Legacy rules and the legacy policy are used where the tunnel has none.

## Main definitions

* `loadTunnelFirewall`: the tunnel firewall and the tunnel of a settings row.
* `snapshotKeys`: the settings it reads.

## Main results

* `loadTunnelFirewall_congr`: it reads no other settings.
-/

namespace OpenvpnControl.Agentsnapshot

open Firewall (FirewallRule FirewallNatRule Policy TunnelContext)

structure TunnelConfig where
  defaultPolicy : Policy
  rules : GoSlice FirewallRule
  natRules : GoSlice FirewallNatRule
  deriving DecidableEq, Repr

def normalizeDefaultPolicy (raw : Json) : Policy :=
  match raw with
  | .str s => if GoStrings.toLower s = "allow" then .allow else .deny
  | _ => .deny

/-- The rows as `jsonMustObject` writes them; a nil slice is written `null`. -/
def rowsJson (raw : Json) : Json := (GoSlice.appended raw.asSlice.elems).toJson id

def normalizeBaseRules (raw : Json) : GoSlice FirewallRule :=
  (Firewall.parseStored (some (.obj [("rules", rowsJson raw)]))).rules

def normalizeNatRules (raw : Json) : GoSlice FirewallNatRule :=
  (Firewall.parseStored (some (.obj [("natRules", rowsJson raw)]))).natRules

/-! ### The tunnel -/

/-- The digits of an octet, summed up in a 64-bit `int` that wraps around. -/
def octetValue : ℤ → List Char → Option ℤ
  | n, [] => some n
  | n, c :: l =>
    if '0' ≤ c ∧ c ≤ '9' then octetValue ((n * 10 + (c.toNat - 48 : ℤ)).bmod (2 ^ 64)) l else none

/-- An octet of `ipv4OctetsToInt`. -/
def octet (p : String) : Option ℕ :=
  (octetValue 0 p.toList).bind fun n => if n < 0 ∨ 255 < n then none else some n.toNat

/-- `ipv4OctetsToInt`, where `none` stands for `-1`. -/
def ipv4OctetsToInt (s : String) : Option (BitVec 32) :=
  match GoStrings.split s '.' with
  | [a, b, c, d] =>
    match octet a, octet b, octet c, octet d with
    | some a, some b, some c, some d => some (Firewall.packOctets a b c d)
    | _, _, _, _ => none
  | _ => none

/-- `netmaskDottedToPrefix`, where `none` stands for `-1`. -/
def netmaskDottedToPrefix (maskStr : String) : Option ℕ :=
  (ipv4OctetsToInt maskStr).bind Firewall.maskPrefix

def openvpnServerLineToCidr (serverLine : String) : String :=
  match GoStrings.fields (GoStrings.trimSpace serverLine) with
  | [ip, second] =>
    if (GoStrings.atoi second).any fun pl => decide (0 ≤ pl ∧ pl ≤ 32) then ip ++ "/" ++ second
    else if GoStrings.contains second "." then
      match netmaskDottedToPrefix second with
      | some pref => ip ++ "/" ++ Nat.repr pref
      | none => ""
    else ""
  | _ => ""

def linuxIfaceFromOpenvpnDev (dev : String) : String :=
  if dev = "" then "" else Firewall.linuxDevice dev

def parseTunnelContext (settings : Openvpn.Settings) : TunnelContext :=
  let rawDev := GoStrings.trimSpace (settings.get "dev").asString
  let tunnelInterface := linuxIfaceFromOpenvpnDev rawDev
  let serverDirective := GoStrings.trimSpace (settings.get "server").asString
  { tunnelInterface := if tunnelInterface = "" then "tun0" else tunnelInterface
    vpnSubnet :=
      match GoStrings.fields serverDirective with
      | a :: b :: _ => a ++ " " ++ b
      | _ => ""
    vpnSubnetCidr := openvpnServerLineToCidr serverDirective }

/-! ### The firewall -/

/-- `loadTunnelFirewall`, from the settings row of the node. -/
def loadTunnelFirewall (row : Option Openvpn.Settings) : TunnelConfig × TunnelContext :=
  let st := row.getD ∅
  let fallbackDefault := normalizeDefaultPolicy (st.get "panelFirewallDefaultPolicy")
  let fallbackRules := normalizeBaseRules (st.get "panelFirewallBaseRules")
  let tunnelDefault := normalizeDefaultPolicy (st.get "panelFirewallTunnelDefaultPolicy")
  let tunnelDefault :=
    if tunnelDefault = .deny ∧ (st.get "panelFirewallTunnelDefaultPolicy").isNull then
      fallbackDefault
    else tunnelDefault
  let tunnelRules := normalizeBaseRules (st.get "panelFirewallTunnelRules")
  let tunnelRules := if tunnelRules.elems = [] then fallbackRules else tunnelRules
  let natRules := normalizeNatRules (st.get "panelFirewallTunnelNatRules")
  (⟨tunnelDefault, tunnelRules, natRules⟩, parseTunnelContext st)

/-- The settings a snapshot reads. -/
def snapshotKeys : List String :=
  ["panelFirewallDefaultPolicy", "panelFirewallBaseRules", "panelFirewallTunnelDefaultPolicy",
    "panelFirewallTunnelRules", "panelFirewallTunnelNatRules", "dev", "server"]

/-- **The tunnel part depends on the snapshot's keys only.** -/
theorem loadTunnelFirewall_congr {s t : Option Openvpn.Settings}
    (h : ∀ k ∈ snapshotKeys, (s.getD ∅).get k = (t.getD ∅).get k) :
    loadTunnelFirewall s = loadTunnelFirewall t := by
  simp only [snapshotKeys, List.forall_mem_cons] at h
  obtain ⟨hpolicy, hbase, htunnelPolicy, hrules, hnat, hdev, hserver, -⟩ := h
  simp only [loadTunnelFirewall, parseTunnelContext, hpolicy, hbase, htunnelPolicy, hrules, hnat,
    hdev, hserver]

theorem normalizeBaseRules_eq (raw : Json) :
    normalizeBaseRules raw = Firewall.normalizeRulesAny raw.asSlice.elems := by
  simp [normalizeBaseRules, Firewall.parseStored, Json.field, rowsJson]

theorem normalizeNatRules_eq (raw : Json) :
    normalizeNatRules raw = Firewall.normalizeNatAny raw.asSlice.elems := by
  simp [normalizeNatRules, Firewall.parseStored, Json.field, rowsJson]

end OpenvpnControl.Agentsnapshot
