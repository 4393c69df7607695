import OpenvpnControl.Library.Json

/-!
# Stored firewall rules

A VPN user, an organization and a node store their rules as JSON. This file holds the package
`firewall`: how stored rules are read, how they are written, and how the rules of an organization
and of a user are composed.

A rule is a map with a fixed set of keys in the source; here it is a structure, whose `action`,
`proto` and `type` can hold no other texts than the normalisation lets through.

## Main definitions

* `FirewallRule`, `FirewallNatRule`, `Stored`.
* `normalizeRulesAny`, `normalizeNatAny`: the rows that are objects, normalised.
* `parseStored`, `serializeForDB`: reading and writing.
* `composeLevels`: the rules of an organization under those of a user.
* `Policy`, `TunnelContext`, `maskPrefix`, `linuxDevice`: what the packages `panel` and
  `agentsnapshot` both say about a tunnel.
-/

namespace OpenvpnControl.Firewall

/-! ### Rows -/

/-- What a rule does with a packet. -/
inductive Action where
  | allow
  | deny
  deriving DecidableEq, Repr

/-- The protocol of a rule. -/
inductive Proto where
  | tcp
  | udp
  | icmp
  | any
  deriving DecidableEq, Repr

/-- The kind of an address translation. -/
inductive NatType where
  | masquerade
  | snat
  | dnat
  deriving DecidableEq, Repr

/-- How the rules of two levels are composed. -/
inductive Mode where
  | merge
  | replace
  deriving DecidableEq, Repr

namespace Action

/-- The text of an action. -/
def text : Action → String
  | allow => "allow"
  | deny => "deny"

/-- The action a text denotes. -/
def ofText (s : String) : Action := if s = "deny" then deny else allow

end Action

namespace Proto

/-- The text of a protocol. -/
def text : Proto → String
  | tcp => "tcp"
  | udp => "udp"
  | icmp => "icmp"
  | any => "any"

/-- The protocol a text denotes, where any other text is `tcp`. -/
def ofText (s : String) : Proto :=
  if s = "udp" then udp else if s = "icmp" then icmp else if s = "any" then any else tcp

end Proto

namespace NatType

/-- The text of a kind of translation. -/
def text : NatType → String
  | masquerade => "masquerade"
  | snat => "snat"
  | dnat => "dnat"

/-- The kind a text denotes, where any other text is `masquerade`. -/
def ofText (s : String) : NatType :=
  if s = "snat" then snat else if s = "dnat" then dnat else masquerade

end NatType

namespace Mode

/-- The text of a mode. -/
def text : Mode → String
  | merge => "merge"
  | replace => "replace"

/-- The mode a text denotes. -/
def ofText (s : String) : Mode := if s = "replace" then replace else merge

end Mode

/-- A filter rule. -/
structure FirewallRule where
  id : String
  action : Action
  proto : Proto
  destination : String
  ports : String
  note : String
  deriving DecidableEq, Repr

/-- An address translation. -/
structure FirewallNatRule where
  id : String
  type : NatType
  src : String
  dst : String
  outInterface : String
  toAddress : String
  note : String
  deriving DecidableEq, Repr

/-- The JSON object of a rule, with its keys in order. -/
def FirewallRule.toJson (r : FirewallRule) : Json :=
  .obj [("action", .str r.action.text), ("destination", .str r.destination), ("id", .str r.id),
    ("note", .str r.note), ("ports", .str r.ports), ("proto", .str r.proto.text)]

/-- The JSON object of a translation, with its keys in order. -/
def FirewallNatRule.toJson (r : FirewallNatRule) : Json :=
  .obj [("dst", .str r.dst), ("id", .str r.id), ("note", .str r.note),
    ("outInterface", .str r.outInterface), ("src", .str r.src), ("toAddress", .str r.toAddress),
    ("type", .str r.type.text)]

def fmtID (pre : String) (n : ℕ) : String := pre ++ "-" ++ Nat.repr (n + 1)

/-- The text of a field. -/
def str (fields : List (String × Json)) (k : String) : String := (Json.field fields k).asString

/-- The text of a field, without surrounding white space. -/
def trimmed (fields : List (String × Json)) (k : String) : String :=
  GoStrings.trimSpace (str fields k)

/-- The body of the loop of `normalizeRulesAny`; a row that is no object is skipped. -/
def normalizeRuleRow (i : ℕ) : Json → Option FirewallRule
  | .obj src => some
    { id := if str src "id" = "" then fmtID "rule" (i + 1) else str src "id"
      action := .ofText (GoStrings.toLower (str src "action"))
      proto := .ofText (GoStrings.toLower (str src "proto"))
      destination := trimmed src "destination"
      ports := trimmed src "ports"
      note := trimmed src "note" }
  | _ => none

def normalizeRulesAny (rows : List Json) : GoSlice FirewallRule :=
  .appended (rows.zipIdx.filterMap fun (raw, i) => normalizeRuleRow i raw)

/-- The body of the loop of `normalizeNatAny`; a row that is no object is skipped. -/
def normalizeNatRow (i : ℕ) : Json → Option FirewallNatRule
  | .obj src => some
    { id := if str src "id" = "" then fmtID "nat" (i + 1) else str src "id"
      type := .ofText (GoStrings.toLower (str src "type"))
      src := trimmed src "src"
      dst := trimmed src "dst"
      outInterface := trimmed src "outInterface"
      toAddress := trimmed src "toAddress"
      note := trimmed src "note" }
  | _ => none

def normalizeNatAny (rows : List Json) : GoSlice FirewallNatRule :=
  .appended (rows.zipIdx.filterMap fun (raw, i) => normalizeNatRow i raw)

/-! ### Reading and writing -/

/-- The rules of one level. -/
structure Stored where
  mode : Mode
  rules : GoSlice FirewallRule
  natRules : GoSlice FirewallNatRule
  deriving DecidableEq, Repr

/-- The rules of a level that stores none. -/
def Stored.empty : Stored := ⟨.merge, .of [], .of []⟩

/-- Can the value be decoded into a map? -/
def isMapOrNull : Json → Bool
  | .null => true
  | .obj _ => true
  | _ => false

/-- `ParseStored`, where `none` is a column that holds `NULL`. A list is the old format, and is read
only when every element can be decoded into a map. -/
def parseStored : Option Json → Stored
  | none => .empty
  | some .null => ⟨.merge, normalizeRulesAny [], .of []⟩
  | some (.arr rows) =>
    if rows.all isMapOrNull then ⟨.merge, normalizeRulesAny rows, .of []⟩ else .empty
  | some (.obj fields) =>
    { mode := .ofText (GoStrings.toLower (str fields "mode"))
      rules := normalizeRulesAny (Json.field fields "rules").asSlice.elems
      natRules := normalizeNatAny (Json.field fields "natRules").asSlice.elems }
  | some _ => .empty

def serializeForDB (mode : String) (rules natRules : Json) : Json :=
  .obj [("mode", .str (Mode.ofText (GoStrings.toLower (GoStrings.trimSpace mode))).text),
    ("natRules", (normalizeNatAny natRules.asSlice.elems).toJson FirewallNatRule.toJson),
    ("rules", (normalizeRulesAny rules.asSlice.elems).toJson FirewallRule.toJson)]

/-! ### Tunnels -/

/-- What happens to a packet that no rule matches. -/
inductive Policy where
  | allow
  | deny
  deriving DecidableEq, Repr

/-- The text of a policy. -/
def Policy.text : Policy → String
  | .allow => "allow"
  | .deny => "deny"

/-- The tunnel of a node, as the settings of its server describe it. -/
structure TunnelContext where
  tunnelInterface : String
  vpnSubnet : String
  vpnSubnetCidr : String
  deriving DecidableEq, Repr

/-- The loop that shifts the leading ones out of a mask; 32 rounds empty every mask. -/
def shiftOnes : ℕ → ℕ → BitVec 32 → ℕ × BitVec 32
  | 0, pref, v => (pref, v)
  | fuel + 1, pref, v => if v.msb then shiftOnes fuel (pref + 1) (v <<< 1) else (pref, v)

/-- The number of leading ones of a mask that has no other ones. -/
def maskPrefix (v : BitVec 32) : Option ℕ :=
  let (pref, rest) := shiftOnes 32 0 v
  if rest = 0 then some pref else none

/-- The bits of four octets. -/
def packOctets (a b c d : ℕ) : BitVec 32 :=
  BitVec.ofNat 32 (a <<< 24 ||| b <<< 16 ||| c <<< 8 ||| d)

/-- The device that `dev tun` and `dev tap` open. -/
def linuxDevice (dev : String) : String :=
  if GoStrings.toLower dev = "tun" then "tun0"
  else if GoStrings.toLower dev = "tap" then "tap0"
  else dev

/-! ### Composition -/

/-- The rules in force. -/
structure Composed where
  mode : Mode
  rules : GoSlice FirewallRule
  natRules : GoSlice FirewallNatRule
  deriving DecidableEq, Repr

/-- `ComposeLevels`: a user that replaces drops the rules of the organization. -/
def composeLevels (orgLike userLike : Stored) : Composed :=
  match userLike.mode, orgLike.mode with
  | .replace, _ => ⟨.replace, userLike.rules, userLike.natRules⟩
  | .merge, .replace =>
    { mode := .replace
      rules := .of (orgLike.rules.elems ++ userLike.rules.elems)
      natRules := .of (orgLike.natRules.elems ++ userLike.natRules.elems) }
  | .merge, .merge =>
    { mode := .merge
      rules := .of (orgLike.rules.elems ++ userLike.rules.elems)
      natRules := .of (orgLike.natRules.elems ++ userLike.natRules.elems) }

end OpenvpnControl.Firewall
