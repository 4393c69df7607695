import OpenvpnControl.Agentsnapshot.Tunnel
import OpenvpnControl.Panel.FirewallPreview

/-!
# The firewall shown and the firewall enforced

The panel shows the tunnel firewall that `GetFirewallConfigForPanel` normalises; the agent enforces
the one that `loadTunnelFirewall` normalises. The two normalisers treat a row that is no object, a
padded text, a missing id, the device `tun` and a list without rules in different ways. This file
says for which settings they agree.

## Main definitions

* `RuleRowAgrees`, `NatRowAgrees`: rows on which the normalisers agree.
* `IsDefaultRule`: rows the agent reads as the rule the panel makes of no object.
* `TunnelAgrees`: settings on which the two tunnels agree.

## Main results

* `shown_eq_enforced_iff`: the panel shows what the agent gets exactly for such settings.
-/

namespace OpenvpnControl.Firewall

open Agentsnapshot (TunnelConfig loadTunnelFirewall)
open Panel (TunnelBody getFirewallConfigForPanel normalizeFirewallRule normalizeFirewallNatRule)

/-- The tunnel configuration of a snapshot, where a nil slice is a list without rows. -/
def enforced (config : TunnelConfig) : TunnelBody :=
  ⟨config.defaultPolicy, config.rules.elems, config.natRules.elems⟩

/-! ### One row -/

/-- A row has an id that is not padded. -/
def HasPlainId (row : Json) : Prop :=
  str row.asFields "id" ≠ "" ∧ trimmed row.asFields "id" = str row.asFields "id"

/-- The rule row is an object with a plain id, and its protocol is not padded unless it is read as
`tcp` anyway. -/
structure RuleRowAgrees (row : Json) : Prop where
  isObj : row.isObj = true
  id : HasPlainId row
  proto : GoStrings.toLower (trimmed row.asFields "proto") ∈ ["udp", "icmp", "any"] →
    trimmed row.asFields "proto" = str row.asFields "proto"

/-- The translation row is an object with a plain id, its type is not padded unless it is read as
`masquerade` anyway, and its device is neither `tun` nor `tap`. -/
structure NatRowAgrees (row : Json) : Prop where
  isObj : row.isObj = true
  id : HasPlainId row
  type : GoStrings.toLower (trimmed row.asFields "type") ∈ ["snat", "dnat"] →
    trimmed row.asFields "type" = str row.asFields "type"
  device : GoStrings.toLower (trimmed row.asFields "outInterface") ∉ ["tun", "tap"]

/-- The row is an object that the agent reads as the rule the panel numbers `j` and makes of no
object. -/
structure IsDefaultRule (j : ℕ) (row : Json) : Prop where
  id : str row.asFields "id" = "rule-" ++ Nat.repr (j + 1)
  action : GoStrings.toLower (str row.asFields "action") ≠ "deny"
  proto : GoStrings.toLower (str row.asFields "proto") ∉ ["udp", "icmp", "any"]
  destination : trimmed row.asFields "destination" = ""
  ports : trimmed row.asFields "ports" = ""
  note : trimmed row.asFields "note" = ""

/-- Both sides recognise `deny`. -/
theorem action_agrees (s : String) :
    Action.ofText (GoStrings.toLower s) =
      if GoStrings.equalFold s "deny" then .deny else .allow := by
  have hdeny : ∀ d ∈ "deny".toList, GoStrings.PlainLetter d := by decide
  exact if_congr (GoStrings.toLower_eq_iff_equalFold hdeny) rfl rfl

/-- Both sides recognise `allow`. -/
theorem policy_agrees (raw : Json) :
    Agentsnapshot.normalizeDefaultPolicy raw = Panel.normalizeFirewallDefaultPolicy raw := by
  have hallow : ∀ d ∈ "allow".toList, GoStrings.PlainLetter d := by decide
  cases raw with
  | str s => exact if_congr (GoStrings.toLower_eq_iff_equalFold hallow) rfl rfl
  | _ => rfl

theorem ofText_proto_eq_tcp {s : String} : Proto.ofText s = .tcp ↔ s ∉ ["udp", "icmp", "any"] := by
  simp only [Proto.ofText, List.mem_cons, List.not_mem_nil, or_false, not_or]
  split_ifs <;> simp_all

theorem ofText_natType_eq_masquerade {s : String} :
    NatType.ofText s = .masquerade ↔ s ∉ ["snat", "dnat"] := by
  simp only [NatType.ofText, List.mem_cons, List.not_mem_nil, or_false, not_or]
  split_ifs <;> simp_all

/-- A name is read from the text and from the trimmed text alike, unless the trimmed text is one of
the names that are not the default and the text is padded. -/
theorem padded_agrees {α : Type} {names : List String} {ofText : String → α} {d : α}
    (hnames : ∀ t ∈ names, ∀ c ∈ t.toList, GoStrings.isSpace c = false)
    (hdefault : ∀ t, ofText t = d ↔ t ∉ names) (s : String) :
    ofText (GoStrings.toLower s) = ofText (GoStrings.toLower (GoStrings.trimSpace s)) ↔
      (GoStrings.toLower (GoStrings.trimSpace s) ∈ names → GoStrings.trimSpace s = s) := by
  constructor
  · intro heq hmem
    have hs : GoStrings.toLower s ∈ names := by
      by_contra hnot
      exact (hdefault _).1 (heq ▸ (hdefault _).2 hnot) hmem
    exact GoStrings.trimSpace_of_toLower rfl (hnames _ hs)
  · intro h
    by_cases hmem : GoStrings.toLower (GoStrings.trimSpace s) ∈ names
    · rw [h hmem]
    · have hs : GoStrings.toLower s ∉ names := by
        intro hin
        have htrim := GoStrings.trimSpace_of_toLower rfl (hnames _ hin)
        exact hmem (htrim.symm ▸ hin)
      rw [(hdefault _).2 hs, (hdefault _).2 hmem]

/-- The ids of both sides: the raw text or a number counted from two, and the trimmed text or a
number counted from one. -/
theorem id_agrees {pre s : String} (hpre : ∃ c ∈ pre.toList, GoStrings.isSpace c = false) (i : ℕ) :
    ((if s = "" then fmtID pre (i + 1) else s) =
        if GoStrings.trimSpace s = "" then pre ++ "-" ++ Nat.repr (i + 1)
        else GoStrings.trimSpace s) ↔ s ≠ "" ∧ GoStrings.trimSpace s = s := by
  by_cases hs : s = ""
  · subst hs
    refine iff_of_false ?_ fun h => h.1 rfl
    simp only [fmtID, GoStrings.trimSpace_empty, if_pos, String.append_right_inj,
      GoStrings.repr_inj]
    omega
  · by_cases htrim : GoStrings.trimSpace s = ""
    · -- a blank id is kept by the agent and numbered by the panel
      rw [if_neg hs, if_pos htrim]
      refine iff_of_false ?_ fun h => hs (h.2 ▸ htrim)
      rintro rfl
      obtain ⟨c, hc, hspace⟩ := hpre
      have hblank := GoStrings.trimSpace_eq_empty_iff.1 htrim c (by
        simp only [String.toList_append, List.mem_append]
        exact Or.inl (Or.inl hc))
      rw [hspace] at hblank
      cases hblank
    · rw [if_neg hs, if_neg htrim]
      exact ⟨fun h => ⟨hs, h.symm⟩, fun h => h.2.symm⟩

/-- The device of the panel is the text unless it is `tun` or `tap`. -/
theorem device_agrees (s : String) :
    (GoStrings.trimSpace s =
        if GoStrings.trimSpace s = "" then ""
        else Panel.linuxIfaceFromOpenvpnDev (GoStrings.trimSpace s)) ↔
      GoStrings.toLower (GoStrings.trimSpace s) ∉ ["tun", "tap"] := by
  generalize htrim : GoStrings.trimSpace s = t
  have ht : GoStrings.trimSpace t = t := by
    rw [← htrim, GoStrings.trimSpace_trimSpace]
  by_cases hempty : t = ""
  · subst hempty
    simp
    decide
  · simp only [if_neg hempty, Panel.linuxIfaceFromOpenvpnDev, ht, linuxDevice, List.mem_cons,
      List.not_mem_nil, or_false, not_or]
    by_cases htun : GoStrings.toLower t = "tun"
    · rw [if_pos htun]
      refine iff_of_false ?_ fun h => h.1 htun
      rintro rfl
      exact absurd htun (by decide)
    · by_cases htap : GoStrings.toLower t = "tap"
      · rw [if_neg htun, if_pos htap]
        refine iff_of_false ?_ fun h => h.2 htap
        rintro rfl
        exact absurd htap (by decide)
      · simp [htun, htap]

/-- **One rule row.** -/
theorem ruleRow_agrees (i : ℕ) (row : Json) :
    normalizeRuleRow i row = some (normalizeFirewallRule row.asFields i) ↔ RuleRowAgrees row := by
  by_cases hobj : row.isObj = true
  · obtain ⟨src, rfl⟩ := Json.isObj_eq_true.1 hobj
    have hid := @id_agrees "rule" (str src "id") (by decide) i
    have hproto := @padded_agrees Proto ["udp", "icmp", "any"] Proto.ofText .tcp (by decide)
      (fun _ => ofText_proto_eq_tcp) (str src "proto")
    simp only [normalizeRuleRow, normalizeFirewallRule, Json.asFields, Option.some.injEq,
      FirewallRule.mk.injEq, and_true]
    exact ⟨fun h => ⟨rfl, hid.1 h.1, hproto.1 h.2.2⟩,
      fun h => ⟨hid.2 h.id, action_agrees _, hproto.2 h.proto⟩⟩
  · refine iff_of_false ?_ fun h => hobj h.isObj
    cases row with
    | obj src => exact absurd rfl hobj
    | _ =>
      intro h
      cases h

/-- **One translation row.** -/
theorem natRow_agrees (i : ℕ) (row : Json) :
    normalizeNatRow i row = some (normalizeFirewallNatRule row.asFields i) ↔ NatRowAgrees row := by
  by_cases hobj : row.isObj = true
  · obtain ⟨src, rfl⟩ := Json.isObj_eq_true.1 hobj
    have hid := @id_agrees "nat" (str src "id") (by decide) i
    have htype := @padded_agrees NatType ["snat", "dnat"] NatType.ofText .masquerade (by decide)
      (fun _ => ofText_natType_eq_masquerade) (str src "type")
    have hdevice := device_agrees (str src "outInterface")
    simp only [normalizeNatRow, normalizeFirewallNatRule, Json.asFields, Option.some.injEq,
      FirewallNatRule.mk.injEq, true_and, and_true]
    exact ⟨fun h => ⟨rfl, hid.1 h.1, htype.1 h.2.1, hdevice.1 h.2.2⟩,
      fun h => ⟨hid.2 h.id, htype.2 h.type, hdevice.2 h.device⟩⟩
  · refine iff_of_false ?_ fun h => hobj h.isObj
    cases row with
    | obj src => exact absurd rfl hobj
    | _ =>
      intro h
      cases h

/-- **A legacy row in place of a rule the panel makes of no object.** The agent numbers a row
without an id past the panel's number, so such a row never agrees. -/
theorem defaultRow_agrees {i j : ℕ} (hij : j ≤ i) (src : List (String × Json)) :
    normalizeRuleRow i (.obj src) = some (normalizeFirewallRule [] j) ↔
      IsDefaultRule j (.obj src) := by
  have hdefault : normalizeFirewallRule [] j =
      ⟨"rule-" ++ Nat.repr (j + 1), .allow, .tcp, "", "", ""⟩ := by
    have hempty (k : String) : trimmed [] k = "" := GoStrings.trimSpace_empty
    simp only [normalizeFirewallRule, hempty, if_true]
    rfl
  have hid : (if str src "id" = "" then fmtID "rule" (i + 1) else str src "id") =
      "rule-" ++ Nat.repr (j + 1) ↔ str src "id" = "rule-" ++ Nat.repr (j + 1) := by
    by_cases hempty : str src "id" = ""
    · rw [if_pos hempty, hempty]
      refine iff_of_false ?_ fun h => ?_
      · have hnum : ("rule-" : String) = "rule" ++ "-" := rfl
        rw [fmtID, hnum, String.append_right_inj, GoStrings.repr_inj]
        omega
      · simpa using congrArg String.toList h
    · rw [if_neg hempty]
  have haction : Action.ofText (GoStrings.toLower (str src "action")) = .allow ↔
      GoStrings.toLower (str src "action") ≠ "deny" := by
    rw [Action.ofText]
    split_ifs with h <;> simp [h]
  simp only [hdefault, normalizeRuleRow, Option.some.injEq, FirewallRule.mk.injEq, hid, haction,
    ofText_proto_eq_tcp]
  exact ⟨fun h => ⟨h.1, h.2.1, h.2.2.1, h.2.2.2.1, h.2.2.2.2.1, h.2.2.2.2.2⟩,
    fun h => ⟨h.id, h.action, h.proto, h.destination, h.ports, h.note⟩⟩

/-! ### Lists of rows -/

/-- A loop that skips elements gives what a loop over all elements gives exactly when it skips none
and gives the same on each. -/
theorem filterMap_eq_map_iff {α β : Type} (f : α → Option β) (g : α → β) (l : List α) :
    l.filterMap f = l.map g ↔ ∀ x ∈ l, f x = some (g x) := by
  induction l with
  | nil => simp
  | cons x l ih =>
    rw [List.map_cons, List.forall_mem_cons, ← ih]
    cases h : f x with
    | none =>
      rw [List.filterMap_cons_none h]
      refine iff_of_false (fun heq => ?_) nofun
      have hle := List.length_filterMap_le f l
      rw [heq, List.length_cons, List.length_map] at hle
      omega
    | some y =>
      rw [List.filterMap_cons_some h, List.cons.injEq, Option.some.injEq]

/-- A condition on rows holds of the numbered rows when it holds of the rows. -/
theorem forall_mem_zipIdx_iff {ρ : Type} {P : ρ → Prop} {rows : List ρ} :
    (∀ p ∈ rows.zipIdx, P p.1) ↔ ∀ r ∈ rows, P r := by
  conv_rhs => rw [← List.zipIdx_map_fst 0 rows]
  simp only [List.forall_mem_map]

/-- The translations agree when every row does. -/
theorem natRules_agree_iff (raw : Json) :
    Panel.normalizeFirewallNatRules raw = (Agentsnapshot.normalizeNatRules raw).elems ↔
      ∀ row ∈ raw.asSlice.elems, NatRowAgrees row := by
  rw [Agentsnapshot.normalizeNatRules_eq, normalizeNatAny, GoSlice.elems_appended,
    Panel.normalizeFirewallNatRules, eq_comm, filterMap_eq_map_iff]
  simp only [natRow_agrees]
  exact forall_mem_zipIdx_iff

/-- The rules of one list agree when every row does. -/
theorem baseRules_agree_iff (raw : Json) :
    Panel.normalizeFirewallBaseRules raw = (Agentsnapshot.normalizeBaseRules raw).elems ↔
      ∀ row ∈ raw.asSlice.elems, RuleRowAgrees row := by
  rw [Agentsnapshot.normalizeBaseRules_eq, normalizeRulesAny, GoSlice.elems_appended,
    Panel.normalizeFirewallBaseRules, eq_comm, filterMap_eq_map_iff]
  simp only [ruleRow_agrees]
  exact forall_mem_zipIdx_iff

/-- The agent finds no rule in a list exactly when no row is an object. -/
theorem normalizeBaseRules_eq_nil_iff (raw : Json) :
    (Agentsnapshot.normalizeBaseRules raw).elems = [] ↔
    raw.asSlice.elems.any Json.isObj = false := by
  rw [Agentsnapshot.normalizeBaseRules_eq, normalizeRulesAny, GoSlice.elems_appended,
    List.filterMap_eq_nil_iff, List.any_eq_false]
  refine Iff.trans (forall₂_congr fun p _ => ?_) forall_mem_zipIdx_iff
  obtain ⟨raw, i⟩ := p
  cases raw <;> simp [normalizeRuleRow, Json.isObj]

/-- **The legacy rules in place of a list without rules.** The rows are numbered from `n` by the
agent and the rules from `m ≤ n` by the panel. -/
theorem fallback_agrees_iff (rows : List Json) (n m k : ℕ) (hmn : m ≤ n) :
    (rows.zipIdx n).filterMap (fun (raw, i) => normalizeRuleRow i raw) =
        (List.range' m k).map (normalizeFirewallRule []) ↔
      List.Forall₂ IsDefaultRule (List.range' m k) (rows.filter Json.isObj) := by
  induction rows generalizing n m k with
  | nil => cases k <;> simp [List.range'_succ]
  | cons row rows ih =>
    rw [List.zipIdx_cons]
    by_cases hobj : row.isObj = true
    · obtain ⟨src, rfl⟩ := Json.isObj_eq_true.1 hobj
      rw [List.filter_cons_of_pos hobj]
      cases k with
      | zero => simp [normalizeRuleRow]
      | succ k =>
        have hrow := defaultRow_agrees hmn src
        rw [List.range'_succ, List.forall₂_cons, List.map_cons, ← ih (n + 1) (m + 1) k (by omega),
          ← hrow]
        simp [normalizeRuleRow]
    · have hskip : normalizeRuleRow n row = none := by
        cases row with
        | obj src => exact absurd rfl hobj
        | _ => rfl
      rw [List.filter_cons_of_neg hobj,
        @List.filterMap_cons_none _ _ (fun (p : Json × ℕ) => normalizeRuleRow p.2 p.1) (row, n) _
          hskip]
      exact ih (n + 1) m k (by omega)

/-! ### The whole tunnel -/

/-- The filter rules agree. Where the tunnel has no rules of its own the legacy rows must agree.
Where it has a list with an object its rows must agree. Where it has anything else the panel makes
one default rule of each row and the agent falls back to the legacy rows, so these must be read as
the same default rules. -/
def RulesAgree (settings : Openvpn.Settings) : Prop :=
  let base := (settings.get "panelFirewallBaseRules").asSlice.elems
  let tunnel := (settings.get "panelFirewallTunnelRules").asSlice.elems
  if (settings.get "panelFirewallTunnelRules").isNull then ∀ row ∈ base, RuleRowAgrees row
  else if tunnel.any Json.isObj then ∀ row ∈ tunnel, RuleRowAgrees row
  else List.Forall₂ IsDefaultRule (List.range tunnel.length) (base.filter Json.isObj)

/-- The settings on which panel and agent agree. -/
structure TunnelAgrees (settings : Openvpn.Settings) : Prop where
  rules : RulesAgree settings
  natRules : ∀ row ∈ (settings.get "panelFirewallTunnelNatRules").asSlice.elems, NatRowAgrees row

/-- The default policies agree on all settings. -/
theorem defaultPolicy_agrees (node : Panel.NodeRef) (settings : Openvpn.Settings) :
    (getFirewallConfigForPanel node (some settings)).tunnel.defaultPolicy =
      (enforced (loadTunnelFirewall (some settings)).1).defaultPolicy := by
  simp only [getFirewallConfigForPanel, Panel.firewallBody, enforced, loadTunnelFirewall,
    Option.getD_some, policy_agrees]
  by_cases hnull : (settings.get "panelFirewallTunnelDefaultPolicy").isNull = true
  · have hdeny : Panel.normalizeFirewallDefaultPolicy
        (settings.get "panelFirewallTunnelDefaultPolicy") = .deny := by
      cases hv : settings.get "panelFirewallTunnelDefaultPolicy" with
      | null => decide
      | _ =>
        rw [hv] at hnull
        cases hnull
    rw [if_pos hnull, if_pos ⟨hdeny, hnull⟩]
  · rw [if_neg hnull, if_neg fun h => hnull h.2]

/-- The filter rules agree exactly under `RulesAgree`. -/
theorem rules_agree_iff (node : Panel.NodeRef) (settings : Openvpn.Settings) :
    (getFirewallConfigForPanel node (some settings)).tunnel.rules =
        (enforced (loadTunnelFirewall (some settings)).1).rules ↔ RulesAgree settings := by
  simp only [getFirewallConfigForPanel, Panel.firewallBody, enforced, loadTunnelFirewall,
    Option.getD_some, RulesAgree]
  set base := settings.get "panelFirewallBaseRules"
  set tunnel := settings.get "panelFirewallTunnelRules"
  by_cases hnull : tunnel.isNull = true
  · have hnil : (Agentsnapshot.normalizeBaseRules tunnel).elems = [] := by
      rw [normalizeBaseRules_eq_nil_iff]
      cases htunnel : tunnel with
      | null => rfl
      | _ =>
        rw [htunnel] at hnull
        cases hnull
    rw [if_pos hnull, if_pos hnull, if_pos hnil]
    exact baseRules_agree_iff base
  · rw [if_neg hnull, if_neg hnull]
    by_cases hany : tunnel.asSlice.elems.any Json.isObj = true
    · have hcons : (Agentsnapshot.normalizeBaseRules tunnel).elems ≠ [] := by
        rw [ne_eq, normalizeBaseRules_eq_nil_iff, hany]
        decide
      rw [if_neg hcons, if_pos hany]
      exact baseRules_agree_iff tunnel
    · rw [Bool.not_eq_true] at hany
      have hdefault : Panel.normalizeFirewallBaseRules tunnel =
          (List.range' 0 tunnel.asSlice.elems.length).map (normalizeFirewallRule []) := by
        rw [Panel.normalizeFirewallBaseRules, ← List.zipIdx_map_snd 0 tunnel.asSlice.elems,
          List.map_map]
        refine List.map_congr_left fun p hp => ?_
        have hobj := List.any_eq_false.1 hany p.1 (List.fst_mem_of_mem_zipIdx hp)
        simp only [Function.comp_apply,
          Json.asFields_of_not_isObj (Bool.eq_false_of_not_eq_true hobj)]
      rw [if_pos ((normalizeBaseRules_eq_nil_iff tunnel).2 hany), if_neg (by simp [hany]), hdefault,
        eq_comm, Agentsnapshot.normalizeBaseRules_eq, normalizeRulesAny, GoSlice.elems_appended,
        List.range_eq_range']
      exact fallback_agrees_iff base.asSlice.elems 0 0 _ le_rfl

/-- **The firewall shown is the firewall enforced** exactly for the settings in `TunnelAgrees`. The
panel and the agent normalise the stored lists on their own. The default policies agree on all
settings, so the condition is on the rows of the two lists. -/
theorem shown_eq_enforced_iff (node : Panel.NodeRef) (settings : Openvpn.Settings) :
    (getFirewallConfigForPanel node (some settings)).tunnel =
      enforced (loadTunnelFirewall (some settings)).1 ↔ TunnelAgrees settings := by
  have hpolicy := defaultPolicy_agrees node settings
  have hrules := rules_agree_iff node settings
  have hnat := natRules_agree_iff (settings.get "panelFirewallTunnelNatRules")
  constructor
  · intro h
    refine ⟨hrules.1 (congrArg TunnelBody.rules h), hnat.1 (congrArg TunnelBody.natRules h)⟩
  · intro h
    have hnat' := hnat.2 h.natRules
    exact TunnelBody.mk.injEq .. ▸ ⟨hpolicy, hrules.2 h.rules, hnat'⟩

/-- A rule without an id is numbered from one by the panel and from two by the agent. -/
theorem shown_ne_enforced :
    ¬∀ (node : Panel.NodeRef) (settings : Openvpn.Settings),
      (getFirewallConfigForPanel node (some settings)).tunnel =
        enforced (loadTunnelFirewall (some settings)).1 := by
  intro h
  have h₀ := h ⟨"n1", "node"⟩ (GoMap.ofList [("panelFirewallTunnelRules", .arr [.obj []])])
  exact absurd (congrArg TunnelBody.rules h₀) (by decide +kernel)

end OpenvpnControl.Firewall
