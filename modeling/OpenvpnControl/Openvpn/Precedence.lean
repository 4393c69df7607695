import OpenvpnControl.Openvpn.Settings

/-!
# Which value the merged settings have

`MergeSettingsForDisplay` copies the map of the agent and goes over the stored map three times. Go
visits the keys of a map in any order, so the loops are written here with the orders as arguments.
Every order gives the same map, and each of its entries comes from one rule of precedence.

## Main definitions

* `mergeTurn`, `mergeInOrder`: the merge with the orders of its loops.
* `precedence`: the rule.

## Main results

* `lookup_mergeInOrder`: every order follows the rule.
* `mergeInOrder_eq`: the order does not matter.
-/

namespace OpenvpnControl.Openvpn

variable (scanFloat : String → Option JsonNumber)

/-- One turn of the first loop of `MergeSettingsForDisplay`. -/
def mergeTurn (db agent out : Settings) (k : String) (v : Json) : Settings :=
  if GoStrings.hasPrefix k "panel" then out.insert k v
  else if k = "user" ∨ k = "group" then
    if (db.lookup k).isSome then out.insert k v else out
  else if settingValueIsEmpty v then out
  else if staleZeroFragmentFromDB scanFloat k v agent then out
  else if settingValueIsEmpty (out.get k) then out.insert k v
  else out

/-- `MergeSettingsForDisplay`, where `entries` is the order in which the first loop visits the
entries of `db`, and `onlyKeys` the order in which the second one visits `panelOnlyKeys`. -/
def mergeInOrder (db agent : Settings) (entries : List (String × Json)) (onlyKeys : List String) :
    Settings :=
  let out := entries.foldl (fun out e => mergeTurn scanFloat db agent out e.1 e.2) agent
  let out := onlyKeys.foldl (fun out k => (db.lookup k).elim out fun v => out.insert k v) out
  match db.lookup "auth" with
  | some v => if settingValueIsEmpty v then out else out.insert "auth" v
  | none => out

/-- **The rule of precedence** for a key. -/
def precedence (db agent : Settings) (k : String) : Option Json :=
  if (db.lookup k).isSome ∧ (GoStrings.hasPrefix k "panel" = true ∨ k ∈ panelOnlyKeys ∨ k = "user" ∨
      k = "group") then db.lookup k
  else if k = "auth" ∧ settingValueIsEmpty (db.get k) = false then db.lookup k
  else if settingValueIsEmpty (agent.get k) = false then agent.lookup k
  else if settingValueIsEmpty (db.get k) = false then
    if staleZeroFragmentFromDB scanFloat k (db.get k) agent then none else db.lookup k
  else agent.lookup k

variable {scanFloat} {db agent : Settings} {entries : List (String × Json)} {onlyKeys : List String}

/-- A turn of the first loop rewrites the entry of its key. -/
theorem mergeTurn_eq_alter {k : String} {v : Json} (h : db.lookup k = some v) (out : Settings) :
    mergeTurn scanFloat db agent out k v = out.alter k fun cur =>
      if GoStrings.hasPrefix k "panel" then some v
      else if k = "user" ∨ k = "group" then some v
      else if settingValueIsEmpty v then cur
      else if staleZeroFragmentFromDB scanFloat k v agent then cur
      else if settingValueIsEmpty (cur.getD .null) then some v
      else cur := by
  have hsome : (db.lookup k).isSome = true := by rw [h, Option.isSome_some]
  refine GoMap.ext_lookup fun l => ?_
  rw [GoMap.lookup_alter, mergeTurn, GoMap.get, if_pos hsome]
  by_cases hl : l = k
  · subst hl
    rw [if_pos rfl]
    split_ifs <;> simp
  · rw [if_neg hl]
    split_ifs <;> simp [hl]

/-- **The order does not matter.** -/
theorem mergeInOrder_eq (hentries : db.Visits entries) (honly : onlyKeys.Perm panelOnlyKeys) :
    mergeInOrder scanFloat db agent entries onlyKeys =
    mergeSettingsForDisplay scanFloat db agent := by
  have hturns : entries.foldl (fun out e => mergeTurn scanFloat db agent out e.1 e.2) agent =
      db.range (fun k v cur =>
        if GoStrings.hasPrefix k "panel" then some v
        else if k = "user" ∨ k = "group" then some v
        else if settingValueIsEmpty v then cur
        else if staleZeroFragmentFromDB scanFloat k v agent then cur
        else if settingValueIsEmpty (cur.getD .null) then some v
        else cur) agent := by
    rw [← GoMap.foldl_alter_eq_range hentries]
    exact List.foldl_ext _ _ _ fun out e he => mergeTurn_eq_alter ((hentries.mem_iff _ _).1 he) out
  have hcopy (out : Settings) :
      onlyKeys.foldl (fun out k => (db.lookup k).elim out fun v => out.insert k v) out =
        GoMap.copyKeys panelOnlyKeys db out := by
    refine GoMap.ext_lookup fun k => ?_
    rw [← GoMap.copyKeys, GoMap.lookup_copyKeys, GoMap.lookup_copyKeys]
    simp only [honly.mem_iff]
  rw [mergeInOrder, mergeSettingsForDisplay, hturns]
  cases db.lookup "auth" <;> simp only [hcopy]

/-- A stale fragment is one that the agent does not have. -/
theorem lookup_of_stale {k : String} {v : Json}
    (h : staleZeroFragmentFromDB scanFloat k v agent = true) : agent.lookup k = none := by
  simp only [staleZeroFragmentFromDB, Bool.and_eq_true, decide_eq_true_eq,
    Option.isNone_iff_eq_none] at h
  obtain ⟨⟨rfl, hnone⟩, -⟩ := h
  exact hnone

/-- The merged entry of a key is the one of the rule. -/
theorem mergeEntry_eq_precedence (k : String) :
    mergeEntry scanFloat agent k (db.lookup k) = precedence scanFloat db agent k := by
  have hkept : keptFromDB k = true ↔
      GoStrings.hasPrefix k "panel" = true ∨ k ∈ panelOnlyKeys ∨ k = "user" ∨ k = "group" := by
    rw [keptFromDB, Bool.or_eq_true, decide_eq_true_eq]
    tauto
  rw [precedence, mergeEntry.eq_def, GoMap.get, GoMap.get]
  simp only [← hkept]
  cases hdb : db.lookup k with
  | none =>
    have hnull : settingValueIsEmpty .null = true := rfl
    simp [hnull]
  | some v =>
    simp only [Option.isSome_some, true_and, Option.getD_some]
    by_cases hk : keptFromDB k = true
    · rw [if_pos hk, if_pos hk, Option.some_or]
    rw [if_neg hk, if_neg hk]
    by_cases hv : settingValueIsEmpty v = true
    · simp [hv]
    rw [Bool.not_eq_true] at hv
    simp only [hv, Bool.false_eq_true, if_false, and_true, if_true]
    by_cases hauth : k = "auth"
    · rw [if_pos hauth, if_pos hauth]
    rw [if_neg hauth, if_neg hauth]
    by_cases hstale : staleZeroFragmentFromDB scanFloat k v agent = true
    · have hnull : settingValueIsEmpty .null = true := rfl
      simp [hstale, lookup_of_stale hstale, hnull]
    rw [if_neg hstale, if_neg hstale]
    cases settingValueIsEmpty ((agent.lookup k).getD .null) <;> simp

/-- **Every order follows the rule.** The loops over the stored settings visit their keys in the
order that Go picks anew for each of them; the entry of a key in the result is that of `precedence`
all the same. -/
theorem lookup_mergeInOrder (hentries : db.Visits entries) (honly : onlyKeys.Perm panelOnlyKeys)
    (k : String) :
    (mergeInOrder scanFloat db agent entries onlyKeys).lookup k =
    precedence scanFloat db agent k := by
  rw [mergeInOrder_eq hentries honly, lookup_mergeSettingsForDisplay, mergeEntry_eq_precedence]

/-- Two stored entries, visited from the last one. -/
theorem lookup_mergeInOrder_reversed :
    (mergeInOrder (fun _ => none) (.ofList [("proto", .str "tcp"), ("user", .str "")])
        (.ofList [("proto", .str ""), ("user", .str "nobody")])
        [("user", .str ""), ("proto", .str "tcp")] panelOnlyKeys).lookup "proto" =
      precedence (fun _ => none) (.ofList [("proto", .str "tcp"), ("user", .str "")])
        (.ofList [("proto", .str ""), ("user", .str "nobody")]) "proto" :=
  lookup_mergeInOrder ((GoMap.visits_ofList (by decide)).perm (List.Perm.swap _ _ _))
    (.refl _) "proto"

end OpenvpnControl.Openvpn
