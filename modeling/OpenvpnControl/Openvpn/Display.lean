import OpenvpnControl.Openvpn.Settings

/-!
# Reading the settings a second time

A read of the settings merges the stored ones with the agent's, normalises the result, and stores
it. Reading again with an unchanged agent gives the same settings, except for three kinds of entry:
a deleted blank `user` or `group`, a deleted blank directive over an empty list of the agent, and a
`management` address whose normal form loses characters when it is read back.

## Main definitions

* `displayed`: what one read returns and stores.
* `SettlesAtOnce`: the condition on the stored and the agent's settings.

## Main results

* `displayed_displayed_iff`: a second read changes nothing exactly under that condition.
* `displayed_not_idempotent`: a stored blank `user` that the second read takes from the agent.
-/

namespace OpenvpnControl.Openvpn

/-- The settings one read returns and stores: the merge, normalised. -/
def displayed (scanFloat : String → Option JsonNumber) (db agent : Settings) : Settings :=
  ensureOpenvpnSettingsReady (mergeSettingsForDisplay scanFloat db agent)

/-! ### Texts that are read back -/

/-- `cleanText` on lists of characters. -/
def cleanList (l : List Char) : List Char :=
  GoStrings.trimList GoStrings.isSpace (GoStrings.trimList (fun c => decide (c ∈ ['"']))
    (GoStrings.replaceList '\r' []
      (GoStrings.replaceList '\n' [' '] (GoStrings.trimList GoStrings.isSpace l))))

theorem toList_cleanText (s : String) : (cleanText s).toList = cleanList s.toList := by
  simp [cleanText, cleanList, GoStrings.trimSpace, GoStrings.trimSet, GoStrings.replaceChar]

/-- A text without line breaks only loses characters when it is cleaned. -/
private theorem cleanList_sublist {l : List Char} (hn : '\n' ∉ l) (hr : '\r' ∉ l) :
    (cleanList l).Sublist l := by
  have htrim : (GoStrings.trimList GoStrings.isSpace l).Sublist l := GoStrings.trimList_sublist _ l
  rw [cleanList, GoStrings.replaceList_eq_self fun h => hn (htrim.mem h),
    GoStrings.replaceList_eq_self fun h => hr (htrim.mem h)]
  exact (GoStrings.trimList_sublist _ _).trans ((GoStrings.trimList_sublist _ _).trans htrim)

/-- A cleaned text has no line break. -/
theorem lineBreak_not_mem_cleanText (s : String) :
    '\n' ∉ (cleanText s).toList ∧ '\r' ∉ (cleanText s).toList := by
  rw [toList_cleanText, cleanList]
  constructor
  · intro h
    have hmem := (GoStrings.trimList_sublist _ _).mem ((GoStrings.trimList_sublist _ _).mem h)
    simp [GoStrings.mem_replaceList] at hmem
  · intro h
    have hmem := (GoStrings.trimList_sublist _ _).mem ((GoStrings.trimList_sublist _ _).mem h)
    simp [GoStrings.mem_replaceList] at hmem

/-- A cleaned text has no white space at its ends. -/
theorem trimSpace_cleanText (s : String) : GoStrings.trimSpace (cleanText s) = cleanText s := by
  rw [cleanText, GoStrings.trimSpace_trimSpace]

/-! ### The normal form of a management address -/

/-- `host:port` becomes `host port`, and any other text is trimmed. -/
theorem normalizeManagementValue_cases {raw : String} (htrim : GoStrings.trimSpace raw = raw) :
    normalizeManagementValue raw = raw ∨
      ∃ host port, GoStrings.splitHostPort raw = some (host, port) ∧ port ≠ "" ∧
        normalizeManagementValue raw = host ++ " " ++ port := by
  rw [normalizeManagementValue, htrim]
  split_ifs with hempty hspace
  · exact Or.inl hempty.symm
  · exact Or.inl rfl
  · cases hsplit : GoStrings.splitHostPort raw with
    | none => exact Or.inl rfl
    | some p =>
      obtain ⟨host, port⟩ := p
      dsimp only
      split_ifs with hne
      · exact Or.inr ⟨host, port, rfl, hne.2, rfl⟩
      · exact Or.inl rfl

/-- The normal form is not longer than the trimmed text. -/
theorem length_normalizeManagementValue_le {raw : String} (htrim : GoStrings.trimSpace raw = raw) :
    (normalizeManagementValue raw).toList.length ≤ raw.toList.length := by
  rcases normalizeManagementValue_cases htrim with h | ⟨host, port, hsplit, -, h⟩
  · rw [h]
  · rcases GoStrings.toList_of_splitHostPort hsplit with hraw | hraw <;>
      simp only [h, hraw, String.toList_append, List.length_append, List.length_cons,
        show " ".toList = [' '] from rfl, List.length_nil] <;> omega

/-- The normal form has no line break when the text has none. -/
theorem not_mem_normalizeManagementValue {raw : String} (htrim : GoStrings.trimSpace raw = raw)
    {c : Char} (hc : c ∉ raw.toList) (hspace : c ≠ ' ') :
    c ∉ (normalizeManagementValue raw).toList := by
  rcases normalizeManagementValue_cases htrim with h | ⟨host, port, hsplit, -, h⟩
  · rwa [h]
  · rw [h]
    rcases GoStrings.toList_of_splitHostPort hsplit with hraw | hraw <;>
      · rw [hraw] at hc
        simp_all

/-- The normal form of a text is not blank, unless the text is empty. -/
theorem normalizeManagementValue_not_blank {raw : String} (htrim : GoStrings.trimSpace raw = raw)
    (hne : raw ≠ "") : GoStrings.trimSpace (normalizeManagementValue raw) ≠ "" := by
  have hlast {l : List Char} (hl : l ≠ []) (hsuf : l <:+ raw.toList) :
      GoStrings.isSpace (l.getLast hl) = false := by
    rw [hsuf.getLast hl]
    exact GoStrings.isSpace_getLast_of_trimSpace_eq htrim _
  rcases normalizeManagementValue_cases htrim with h | ⟨host, port, hsplit, hport, h⟩
  · rwa [h, htrim]
  · intro hblank
    rw [GoStrings.trimSpace_eq_empty_iff, h] at hblank
    have hl : port.toList ≠ [] := by simpa using hport
    have hmem : port.toList.getLast hl ∈ (host ++ " " ++ port).toList := by
      rw [String.toList_append]
      exact List.mem_append_right _ (List.getLast_mem hl)
    have hsuf : port.toList <:+ raw.toList := by
      rcases GoStrings.toList_of_splitHostPort hsplit with hraw | hraw
      · rw [hraw]
        exact ⟨host.toList ++ [':'], by simp⟩
      · rw [hraw]
        exact ⟨'[' :: host.toList ++ [']', ':'], by simp⟩
    exact absurd (hblank _ hmem) (by simp [hlast hl hsuf])

/-- A text that a second reading shortens does not come back when it is normalised again. -/
theorem normalizeManagementValue_cleanText_iff (raw : String) :
    let n := normalizeManagementValue (cleanText raw)
    cleanText n ≠ "" → (normalizeManagementValue (cleanText n) = n ↔ cleanText n = n) := by
  intro n hne
  have htrim := trimSpace_cleanText raw
  have hbreak := lineBreak_not_mem_cleanText raw
  have hsub : (cleanText n).toList.Sublist n.toList := by
    rw [toList_cleanText]
    exact cleanList_sublist (not_mem_normalizeManagementValue htrim hbreak.1 (by decide))
      (not_mem_normalizeManagementValue htrim hbreak.2 (by decide))
  constructor
  · -- the second normalisation cannot make up for a lost character
    intro h
    have hle : n.toList.length ≤ (cleanText n).toList.length := by
      conv_lhs => rw [← h]
      exact length_normalizeManagementValue_le (trimSpace_cleanText n)
    exact String.toList_injective (hsub.eq_of_length_le hle)
  · intro h
    rw [h]
    have htrimn : GoStrings.trimSpace n = n := by
      rw [← h]
      exact trimSpace_cleanText n
    rcases normalizeManagementValue_cases htrim with heq | ⟨host, port, -, -, heq⟩
    · have hn : n = cleanText raw := heq
      rw [hn]
      exact heq
    · have hn : n = host ++ " " ++ port := heq
      have hspace : GoStrings.contains n " " = true := by
        rw [GoStrings.contains, decide_eq_true_iff, hn]
        exact ⟨host.toList, port.toList, by simp⟩
      rw [normalizeManagementValue, htrimn, if_pos hspace]
      split_ifs with hempty
      · exact hempty.symm
      · rfl

/-! ### Merging twice -/

variable (scanFloat : String → Option JsonNumber)

/-- **Merging the merged settings again changes nothing.** -/
theorem mergeEntry_mergeEntry (agent : Settings) (k : String) (db : Option Json) :
    mergeEntry scanFloat agent k (mergeEntry scanFloat agent k db) =
      mergeEntry scanFloat agent k db := by
  simp only [mergeEntry]
  by_cases hkept : keptFromDB k = true
  · cases db <;> simp [hkept]
  · simp only [hkept]
    cases db with
    | none => cases agent.lookup k <;> simp
    | some v =>
      by_cases hv : settingValueIsEmpty v = true
      · cases agent.lookup k <;> simp [hv]
      · by_cases hauth : k = "auth"
        · simp [hv, hauth]
        · by_cases hstale : staleZeroFragmentFromDB scanFloat k v agent = true
          · cases agent.lookup k <;> simp [hv, hauth, hstale]
          · by_cases hcur : settingValueIsEmpty ((agent.lookup k).getD .null) = true
            · simp [hv, hauth, hstale, hcur]
            · cases ha : agent.lookup k with
              | none => simp [ha, settingValueIsEmpty] at hcur
              | some a =>
                rw [ha, Option.getD_some] at hcur
                simp [hv, hauth, hstale, hcur]

/-- A text that replaces a merged entry survives the next merge, or the next merge gives the agent's
entry, which is what was replaced. -/
theorem mergeEntry_str (agent : Settings) {k : String} (hk : k ≠ "fragment") (db : Option Json)
    {d : String} (hempty : settingValueIsEmpty (.str d) = false) :
    mergeEntry scanFloat agent k (some (.str d)) = some (.str d) ∨
      mergeEntry scanFloat agent k (some (.str d)) = mergeEntry scanFloat agent k db := by
  simp only [mergeEntry]
  have hstale (v : Json) : staleZeroFragmentFromDB scanFloat k v agent = false := by
    simp [staleZeroFragmentFromDB, hk]
  by_cases hkept : keptFromDB k = true
  · simp [hkept]
  · simp only [hkept, hempty]
    by_cases hauth : k = "auth"
    · simp [hauth]
    · by_cases hcur : settingValueIsEmpty ((agent.lookup k).getD .null) = true
      · simp [hcur, hauth, hstale]
      · right
        cases db <;> simp [hauth, hcur, hstale]

/-! ### The second read, key by key -/

section SecondRead

variable (db agent : Settings)

/-- What the second read merges under a key. -/
private theorem lookup_merge_displayed (k : String) :
    (mergeSettingsForDisplay scanFloat (displayed scanFloat db agent) agent).lookup k =
      mergeEntry scanFloat agent k (readyEntry (mergeSettingsForDisplay scanFloat db agent) k) := by
  rw [lookup_mergeSettingsForDisplay, displayed, lookup_ensureOpenvpnSettingsReady]

/-- A key the first read did not normalise is merged as before. -/
private theorem lookup_merge_displayed_of_eq {k : String}
    (h : readyEntry (mergeSettingsForDisplay scanFloat db agent) k =
      (mergeSettingsForDisplay scanFloat db agent).lookup k) :
    (mergeSettingsForDisplay scanFloat (displayed scanFloat db agent) agent).lookup k =
      (mergeSettingsForDisplay scanFloat db agent).lookup k := by
  rw [lookup_merge_displayed, h, lookup_mergeSettingsForDisplay, mergeEntry_mergeEntry]

/-- A key with a default is filled as before. -/
private theorem orDefault_merge_displayed {k d : String} (hk : k ≠ "fragment") (hd : d ∈ defaults)
    (h : readyEntry (mergeSettingsForDisplay scanFloat db agent) k =
      orDefault ((mergeSettingsForDisplay scanFloat db agent).lookup k) d) :
    orDefault ((mergeSettingsForDisplay scanFloat (displayed scanFloat db agent) agent).lookup k)
      d = orDefault ((mergeSettingsForDisplay scanFloat db agent).lookup k) d := by
  obtain ⟨htext, hne⟩ := settingText_default d hd
  have hself : orDefault (some (.str d)) d = some (.str d) := by
    rw [orDefault, htext, if_neg hne]
  have hempty : settingValueIsEmpty (.str d) = false := by
    rw [Bool.eq_false_iff, Ne, settingValueIsEmpty_str]
    intro hblank
    rw [settingText_str, cleanText_of_blank hblank] at htext
    exact hne htext.symm
  by_cases hblank : settingText ((mergeSettingsForDisplay scanFloat db agent).lookup k) = ""
  · have hfill : orDefault ((mergeSettingsForDisplay scanFloat db agent).lookup k) d =
        some (.str d) := if_pos hblank
    rw [lookup_merge_displayed, h, hfill]
    rcases mergeEntry_str scanFloat agent hk (db.lookup k) hempty with hm | hm
    · rw [hm, hself]
    · rw [hm, ← lookup_mergeSettingsForDisplay, hfill]
  · have hkeep : orDefault ((mergeSettingsForDisplay scanFloat db agent).lookup k) d =
        (mergeSettingsForDisplay scanFloat db agent).lookup k := if_neg hblank
    rw [lookup_merge_displayed_of_eq scanFloat db agent (h.trans hkeep)]

/-- A panel link is not normalised. -/
theorem readyEntry_link (s : Settings) {k link d : String}
    (h : materialDefault k = some (link, d)) : readyEntry s link = s.lookup link := by
  simp only [materialDefault] at h
  split_ifs at h
  all_goals
    obtain ⟨rfl, -⟩ := Prod.mk.inj (Option.some.inj h)
    simp [readyEntry, defaultOf, materialDefault, blankDropped]

/-- The second read writes the same defaults. -/
private theorem defaultOf_merge_displayed (k : String) :
    defaultOf (mergeSettingsForDisplay scanFloat (displayed scanFloat db agent) agent) k =
      defaultOf (mergeSettingsForDisplay scanFloat db agent) k := by
  have hdc := @orDefault_merge_displayed scanFloat db agent "data-ciphers" _ (by decide)
    (List.mem_cons_self) rfl
  simp only [defaultOf, hdc]
  cases hm : materialDefault k with
  | none => rfl
  | some p =>
    obtain ⟨link, d⟩ := p
    simp only [lookup_merge_displayed_of_eq scanFloat db agent (readyEntry_link _ hm)]

private theorem readyEntry_congr {s t : Settings} {k : String} (hd : defaultOf s k = defaultOf t k)
    (hk : s.lookup k = t.lookup k) : readyEntry s k = readyEntry t k := by
  simp only [readyEntry, hd, hk]

/-- Does the second read leave the entry of a key alone? -/
def SettledAt (k : String) : Prop :=
  (displayed scanFloat (displayed scanFloat db agent) agent).lookup k =
    (displayed scanFloat db agent).lookup k

private theorem settledAt_iff (k : String) :
    SettledAt scanFloat db agent k ↔
      readyEntry (mergeSettingsForDisplay scanFloat (displayed scanFloat db agent) agent) k =
        readyEntry (mergeSettingsForDisplay scanFloat db agent) k := by
  have hdisp (x : Settings) : (displayed scanFloat x agent).lookup k =
      readyEntry (mergeSettingsForDisplay scanFloat x agent) k := by
    rw [displayed, lookup_ensureOpenvpnSettingsReady]
  rw [SettledAt, hdisp, hdisp]

/-- A key the first read did not normalise stays. -/
private theorem settledAt_of_eq {k : String}
    (h : readyEntry (mergeSettingsForDisplay scanFloat db agent) k =
      (mergeSettingsForDisplay scanFloat db agent).lookup k) : SettledAt scanFloat db agent k :=
  (settledAt_iff scanFloat db agent k).2 (readyEntry_congr
    (defaultOf_merge_displayed scanFloat db agent k)
    (lookup_merge_displayed_of_eq scanFloat db agent h))

/-- The keys that have a default when they have one stay. -/
private theorem settledAt_of_not_mem {k : String} (hdrop : k ∉ blankDropped)
    (hman : k ≠ "management") : SettledAt scanFloat db agent k := by
  cases hd : defaultOf (mergeSettingsForDisplay scanFloat db agent) k with
  | none =>
    refine settledAt_of_eq scanFloat db agent ?_
    simp [readyEntry, hd, hdrop, hman]
  | some d =>
    have hready (x : Settings) (hx : defaultOf x k = some d) :
        readyEntry x k = orDefault (x.lookup k) d := by
      simp only [readyEntry, hx]
    have hd' := (defaultOf_merge_displayed scanFloat db agent k).trans hd
    have hfrag : k ≠ "fragment" := by
      rintro rfl
      exact hdrop (by decide)
    rw [settledAt_iff, hready _ hd, hready _ hd']
    exact orDefault_merge_displayed scanFloat db agent hfrag (mem_defaults_of_defaultOf hd)
      (hready _ hd)

private theorem defaultOf_of_mem_blankDropped {k : String} (hk : k ∈ blankDropped) (s : Settings) :
    defaultOf s k = none := by
  simp only [blankDropped, List.mem_cons, List.not_mem_nil, or_false] at hk
  rcases hk with rfl | rfl | rfl | rfl | rfl | rfl | rfl <;> simp [defaultOf, materialDefault]

/-- A deleted blank directive stays deleted exactly when the agent's is blank too. -/
private theorem settledAt_blankDropped {k : String} (hk : k ∈ blankDropped) :
    SettledAt scanFloat db agent k ↔
      (settingText ((mergeSettingsForDisplay scanFloat db agent).lookup k) = "" →
        settingText (agent.lookup k) = "") := by
  have hready (x : Settings) : readyEntry x k =
      if settingText (x.lookup k) = "" then none else x.lookup k := by
    simp [readyEntry, defaultOf_of_mem_blankDropped hk, hk]
  by_cases hblank : settingText ((mergeSettingsForDisplay scanFloat db agent).lookup k) = ""
  · have hfirst : readyEntry (mergeSettingsForDisplay scanFloat db agent) k = none := by
      rw [hready, if_pos hblank]
    have hsecond : (mergeSettingsForDisplay scanFloat (displayed scanFloat db agent) agent).lookup
        k = agent.lookup k := by
      rw [lookup_merge_displayed, hfirst, mergeEntry]
      split_ifs <;> rfl
    rw [settledAt_iff, hfirst, hready, hsecond]
    constructor
    · intro h _
      by_contra hne
      rw [if_neg hne] at h
      rw [h] at hne
      exact hne rfl
    · intro h
      rw [if_pos (h hblank)]
  · refine iff_of_true (settledAt_of_eq scanFloat db agent ?_) fun h => absurd h hblank
    rw [hready, if_neg hblank]

private theorem mergeEntry_management (v : Json) :
    mergeEntry scanFloat agent "management" (some v) =
      if settingValueIsEmpty v then agent.lookup "management"
      else if settingValueIsEmpty ((agent.lookup "management").getD .null) then some v
      else agent.lookup "management" := by
  have hkept : keptFromDB "management" = false := by decide
  have hstale : staleZeroFragmentFromDB scanFloat "management" v agent = false := by
    simp [staleZeroFragmentFromDB]
  simp [mergeEntry, hkept, hstale]

theorem readyEntry_management (s : Settings) :
    readyEntry s "management" =
      if settingText (s.lookup "management") = "" then s.lookup "management"
      else some (.str (normalizeManagementValue (settingText (s.lookup "management")))) := by
  simp [readyEntry, defaultOf, materialDefault, blankDropped]

/-- The normal form of a merged management address that is not blank is not empty. -/
private theorem normalizeManagementValue_not_empty {v : Option Json} (h : settingText v ≠ "") :
    (∃ x, settingText v = cleanText x) ∧
      settingValueIsEmpty (.str (normalizeManagementValue (settingText v))) = false := by
  obtain ⟨x, hx⟩ : ∃ x, settingText v = cleanText x := by
    cases v with
    | none => exact absurd rfl h
    | some v =>
      rw [settingText] at h ⊢
      split_ifs at h ⊢
      · exact absurd rfl h
      · exact ⟨v.sprint, rfl⟩
  refine ⟨⟨x, hx⟩, ?_⟩
  rw [Bool.eq_false_iff, Ne, settingValueIsEmpty_str, hx]
  exact normalizeManagementValue_not_blank (trimSpace_cleanText x) (hx ▸ h)

/-- A normalised management address stays exactly when the agent's entry is not empty, or the
normal form reads back as itself, or as nothing. -/
private theorem settledAt_management :
    SettledAt scanFloat db agent "management" ↔
      (settingValueIsEmpty ((agent.lookup "management").getD .null) = true →
        settingText ((mergeSettingsForDisplay scanFloat db agent).lookup "management") ≠ "" →
        let n := normalizeManagementValue
          (settingText ((mergeSettingsForDisplay scanFloat db agent).lookup "management"))
        cleanText n = "" ∨ cleanText n = n) := by
  by_cases hblank :
      settingText ((mergeSettingsForDisplay scanFloat db agent).lookup "management") = ""
  · refine iff_of_true (settledAt_of_eq scanFloat db agent ?_) fun _ h => absurd hblank h
    rw [readyEntry_management, if_pos hblank]
  obtain ⟨⟨x, hx⟩, hempty⟩ := normalizeManagementValue_not_empty hblank
  have hfirst := readyEntry_management (mergeSettingsForDisplay scanFloat db agent)
  rw [if_neg hblank] at hfirst
  have hmerge := lookup_merge_displayed scanFloat db agent "management"
  rw [hfirst, mergeEntry_management, hempty, if_neg Bool.false_ne_true] at hmerge
  by_cases ha : settingValueIsEmpty ((agent.lookup "management").getD .null) = true
  · -- the agent has no address of its own, so the stored normal form is normalised again
    rw [if_pos ha] at hmerge
    have hiff := normalizeManagementValue_cleanText_iff x
    rw [← hx] at hiff
    rw [settledAt_iff, hfirst, readyEntry_management, hmerge, settingText_str]
    split_ifs with hclean
    · exact iff_of_true rfl fun _ _ => Or.inl hclean
    · rw [Option.some.injEq, Json.str.injEq, hiff hclean]
      exact ⟨fun h _ _ => Or.inr h, fun h => (h ha hblank).resolve_left hclean⟩
  · -- the agent's address wins in both reads
    rw [if_neg ha] at hmerge
    refine iff_of_true ?_ fun h => absurd h ha
    rw [settledAt_iff]
    refine readyEntry_congr (defaultOf_merge_displayed scanFloat db agent "management") ?_
    rw [hmerge, lookup_mergeSettingsForDisplay]
    cases db.lookup "management" with
    | none => rfl
    | some v =>
      rw [mergeEntry_management, if_neg ha]
      split_ifs <;> rfl

/-! ### The condition on the two settings -/

/-- When a second read changes nothing. A stored blank `user` or `group` must not hide one of the
agent. A stored directive that is not empty, but whose text is blank, must not stand over an empty
list of the agent. A stored `management` address the agent does not override must have a normal
form that reads back as itself, or as nothing. -/
structure SettlesAtOnce (db agent : Settings) : Prop where
  owner : ∀ k ∈ ["user", "group"], ∀ v, db.lookup k = some v → settingText (some v) = "" →
    settingText (agent.lookup k) = ""
  directive : ∀ k ∈ ["cipher", "fragment", "verify-x509-name", "comp-lzo", "allow-compression"],
    agent.lookup k = some (.arr []) → ∀ v, db.lookup k = some v →
      settingValueIsEmpty v = false → settingText (some v) ≠ ""
  management : settingValueIsEmpty ((agent.lookup "management").getD .null) = true →
    ∀ v, db.lookup "management" = some v → settingValueIsEmpty v = false →
      settingText (some v) ≠ "" →
        let n := normalizeManagementValue (settingText (some v))
        cleanText n = "" ∨ cleanText n = n

private theorem settingText_arr_nil : settingText (some (.arr [])) = "[]" := by
  decide +kernel

/-- An ordinary entry is merged from the agent, or from the stored settings under an empty one. -/
private theorem mergeEntry_cases {k : String} (hkept : keptFromDB k = false) (hauth : k ≠ "auth")
    (x : Option Json) :
    mergeEntry scanFloat agent k x = agent.lookup k ∨
      ∃ v, x = some v ∧ settingValueIsEmpty v = false ∧
        settingValueIsEmpty ((agent.lookup k).getD .null) = true ∧
          mergeEntry scanFloat agent k x = some v := by
  cases x with
  | none => simp [mergeEntry, hkept]
  | some v =>
    simp only [mergeEntry, hkept, hauth, Bool.false_eq_true, if_false]
    split_ifs with hempty hstale hcur
    · exact Or.inl rfl
    · exact Or.inl rfl
    · exact Or.inr ⟨v, rfl, Bool.eq_false_of_not_eq_true hempty, hcur, rfl⟩
    · exact Or.inl rfl

/-- An entry that is empty and whose text is not blank is the empty list. -/
private theorem eq_some_arr_nil {v : Option Json}
    (hempty : settingValueIsEmpty (v.getD .null) = true)
    (htext : settingText v ≠ "") : v = some (.arr []) := by
  cases v with
  | none => exact absurd rfl htext
  | some v => exact congrArg some (eq_arr_nil_of_empty hempty htext)

private theorem owner_iff {k : String} (hk : k ∈ ["user", "group"]) :
    SettledAt scanFloat db agent k ↔
      ∀ v, db.lookup k = some v → settingText (some v) = "" →
        settingText (agent.lookup k) = "" := by
  have hmem : k ∈ blankDropped ∧ keptFromDB k = true := by
    simp only [List.mem_cons, List.not_mem_nil, or_false] at hk
    rcases hk with rfl | rfl <;> exact ⟨by decide, by decide⟩
  rw [settledAt_blankDropped scanFloat db agent hmem.1, lookup_mergeSettingsForDisplay]
  simp only [mergeEntry, hmem.2, if_true]
  cases db.lookup k with
  | none => simp
  | some v => simp

private theorem directive_iff {k : String}
    (hk : k ∈ ["cipher", "fragment", "verify-x509-name", "comp-lzo", "allow-compression"]) :
    SettledAt scanFloat db agent k ↔
      (agent.lookup k = some (.arr []) → ∀ v, db.lookup k = some v →
        settingValueIsEmpty v = false → settingText (some v) ≠ "") := by
  obtain ⟨hdrop, hkept, hauth⟩ : k ∈ blankDropped ∧ keptFromDB k = false ∧ k ≠ "auth" := by
    simp only [List.mem_cons, List.not_mem_nil, or_false] at hk
    rcases hk with rfl | rfl | rfl | rfl | rfl <;> exact ⟨by decide, by decide, by decide⟩
  rw [settledAt_blankDropped scanFloat db agent hdrop, lookup_mergeSettingsForDisplay]
  constructor
  · intro h ha v hv hempty htext
    have hmerge : mergeEntry scanFloat agent k (some v) = some v := by
      have hstale : staleZeroFragmentFromDB scanFloat k v agent = false := by
        by_cases hfrag : k = "fragment"
        · subst hfrag
          simp [staleZeroFragmentFromDB, ha]
        · simp [staleZeroFragmentFromDB, hfrag]
      have hnil : settingValueIsEmpty (.arr []) = true := rfl
      simp [mergeEntry, hkept, hauth, hempty, hstale, ha, hnil]
    rw [hv, hmerge, ha, settingText_arr_nil] at h
    exact absurd (h htext) (by decide)
  · intro h hblank
    by_contra hagent
    rcases mergeEntry_cases scanFloat agent hkept hauth (db.lookup k) with hm | ⟨v, hv,
      hne, hcur, hm⟩
    · exact hagent (hm ▸ hblank)
    · rw [hm] at hblank
      exact h (eq_some_arr_nil hcur hagent) v hv hne hblank

private theorem management_iff :
    SettledAt scanFloat db agent "management" ↔
      (settingValueIsEmpty ((agent.lookup "management").getD .null) = true →
        ∀ v, db.lookup "management" = some v → settingValueIsEmpty v = false →
          settingText (some v) ≠ "" →
            let n := normalizeManagementValue (settingText (some v))
            cleanText n = "" ∨ cleanText n = n) := by
  rw [settledAt_management, lookup_mergeSettingsForDisplay]
  constructor
  · intro h ha v hv hempty htext
    have hmerge : mergeEntry scanFloat agent "management" (some v) = some v := by
      rw [mergeEntry_management, hempty, if_neg Bool.false_ne_true, if_pos ha]
    rw [hv, hmerge] at h
    exact h ha htext
  · intro h ha htext
    have hkept : keptFromDB "management" = false := by decide
    have hauth : "management" ≠ "auth" := by decide
    rcases mergeEntry_cases scanFloat agent hkept hauth (db.lookup "management")
      with hm | ⟨v, hv, hne, -, hm⟩
    · rw [hm] at htext ⊢
      rw [eq_some_arr_nil ha htext, settingText_arr_nil]
      exact Or.inr (by decide +kernel)
    · rw [hm] at htext ⊢
      exact h ha v hv hne htext

/-- **When a settings read is stable.** Reading the settings a second time, with an unchanged agent,
gives the same settings exactly when `SettlesAtOnce` holds. -/
theorem displayed_displayed_iff :
    displayed scanFloat (displayed scanFloat db agent) agent = displayed scanFloat db agent ↔
      SettlesAtOnce db agent := by
  have hkeys : displayed scanFloat (displayed scanFloat db agent) agent =
      displayed scanFloat db agent ↔ ∀ k, SettledAt scanFloat db agent k :=
    ⟨fun h k => congrArg (Finmap.lookup k) h, GoMap.ext_lookup⟩
  rw [hkeys]
  constructor
  · exact fun h => ⟨fun k hk => (owner_iff scanFloat db agent hk).1 (h k),
      fun k hk => (directive_iff scanFloat db agent hk).1 (h k),
      (management_iff scanFloat db agent).1 (h "management")⟩
  · intro h k
    by_cases howner : k ∈ ["user", "group"]
    · exact (owner_iff scanFloat db agent howner).2 (h.owner k howner)
    by_cases hdir : k ∈ ["cipher", "fragment", "verify-x509-name", "comp-lzo", "allow-compression"]
    · exact (directive_iff scanFloat db agent hdir).2 (h.directive k hdir)
    by_cases hman : k = "management"
    · subst hman
      exact (management_iff scanFloat db agent).2 h.management
    · refine settledAt_of_not_mem scanFloat db agent ?_ hman
      simp only [List.mem_cons, List.not_mem_nil, or_false, not_or] at howner hdir
      simp [blankDropped, howner, hdir]

end SecondRead

/-- **A second read may resurrect a directive**: a stored blank `user` is deleted by the first read,
so the second one takes the agent's. -/
theorem displayed_not_idempotent :
    ¬∀ (scanFloat : String → Option JsonNumber) (db agent : Settings),
      displayed scanFloat (displayed scanFloat db agent) agent = displayed scanFloat db agent := by
  intro h
  have hstable := congrArg (Finmap.lookup "user")
    (h (fun _ => none) (.ofList [("user", .str "")]) (.ofList [("user", .str "nobody")]))
  exact absurd hstable (by decide +kernel)

end OpenvpnControl.Openvpn
