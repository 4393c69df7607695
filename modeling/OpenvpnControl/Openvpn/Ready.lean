import OpenvpnControl.Openvpn.Display

/-!
# Normalising the settings twice

`ensureOpenvpnSettingsReady` reads a setting without the quotes and the white space around it, and
writes back what it has read only for `management`. A second pass leaves every other entry alone.
The address is written again when its normal form has a quote or white space at one of its ends.

The page shows settings that were made ready and saves them again, so the function runs on its own
results. An address is written as `host port`, and the two parts are taken as they stand around the
colon.

## Main definitions

* `BareEnds`: no quote and no white space at the ends of a text.

## Main results

* `ready_ready_iff`: when a second pass changes nothing.
* `ready_not_idempotent`: an address that a second pass rewrites.
-/

namespace OpenvpnControl.Openvpn

/-- The text has no quote and no white space at its ends. -/
def BareEnds (s : String) : Prop :=
  ∀ h : s.toList ≠ [], (s.toList.head h ≠ '"' ∧ GoStrings.isSpace (s.toList.head h) = false) ∧
    s.toList.getLast h ≠ '"' ∧ GoStrings.isSpace (s.toList.getLast h) = false

instance (s : String) : Decidable (BareEnds s) := inferInstanceAs (Decidable (∀ _, _))

/-- **A text without line breaks** is read as it is when its ends are bare. -/
theorem cleanText_eq_self_iff {s : String} (hn : '\n' ∉ s.toList) (hr : '\r' ∉ s.toList) :
    cleanText s = s ↔ BareEnds s := by
  have hspace := GoStrings.trimList_sublist GoStrings.isSpace s.toList
  have hread : cleanList s.toList = GoStrings.trimList GoStrings.isSpace
      (GoStrings.trimList (fun c => decide (c ∈ ['"']))
        (GoStrings.trimList GoStrings.isSpace s.toList)) := by
    rw [cleanList, GoStrings.replaceList_eq_self fun h => hn (hspace.mem h),
      GoStrings.replaceList_eq_self fun h => hr (hspace.mem h)]
  rw [← String.toList_inj, toList_cleanText, hread]
  have hquote := GoStrings.trimList_sublist (fun c => decide (c ∈ ['"']))
    (GoStrings.trimList GoStrings.isSpace s.toList)
  have hlast := GoStrings.trimList_sublist GoStrings.isSpace
    (GoStrings.trimList (fun c => decide (c ∈ ['"']))
      (GoStrings.trimList GoStrings.isSpace s.toList))
  constructor
  · intro h hne
    -- no step of the reading drops a character
    have hlen := congrArg List.length h
    have hfirst : GoStrings.trimList GoStrings.isSpace s.toList = s.toList :=
      hspace.eq_of_length_le (by have := hlast.length_le; have := hquote.length_le; omega)
    have hsecond : GoStrings.trimList (fun c => decide (c ∈ ['"'])) s.toList = s.toList := by
      rw [hfirst] at hquote hlast hlen
      exact hquote.eq_of_length_le (by have := hlast.length_le; omega)
    have hne₁ : GoStrings.trimList GoStrings.isSpace s.toList ≠ [] := by rwa [hfirst]
    have hne₂ : GoStrings.trimList (fun c => decide (c ∈ ['"'])) s.toList ≠ [] := by rwa [hsecond]
    have hhead₁ := GoStrings.trimList_head hne₁
    have hhead₂ := GoStrings.trimList_head hne₂
    have hlast₁ := GoStrings.trimList_getLast hne₁
    have hlast₂ := GoStrings.trimList_getLast hne₂
    simp only [hfirst] at hhead₁ hlast₁
    simp only [hsecond] at hhead₂ hlast₂
    exact ⟨⟨by simpa using hhead₂, hhead₁⟩, by simpa using hlast₂, hlast₁⟩
  · intro h
    have hfirst : GoStrings.trimList GoStrings.isSpace s.toList = s.toList :=
      GoStrings.trimList_eq_self (fun hne => (h hne).1.2) fun hne => (h hne).2.2
    have hsecond : GoStrings.trimList (fun c => decide (c ∈ ['"'])) s.toList = s.toList :=
      GoStrings.trimList_eq_self (fun hne => by simpa using (h hne).1.1)
        fun hne => by simpa using (h hne).2.1
    rw [hfirst, hsecond, hfirst]

/-! ### A second pass, key by key -/

/-- A default that has been filled in stays. -/
theorem orDefault_orDefault {d : String} (hd : d ∈ defaults) (v : Option Json) :
    orDefault (orDefault v d) d = orDefault v d := by
  obtain ⟨htext, hne⟩ := settingText_default d hd
  by_cases hv : settingText v = ""
  · have hfill : orDefault v d = some (.str d) := if_pos hv
    rw [hfill, orDefault, htext, if_neg hne]
  · have hkeep : orDefault v d = v := if_neg hv
    rw [hkeep, hkeep]

/-- The second pass has the same defaults. -/
theorem defaultOf_ready (s : Settings) (k : String) :
    defaultOf (ensureOpenvpnSettingsReady s) k = defaultOf s k := by
  have hdc : orDefault ((ensureOpenvpnSettingsReady s).lookup "data-ciphers")
      "AES-256-GCM:AES-128-GCM" =
      orDefault (s.lookup "data-ciphers") "AES-256-GCM:AES-128-GCM" := by
    rw [lookup_ensureOpenvpnSettingsReady]
    exact orDefault_orDefault List.mem_cons_self _
  simp only [defaultOf, hdc]
  cases hm : materialDefault k with
  | none => rfl
  | some p =>
    obtain ⟨link, d⟩ := p
    simp only [lookup_ensureOpenvpnSettingsReady, readyEntry_link s hm]

/-- The second pass leaves every entry but `management` alone. -/
theorem readyEntry_ready {k : String} (hk : k ≠ "management") (s : Settings) :
    readyEntry (ensureOpenvpnSettingsReady s) k = readyEntry s k := by
  have hdefault := defaultOf_ready s k
  rw [readyEntry.eq_def (ensureOpenvpnSettingsReady s), hdefault, lookup_ensureOpenvpnSettingsReady]
  cases hd : defaultOf s k with
  | some d =>
    have hentry : readyEntry s k = orDefault (s.lookup k) d := by simp only [readyEntry, hd]
    rw [hentry]
    exact orDefault_orDefault (mem_defaults_of_defaultOf hd) _
  | none =>
    have hentry : readyEntry s k = if k ∈ blankDropped then
        (if settingText (s.lookup k) = "" then none else s.lookup k) else s.lookup k := by
      simp [readyEntry, hd, hk]
    rw [hentry]
    by_cases hdrop : k ∈ blankDropped
    · by_cases hblank : settingText (s.lookup k) = "" <;> simp [hdrop, hblank]
    · simp [hdrop, hk]

/-- The text of an entry is a cleaned one. -/
theorem exists_settingText (v : Option Json) : ∃ x, settingText v = cleanText x := by
  cases v with
  | none => exact ⟨"", by decide +kernel⟩
  | some v =>
    rw [settingText]
    split_ifs
    · exact ⟨"", by decide +kernel⟩
    · exact ⟨v.sprint, rfl⟩

/-- **The second pass over `management`.** -/
theorem readyEntry_ready_management_iff (s : Settings) :
    readyEntry (ensureOpenvpnSettingsReady s) "management" = readyEntry s "management" ↔
      BareEnds (normalizeManagementValue (settingStr s "management")) ∨
        cleanText (normalizeManagementValue (settingStr s "management")) = "" := by
  rw [readyEntry_management (ensureOpenvpnSettingsReady s), lookup_ensureOpenvpnSettingsReady,
    readyEntry_management, settingStr]
  by_cases hblank : settingText (s.lookup "management") = ""
  · rw [if_pos hblank, if_pos hblank, hblank]
    exact iff_of_true rfl (.inr (by decide +kernel))
  obtain ⟨x, hx⟩ := exists_settingText (s.lookup "management")
  have htrim := trimSpace_cleanText x
  have hbreak := lineBreak_not_mem_cleanText x
  rw [if_neg hblank, settingText_str, hx]
  have hiff := normalizeManagementValue_cleanText_iff x
  rw [← cleanText_eq_self_iff (not_mem_normalizeManagementValue htrim hbreak.1 (by decide))
    (not_mem_normalizeManagementValue htrim hbreak.2 (by decide))]
  split_ifs with hclean
  · exact iff_of_true rfl (.inr hclean)
  · rw [Option.some.injEq, Json.str.injEq, or_iff_left hclean]
    exact hiff hclean

/-- **When a second pass changes nothing.** Only the entry of `management` can change: its normal
form is written back as it is, and read without the quotes and the white space at its ends the next
time. -/
theorem ready_ready_iff (s : Settings) :
    ensureOpenvpnSettingsReady (ensureOpenvpnSettingsReady s) = ensureOpenvpnSettingsReady s ↔
      BareEnds (normalizeManagementValue (settingStr s "management")) ∨
        cleanText (normalizeManagementValue (settingStr s "management")) = "" := by
  rw [← readyEntry_ready_management_iff]
  constructor
  · intro h
    have hkey := congrArg (Finmap.lookup "management") h
    rwa [lookup_ensureOpenvpnSettingsReady, lookup_ensureOpenvpnSettingsReady] at hkey
  · intro h
    refine GoMap.ext_lookup fun k => ?_
    rw [lookup_ensureOpenvpnSettingsReady, lookup_ensureOpenvpnSettingsReady]
    by_cases hk : k = "management"
    · rw [hk]
      exact h
    · exact readyEntry_ready hk s

/-- **A second pass may rewrite an address**: the quotes of a socket's name are taken off one pair
at a time. -/
theorem ready_not_idempotent :
    ¬∀ s : Settings, ensureOpenvpnSettingsReady (ensureOpenvpnSettingsReady s) =
      ensureOpenvpnSettingsReady s := by
  intro h
  have hkey := congrArg (Finmap.lookup "management")
    (h (.ofList [("management", .str "\" \"/run/ovpn.sock\" \"")]))
  exact absurd hkey (by decide +kernel)

end OpenvpnControl.Openvpn
