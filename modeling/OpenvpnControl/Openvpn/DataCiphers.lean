import OpenvpnControl.Openvpn.Ready

/-!
# Which data ciphers need `auth`

A data cipher with its own authentication needs no HMAC, and `PrepareAgentSettings` then keeps
`auth` from the agent. Which ciphers are listed is told by two substrings of the whole list, `cbc`
before `gcm`. Here that test is compared with the names of the list, each taken by itself.

## Main definitions

* `Aead`: a cipher with its own authentication, by its name.
* `AuthFollows`: `auth` is sent and filled in exactly when a listed cipher needs it.
* `KindTold`: the lists whose ciphers the two substrings tell apart.

## Main results

* `authFollows_iff`: `auth` follows the ciphers on those lists and on no other.
-/

namespace OpenvpnControl.Openvpn

/-! ### Names and lists of ciphers -/

/-- A name in a list of data ciphers: not empty, and without the separator, white space and
quotes. -/
def CipherName (name : String) : Prop :=
  name ≠ "" ∧ ∀ c ∈ name.toList, c ≠ ':' ∧ c ≠ '"' ∧ GoStrings.isSpace c = false

instance (name : String) : Decidable (CipherName name) := inferInstanceAs (Decidable (_ ∧ _))

/-- The text of `data-ciphers` that lists the names. -/
def cipherList (names : List String) : String := (String.singleton ':').intercalate names

/-- The name contains the text, in any letter case. -/
def Mentions (name sub : String) : Prop := GoStrings.contains (GoStrings.toLower name) sub = true

/-- A cipher with its own authentication. -/
def Aead (name : String) : Prop :=
  "-gcm".toList <:+ (GoStrings.toLower name).toList ∨ GoStrings.toLower name = "chacha20-poly1305"

/-- The only AEAD cipher without `gcm` in its name. -/
theorem Aead.eq_chacha {name : String} (h : Aead name) (hgcm : ¬Mentions name "gcm") :
    GoStrings.toLower name = "chacha20-poly1305" := by
  refine h.resolve_left fun hsuffix => hgcm ?_
  rw [Mentions, GoStrings.contains, decide_eq_true_eq]
  have hpart : "gcm".toList <:+: "-gcm".toList := by decide
  exact hpart.trans hsuffix.isInfix

variable {names : List String}

/-- A list of ciphers is read back as it is. -/
theorem cleanText_cipherList (hnames : ∀ n ∈ names, CipherName n) :
    cleanText (cipherList names) = cipherList names := by
  have hplain : ∀ c ∈ (cipherList names).toList, c ≠ '"' ∧ GoStrings.isSpace c = false := by
    intro c hc
    rcases GoStrings.mem_intercalate hc with rfl | ⟨n, hn, hc⟩
    · decide
    · exact ((hnames n hn).2 c hc).2
  rw [cleanText_eq_self_iff (fun h => absurd (hplain _ h).2 (by decide))
    fun h => absurd (hplain _ h).2 (by decide)]
  exact fun hne => ⟨hplain _ (List.head_mem hne), hplain _ (List.getLast_mem hne)⟩

theorem cipherList_ne_empty (hne : names ≠ []) (hnames : ∀ n ∈ names, CipherName n) :
    cipherList names ≠ "" := by
  cases names with
  | nil => exact absurd rfl hne
  | cons n names =>
    have hn := (hnames n List.mem_cons_self).1
    by_cases hrest : names = []
    · subst hrest
      rwa [cipherList, String.intercalate_singleton]
    · rw [cipherList, String.intercalate_cons_of_ne_nil hrest]
      intro h
      have hlen := congrArg (fun s : String => s.toList.length) h
      simp at hlen

/-! ### What the two substrings tell -/

/-- **The test for `auth`**, in the names of the list. -/
theorem dataCiphersUseAuth_cipherList (hne : names ≠ []) (hnames : ∀ n ∈ names, CipherName n) :
    dataCiphersUseAuth (cipherList names) = true ↔
      (∃ n ∈ names, Mentions n "cbc") ∨ ∀ n ∈ names, ¬Mentions n "gcm" := by
  have hclean := cleanText_cipherList hnames
  have htrim : GoStrings.trimSpace (cipherList names) = cipherList names := by
    rw [← hclean, trimSpace_cleanText]
  have hmentions (sub : String) (hsub : ':' ∉ sub.toList) :
      GoStrings.contains (GoStrings.toLower (cipherList names)) sub = true ↔
        ∃ n ∈ names, Mentions n sub := by
    rw [cipherList, GoStrings.toLower_intercalate (by decide),
      GoStrings.contains_intercalate_iff (by simpa using hne) hsub]
    simp only [List.mem_map, exists_exists_and_eq_and, Mentions]
  have hlow : GoStrings.toLower (cipherList names) ≠ "" := by
    rw [ne_eq, GoStrings.toLower_eq_empty_iff]
    exact cipherList_ne_empty hne hnames
  have hiscbc := hmentions "cbc" (by decide)
  have hisgcm := hmentions "gcm" (by decide)
  rw [dataCiphersUseAuth, htrim]
  rw [if_neg hlow]
  by_cases hcbc : ∃ n ∈ names, Mentions n "cbc"
  · rw [if_pos (hiscbc.2 hcbc)]
    exact iff_of_true rfl (.inl hcbc)
  by_cases hgcm : ∃ n ∈ names, Mentions n "gcm"
  · rw [if_neg (hiscbc.not.2 hcbc), if_pos (hisgcm.2 hgcm)]
    refine iff_of_false (by decide) fun h => h.elim hcbc fun hno => ?_
    obtain ⟨n, hn, hm⟩ := hgcm
    exact hno n hn hm
  · rw [if_neg (hiscbc.not.2 hcbc), if_neg (hisgcm.not.2 hgcm)]
    exact iff_of_true rfl (.inr fun n hn hm => hgcm ⟨n, hn, hm⟩)

/-- `auth` follows the listed ciphers: the agent is not sent it exactly when every cipher is AEAD,
and a blank one is filled in exactly when some cipher is not. -/
def AuthFollows (names : List String) : Prop :=
  ∀ settings : Settings, settings.lookup "data-ciphers" = some (.str (cipherList names)) →
    ((settings.lookup "auth").isSome →
      ((prepareAgentSettings settings).lookup "auth" = none ↔ ∀ n ∈ names, Aead n)) ∧
    (settingStr settings "auth" = "" →
      ((ensureServerCryptoDefaults settings).lookup "auth" = some (.str "SHA256") ↔
        ∃ n ∈ names, ¬Aead n))

/-- The lists whose ciphers the two substrings tell apart. -/
structure KindTold (names : List String) : Prop where
  /-- Beside a name with `cbc` in it some cipher is not AEAD. -/
  cbc : (∃ n ∈ names, Mentions n "cbc") → ∃ n ∈ names, ¬Aead n
  /-- Without one, beside a name with `gcm` in it every cipher is AEAD. -/
  gcm : (∀ n ∈ names, ¬Mentions n "cbc") → (∃ n ∈ names, Mentions n "gcm") → ∀ n ∈ names, Aead n
  /-- A list with neither is not ChaCha20-Poly1305 alone. -/
  neither : (∀ n ∈ names, ¬Mentions n "cbc") → (∀ n ∈ names, ¬Mentions n "gcm") →
    ∃ n ∈ names, GoStrings.toLower n ≠ "chacha20-poly1305"

/-- On the lists told apart, and only there, the test is the one cipher by cipher. -/
theorem kindTold_iff : KindTold names ↔
    (((∃ n ∈ names, Mentions n "cbc") ∨ ∀ n ∈ names, ¬Mentions n "gcm") ↔
      ∃ n ∈ names, ¬Aead n) := by
  constructor
  · intro h
    by_cases hcbc : ∃ n ∈ names, Mentions n "cbc"
    · exact iff_of_true (.inl hcbc) (h.cbc hcbc)
    have hno : ∀ n ∈ names, ¬Mentions n "cbc" := fun n hn hm => hcbc ⟨n, hn, hm⟩
    by_cases hgcm : ∃ n ∈ names, Mentions n "gcm"
    · obtain ⟨n, hn, hm⟩ := hgcm
      refine iff_of_false (fun h' => h'.elim hcbc fun h'' => h'' n hn hm) ?_
      rintro ⟨m, hm', hnot⟩
      exact hnot (h.gcm hno ⟨n, hn, hm⟩ m hm')
    · have hno' : ∀ n ∈ names, ¬Mentions n "gcm" := fun n hn hm => hgcm ⟨n, hn, hm⟩
      obtain ⟨n, hn, hchacha⟩ := h.neither hno hno'
      exact iff_of_true (.inr hno') ⟨n, hn, fun ha => hchacha (ha.eq_chacha (hno' n hn))⟩
  · intro h
    refine ⟨fun hcbc => h.1 (.inl hcbc), fun hno hgcm n hn => ?_, fun _ hno' => ?_⟩
    · by_contra hnot
      obtain ⟨m, hm, hmgcm⟩ := hgcm
      exact (h.2 ⟨n, hn, hnot⟩).elim (fun ⟨k, hk, hkc⟩ => hno k hk hkc) fun hno' => hno' m hm hmgcm
    · obtain ⟨n, hn, hnot⟩ := h.1 (.inr hno')
      exact ⟨n, hn, fun hchacha => hnot (.inr hchacha)⟩

/-- What the two functions do with `auth`, from the test on the list. -/
theorem authFollows_iff_useAuth (hne : names ≠ []) (hnames : ∀ n ∈ names, CipherName n) :
    AuthFollows names ↔ (dataCiphersUseAuth (cipherList names) = true ↔ ∃ n ∈ names, ¬Aead n) := by
  have hclean := cleanText_cipherList hnames
  have hnonempty := cipherList_ne_empty hne hnames
  have hnot : (¬∃ n ∈ names, ¬Aead n) ↔ ∀ n ∈ names, Aead n := by simp
  -- the two entries, for any settings with this list
  have hsent {settings : Settings}
      (hdc : settings.lookup "data-ciphers" = some (.str (cipherList names)))
      (hauth : (settings.lookup "auth").isSome) :
      (prepareAgentSettings settings).lookup "auth" = none ↔
        dataCiphersUseAuth (cipherList names) = false := by
    have hother : GoStrings.hasPrefix "auth" "panel" = false ∧ "auth" ∉ panelOnlyKeys ∧
        "auth" ∉ materialPathKeys := by decide
    have hwithheld : Withheld settings "auth" ↔ dataCiphersUseAuth (cipherList names) = false := by
      simp only [Withheld, settingStr, hdc, settingText_str, hclean, hother.1, hother.2.1,
        hother.2.2, Bool.false_eq_true, false_and, true_and, false_or]
    rw [lookup_prepare, ← hwithheld]
    split_ifs with huse
    · exact iff_of_true rfl huse
    · exact iff_of_false (Option.isSome_iff_ne_none.1 hauth) huse
  have hfilled {settings : Settings}
      (hdc : settings.lookup "data-ciphers" = some (.str (cipherList names)))
      (hauth : settingStr settings "auth" = "") :
      (ensureServerCryptoDefaults settings).lookup "auth" = some (.str "SHA256") ↔
        dataCiphersUseAuth (cipherList names) = true := by
    have hkept : orDefault (settings.lookup "data-ciphers") "AES-256-GCM:AES-128-GCM" =
        some (.str (cipherList names)) := by
      rw [hdc, orDefault, if_neg (by rwa [settingText_str, hclean])]
    rw [settingStr] at hauth
    rw [lookup_ensureServerCryptoDefaults, if_neg (by decide), if_neg (by decide),
      if_neg (by decide), hkept, settingText_str, hclean]
    split_ifs with huse
    · rw [orDefault, if_pos hauth]
      exact iff_of_true rfl huse.2
    · refine iff_of_false (fun h => ?_) fun h => huse ⟨rfl, h⟩
      rw [h] at hauth
      exact absurd hauth (by decide +kernel)
  constructor
  · intro h
    -- a blank entry is both sent and filled in
    obtain ⟨-, hfill⟩ := h (GoMap.ofList
      [("data-ciphers", .str (cipherList names)), ("auth", .str "")]) (by simp [GoMap.ofList])
    have hblank : settingStr (GoMap.ofList
        [("data-ciphers", Json.str (cipherList names)), ("auth", .str "")]) "auth" = "" := by
      have hempty : cleanText "" = "" := cleanText_of_blank (by decide +kernel)
      simp [GoMap.ofList, settingStr, hempty]
    rw [← hfilled (by simp [GoMap.ofList]) hblank]
    exact hfill hblank
  · intro h settings hdc
    refine ⟨fun hauth => ?_, fun hauth => (hfilled hdc hauth).trans h⟩
    rw [hsent hdc hauth, ← hnot, ← h, Bool.not_eq_true]

/-- **When `auth` follows the listed ciphers.** The code looks for the substrings `cbc` and `gcm` in
the whole list, so it follows the ciphers exactly if the two tell those that are AEAD from the
others. -/
theorem authFollows_iff (hne : names ≠ []) (hnames : ∀ n ∈ names, CipherName n) :
    AuthFollows names ↔ KindTold names := by
  rw [authFollows_iff_useAuth hne hnames, dataCiphersUseAuth_cipherList hne hnames, kindTold_iff]

theorem authFollows_iff_defaults :
    AuthFollows ["AES-256-GCM", "AES-128-GCM"] ↔ KindTold ["AES-256-GCM", "AES-128-GCM"] :=
  authFollows_iff (by decide) (by decide)

/-- A CFB cipher beside a GCM cipher is taken for an AEAD one, and ChaCha20-Poly1305 alone is
not. -/
theorem auth_not_told : ¬∀ names : List String, names ≠ [] → (∀ n ∈ names, CipherName n) →
    AuthFollows names := by
  intro h
  have hfollows := h ["AES-256-GCM", "AES-256-CFB"] (by decide) (by decide)
  rw [authFollows_iff_useAuth (by decide) (by decide)] at hfollows
  have hsome : ∃ n ∈ ["AES-256-GCM", "AES-256-CFB"], ¬Aead n :=
    ⟨"AES-256-CFB", by decide, by unfold Aead; decide⟩
  exact absurd (hfollows.2 hsome) (by decide +kernel)

end OpenvpnControl.Openvpn
