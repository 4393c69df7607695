import OpenvpnControl.Cert.IssuedTwice

/-!
# The texts that may be imported twice

An import of issued certificates may be repeated when a second one with the same text leaves the
table as the first one did, and gives rows only serial numbers from the lines of their names. This
file proves that the texts and tables for which every import may be repeated are the stable ones.

One direction rests on the invariant of a run, which leaves a stable table quiet: the turn of every
entry finds a row that says what the entry says. For the other direction the order of the entries
and the choice among rows of one name are used as they suit. An entry comes first and prefers a row,
and a table that no import changes then says what this turn must have found; where a text is not
stable, the first import leaves a table of which that is not true. A line without a serial number is
the plainest case, since each import generates a new one for its row.

## Main definitions

* `Repeatable`: a second import changes nothing, and serial numbers come from the lines of a name.

## Main results

* `quiet_of_unchanged`: a table that no import changes is quiet.
* `repeatable_iff_stable`: a text is repeatable exactly if it is stable.
-/

namespace OpenvpnControl.Cert

open Panel (Certificate UniqueCerts storeCerts)

/-- A second import of a text changes nothing, and an import replaces the serial number of a row
only by one that a line of the text gives its common name. -/
structure Repeatable (imp : IssuedImport) (now : ℤ) (text : String)
    (certs : List Certificate) : Prop where
  again : ∀ env env' : SyncEnv, env.Answers now → env'.Answers now →
    (syncIssuedInventory env' imp (syncIssuedInventory env imp certs text).1.1 text).1.1 =
      (syncIssuedInventory env imp certs text).1.1
  serials : ∀ env : SyncEnv, env.Answers now → ∀ c ∈ certs,
    ∀ c' ∈ (syncIssuedInventory env imp certs text).1.1, c'.id = c.id →
    c'.serialNumber = c.serialNumber ∨
      ∃ date, (c.commonName, some (c'.serialNumber, date)) ∈ accepted text

variable {env : SyncEnv} {imp : IssuedImport} {now : ℤ} {text : String} {certs : List Certificate}
  {e : IssuedEntry} {es : List IssuedEntry} {c : Certificate}

/-! ### A turn that writes -/

theorem syncTurn_eq_moved (henv : env.Answers now) (huniq : UniqueCerts certs)
    (hchoice : env.choice = .preferring c) (hc : c ∈ certs) (hcand : Candidate imp e c)
    (hown : Own imp c) (hnot : ¬Settled e (e.serial env certs) c)
    (hfree : ∀ d ∈ certs, d.serialNumber = e.serial env certs → d = c) :
    syncTurn env imp certs e =
      Rows.updateWhere (fun d => d.id = c.id) (refresh imp e (e.serial env certs)) certs := by
  have hfind : findCertByCNAndNode env.choice certs e.cn imp.agentNodeID = some c := by
    rw [findCertByCNAndNode, hchoice]
    exact Rows.Choice.select_preferring hc (decide_eq_true hcand)
  have hturn := turn_syncTurn imp henv huniq e
  generalize syncTurn env imp certs e = table' at hturn ⊢
  cases hturn with
  | foreign hfind' hnot' =>
    rw [← Option.some.inj (hfind.symm.trans hfind')] at hnot'
    exact absurd hown hnot'
  | settled hfind' _ hset =>
    rw [← Option.some.inj (hfind.symm.trans hfind')] at hset
    exact absurd hset hnot
  | refused hfind' _ _ hd hholds hne =>
    rw [← Option.some.inj (hfind.symm.trans hfind')] at hne
    exact absurd (hfree _ hd hholds) hne
  | moved hfind' => rw [← Option.some.inj (hfind.symm.trans hfind')]
  | taken hfind' => cases hfind.symm.trans hfind'
  | created hfind' => cases hfind.symm.trans hfind'

/-- An import whose first turn updates a row changes the table. -/
theorem syncTurns_ne_of_moved (henv : env.Answers now) (huniq : UniqueCerts certs)
    (hkey : Rows.HasKey (·.cn) (e :: es)) (hchoice : env.choice = .preferring c) (hc : c ∈ certs)
    (hcand : Candidate imp e c) (hown : Own imp c) (hnot : ¬Settled e (e.serial env certs) c)
    (hfree : ∀ d ∈ certs, d.serialNumber = e.serial env certs → d = c) :
    syncTurns env imp certs (e :: es) ≠ certs := by
  intro hsame
  have hturn := syncTurn_eq_moved henv huniq hchoice hc hcand hown hnot hfree
  have hmem : refresh imp e (e.serial env certs) c ∈ syncTurn env imp certs e := by
    rw [hturn]
    exact (mem_update_iff huniq.1 hc).2 (Or.inr rfl)
  have hstays := mem_of_mem_turn imp henv huniq [] hkey hmem
    ((refresh_commonName _ _).trans hcand.1)
  rw [List.nil_append, hsame] at hstays
  have heq := huniq.1.eq_of_key hstays hc (refresh_id _ _)
  refine hnot ?_
  rw [← heq]
  exact ⟨refresh_revokedAt _ _, by rw [refresh_serialNumber], refresh_expiresAt _ _⟩

theorem exists_own_of_created (henv : env.Answers now) (huniq : UniqueCerts certs)
    (hkey : Rows.HasKey (·.cn) (e :: es)) (hnone : ∀ c ∈ certs, ¬Candidate imp e c)
    (hfree : ∀ d ∈ certs, d.serialNumber ≠ e.serial env certs) :
    ∃ c ∈ syncTurns env imp certs (e :: es), Candidate imp e c ∧ Own imp c := by
  have hturn := turn_syncTurn imp henv huniq e
  have hstays := fun u => @mem_of_mem_turn env now certs e imp henv huniq [] es hkey u
  rw [List.nil_append] at hstays
  have hmem : importedRow env imp certs e.cn (e.serial env certs) e.expiresAt ∈
      syncTurn env imp certs e := by
    generalize syncTurn env imp certs e = table' at hturn
    cases hturn with
    | foreign hfind => exact absurd (mem_of_findCert hfind).2 (hnone _ (mem_of_findCert hfind).1)
    | settled hfind => exact absurd (mem_of_findCert hfind).2 (hnone _ (mem_of_findCert hfind).1)
    | refused hfind => exact absurd (mem_of_findCert hfind).2 (hnone _ (mem_of_findCert hfind).1)
    | moved hfind => exact absurd (mem_of_findCert hfind).2 (hnone _ (mem_of_findCert hfind).1)
    | taken _ hd hholds => exact absurd hholds (hfree _ hd)
    | created => exact List.mem_append_right _ (List.mem_singleton_self _)
  exact ⟨_, hstays _ hmem rfl, ⟨rfl, rfl⟩, rfl⟩

/-! ### The tables that no import changes -/

section Unchanged

variable (huniq : UniqueCerts certs)
  (hsame : ∀ env : SyncEnv, env.Answers now → (syncIssuedInventory env imp certs text).1.1 = certs)

include hsame in
/-- The turns of the entries change nothing, whichever comes first and whichever row is
preferred. -/
theorem syncTurns_first (he : e ∈ issuedEntries (now + defaultImportedExpiry) text)
    (choice : Rows.Choice Certificate) : ∃ (env : SyncEnv) (es : List IssuedEntry),
      env.Answers now ∧ Rows.HasKey (·.cn) (e :: es) ∧ env.choice = choice ∧
      (∀ texts, normalizeSerialHex (env.ksuid texts) ∉ texts.map normalizeSerialHex) ∧
      syncTurns env imp certs (e :: es) = certs := by
  have hperm := (List.perm_cons_erase he).symm
  obtain ⟨env, henv, hentries, hchoice, hfresh⟩ := SyncEnv.exists_order now choice [] hperm
  refine ⟨env, _, henv, hentries ▸ env.entries_hasKey text, hchoice,
    fun texts => (hfresh texts).2, ?_⟩
  rw [← hentries, ← (syncIssuedInventory_eq henv imp certs text).1]
  exact hsame env henv

include huniq hsame in
/-- **A table that no import changes** is quiet. -/
theorem quiet_of_unchanged :
    Quiet imp (issuedEntries (now + defaultImportedExpiry) text) certs where
  foreign e he hserial := by
    constructor
    · by_contra hnone
      push Not at hnone
      obtain ⟨env, es, henv, hkey, -, -, hturns⟩ := syncTurns_first hsame he .first
      obtain ⟨c, hc, hcand, -⟩ :=
        exists_own_of_created henv huniq hkey hnone fun d hd => serial_ne_of_blank henv hserial hd
      rw [hturns] at hc
      exact hnone c hc hcand
    · intro c hc hcand hown
      obtain ⟨env, es, henv, hkey, hchoice, hnormal, hturns⟩ :=
        syncTurns_first hsame he (.preferring c)
      have hs : e.serial env certs = env.ksuid (certs.map (·.serialNumber)) := if_pos hserial
      refine syncTurns_ne_of_moved henv huniq hkey hchoice hc hcand hown (fun hset => ?_)
        (fun d hd heq => absurd heq (serial_ne_of_blank henv hserial hd)) hturns
      have hmem := hnormal (certs.map (·.serialNumber))
      rw [← hs, ← hset.2.1] at hmem
      exact hmem (List.mem_map_of_mem (List.mem_map_of_mem hc))
  moves e he hserial c := by
    rintro ⟨hc, hcand, hown, hnot, hfree⟩
    obtain ⟨env, es, henv, hkey, hchoice, -, hturns⟩ := syncTurns_first hsame he (.preferring c)
    have hs := IssuedEntry.serial_of_ne env hserial certs
    rw [← hs] at hnot hfree
    exact syncTurns_ne_of_moved henv huniq hkey hchoice hc hcand hown hnot hfree hturns
  creates e he hserial := by
    rintro ⟨hnone, hfree⟩
    obtain ⟨env, es, henv, hkey, -, -, hturns⟩ := syncTurns_first hsame he .first
    have hs := IssuedEntry.serial_of_ne env hserial certs
    rw [← hs] at hfree
    obtain ⟨c, hc, hcand, -⟩ := exists_own_of_created henv huniq hkey hnone hfree
    rw [hturns] at hc
    exact hnone c hc hcand

end Unchanged

/-! ### What an import leaves of a text that is not stable -/

theorem syncTurn_eq_self_of_held (henv : env.Answers now) (huniq : UniqueCerts certs)
    (hserial : e.serialHex ≠ "") {d : Certificate} (hd : d ∈ certs)
    (hholds : d.serialNumber = e.serialHex)
    (hcn : e.cn ≠ d.commonName) : syncTurn env imp certs e = certs := by
  have hs := IssuedEntry.serial_of_ne env hserial certs
  have hturn := turn_syncTurn imp henv huniq e
  generalize syncTurn env imp certs e = table' at hturn ⊢
  cases hturn with
  | foreign => rfl
  | settled => rfl
  | refused => rfl
  | moved hfind _ _ hfree =>
    rw [hfree d hd (hholds.trans hs.symm)] at hcn
    exact absurd (mem_of_findCert hfind).2.1.symm hcn
  | taken => rfl
  | created _ hfree => exact absurd (hholds.trans hs.symm) (hfree d hd)

/-- The turn of an entry that need not write, where a row is chosen that is not updated. -/
theorem syncTurn_eq_self_of_not_forced {entries : List IssuedEntry} {kind : Certificate → Bool}
    (henv : env.Answers now) (huniq : UniqueCerts certs) (hentries : Rows.HasKey (·.cn) entries)
    (he : e ∈ entries) (hserial : e.serialHex ≠ "") (hchoice : env.choice = .among kind)
    (hkind : ∀ c, kind c = true ↔ ∀ e' ∈ entries, Candidate imp e' c → ¬Moves imp certs e' c)
    (hnot : ¬Forced imp certs e) : syncTurn env imp certs e = certs := by
  obtain ⟨hcreates, hmoves⟩ := not_or.1 hnot
  have hs := IssuedEntry.serial_of_ne env hserial certs
  have hturn := turn_syncTurn imp henv huniq e
  generalize syncTurn env imp certs e = table' at hturn ⊢
  cases hturn with
  | foreign => rfl
  | settled => rfl
  | refused => rfl
  | @moved c hfind hown hnot hfree =>
    obtain ⟨hc, hcand⟩ := mem_of_findCert hfind
    rw [hs] at hnot hfree
    have hother : ∃ c' ∈ certs, Candidate imp e c' ∧ ¬Moves imp certs e c' := by
      by_contra hall
      push Not at hall
      exact hmoves ⟨⟨c, hc, hcand⟩, hall⟩
    obtain ⟨c', hc', hcand', hnot'⟩ := hother
    have hkind' : kind c' = true := by
      refine (hkind c').2 fun e' he' hcand'' => ?_
      rw [eq_of_cn hentries he he' (hcand''.1.symm.trans hcand'.1)]
      exact hnot'
    rw [findCertByCNAndNode, hchoice] at hfind
    have hchosen := Rows.Choice.of_select_among hc' (decide_eq_true hcand') hkind' hfind
    exact absurd ⟨hc, hcand, hown, hnot, hfree⟩ ((hkind c).1 hchosen e he hcand)
  | taken => rfl
  | created hfind hfree =>
    rw [hs] at hfree
    exact absurd ⟨findCert_eq_none.1 hfind, hfree⟩ hcreates

theorem exists_group (serialHex : String) (entries : List IssuedEntry) :
    ∃ group others : List IssuedEntry, (group ++ others).Perm entries ∧
      (∀ e ∈ group, e.serialHex = serialHex) ∧ ∀ e ∈ others, e.serialHex ≠ serialHex := by
  refine ⟨_, _, List.filter_append_perm (fun e => decide (e.serialHex = serialHex)) entries,
    fun e he => ?_, fun e he => ?_⟩
  · exact of_decide_eq_true (List.mem_filter.1 he).2
  · simpa using (List.mem_filter.1 he).2

section Again

variable (huniq : UniqueCerts certs)
  (hquiet : ∀ env : SyncEnv, env.Answers now → Quiet imp
    (issuedEntries (now + defaultImportedExpiry) text) (syncTurns env imp certs (env.entries text)))

include huniq hquiet

theorem foreign_of_quiet (he : e ∈ issuedEntries (now + defaultImportedExpiry) text)
    (hserial : e.serialHex = "") :
    (∃ c ∈ certs, Candidate imp e c) ∧ ∀ c ∈ certs, Candidate imp e c → ¬Own imp c := by
  have hperm := (List.perm_cons_erase he).symm
  obtain ⟨env, henv, hentries, -, -⟩ := SyncEnv.exists_order now .first [] hperm
  have hkey : Rows.HasKey (·.cn) (e :: _) := hentries ▸ env.entries_hasKey text
  have hforeign := ((hquiet env henv).foreign e he hserial).2
  rw [hentries] at hforeign
  constructor
  · by_contra hnone
    push Not at hnone
    obtain ⟨c, hc, hcand, hown⟩ :=
      exists_own_of_created henv huniq hkey hnone fun d hd => serial_ne_of_blank henv hserial hd
    exact hforeign c hc hcand hown
  · intro c hc hcand hown
    obtain ⟨c', hc', -, hcn, hnode, hroot⟩ := stays_syncTurns imp henv huniq (e :: _) hc
    refine hforeign c' hc' ⟨hcn.trans hcand.1, hnode.trans hcand.2⟩ ?_
    rw [Own, hroot]
    exact hown

/-- An entry wants no serial number that another entry may take from a row. -/
theorem freed_of_quiet {e' : IssuedEntry}
    (he : e ∈ issuedEntries (now + defaultImportedExpiry) text)
    (he' : e' ∈ issuedEntries (now + defaultImportedExpiry) text) (hserial : e.serialHex ≠ "")
    (hserial' : e'.serialHex ≠ "") (hne : e'.serialHex ≠ e.serialHex) {d : Certificate}
    (hmoves : Moves imp certs e' d) (hholds : d.serialNumber = e.serialHex) :
    ¬Wants imp certs e := by
  obtain ⟨hd, hcand, hown, hnot, hfree⟩ := hmoves
  -- the entries of the serial number come first, and are refused; then the row takes another one
  obtain ⟨group, others, hperm, hgroup, hothers⟩ :=
    exists_group e.serialHex (issuedEntries (now + defaultImportedExpiry) text)
  have hmem : e' ∈ others :=
    (List.mem_append.1 (hperm.mem_iff.2 he')).resolve_left fun h => hne (hgroup e' h)
  have hself : e ∈ group :=
    (List.mem_append.1 (hperm.mem_iff.2 he)).resolve_right fun h => hothers e h rfl
  have hperm' := (List.Perm.append_left group (List.perm_cons_erase hmem)).symm.trans hperm
  obtain ⟨env, henv, hentries, hchoice, hfresh⟩ :=
    SyncEnv.exists_order now (.preferring d) [e.serialHex] hperm'
  have hkey := env.entries_hasKey text
  rw [hentries] at hkey
  have hquiet := hquiet env henv
  rw [hentries, syncTurns_append] at hquiet
  have hcn := fun e'' he'' => (ne_of_split hkey).1 e'' he''
  have hstart : syncTurns env imp certs group = certs := by
    refine syncTurns_eq_self fun e'' he'' => ?_
    have hsame := hgroup e'' he''
    refine syncTurn_eq_self_of_held henv huniq (hsame ▸ hserial) hd
      (hholds.trans hsame.symm) fun heq => ?_
    exact hcn e'' he'' (heq.trans hcand.1)
  rw [hstart] at hquiet
  have hs := IssuedEntry.serial_of_ne env hserial' certs
  have hturn : syncTurn env imp certs e' = _ := syncTurn_eq_moved henv huniq hchoice hd hcand hown
    (hs.symm ▸ hnot) (hs.symm ▸ hfree)
  rw [hs] at hturn
  have huniq' := (turn_syncTurn imp henv huniq e').uniqueCerts henv huniq
  -- nobody has the serial number then, and the rows of the entry are as before
  have hnone : ∀ u ∈ syncTurns env imp certs (e' :: others.erase e'),
      u.serialNumber ≠ e.serialHex := by
    intro u hu hsame
    have hu' : u ∈ syncTurn env imp certs e' := by
      refine mem_of_syncTurns_of_serial henv huniq' (fun e'' he'' table heq => ?_) hu
      rw [hsame, IssuedEntry.serial] at heq
      split_ifs at heq with hblank
      · exact (hfresh _).1 (List.mem_singleton.2 heq)
      · exact hothers e'' (List.mem_of_mem_erase he'') heq
    rw [hturn] at hu'
    rcases (mem_update_iff huniq.1 hd).1 hu' with ⟨hu', hud⟩ | rfl
    · exact hud (huniq.2.eq_of_key hu' hd (hsame.trans hholds.symm))
    · exact hne ((refresh_serialNumber _ _).symm.trans hsame)
  have hrows : ∀ c, Candidate imp e c →
      (c ∈ syncTurns env imp certs (e' :: others.erase e') ↔ c ∈ certs) := fun c hc =>
    mem_iff_of_rowsOf (rowsOf_syncTurns henv huniq fun e'' he'' =>
      (ne_of_split hkey).2.2 e hself e'' he'')
      hc.1
  rintro (hcreates | ⟨c, hc, hcand', hown', hnot'⟩)
  · exact hquiet.creates e he hserial
      ⟨fun c hc hcand' => hcreates c ((hrows c hcand').1 hc) hcand', hnone⟩
  · exact hquiet.moves e he hserial c
      ⟨(hrows c hcand').2 hc, hcand', hown', hnot', fun u hu hsame => absurd hsame (hnone u hu)⟩

/-- Where an entry may take a serial number, some entry takes it. -/
theorem taken_of_quiet (he : e ∈ issuedEntries (now + defaultImportedExpiry) text)
    (hserial : e.serialHex ≠ "")
    (hmoves : Moves imp certs e c) : ∃ e' ∈ issuedEntries (now + defaultImportedExpiry) text,
      e'.serialHex = e.serialHex ∧ Forced imp certs e' := by
  classical
  by_contra hnone
  push Not at hnone
  obtain ⟨hc, hcand, hown, hnot, hfree⟩ := hmoves
  -- the entries of the serial number come first, and find rows that they do not update
  obtain ⟨group, others, hperm, hgroup, hothers⟩ :=
    exists_group e.serialHex (issuedEntries (now + defaultImportedExpiry) text)
  have hself : e ∈ group :=
    (List.mem_append.1 (hperm.mem_iff.2 he)).resolve_right fun h => hothers e h rfl
  obtain ⟨env, henv, hentries, hchoice, hfresh⟩ := SyncEnv.exists_order now
    (.among fun c => decide (∀ e' ∈ issuedEntries (now + defaultImportedExpiry) text,
      Candidate imp e' c → ¬Moves imp certs e' c)) [e.serialHex] hperm
  have hkey := env.entries_hasKey text
  rw [hentries, Rows.HasKey, List.map_append, List.nodup_append] at hkey
  have hstart : syncTurns env imp certs group = certs := by
    refine syncTurns_eq_self fun e' he' => ?_
    have hin := hperm.mem_iff.1 (List.mem_append_left _ he')
    have hsame := hgroup e' he'
    exact syncTurn_eq_self_of_not_forced henv huniq (issuedEntries_hasKey _ _) hin
      (hsame ▸ hserial) hchoice (fun c => decide_eq_true_iff) (hnone e' hin hsame)
  have hquiet := hquiet env henv
  rw [hentries, syncTurns_append, hstart] at hquiet
  refine hquiet.moves e he hserial c ⟨?_, hcand, hown, hnot, fun u hu hsame => hfree u ?_ hsame⟩
  · refine (mem_syncTurns_of_ne henv huniq fun e' he' heq => ?_).2 hc
    exact hkey.2.2 _ (List.mem_map_of_mem hself) _ (List.mem_map_of_mem he')
      (heq.trans hcand.1).symm
  · refine mem_of_syncTurns_of_serial henv huniq (fun e' he' table heq => ?_) hu
    rw [hsame, IssuedEntry.serial] at heq
    split_ifs at heq with hblank
    · exact (hfresh _).1 (List.mem_singleton.2 heq)
    · exact hothers e' he' heq

end Again

/-! ### Repeated imports -/

theorem Repeatable.quiet (h : Repeatable imp now text certs) (huniq : UniqueCerts certs)
    (henv : env.Answers now) : Quiet imp (issuedEntries (now + defaultImportedExpiry) text)
      (syncTurns env imp certs (env.entries text)) := by
  refine quiet_of_unchanged (uniqueCerts_syncTurns imp henv huniq _) fun env' henv' => ?_
  rw [← (syncIssuedInventory_eq henv imp certs text).1]
  exact h.again env env' henv henv'

/-- **The import of a stable text** gives a row only serial numbers that a line of its name has. -/
theorem serials_of_stable (henv : env.Answers now) (huniq : UniqueCerts certs)
    (hstable : Stable imp (issuedEntries (now + defaultImportedExpiry) text) certs) (hc : c ∈ certs)
    {c' : Certificate} (hc' : c' ∈ (syncIssuedInventory env imp certs text).1.1)
    (hid : c'.id = c.id) :
    c'.serialNumber = c.serialNumber ∨
      ∃ date, (c.commonName, some (c'.serialNumber, date)) ∈ accepted text := by
  have hperm := henv.perm_entries text
  rw [(syncIssuedInventory_eq henv imp certs text).1] at hc'
  have htracked := tracked_perm henv huniq hstable (issuedEntries_hasKey _ _) hperm
  rcases htracked.rows c' hc' with hold | ⟨e, he, hserial, htold⟩
  · rw [huniq.1.eq_of_key hold hc hid]
    exact Or.inl rfl
  · obtain ⟨c'', hc'', hid', hcn, -⟩ := stays_syncTurns imp henv huniq (env.entries text) hc
    have hsame : c'' = c' := htracked.uniq.1.eq_of_key hc'' hc' (hid'.trans hid.symm)
    have hname : c.commonName = e.cn := by rw [← hcn, hsame, htold.candidate.1]
    obtain ⟨date, hline⟩ := exists_line_of_serialHex (hperm.mem_iff.1 he) hserial
    refine Or.inr ⟨date, ?_⟩
    rw [hname, htold.serial]
    exact hline

/-- **A text is repeatable if and only if it is stable.** From the right to the left, an import
leaves a table that the turn of each entry leaves alone. From the left to the right, each part of
`Stable` that fails gives an order and a choice of rows of which the second import writes again. -/
theorem repeatable_iff_stable (imp : IssuedImport) (now : ℤ) (text : String)
    (certs : List Certificate) (huniq : UniqueCerts certs) : Repeatable imp now text certs ↔
      Stable imp (issuedEntries (now + defaultImportedExpiry) text) certs := by
  constructor
  · intro hrepeat
    have hquiet := fun env henv => @Repeatable.quiet env _ _ _ _ hrepeat huniq henv
    exact ⟨fun e he hserial => foreign_of_quiet huniq hquiet he hserial,
      fun e he e' he' hserial hserial' hne d hmoves hholds =>
        freed_of_quiet huniq hquiet he he' hserial hserial' hne hmoves hholds,
      fun e he hserial c hmoves => taken_of_quiet huniq hquiet he hserial hmoves⟩
  · intro hstable
    refine ⟨fun env env' henv henv' => ?_, fun env henv c hc c' hc' hid =>
      serials_of_stable henv huniq hstable hc hc' hid⟩
    rw [(syncIssuedInventory_eq henv' imp _ text).1, (syncIssuedInventory_eq henv imp certs text).1]
    exact (hstable.quiet henv huniq (issuedEntries_hasKey _ _)
      (henv.perm_entries text)).syncTurns henv'
      (uniqueCerts_syncTurns imp henv huniq _) fun e he => (henv'.perm_entries text).mem_iff.1 he

def oneRoot : IssuedImport := ⟨"root", "operator", none⟩

def revokedAlice : Certificate where
  id := "c1"
  commonName := "alice"
  serialNumber := "09"
  issuedBy := "operator"
  rootCaId := some "root"
  agentNodeId := none
  vpnUserId := none
  certPem := none
  keyPem := none
  expiresAt := 0
  createdAt := 0
  revokedAt := some 0
  revokedReason := none

/-- A text that renews the row is stable, and may be imported twice. -/
theorem repeatable_iff_stable_renewed :
    (Repeatable oneRoot 0 "V\t300101000000Z\t\t0A\tunknown\t/CN=alice" [revokedAlice] ↔
      Stable oneRoot (issuedEntries (0 + defaultImportedExpiry)
        "V\t300101000000Z\t\t0A\tunknown\t/CN=alice") [revokedAlice]) ∧
    Stable oneRoot (issuedEntries (0 + defaultImportedExpiry)
      "V\t300101000000Z\t\t0A\tunknown\t/CN=alice") [revokedAlice] := by
  refine ⟨repeatable_iff_stable _ _ _ _ (by decide), ?_⟩
  have hentries : issuedEntries (0 + defaultImportedExpiry)
      "V\t300101000000Z\t\t0A\tunknown\t/CN=alice" = [⟨"alice", "A", 1893456000⟩] := by
    decide +kernel
  have hmoves : ∀ c ∈ [revokedAlice], Moves oneRoot [revokedAlice] ⟨"alice",
      "A", 1893456000⟩ c := by
    decide +kernel
  rw [hentries]
  refine ⟨?_, ?_, ?_⟩
  · rintro e he hserial
    rw [List.mem_singleton.1 he] at hserial
    exact absurd hserial (by decide)
  · rintro e he e' he' - - hne
    exact absurd (congrArg _ ((List.mem_singleton.1 he').trans (List.mem_singleton.1 he).symm)) hne
  · rintro e he - c -
    refine ⟨e, he, rfl, Or.inr ?_⟩
    rw [List.mem_singleton.1 he]
    exact ⟨⟨revokedAlice, List.mem_singleton_self _, rfl, rfl⟩, fun c hc _ => hmoves c hc⟩

/-- A line without a serial number gives the row that it makes a new one each time. -/
theorem generated_serial_again : ¬Repeatable oneRoot 0 "alice" [] := by
  intro hrepeat
  have huniq : UniqueCerts [] := by decide
  have hquiet := fun env henv => @Repeatable.quiet env _ _ _ _ hrepeat huniq henv
  have hentries : issuedEntries (0 + defaultImportedExpiry) "alice" =
      [⟨"alice", "", 0 + defaultImportedExpiry⟩] := by
    decide +kernel
  have hforeign := foreign_of_quiet (e := ⟨"alice", "", 0 + defaultImportedExpiry⟩) huniq hquiet
    (hentries ▸ List.mem_singleton_self _) rfl
  obtain ⟨⟨c, hc, -⟩, -⟩ := hforeign
  cases hc

end OpenvpnControl.Cert
