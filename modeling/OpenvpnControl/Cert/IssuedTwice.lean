import OpenvpnControl.Cert.IssuedRuns

/-!
# Importing a text twice

A second import of a text finds what the first one left. It changes nothing if the first one settles
every row that an import may touch, whatever the order of the common names and whichever of several
rows is found. This file follows an import of such a text through its turns.

## Main definitions

* `Moves`, `Creates`, `Wants`, `Forced`: what the turn of an entry may do, or must do, to a table.
* `Stable`: the tables and texts of which a second import changes nothing.
* `Tracked`: what is known of the table after some turns.
* `Quiet`: the tables that no turn changes.

## Main results

* `tracked_syncTurns`: the table after some turns.
* `Stable.quiet`: no turn changes what an import of a stable text leaves.
-/

namespace OpenvpnControl.Cert

open Panel (Certificate UniqueCerts storeCerts)

/-- A turn may update a row: it is one of the root, says something else, and no other row has the
serial number. -/
def Moves (imp : IssuedImport) (certs : List Certificate) (e : IssuedEntry)
    (c : Certificate) : Prop :=
  c ∈ certs ∧ Candidate imp e c ∧ Own imp c ∧ ¬Settled e e.serialHex c ∧
    ∀ d ∈ certs, d.serialNumber = e.serialHex → d = c

instance (imp : IssuedImport) (certs : List Certificate) (e : IssuedEntry) (c : Certificate) :
    Decidable (Moves imp certs e c) := inferInstanceAs (Decidable (_ ∧ _))

/-- A turn inserts a row: there is none, and none has the serial number. -/
def Creates (imp : IssuedImport) (certs : List Certificate) (e : IssuedEntry) : Prop :=
  (∀ c ∈ certs, ¬Candidate imp e c) ∧ ∀ d ∈ certs, d.serialNumber ≠ e.serialHex

/-- A turn may try to write. -/
def Wants (imp : IssuedImport) (certs : List Certificate) (e : IssuedEntry) : Prop :=
  (∀ c ∈ certs, ¬Candidate imp e c) ∨
    ∃ c ∈ certs, Candidate imp e c ∧ Own imp c ∧ ¬Settled e e.serialHex c

/-- A turn writes, whichever row is found. -/
def Forced (imp : IssuedImport) (certs : List Certificate) (e : IssuedEntry) : Prop :=
  Creates imp certs e ∨
    (∃ c ∈ certs, Candidate imp e c) ∧ ∀ c ∈ certs, Candidate imp e c → Moves imp certs e c

/-- The tables and entries of which a second import changes nothing. An entry without a serial
number finds rows of other roots only; an entry wants no serial number that another entry may take
from a row; and where an entry may take a serial number, some entry takes it. -/
structure Stable (imp : IssuedImport) (entries : List IssuedEntry)
    (certs : List Certificate) : Prop where
  foreign : ∀ e ∈ entries, e.serialHex = "" →
    (∃ c ∈ certs, Candidate imp e c) ∧ ∀ c ∈ certs, Candidate imp e c → ¬Own imp c
  freed : ∀ e ∈ entries, ∀ e' ∈ entries, e.serialHex ≠ "" → e'.serialHex ≠ "" →
    e'.serialHex ≠ e.serialHex → ∀ d, Moves imp certs e' d → d.serialNumber = e.serialHex →
    ¬Wants imp certs e
  taken : ∀ e ∈ entries, e.serialHex ≠ "" → ∀ c, Moves imp certs e c →
    ∃ e' ∈ entries, e'.serialHex = e.serialHex ∧ Forced imp certs e'

variable {env : SyncEnv} {imp : IssuedImport} {now : ℤ} {certs table : List Certificate}
  {e : IssuedEntry} {entries : List IssuedEntry}

/-! ### The rows after some turns -/

/-- A row says what an entry says. -/
structure Told (imp : IssuedImport) (e : IssuedEntry) (c : Certificate) : Prop where
  candidate : Candidate imp e c
  valid : c.revokedAt = none
  serial : c.serialNumber = e.serialHex
  expires : c.expiresAt = e.expiresAt

theorem Told.settled {c : Certificate} (h : Told imp e c) : Settled e e.serialHex c :=
  ⟨h.valid, by rw [h.serial], h.expires⟩

/-- The table after the turns of some entries: the rows are those before and what the entries say; a
row that is gone has been updated, and says what its entry says; the rows of other names are as
before. -/
structure Tracked (imp : IssuedImport) (certs : List Certificate) (past : List IssuedEntry)
    (table : List Certificate) : Prop where
  uniq : UniqueCerts table
  rows : ∀ u ∈ table, u ∈ certs ∨ ∃ e ∈ past, e.serialHex ≠ "" ∧ Told imp e u
  kept : ∀ d ∈ certs, d ∈ table ∨
    ∃ e ∈ past, e.serialHex ≠ "" ∧ Moves imp certs e d ∧ ∃ u ∈ table, Told imp e u
  frame : ∀ cn, (∀ e ∈ past, e.cn ≠ cn) → rowsOf cn table = rowsOf cn certs

/-- The entries have one common name each. -/
theorem eq_of_cn (hentries : Rows.HasKey (·.cn) entries) {e' : IssuedEntry} (he : e ∈ entries)
    (he' : e' ∈ entries) (h : e'.cn = e.cn) : e' = e :=
  hentries.eq_of_key he' he h

/-- A serial number that an entry wants stays with a row. -/
theorem Tracked.exists_holder (hstable : Stable imp entries certs) {past : List IssuedEntry}
    (h : Tracked imp certs past table) (hpast : ∀ e ∈ past, e ∈ entries) (he : e ∈ entries)
    (hserial : e.serialHex ≠ "") (hwants : Wants imp certs e) {d : Certificate} (hd : d ∈ certs)
    (hholds : d.serialNumber = e.serialHex) :
    ∃ u ∈ table, u.serialNumber = e.serialHex ∧ (u = d ∨ ∃ e' ∈ past, Told imp e' u) := by
  rcases h.kept d hd with hmem | ⟨e', he', hserial', hmoves, u, hu, htold⟩
  · exact ⟨d, hmem, hholds, Or.inl rfl⟩
  · by_cases hsame : e'.serialHex = e.serialHex
    · exact ⟨u, hu, htold.serial.trans hsame, Or.inr ⟨e', he', htold⟩⟩
    · exact absurd hwants
        (hstable.freed e he e' (hpast e' he') hserial hserial' hsame d hmoves hholds)

/-- What an entry may update after some turns, it may update before. -/
theorem Tracked.moves (hstable : Stable imp entries certs) (hentries : Rows.HasKey (·.cn) entries)
    {past : List IssuedEntry} (h : Tracked imp certs past table) (hpast : ∀ e ∈ past, e ∈ entries)
    (he : e ∈ entries) (hserial : e.serialHex ≠ "") {c : Certificate} (hc : c ∈ certs)
    (hmoves : Moves imp table e c) : Moves imp certs e c := by
  obtain ⟨-, hcand, hown, hnot, hholders⟩ := hmoves
  refine ⟨hc, hcand, hown, hnot, fun d hd hholds => ?_⟩
  obtain ⟨u, hu, huserial, rfl | ⟨e', he', htold⟩⟩ :=
    h.exists_holder hstable hpast he hserial (Or.inr ⟨c, hc, hcand, hown, hnot⟩) hd hholds
  · exact hholders u hu huserial
  · -- the row is told by the entry itself
    have hu := hholders u hu huserial
    rw [hu] at htold
    have heq := eq_of_cn hentries he (hpast e' he') (htold.candidate.1.symm.trans hcand.1)
    rw [heq] at htold
    exact absurd htold.settled hnot

/-- The rows of an entry are as before, until its turn. -/
theorem Tracked.mem_iff {past : List IssuedEntry} (h : Tracked imp certs past table)
    (hnew : ∀ e' ∈ past, e'.cn ≠ e.cn) {c : Certificate} (hcand : Candidate imp e c) :
    c ∈ table ↔ c ∈ certs := mem_iff_of_rowsOf (h.frame e.cn hnew) hcand.1

/-- A turn that writes nothing. -/
theorem Tracked.same {past : List IssuedEntry} (h : Tracked imp certs past table)
    (e : IssuedEntry) :
    Tracked imp certs (past ++ [e]) table where
  uniq := h.uniq
  rows u hu := (h.rows u hu).imp_right fun ⟨e', he', htold⟩ =>
    ⟨e', List.mem_append_left _ he', htold⟩
  kept d hd := (h.kept d hd).imp_right fun ⟨e', he', hmoves⟩ =>
    ⟨e', List.mem_append_left _ he', hmoves⟩
  frame cn hcn := h.frame cn fun e' he' => hcn e' (List.mem_append_left _ he')

theorem told_refresh (imp : IssuedImport) {c : Certificate} (hcand : Candidate imp e c) :
    Told imp e (refresh imp e e.serialHex c) where
  candidate := ⟨(refresh_commonName _ _).trans hcand.1, (refresh_agentNodeId _ _).trans hcand.2⟩
  valid := refresh_revokedAt _ _
  serial := refresh_serialNumber _ _
  expires := refresh_expiresAt _ _

/-- A turn that updates a row. -/
theorem Tracked.moved (henv : env.Answers now) {past : List IssuedEntry}
    (h : Tracked imp certs past table) (hnew : ∀ e' ∈ past, e'.cn ≠ e.cn)
    (hserial : e.serialHex ≠ "") {c : Certificate} (hc : c ∈ table) (hmoves : Moves imp certs e c)
    (hturn : Turn env imp e table
      (Rows.updateWhere (fun d => d.id = c.id) (refresh imp e e.serialHex) table)) :
    Tracked imp certs (past ++ [e])
      (Rows.updateWhere (fun d => d.id = c.id) (refresh imp e e.serialHex) table) := by
  have hmem := fun d => mem_update_iff (d := d) (f := refresh imp e e.serialHex) h.uniq.1 hc
  have hcand : Candidate imp e c := hmoves.2.1
  have hself : e ∈ past ++ [e] := List.mem_append_right _ (List.mem_singleton_self e)
  refine ⟨hturn.uniqueCerts henv h.uniq, fun u hu => ?_, fun d hd => ?_, fun cn hcn => ?_⟩
  · rcases (hmem u).1 hu with ⟨hu, -⟩ | rfl
    · exact (h.same e).rows u hu
    · exact Or.inr ⟨e, hself, hserial, told_refresh imp hcand⟩
  · rcases h.kept d hd with hd' | ⟨e', he', hserial', hmoves', u, hu, htold⟩
    · by_cases hdc : d = c
      · subst hdc
        exact Or.inr ⟨e, hself, hserial, hmoves, _, (hmem _).2 (Or.inr rfl), told_refresh imp hcand⟩
      · exact Or.inl ((hmem d).2 (Or.inl ⟨hd', hdc⟩))
    · -- the row of another name stays
      have hne : u ≠ c := fun heq =>
        hnew e' he' (htold.candidate.1.symm.trans ((congrArg _ heq).trans hcand.1))
      exact Or.inr ⟨e', List.mem_append_left _ he', hserial', hmoves', u,
        (hmem u).2 (Or.inl ⟨hu, hne⟩), htold⟩
  · rw [hturn.rowsOf h.uniq (hcn e hself).symm]
    exact (h.same e).frame cn hcn

/-- A turn that inserts a row. -/
theorem Tracked.created (henv : env.Answers now) {past : List IssuedEntry}
    (h : Tracked imp certs past table) (hserial : e.serialHex ≠ "") {row : Certificate}
    (htold : Told imp e row) (hturn : Turn env imp e table (table ++ [row])) :
    Tracked imp certs (past ++ [e]) (table ++ [row]) := by
  have hself : e ∈ past ++ [e] := List.mem_append_right _ (List.mem_singleton_self e)
  refine ⟨hturn.uniqueCerts henv h.uniq, fun u hu => ?_, fun d hd => ?_, fun cn hcn => ?_⟩
  · rcases List.mem_append.1 hu with hu | hu
    · exact (h.same e).rows u hu
    · rw [List.mem_singleton.1 hu]
      exact Or.inr ⟨e, hself, hserial, htold⟩
  · rcases h.kept d hd with hd' | ⟨e', he', hserial', hmoves', u, hu, htold'⟩
    · exact Or.inl (List.mem_append_left _ hd')
    · exact Or.inr ⟨e', List.mem_append_left _ he', hserial', hmoves', u,
        List.mem_append_left _ hu, htold'⟩
  · rw [hturn.rowsOf h.uniq (hcn e hself).symm]
    exact (h.same e).frame cn hcn

/-- An entry without a serial number writes nothing. -/
theorem Tracked.foreign_turn (hstable : Stable imp entries certs) {past : List IssuedEntry}
    (h : Tracked imp certs past table) (hnew : ∀ e' ∈ past, e'.cn ≠ e.cn) (he : e ∈ entries)
    (hserial : e.serialHex = "") {table' : List Certificate} (hturn : Turn env imp e table table') :
    table' = table := by
  obtain ⟨⟨c₀, hc₀, hcand₀⟩, hforeign⟩ := hstable.foreign e he hserial
  cases hturn with
  | foreign => rfl
  | settled => rfl
  | refused => rfl
  | moved hfind hown =>
    obtain ⟨hc, hcand⟩ := mem_of_findCert hfind
    exact absurd hown (hforeign _ ((h.mem_iff hnew hcand).1 hc) hcand)
  | taken => rfl
  | created hfind =>
    exact absurd hcand₀ (findCert_eq_none.1 hfind c₀ ((h.mem_iff hnew hcand₀).2 hc₀))

/-- **One turn.** -/
theorem Tracked.turn (henv : env.Answers now) (hstable : Stable imp entries certs)
    (hentries : Rows.HasKey (·.cn) entries) {past : List IssuedEntry}
    (h : Tracked imp certs past table) (hpast : ∀ e ∈ past, e ∈ entries)
    (hnew : ∀ e' ∈ past, e'.cn ≠ e.cn) (he : e ∈ entries) {table' : List Certificate}
    (hturn : Turn env imp e table table') : Tracked imp certs (past ++ [e]) table' := by
  by_cases hserial : e.serialHex = ""
  · rw [h.foreign_turn hstable hnew he hserial hturn]
    exact h.same e
  · have hs := IssuedEntry.serial_of_ne env hserial table
    have hturn' := hturn
    cases hturn with
    | foreign => exact h.same e
    | settled => exact h.same e
    | refused => exact h.same e
    | moved hfind hown hnot hfree =>
      obtain ⟨hc, hcand⟩ := mem_of_findCert hfind
      rw [hs] at hnot hfree hturn' ⊢
      have hmoves := h.moves hstable hentries hpast he hserial ((h.mem_iff hnew hcand).1 hc)
        ⟨hc, hcand, hown, hnot, hfree⟩
      exact h.moved henv hnew hserial hc hmoves hturn'
    | taken => exact h.same e
    | created =>
      rw [hs] at hturn' ⊢
      exact h.created henv hserial ⟨⟨rfl, rfl⟩, rfl, rfl, rfl⟩ hturn'

/-- **Turns.** -/
theorem tracked_syncTurns (henv : env.Answers now) (huniq : UniqueCerts certs)
    (hstable : Stable imp entries certs) (hentries : Rows.HasKey (·.cn) entries)
    {past : List IssuedEntry} (hpast : ∀ e ∈ past, e ∈ entries) (hkey : Rows.HasKey (·.cn) past) :
    Tracked imp certs past (syncTurns env imp certs past) := by
  induction past using List.reverseRecOn with
  | nil => exact ⟨huniq, fun u hu => Or.inl hu, fun d hd => Or.inl hd, fun _ _ => rfl⟩
  | append_singleton past e ih =>
    rw [Rows.HasKey, List.map_append, List.nodup_append] at hkey
    have htracked := ih (fun e' he' => hpast e' (List.mem_append_left _ he')) hkey.1
    have hnew : ∀ e' ∈ past, e'.cn ≠ e.cn := fun e' he' =>
      hkey.2.2 _ (List.mem_map_of_mem he') _ (List.mem_map_of_mem (List.mem_singleton_self e))
    rw [syncTurns_append]
    exact htracked.turn henv hstable hentries
      (fun e' he' => hpast e' (List.mem_append_left _ he')) hnew
      (hpast e (List.mem_append_right _ (List.mem_singleton_self e)))
      (turn_syncTurn imp henv htracked.uniq e)

/-! ### What the turns leave -/

/-- No turn changes the table, whichever row is found. -/
structure Quiet (imp : IssuedImport) (entries : List IssuedEntry)
    (certs : List Certificate) : Prop where
  foreign : ∀ e ∈ entries, e.serialHex = "" →
    (∃ c ∈ certs, Candidate imp e c) ∧ ∀ c ∈ certs, Candidate imp e c → ¬Own imp c
  moves : ∀ e ∈ entries, e.serialHex ≠ "" → ∀ c, ¬Moves imp certs e c
  creates : ∀ e ∈ entries, e.serialHex ≠ "" → ¬Creates imp certs e

/-- **No turn of a quiet table changes it.** -/
theorem Quiet.syncTurns (henv : env.Answers now) (huniq : UniqueCerts certs)
    (h : Quiet imp entries certs) {es : List IssuedEntry}
    (hes : ∀ e ∈ es, e ∈ entries) : syncTurns env imp certs es = certs := by
  refine syncTurns_eq_self fun e he => ?_
  have hturn := turn_syncTurn imp henv huniq e
  generalize syncTurn env imp certs e = table' at hturn ⊢
  by_cases hserial : e.serialHex = ""
  · obtain ⟨⟨c₀, hc₀, hcand₀⟩, hforeign⟩ := h.foreign e (hes e he) hserial
    cases hturn with
    | foreign => rfl
    | settled => rfl
    | refused => rfl
    | moved hfind hown =>
      obtain ⟨hc, hcand⟩ := mem_of_findCert hfind
      exact absurd hown (hforeign _ hc hcand)
    | taken => rfl
    | created hfind => exact absurd hcand₀ (findCert_eq_none.1 hfind c₀ hc₀)
  · have hs := IssuedEntry.serial_of_ne env hserial certs
    cases hturn with
    | foreign => rfl
    | settled => rfl
    | refused => rfl
    | moved hfind hown hnot hfree =>
      obtain ⟨hc, hcand⟩ := mem_of_findCert hfind
      rw [hs] at hnot hfree
      exact absurd ⟨hc, hcand, hown, hnot, hfree⟩ (h.moves e (hes e he) hserial _)
    | taken => rfl
    | created hfind hfree =>
      rw [hs] at hfree
      exact absurd ⟨findCert_eq_none.1 hfind, hfree⟩ (h.creates e (hes e he) hserial)

section Split

variable {pre post : List IssuedEntry} (hkey : Rows.HasKey (·.cn) (pre ++ e :: post))

variable (henv : env.Answers now) (huniq : UniqueCerts certs)

include henv huniq hkey

/-- What an entry says stays. -/
theorem told_stays {e' : IssuedEntry} (he' : e' ∈ pre) {u : Certificate}
    (hu : u ∈ syncTurns env imp certs pre) (htold : Told imp e' u) :
    u ∈ syncTurns env imp certs (pre ++ e :: post) := by
  have huniq' := uniqueCerts_syncTurns imp henv huniq pre
  rw [syncTurns_append]
  refine (mem_syncTurns_of_ne henv huniq' fun e'' he'' => ?_).2 hu
  rw [htold.candidate.1]
  exact (ne_of_split hkey).2.2 e' he' e'' he''

variable (hstable : Stable imp entries certs) (hentries : Rows.HasKey (·.cn) entries)
  (hmem : ∀ e' ∈ pre ++ e :: post, e' ∈ entries)

include hstable hentries hmem

/-- The table at the turn of an entry. -/
theorem tracked_before : Tracked imp certs pre (syncTurns env imp certs pre) := by
  rw [Rows.HasKey, List.map_append, List.nodup_append] at hkey
  exact tracked_syncTurns henv huniq hstable hentries
    (fun e' he' => hmem e' (List.mem_append_left _ he')) hkey.1

/-- **After the turn of an entry that must write**, some row says what an entry of the serial number
says. -/
theorem exists_told_of_forced (hserial : e.serialHex ≠ "") (hforced : Forced imp certs e) :
    ∃ u ∈ syncTurns env imp certs (pre ++ e :: post), u.serialNumber = e.serialHex ∧
      ∃ e' ∈ pre ++ e :: post, Told imp e' u := by
  have htracked := tracked_before hkey henv huniq hstable hentries hmem
  have hnew := (ne_of_split hkey).1
  have hs := IssuedEntry.serial_of_ne env hserial (syncTurns env imp certs pre)
  have hself : e ∈ pre ++ e :: post := List.mem_append_right _ List.mem_cons_self
  have hfound : ∀ c,
      findCertByCNAndNode env.choice (syncTurns env imp certs pre) e.cn imp.agentNodeID =
      some c → Moves imp certs e c := by
    intro c hfind
    obtain ⟨hc, hcand⟩ := mem_of_findCert hfind
    have hc' := (htracked.mem_iff hnew hcand).1 hc
    rcases hforced with hcreates | ⟨-, hall⟩
    · exact absurd hcand (hcreates.1 c hc')
    · exact hall c hc' hcand
  -- a row that has the serial number now, and that no row had before
  have hother : ∀ d ∈ syncTurns env imp certs pre, d.serialNumber = e.serialHex → d ∉ certs →
      ∃ u ∈ syncTurns env imp certs (pre ++ e :: post), u.serialNumber = e.serialHex ∧
        ∃ e' ∈ pre ++ e :: post, Told imp e' u := by
    intro d hd hholds hnot
    obtain ⟨e', he', -, htold⟩ := (htracked.rows d hd).resolve_left hnot
    exact ⟨d, told_stays hkey henv huniq he' hd htold, hholds, e',
      List.mem_append_left _ he', htold⟩
  have hturn := turn_syncTurn imp henv htracked.uniq e
  have hstays := fun u => @mem_of_mem_turn env now certs e imp henv huniq pre post hkey u
  generalize syncTurn env imp (syncTurns env imp certs pre) e = table' at hturn hstays
  cases hturn with
  | foreign hfind hnot => exact absurd (hfound _ hfind).2.2.1 hnot
  | settled hfind _ hset =>
    rw [hs] at hset
    exact absurd hset (hfound _ hfind).2.2.2.1
  | refused hfind _ _ hd hholds hne =>
    rw [hs] at hholds
    exact hother _ hd hholds fun hd' => hne ((hfound _ hfind).2.2.2.2 _ hd' hholds)
  | moved hfind =>
    obtain ⟨hc, hcand⟩ := mem_of_findCert hfind
    rw [hs] at hstays
    have htold := told_refresh imp hcand
    exact ⟨_, hstays _ ((mem_update_iff htracked.uniq.1 hc).2 (Or.inr rfl)) htold.candidate.1,
      htold.serial, e, hself, htold⟩
  | @taken d hfind hd hholds =>
    rw [hs] at hholds
    refine hother d hd hholds fun hd' => ?_
    rcases hforced with hcreates | ⟨⟨c, hc, hcand⟩, -⟩
    · exact hcreates.2 d hd' hholds
    · exact findCert_eq_none.1 hfind c ((htracked.mem_iff hnew hcand).2 hc) hcand
  | created =>
    rw [hs] at hstays
    have htold : Told imp e (importedRow env imp (syncTurns env imp certs pre) e.cn e.serialHex
      e.expiresAt) := ⟨⟨rfl, rfl⟩, rfl, rfl, rfl⟩
    exact ⟨_, hstays _ (List.mem_append_right _ (List.mem_singleton_self _)) rfl, rfl,
      e, hself, htold⟩

end Split

section Stable

variable (henv : env.Answers now) (huniq : UniqueCerts certs) (hstable : Stable imp entries certs)
  (hentries : Rows.HasKey (·.cn) entries) {es : List IssuedEntry} (hperm : es.Perm entries)

include hentries hperm in
theorem exists_split (he : e ∈ entries) :
    ∃ pre post, es = pre ++ e :: post ∧ Rows.HasKey (·.cn) (pre ++ e :: post) ∧
      ∀ e' ∈ pre ++ e :: post, e' ∈ entries := by
  obtain ⟨pre, post, rfl⟩ := List.append_of_mem (hperm.mem_iff.2 he)
  exact ⟨pre, post, rfl, (hperm.map _).nodup_iff.2 hentries, fun e' he' => hperm.mem_iff.1 he'⟩

include henv huniq hstable hentries hperm

theorem tracked_perm : Tracked imp certs es (syncTurns env imp certs es) :=
  tracked_syncTurns henv huniq hstable hentries (fun _ he => hperm.mem_iff.1 he)
    ((hperm.map _).nodup_iff.2 hentries)

/-- The rows of a name without a serial number are as before. -/
theorem rowsOf_syncTurns_of_blank (he : e ∈ entries) (hserial : e.serialHex = "") :
    rowsOf e.cn (syncTurns env imp certs es) = rowsOf e.cn certs := by
  obtain ⟨pre, post, rfl, hkey, hmem⟩ := exists_split hentries hperm he
  have htracked := tracked_before hkey henv huniq hstable hentries hmem
  obtain ⟨hpre, hpost, -⟩ := ne_of_split hkey
  have hsame : syncTurn env imp (syncTurns env imp certs pre) e = syncTurns env imp certs pre :=
    htracked.foreign_turn hstable hpre he hserial (turn_syncTurn imp henv htracked.uniq e)
  rw [syncTurns_append, syncTurns_cons, hsame, rowsOf_syncTurns henv htracked.uniq hpost]
  exact htracked.frame e.cn hpre

/-- No row is updated again. -/
theorem not_moves_syncTurns (he : e ∈ entries) (hserial : e.serialHex ≠ "") (c : Certificate) :
    ¬Moves imp (syncTurns env imp certs es) e c := by
  rintro ⟨hc, hcand, hown, hnot, hholders⟩
  have htracked := tracked_perm henv huniq hstable hentries hperm
  -- a row that an entry told is settled for it
  have hself : ∀ e' ∈ es, ¬Told imp e' c := by
    intro e' he' htold
    have heq := eq_of_cn hentries he (hperm.mem_iff.1 he') (htold.candidate.1.symm.trans hcand.1)
    rw [heq] at htold
    exact hnot htold.settled
  have hc' : c ∈ certs := (htracked.rows c hc).resolve_right fun ⟨e', he', _,
    htold⟩ => hself e' he' htold
  have hbefore := htracked.moves hstable hentries (fun _ he => hperm.mem_iff.1 he) he hserial hc'
    ⟨hc, hcand, hown, hnot, hholders⟩
  obtain ⟨e', he', hsame, hforced⟩ := hstable.taken e he hserial c hbefore
  obtain ⟨pre, post, rfl, hkey, hmem⟩ := exists_split hentries hperm he'
  obtain ⟨u, hu, hholds, e'', he'', htold⟩ :=
    exists_told_of_forced hkey henv huniq hstable hentries hmem
    (hsame ▸ hserial) hforced
  rw [hholders u hu (hholds.trans hsame)] at htold
  exact hself e'' he'' htold

/-- No row is inserted later. -/
theorem not_creates_syncTurns (he : e ∈ entries) (hserial : e.serialHex ≠ "") :
    ¬Creates imp (syncTurns env imp certs es) e := by
  rintro ⟨hnone, hfree⟩
  have htracked := tracked_perm henv huniq hstable hentries hperm
  obtain ⟨pre, post, rfl, hkey, hmem⟩ := exists_split hentries hperm he
  have hbefore := tracked_before hkey henv huniq hstable hentries hmem
  have hs := IssuedEntry.serial_of_ne env hserial (syncTurns env imp certs pre)
  have hnone' : ∀ c ∈ syncTurns env imp certs pre, ¬Candidate imp e c := by
    intro c hc hcand
    obtain ⟨c', hc', -, hcn, hnode, -⟩ := stays_syncTurns imp henv hbefore.uniq (e :: post) hc
    rw [← syncTurns_append] at hc'
    exact hnone c' hc' ⟨hcn.trans hcand.1, hnode.trans hcand.2⟩
  have hturn := turn_syncTurn imp henv hbefore.uniq e
  have hstays := fun u => @mem_of_mem_turn env now certs e imp henv huniq pre post hkey u
  generalize syncTurn env imp (syncTurns env imp certs pre) e = table' at hturn hstays
  cases hturn with
  | foreign hfind => exact hnone' _ (mem_of_findCert hfind).1 (mem_of_findCert hfind).2
  | settled hfind => exact hnone' _ (mem_of_findCert hfind).1 (mem_of_findCert hfind).2
  | refused hfind => exact hnone' _ (mem_of_findCert hfind).1 (mem_of_findCert hfind).2
  | moved hfind => exact hnone' _ (mem_of_findCert hfind).1 (mem_of_findCert hfind).2
  | @taken d _ hd hholds =>
    rw [hs] at hholds
    rcases hbefore.rows d hd with hd' | ⟨e', he', -, htold⟩
    · have hwants : Wants imp certs e := by
        refine Or.inl fun c hc hcand => ?_
        obtain ⟨c', hc', -, hcn, hnode, -⟩ :=
          stays_syncTurns imp henv huniq (pre ++ e :: post) hc
        exact hnone c' hc' ⟨hcn.trans hcand.1, hnode.trans hcand.2⟩
      obtain ⟨u, hu, huserial, -⟩ :=
        htracked.exists_holder hstable hmem he hserial hwants hd' hholds
      exact hfree u hu huserial
    · exact hfree d (told_stays hkey henv huniq he' hd htold) hholds
  | created =>
    exact hnone _ (hstays _ (List.mem_append_right _ (List.mem_singleton_self _)) rfl) ⟨rfl, rfl⟩

/-- **What an import of a stable text leaves is quiet.** -/
theorem Stable.quiet : Quiet imp entries (syncTurns env imp certs es) where
  foreign e he hserial := by
    have hrows := rowsOf_syncTurns_of_blank henv huniq hstable hentries hperm he hserial
    have hmem : ∀ c, Candidate imp e c → (c ∈ syncTurns env imp certs es ↔ c ∈ certs) :=
      fun c hcand => mem_iff_of_rowsOf hrows hcand.1
    obtain ⟨⟨c, hc, hcand⟩, hforeign⟩ := hstable.foreign e he hserial
    exact ⟨⟨c, (hmem c hcand).2 hc, hcand⟩, fun d hd hcand' =>
      hforeign d ((hmem d hcand').1 hd) hcand'⟩
  moves e he hserial := not_moves_syncTurns henv huniq hstable hentries hperm he hserial
  creates e he hserial := not_creates_syncTurns henv huniq hstable hentries hperm he hserial

end Stable

end OpenvpnControl.Cert
