import OpenvpnControl.Cert.IssuedRuns

/-!
# The order of the common names

`SyncIssuedInventory` ranges over a map, so the common names of a text come in any order. Whether a
turn writes depends on who has the serial number then. This file determines the tables and texts of
which every order leaves the same rows, and shows that the counters add up.

## Main definitions

* `foundRow`, `Tries`, `Free`, `Writes`: what the turn of an entry does if it comes first.
* `Compatible`: the tables and texts of which each turn does the same in every order.
* `Shown`: a row without what is generated.
* `Orderly`: every order leaves the same rows, each common name is counted, and the lines of a name
  give its entry.

## Main results

* `traced_syncTurns`: the rows that turns leave, from what each does if it comes first.
* `orderly_iff_compatible`: the result is orderly exactly if table and text are compatible.
-/

namespace OpenvpnControl.Cert

open Panel (Certificate UniqueCerts storeCerts)

/-- The row that the turn of an entry looks at. -/
def foundRow (imp : IssuedImport) (choice : Rows.Choice Certificate) (certs : List Certificate)
    (e : IssuedEntry) : Option Certificate := findCertByCNAndNode choice certs e.cn imp.agentNodeID

/-- A turn tries to write: there is no row, or one of the root that says something else. -/
def Tries (imp : IssuedImport) (choice : Rows.Choice Certificate) (certs : List Certificate)
    (e : IssuedEntry) : Prop :=
  ∀ c ∈ foundRow imp choice certs e, Own imp c ∧ (e.serialHex = "" ∨ ¬Settled e e.serialHex c)

/-- No other row has the serial number of an entry. -/
def Free (imp : IssuedImport) (choice : Rows.Choice Certificate) (certs : List Certificate)
    (e : IssuedEntry) : Prop :=
  e.serialHex ≠ "" → ∀ d ∈ certs, d.serialNumber = e.serialHex →
    foundRow imp choice certs e = some d

/-- A turn that comes first writes. -/
def Writes (imp : IssuedImport) (choice : Rows.Choice Certificate) (certs : List Certificate)
    (e : IssuedEntry) : Prop := Tries imp choice certs e ∧ Free imp choice certs e

instance (imp : IssuedImport) (choice : Rows.Choice Certificate) (certs : List Certificate)
    (e : IssuedEntry) : Decidable (Tries imp choice certs e) :=
  inferInstanceAs (Decidable (∀ c ∈ foundRow imp choice certs e, _))

instance (imp : IssuedImport) (choice : Rows.Choice Certificate) (certs : List Certificate)
    (e : IssuedEntry) : Decidable (Free imp choice certs e) := inferInstanceAs (Decidable (_ → _))

instance (imp : IssuedImport) (choice : Rows.Choice Certificate) (certs : List Certificate)
    (e : IssuedEntry) : Decidable (Writes imp choice certs e) := inferInstanceAs (Decidable (_ ∧ _))

/-- No two entries try to write one new serial number, and none tries to write a serial number that
another entry takes from its row. -/
structure Compatible (imp : IssuedImport) (choice : Rows.Choice Certificate)
    (entries : List IssuedEntry) (certs : List Certificate) : Prop where
  shared : ∀ e ∈ entries, ∀ e' ∈ entries, Tries imp choice certs e → Tries imp choice certs e' →
    e.serialHex ≠ "" → e'.serialHex = e.serialHex →
    (∀ d ∈ certs, d.serialNumber ≠ e.serialHex) → e' = e
  freed : ∀ e ∈ entries, Tries imp choice certs e → e.serialHex ≠ "" →
    ∀ d ∈ certs, d.serialNumber = e.serialHex → foundRow imp choice certs e ≠ some d →
    ∀ e' ∈ entries, foundRow imp choice certs e' = some d → Writes imp choice certs e' →
    e'.serialHex = e.serialHex

/-- A clock and a database that answer, with a choice of rows. Generated serial numbers differ from
those of the text, and from those of the table in normal form. -/
structure SyncEnv.Draws (env : SyncEnv) (now : ℤ) (choice : Rows.Choice Certificate)
    (entries : List IssuedEntry) (certs : List Certificate) : Prop where
  answers : env.Answers now
  choice : env.choice = choice
  text : ∀ texts, env.ksuid texts ∉ entries.map (·.serialHex)
  table : ∀ texts, normalizeSerialHex (env.ksuid texts) ∉
    (certs.map (·.serialNumber)).map normalizeSerialHex

/-- A row, but for an id and a serial number that are generated. -/
structure Shown where
  id : Option String
  serialNumber : Option String
  rest : Certificate

/-- What a row shows, if ids and serial numbers that are not of the table or the text are
generated. -/
def shown (entries : List IssuedEntry) (certs : List Certificate) (c : Certificate) : Shown where
  id := if c.id ∈ certs.map (·.id) then some c.id else none
  serialNumber :=
    if c.serialNumber ∈ certs.map (·.serialNumber) ++ entries.map (·.serialHex) then
      some c.serialNumber
    else none
  rest := { c with id := "", serialNumber := "" }

/-- The result of an import does not depend on the order of the common names; each common name that
a line names is counted once; and the last line of a name that has a serial number gives its
entry. -/
structure Orderly (imp : IssuedImport) (now : ℤ) (choice : Rows.Choice Certificate) (text : String)
    (certs : List Certificate) : Prop where
  rows : ∀ env env' : SyncEnv,
    env.Draws now choice (issuedEntries (now + defaultImportedExpiry) text) certs →
    env'.Draws now choice (issuedEntries (now + defaultImportedExpiry) text) certs →
    ((syncIssuedInventory env imp certs text).1.1.map
      (shown (issuedEntries (now + defaultImportedExpiry) text) certs)).Perm
      ((syncIssuedInventory env' imp certs text).1.1.map
        (shown (issuedEntries (now + defaultImportedExpiry) text) certs))
  total : ∀ env : SyncEnv,
    env.Draws now choice (issuedEntries (now + defaultImportedExpiry) text) certs →
    (syncIssuedInventory env imp certs text).1.2.total = ((accepted text).map (·.1)).dedup.length
  lines : ∀ cn, Rows.byKey (·.cn) cn (issuedEntries (now + defaultImportedExpiry) text) =
    entryOf (now + defaultImportedExpiry) cn ((accepted text).filter (·.1 = cn))

variable {env : SyncEnv} {imp : IssuedImport} {now : ℤ} {choice : Rows.Choice Certificate}
  {text : String} {entries : List IssuedEntry} {certs table : List Certificate} {e : IssuedEntry}
  {c : Certificate}

/-! ### What a turn shows -/

/-- The serial number that an entry shows. -/
def IssuedEntry.shownSerial (e : IssuedEntry) : Option String :=
  if e.serialHex = "" then none else some e.serialHex

/-- An update of what a row shows. -/
def Shown.refresh (imp : IssuedImport) (e : IssuedEntry) (s : Shown) : Shown :=
  ⟨s.id, e.shownSerial, Cert.refresh imp e "" s.rest⟩

/-- What an inserted row shows. -/
def newShown (imp : IssuedImport) (now : ℤ) (e : IssuedEntry) : Shown :=
  ⟨none, e.shownSerial, importedRow (.quiet now fun _ => "") imp [] e.cn "" e.expiresAt⟩

/-- What the turn of an entry does to what is shown, in every order. -/
def shownTurn (imp : IssuedImport) (now : ℤ) (choice : Rows.Choice Certificate)
    (certs : List Certificate) (m : Multiset Shown) (e : IssuedEntry) : Multiset Shown :=
  if Writes imp choice certs e then
    match foundRow imp choice certs e with
    | some c => m.map fun s => if s.id = some c.id then s.refresh imp e else s
    | none => newShown imp now e ::ₘ m
  else m

theorem mem_of_foundRow (h : foundRow imp choice certs e = some c) :
    c ∈ certs ∧ Candidate imp e c :=
  mem_of_findCert h

theorem newShown_id_ne (e : IssuedEntry) (id : String) : (newShown imp now e).id ≠ some id :=
  (Option.some_ne_none id).symm

/-- **The turns of two names commute**, on what is shown. -/
theorem shownTurn_comm (huniq : UniqueCerts certs) {e' : IssuedEntry} (hcn : e'.cn ≠ e.cn)
    (m : Multiset Shown) :
    shownTurn imp now choice certs (shownTurn imp now choice certs m e) e' =
      shownTurn imp now choice certs (shownTurn imp now choice certs m e') e := by
  simp only [shownTurn]
  by_cases hw : Writes imp choice certs e
  · by_cases hw' : Writes imp choice certs e'
    · rw [if_pos hw, if_pos hw', if_pos hw, if_pos hw']
      cases hfound : foundRow imp choice certs e with
      | none =>
        cases hfound' : foundRow imp choice certs e' with
        | none => exact Multiset.cons_swap _ _ _
        | some c' =>
          dsimp only
          rw [Multiset.map_cons, if_neg (newShown_id_ne _ _)]
      | some c =>
        cases hfound' : foundRow imp choice certs e' with
        | none =>
          dsimp only
          rw [Multiset.map_cons, if_neg (newShown_id_ne _ _)]
        | some c' =>
          -- the rows are of different names
          obtain ⟨hc, hcand⟩ := mem_of_foundRow hfound
          obtain ⟨hc', hcand'⟩ := mem_of_foundRow hfound'
          have hne : c.id ≠ c'.id := fun hid => hcn
            (hcand'.1.symm.trans ((congrArg _ (huniq.1.eq_of_key hc hc' hid).symm).trans hcand.1))
          dsimp only
          rw [Multiset.map_map, Multiset.map_map]
          refine Multiset.map_congr rfl fun s _ => ?_
          dsimp only [Function.comp_apply]
          by_cases hs : s.id = some c.id
          · have hs' : s.id ≠ some c'.id := fun h => hne (Option.some.inj (hs.symm.trans h))
            have hs'' : (s.refresh imp e).id ≠ some c'.id := hs'
            rw [if_pos hs, if_neg hs'', if_neg hs', if_pos hs]
          · by_cases hs' : s.id = some c'.id
            · have hs'' : (s.refresh imp e').id ≠ some c.id := hs
              rw [if_neg hs, if_pos hs', if_neg hs'']
            · rw [if_neg hs, if_neg hs', if_neg hs]
    · rw [if_neg hw', if_neg hw']
  · rw [if_neg hw, if_neg hw]

/-- What is shown in the end does not depend on the order. -/
theorem foldl_shownTurn_perm (huniq : UniqueCerts certs) {es es' : List IssuedEntry}
    (hperm : es.Perm es') (hkey : Rows.HasKey (·.cn) es) (m : Multiset Shown) :
    es.foldl (shownTurn imp now choice certs) m = es'.foldl (shownTurn imp now choice certs) m := by
  refine hperm.foldl_eq' (fun e he e' he' m => ?_) m
  by_cases hcn : e'.cn = e.cn
  · rw [hkey.eq_of_key he' he hcn]
  · exact shownTurn_comm huniq hcn m

/-! ### The rows after some turns -/

/-- The table after the turns of some entries: each of them has written what it writes if it comes
first. -/
structure Traced (imp : IssuedImport) (now : ℤ) (choice : Rows.Choice Certificate)
    (entries : List IssuedEntry) (certs : List Certificate) (past : List IssuedEntry)
    (table : List Certificate) : Prop where
  uniq : UniqueCerts table
  kept : ∀ d ∈ certs, d ∈ table ∨ ∃ e ∈ past, Writes imp choice certs e ∧
    foundRow imp choice certs e = some d ∧
    ∃ u ∈ table, u.id = d.id ∧ (e.serialHex ≠ "" → u.serialNumber = e.serialHex)
  rows : ∀ u ∈ table, u ∈ certs ∨ ∃ e ∈ past, Writes imp choice certs e ∧
    (u.serialNumber = e.serialHex ∨ u.serialNumber ∉ entries.map (·.serialHex))
  frame : ∀ cn, (∀ e ∈ past, e.cn ≠ cn) → rowsOf cn table = rowsOf cn certs
  shown : (table.map (shown entries certs) : Multiset Shown) =
    past.foldl (shownTurn imp now choice certs) (certs.map (Cert.shown entries certs))

/-- A generated serial number is not one of the table. -/
theorem SyncEnv.Draws.ksuid_ne (hdraws : env.Draws now choice entries certs) (hc : c ∈ certs)
    (texts : List String) : env.ksuid texts ≠ c.serialNumber := by
  intro heq
  refine hdraws.table texts ?_
  rw [heq]
  exact List.mem_map_of_mem (List.mem_map_of_mem hc)

/-- What the serial number of an entry shows. -/
theorem SyncEnv.Draws.shown_serial (hdraws : env.Draws now choice entries certs)
    (table : List Certificate) (he : e ∈ entries) :
    (if e.serial env table ∈ certs.map (·.serialNumber) ++ entries.map (·.serialHex)
      then some (e.serial env table) else none) = e.shownSerial := by
  rw [IssuedEntry.shownSerial, IssuedEntry.serial]
  by_cases hserial : e.serialHex = ""
  · rw [if_pos hserial, if_pos hserial, if_neg]
    rw [List.mem_append, not_or]
    refine ⟨fun hmem => ?_, hdraws.text _⟩
    obtain ⟨c, hc, hsame⟩ := List.mem_map.1 hmem
    exact hdraws.ksuid_ne hc _ hsame.symm
  · rw [if_neg hserial, if_neg hserial, if_pos (List.mem_append_right _ (List.mem_map_of_mem he))]

/-- What an updated row shows. -/
theorem shown_refresh (hdraws : env.Draws now choice entries certs) (he : e ∈ entries)
    (c : Certificate) :
    shown entries certs (refresh imp e (e.serial env table) c) =
    (shown entries certs c).refresh imp e := by
  have hserial := hdraws.shown_serial table he
  have hrest : { refresh imp e (e.serial env table) c with id := "", serialNumber := "" } =
      refresh imp e "" { c with id := "", serialNumber := "" } := by
    rw [refresh, refresh]
    by_cases hrev : c.revokedAt.isSome = true
    · rw [if_pos hrev, if_pos hrev]
      rfl
    · rw [if_neg hrev, if_neg hrev]
      rfl
  rw [shown, hrest, refresh_id, refresh_serialNumber, hserial]
  rfl

/-- The row of an entry is as before, until its turn. -/
theorem Traced.found {past : List IssuedEntry} (h : Traced imp now choice entries certs past table)
    (hnew : ∀ e' ∈ past, e'.cn ≠ e.cn) :
    findCertByCNAndNode choice table e.cn imp.agentNodeID = foundRow imp choice certs e := by
  rw [foundRow, findCert_eq_select_rowsOf, h.frame e.cn hnew, ← findCert_eq_select_rowsOf]

/-- No other row has the serial number of an entry at its turn exactly if none has it before. -/
theorem Traced.free_iff (huniq : UniqueCerts certs) (hcompat : Compatible imp choice entries certs)
    {past : List IssuedEntry}
    (h : Traced imp now choice entries certs past table) (hpast : ∀ e ∈ past, e ∈ entries)
    (hnew : ∀ e' ∈ past, e'.cn ≠ e.cn) (he : e ∈ entries) (hserial : e.serialHex ≠ "")
    (htries : Tries imp choice certs e) :
    (∀ d ∈ table, d.serialNumber = e.serialHex → foundRow imp choice certs e = some d) ↔
      Free imp choice certs e := by
  constructor
  · intro hfree _ d hd hholds
    by_contra hother
    rcases h.kept d hd with hd' | ⟨e', he', hwrites, hfound, u, hu, hid, hu'⟩
    · exact hother (hfree d hd' hholds)
    · -- the row has been updated, and must have kept its serial number
      have hsame := hcompat.freed e he htries hserial d hd hholds hother e'
        (hpast e' he') hfound hwrites
      have hfound' := hfree u hu ((hu' (hsame ▸ hserial)).trans hsame)
      rw [huniq.1.eq_of_key (mem_of_foundRow hfound').1 hd hid] at hfound'
      exact hother hfound'
  · intro hfree d hd hholds
    rcases h.rows d hd with hd' | ⟨e', he', hwrites, hd'⟩
    · exact hfree hserial d hd' hholds
    · have hsame : e'.serialHex = e.serialHex := by
        rcases hd' with hd' | hd'
        · exact hd'.symm.trans hholds
        · exact absurd (List.mem_map_of_mem he) (hholds ▸ hd')
      by_cases hnone : ∀ d ∈ certs, d.serialNumber ≠ e.serialHex
      · have heq := hcompat.shared e he e' (hpast e' he') htries hwrites.1 hserial hsame hnone
        exact absurd (congrArg _ heq) (hnew e' he')
      · push Not at hnone
        obtain ⟨c, hc, hcserial⟩ := hnone
        have hfound := hfree hserial c hc hcserial
        have hc' : c ∈ table :=
          (mem_iff_of_rowsOf (h.frame e.cn hnew) (mem_of_foundRow hfound).2.1).2 hc
        rw [h.uniq.2.eq_of_key hd hc' (hholds.trans hcserial.symm)]
        exact hfound

/-- A turn that writes nothing. -/
theorem Traced.same {past : List IssuedEntry} (h : Traced imp now choice entries certs past table)
    (hwrites : ¬Writes imp choice certs e) :
    Traced imp now choice entries certs (past ++ [e]) table where
  uniq := h.uniq
  kept d hd := (h.kept d hd).imp_right fun ⟨e', he', hold⟩ => ⟨e', List.mem_append_left _ he', hold⟩
  rows u hu := (h.rows u hu).imp_right fun ⟨e', he', hold⟩ => ⟨e', List.mem_append_left _ he', hold⟩
  frame cn hcn := h.frame cn fun e' he' => hcn e' (List.mem_append_left _ he')
  shown := by
    rw [List.foldl_append, List.foldl_cons, List.foldl_nil, shownTurn, if_neg hwrites]
    exact h.shown

/-- The serial number that a turn writes. -/
theorem SyncEnv.Draws.serial_or (hdraws : env.Draws now choice entries certs)
    (table : List Certificate) (e : IssuedEntry) :
    e.serial env table = e.serialHex ∨ e.serial env table ∉ entries.map (·.serialHex) := by
  rw [IssuedEntry.serial]
  split_ifs
  · exact Or.inr (hdraws.text _)
  · exact Or.inl rfl

/-- A turn that updates a row. -/
theorem Traced.moved (hdraws : env.Draws now choice entries certs) (huniq : UniqueCerts certs)
    {past : List IssuedEntry} (h : Traced imp now choice entries certs past table)
    (he : e ∈ entries) (hwrites : Writes imp choice certs e)
    (hfound : foundRow imp choice certs e = some c) (hc : c ∈ table) (hturn : Turn env imp e table
      (Rows.updateWhere (fun d => d.id = c.id) (refresh imp e (e.serial env table)) table)) :
    Traced imp now choice entries certs (past ++ [e])
      (Rows.updateWhere (fun d => d.id = c.id) (refresh imp e (e.serial env table)) table) := by
  have hmem :=
    fun d => mem_update_iff (d := d) (f := refresh imp e (e.serial env table)) h.uniq.1 hc
  have hself : e ∈ past ++ [e] := List.mem_append_right _ (List.mem_singleton_self e)
  have hc' := (mem_of_foundRow hfound).1
  refine ⟨hturn.uniqueCerts hdraws.answers h.uniq, fun d hd => ?_, fun u hu =>
    ?_, fun cn hcn => ?_, ?_⟩
  · by_cases hdc : d = c
    · subst hdc
      refine Or.inr ⟨e, hself, hwrites, hfound, _, (hmem _).2 (Or.inr rfl),
        refresh_id _ _, fun hserial => ?_⟩
      rw [refresh_serialNumber, IssuedEntry.serial_of_ne _ hserial]
    · rcases h.kept d hd with hd' | ⟨e', he', hwrites', hfound', u, hu, hid, hu'⟩
      · exact Or.inl ((hmem d).2 (Or.inl ⟨hd', hdc⟩))
      · -- the row of another name stays
        have hne : u ≠ c :=
          fun heq => hdc (huniq.1.eq_of_key hd hc' (hid.symm.trans (congrArg _ heq)))
        exact Or.inr ⟨e', List.mem_append_left _ he', hwrites', hfound', u,
          (hmem u).2 (Or.inl ⟨hu, hne⟩), hid, hu'⟩
  · rcases (hmem u).1 hu with ⟨hu, -⟩ | rfl
    · exact (h.rows u hu).imp_right fun ⟨e', he', hold⟩ => ⟨e', List.mem_append_left _ he', hold⟩
    · rw [refresh_serialNumber]
      exact Or.inr ⟨e, hself, hwrites, hdraws.serial_or table e⟩
  · rw [hturn.rowsOf h.uniq (hcn e hself).symm]
    exact h.frame cn fun e' he' => hcn e' (List.mem_append_left _ he')
  · rw [List.foldl_append, List.foldl_cons, List.foldl_nil, ← h.shown,
      shownTurn, if_pos hwrites, hfound]
    dsimp only
    rw [Multiset.map_coe, List.map_map, Rows.updateWhere, List.map_map]
    refine congrArg _ (List.map_congr_left fun u _ => ?_)
    dsimp only [Function.comp_apply]
    have hid : (Cert.shown entries certs u).id = some c.id ↔ u.id = c.id := by
      rw [Cert.shown]
      dsimp only
      constructor
      · intro h
        split_ifs at h
        exact Option.some.inj h
      · intro h
        rw [h, if_pos (List.mem_map_of_mem (f := (·.id)) hc')]
    by_cases huc : u.id = c.id
    · rw [if_pos (decide_eq_true huc), if_pos (hid.2 huc), shown_refresh hdraws he]
    · rw [if_neg (by simpa using huc), if_neg (fun h => huc (hid.1 h))]

/-- A turn that inserts a row. -/
theorem Traced.created (hdraws : env.Draws now choice entries certs) {past : List IssuedEntry}
    (h : Traced imp now choice entries certs past table) (he : e ∈ entries)
    (hwrites : Writes imp choice certs e) (hfound : foundRow imp choice certs e = none)
    (hturn : Turn env imp e table
      (table ++ [importedRow env imp table e.cn (e.serial env table) e.expiresAt])) :
    Traced imp now choice entries certs (past ++ [e])
      (table ++ [importedRow env imp table e.cn (e.serial env table) e.expiresAt]) := by
  have hself : e ∈ past ++ [e] := List.mem_append_right _ (List.mem_singleton_self e)
  refine ⟨hturn.uniqueCerts hdraws.answers h.uniq, fun d hd => ?_, fun u hu =>
    ?_, fun cn hcn => ?_, ?_⟩
  · rcases h.kept d hd with hd' | ⟨e', he', hwrites', hfound', u, hu, hold⟩
    · exact Or.inl (List.mem_append_left _ hd')
    · exact Or.inr ⟨e', List.mem_append_left _ he', hwrites', hfound', u,
        List.mem_append_left _ hu, hold⟩
  · rcases List.mem_append.1 hu with hu | hu
    · exact (h.rows u hu).imp_right fun ⟨e', he', hold⟩ => ⟨e', List.mem_append_left _ he', hold⟩
    · rw [List.mem_singleton.1 hu]
      exact Or.inr ⟨e, hself, hwrites, hdraws.serial_or table e⟩
  · rw [hturn.rowsOf h.uniq (hcn e hself).symm]
    exact h.frame cn fun e' he' => hcn e' (List.mem_append_left _ he')
  · -- the ids of the table before are still there
    have hid : env.ksuid (table.map (·.id)) ∉ certs.map (·.id) := by
      intro hmem
      obtain ⟨d, hd, hsame⟩ := List.mem_map.1 hmem
      refine hdraws.answers.fresh (table.map (·.id)) ?_
      rcases h.kept d hd with hd' | ⟨-, -, -, -, u, hu, hid, -⟩
      · rw [← hsame]
        exact List.mem_map_of_mem hd'
      · rw [← hsame, ← hid]
        exact List.mem_map_of_mem hu
    have hrow : Cert.shown entries certs
        (importedRow env imp table e.cn (e.serial env table) e.expiresAt) = newShown imp now e := by
      have hserial := hdraws.shown_serial table he
      rw [Cert.shown, importedRow]
      dsimp only
      rw [if_neg hid, hserial, hdraws.answers.now]
      rfl
    rw [List.foldl_append, List.foldl_cons, List.foldl_nil, ← h.shown,
      shownTurn, if_pos hwrites, hfound]
    dsimp only
    rw [List.map_append, List.map_singleton, hrow, ← Multiset.coe_add, add_comm]
    rfl

section Compatible

variable (hdraws : env.Draws now choice entries certs) (huniq : UniqueCerts certs)
  (hcompat : Compatible imp choice entries certs)

include hdraws huniq hcompat

/-- **One turn.** -/
theorem Traced.turn {past : List IssuedEntry} (h : Traced imp now choice entries certs past table)
    (hpast : ∀ e ∈ past, e ∈ entries) (hnew : ∀ e' ∈ past, e'.cn ≠ e.cn) (he : e ∈ entries)
    {table' : List Certificate} (hturn : Turn env imp e table table') :
    Traced imp now choice entries certs (past ++ [e]) table' := by
  have hfound : findCertByCNAndNode env.choice table e.cn imp.agentNodeID =
      foundRow imp choice certs e := by
    rw [hdraws.choice]
    exact h.found hnew
  have hturn' := hturn
  -- a row that says the same has a serial number that the text gives
  have htries : ∀ c, foundRow imp choice certs e = some c → Own imp c →
      ¬Settled e (e.serial env table) c → Tries imp choice certs e := by
    intro c hc hown hnot d hd
    rw [← Option.some.inj (hc.symm.trans hd)]
    refine ⟨hown, or_iff_not_imp_left.2 fun hserial => ?_⟩
    rwa [IssuedEntry.serial_of_ne _ hserial] at hnot
  have hblocked : Tries imp choice certs e → (∃ d ∈ table, d.serialNumber = e.serial env table ∧
      foundRow imp choice certs e ≠ some d) → ¬Writes imp choice certs e := by
    rintro htries ⟨d, hd, hholds, hother⟩ hwrites
    by_cases hserial : e.serialHex = ""
    · exact serial_ne_of_blank hdraws.answers hserial hd hholds
    · rw [IssuedEntry.serial_of_ne _ hserial] at hholds
      exact hother ((h.free_iff huniq hcompat hpast hnew he hserial htries).2 hwrites.2 d hd hholds)
  have hopen : Tries imp choice certs e → (∀ d ∈ table, d.serialNumber = e.serial env table →
      foundRow imp choice certs e = some d) → Writes imp choice certs e := by
    intro htries hfree
    refine ⟨htries, fun hserial => ?_⟩
    rw [IssuedEntry.serial_of_ne _ hserial] at hfree
    exact (h.free_iff huniq hcompat hpast hnew he hserial htries).1 hfree hserial
  cases hturn with
  | @foreign c hfind hown =>
    rw [hfound] at hfind
    exact h.same fun hwrites => hown (hwrites.1 c hfind).1
  | @settled c hfind hown hset =>
    rw [hfound] at hfind
    refine h.same fun hwrites => ?_
    by_cases hserial : e.serialHex = ""
    · refine hdraws.table (table.map (·.serialNumber)) ?_
      have hsame := hset.2.1
      rw [IssuedEntry.serial, if_pos hserial] at hsame
      rw [← hsame]
      exact List.mem_map_of_mem (List.mem_map_of_mem (mem_of_foundRow hfind).1)
    · rw [IssuedEntry.serial_of_ne _ hserial] at hset
      exact ((hwrites.1 c hfind).2.resolve_left hserial) hset
  | @refused c d hfind hown hnot hd hholds hne =>
    rw [hfound] at hfind
    exact h.same (hblocked (htries c hfind hown hnot)
      ⟨d, hd, hholds, fun hsame => hne (Option.some.inj (hsame.symm.trans hfind))⟩)
  | @moved c hfind hown hnot hfree =>
    have hc := (mem_of_findCert hfind).1
    rw [hfound] at hfind
    exact h.moved hdraws huniq he
      (hopen (htries c hfind hown hnot) fun d hd hholds => by rw [hfind, hfree d hd hholds])
      hfind hc hturn'
  | @taken d hfind hd hholds =>
    rw [hfound] at hfind
    exact h.same (hblocked (fun c hc => by cases hfind.symm.trans hc)
      ⟨d, hd, hholds, fun hsame => by cases hfind.symm.trans hsame⟩)
  | created hfind hfree =>
    rw [hfound] at hfind
    exact h.created hdraws he (hopen (fun c hc => by cases hfind.symm.trans hc)
      fun d hd hholds => absurd hholds (hfree d hd)) hfind hturn'

/-- **Turns.** -/
theorem traced_syncTurns {past : List IssuedEntry} (hpast : ∀ e ∈ past, e ∈ entries)
    (hkey : Rows.HasKey (·.cn) past) :
    Traced imp now choice entries certs past (syncTurns env imp certs past) := by
  induction past using List.reverseRecOn with
  | nil => exact ⟨huniq, fun d hd => Or.inl hd, fun u hu => Or.inl hu, fun _ _ => rfl, rfl⟩
  | append_singleton past e ih =>
    rw [Rows.HasKey, List.map_append, List.nodup_append] at hkey
    have htraced := ih (fun e' he' => hpast e' (List.mem_append_left _ he')) hkey.1
    have hnew : ∀ e' ∈ past, e'.cn ≠ e.cn := fun e' he' =>
      hkey.2.2 _ (List.mem_map_of_mem he') _ (List.mem_map_of_mem (List.mem_singleton_self e))
    rw [syncTurns_append]
    exact htraced.turn hdraws huniq hcompat
      (fun e' he' => hpast e' (List.mem_append_left _ he')) hnew
      (hpast e (List.mem_append_right _ (List.mem_singleton_self e)))
      (turn_syncTurn imp hdraws.answers htraced.uniq e)

/-- **What turns show** does not depend on their order. -/
theorem shown_syncTurns {es : List IssuedEntry} (hperm : es.Perm entries)
    (hentries : Rows.HasKey (·.cn) entries) :
    ((syncTurns env imp certs es).map (shown entries certs) : Multiset Shown) =
      entries.foldl (shownTurn imp now choice certs) (certs.map (shown entries certs)) := by
  have hkey : Rows.HasKey (·.cn) es := (hperm.map _).nodup_iff.2 hentries
  rw [(traced_syncTurns hdraws huniq hcompat (fun e he => hperm.mem_iff.1 he) hkey).shown]
  exact foldl_shownTurn_perm huniq hperm hkey _

end Compatible

/-! ### Tables and texts that are not compatible -/

/-- Two entries may come first, in either order. -/
theorem exists_draws {e' : IssuedEntry} (now : ℤ) (choice : Rows.Choice Certificate) (text : String)
    (certs : List Certificate) (he : e ∈ issuedEntries (now + defaultImportedExpiry) text)
    (he' : e' ∈ issuedEntries (now + defaultImportedExpiry) text) (hne : e' ≠ e) :
    ∃ rest, ∀ es ∈ [e :: e' :: rest, e' :: e :: rest], ∃ env : SyncEnv,
      env.Draws now choice (issuedEntries (now + defaultImportedExpiry) text) certs ∧
        env.entries text = es := by
  generalize hlist : issuedEntries (now + defaultImportedExpiry) text = entries at he he'
  have hfirst : (e :: e' :: (entries.erase e).erase e').Perm entries :=
    ((List.perm_cons_erase ((List.mem_erase_of_ne hne).2 he')).symm.cons e).trans
      (List.perm_cons_erase he).symm
  refine ⟨(entries.erase e).erase e', fun es hes => ?_⟩
  have hperm : es.Perm entries := by
    rw [List.mem_cons, List.mem_singleton] at hes
    rcases hes with rfl | rfl
    · exact hfirst
    · exact (List.Perm.swap e e' _).trans hfirst
  obtain ⟨env, henv, hentries, hchoice, hfresh⟩ := SyncEnv.exists_order now choice
    (entries.map (·.serialHex) ++ certs.map (·.serialNumber)) (hlist.symm ▸ hperm)
  refine ⟨env, ⟨henv, hchoice, fun texts hmem => ?_, fun texts hmem => ?_⟩, hentries⟩
  · exact (hfresh texts).1 (List.mem_append_left _ hmem)
  · refine (hfresh texts).2 ?_
    rw [List.append_assoc, List.map_append, List.map_append]
    exact List.mem_append_right _ (List.mem_append_left _ hmem)

/-- The turn of an entry that tries to write a serial number that no other row has. -/
theorem exists_written (hdraws : env.Draws now choice entries certs) (huniq : UniqueCerts table)
    (htries : Tries imp choice table e) (hserial : e.serialHex ≠ "")
    (hfree : ∀ d ∈ table, d.serialNumber = e.serialHex → foundRow imp choice table e = some d) :
    ∃ u ∈ syncTurn env imp table e, u.serialNumber = e.serialHex ∧ u.commonName = e.cn := by
  have hs := IssuedEntry.serial_of_ne env hserial table
  have hturn := turn_syncTurn imp hdraws.answers huniq e
  generalize syncTurn env imp table e = table' at hturn ⊢
  rw [← hdraws.choice] at htries hfree
  cases hturn with
  | foreign hfind hown => exact absurd (htries _ hfind).1 hown
  | settled hfind _ hset =>
    rw [hs] at hset
    exact absurd hset ((htries _ hfind).2.resolve_left hserial)
  | refused hfind _ _ hd hholds hne =>
    exact absurd (Option.some.inj ((hfree _ hd (hholds.trans hs)).symm.trans hfind)) hne
  | moved hfind =>
    obtain ⟨hc, hcand⟩ := mem_of_findCert hfind
    exact ⟨_, (mem_update_iff huniq.1 hc).2 (Or.inr rfl), (refresh_serialNumber _ _).trans hs,
      (refresh_commonName _ _).trans hcand.1⟩
  | taken hfind hd hholds => cases hfind.symm.trans (hfree _ hd (hholds.trans hs))
  | created => exact ⟨_, List.mem_append_right _ (List.mem_singleton_self _), hs, rfl⟩

/-- The turn of an entry that comes first and updates a row. -/
theorem syncTurn_eq_of_writes (hdraws : env.Draws now choice entries certs)
    (huniq : UniqueCerts certs) (hwrites : Writes imp choice certs e)
    (hfound : foundRow imp choice certs e = some c) :
    syncTurn env imp certs e =
      Rows.updateWhere (fun d => d.id = c.id) (refresh imp e (e.serial env certs)) certs := by
  obtain ⟨hown, hnot⟩ := hwrites.1 c hfound
  have hfree := hwrites.2
  have hc := (mem_of_foundRow hfound).1
  have hturn := turn_syncTurn imp hdraws.answers huniq e
  generalize syncTurn env imp certs e = table' at hturn ⊢
  rw [← hdraws.choice] at hfound hfree
  have hsame : ∀ {c'}, findCertByCNAndNode env.choice certs e.cn imp.agentNodeID =
      some c' → c' = c :=
    fun hfind => Option.some.inj (hfind.symm.trans hfound)
  cases hturn with
  | foreign hfind hown' =>
    rw [hsame hfind] at hown'
    exact absurd hown hown'
  | settled hfind _ hset =>
    rw [hsame hfind] at hset
    by_cases hserial : e.serialHex = ""
    · refine absurd ?_ (hdraws.table (certs.map (·.serialNumber)))
      have hnormal := hset.2.1
      rw [IssuedEntry.serial, if_pos hserial] at hnormal
      rw [← hnormal]
      exact List.mem_map_of_mem (List.mem_map_of_mem hc)
    · rw [IssuedEntry.serial_of_ne _ hserial] at hset
      exact absurd hset (hnot.resolve_left hserial)
  | refused hfind _ _ hd hholds hne =>
    by_cases hserial : e.serialHex = ""
    · exact absurd hholds (serial_ne_of_blank hdraws.answers hserial hd)
    · rw [IssuedEntry.serial_of_ne _ hserial] at hholds
      exact absurd (Option.some.inj ((hfree hserial _ hd hholds).symm.trans hfind)) hne
  | moved hfind => rw [hsame hfind]
  | taken hfind => cases hfind.symm.trans hfound
  | created hfind => cases hfind.symm.trans hfound

/-- Tables that show the same rows have rows of the same names and serial numbers of the text. -/
theorem exists_mem_of_shown {table' : List Certificate}
    (h : (table.map (shown entries certs)).Perm (table'.map (shown entries certs))) (hc : c ∈ table)
    (hserial : c.serialNumber ∈ entries.map (·.serialHex)) :
    ∃ c' ∈ table', c'.serialNumber = c.serialNumber ∧ c'.commonName = c.commonName := by
  obtain ⟨c', hc', hsame⟩ := List.mem_map.1 (h.mem_iff.1 (List.mem_map_of_mem hc))
  have hcn := congrArg (fun s => s.rest.commonName) hsame
  have hshown := congrArg Shown.serialNumber hsame
  rw [shown, shown] at hcn hshown
  dsimp only at hcn hshown
  rw [if_pos (List.mem_append_right _ hserial)] at hshown
  split_ifs at hshown
  exact ⟨c', hc', Option.some.inj hshown, hcn⟩

section Orderly

variable (horderly : Orderly imp now choice text certs)

include horderly

/-- The tables that two orders leave have rows of the same names and serial numbers. -/
theorem Orderly.exists_mem {env env' : SyncEnv}
    (hdraws : env.Draws now choice (issuedEntries (now + defaultImportedExpiry) text) certs)
    (hdraws' : env'.Draws now choice (issuedEntries (now + defaultImportedExpiry) text) certs)
    (he : e ∈ issuedEntries (now + defaultImportedExpiry) text)
    (h : ∃ u ∈ syncTurns env imp certs (env.entries text), u.serialNumber = e.serialHex ∧
      u.commonName = e.cn) :
    ∃ u ∈ syncTurns env' imp certs (env'.entries text), u.serialNumber = e.serialHex ∧
      u.commonName = e.cn := by
  obtain ⟨u, hu, hserial, hcn⟩ := h
  have hperm := horderly.rows env env' hdraws hdraws'
  rw [(syncIssuedInventory_eq hdraws.answers imp certs text).1,
    (syncIssuedInventory_eq hdraws'.answers imp certs text).1] at hperm
  obtain ⟨u', hu', hserial', hcn'⟩ :=
    exists_mem_of_shown hperm hu (hserial ▸ List.mem_map_of_mem he)
  exact ⟨u', hu', hserial'.trans hserial, hcn'.trans hcn⟩

variable (huniq : UniqueCerts certs)

include huniq

/-- Two entries do not try to write one serial number that no row has. -/
theorem shared_of_orderly {e' : IssuedEntry}
    (he : e ∈ issuedEntries (now + defaultImportedExpiry) text)
    (he' : e' ∈ issuedEntries (now + defaultImportedExpiry) text)
    (htries : Tries imp choice certs e)
    (htries' : Tries imp choice certs e') (hserial : e.serialHex ≠ "")
    (hsame : e'.serialHex = e.serialHex)
    (hnone : ∀ d ∈ certs, d.serialNumber ≠ e.serialHex) : e' = e := by
  by_contra hne
  obtain ⟨rest, hrest⟩ := exists_draws now choice text certs he he' hne
  obtain ⟨env, hdraws, hentries⟩ := hrest _ List.mem_cons_self
  obtain ⟨env', hdraws', hentries'⟩ := hrest _ (List.mem_cons_of_mem _ (List.mem_singleton_self _))
  have hkey := env.entries_hasKey text
  have hkey' := env'.entries_hasKey text
  rw [hentries] at hkey
  rw [hentries'] at hkey'
  -- whichever comes first has the serial number
  obtain ⟨u, hu, huserial, hucn⟩ := exists_written hdraws huniq htries hserial
    fun d hd hholds => absurd hholds (hnone d hd)
  obtain ⟨u', hu', huserial', hucn'⟩ := exists_written hdraws' huniq htries' (hsame ▸ hserial)
    fun d hd hholds => absurd (hholds.trans hsame) (hnone d hd)
  have hstays := mem_of_mem_turn imp hdraws.answers huniq [] hkey hu hucn
  have hstays' := mem_of_mem_turn imp hdraws'.answers huniq [] hkey' hu' hucn'
  rw [List.nil_append, ← hentries] at hstays
  rw [List.nil_append, ← hentries'] at hstays'
  obtain ⟨v, hv, hvserial, hvcn⟩ :=
    horderly.exists_mem hdraws hdraws' he ⟨u, hstays, huserial, hucn⟩
  have huniq' := uniqueCerts_syncTurns imp hdraws'.answers huniq (env'.entries text)
  have heq := huniq'.2.eq_of_key hv hstays' (hvserial.trans (huserial'.trans hsame).symm)
  refine hne ((issuedEntries_hasKey _ text).eq_of_key he' he ?_)
  rw [← hucn', ← heq, hvcn]

/-- No entry tries to write a serial number that another entry takes from its row. -/
theorem freed_of_orderly (he : e ∈ issuedEntries (now + defaultImportedExpiry) text)
    (htries : Tries imp choice certs e) (hserial : e.serialHex ≠ "")
    {d : Certificate} (hd : d ∈ certs)
    (hholds : d.serialNumber = e.serialHex) (hother : foundRow imp choice certs e ≠ some d)
    {e' : IssuedEntry} (he' : e' ∈ issuedEntries (now + defaultImportedExpiry) text)
    (hfound : foundRow imp choice certs e' = some d) (hwrites : Writes imp choice certs e') :
    e'.serialHex = e.serialHex := by
  by_contra hdiff
  have hne : e' ≠ e := fun heq => hother (heq ▸ hfound)
  have hcn : e'.cn ≠ e.cn := fun heq => hne ((issuedEntries_hasKey _ text).eq_of_key he' he heq)
  obtain ⟨rest, hrest⟩ := exists_draws now choice text certs he he' hne
  obtain ⟨env, hdraws, hentries⟩ := hrest _ List.mem_cons_self
  obtain ⟨env', hdraws', hentries'⟩ := hrest _ (List.mem_cons_of_mem _ (List.mem_singleton_self _))
  have hkey := env.entries_hasKey text
  have hkey' := env'.entries_hasKey text
  rw [hentries] at hkey
  rw [hentries'] at hkey'
  -- where the other entry comes first, nobody has the serial number after its turn
  have hturn' := turn_syncTurn imp hdraws'.answers huniq e'
  have huniq' := hturn'.uniqueCerts hdraws'.answers huniq
  have hnone : ∀ u ∈ syncTurn env' imp certs e', u.serialNumber ≠ e.serialHex := by
    intro u hu husame
    rw [syncTurn_eq_of_writes hdraws' huniq hwrites hfound, mem_update_iff huniq.1 hd] at hu
    rcases hu with ⟨hu, hud⟩ | rfl
    · exact hud (huniq.2.eq_of_key hu hd (husame.trans hholds.symm))
    · rw [refresh_serialNumber] at husame
      rcases hdraws'.serial_or certs e' with heq | hnot
      · exact hdiff (heq.symm.trans husame)
      · exact hnot (husame ▸ List.mem_map_of_mem he)
  have hfound' : foundRow imp choice (syncTurn env' imp certs e') e =
      foundRow imp choice certs e := by
    rw [foundRow, foundRow, findCert_eq_select_rowsOf, hturn'.rowsOf huniq hcn.symm,
      ← findCert_eq_select_rowsOf]
  have htries' : Tries imp choice (syncTurn env' imp certs e') e := by
    rw [Tries, hfound']
    exact htries
  obtain ⟨u, hu, huserial, hucn⟩ := exists_written hdraws' huniq' htries' hserial
    fun d hd hholds => absurd hholds (hnone d hd)
  have hstays := mem_of_mem_turn imp hdraws'.answers huniq [e'] hkey' hu hucn
  rw [List.singleton_append, ← hentries'] at hstays
  -- where it comes first itself, it is refused
  obtain ⟨v, hv, hvserial, hvcn⟩ :=
    horderly.exists_mem hdraws' hdraws he ⟨u, hstays, huserial, hucn⟩
  have hsame : syncTurn env imp certs e = certs := by
    have hturn := turn_syncTurn imp hdraws.answers huniq e
    have hs := IssuedEntry.serial_of_ne env hserial certs
    generalize syncTurn env imp certs e = table' at hturn ⊢
    rw [← hdraws.choice] at hother
    cases hturn with
    | foreign => rfl
    | settled => rfl
    | refused => rfl
    | moved hfind _ _ hfree =>
      rw [← hfree d hd (hholds.trans hs.symm)] at hfind
      exact absurd hfind hother
    | taken => rfl
    | created _ hfree => exact absurd (hholds.trans hs.symm) (hfree d hd)
  rw [hentries, syncTurns_cons, hsame] at hv
  have hv' : v ∈ certs := by
    refine (mem_syncTurns_of_ne hdraws.answers huniq fun e'' he'' => ?_).1 hv
    rw [hvcn]
    exact (@ne_of_split e [] _ hkey).2.1 e'' he''
  rw [huniq.2.eq_of_key hv' hd (hvserial.trans hholds.symm)] at hvcn
  exact hcn ((mem_of_foundRow hfound).2.1.symm.trans hvcn)

end Orderly

/-! ### The order of the common names -/

/-- **The result of an import is orderly if and only if table and text are compatible.** Whichever
row is chosen where several have one name, the order in which the map of the names is visited makes
no difference exactly if no two entries try for one serial number, and none tries for one that
another entry takes away. -/
theorem orderly_iff_compatible (imp : IssuedImport) (now : ℤ) (choice : Rows.Choice Certificate)
    (text : String) (certs : List Certificate) (huniq : UniqueCerts certs) :
    Orderly imp now choice text certs ↔
      Compatible imp choice (issuedEntries (now + defaultImportedExpiry) text) certs := by
  constructor
  · intro horderly
    exact ⟨fun e he e' he' => shared_of_orderly horderly huniq he he',
      fun e he htries hserial d hd hholds hother e' he' =>
        freed_of_orderly horderly huniq he htries hserial hd hholds hother he'⟩
  · intro hcompat
    refine ⟨fun env env' hdraws hdraws' => ?_, fun env hdraws => ?_,
      fun cn => byKey_issuedEntries _ _ _⟩
    · rw [(syncIssuedInventory_eq hdraws.answers imp certs text).1,
        (syncIssuedInventory_eq hdraws'.answers imp certs text).1, ← Multiset.coe_eq_coe,
        shown_syncTurns hdraws huniq hcompat (hdraws.answers.perm_entries text)
        (issuedEntries_hasKey _ _), shown_syncTurns hdraws' huniq hcompat
          (hdraws'.answers.perm_entries text) (issuedEntries_hasKey _ _)]
    · rw [(syncIssuedInventory_eq hdraws.answers imp certs text).2.1, length_issuedEntries]

/-- The arguments of an import for all nodes. -/
def panelImport : IssuedImport := ⟨"root", "operator", none⟩

/-- Two names with their own serial numbers come in any order. -/
theorem orderly_iff_compatible_twoSerials :
    (Orderly panelImport 0 .first
        "V\t300101000000Z\t\t0A\tunknown\t/CN=alice\nV\t300101000000Z\t\t0B\tunknown\t/CN=bob" [] ↔
      Compatible panelImport .first (issuedEntries (0 + defaultImportedExpiry)
        "V\t300101000000Z\t\t0A\tunknown\t/CN=alice\nV\t300101000000Z\t\t0B\tunknown\t/CN=bob")
        []) ∧
    Compatible panelImport .first (issuedEntries (0 + defaultImportedExpiry)
      "V\t300101000000Z\t\t0A\tunknown\t/CN=alice\nV\t300101000000Z\t\t0B\tunknown\t/CN=bob")
      [] := by
  refine ⟨orderly_iff_compatible _ _ _ _ _ (by decide), ?_⟩
  have hentries : issuedEntries (0 + defaultImportedExpiry)
      "V\t300101000000Z\t\t0A\tunknown\t/CN=alice\nV\t300101000000Z\t\t0B\tunknown\t/CN=bob" =
      [⟨"alice", "A", 1893456000⟩, ⟨"bob", "B", 1893456000⟩] := by
    decide +kernel
  have hinj : ∀ e ∈ [(⟨"alice", "A", 1893456000⟩ : IssuedEntry), ⟨"bob", "B", 1893456000⟩],
      ∀ e' ∈ [(⟨"alice", "A", 1893456000⟩ : IssuedEntry), ⟨"bob", "B", 1893456000⟩],
      e'.serialHex = e.serialHex → e' = e := by
    decide
  rw [hentries]
  exact ⟨fun e he e' he' _ _ _ hsame _ => hinj e he e' he' hsame,
    fun e _ _ _ d hd => absurd hd (by simp)⟩

/-- Of two names with one serial number, the one that comes first has it. -/
theorem two_names_one_serial : ¬Orderly panelImport 0 .first
    "V\t300101000000Z\t\t0A\tunknown\t/CN=alice\nV\t300101000000Z\t\t0A\tunknown\t/CN=bob" [] := by
  intro horderly
  have hentries : issuedEntries (0 + defaultImportedExpiry)
      "V\t300101000000Z\t\t0A\tunknown\t/CN=alice\nV\t300101000000Z\t\t0A\tunknown\t/CN=bob" =
      [⟨"alice", "A", 1893456000⟩, ⟨"bob", "A", 1893456000⟩] := by
    decide +kernel
  have halice : ⟨"alice", "A", 1893456000⟩ ∈ issuedEntries (0 + defaultImportedExpiry)
      "V\t300101000000Z\t\t0A\tunknown\t/CN=alice\nV\t300101000000Z\t\t0A\tunknown\t/CN=bob" :=
    hentries ▸ List.mem_cons_self
  have hbob : ⟨"bob", "A", 1893456000⟩ ∈ issuedEntries (0 + defaultImportedExpiry)
      "V\t300101000000Z\t\t0A\tunknown\t/CN=alice\nV\t300101000000Z\t\t0A\tunknown\t/CN=bob" :=
    hentries ▸ List.mem_cons_of_mem _ (List.mem_singleton_self _)
  have hsame := shared_of_orderly horderly (by decide) halice hbob (by decide)
    (by decide) (by decide) rfl fun d hd => absurd hd (by simp)
  exact absurd hsame (by decide)

end OpenvpnControl.Cert
