import OpenvpnControl.Cert.IssuedText
import OpenvpnControl.Cert.Serials

/-!
# The turns of an import of issued certificates

The second loop of `SyncIssuedInventory` takes the common names of a text in any order. A turn looks
at one row of its name, and at whether another row has the serial number that the text gives; it
changes the rows of its own name only. This file says what a turn does, and follows tables through
the turns.

## Main definitions

* `SyncEnv.Answers`: what the clock and the database answer when no call fails.
* `Candidate`, `Own`, `Settled`: the rows that a turn may look at.
* `syncTurn`, `syncTurns`: turns of the loop, on the table.
* `Turn`: what a turn does.

## Main results

* `turn_syncTurn`: every turn does one of these things.
* `rowsOf_syncTurns`: the rows of other names stay as they are.
* `syncIssuedInventory_eq`: the import is its turns, and counts each of them once.
* `SyncEnv.exists_order`: the common names come in any order.
-/

namespace OpenvpnControl.Cert

open Panel (Certificate UniqueCerts storeCerts)

/-- The clock, and a database of which no call fails but for a unique column. Generated texts are
new. -/
structure SyncEnv.Answers (env : SyncEnv) (now : ℤ) : Prop where
  now : env.now = now
  finds : ∀ cn, env.findFails cn = false
  writes : ∀ cn, env.writeFails cn = false
  fresh : ∀ texts, env.ksuid texts ∉ texts

/-- A row that `findCertByCNAndNode` may return for an entry. -/
def Candidate (imp : IssuedImport) (e : IssuedEntry) (c : Certificate) : Prop :=
  c.commonName = e.cn ∧ c.agentNodeId = imp.agentNodeID

/-- A row of the root that an import is for. -/
def Own (imp : IssuedImport) (c : Certificate) : Prop := c.rootCaId.getD "" = imp.rootCaID

/-- A row that says what an entry says, with a serial number. -/
def Settled (e : IssuedEntry) (serial : String) (c : Certificate) : Prop :=
  c.revokedAt = none ∧ normalizeSerialHex c.serialNumber = normalizeSerialHex serial ∧
    c.expiresAt = e.expiresAt

instance (imp : IssuedImport) (e : IssuedEntry) (c : Certificate) : Decidable (Candidate imp e c) :=
  inferInstanceAs (Decidable (_ ∧ _))

instance (imp : IssuedImport) (c : Certificate) : Decidable (Own imp c) :=
  inferInstanceAs (Decidable (_ = _))

instance (e : IssuedEntry) (serial : String) (c : Certificate) : Decidable (Settled e serial c) :=
  inferInstanceAs (Decidable (_ ∧ _ ∧ _))

/-- The row that an `UPDATE` leaves. -/
def refresh (imp : IssuedImport) (e : IssuedEntry) (serial : String)
    (c : Certificate) : Certificate :=
  if c.revokedAt.isSome then reactivate serial e.expiresAt imp.issuedByName c
  else renew serial e.expiresAt imp.issuedByName c

/-- One turn of the second loop, on the table. -/
def syncTurn (env : SyncEnv) (imp : IssuedImport) (certs : List Certificate) (e : IssuedEntry) :
    List Certificate := (syncIssuedEntry env imp (certs, .zero) e).1

/-- Turns of the second loop, on the table. -/
def syncTurns (env : SyncEnv) (imp : IssuedImport) (certs : List Certificate)
    (es : List IssuedEntry) :
    List Certificate := es.foldl (syncTurn env imp) certs

/-- The number of entries that are counted. -/
def IssuedSyncStats.total (stats : IssuedSyncStats) : ℕ :=
  stats.created + stats.updated + stats.reactivated + stats.skipped

/-- What a turn does. -/
inductive Turn (env : SyncEnv) (imp : IssuedImport) (e : IssuedEntry) (certs : List Certificate) :
    List Certificate → Prop
  /-- The row that is found is of another root. -/
  | foreign {c : Certificate} : findCertByCNAndNode env.choice certs e.cn imp.agentNodeID = some c →
    ¬Own imp c → Turn env imp e certs certs
  /-- The row that is found says what the entry says. -/
  | settled {c : Certificate} : findCertByCNAndNode env.choice certs e.cn imp.agentNodeID = some c →
    Own imp c → Settled e (e.serial env certs) c → Turn env imp e certs certs
  /-- Another row has the serial number. -/
  | refused {c d : Certificate} : findCertByCNAndNode env.choice certs e.cn
      imp.agentNodeID = some c →
    Own imp c → ¬Settled e (e.serial env certs) c → d ∈ certs →
    d.serialNumber = e.serial env certs → d ≠ c → Turn env imp e certs certs
  /-- The row is updated. -/
  | moved {c : Certificate} : findCertByCNAndNode env.choice certs e.cn imp.agentNodeID = some c →
    Own imp c → ¬Settled e (e.serial env certs) c →
    (∀ d ∈ certs, d.serialNumber = e.serial env certs → d = c) →
    Turn env imp e certs
      (Rows.updateWhere (fun d => d.id = c.id) (refresh imp e (e.serial env certs)) certs)
  /-- There is no row, and another one has the serial number. -/
  | taken {d : Certificate} : findCertByCNAndNode env.choice certs e.cn imp.agentNodeID = none →
    d ∈ certs → d.serialNumber = e.serial env certs → Turn env imp e certs certs
  /-- A row is inserted. -/
  | created : findCertByCNAndNode env.choice certs e.cn imp.agentNodeID = none →
    (∀ d ∈ certs, d.serialNumber ≠ e.serial env certs) →
    Turn env imp e certs
      (certs ++ [importedRow env imp certs e.cn (e.serial env certs) e.expiresAt])

variable {env : SyncEnv} {imp : IssuedImport} {now : ℤ} {certs : List Certificate} {e : IssuedEntry}

/-! ### What an update leaves -/

@[simp] theorem refresh_id (serial : String) (c : Certificate) :
    (refresh imp e serial c).id = c.id := by
  rw [refresh]
  split_ifs <;> rfl

@[simp] theorem refresh_commonName (serial : String) (c : Certificate) :
    (refresh imp e serial c).commonName = c.commonName := by
  rw [refresh]
  split_ifs <;> rfl

@[simp] theorem refresh_agentNodeId (serial : String) (c : Certificate) :
    (refresh imp e serial c).agentNodeId = c.agentNodeId := by
  rw [refresh]
  split_ifs <;> rfl

@[simp] theorem refresh_rootCaId (serial : String) (c : Certificate) :
    (refresh imp e serial c).rootCaId = c.rootCaId := by
  rw [refresh]
  split_ifs <;> rfl

@[simp] theorem refresh_serialNumber (serial : String) (c : Certificate) :
    (refresh imp e serial c).serialNumber = serial := by
  rw [refresh]
  split_ifs <;> rfl

@[simp] theorem refresh_expiresAt (serial : String) (c : Certificate) :
    (refresh imp e serial c).expiresAt = e.expiresAt := by
  rw [refresh]
  split_ifs <;> rfl

@[simp] theorem refresh_revokedAt (serial : String) (c : Certificate) :
    (refresh imp e serial c).revokedAt = none := by
  rw [refresh]
  split_ifs with hrev
  · rfl
  · exact Option.not_isSome_iff_eq_none.1 hrev

/-- An update of one row leaves the others. -/
theorem mem_update_iff (huniq : Rows.HasKey (·.id) certs) {c : Certificate} (hc : c ∈ certs)
    {f : Certificate → Certificate} {d : Certificate} :
    d ∈ Rows.updateWhere (fun d => d.id = c.id) f certs ↔ d ∈ certs ∧ d ≠ c ∨ d = f c := by
  rw [Rows.mem_updateWhere]
  refine or_congr (and_congr_right fun hd => ?_) ⟨?_, ?_⟩
  · rw [decide_eq_false_iff_not, not_iff_not]
    exact ⟨fun hid => huniq.eq_of_key hd hc hid, fun heq => heq ▸ rfl⟩
  · rintro ⟨d₀, hd₀, hid, rfl⟩
    rw [huniq.eq_of_key hd₀ hc (of_decide_eq_true hid)]
  · rintro rfl
    exact ⟨c, hc, decide_eq_true rfl, rfl⟩

/-- Two updates of one row that agree on it. -/
theorem updateRow_congr (huniq : Rows.HasKey (·.id) certs) {c : Certificate} (hc : c ∈ certs)
    {f g : Certificate → Certificate} (h : f c = g c) :
    Rows.updateWhere (fun d => d.id = c.id) f certs = Rows.updateWhere
    (fun d => d.id = c.id) g certs := by
  rw [Rows.updateWhere, Rows.updateWhere]
  refine List.map_congr_left fun d hd => ?_
  split_ifs with hid
  · rw [huniq.eq_of_key hd hc (of_decide_eq_true hid), h]
  · rfl

/-- An update of one row with a new serial number keeps the columns unique if and only if no other
row has the number. -/
theorem uniqueCerts_refresh_iff (huniq : UniqueCerts certs) {c : Certificate} (hc : c ∈ certs)
    {serial : String} :
    UniqueCerts (Rows.updateWhere (fun d => d.id = c.id) (refresh imp e serial) certs) ↔
      ∀ d ∈ certs, d.serialNumber = serial → d = c := by
  have hmem := fun d => mem_update_iff (d := d) (f := refresh imp e serial) huniq.1 hc
  constructor
  · intro h d hd hserial
    by_contra hne
    have heq := h.2.eq_of_key ((hmem d).2 (Or.inl ⟨hd, hne⟩)) ((hmem _).2 (Or.inr rfl))
      (hserial.trans (refresh_serialNumber _ _).symm)
    have hid : d.id = c.id := by rw [heq, refresh_id]
    exact hne (huniq.1.eq_of_key hd hc hid)
  · intro h
    refine ⟨huniq.1.updateWhere fun d _ _ => refresh_id _ _, ?_⟩
    obtain ⟨before, after, rfl⟩ := List.append_of_mem hc
    have hnodup : ((before ++ c :: after).map (·.id)).Nodup := huniq.1
    have hserials : ((before ++ c :: after).map (·.serialNumber)).Nodup := huniq.2
    rw [List.map_append, List.map_cons] at hnodup hserials
    have hself : ∀ d ∈ before ++ after, d.id ≠ c.id := by
      intro d hd hid
      rw [List.nodup_middle, List.nodup_cons, ← List.map_append] at hnodup
      exact hnodup.1 (hid ▸ List.mem_map_of_mem hd)
    have hbefore : Rows.updateWhere (fun d => d.id = c.id) (refresh imp e serial) before = before :=
      Rows.updateWhere_eq_self fun d hd => decide_eq_false (hself d (List.mem_append_left _ hd))
    have hafter : Rows.updateWhere (fun d => d.id = c.id) (refresh imp e serial) after = after :=
      Rows.updateWhere_eq_self fun d hd => decide_eq_false (hself d (List.mem_append_right _ hd))
    have hwhole : Rows.updateWhere (fun d => d.id = c.id) (refresh imp e serial)
        (before ++ c :: after) = before ++ refresh imp e serial c :: after := by
      conv_rhs => rw [← hbefore, ← hafter]
      simp [Rows.updateWhere]
    rw [Rows.HasKey, hwhole, List.map_append, List.map_cons, List.nodup_middle, List.nodup_cons,
      ← List.map_append, refresh_serialNumber]
    rw [List.nodup_middle, List.nodup_cons, ← List.map_append] at hserials
    refine ⟨fun hin => ?_, hserials.2⟩
    obtain ⟨d, hd, hd'⟩ := List.mem_map.1 hin
    have hd₀ : d ∈ before ++ c :: after := by
      rcases List.mem_append.1 hd with hd | hd
      · exact List.mem_append_left _ hd
      · exact List.mem_append_right _ (List.mem_cons_of_mem _ hd)
    exact hself d hd (h d hd₀ hd' ▸ rfl)

/-! ### One turn -/

theorem syncWrite_eq (henv : env.Answers now) (key : String) (new : List Certificate) :
    syncWrite env key new = if UniqueCerts new then some new else none := by
  rw [syncWrite, henv.writes, if_neg Bool.false_ne_true, storeCerts]

theorem not_unique_refresh (huniq : UniqueCerts certs) {c : Certificate} (hc : c ∈ certs)
    {serial : String}
    (h : ¬UniqueCerts (Rows.updateWhere (fun d => d.id = c.id) (refresh imp e serial) certs)) :
    ∃ d ∈ certs, d.serialNumber = serial ∧ d ≠ c := by
  rw [uniqueCerts_refresh_iff huniq hc] at h
  push Not at h
  exact h

/-- **What a turn does.** -/
theorem turn_syncTurn (imp : IssuedImport) (henv : env.Answers now) (huniq : UniqueCerts certs)
    (e : IssuedEntry) :
    Turn env imp e certs (syncTurn env imp certs e) := by
  rw [syncTurn, syncIssuedEntry]
  cases hfind : findCertByCNAndNode env.choice certs e.cn imp.agentNodeID with
  | none =>
    dsimp only
    rw [syncWrite_eq henv]
    by_cases hfree : ∀ d ∈ certs, d.serialNumber ≠ e.serial env certs
    · have hstored : UniqueCerts
          (certs ++ [importedRow env imp certs e.cn (e.serial env certs) e.expiresAt]) := by
        refine ⟨huniq.1.append_singleton (henv.fresh _), huniq.2.append_singleton fun hmem => ?_⟩
        obtain ⟨d, hd, hserial⟩ := List.mem_map.1 hmem
        exact hfree d hd hserial
      rw [if_pos hstored]
      exact .created hfind hfree
    · push Not at hfree
      obtain ⟨d, hd, hserial⟩ := hfree
      rw [if_neg]
      · exact .taken hfind hd hserial
      · intro hstored
        have hnodup := hstored.2
        rw [Rows.HasKey, List.map_append, List.nodup_append] at hnodup
        exact hnodup.2.2 _ (List.mem_map_of_mem hd) _ (List.mem_singleton_self _) hserial
  | some c =>
    have hc := (mem_of_findCert hfind).1
    dsimp only
    by_cases hown : Own imp c
    · have hroot : c.rootCaId.getD "" = imp.rootCaID := hown
      rw [if_neg (not_not.2 hroot)]
      by_cases hrev : c.revokedAt.isSome = true
      · have hnot : ¬Settled e (e.serial env certs) c := fun hset => by
          rw [hset.1] at hrev
          cases hrev
        have hrefresh : reactivate (e.serial env certs) e.expiresAt imp.issuedByName c =
            refresh imp e (e.serial env certs) c := by
          rw [refresh, if_pos hrev]
        have hwhole : Rows.updateWhere (fun d => d.id = c.id)
            (reactivate (e.serial env certs) e.expiresAt imp.issuedByName) certs =
            Rows.updateWhere (fun d => d.id = c.id) (refresh imp e (e.serial env certs)) certs :=
          updateRow_congr huniq.1 hc hrefresh
        rw [if_pos hrev, hwhole, syncWrite_eq henv]
        split_ifs with hstored
        · exact .moved hfind hown hnot ((uniqueCerts_refresh_iff huniq hc).1 hstored)
        · obtain ⟨d, hd, hserial, hne⟩ := not_unique_refresh huniq hc hstored
          exact .refused hfind hown hnot hd hserial hne
      · rw [if_neg hrev]
        have hnone : c.revokedAt = none := Option.not_isSome_iff_eq_none.1 hrev
        by_cases hset : Settled e (e.serial env certs) c
        · rw [if_neg (by rw [not_or, not_not, not_not]; exact hset.2)]
          exact .settled hfind hown hset
        · have hchanged : normalizeSerialHex c.serialNumber ≠
              normalizeSerialHex (e.serial env certs) ∨
              c.expiresAt ≠ e.expiresAt := not_and_or.1 fun h => hset ⟨hnone, h⟩
          have hrefresh : renew (e.serial env certs) e.expiresAt imp.issuedByName c =
              refresh imp e (e.serial env certs) c := by
            rw [refresh, if_neg hrev]
          have hwhole : Rows.updateWhere (fun d => d.id = c.id)
              (renew (e.serial env certs) e.expiresAt imp.issuedByName) certs =
              Rows.updateWhere (fun d => d.id = c.id) (refresh imp e (e.serial env certs)) certs :=
            updateRow_congr huniq.1 hc hrefresh
          rw [if_pos hchanged, hwhole, syncWrite_eq henv]
          split_ifs with hstored
          · exact .moved hfind hown hset ((uniqueCerts_refresh_iff huniq hc).1 hstored)
          · obtain ⟨d, hd, hserial, hne⟩ := not_unique_refresh huniq hc hstored
            exact .refused hfind hown hset hd hserial hne
    · have hroot : c.rootCaId.getD "" ≠ imp.rootCaID := hown
      rw [if_pos hroot]
      exact .foreign hfind hown

theorem IssuedEntry.serial_of_ne (env : SyncEnv) (h : e.serialHex ≠ "") (certs : List Certificate) :
    e.serial env certs = e.serialHex := if_neg h

/-- No row has a serial number that is generated. -/
theorem serial_ne_of_blank (henv : env.Answers now) (hserial : e.serialHex = "")
    {c : Certificate} (hc : c ∈ certs) :
    c.serialNumber ≠ e.serial env certs := by
  intro heq
  rw [IssuedEntry.serial, if_pos hserial] at heq
  refine henv.fresh (certs.map (·.serialNumber)) ?_
  rw [← heq]
  exact List.mem_map_of_mem hc

/-- A turn keeps the columns unique. -/
theorem Turn.uniqueCerts {certs' : List Certificate} (h : Turn env imp e certs certs')
    (henv : env.Answers now) (huniq : UniqueCerts certs) : UniqueCerts certs' := by
  cases h with
  | foreign => exact huniq
  | settled => exact huniq
  | refused => exact huniq
  | moved hfind _ _ hfree => exact (uniqueCerts_refresh_iff huniq (mem_of_findCert hfind).1).2 hfree
  | taken => exact huniq
  | created hfind hfree =>
    refine ⟨huniq.1.append_singleton (henv.fresh _), huniq.2.append_singleton fun hmem => ?_⟩
    obtain ⟨d, hd, hserial⟩ := List.mem_map.1 hmem
    exact hfree d hd hserial

/-- **A turn changes the rows of its own name only.** -/
theorem Turn.rowsOf {certs' : List Certificate} (h : Turn env imp e certs certs')
    (huniq : UniqueCerts certs) {cn : String} (hcn : cn ≠ e.cn) :
    rowsOf cn certs' = rowsOf cn certs := by
  cases h with
  | foreign => rfl
  | settled => rfl
  | refused => rfl
  | moved hfind =>
    obtain ⟨hc, hname, -⟩ := mem_of_findCert hfind
    exact rowsOf_updateWhere_of_ne huniq.1 hc (hname ▸ hcn.symm) fun d => refresh_commonName _ _
  | taken => rfl
  | created => exact rowsOf_append_of_ne hcn.symm _

/-- Tables of which the rows of a name agree have the same rows of the name. -/
theorem mem_iff_of_rowsOf {certs' : List Certificate} {cn : String}
    (h : rowsOf cn certs' = rowsOf cn certs) {c : Certificate}
    (hcn : c.commonName = cn) : c ∈ certs' ↔ c ∈ certs := by
  have hmem : c ∈ rowsOf cn certs' ↔ c ∈ rowsOf cn certs := by rw [h]
  rwa [mem_rowsOf, mem_rowsOf, and_iff_left hcn, and_iff_left hcn] at hmem

/-- A row stays, but for what an update sets. -/
def Stays (c c' : Certificate) : Prop :=
  c'.id = c.id ∧ c'.commonName = c.commonName ∧ c'.agentNodeId = c.agentNodeId ∧
    c'.rootCaId = c.rootCaId

theorem Turn.stays {certs' : List Certificate} (h : Turn env imp e certs certs')
    (huniq : UniqueCerts certs) {c : Certificate} (hc : c ∈ certs) : ∃ c' ∈ certs', Stays c c' := by
  cases h with
  | foreign => exact ⟨c, hc, rfl, rfl, rfl, rfl⟩
  | settled => exact ⟨c, hc, rfl, rfl, rfl, rfl⟩
  | refused => exact ⟨c, hc, rfl, rfl, rfl, rfl⟩
  | @moved d hfind =>
    have hd := (mem_of_findCert hfind).1
    by_cases heq : c = d
    · subst heq
      exact ⟨_, (mem_update_iff huniq.1 hd).2 (Or.inr rfl), refresh_id _ _, refresh_commonName _ _,
        refresh_agentNodeId _ _, refresh_rootCaId _ _⟩
    · exact ⟨c, (mem_update_iff huniq.1 hd).2 (Or.inl ⟨hc, heq⟩), rfl, rfl, rfl, rfl⟩
  | taken => exact ⟨c, hc, rfl, rfl, rfl, rfl⟩
  | created => exact ⟨c, List.mem_append_left _ hc, rfl, rfl, rfl, rfl⟩

theorem Stays.trans {c c' c'' : Certificate} (h : Stays c c') (h' : Stays c' c'') : Stays c c'' :=
  ⟨h'.1.trans h.1, h'.2.1.trans h.2.1, h'.2.2.1.trans h.2.2.1, h'.2.2.2.trans h.2.2.2⟩

/-! ### Turns -/

theorem syncTurns_append (certs : List Certificate) (es fs : List IssuedEntry) :
    syncTurns env imp certs (es ++ fs) = syncTurns env imp (syncTurns env imp certs es) fs :=
  List.foldl_append

theorem syncTurns_cons (certs : List Certificate) (e : IssuedEntry) (es : List IssuedEntry) :
    syncTurns env imp certs (e :: es) = syncTurns env imp (syncTurn env imp certs e) es := rfl

theorem syncTurns_eq_self {es : List IssuedEntry} (h : ∀ e ∈ es, syncTurn env imp certs e = certs) :
    syncTurns env imp certs es = certs := by
  induction es with
  | nil => rfl
  | cons e es ih =>
    obtain ⟨he, hes⟩ := List.forall_mem_cons.1 h
    rw [syncTurns_cons, he]
    exact ih hes

theorem uniqueCerts_syncTurns (imp : IssuedImport) (henv : env.Answers now)
    (huniq : UniqueCerts certs)
    (es : List IssuedEntry) : UniqueCerts (syncTurns env imp certs es) := by
  induction es generalizing certs with
  | nil => exact huniq
  | cons e es ih => exact ih ((turn_syncTurn imp henv huniq e).uniqueCerts henv huniq)

/-- **Turns change the rows of their own names only.** -/
theorem rowsOf_syncTurns (henv : env.Answers now) (huniq : UniqueCerts certs)
    {es : List IssuedEntry} {cn : String} (hcn : ∀ e ∈ es, e.cn ≠ cn) :
    rowsOf cn (syncTurns env imp certs es) = rowsOf cn certs := by
  induction es generalizing certs with
  | nil => rfl
  | cons e es ih =>
    obtain ⟨he, hes⟩ := List.forall_mem_cons.1 hcn
    have hturn := turn_syncTurn imp henv huniq e
    rw [syncTurns_cons, ih (hturn.uniqueCerts henv huniq) hes, hturn.rowsOf huniq he.symm]

/-- The rows of a name stay through the turns of others. -/
theorem mem_syncTurns_of_ne (henv : env.Answers now) (huniq : UniqueCerts certs)
    {es : List IssuedEntry} {u : Certificate} (hes : ∀ e ∈ es, e.cn ≠ u.commonName) :
    u ∈ syncTurns env imp certs es ↔ u ∈ certs :=
  mem_iff_of_rowsOf (rowsOf_syncTurns henv huniq hes) rfl

theorem ne_of_split {pre post : List IssuedEntry} (hkey : Rows.HasKey (·.cn) (pre ++ e :: post)) :
    (∀ e' ∈ pre, e'.cn ≠ e.cn) ∧ (∀ e' ∈ post, e'.cn ≠ e.cn) ∧
    ∀ e' ∈ pre, ∀ e'' ∈ e :: post, e''.cn ≠ e'.cn := by
  rw [Rows.HasKey, List.map_append, List.map_cons, List.nodup_append, List.nodup_cons] at hkey
  obtain ⟨-, ⟨hpost, -⟩, hdisjoint⟩ := hkey
  refine ⟨fun e' he' => hdisjoint _ (List.mem_map_of_mem he') _ List.mem_cons_self,
    fun e' he' heq => hpost (heq ▸ List.mem_map_of_mem he'), fun e' he' e'' he'' heq => ?_⟩
  exact hdisjoint _ (List.mem_map_of_mem he') _ (List.mem_map_of_mem (f := (·.cn)) he'') heq.symm

/-- A row that is of the name of the entry after its turn stays. -/
theorem mem_of_mem_turn (imp : IssuedImport) (henv : env.Answers now) (huniq : UniqueCerts certs)
    (pre : List IssuedEntry) {post : List IssuedEntry}
    (hkey : Rows.HasKey (·.cn) (pre ++ e :: post)) {u : Certificate}
    (hu : u ∈ syncTurn env imp (syncTurns env imp certs pre) e) (hcn : u.commonName = e.cn) :
    u ∈ syncTurns env imp certs (pre ++ e :: post) := by
  have huniq' := uniqueCerts_syncTurns imp henv huniq pre
  have huniq'' := (turn_syncTurn imp henv huniq' e).uniqueCerts henv huniq'
  rw [syncTurns_append, syncTurns_cons]
  refine (mem_syncTurns_of_ne henv huniq'' fun e'' he'' => ?_).2 hu
  rw [hcn]
  exact (ne_of_split hkey).2.1 e'' he''

/-- A turn gives its own serial number only. -/
theorem mem_of_turn_of_serial {table : List Certificate} (h : Turn env imp e certs table)
    (huniq : UniqueCerts certs) {u : Certificate} (hu : u ∈ table)
    (hne : e.serial env certs ≠ u.serialNumber) : u ∈ certs := by
  cases h with
  | foreign => exact hu
  | settled => exact hu
  | refused => exact hu
  | moved hfind =>
    rcases (mem_update_iff huniq.1 (mem_of_findCert hfind).1).1 hu with ⟨hu, -⟩ | rfl
    · exact hu
    · exact absurd (refresh_serialNumber _ _).symm hne
  | taken => exact hu
  | created =>
    rcases List.mem_append.1 hu with hu | hu
    · exact hu
    · rw [List.mem_singleton.1 hu] at hne
      exact absurd rfl hne

theorem mem_of_syncTurns_of_serial (henv : env.Answers now) (huniq : UniqueCerts certs)
    {u : Certificate} (hne : ∀ e ∈ es, ∀ table, e.serial env table ≠ u.serialNumber)
    (hu : u ∈ syncTurns env imp certs es) :
    u ∈ certs := by
  induction es generalizing certs with
  | nil => exact hu
  | cons e es ih =>
    obtain ⟨he, hes⟩ := List.forall_mem_cons.1 hne
    have hturn := turn_syncTurn imp henv huniq e
    exact mem_of_turn_of_serial hturn huniq (ih (hturn.uniqueCerts henv huniq) hes hu) (he certs)

/-- Every row stays, but for what updates set. -/
theorem stays_syncTurns (imp : IssuedImport) (henv : env.Answers now) (huniq : UniqueCerts certs)
    (es : List IssuedEntry) {c : Certificate}
    (hc : c ∈ certs) : ∃ c' ∈ syncTurns env imp certs es, Stays c c' := by
  induction es generalizing certs c with
  | nil => exact ⟨c, hc, rfl, rfl, rfl, rfl⟩
  | cons e es ih =>
    have hturn := turn_syncTurn imp henv huniq e
    obtain ⟨c', hc', hstays⟩ := hturn.stays huniq hc
    obtain ⟨c'', hc'', hstays'⟩ := ih (hturn.uniqueCerts henv huniq) hc'
    exact ⟨c'', hc'', hstays.trans hstays'⟩

/-! ### The import -/

/-- A turn of the loop is one of the table, and counts one entry. -/
theorem syncIssuedEntry_eq (stats : IssuedSyncStats) :
    (syncIssuedEntry env imp (certs, stats) e).1 = syncTurn env imp certs e ∧
      (syncIssuedEntry env imp (certs, stats) e).2.total = stats.total + 1 := by
  rw [syncTurn, syncIssuedEntry, syncIssuedEntry]
  cases findCertByCNAndNode env.choice certs e.cn imp.agentNodeID with
  | none =>
    dsimp only
    cases syncWrite env e.cn
      (certs ++ [importedRow env imp certs e.cn (e.serial env certs) e.expiresAt]) with
    | none => exact ⟨rfl, by simp only [IssuedSyncStats.total]; omega⟩
    | some certs' => exact ⟨rfl, by simp only [IssuedSyncStats.total]; omega⟩
  | some c =>
    dsimp only
    split_ifs
    · exact ⟨rfl, by simp only [IssuedSyncStats.total]; omega⟩
    · cases syncWrite env e.cn (Rows.updateWhere (fun d => d.id = c.id)
        (reactivate (e.serial env certs) e.expiresAt imp.issuedByName) certs) with
      | none => exact ⟨rfl, by simp only [IssuedSyncStats.total]; omega⟩
      | some certs' => exact ⟨rfl, by simp only [IssuedSyncStats.total]; omega⟩
    · cases syncWrite env e.cn (Rows.updateWhere (fun d => d.id = c.id)
        (renew (e.serial env certs) e.expiresAt imp.issuedByName) certs) with
      | none => exact ⟨rfl, by simp only [IssuedSyncStats.total]; omega⟩
      | some certs' => exact ⟨rfl, by simp only [IssuedSyncStats.total]; omega⟩
    · exact ⟨rfl, by simp only [IssuedSyncStats.total]; omega⟩

theorem syncIssuedEntries_eq (henv : env.Answers now) (stats : IssuedSyncStats)
    (es : List IssuedEntry) :
    (syncIssuedEntries env imp (certs, stats) es).1.1 = syncTurns env imp certs es ∧
      (syncIssuedEntries env imp (certs, stats) es).1.2.total = stats.total + es.length ∧
      (syncIssuedEntries env imp (certs, stats) es).2 = true := by
  induction es generalizing certs stats with
  | nil => exact ⟨rfl, rfl, rfl⟩
  | cons e es ih =>
    obtain ⟨htable, htotal⟩ := @syncIssuedEntry_eq env imp certs e stats
    rw [syncIssuedEntries, henv.finds, if_neg Bool.false_ne_true]
    obtain ⟨htable', htotal', hend⟩ :=
      @ih (syncIssuedEntry env imp (certs, stats) e).1 (syncIssuedEntry env imp (certs, stats) e).2
    refine ⟨?_, ?_, hend⟩
    · rw [htable', htable, syncTurns_cons]
    · rw [htotal', htotal, List.length_cons]
      omega

theorem SyncEnv.Answers.perm_entries (henv : env.Answers now) (text : String) :
    (env.entries text).Perm (issuedEntries (now + defaultImportedExpiry) text) := by
  rw [SyncEnv.entries, henv.now]
  exact env.order_perm _

/-- **The import is its turns**, and counts each entry once. -/
theorem syncIssuedInventory_eq (henv : env.Answers now) (imp : IssuedImport)
    (certs : List Certificate) (text : String) :
    (syncIssuedInventory env imp certs text).1.1 = syncTurns env imp certs (env.entries text) ∧
      (syncIssuedInventory env imp certs text).1.2.total =
        (issuedEntries (now + defaultImportedExpiry) text).length ∧
      (syncIssuedInventory env imp certs text).2 = true := by
  have hperm := henv.perm_entries text
  rw [syncIssuedInventory]
  split_ifs with hblank
  · rw [issuedEntries_of_blank hblank] at hperm ⊢
    rw [List.perm_nil.1 hperm]
    exact ⟨rfl, rfl, rfl⟩
  · obtain ⟨htable, htotal, hend⟩ :=
      @syncIssuedEntries_eq env imp now certs henv .zero (env.entries text)
    refine ⟨htable, ?_, hend⟩
    have hzero : IssuedSyncStats.zero.total = 0 := rfl
    rw [htotal, hperm.length_eq, hzero, Nat.zero_add]

/-! ### Orders -/

/-- There are serial numbers that differ from some, in normal form also. -/
theorem exists_freshSerial (texts : List String) :
    ∃ s, s ∉ texts ∧ normalizeSerialHex s ∉ texts.map normalizeSerialHex := by
  have hinj : Function.Injective upperHex := fun _ _ h => upperHex_inj.1 h
  obtain ⟨s, ⟨n, rfl⟩, hs⟩ := (Set.infinite_range_of_injective hinj).exists_notMem_finset
    (texts ++ texts.map normalizeSerialHex).toFinset
  rw [List.mem_toFinset, List.mem_append, not_or] at hs
  refine ⟨upperHex n, hs.1, ?_⟩
  rw [normalizeSerialHex_upperHex]
  exact hs.2

/-- The common names of a text may come in any order, with any choice of rows and new texts. -/
theorem SyncEnv.exists_order (now : ℤ) (choice : Rows.Choice Certificate) (avoid : List String)
    {text : String} {es : List IssuedEntry}
    (hes : es.Perm (issuedEntries (now + defaultImportedExpiry) text)) :
    ∃ env : SyncEnv, env.Answers now ∧ env.entries text = es ∧ env.choice = choice ∧
      ∀ texts, env.ksuid texts ∉ avoid ∧
        normalizeSerialHex (env.ksuid texts) ∉ (avoid ++ texts).map normalizeSerialHex := by
  choose fresh hfresh hnormal using exists_freshSerial
  refine ⟨{ SyncEnv.quiet now fun texts => fresh (avoid ++ texts) with
    order := fun entries => if es.Perm entries then es else entries
    order_perm := fun entries => ?_
    choice := choice }, ⟨rfl, fun _ => rfl, fun _ => rfl, fun texts hmem => ?_⟩, if_pos hes, rfl,
    fun texts => ⟨fun hmem => ?_, hnormal (avoid ++ texts)⟩⟩
  · split_ifs with hperm
    · exact hperm
    · exact List.Perm.refl _
  · exact hfresh (avoid ++ texts) (List.mem_append_right _ hmem)
  · exact hfresh (avoid ++ texts) (List.mem_append_left _ hmem)

end OpenvpnControl.Cert
