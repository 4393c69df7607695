import OpenvpnControl.Cert.CrlRevocation

/-!
# What a revoke list revokes

`SyncRevokedInventory` takes each common name of a text once and revokes the node-less row of that
name, or creates a revoked one. The status of the line is not looked at, and of several rows of one
name only one is found. Here the rows of a name are followed through a run, and the texts and tables
are determined on which every run revokes what the text lists as revoked.

The names are taken one after the other, and a turn changes the rows of its own name only, so what a
run does to a name is what one turn does to the table as it was. `ListedChange` has a constructor
for each outcome of a turn: the row that is found is left alone or revoked, or a revoked row is
created. A statement that fails ends the run, and is no part of the property, which is about the
runs that come to their end.

## Main definitions

* `inventoryLines`, `Listed`: the lines of a text, and the names it lists as revoked.
* `RevokesListed`: a run that revokes the rows of these names and no others.
* `ListTold`: the tables and texts on which every run does.

## Main results

* `syncRevokedInventory_rowsOf`: the rows of a name after a run.
* `revokesListed_iff`: every run revokes what is listed exactly on those tables and texts.
-/

namespace OpenvpnControl.Cert

open Panel (Certificate UniqueCerts storeCerts)

/-! ### The rows of a name -/

def rowsOf (cn : String) (certs : List Certificate) : List Certificate :=
  certs.filter fun c => c.commonName = cn

theorem mem_rowsOf {cn : String} {certs : List Certificate} {c : Certificate} :
    c ∈ rowsOf cn certs ↔ c ∈ certs ∧ c.commonName = cn := by
  rw [rowsOf, List.mem_filter, decide_eq_true_eq]

theorem rowsOf_append_of_ne {cn : String} {row : Certificate} (h : row.commonName ≠ cn)
    (certs : List Certificate) : rowsOf cn (certs ++ [row]) = rowsOf cn certs := by
  rw [rowsOf, List.filter_append, List.filter_cons_of_neg (by simpa using h), List.filter_nil,
    List.append_nil, rowsOf]

theorem rowsOf_append_of_eq {cn : String} {row : Certificate} (h : row.commonName = cn)
    (certs : List Certificate) : rowsOf cn (certs ++ [row]) = rowsOf cn certs ++ [row] := by
  rw [rowsOf, List.filter_append, List.filter_cons_of_pos (by simpa using h),
    List.filter_nil, rowsOf]

theorem rowsOf_updateWhere {p : Certificate → Bool} {f : Certificate → Certificate}
    (hf : ∀ c, (f c).commonName = c.commonName) (cn : String) (certs : List Certificate) :
    rowsOf cn (Rows.updateWhere p f certs) = Rows.updateWhere p f (rowsOf cn certs) := by
  rw [rowsOf, rowsOf, Rows.updateWhere, Rows.updateWhere, List.filter_map]
  congr 1
  refine List.filter_congr fun c _ => ?_
  rw [Function.comp_apply]
  split_ifs
  · rw [hf]
  · rfl

theorem findCert_eq_select_rowsOf (choice : Rows.Choice Certificate) (certs : List Certificate)
    (cn : String) (node : Option String) :
    findCertByCNAndNode choice certs cn node =
      choice.select (fun c => c.agentNodeId = node) (rowsOf cn certs) := by
  rw [findCertByCNAndNode, Rows.Choice.select, Rows.Choice.select, rowsOf, List.filter_filter]
  congr 1
  refine List.filter_congr fun c _ => ?_
  by_cases hcn : c.commonName = cn <;> by_cases hnode : c.agentNodeId = node <;> simp [hcn, hnode]

theorem rowsOf_updateWhere_of_ne {certs : List Certificate} {c : Certificate}
    (huniq : Rows.HasKey (·.id) certs) (hc : c ∈ certs) {cn : String} (hne : c.commonName ≠ cn)
    {f : Certificate → Certificate} (hf : ∀ d, (f d).commonName = d.commonName) :
    rowsOf cn (Rows.updateWhere (fun d => d.id = c.id) f certs) = rowsOf cn certs := by
  rw [rowsOf_updateWhere hf, Rows.updateWhere_eq_self]
  intro d hd
  obtain ⟨hd, hcn⟩ := mem_rowsOf.1 hd
  rw [decide_eq_false_iff_not]
  intro hid
  rw [huniq.eq_of_key hd hc hid] at hcn
  exact hne hcn

/-! ### One name -/

/-- What a run does to the rows of a name of the text. -/
inductive ListedChange (env : SyncEnv) (rootCaID issuedByName cn : String)
    (certs : List Certificate) : List Certificate → Prop
  /-- The row that is found belongs to another root, or is revoked already. -/
  | skipped {c : Certificate} :
    findCertByCNAndNode env.choice certs cn none = some c →
    (c.rootCaId.getD "" ≠ rootCaID ∨ c.revokedAt.isSome = true) →
    ListedChange env rootCaID issuedByName cn certs (rowsOf cn certs)
  /-- The row that is found is revoked. -/
  | revoked {c : Certificate} :
    findCertByCNAndNode env.choice certs cn none = some c →
    c.rootCaId.getD "" = rootCaID → c.revokedAt = none →
    ListedChange env rootCaID issuedByName cn certs
      (Rows.updateWhere (fun d => d.id = c.id) (revokeRow env.now importedReason) (rowsOf cn certs))
  /-- There is no row, and the database refuses to insert one. -/
  | refused {table : List Certificate} :
    findCertByCNAndNode env.choice certs cn none = none → UniqueCerts table →
    syncWrite env cn (table ++ [revokeRow env.now importedReason
      (importedRow env ⟨rootCaID, issuedByName,
        none⟩ table cn (env.ksuid (table.map (·.serialNumber)))
        (env.now + defaultImportedExpiry))]) = none →
    ListedChange env rootCaID issuedByName cn certs (rowsOf cn certs)
  /-- There is no row, and a revoked one is inserted. -/
  | created {row : Certificate} :
    findCertByCNAndNode env.choice certs cn none = none → row.commonName = cn →
    row.revokedAt.isSome = true → row.id ∉ certs.map (·.id) →
    ListedChange env rootCaID issuedByName cn certs (rowsOf cn certs ++ [row])

variable {env : SyncEnv} {certs : List Certificate} {rootCaID issuedByName : String}

/-- One turn of the loop leaves the columns unique, keeps every row of another name and every id,
and changes the rows of its own name. -/
theorem syncRevokedName_change (huniq : UniqueCerts certs) {stats : RevokedSyncStats}
    {s' : List Certificate × RevokedSyncStats} {cn : String}
    (h : syncRevokedName env rootCaID issuedByName (certs, stats) cn = some s') :
    (UniqueCerts s'.1 ∧ ∀ id ∈ certs.map (·.id), id ∈ s'.1.map (·.id)) ∧
    (∀ k, k ≠ cn → rowsOf k s'.1 = rowsOf k certs) ∧
    ListedChange env rootCaID issuedByName cn certs (rowsOf cn s'.1) := by
  have hok : ¬env.findFails cn = true := by
    intro hfails
    rw [syncRevokedName, if_pos hfails] at h
    cases h
  rw [syncRevokedName, if_neg hok] at h
  cases hfind : findCertByCNAndNode env.choice certs cn none with
  | some c =>
    obtain ⟨hc, hcn, -⟩ := mem_of_findCert hfind
    simp only [hfind] at h
    by_cases hroot : c.rootCaId.getD "" = rootCaID
    · rw [if_neg (not_not.2 hroot)] at h
      by_cases hrev : c.revokedAt = none
      · have hnot : ¬c.revokedAt.isSome = true := by simp [hrev]
        rw [if_neg hnot] at h
        split_ifs at h
        cases h
        dsimp only
        refine ⟨⟨huniq.updateWhere (fun _ => rfl) fun _ => rfl, fun id hid => ?_⟩,
          fun k hk => ?_, ?_⟩
        · rwa [Rows.map_key_updateWhere (f := revokeRow env.now importedReason) fun _ _ _ => rfl]
        · exact rowsOf_updateWhere_of_ne huniq.1 hc (hcn ▸ Ne.symm hk) fun _ => rfl
        · rw [rowsOf_updateWhere (f := revokeRow env.now importedReason) fun _ => rfl]
          exact .revoked hfind hroot hrev
      · have hsome := Option.isSome_iff_ne_none.2 hrev
        rw [if_pos hsome] at h
        cases h
        exact ⟨⟨huniq, fun _ hid => hid⟩, fun _ _ => rfl, .skipped hfind (.inr hsome)⟩
    · rw [if_pos hroot] at h
      cases h
      exact ⟨⟨huniq, fun _ hid => hid⟩, fun _ _ => rfl, .skipped hfind (.inl hroot)⟩
  | none =>
    simp only [hfind] at h
    split at h
    · next certs' hw =>
      cases h
      obtain ⟨huniq', rfl⟩ := syncWrite_eq_some hw
      refine ⟨⟨huniq', fun id hid => ?_⟩, fun k hk => rowsOf_append_of_ne (Ne.symm hk) _, ?_⟩
      · rw [List.map_append]
        exact List.mem_append_left _ hid
      · have hfresh := huniq'.1
        rw [Rows.HasKey, List.map_append, List.nodup_append'] at hfresh
        rw [rowsOf_append_of_eq (show Certificate.commonName _ = cn from rfl)]
        exact .created hfind rfl rfl fun hid => hfresh.2.2 hid (by simp)
    · next hw =>
      cases h
      exact ⟨⟨huniq, fun _ hid => hid⟩, fun _ _ => rfl, .refused hfind huniq hw⟩

/-- What a run does to the rows of a name of which one is found. -/
theorem ListedChange.of_some {cn : String} {after : List Certificate} {c : Certificate}
    (h : ListedChange env rootCaID issuedByName cn certs after)
    (hf : findCertByCNAndNode env.choice certs cn none = some c) :
    (after = rowsOf cn certs ∧ (c.rootCaId.getD "" ≠ rootCaID ∨ c.revokedAt.isSome = true)) ∨
      (after = Rows.updateWhere (fun d => d.id = c.id) (revokeRow env.now importedReason)
        (rowsOf cn certs) ∧ c.rootCaId.getD "" = rootCaID ∧ c.revokedAt = none) := by
  cases h with
  | skipped hf' hwhy =>
    obtain rfl := Option.some.inj (hf.symm.trans hf')
    exact .inl ⟨rfl, hwhy⟩
  | revoked hf' hroot hrev =>
    obtain rfl := Option.some.inj (hf.symm.trans hf')
    exact .inr ⟨rfl, hroot, hrev⟩
  | refused hf' _ _ => cases hf.symm.trans hf'
  | created hf' _ _ _ => cases hf.symm.trans hf'

/-- A change of the rows of a name is one from any table with the same rows of that name, and no
more ids. -/
theorem ListedChange.of_rowsOf_eq {cn : String} {mid after : List Certificate}
    (h : ListedChange env rootCaID issuedByName cn mid after)
    (hrows : rowsOf cn mid = rowsOf cn certs)
    (hids : ∀ id ∈ certs.map (·.id), id ∈ mid.map (·.id)) :
    ListedChange env rootCaID issuedByName cn certs after := by
  have hfind : findCertByCNAndNode env.choice mid cn none =
      findCertByCNAndNode env.choice certs cn none := by
    rw [findCert_eq_select_rowsOf, hrows, ← findCert_eq_select_rowsOf]
  cases h with
  | skipped hf hwhy => exact hrows ▸ .skipped (hfind ▸ hf) hwhy
  | revoked hf hroot hrev => exact hrows ▸ .revoked (hfind ▸ hf) hroot hrev
  | refused hf huniq hw => exact hrows ▸ .refused (hfind ▸ hf) huniq hw
  | created hf hcn hrev hid =>
    exact hrows ▸ .created (hfind ▸ hf) hcn hrev fun hmem => hid (hids _ hmem)

/-- **The rows of a name after the loop.** -/
theorem syncRevokedNames_rowsOf (cns : List String) (hcns : cns.Nodup) :
    ∀ (certs : List Certificate) (stats : RevokedSyncStats), UniqueCerts certs →
      (syncRevokedNames env rootCaID issuedByName (certs, stats) cns).2 = true →
      let after := (syncRevokedNames env rootCaID issuedByName (certs, stats) cns).1.1
      (UniqueCerts after ∧ ∀ id ∈ certs.map (·.id), id ∈ after.map (·.id)) ∧
      (∀ k, k ∉ cns → rowsOf k after = rowsOf k certs) ∧
      ∀ cn ∈ cns, ListedChange env rootCaID issuedByName cn certs (rowsOf cn after) := by
  induction cns with
  | nil =>
    intro certs stats huniq _
    exact ⟨⟨huniq, fun _ hid => hid⟩, fun _ _ => rfl, fun _ hcn => nomatch hcn⟩
  | cons cn cns ih =>
    intro certs stats huniq h
    obtain ⟨hcn, hcns⟩ := List.nodup_cons.1 hcns
    rw [syncRevokedNames] at h ⊢
    cases hs : syncRevokedName env rootCaID issuedByName (certs, stats) cn with
    | none =>
      rw [hs] at h
      cases h
    | some s' =>
      obtain ⟨mid, stats'⟩ := s'
      rw [hs] at h
      dsimp only at h ⊢
      obtain ⟨⟨hmid, hids⟩, hother, hchange⟩ := syncRevokedName_change huniq hs
      obtain ⟨⟨hafter, hids'⟩, hframe, hnames⟩ := ih hcns mid stats' hmid h
      refine ⟨⟨hafter, fun id hid => hids' id (hids id hid)⟩, fun k hk => ?_, fun k hk => ?_⟩
      · rw [List.mem_cons, not_or] at hk
        rw [hframe k hk.2, hother k hk.1]
      · rcases List.mem_cons.1 hk with rfl | hk
        · rw [hframe k hcn]
          exact hchange
        · have hne : k ≠ cn := fun heq => hcn (heq ▸ hk)
          exact (hnames k hk).of_rowsOf_eq (hother k hne) hids

/-! ### The names of a text -/

/-- The lines of a text that are accepted. -/
def inventoryLines (text : String) : List InventoryLineEntry :=
  ((text.toList.splitOn '\n').map trimCR).filterMap parseInventoryLine

/-- The text lists the name as revoked: on a line with status `R`, or on one without a status. -/
def Listed (text cn : String) : Prop :=
  ∃ p ∈ inventoryLines text, p.cn = cn ∧ (p.status = some .revoked ∨ p.status = none)

theorem parseInventoryLine_cn_ne {raw : List Char} {p : InventoryLineEntry}
    (h : parseInventoryLine raw = some p) : p.cn ≠ "" := by
  rw [parseInventoryLine] at h
  dsimp only at h
  by_cases hskip : trimLine raw = [] ∨ (trimLine raw).head? = some '#'
  · rw [if_pos hskip] at h
    cases h
  rw [if_neg hskip] at h
  by_cases htab : '\t' ∈ trimLine raw
  · rw [if_pos htab] at h
    split at h
    · next c _ =>
      obtain ⟨status, -, h⟩ := Option.bind_eq_some_iff.1 h
      by_cases hcn : subjectCNFromDN (((trimLine raw).splitOn '\t').getLastD []) = ""
      · rw [if_pos hcn] at h
        cases h
      · rw [if_neg hcn] at h
        obtain rfl := Option.some.inj h
        exact hcn
    · cases h
  · rw [if_neg htab] at h
    obtain rfl := Option.some.inj h
    dsimp only
    split_ifs with hcn
    · rw [ne_eq, GoStrings.ofList_eq_empty]
      exact (not_or.1 hskip).1
    · exact hcn

theorem mem_revokedNames {text cn : String} :
    cn ∈ revokedNames text ↔ ∃ p ∈ inventoryLines text, p.cn = cn := by
  simp only [revokedNames, List.mem_reverse, List.mem_dedup, List.mem_filter, List.mem_map,
    decide_eq_true_eq]
  constructor
  · rintro ⟨⟨p, hp, rfl⟩, -⟩
    exact ⟨p, hp, rfl⟩
  · rintro ⟨p, hp, rfl⟩
    obtain ⟨raw, -, hraw⟩ := List.mem_filterMap.1 hp
    exact ⟨⟨p, hp, rfl⟩, parseInventoryLine_cn_ne hraw⟩

theorem nodup_revokedNames (text : String) : (revokedNames text).Nodup :=
  List.nodup_reverse.2 (List.nodup_dedup _)

theorem mem_of_mem_trimCR {l : List Char} {c : Char} (h : c ∈ trimCR l) : c ∈ l := by
  rw [trimCR] at h
  split_ifs at h
  · exact List.dropLast_subset _ h
  · exact h

theorem isSpace_of_blank {text : String} (h : GoStrings.trimSpace text = "") {raw : List Char}
    (hraw : raw ∈ (text.toList.splitOn '\n').map trimCR) : ∀ c ∈ raw,
    GoStrings.isSpace c = true := by
  intro c hc
  obtain ⟨line, hline, rfl⟩ := List.mem_map.1 hraw
  have hpart := (GoStrings.mem_split (List.mem_map_of_mem (f := String.ofList) hline)).2
  rw [GoStrings.contains, decide_eq_true_eq, String.toList_ofList] at hpart
  exact GoStrings.trimSpace_eq_empty_iff.1 h c (hpart.subset (mem_of_mem_trimCR hc))

theorem revokedNames_of_blank {text : String} (h : GoStrings.trimSpace text = "") :
    revokedNames text = [] := by
  rw [List.eq_nil_iff_forall_not_mem]
  intro cn hcn
  obtain ⟨p, hp, -⟩ := mem_revokedNames.1 hcn
  obtain ⟨raw, hraw, hparse⟩ := List.mem_filterMap.1 hp
  have hblank : trimLine raw = [] := GoStrings.trimList_eq_nil_iff.2 (isSpace_of_blank h hraw)
  rw [parseInventoryLine] at hparse
  simp [hblank] at hparse

/-- **The rows of a name after a run.** -/
theorem syncRevokedInventory_rowsOf (huniq : UniqueCerts certs) {text : String}
    (h : (syncRevokedInventory env certs rootCaID issuedByName text).2 = true) :
    let after := (syncRevokedInventory env certs rootCaID issuedByName text).1.1
    (∀ cn, (∀ p ∈ inventoryLines text, p.cn ≠ cn) → rowsOf cn after = rowsOf cn certs) ∧
      ∀ p ∈ inventoryLines text, ListedChange env rootCaID issuedByName p.cn certs
      (rowsOf p.cn after) := by
  have hrun : syncRevokedInventory env certs rootCaID issuedByName text =
      syncRevokedNames env rootCaID issuedByName (certs, ⟨0, 0, 0⟩) (revokedNames text) := by
    rw [syncRevokedInventory]
    split_ifs with hblank
    · rw [revokedNames_of_blank hblank]
      rfl
    · rfl
  rw [hrun] at h ⊢
  obtain ⟨-, hframe, hnames⟩ := syncRevokedNames_rowsOf _ (nodup_revokedNames text) certs _ huniq h
  refine ⟨fun cn hcn => hframe cn fun hmem => ?_, fun p hp =>
    hnames _ (mem_revokedNames.2 ⟨p, hp, rfl⟩)⟩
  obtain ⟨p, hp, rfl⟩ := mem_revokedNames.1 hmem
  exact hcn p hp rfl

/-! ### What is revoked -/

/-- A run that revokes the rows of the listed names, and no others. -/
structure RevokesListed (certs after : List Certificate) (rootCaID text : String) : Prop where
  named : ∀ c' ∈ after, c'.revokedAt.isSome = true →
    (∃ c ∈ certs, c.id = c'.id ∧ c.revokedAt.isSome = true) ∨ Listed text c'.commonName
  every : ∀ c' ∈ after, NodelessOf rootCaID c' → Listed text c'.commonName →
    c'.revokedAt.isSome = true

/-- The tables and texts on which every run does. -/
structure ListTold (certs : List Certificate) (rootCaID text : String) : Prop where
  /-- A name that is listed on other lines only has node-less rows, and none of them is a valid row
  of the root. -/
  other : ∀ p ∈ inventoryLines text, ¬Listed text p.cn →
    (∃ c ∈ certs, c.commonName = p.cn ∧ c.agentNodeId = none) ∧
      ∀ c ∈ certs, c.commonName = p.cn → c.agentNodeId = none →
        c.rootCaId.getD "" ≠ rootCaID ∨ c.revokedAt.isSome = true
  /-- A valid row of the root with a listed name is the only node-less row of the name. -/
  alone : ∀ c ∈ certs, Listed text c.commonName → NodelessOf rootCaID c → c.revokedAt = none →
    ∀ d ∈ certs, d.commonName = c.commonName → d.agentNodeId = none → d = c

/-- A run on a table and a text that are told apart. -/
theorem ListTold.revokesListed {text : String} (htold : ListTold certs rootCaID text)
    (huniq : UniqueCerts certs)
    (h : (syncRevokedInventory env certs rootCaID issuedByName text).2 = true) :
    RevokesListed certs (syncRevokedInventory env certs rootCaID issuedByName text).1.1
    rootCaID text := by
  obtain ⟨hframe, hchange⟩ := syncRevokedInventory_rowsOf huniq h
  generalize (syncRevokedInventory env certs rootCaID issuedByName text).1.1 =
    after at hframe hchange ⊢
  -- the rows of a name that is not listed stay as they are
  have hsame : ∀ c' ∈ after, ¬Listed text c'.commonName → c' ∈ certs := by
    intro c' hc' hnot
    have hmem := mem_rowsOf.2 ⟨hc', rfl⟩
    by_cases hp : ∃ p ∈ inventoryLines text, p.cn = c'.commonName
    · obtain ⟨p, hp, hcn⟩ := hp
      obtain ⟨⟨d, hd, hdcn, hdnode⟩, hnone⟩ := htold.other p hp (hcn ▸ hnot)
      rw [← hcn] at hmem
      generalize hrows : rowsOf p.cn after = rows at hmem
      have hc := hchange p hp
      rw [hrows] at hc
      cases hc with
      | skipped _ _ => exact (mem_rowsOf.1 hmem).1
      | revoked hf hroot hrev =>
        obtain ⟨hc, hccn, hcnode⟩ := mem_of_findCert hf
        rcases hnone _ hc hccn hcnode with hne | hsome
        · exact absurd hroot hne
        · rw [hrev] at hsome
          cases hsome
      | refused _ _ _ => exact (mem_rowsOf.1 hmem).1
      | created hf _ _ _ => exact absurd ⟨hdcn, hdnode⟩ (findCert_eq_none.1 hf d hd)
    · push Not at hp
      rw [hframe _ hp] at hmem
      exact (mem_rowsOf.1 hmem).1
  refine ⟨fun c' hc' hrev => ?_, fun c' hc' hroot hlisted => ?_⟩
  · by_cases hlisted : Listed text c'.commonName
    · exact .inr hlisted
    · exact .inl ⟨c', hsame c' hc' hlisted, rfl, hrev⟩
  · obtain ⟨p, hp, hcn, -⟩ := id hlisted
    have hmem := mem_rowsOf.2 ⟨hc', rfl⟩
    rw [← hcn] at hmem hlisted
    -- a valid row of the root is found, as the only one
    have hold : ∀ c ∈ rowsOf p.cn certs, NodelessOf rootCaID c → c.revokedAt = none →
        findCertByCNAndNode env.choice certs p.cn none = some c := by
      intro c hc hcroot hrev
      obtain ⟨hc, hccn⟩ := mem_rowsOf.1 hc
      refine Rows.Choice.select_of_unique hc (decide_eq_true ⟨hccn, hcroot.2⟩) fun d hd hdp => ?_
      obtain ⟨hdcn, hdnode⟩ := of_decide_eq_true hdp
      exact htold.alone c hc (hccn ▸ hlisted) hcroot hrev d hd (hdcn.trans hccn.symm) hdnode
    generalize hrows : rowsOf p.cn after = rows at hmem
    have hc := hchange p hp
    rw [hrows] at hc
    rw [Option.isSome_iff_ne_none]
    intro hnone
    cases hc with
    | skipped hf hwhy =>
      have hfound := hold c' hmem hroot hnone
      rw [hf] at hfound
      obtain rfl := Option.some.inj hfound
      rcases hwhy with hne | hsome
      · rw [hroot.1] at hne
        exact hne rfl
      · rw [hnone] at hsome
        cases hsome
    | revoked hf hcroot hrev =>
      rcases Rows.mem_updateWhere.1 hmem with ⟨hmem, hid⟩ | ⟨d, -, -, rfl⟩
      · have hfound := hold c' hmem hroot hnone
        rw [hf] at hfound
        obtain rfl := Option.some.inj hfound
        simp at hid
      · cases hnone
    | refused hf _ _ =>
      rw [hold c' hmem hroot hnone] at hf
      cases hf
    | created hf _ hrev _ =>
      rcases List.mem_append.1 hmem with hmem | hmem
      · rw [hold c' hmem hroot hnone] at hf
        cases hf
      · rw [← List.mem_singleton.1 hmem, hnone] at hrev
        cases hrev

/-- A run in which every statement is executed and generated texts are fresh. -/
def freshEnv (choice : Rows.Choice Certificate) : SyncEnv :=
  { SyncEnv.quiet 0 GoStrings.freshText with choice := choice }

theorem syncRevokedInventory_freshEnv (choice : Rows.Choice Certificate) (text : String) :
    (syncRevokedInventory (freshEnv choice) certs rootCaID issuedByName text).2 = true := by
  have hname : ∀ (s : List Certificate × RevokedSyncStats) (cn : String),
      (syncRevokedName (freshEnv choice) rootCaID issuedByName s cn).isSome := by
    rintro ⟨certs, stats⟩ cn
    rw [syncRevokedName, if_neg (by exact Bool.false_ne_true)]
    cases findCertByCNAndNode (freshEnv choice).choice certs cn none with
    | some c =>
      dsimp only
      rw [if_neg (c := (freshEnv choice).writeFails cn = true) Bool.false_ne_true]
      split_ifs <;> rfl
    | none =>
      dsimp only
      split <;> rfl
  have hloop : ∀ (cns : List String) (s : List Certificate × RevokedSyncStats),
      (syncRevokedNames (freshEnv choice) rootCaID issuedByName s cns).2 = true := by
    intro cns
    induction cns with
    | nil => exact fun _ => rfl
    | cons cn cns ih =>
      intro s
      obtain ⟨s', hs'⟩ := Option.isSome_iff_exists.1 (hname s cn)
      rw [syncRevokedNames, hs']
      exact ih s'
  rw [syncRevokedInventory]
  split_ifs
  · rfl
  · exact hloop _ _

/-- No row is refused in such a run. -/
theorem syncWrite_freshEnv {choice : Rows.Choice Certificate} {table : List Certificate}
    (huniq : UniqueCerts table) {row : Certificate} (cn : String)
    (hid : row.id = GoStrings.freshText (table.map (·.id)))
    (hserial : row.serialNumber = GoStrings.freshText (table.map (·.serialNumber))) :
    syncWrite (freshEnv choice) cn (table ++ [row]) = some (table ++ [row]) := by
  have huniq' : UniqueCerts (table ++ [row]) :=
    ⟨huniq.1.append_singleton (hid ▸ GoStrings.freshText_not_mem _),
      huniq.2.append_singleton (hserial ▸ GoStrings.freshText_not_mem _)⟩
  exact Panel.storeCerts_eq_some.2 ⟨huniq', rfl⟩

/-- **When a revoke list revokes what it lists**, whichever of several rows with one name is found
and whichever statements fail, as long as the run ends. A line with a status other than `R` revokes
a row too, so a text with such lines has to leave nothing for them to do. -/
theorem revokesListed_iff (huniq : UniqueCerts certs) (text : String) :
    (∀ env : SyncEnv, (syncRevokedInventory env certs rootCaID issuedByName text).2 = true →
      RevokesListed certs (syncRevokedInventory env certs rootCaID issuedByName text).1.1 rootCaID
        text) ↔
    ListTold certs rootCaID text := by
  refine ⟨fun h => ?_, fun htold env hrun => htold.revokesListed huniq hrun⟩
  -- what a fresh run does to the rows of a name, and what it is to do
  have hfresh (choice : Rows.Choice Certificate) :=
    h (freshEnv choice) (syncRevokedInventory_freshEnv _ _)
  have hrows (choice : Rows.Choice Certificate) :=
    (@syncRevokedInventory_rowsOf (freshEnv choice) certs
    rootCaID issuedByName huniq text (syncRevokedInventory_freshEnv choice text)).2
  have hprefer {d : Certificate} {cn : String} (hd : d ∈ certs) (hcn : d.commonName = cn)
      (hnode : d.agentNodeId = none) :
      findCertByCNAndNode (freshEnv (.preferring d)).choice certs cn none = some d :=
    Rows.Choice.select_preferring hd (decide_eq_true ⟨hcn, hnode⟩)
  refine ⟨fun p hp hnot => ⟨?_, fun c hc hcn hnode => ?_⟩,
    fun c hc hlisted hroot hrev d hd hdcn hdnode => ?_⟩
  · -- else a row is created for the name
    by_contra hno
    have hnone : findCertByCNAndNode (freshEnv .first).choice certs p.cn none = none :=
      findCert_eq_none.2 fun c hc h => hno ⟨c, hc, h⟩
    generalize hafter : rowsOf p.cn
      (syncRevokedInventory (freshEnv .first) certs rootCaID issuedByName text).1.1 = rows
    have hchange := hrows .first p hp
    rw [hafter] at hchange
    cases hchange with
    | skipped hf _ => cases hnone.symm.trans hf
    | revoked hf _ _ => cases hnone.symm.trans hf
    | refused _ huniq' hw => cases (syncWrite_freshEnv huniq' p.cn rfl rfl).symm.trans hw
    | @created row _ hcn hrev hid =>
      have hmem : row ∈
          rowsOf p.cn (syncRevokedInventory (freshEnv .first) certs rootCaID issuedByName
          text).1.1 := by
        rw [hafter]
        exact List.mem_append_right _ List.mem_cons_self
      rcases (hfresh .first).named row (mem_rowsOf.1 hmem).1 hrev with ⟨c, hc, hcid, -⟩ | hlisted
      · exact hid (hcid ▸ List.mem_map_of_mem hc)
      · exact hnot (hcn ▸ hlisted)
  · -- else the row is revoked when it is found
    by_contra hvalid
    obtain ⟨hroot, hrev⟩ := not_or.1 hvalid
    rcases (hrows (.preferring c) p hp).of_some (hprefer hc hcn hnode) with ⟨-,
      hwhy⟩ | ⟨hafter, -, -⟩
    · exact hvalid hwhy
    · have hmem : revokeRow (freshEnv (.preferring c)).now importedReason c ∈ rowsOf p.cn
          (syncRevokedInventory (freshEnv (.preferring c)) certs rootCaID
            issuedByName text).1.1 := by
        rw [hafter]
        exact Rows.mem_updateWhere_of (mem_rowsOf.2 ⟨hc, hcn⟩) (by simp)
      obtain ⟨hmem, hname⟩ := mem_rowsOf.1 hmem
      rcases (hfresh (.preferring c)).named _ hmem rfl with ⟨d, hd, hid, hdrev⟩ | hlisted
      · rw [huniq.1.eq_of_key hd hc hid] at hdrev
        exact hrev hdrev
      · exact hnot (hname ▸ hlisted)
  · -- else the row stays valid when the other one is found
    by_contra hne
    obtain ⟨p, hp, hcn, -⟩ := id hlisted
    have hrow : c ∈ rowsOf p.cn certs := mem_rowsOf.2 ⟨hc, hcn.symm⟩
    have hafter : c ∈ rowsOf p.cn (syncRevokedInventory (freshEnv (.preferring d)) certs rootCaID
        issuedByName text).1.1 := by
      rcases (hrows (.preferring d) p hp).of_some (hprefer hd (hdcn.trans hcn.symm) hdnode) with
        ⟨hafter, -⟩ | ⟨hafter, -, -⟩
      · rwa [hafter]
      · rw [hafter]
        refine Rows.mem_updateWhere_of_not hrow (decide_eq_false fun hid => hne ?_)
        exact (huniq.1.eq_of_key hc hd hid).symm
    have hsome := (hfresh (.preferring d)).every c (mem_rowsOf.1 hafter).1 hroot hlisted
    rw [hrev] at hsome
    cases hsome

/-- A list with the names of one of two rows and of none. -/
theorem revokesListed_iff_bob :
    (∀ env : SyncEnv, (syncRevokedInventory env [crlRow "1" "A", crlRow "2" "B"] "ca" "CA"
        "cn-2\nbob\n").2 = true →
      RevokesListed [crlRow "1" "A", crlRow "2" "B"]
        (syncRevokedInventory env [crlRow "1" "A", crlRow "2" "B"] "ca" "CA" "cn-2\nbob\n").1.1 "ca"
          "cn-2\nbob\n") ↔
    ListTold [crlRow "1" "A", crlRow "2" "B"] "ca" "cn-2\nbob\n" :=
  revokesListed_iff (by decide) "cn-2\nbob\n"

/-- The valid entry of a complete index revokes the row of its name. -/
theorem valid_entry_revokes : ¬∀ (env : SyncEnv) (certs : List Certificate)
    (rootCaID issuedByName text : String), UniqueCerts certs →
      (syncRevokedInventory env certs rootCaID issuedByName text).2 = true →
      RevokesListed certs (syncRevokedInventory env certs rootCaID issuedByName text).1.1 rootCaID
        text := by
  intro h
  have hnamed := (h (freshEnv .first) [crlRow "1" "A"] "ca" "CA"
    "V\t300101000000Z\t\t0A\tunknown\t/CN=cn-1" (by decide)
    (syncRevokedInventory_freshEnv .first _)).named (revokeRow 0 importedReason (crlRow "1" "A"))
    (by decide +kernel) rfl
  rcases hnamed with ⟨c, hc, -, hrev⟩ | ⟨p, hp, -, hstatus⟩
  · rw [List.mem_singleton.1 hc] at hrev
    cases hrev
  · have hlines : inventoryLines "V\t300101000000Z\t\t0A\tunknown\t/CN=cn-1" =
        [⟨some .valid, "cn-1"⟩] := by decide +kernel
    rw [hlines, List.mem_singleton] at hp
    rw [hp] at hstatus
    rcases hstatus with hstatus | hstatus
    · cases hstatus
    · cases hstatus

end OpenvpnControl.Cert
