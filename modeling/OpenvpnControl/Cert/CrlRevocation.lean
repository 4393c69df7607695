import OpenvpnControl.Cert.Inventory
import OpenvpnControl.Cert.Serials

/-!
# What a revocation list revokes

`SyncRevokedFromCRL` looks for each serial number of a revocation list among the node-less rows of a
root, by the normal form of their serial numbers. A row has that form for a number when its digits
are those of the number, whatever else its serial number holds, and the look-up keeps one row of
each form.

## Main definitions

* `hexNumber`: the number a serial number is written for.
* `RevokesNamed`: a run that revokes exactly the rows the list names, and counts all of its entries.
* `CrlTold`: the tables and lists on which every run does.

## Main results

* `syncRevokedSerials_eq`: the table and the counters after the loop.
* `revokesNamed_iff`: every run revokes what the list names exactly on those tables and lists.
-/

namespace OpenvpnControl.Cert

open Panel (Certificate UniqueCerts)

/-! ### The number of a row -/

/-- The number of a serial number that is written in hexadecimal, with an optional prefix and
colons. -/
def hexNumber (serial : String) : Option ℕ :=
  let body := if GoStrings.hasPrefix serial "0x" ∨ GoStrings.hasPrefix serial "0X" then
    serial.toList.drop 2 else serial.toList
  let digits := body.filterMap hexValue
  if digits ≠ [] ∧ ∀ c ∈ body, c = ':' ∨ (hexValue c).isSome then
    some (Nat.ofDigits 16 digits.reverse)
  else none

/-- A number in hexadecimal has the number as its normal form. -/
theorem normalizeSerialHex_of_hexNumber {serial : String} {n : ℕ} (h : hexNumber serial = some n) :
    normalizeSerialHex serial = upperHex n := by
  -- it is a written serial number without white space
  obtain ⟨start, body, hstart, htext, hbody⟩ : ∃ (start : String) (body : List Char),
      start ∈ ["", "0x", "0X"] ∧ serial.toList = start.toList ++ body ∧
      (body.filterMap hexValue ≠ [] ∧ ∀ c ∈ body, c = ':' ∨ (hexValue c).isSome) ∧
      Nat.ofDigits 16 (body.filterMap hexValue).reverse = n := by
    have hdrop {pre : String} (hlen : pre.toList.length = 2)
        (hpre : GoStrings.hasPrefix serial pre = true) :
        serial.toList = pre.toList ++ serial.toList.drop 2 := by
      obtain ⟨rest, hrest⟩ := List.isPrefixOf_iff_prefix.1 hpre
      rw [← hrest, ← hlen, List.drop_left]
    simp only [hexNumber] at h
    split_ifs at h with hpre hok hok
    · rcases hpre with hpre | hpre
      · exact ⟨"0x", _, by decide, hdrop rfl hpre, hok, Option.some.inj h⟩
      · exact ⟨"0X", _, by decide, hdrop rfl hpre, hok, Option.some.inj h⟩
    · exact ⟨"", _, by decide, rfl, hok, Option.some.inj h⟩
  obtain ⟨⟨hne, hchars⟩, hn⟩ := hbody
  obtain ⟨v, hv⟩ := List.exists_mem_of_ne_nil _ hne
  obtain ⟨c, hc, hcv⟩ := List.mem_filterMap.1 hv
  let t : SerialText :=
    { before := []
      start := start
      body := body
      after := []
      space := by simp
      start_mem := hstart
      chars := hchars
      digit := ⟨c, hc, Option.isSome_iff_exists.2 ⟨v, hcv⟩⟩ }
  have hserial : t.text = serial := by
    rw [← String.ofList_toList (s := serial), htext, SerialText.text, List.nil_append,
      List.append_nil]
  rw [← hserial, t.normalize, ← hn]
  rfl

/-- A node-less row of the root. -/
def NodelessOf (rootCaID : String) (c : Certificate) : Prop :=
  c.rootCaId = some rootCaID ∧ c.agentNodeId = none

instance (rootCaID : String) (c : Certificate) : Decidable (NodelessOf rootCaID c) :=
  inferInstanceAs (Decidable (_ ∧ _))

/-- A node-less row of the root whose serial number has the digits of the number. -/
def TakenFor (rootCaID : String) (n : ℕ) (c : Certificate) : Prop :=
  NodelessOf rootCaID c ∧ normalizeSerialHex c.serialNumber = upperHex n

theorem takenFor_of_hexNumber {rootCaID : String} {n : ℕ} {c : Certificate}
    (hc : NodelessOf rootCaID c) (h : hexNumber c.serialNumber = some n) : TakenFor rootCaID n c :=
  ⟨hc, normalizeSerialHex_of_hexNumber h⟩

variable {env : SyncEnv} {certs : List Certificate} {rootCaID : String}

theorem takenFor_of_findBySerial {n : ℕ} {c : Certificate}
    (h : findBySerial env certs rootCaID (upperHex n) = some c) : c ∈ certs ∧
    TakenFor rootCaID n c := by
  obtain ⟨hc, hp⟩ := Rows.Choice.mem_of_select h
  obtain ⟨hroot, hnode, hserial⟩ := of_decide_eq_true hp
  exact ⟨hc, ⟨hroot, hnode⟩, hserial⟩

theorem findBySerial_eq_none {n : ℕ} :
    findBySerial env certs rootCaID (upperHex n) = none ↔ ∀ c ∈ certs, ¬TakenFor rootCaID n c := by
  rw [findBySerial, Rows.Choice.select_eq_none]
  refine forall₂_congr fun c _ => ?_
  rw [decide_eq_false_iff_not, TakenFor, NodelessOf, and_assoc]

/-- The row that is the only one taken for a number is found. -/
theorem findBySerial_of_only {n : ℕ} {c : Certificate} (hc : c ∈ certs) (ht : TakenFor rootCaID n c)
    (honly : ∀ d ∈ certs, TakenFor rootCaID n d → d = c) :
    findBySerial env certs rootCaID (upperHex n) = some c := by
  refine Rows.Choice.select_of_unique hc (decide_eq_true ⟨ht.1.1, ht.1.2, ht.2⟩) fun d hd hp => ?_
  obtain ⟨hroot, hnode, hserial⟩ := of_decide_eq_true hp
  exact honly d hd ⟨⟨hroot, hnode⟩, hserial⟩

/-! ### The loop -/

/-- The row of a serial number, where the list revokes it now. -/
def rowRevoked (env : SyncEnv) (read : List Certificate) (rootCaID serial : String) :
    Option Certificate :=
  (findBySerial env read rootCaID serial).filter fun d => d.revokedAt.isNone

theorem any_rowRevoked_iff {read : List Certificate} {serial id : String} :
    (rowRevoked env read rootCaID serial).any (fun d => d.id = id) = true ↔
      ∃ d, findBySerial env read rootCaID serial = some d ∧ d.revokedAt = none ∧ d.id = id := by
  rw [rowRevoked]
  cases findBySerial env read rootCaID serial with
  | none => simp
  | some d => by_cases hd : d.revokedAt = none <;> simp [Option.filter_some, hd]

/-- One of the serial numbers revokes the row now. -/
def revokedByOne (env : SyncEnv) (read : List Certificate) (rootCaID : String)
    (serials : List String) (c : Certificate) : Bool :=
  serials.any fun serial => (rowRevoked env read rootCaID serial).any fun d => d.id = c.id

theorem revokedByOne_cons_of_none {read : List Certificate} {serial : String}
    (serials : List String) (h : rowRevoked env read rootCaID serial = none) :
    revokedByOne env read rootCaID (serial :: serials) =
    revokedByOne env read rootCaID serials := by
  funext c
  rw [revokedByOne, List.any_cons, h, Option.any_none, Bool.false_or, revokedByOne]

theorem revokedByOne_cons_of_some {read : List Certificate} {serial : String}
    (serials : List String) {d : Certificate} (h : rowRevoked env read rootCaID serial = some d) :
    revokedByOne env read rootCaID (serial :: serials) = fun c =>
      revokedByOne env read rootCaID serials c || decide (c.id = d.id) := by
  funext c
  have hid : decide (d.id = c.id) = decide (c.id = d.id) := decide_eq_decide.2 eq_comm
  rw [revokedByOne, List.any_cons, h, Option.any_some, hid, Bool.or_comm, revokedByOne]

/-- **The loop over a revocation list**, when it runs to its end. -/
theorem syncRevokedSerials_eq (read : List Certificate) (serials : List String) :
    ∀ (certs : List Certificate) (stats : RevokedCrlSyncStats),
      (syncRevokedSerials env rootCaID read (certs, stats) serials).2 = true →
      (syncRevokedSerials env rootCaID read (certs, stats) serials).1 =
        (Rows.updateWhere (revokedByOne env read rootCaID serials)
            (revokeRow env.now "CRL (crl.pem)") certs,
          ⟨stats.revoked + serials.countP fun s => (rowRevoked env read rootCaID s).isSome,
            stats.skipped,
            stats.notInDb + serials.countP fun s =>
            (findBySerial env read rootCaID s).isNone⟩) := by
  induction serials with
  | nil =>
    intro certs stats _
    have hnone : Rows.updateWhere (revokedByOne env read rootCaID [])
        (revokeRow env.now "CRL (crl.pem)") certs = certs := Rows.updateWhere_eq_self fun _ _ => rfl
    rw [hnone]
    rfl
  | cons serial serials ih =>
    intro certs stats h
    rw [syncRevokedSerials] at h ⊢
    cases hfind : findBySerial env read rootCaID serial with
    | none =>
      have hrow : rowRevoked env read rootCaID serial = none := by rw [rowRevoked, hfind]; rfl
      rw [hfind] at h
      dsimp only at h ⊢
      rw [ih _ _ h, revokedByOne_cons_of_none serials hrow,
        List.countP_cons_of_neg (by simp [hrow]), List.countP_cons_of_pos (by simp [hfind]),
        Nat.add_right_comm, Nat.add_assoc stats.notInDb]
    | some existing =>
      rw [hfind] at h
      dsimp only at h ⊢
      by_cases hrev : existing.revokedAt = none
      · have hrow : rowRevoked env read rootCaID serial = some existing := by
          rw [rowRevoked, hfind, Option.filter_some, hrev]
          rfl
        have hsome : ¬existing.revokedAt.isSome = true := by simp [hrev]
        rw [if_neg hsome] at h ⊢
        split_ifs at h ⊢
        have hcompose : Rows.updateWhere (revokedByOne env read rootCaID serials)
            (revokeRow env.now "CRL (crl.pem)") (Rows.updateWhere (fun c => c.id = existing.id)
              (revokeRow env.now "CRL (crl.pem)") certs) =
            Rows.updateWhere (fun c => revokedByOne env read rootCaID serials c ||
              decide (c.id = existing.id)) (revokeRow env.now "CRL (crl.pem)") certs :=
          Rows.updateWhere_updateWhere (fun _ => rfl) fun _ => rfl
        rw [ih _ _ h, hcompose, revokedByOne_cons_of_some serials hrow,
          List.countP_cons_of_pos (by simp [hrow]), List.countP_cons_of_neg (by simp [hfind]),
          Nat.add_right_comm, Nat.add_assoc stats.revoked]
      · have hrow : rowRevoked env read rootCaID serial = none := by
          rw [rowRevoked, hfind, Option.filter_some, if_neg (by simpa using hrev)]
        rw [if_pos (Option.isSome_iff_ne_none.2 hrev)] at h ⊢
        rw [ih _ _ h, revokedByOne_cons_of_none serials hrow,
          List.countP_cons_of_neg (by simp [hrow]), List.countP_cons_of_neg (by simp [hfind])]

/-! ### A run -/

variable {x : X509} {pemText : String} {crl : List ℕ}

/-- The serial numbers of a revocation list, as they are looked for. -/
theorem revokedSerialSet_perm
    (hcrl : x.parseRevocationList (GoStrings.trimSpace pemText) = some (crl.map Nat.cast)) :
    ∃ serials, revokedSerialSetFromCRL x pemText = some serials ∧
      serials.Perm ((crl.dedup.filter fun n => n ≠ 0).map upperHex) := by
  rw [revokedSerialSetFromCRL, hcrl]
  refine ⟨_, rfl, (List.perm_ext_iff_of_nodup (List.nodup_dedup _) ?_).2 fun s => ?_⟩
  · exact (List.Nodup.filter _ (List.nodup_dedup _)).map fun m n h => upperHex_inj.1 h
  · simp only [List.mem_dedup, List.mem_filter, List.mem_map, decide_eq_true_eq,
      exists_exists_and_eq_and]
    constructor
    · rintro ⟨⟨n, hn, rfl⟩, hne⟩
      have hzero : n ≠ 0 := by
        rintro rfl
        exact hne normalizeSerialHex_serialHexBigInt_zero
      exact ⟨n, ⟨hn, hzero⟩, (normalizeSerialHex_serialHexBigInt hzero).symm⟩
    · rintro ⟨n, ⟨hn, hzero⟩, rfl⟩
      exact ⟨⟨n, hn, normalizeSerialHex_serialHexBigInt hzero⟩, upperHex_ne_empty n⟩

/-- A serial number of the list is counted as revoked or as not in the database. -/
def counted (env : SyncEnv) (certs : List Certificate) (rootCaID : String) (n : ℕ) : Bool :=
  decide (n ≠ 0) &&
    (findBySerial env certs rootCaID (upperHex n)).all fun d => d.revokedAt.isNone

/-- **A run that ends without an error.** -/
theorem syncRevokedFromCRL_spec
    (hcrl : x.parseRevocationList (GoStrings.trimSpace pemText) = some (crl.map Nat.cast))
    (h : (syncRevokedFromCRL x env certs rootCaID pemText).2 = true) :
    (∃ revokes : Certificate → Bool,
      (syncRevokedFromCRL x env certs rootCaID pemText).1.1 =
        Rows.updateWhere revokes (revokeRow env.now "CRL (crl.pem)") certs ∧
      ∀ c, revokes c = true ↔ ∃ n ∈ crl, n ≠ 0 ∧
        ∃ d, findBySerial env certs rootCaID (upperHex n) = some d ∧ d.revokedAt = none ∧
          d.id = c.id) ∧
    (syncRevokedFromCRL x env certs rootCaID pemText).1.2.revoked +
        (syncRevokedFromCRL x env certs rootCaID pemText).1.2.notInDb =
      crl.dedup.countP (counted env certs rootCaID) := by
  obtain ⟨serials, hset, hperm⟩ := revokedSerialSet_perm hcrl
  have hperm' := (env.serialOrder_perm serials).trans hperm
  rw [syncRevokedFromCRL, hset] at h ⊢
  dsimp only at h ⊢
  rw [syncRevokedSerials_eq certs _ certs _ h]
  refine ⟨⟨_, rfl, fun c => ?_⟩, ?_⟩
  · rw [revokedByOne, List.any_eq_true]
    simp only [any_rowRevoked_iff]
    constructor
    · rintro ⟨s, hs, hrow⟩
      obtain ⟨n, hn, rfl⟩ := List.mem_map.1 (hperm'.mem_iff.1 hs)
      obtain ⟨hn, hzero⟩ := List.mem_filter.1 hn
      exact ⟨n, List.mem_dedup.1 hn, of_decide_eq_true hzero, hrow⟩
    · rintro ⟨n, hn, hzero, hrow⟩
      have hmem : n ∈ crl.dedup.filter fun n => n ≠ 0 :=
        List.mem_filter.2 ⟨List.mem_dedup.2 hn, decide_eq_true hzero⟩
      exact ⟨upperHex n, hperm'.mem_iff.2 (List.mem_map_of_mem hmem), hrow⟩
  · have heither : ∀ s, ((rowRevoked env certs rootCaID s).isSome ||
        (findBySerial env certs rootCaID s).isNone) =
        (findBySerial env certs rootCaID s).all fun d => d.revokedAt.isNone := by
      intro s
      rw [rowRevoked]
      cases findBySerial env certs rootCaID s with
      | none => rfl
      | some d => cases hd : d.revokedAt <;> simp [Option.filter_some, hd]
    have hdisjoint : ∀ s ∈ env.serialOrder serials,
        ¬((rowRevoked env certs rootCaID s).isSome = true ∧
        (findBySerial env certs rootCaID s).isNone = true) := by
      rintro s - ⟨hrow, hnone⟩
      rw [rowRevoked, Option.isNone_iff_eq_none.1 hnone] at hrow
      cases hrow
    dsimp only
    rw [Nat.zero_add, Nat.zero_add, Rows.countP_add_countP hdisjoint]
    simp only [heither]
    rw [hperm'.countP_eq, List.countP_map, List.countP_filter]
    refine List.countP_congr fun n _ => ?_
    rw [counted, Function.comp_apply, Bool.and_comm]

/-! ### What is revoked -/

/-- The entries of the list whose row was revoked before. -/
def alreadyRevoked (certs : List Certificate) (rootCaID : String) (crl : List ℕ) : ℕ :=
  crl.dedup.countP fun n => decide (∃ c ∈ certs,
    (NodelessOf rootCaID c ∧ c.revokedAt.isSome) ∧ hexNumber c.serialNumber = some n)

/-- A run that revokes the rows that the list names, and no others, and accounts for every entry. -/
structure RevokesNamed (certs after : List Certificate) (stats : RevokedCrlSyncStats)
    (rootCaID : String) (crl : List ℕ) : Prop where
  named : ∀ c ∈ certs, NodelessOf rootCaID c → c.revokedAt = none →
    ((∃ d ∈ after, d.id = c.id ∧ d.revokedAt.isSome) ↔ ∃ n ∈ crl, hexNumber c.serialNumber = some n)
  kept : ∀ c ∈ certs, c.revokedAt.isSome →
    ∃ d ∈ after, d.id = c.id ∧ d.revokedAt = c.revokedAt ∧ d.revokedReason = c.revokedReason
  counted : stats.revoked + stats.notInDb + alreadyRevoked certs rootCaID crl = crl.dedup.length

/-- The rows tell whether the number of an entry is theirs. -/
structure SerialTold (certs : List Certificate) (rootCaID : String) (n : ℕ) : Prop where
  /-- For zero there is a row, and it is revoked already. -/
  zero : n = 0 → (∃ c ∈ certs, NodelessOf rootCaID c ∧ hexNumber c.serialNumber = some 0) ∧
    ∀ c ∈ certs, NodelessOf rootCaID c → hexNumber c.serialNumber = some 0 → c.revokedAt.isSome
  /-- Where rows are taken for the number, one is written for it. -/
  written : n ≠ 0 → (∃ c ∈ certs, TakenFor rootCaID n c) →
    ∃ c ∈ certs, TakenFor rootCaID n c ∧ (hexNumber c.serialNumber).isSome
  /-- A row taken for the number that is not revoked is written for it, and is the only one. -/
  only : n ≠ 0 → ∀ c ∈ certs, TakenFor rootCaID n c → c.revokedAt = none →
    (hexNumber c.serialNumber).isSome ∧ ∀ d ∈ certs, TakenFor rootCaID n d → d = c

/-- The tables and lists on which every run revokes what the list names. -/
def CrlTold (certs : List Certificate) (rootCaID : String) (crl : List ℕ) : Prop :=
  ∀ n ∈ crl, SerialTold certs rootCaID n

/-- A hexadecimal row that is taken for a number is written for it. -/
theorem TakenFor.hexNumber_eq {n : ℕ} {c : Certificate} (h : TakenFor rootCaID n c)
    (hhex : (hexNumber c.serialNumber).isSome) : hexNumber c.serialNumber = some n := by
  obtain ⟨m, hm⟩ := Option.isSome_iff_exists.1 hhex
  rw [hm, upperHex_inj.1 ((normalizeSerialHex_of_hexNumber hm).symm.trans h.2)]

theorem TakenFor.unique {m n : ℕ} {c : Certificate} (hm : TakenFor rootCaID m c)
    (hn : TakenFor rootCaID n c) : m = n :=
  upperHex_inj.1 (hm.2.symm.trans hn.2)

/-- A row is revoked by a run when it is found for an entry. -/
theorem revoked_after_iff (huniq : UniqueCerts certs)
    (hcrl : x.parseRevocationList (GoStrings.trimSpace pemText) = some (crl.map Nat.cast))
    (h : (syncRevokedFromCRL x env certs rootCaID pemText).2 = true) {c : Certificate}
    (hc : c ∈ certs) (hrev : c.revokedAt = none) :
    (∃ d ∈ (syncRevokedFromCRL x env certs rootCaID pemText).1.1,
      d.id = c.id ∧ d.revokedAt.isSome) ↔
      ∃ n ∈ crl, n ≠ 0 ∧ findBySerial env certs rootCaID (upperHex n) = some c := by
  obtain ⟨⟨revokes, hafter, hrevokes⟩, -⟩ := syncRevokedFromCRL_spec hcrl h
  rw [hafter]
  constructor
  · rintro ⟨d, hd, hid, hdrev⟩
    rcases Rows.mem_updateWhere.1 hd with ⟨hd, -⟩ | ⟨c', hc', hby, rfl⟩
    · obtain rfl := huniq.1.eq_of_key hd hc hid
      rw [hrev] at hdrev
      cases hdrev
    · obtain rfl := huniq.1.eq_of_key hc' hc hid
      obtain ⟨n, hn, hzero, e, hfind, -, heid⟩ := (hrevokes c').1 hby
      have he := huniq.1.eq_of_key (takenFor_of_findBySerial hfind).1 hc heid
      exact ⟨n, hn, hzero, he ▸ hfind⟩
  · rintro ⟨n, hn, hzero, hfind⟩
    exact ⟨_, Rows.mem_updateWhere_of hc ((hrevokes c).2 ⟨n, hn, hzero, c, hfind, hrev, rfl⟩), rfl,
      rfl⟩

/-- A run leaves the revoked rows alone. -/
theorem revoked_kept (huniq : UniqueCerts certs)
    (hcrl : x.parseRevocationList (GoStrings.trimSpace pemText) = some (crl.map Nat.cast))
    (h : (syncRevokedFromCRL x env certs rootCaID pemText).2 = true) {c : Certificate}
    (hc : c ∈ certs) (hrev : c.revokedAt.isSome) :
    c ∈ (syncRevokedFromCRL x env certs rootCaID pemText).1.1 := by
  obtain ⟨⟨revokes, hafter, hrevokes⟩, -⟩ := syncRevokedFromCRL_spec hcrl h
  rw [hafter]
  refine Rows.mem_updateWhere_of_not hc ?_
  rw [← Bool.not_eq_true, hrevokes]
  rintro ⟨n, -, -, d, hfind, hdrev, hid⟩
  obtain rfl := huniq.1.eq_of_key (takenFor_of_findBySerial hfind).1 hc hid
  rw [hdrev] at hrev
  cases hrev

/-- An unrevoked row taken for an entry is the only one. -/
def OnlyRow (certs : List Certificate) (rootCaID : String) (crl : List ℕ) : Prop :=
  ∀ n ∈ crl, n ≠ 0 → ∀ c ∈ certs, TakenFor rootCaID n c → c.revokedAt = none →
    ∀ d ∈ certs, TakenFor rootCaID n d → d = c

/-- Where unrevoked rows are the only ones, the counters add up when each entry is counted or was
revoked before. -/
theorem counted_iff (honly : OnlyRow certs rootCaID crl)
    (hcrl : x.parseRevocationList (GoStrings.trimSpace pemText) = some (crl.map Nat.cast))
    (h : (syncRevokedFromCRL x env certs rootCaID pemText).2 = true) :
    (syncRevokedFromCRL x env certs rootCaID pemText).1.2.revoked +
          (syncRevokedFromCRL x env certs rootCaID pemText).1.2.notInDb +
        alreadyRevoked certs rootCaID crl = crl.dedup.length ↔
      ∀ n ∈ crl, (n ≠ 0 ∧ ∀ d, findBySerial env certs rootCaID (upperHex n) =
        some d → d.revokedAt = none) ∨ ∃ c ∈ certs, (NodelessOf rootCaID c ∧ c.revokedAt.isSome) ∧
        hexNumber c.serialNumber = some n := by
  have hcounted : ∀ n, counted env certs rootCaID n = true ↔
      n ≠ 0 ∧ ∀ d, findBySerial env certs rootCaID (upperHex n) = some d → d.revokedAt = none := by
    intro n
    rw [counted, Bool.and_eq_true, decide_eq_true_eq]
    cases findBySerial env certs rootCaID (upperHex n) <;> simp
  rw [(syncRevokedFromCRL_spec hcrl h).2, alreadyRevoked, Rows.countP_add_countP_eq_length_iff]
  · refine forall_congr' fun n => ?_
    rw [List.mem_dedup, hcounted, decide_eq_true_eq]
  · rintro n hn ⟨hcount, halready⟩
    obtain ⟨hzero, hfound⟩ := (hcounted n).1 hcount
    obtain ⟨c, hc, ⟨hroot, hrev⟩, hnum⟩ := of_decide_eq_true halready
    have htaken := takenFor_of_hexNumber hroot hnum
    cases hfind : findBySerial env certs rootCaID (upperHex n) with
    | none => exact findBySerial_eq_none.1 hfind c hc htaken
    | some d =>
      obtain ⟨hd, hdtaken⟩ := takenFor_of_findBySerial hfind
      have hcd := honly n (List.mem_dedup.1 hn) hzero d hd hdtaken (hfound d hfind) c hc htaken
      rw [hcd, hfound d hfind] at hrev
      cases hrev

theorem CrlTold.onlyRow (h : CrlTold certs rootCaID crl) : OnlyRow certs rootCaID crl :=
  fun n hn hzero c hc ht hrev => ((h n hn).only hzero c hc ht hrev).2

/-- A run on a table and a list that are told apart. -/
theorem CrlTold.revokesNamed (htold : CrlTold certs rootCaID crl) (huniq : UniqueCerts certs)
    (hcrl : x.parseRevocationList (GoStrings.trimSpace pemText) = some (crl.map Nat.cast))
    (h : (syncRevokedFromCRL x env certs rootCaID pemText).2 = true) :
    RevokesNamed certs (syncRevokedFromCRL x env certs rootCaID pemText).1.1
      (syncRevokedFromCRL x env certs rootCaID pemText).1.2 rootCaID crl where
  named c hc hroot hrev := by
    rw [revoked_after_iff huniq hcrl h hc hrev]
    constructor
    · rintro ⟨n, hn, hzero, hfind⟩
      have htaken := (takenFor_of_findBySerial hfind).2
      exact ⟨n, hn, htaken.hexNumber_eq ((htold n hn).only hzero c hc htaken hrev).1⟩
    · rintro ⟨n, hn, hnum⟩
      have hzero : n ≠ 0 := by
        rintro rfl
        have hsome := ((htold 0 hn).zero rfl).2 c hc hroot hnum
        rw [hrev] at hsome
        cases hsome
      have htaken := takenFor_of_hexNumber hroot hnum
      exact ⟨n, hn, hzero, findBySerial_of_only hc htaken
        ((htold n hn).only hzero c hc htaken hrev).2⟩
  kept c hc hrev := ⟨c, revoked_kept huniq hcrl h hc hrev, rfl, rfl, rfl⟩
  counted := by
    rw [counted_iff htold.onlyRow hcrl h]
    intro n hn
    by_cases hzero : n = 0
    · subst hzero
      obtain ⟨⟨c, hc, hroot, hnum⟩, hall⟩ := (htold 0 hn).zero rfl
      exact .inr ⟨c, hc, ⟨hroot, hall c hc hroot hnum⟩, hnum⟩
    · by_cases hfound : ∀ d, findBySerial env certs rootCaID (upperHex n) =
        some d → d.revokedAt = none
      · exact .inl ⟨hzero, hfound⟩
      · -- the row found is revoked, and so is one written for the number
        push Not at hfound
        obtain ⟨d, hfind, hdrev⟩ := hfound
        obtain ⟨hd, hdtaken⟩ := takenFor_of_findBySerial hfind
        obtain ⟨c, hc, htaken, hhex⟩ := (htold n hn).written hzero ⟨d, hd, hdtaken⟩
        have hrev : c.revokedAt.isSome := by
          rw [Option.isSome_iff_ne_none]
          intro hnone
          rw [((htold n hn).only hzero c hc htaken hnone).2 d hd hdtaken] at hdrev
          exact hdrev hnone
        exact .inr ⟨c, hc, ⟨htaken.1, hrev⟩, htaken.hexNumber_eq hhex⟩

/-- A run in which every statement is executed ends without an error. -/
theorem syncRevokedFromCRL_quiet (hwrite : ∀ s, env.writeFails s = false)
    (hcrl : x.parseRevocationList (GoStrings.trimSpace pemText) = some (crl.map Nat.cast)) :
    (syncRevokedFromCRL x env certs rootCaID pemText).2 = true := by
  have hloop : ∀ (serials : List String) (s : List Certificate × RevokedCrlSyncStats),
      (syncRevokedSerials env rootCaID certs s serials).2 = true := by
    intro serials
    induction serials with
    | nil => exact fun _ => rfl
    | cons serial serials ih =>
      intro s
      rw [syncRevokedSerials, hwrite]
      cases findBySerial env certs rootCaID serial with
      | none => exact ih _
      | some d =>
        dsimp only
        by_cases hrev : d.revokedAt.isSome = true
        · rw [if_pos hrev]
          exact ih _
        · rw [if_neg hrev, if_neg (by decide)]
          exact ih _
  obtain ⟨serials, hset, -⟩ := revokedSerialSet_perm hcrl
  rw [syncRevokedFromCRL, hset]
  exact hloop _ _

/-- A run in which the row is read last of those that are taken for one number. -/
def preferRow (c : Certificate) : SyncEnv :=
  { SyncEnv.quiet 0 fun _ => "" with choice := .preferring c }

theorem findBySerial_preferRow {n : ℕ} {c : Certificate} (hc : c ∈ certs)
    (ht : TakenFor rootCaID n c) :
    findBySerial (preferRow c) certs rootCaID (upperHex n) = some c :=
  Rows.Choice.select_preferring hc (decide_eq_true ⟨ht.1.1, ht.1.2, ht.2⟩)

/-- **When a revocation list revokes what it names.** The rows and the entries may come in any
order, and a statement may fail as long as the run ends. Then every run revokes the rows named and
no others, leaves those that were revoked before, and accounts for every entry, exactly if table and
list are told apart. -/
theorem revokesNamed_iff (huniq : UniqueCerts certs)
    (hcrl : x.parseRevocationList (GoStrings.trimSpace pemText) = some (crl.map Nat.cast)) :
    (∀ env : SyncEnv, (syncRevokedFromCRL x env certs rootCaID pemText).2 = true →
      RevokesNamed certs (syncRevokedFromCRL x env certs rootCaID pemText).1.1
        (syncRevokedFromCRL x env certs rootCaID pemText).1.2 rootCaID crl) ↔
    CrlTold certs rootCaID crl := by
  refine ⟨fun h => ?_, fun htold env hrun => htold.revokesNamed huniq hcrl hrun⟩
  have hrun (c : Certificate) : (syncRevokedFromCRL x (preferRow c) certs rootCaID pemText).2 =
      true :=
    syncRevokedFromCRL_quiet (fun _ => rfl) hcrl
  -- a row is named when it is read last
  have hnamed {n : ℕ} (hn : n ∈ crl) (hzero : n ≠ 0) {c : Certificate} (hc : c ∈ certs)
      (ht : TakenFor rootCaID n c) (hrev : c.revokedAt = none) :
      (∃ m ∈ crl, hexNumber c.serialNumber = some m) ∧ ∀ d ∈ certs,
        TakenFor rootCaID n d → d = c := by
    have hc' := (h _ (hrun c)).named c hc ht.1 hrev
    rw [revoked_after_iff huniq hcrl (hrun c) hc hrev] at hc'
    have hnum := hc'.1 ⟨n, hn, hzero, findBySerial_preferRow hc ht⟩
    refine ⟨hnum, fun d hd hdt => ?_⟩
    -- and also when another row is
    have hd' := (h _ (hrun d)).named c hc ht.1 hrev
    rw [revoked_after_iff huniq hcrl (hrun d) hc hrev] at hd'
    obtain ⟨k, -, -, hfind⟩ := hd'.2 hnum
    rw [(takenFor_of_findBySerial hfind).2.unique ht, findBySerial_preferRow hd hdt] at hfind
    exact Option.some.inj hfind
  have honly : OnlyRow certs rootCaID crl := fun n hn hzero c hc ht hrev =>
    (hnamed hn hzero hc ht hrev).2
  intro n hn
  have hquiet : (syncRevokedFromCRL x (.quiet 0 fun _ => "") certs rootCaID pemText).2 = true :=
    syncRevokedFromCRL_quiet (fun _ => rfl) hcrl
  have hentry := (counted_iff honly hcrl hquiet).1 (h _ hquiet).counted n hn
  refine ⟨?_, ?_, fun hzero c hc ht hrev => ?_⟩
  · rintro rfl
    refine ⟨?_, fun c hc hroot hnum => ?_⟩
    · obtain ⟨c, hc, ⟨hroot, -⟩, hnum⟩ := hentry.resolve_left fun h' => h'.1 rfl
      exact ⟨c, hc, hroot, hnum⟩
    · rw [Option.isSome_iff_ne_none]
      intro hrev
      have hrevoked := ((h _ hquiet).named c hc hroot hrev).2 ⟨0, hn, hnum⟩
      rw [revoked_after_iff huniq hcrl hquiet hc hrev] at hrevoked
      obtain ⟨k, -, hk, hfind⟩ := hrevoked
      exact hk ((takenFor_of_findBySerial hfind).2.unique (takenFor_of_hexNumber hroot hnum))
  · rintro hzero ⟨c, hc, ht⟩
    rcases hentry with ⟨-, hfound⟩ | ⟨d, hd, ⟨hroot, -⟩, hnum⟩
    · cases hfind : findBySerial (.quiet 0 fun _ => "") certs rootCaID (upperHex n) with
      | none => exact absurd ht (findBySerial_eq_none.1 hfind c hc)
      | some d =>
        obtain ⟨hd, hdt⟩ := takenFor_of_findBySerial hfind
        obtain ⟨m, -, hnum⟩ := (hnamed hn hzero hd hdt (hfound d hfind)).1
        exact ⟨d, hd, hdt, Option.isSome_iff_exists.2 ⟨m, hnum⟩⟩
    · exact ⟨d, hd, takenFor_of_hexNumber hroot hnum, Option.isSome_iff_exists.2 ⟨n, hnum⟩⟩
  · obtain ⟨⟨m, -, hnum⟩, hunique⟩ := hnamed hn hzero hc ht hrev
    exact ⟨Option.isSome_iff_exists.2 ⟨m, hnum⟩, hunique⟩

/-- A library that reads one revocation list. -/
def crlX509 (crl : List ℕ) : X509 :=
  { sampleX509 with parseRevocationList := fun _ => some (crl.map Nat.cast) }

/-- A valid row of the root `ca` with a serial number. -/
def crlRow (id serial : String) : Certificate :=
  ⟨id, "cn-" ++ id, serial, "ca", some "ca", none, none, none, none, 1000, 0, none, none⟩

/-- Two rows, one of which the list names. -/
theorem revokesNamed_iff_two :
    (∀ env : SyncEnv,
        (syncRevokedFromCRL (crlX509 [10]) env [crlRow "1" "A", crlRow "2" "0x0B"] "ca"
        "crl").2 = true →
      RevokesNamed [crlRow "1" "A", crlRow "2" "0x0B"]
        (syncRevokedFromCRL (crlX509 [10]) env [crlRow "1" "A", crlRow "2" "0x0B"] "ca" "crl").1.1
        (syncRevokedFromCRL (crlX509 [10]) env [crlRow "1" "A", crlRow "2" "0x0B"] "ca" "crl").1.2
        "ca" [10]) ↔
    CrlTold [crlRow "1" "A", crlRow "2" "0x0B"] "ca" [10] :=
  revokesNamed_iff (by decide) rfl

/-- A list that names the serial number zero does not revoke the row with that number. -/
theorem zero_not_revoked : ¬∀ (x : X509) (env : SyncEnv) (certs : List Certificate)
    (rootCaID pemText : String) (crl : List ℕ), UniqueCerts certs →
      x.parseRevocationList (GoStrings.trimSpace pemText) = some (crl.map Nat.cast) →
      (syncRevokedFromCRL x env certs rootCaID pemText).2 = true →
      RevokesNamed certs (syncRevokedFromCRL x env certs rootCaID pemText).1.1
        (syncRevokedFromCRL x env certs rootCaID pemText).1.2 rootCaID crl := by
  intro h
  have huniq : UniqueCerts [crlRow "1" "0"] := by decide
  have hcrl : (crlX509 [0]).parseRevocationList (GoStrings.trimSpace "crl") =
      some (([0] : List ℕ).map Nat.cast) := rfl
  have hrun : (syncRevokedFromCRL (crlX509 [0]) (.quiet 0 fun _ => "") [crlRow "1" "0"] "ca"
      "crl").2 = true := syncRevokedFromCRL_quiet (fun _ => rfl) hcrl
  have hnamed := (h _ _ _ _ _ _ huniq hcrl hrun).named (crlRow "1" "0") List.mem_cons_self
    (by decide) rfl
  rw [revoked_after_iff huniq hcrl hrun List.mem_cons_self rfl] at hnamed
  obtain ⟨n, hn, hzero, -⟩ := hnamed.2 ⟨0, List.mem_cons_self, by decide⟩
  exact hzero (List.mem_singleton.1 hn)

end OpenvpnControl.Cert
