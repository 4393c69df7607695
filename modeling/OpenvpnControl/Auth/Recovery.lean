import OpenvpnControl.Auth.World

/-!
# Recovery codes

`auth/recovery.go`. A code is sixteen hexadecimal digits, and the table holds its `bcrypt` hash.
`VerifyAndConsumeRecoveryCode` looks for the hash with the rows of its query still open, and pgx
refuses a statement of a transaction whose rows are open. So no code is ever accepted. This file
says when a call does what it is for, and that calls side by side leave the codes alone.

## Main definitions

* `normalizeRecoveryCodeInput`, `formatRecoveryCode`: the texts of a code.
* `replaceRecoveryCodesForAdmin`, `verifyAndConsumeRecoveryCode`: the functions.
* `RecoveryCode.IssuedAs`, `Spells`: the code of a row, and the ways to write it.
* `WorksOnce`: what a call is for.

## Main results

* `alone_verifyAndConsume`: a call accepts nothing and changes nothing.
* `recovery_code_works_iff`: when a call does what it is for, and what any interleaving leaves.
* `issued_code_refused`: a fresh code that is refused.
-/

namespace OpenvpnControl.Auth

/-! ### The texts of a code -/

def normalizeRecoveryCodeInput (raw : String) : String :=
  GoStrings.toLower (GoStrings.replaceChar '-' [] (GoStrings.replaceChar ' ' [] raw))

/-- A hexadecimal digit of `hex.EncodeToString`. -/
def hexDigit (n : ℕ) : Char := if n < 10 then Char.ofNat (48 + n) else Char.ofNat (87 + n)

/-- `hex.EncodeToString` of eight bytes. -/
def hexDigits (bytes : BitVec 64) : List Char :=
  (List.range 16).map fun i => hexDigit (bytes.toNat / 16 ^ (15 - i) % 16)

def formatRecoveryCode (bytes : BitVec 64) : String :=
  let h := hexDigits bytes
  String.ofList (h.take 4 ++ '-' :: ((h.drop 4).take 4 ++ '-' :: ((h.drop 8).take 4 ++ '-' ::
    (h.drop 12).take 4)))

/-! ### The functions -/

variable (crypto : Crypto)

/-- What the random sources give one code: its bytes, the salt of its hash, and the id of its
row. -/
structure CodeSeed where
  bytes : BitVec 64
  salt : String
  id : String
  deriving DecidableEq

/-- The rows that `ReplaceRecoveryCodesForAdmin` inserts; `none` is an error of `bcrypt`. -/
def recoveryRows (adminID : String) (seeds : List CodeSeed) : Option (List RecoveryCode) :=
  seeds.mapM fun seed => do
    let hash ← crypto.generateFromPassword seed.salt
      (normalizeRecoveryCodeInput (formatRecoveryCode seed.bytes))
    some ⟨seed.id, adminID, hash, none⟩

/-- `DELETE` of the codes of an admin and `INSERT` of new ones. -/
def World.replaceCodes (adminID : String) (rows : List RecoveryCode) (w : World) : World :=
  { w with
    recoveryCodes := Rows.deleteWhere (fun r => r.adminId = adminID) w.recoveryCodes ++ rows }

/-- `ReplaceRecoveryCodesForAdmin` in a transaction that `before` starts: the codes, and the effect
of the transaction when it commits. -/
def replaceRecoveryCodesForAdmin (adminID : String) (seeds : List CodeSeed)
    (before : World → World) : Handler (Option (List String)) :=
  match recoveryRows crypto adminID seeds with
  | none => .done none
  | some rows =>
    .stmt (fun w => .replacedCodes adminID (w.admin adminID))
      (fun w => (before w).replaceCodes adminID rows)
      fun _ => .done (some (seeds.map fun seed => formatRecoveryCode seed.bytes))

/-- `tx.Exec`: pgx refuses a statement of a transaction, as busy, while the rows of an earlier query
are open. -/
def txExec (rowsOpen : Bool) (label : World → Label) (write : World → World)
    (affected : World → ℕ) : Handler (Option ℕ) :=
  if rowsOpen then .done none else .stmt label write fun w => .done (some (affected w))

/-- `UPDATE "AdminTotpRecoveryCode" SET "usedAt" = NOW() WHERE id = $1 AND "usedAt" IS NULL`. -/
def World.markUsed (id : String) (w : World) : World :=
  { w with
    recoveryCodes := Rows.updateWhere (fun r => r.id = id && r.usedAt.isNone)
      (fun r => { r with usedAt := some w.now }) w.recoveryCodes }

/-- The rows that statement affects. -/
def World.unusedCount (id : String) (w : World) : ℕ :=
  w.recoveryCodes.countP fun r => r.id = id && r.usedAt.isNone

/-- The loop over the rows of the query, which stay open until the function returns. -/
def scanRecoveryCodes (normalized : String) : List RecoveryCode → Handler Bool
  | [] => .done false
  | row :: rows =>
    if crypto.compareHashAndPassword row.codeHash normalized then do
      let tag ← txExec true (fun w => .recoveryUsed row (w.unusedCount row.id = 1))
        (World.markUsed row.id) (World.unusedCount row.id)
      if tag = some 1 then do
        Request.write (fun _ => .recovery) id
        pure true
      else pure false
    else scanRecoveryCodes normalized rows

/-- `VerifyAndConsumeRecoveryCode`: `Begin`, the query, and the loop. -/
def verifyAndConsumeRecoveryCode (adminID rawCode : String) : Handler Bool :=
  let normalized := normalizeRecoveryCodeInput rawCode
  if normalized.utf8ByteSize < 16 then pure false
  else do
    Request.write (fun _ => .recovery) id
    let rows ← Request.read (fun _ => .recovery) fun w =>
      w.recoveryCodes.filter fun r => r.adminId = adminID && r.usedAt.isNone
    scanRecoveryCodes crypto normalized rows

/-! ### What a call does -/

variable {crypto}

/-- The loop makes no statement, and finds nothing. -/
theorem scanRecoveryCodes_eq (normalized : String) (rows : List RecoveryCode) :
    scanRecoveryCodes crypto normalized rows = .done false := by
  induction rows with
  | nil => rfl
  | cons row rows ih =>
    rw [scanRecoveryCodes, ih]
    -- the update is refused, because the rows are open
    split_ifs <;> rfl

/-- The statements of a call: two that change nothing, or none. -/
theorem verifyAndConsumeRecoveryCode_eq (adminID raw : String) :
    verifyAndConsumeRecoveryCode crypto adminID raw = .done false ∨
      verifyAndConsumeRecoveryCode crypto adminID raw =
        .stmt (fun _ => .recovery) id fun _ => .stmt (fun _ => .recovery) id fun _ =>
        .done false := by
  rw [verifyAndConsumeRecoveryCode]
  split_ifs
  · exact Or.inl rfl
  · right
    simp only [Request.write, Request.read, Request.stmt_bind, Request.done_bind,
      scanRecoveryCodes_eq]

/-- **A call accepts nothing and changes nothing.** -/
theorem alone_verifyAndConsume (adminID raw : String) (w : World) :
    (verifyAndConsumeRecoveryCode crypto adminID raw).alone w = (w, false) := by
  rcases @verifyAndConsumeRecoveryCode_eq crypto adminID raw with h | h <;> rw [h] <;> rfl

/-! ### What a call is for -/

/-- The row holds the hash of the code of these bytes. -/
def RecoveryCode.IssuedAs (crypto : Crypto) (row : RecoveryCode) (bytes : BitVec 64) : Prop :=
  ∃ salt, crypto.generateFromPassword salt
    (normalizeRecoveryCodeInput (formatRecoveryCode bytes)) = some row.codeHash

/-- A text spells a code: in any letter case, with any spaces and dashes. -/
def Spells (raw code : String) : Prop :=
  (raw.toList.filter fun c => c ≠ ' ' ∧ c ≠ '-').map GoStrings.lowerRune =
    (code.toList.filter fun c => c ≠ ' ' ∧ c ≠ '-').map GoStrings.lowerRune

instance (raw code : String) : Decidable (Spells raw code) :=
  inferInstanceAs (Decidable (_ = _))

/-- A call presents the code of a row that is unused. -/
def Presents (crypto : Crypto) (w : World) (adminID raw : String) (row : RecoveryCode) : Prop :=
  row ∈ w.recoveryCodes ∧ row.adminId = adminID ∧ row.usedAt = none ∧
    ∃ bytes, row.IssuedAs crypto bytes ∧ Spells raw (formatRecoveryCode bytes)

/-- **What a call is for**: an unused code is accepted and marked used, and nothing else is accepted
or changes anything. -/
def WorksOnce (crypto : Crypto) (w : World) (adminID raw : String) : Prop :=
  (∀ row, Presents crypto w adminID raw row →
      (verifyAndConsumeRecoveryCode crypto adminID raw).alone w = (w.markUsed row.id, true)) ∧
    ((∀ row, ¬Presents crypto w adminID raw row) →
      (verifyAndConsumeRecoveryCode crypto adminID raw).alone w = (w, false))

/-- `NormalizeRecoveryCodeInput` recognises the spellings of a code. -/
theorem spells_iff {raw code : String} :
    Spells raw code ↔ normalizeRecoveryCodeInput raw = normalizeRecoveryCodeInput code := by
  have hlist (s : String) : (normalizeRecoveryCodeInput s).toList =
      (s.toList.filter fun c => c ≠ ' ' ∧ c ≠ '-').map GoStrings.lowerRune := by
    simp only [normalizeRecoveryCodeInput, GoStrings.toLower, GoStrings.replaceChar,
      String.toList_ofList]
    congr 1
    induction s.toList with
    | nil => rfl
    | cons c l ih =>
      by_cases hspace : c = ' '
      · simpa [GoStrings.replaceList, hspace] using ih
      · by_cases hdash : c = '-'
        · simpa [GoStrings.replaceList, hdash] using ih
        · simpa [GoStrings.replaceList, hspace, hdash] using ih
  rw [Spells, ← hlist, ← hlist, String.toList_inj]

/-! ### Calls side by side -/

/-- A call of one of the two functions. -/
inductive RecoveryCall where
  | verify (adminID rawCode : String)
  | replace (adminID : String) (seeds : List CodeSeed)
  deriving DecidableEq

variable (crypto) in
/-- The program of a call: is a code accepted, or are codes issued? -/
def RecoveryCall.program : RecoveryCall → Handler Bool
  | .verify adminID rawCode => verifyAndConsumeRecoveryCode crypto adminID rawCode
  | .replace adminID seeds => do
    let codes ← replaceRecoveryCodesForAdmin crypto adminID seeds id
    pure codes.isSome

/-- No code becomes used: the rules of calls that start from the table `rows`. -/
def recoveryRules (rows : List RecoveryCode) :
    Requests.Rules RecoveryCall Env World Label Bool where
  inv s := (∀ e ∈ s.history, ∀ row affected, e.2 ≠ .recoveryUsed row affected) ∧
    ∀ row ∈ s.world.recoveryCodes, row.usedAt = none ∨ row ∈ rows
  rely _ _ := True
  guar _ _ _ := True
  post
    | .verify _ _, accepted => accepted = false
    | .replace _ _, _ => True
  stmtOk _ _ _ := True
  startOk _ _ := True
  envOk _ _ := True

theorem recoveryRules_lawful (rows : List RecoveryCode) :
    (recoveryRules rows).Lawful Env.apply where
  refl _ := trivial
  trans _ _ := trivial
  start h _ := h
  env {s e w} h _ he := by
    refine ⟨?_, trivial⟩
    cases e <;> obtain rfl := Option.some.inj he <;> exact h

/-- Fresh rows are unused codes of their admin. -/
theorem mem_recoveryRows {adminID : String} {seeds : List CodeSeed} {rows : List RecoveryCode}
    (h : recoveryRows crypto adminID seeds = some rows) :
    ∀ row ∈ rows, row.adminId = adminID ∧ row.usedAt = none := by
  induction seeds generalizing rows with
  | nil =>
    obtain rfl : [] = rows := Option.some.inj h
    exact fun row hrow => absurd hrow List.not_mem_nil
  | cons seed seeds ih =>
    rw [recoveryRows, List.mapM_cons] at h
    obtain ⟨row, hrow, h⟩ := Option.bind_eq_some_iff.1 h
    obtain ⟨rest, hrest, h⟩ := Option.bind_eq_some_iff.1 h
    obtain ⟨hash, -, hrow⟩ := Option.bind_eq_some_iff.1 hrow
    obtain rfl := Option.some.inj hrow
    obtain rfl := Option.some.inj h
    exact List.forall_mem_cons.2 ⟨⟨rfl, rfl⟩, ih hrest⟩

theorem keeps_recoveryCall {rows : List RecoveryCode} {s : Requests.Shared RecoveryCall World Label}
    (i : ℕ) (r : RecoveryCall) :
    (recoveryRules rows).Keeps i (r.program crypto)
    (fun a _ => (recoveryRules rows).post r a) s := by
  cases r with
  | verify adminID raw =>
    have hrecovery (t : Requests.Shared RecoveryCall World Label) (h : (recoveryRules rows).inv t) :
        (recoveryRules rows).StmtKept i t (fun _ => .recovery) id :=
      ⟨⟨List.forall_mem_cons.2 ⟨by simp, h.1⟩, h.2⟩, trivial, trivial⟩
    rw [RecoveryCall.program]
    have hcall := @verifyAndConsumeRecoveryCode_eq crypto adminID raw
    generalize verifyAndConsumeRecoveryCode crypto adminID raw = p at hcall ⊢
    rcases hcall with rfl | rfl
    · exact Requests.Rules.keeps_done.2 rfl
    · exact Requests.Rules.keeps_stmt.2 fun t _ ht _ => ⟨hrecovery t ht,
        Requests.Rules.keeps_stmt.2 fun u _ hu _ => ⟨hrecovery u hu,
          Requests.Rules.keeps_done.2 rfl⟩⟩
  | replace adminID seeds =>
    rw [RecoveryCall.program, replaceRecoveryCodesForAdmin]
    cases hnew : recoveryRows crypto adminID seeds with
    | none => exact Requests.Rules.keeps_done.2 trivial
    | some new =>
      dsimp only
      rw [Request.stmt_bind, Requests.Rules.keeps_stmt]
      refine fun t _ ht _ => ⟨⟨⟨?_, fun row hrow => ?_⟩, trivial, trivial⟩,
        Requests.Rules.keeps_done.2 trivial⟩
      · exact List.forall_mem_cons.2 ⟨by simp, ht.1⟩
      · rcases List.mem_append.1 hrow with hrow | hrow
        · exact ht.2 row (Rows.mem_deleteWhere.1 hrow).1
        · exact Or.inl (mem_recoveryRows hnew row hrow).2

/-- What any calls side by side leave: no text is accepted, and no code becomes used. -/
theorem run_recoveryCalls {w : World} {events : List (Requests.Event RecoveryCall Env)}
    {t : Requests.Pool RecoveryCall World Label Bool}
    (hrun : Runs.run (Requests.step (RecoveryCall.program crypto) Env.apply)
      (Requests.Pool.initial w) events = some t) : (recoveryRules w.recoveryCodes).PoolInv t := by
  refine Requests.Rules.run_inv (recoveryRules_lawful w.recoveryCodes)
    (Requests.Rules.PoolInv.initial ⟨fun _ he => absurd he List.not_mem_nil, fun _ => Or.inr⟩)
    (fun r _ _ _ _ => keeps_recoveryCall _ r) (Runs.meets_of_forall (fun s e => ?_) _ _) hrun
  cases e with
  | act i => exact fun _ _ _ _ => trivial
  | start r => trivial
  | env e => trivial

/-- **When a recovery code works.** A call does what it is for exactly when it presents no unused
code. In every interleaving of calls, no call accepts anything and no code becomes used. -/
theorem recovery_code_works_iff (w : World) (adminID raw : String) :
    (WorksOnce crypto w adminID raw ↔ ∀ row, ¬Presents crypto w adminID raw row) ∧
      ∀ (events : List (Requests.Event RecoveryCall Env))
        (t : Requests.Pool RecoveryCall World Label Bool),
        Runs.run (Requests.step (RecoveryCall.program crypto) Env.apply)
          (Requests.Pool.initial w) events = some t →
        (∀ (i : ℕ) (adminID raw : String) (accepted : Bool),
            t.started[i]? = some (RecoveryCall.verify adminID raw) →
            t.threads[i]? = some (Request.done accepted) → accepted = false) ∧
          ∀ row ∈ t.world.recoveryCodes, row.usedAt = none ∨ row ∈ w.recoveryCodes := by
  refine ⟨⟨fun h row hrow => ?_, fun h => ⟨fun row hrow => absurd hrow (h row), fun _ => ?_⟩⟩,
    fun events t hrun => ?_⟩
  · have hcall := h.1 row hrow
    rw [alone_verifyAndConsume] at hcall
    cases congrArg Prod.snd hcall
  · exact alone_verifyAndConsume adminID raw w
  · have hinv := run_recoveryCalls hrun
    exact ⟨fun i adminID raw accepted hr hdone => hinv.result hr hdone, hinv.inv.2⟩

/-- A world with one admin whose code of sixteen zeros has just been issued. -/
def issuedWorld : World :=
  ((replaceRecoveryCodesForAdmin Crypto.plain "admin" [⟨0, "salt", "code"⟩] id).alone
    ⟨0, [], [], ∅⟩).1

/-- A call that presents the code, to its end. -/
theorem fresh_code_in_run :
    ∃ t : Requests.Pool RecoveryCall World Label Bool,
      Runs.run (Requests.step (RecoveryCall.program Crypto.plain) Env.apply)
          (Requests.Pool.initial issuedWorld)
          [.start (.verify "admin" "0000-0000-0000-0000"), .act 0, .act 0] = some t ∧
        ∀ row ∈ t.world.recoveryCodes, row.usedAt = none ∨ row ∈ issuedWorld.recoveryCodes := by
  have hrun : (Runs.run (Requests.step (RecoveryCall.program Crypto.plain) Env.apply)
      (Requests.Pool.initial issuedWorld)
      [.start (.verify "admin" "0000-0000-0000-0000"), .act 0, .act 0]).isSome := by
    decide +kernel
  obtain ⟨t, ht⟩ := Option.isSome_iff_exists.1 hrun
  have h := @recovery_code_works_iff Crypto.plain issuedWorld "admin" "0000-0000-0000-0000"
  exact ⟨t, ht, (h.2 _ t ht).2⟩

/-- **A fresh code that is refused**, written as it was issued. -/
theorem issued_code_refused :
    ¬∀ (w : World) (adminID raw : String), WorksOnce Crypto.plain w adminID raw := by
  intro h
  have hcall := (h issuedWorld "admin" "0000-0000-0000-0000").1
    ⟨"code", "admin", "0000000000000000", none⟩
    ⟨by decide +kernel, rfl, rfl, 0, ⟨"salt", by decide +kernel⟩, by decide +kernel⟩
  rw [alone_verifyAndConsume] at hcall
  cases congrArg Prod.snd hcall

end OpenvpnControl.Auth
