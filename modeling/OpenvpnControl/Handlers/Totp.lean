import OpenvpnControl.Auth.Handler

/-!
# The second factor

The endpoints of `handlers/admins_ext.go` that set up, confirm, renew and remove the second factor
of an admin. Each looks at the row in one statement and writes it in another. A factor that is on
changes hands only with the current one, as long as what a request writes over is what its code was
checked against; `TotpSetupConfirm` checks its code against the secret that waits, and asks for
nothing else.

## Main definitions

* `totpSetupStart`, `totpSetupConfirm`, `totpRecoveryRegenerate`, `totpDisable`: the handlers.
* `TotpRequest`: a request to one of them.
* `ChangesFactor`, `PresentsCode`: what a step does to a factor, and what a request proved.
* `WritesOverChecked`: the condition on what a request writes over.

## Main results

* `factor_changes_with_code`: the property of every run that meets the condition.
* `confirm_replaces_secret`: a secret that is replaced without the current code.
-/

namespace OpenvpnControl.Handlers

open Auth (World Admin Handler Label Env Crypto CodeSeed Response)
open Requests (Shared Pool Event Rules)

variable (crypto : Crypto)

/-! ### The handlers -/

def totpPendingTTL : ℤ := 10 * 60 * Auth.second

def normalizeTotpCode (v : String) : String :=
  GoStrings.replaceChar ' ' [] (GoStrings.trimSpace v)

/-- What `TotpSetupStart` writes. -/
def setPending (enc : String) (expiresAt : ℤ) (a : Admin) : Admin :=
  { a with totpPendingSecretEnc := some enc, totpPendingExpiresAt := some expiresAt }

/-- What `TotpSetupConfirm` writes. -/
def enableTotp (enc : String) (a : Admin) : Admin :=
  { a with totpEnabled := true, totpSecretEnc := some enc, totpPendingSecretEnc := none,
           totpPendingExpiresAt := none }

/-- What `TotpDisable` writes. -/
def disableTotp (a : Admin) : Admin :=
  { a with totpEnabled := false, totpSecretEnc := none, totpPendingSecretEnc := none,
           totpPendingExpiresAt := none }

/-- `TotpSetupStart`, with the secret that `GenerateTotpKey` makes and the image that
`GenerateTotpQRDataURL` makes, or their errors, and the nonce of the encryption. The secret waits in
the row before the image is made. -/
def totpSetupStart (adminID : String) (secret qrDataURL : Except String String) (nonce : String) :
    Handler Response := do
  match ← Auth.selectAdmin adminID with
  | none => pure (.error 401 "Unauthorized")
  | some a =>
    if a.isActive = false then pure (.error 401 "Unauthorized")
    else match secret with
      | .error msg => pure (.error 500 msg)
      | .ok secret => do
        let now ← Auth.timeNow
        let expiresAt := now + totpPendingTTL
        Auth.updateAdmin adminID (setPending (crypto.encryptSecret nonce secret) expiresAt)
        match qrDataURL with
        | .error msg => pure (.error 500 msg)
        | .ok qrDataURL => pure (.setup qrDataURL secret expiresAt)

/-- The transaction of `TotpSetupConfirm` and `TotpRecoveryRegenerate`. -/
def replaceCodes (adminID : String) (seeds : List CodeSeed) (before : World → World) :
    Handler Response := do
  match ← Auth.replaceRecoveryCodesForAdmin crypto adminID seeds before with
  | none => pure (.error 500 "bcrypt")
  | some codes => pure (.recoveryCodes codes)

/-- The rest of `TotpSetupConfirm`, with the secret that waits and its time. -/
def confirmPending (adminID code enc : String) (exp : ℤ) (nonce : String)
    (seeds : List CodeSeed) : Handler Response := do
  let now ← Auth.timeNow
  if exp < now then pure (.error 400 "Сессия подключения 2FA истекла. Начните заново.")
  else match crypto.decryptSecret enc with
    | none => pure (.error 400 "Неверный код подтверждения")
    | some secret => do
      let now ← Auth.timeNow
      if Auth.verifyTotp crypto now secret code = false then
        pure (.error 400 "Неверный код подтверждения")
      else
        replaceCodes crypto adminID seeds
          (World.updateAdmin adminID (enableTotp (crypto.encryptSecret nonce secret)))

/-- `TotpSetupConfirm`; no body is a body that does not decode. -/
def totpSetupConfirm (adminID : String) (totpCode : Option String) (nonce : String)
    (seeds : List CodeSeed) : Handler Response :=
  match totpCode with
  | none => pure (.error 400 "invalid json")
  | some totpCode =>
    let code := normalizeTotpCode totpCode
    if code = "" then pure (.error 400 "Введите код из приложения")
    else do
      match ← Auth.selectAdmin adminID with
      | none => pure (.error 401 "Unauthorized")
      | some a =>
        if a.isActive = false then pure (.error 401 "Unauthorized")
        else match a.totpPendingSecretEnc, a.totpPendingExpiresAt with
          | some enc, some exp => confirmPending crypto adminID code enc exp nonce seeds
          | _, _ => pure (.error 400 "Сессия подключения 2FA истекла. Начните заново.")

/-- The check of a code against the secret that is on, in `verifyAdminTotp` and `TotpDisable`, with
the text for a factor that is off, in front of what follows. -/
def withAdminTotp (adminID code off : String) (next : Handler Response) : Handler Response := do
  match ← Auth.selectAdmin adminID with
  | none => pure (.error 401 "Unauthorized")
  | some a =>
    if a.isActive = false then pure (.error 401 "Unauthorized")
    else match a.totpEnabled, a.totpSecretEnc with
      | true, some enc =>
        match crypto.decryptSecret enc with
        | none => pure (.error 400 "Неверный код 2FA")
        | some secret => do
          let now ← Auth.timeNow
          if Auth.verifyTotp crypto now secret code = false then
            pure (.error 400 "Неверный код 2FA")
          else next
      | _, _ => pure (.error 400 off)

def totpRecoveryRegenerate (adminID : String) (totpCode : Option String)
    (seeds : List CodeSeed) : Handler Response :=
  match totpCode with
  | none => pure (.error 400 "invalid json")
  | some totpCode =>
    let code := normalizeTotpCode totpCode
    if code = "" then pure (.error 400 "Введите код из приложения-аутентификатора")
    else
      withAdminTotp crypto adminID code "Сначала включите двухфакторную аутентификацию"
        (replaceCodes crypto adminID seeds id)

def totpDisable (adminID : String) (totpCode : Option String) : Handler Response :=
  match totpCode with
  | none => pure (.error 400 "invalid json")
  | some totpCode =>
    let code := normalizeTotpCode totpCode
    if code = "" then pure (.error 400 "Введите текущий код 2FA для отключения")
    else
      withAdminTotp crypto adminID code "2FA уже отключена" do
        Auth.updateAdmin adminID disableTotp
        pure .ok

/-! ### Requests -/

/-- A request to one of the endpoints, of the admin `id`. -/
inductive TotpRequest where
  | setupStart (id : String) (secret qrDataURL : Except String String) (nonce : String)
  | setupConfirm (id : String) (totpCode : Option String) (nonce : String) (seeds : List CodeSeed)
  | recoveryRegenerate (id : String) (totpCode : Option String) (seeds : List CodeSeed)
  | disable (id : String) (totpCode : Option String)
  deriving DecidableEq

/-- The program of a request. -/
def TotpRequest.program : TotpRequest → Handler Response
  | .setupStart id secret qrDataURL nonce => totpSetupStart crypto id secret qrDataURL nonce
  | .setupConfirm id totpCode nonce seeds => totpSetupConfirm crypto id totpCode nonce seeds
  | .recoveryRegenerate id totpCode seeds => totpRecoveryRegenerate crypto id totpCode seeds
  | .disable id totpCode => totpDisable crypto id totpCode

/-- The code that a request presents. -/
def TotpRequest.code : TotpRequest → Option String
  | .setupStart _ _ _ _ => none
  | .setupConfirm _ totpCode _ _ => totpCode
  | .recoveryRegenerate _ totpCode _ => totpCode
  | .disable _ totpCode => totpCode

/-- The stored secret of a row that a request checks its code against. -/
def TotpRequest.checks : TotpRequest → Admin → Option String
  | .setupStart _ _ _ _, _ => none
  | .setupConfirm _ _ _ _, a => a.totpPendingSecretEnc
  | .recoveryRegenerate _ _ _, a => a.totpSecretEnc
  | .disable _ _, a => a.totpSecretEnc

/-- The secret of a row. -/
def storedSecret (a : Admin) : Option String := a.totpSecretEnc.bind crypto.decryptSecret

/-- A step changes the second factor of the admin whose row before it is `a`: the factor is off
after it, or has another secret, or the recovery codes are other ones. -/
def ChangesFactor (w w' : World) (a : Admin) : Prop :=
  ∃ a' ∈ w'.admin a.id, a'.totpEnabled = false ∨ storedSecret crypto a' ≠ storedSecret crypto a ∨
    (w'.recoveryCodes.filter fun r => r.adminId = a.id) ≠
      w.recoveryCodes.filter fun r => r.adminId = a.id

/-- Request `i` presented a code that `VerifyTotp` accepted for the secret of the row `a`. -/
def PresentsCode (i : ℕ) (s : Shared TotpRequest World Label) (a : Admin) : Prop :=
  ∃ r code now secret, s.started[i]? = some r ∧ r.code = some code ∧ (i, .clock now) ∈ s.history ∧
    storedSecret crypto a = some secret ∧
      Auth.verifyTotp crypto now secret (normalizeTotpCode code) = true

/-- What a step of request `i` does to a factor that is on, it does with the code of its secret. -/
def ChangesWithCode (i : ℕ) (s s' : Shared TotpRequest World Label) : Prop :=
  ∀ a, s.world.admin a.id = some a → a.totpEnabled = true →
    ChangesFactor crypto s.world s'.world a → PresentsCode crypto i s a

instance (w w' : World) (a : Admin) : Decidable (ChangesFactor crypto w w' a) :=
  inferInstanceAs (Decidable (∃ a' ∈ w'.admin a.id, _ ∨ _ ∨ _ ≠ _))

/-- The condition on what request `r` writes over: the factor in the row is off, or its secret is
the one that the request read and checked its code against. -/
def TotpRequest.MayWrite (r : TotpRequest) (own : List Label) (before : Option Admin) : Prop :=
  match r with
  | .setupStart _ _ _ _ => True
  | r => ∀ a ∈ before, a.totpEnabled = true →
    ∃ row ∈ Auth.rowsRead own, (r.checks row).bind crypto.decryptSecret = storedSecret crypto a

/-- The condition on a statement of request `i`. -/
def WritesOverChecked (i : ℕ) (s : Shared TotpRequest World Label) : Label → Prop
  | .updated _ before => ∀ r ∈ s.started[i]?, r.MayWrite crypto (s.own i) before
  | .replacedCodes _ before => ∀ r ∈ s.started[i]?, r.MayWrite crypto (s.own i) before
  | _ => True

/-- A factor that is on changes hands only with the current one. -/
def totpRules : Rules TotpRequest Env World Label Response where
  inv _ := True
  rely _ _ := True
  guar := ChangesWithCode crypto
  post _ _ := True
  stmtOk := WritesOverChecked crypto
  startOk _ _ := True
  envOk _ _ := True

variable {crypto} {i : ℕ} {s t : Shared TotpRequest World Label}

theorem totpRules_lawful : (totpRules crypto).Lawful Env.apply where
  refl _ := trivial
  trans _ _ := trivial
  start _ _ := trivial
  env _ _ _ := ⟨trivial, trivial⟩

/-! ### Statements -/

/-- A step that leaves the factor and the recovery codes of an admin does not change the factor. -/
theorem not_changesFactor {w w' : World} {a : Admin} (henabled : a.totpEnabled = true)
    (hrow : ∀ a' ∈ w'.admin a.id, a'.totpEnabled = a.totpEnabled ∧
      a'.totpSecretEnc = a.totpSecretEnc)
    (hcodes : w'.recoveryCodes = w.recoveryCodes) : ¬ChangesFactor crypto w w' a := by
  rintro ⟨a', ha', h⟩
  obtain ⟨hon, hsecret⟩ := hrow a' ha'
  rcases h with h | h | h
  · rw [hon, henabled] at h
    cases h
  · exact h (by rw [storedSecret, hsecret, storedSecret])
  · exact h (by rw [hcodes])

/-- A statement that reads. -/
theorem keeps_read {α : Type} {label : World → Label} {f : World → α} {k : α → Handler Response}
    {Q : Response → Shared TotpRequest World Label → Prop}
    (h : ∀ t, Requests.Rely (totpRules crypto).rely i s t →
      (totpRules crypto).Keeps i (k (f t.world)) Q (t.after i label id)) :
    (totpRules crypto).Keeps i (Request.read label f >>= k) Q s := by
  refine Rules.keeps_read fun t hrely _ _ =>
    ⟨⟨trivial, trivial, fun a ha hon hchange => ?_⟩, h t hrely⟩
  refine absurd hchange (not_changesFactor hon (fun a' ha' => ?_) rfl)
  obtain rfl := Option.some.inj (ha.symm.trans ha')
  exact ⟨rfl, rfl⟩

/-- What request `i` knows when it writes: the row that it read, and a time at which its code was
accepted for the secret that it checks. -/
structure Checked (crypto : Crypto) (i : ℕ) (s : Shared TotpRequest World Label) (r : TotpRequest) :
    Prop where
  started : s.started[i]? = some r
  accepted : ∃ row code now secret, r.code = some code ∧ .clock now ∈ s.own i ∧
    (r.checks row).bind crypto.decryptSecret = some secret ∧
    Auth.verifyTotp crypto now secret (normalizeTotpCode code) = true ∧
      Auth.rowsRead (s.own i) = [row]

/-- What a request knows, it knows whatever the others do. -/
theorem Checked.of_rely {r : TotpRequest} {W : World → World → Prop} (h : Checked crypto i s r)
    (hrely : Requests.Rely W i s t) : Checked crypto i t r := by
  refine ⟨hrely.started_get h.started, ?_⟩
  rw [hrely.own]
  exact h.accepted

/-- A request that writes over the secret that it checked presented the code of that secret. -/
theorem Checked.presentsCode {r : TotpRequest} {a : Admin} (h : Checked crypto i s r)
    (hmay : r.MayWrite crypto (s.own i) (some a)) (hon : a.totpEnabled = true) :
    PresentsCode crypto i s a := by
  obtain ⟨row, code, now, secret, hcode, hclock, hchecks, hverify, hrow⟩ := h.accepted
  have hsecret : storedSecret crypto a = some secret := by
    cases r with
    | setupStart id secret qrDataURL nonce => cases hcode
    | setupConfirm | recoveryRegenerate | disable =>
      obtain ⟨row', hown, hsame⟩ := hmay a rfl hon
      rw [hrow, List.mem_singleton] at hown
      rw [← hsame, hown, hchecks]
  exact ⟨r, code, now, secret, h.started, hcode, Requests.mem_history_of_mem_own hclock, hsecret,
    hverify⟩

/-- A statement that writes the row and the codes of one admin, of a request that knows its code was
accepted. -/
theorem Checked.stmtKept {r : TotpRequest} {id : String} {label : World → Label}
    {write : World → World} (h : Checked crypto i s r)
    (hmay : r.MayWrite crypto (s.own i) (s.world.admin id))
    (hadmin : ∀ j ≠ id, (write s.world).admin j = s.world.admin j)
    (hcodes : ∀ j ≠ id, ((write s.world).recoveryCodes.filter fun r => r.adminId = j) =
      s.world.recoveryCodes.filter fun r => r.adminId = j) :
    (totpRules crypto).StmtKept i s label write := by
  refine ⟨trivial, trivial, fun a ha hon hchange => ?_⟩
  by_cases hid : a.id = id
  · subst hid
    exact h.presentsCode (ha ▸ hmay) hon
  · obtain ⟨a', ha', hchange⟩ := hchange
    rw [Requests.after_world, hadmin a.id hid, ha] at ha'
    obtain rfl := Option.some.inj ha'
    rcases hchange with hoff | hsecret | hcode
    · rw [hon] at hoff
      cases hoff
    · exact absurd rfl hsecret
    · exact absurd (hcodes a.id hid) hcode

theorem filter_replaceCodes {w : World} {id j : String} {rows : List Auth.RecoveryCode} (h : j ≠ id)
    (hrows : ∀ row ∈ rows, row.adminId = id) :
    ((w.replaceCodes id rows).recoveryCodes.filter fun r => r.adminId = j) =
      w.recoveryCodes.filter fun r => r.adminId = j := by
  have hnew : (rows.filter fun r => r.adminId = j) = [] := by
    refine List.filter_eq_nil_iff.2 fun row hrow => ?_
    simpa [hrows row hrow] using h.symm
  have hold (rs : List Auth.RecoveryCode) :
      ((Rows.deleteWhere (fun r => r.adminId = id) rs).filter fun r => r.adminId = j) =
        rs.filter fun r => r.adminId = j := by
    rw [Rows.deleteWhere, List.filter_filter]
    refine List.filter_congr fun r _ => ?_
    by_cases hr : r.adminId = j
    · simp [hr, h]
    · simp [hr]
  rw [World.replaceCodes, List.filter_append, hnew, List.append_nil, hold]

/-- The transaction that replaces the codes, of a request that knows its code was accepted. -/
theorem keeps_replaceCodes {r : TotpRequest} {id : String} {seeds : List CodeSeed}
    {before : World → World} (h : Checked crypto i s r)
    (hadmin : ∀ w, ∀ j ≠ id, (before w).admin j = w.admin j)
    (hcodes : ∀ w, (before w).recoveryCodes = w.recoveryCodes) :
    (totpRules crypto).Keeps i (replaceCodes crypto id seeds before) (fun _ _ => True) s := by
  rw [replaceCodes, Auth.replaceRecoveryCodesForAdmin]
  cases hrows : Auth.recoveryRows crypto id seeds with
  | none => exact Rules.keeps_done.2 trivial
  | some rows =>
    dsimp only
    rw [Request.stmt_bind, Rules.keeps_stmt]
    intro t hrely _ hok
    have ht := h.of_rely hrely
    refine ⟨ht.stmtKept (hok r ht.started) (fun j hj => ?_) (fun j hj => ?_),
      Rules.keeps_done.2 trivial⟩
    · exact hadmin t.world j hj
    · rw [filter_replaceCodes hj fun row hrow => (Auth.mem_recoveryRows hrows row hrow).1, hcodes]

/-- The check of a code against the secret that is on. -/
theorem keeps_withAdminTotp {r : TotpRequest} {id off code : String} {next : Handler Response}
    (hstarted : s.started[i]? = some r) (hown : s.own i = []) (hcode : r.code = some code)
    (hchecks : ∀ a, r.checks a = a.totpSecretEnc)
    (hnext : ∀ t, Checked crypto i t r → (totpRules crypto).Keeps i next (fun _ _ => True) t) :
    (totpRules crypto).Keeps i (withAdminTotp crypto id (normalizeTotpCode code) off next)
      (fun _ _ => True) s := by
  rw [withAdminTotp, Auth.selectAdmin]
  refine keeps_read fun t hrely => ?_
  have hown := hrely.own.trans hown
  have hstarted := hrely.started_get hstarted
  cases hrow : t.world.admin id with
  | none => exact Rules.keeps_pure.2 trivial
  | some a =>
    refine Rules.keeps_ite (fun _ => Rules.keeps_pure.2 trivial) fun _ => ?_
    split
    · rename_i enc hon henc
      cases hdec : crypto.decryptSecret enc with
      | none => exact Rules.keeps_pure.2 trivial
      | some secret =>
        refine keeps_read fun u hrely => ?_
        refine Rules.keeps_ite (fun _ => Rules.keeps_pure.2 trivial) fun hverify => ?_
        refine hnext _ ⟨hrely.started_get hstarted, a, code, u.world.now, secret, hcode, ?_, ?_, ?_,
          ?_⟩
        · rw [Requests.own_after_self]
          exact List.mem_cons_self
        · rw [hchecks, henc, Option.bind_some, hdec]
        · exact Bool.eq_true_of_not_eq_false hverify
        · simp [hrely.own, hown, hrow]
    · exact Rules.keeps_pure.2 trivial

/-- The rest of `TotpSetupConfirm`. -/
theorem keeps_confirmPending {id code enc nonce : String} {exp : ℤ} {seeds : List CodeSeed}
    {a : Admin} (hstarted : s.started[i]? = some (.setupConfirm id (some code) nonce seeds))
    (hrow : Auth.rowsRead (s.own i) = [a]) (henc : a.totpPendingSecretEnc = some enc) :
    (totpRules crypto).Keeps i
      (confirmPending crypto id (normalizeTotpCode code) enc exp nonce seeds)
      (fun _ _ => True) s := by
  rw [confirmPending]
  refine keeps_read fun t ht => ?_
  have hrow : Auth.rowsRead (t.own i) = [a] := ht.own ▸ hrow
  have hstarted := ht.started_get hstarted
  refine Rules.keeps_ite (fun _ => Rules.keeps_pure.2 trivial) fun _ => ?_
  cases hdec : crypto.decryptSecret enc with
  | none => exact Rules.keeps_pure.2 trivial
  | some secret =>
    refine keeps_read fun u hu => ?_
    refine Rules.keeps_ite (fun _ => Rules.keeps_pure.2 trivial) fun hverify => ?_
    refine keeps_replaceCodes
      ⟨hu.started_get hstarted, a, code, u.world.now, secret, rfl, ?_, ?_, ?_, ?_⟩
      (fun w j hj => ?_) fun w => rfl
    · rw [Requests.own_after_self]
      exact List.mem_cons_self
    · rw [TotpRequest.checks, henc, Option.bind_some, hdec]
    · exact Bool.eq_true_of_not_eq_false hverify
    · rw [Requests.own_after_self, hu.own, Requests.own_after_self]
      exact hrow
    · rw [Auth.admin_updateAdmin, if_neg hj]
      exact fun _ => rfl

/-- **Each endpoint keeps the rules.** -/
theorem keeps_totpRequest {r : TotpRequest} (hstarted : s.started[i]? = some r)
    (hown : s.own i = []) :
    (totpRules crypto).Keeps i (r.program crypto) (fun _ _ => True) s := by
  cases r with
  | setupStart id secret qrDataURL nonce =>
    rw [TotpRequest.program, totpSetupStart.eq_def]
    refine keeps_read fun t _ => ?_
    cases t.world.admin id with
    | none => exact Rules.keeps_pure.2 trivial
    | some a =>
      refine Rules.keeps_ite (fun _ => Rules.keeps_pure.2 trivial) fun _ => ?_
      cases secret with
      | error msg => exact Rules.keeps_pure.2 trivial
      | ok secret =>
        refine keeps_read fun u _ => Rules.keeps_write fun v _ _ _ => ⟨⟨trivial, trivial, ?_⟩, ?_⟩
        · -- what waits is not what is on
          intro a ha hon hchange
          refine absurd hchange (not_changesFactor hon (fun a' ha' => ?_) rfl)
          have hid (e : String) (x : ℤ) (a : Admin) : (setPending e x a).id = a.id := rfl
          rw [Requests.after_world, Auth.admin_updateAdmin (hid _ _), ha] at ha'
          split_ifs at ha' <;> obtain rfl := Option.some.inj ha' <;> exact ⟨rfl, rfl⟩
        · cases qrDataURL <;> exact Rules.keeps_pure.2 trivial
  | setupConfirm id totpCode nonce seeds =>
    rw [TotpRequest.program, totpSetupConfirm.eq_def]
    cases totpCode with
    | none => exact Rules.keeps_pure.2 trivial
    | some code =>
      refine Rules.keeps_ite (fun _ => Rules.keeps_pure.2 trivial) fun _ => ?_
      refine keeps_read fun t ht => ?_
      cases hrow : t.world.admin id with
      | none => exact Rules.keeps_pure.2 trivial
      | some a =>
        refine Rules.keeps_ite (fun _ => Rules.keeps_pure.2 trivial) fun _ => ?_
        split
        · rename_i enc exp henc hexp
          refine keeps_confirmPending (ht.started_get hstarted) ?_ henc
          simp [ht.own, hown, hrow]
        · exact Rules.keeps_pure.2 trivial
  | recoveryRegenerate id totpCode seeds =>
    rw [TotpRequest.program, totpRecoveryRegenerate.eq_def]
    cases totpCode with
    | none => exact Rules.keeps_pure.2 trivial
    | some code =>
      refine Rules.keeps_ite (fun _ => Rules.keeps_pure.2 trivial) fun _ => ?_
      exact keeps_withAdminTotp hstarted hown rfl (fun _ => rfl) fun t ht =>
        keeps_replaceCodes ht (fun _ _ _ => rfl) fun _ => rfl
  | disable id totpCode =>
    rw [TotpRequest.program, totpDisable.eq_def]
    cases totpCode with
    | none => exact Rules.keeps_pure.2 trivial
    | some code =>
      refine Rules.keeps_ite (fun _ => Rules.keeps_pure.2 trivial) fun _ => ?_
      refine keeps_withAdminTotp hstarted hown rfl (fun _ => rfl) fun t ht => ?_
      refine Rules.keeps_write fun u hu _ hok => ⟨?_, Rules.keeps_pure.2 trivial⟩
      have hchecked := ht.of_rely hu
      refine hchecked.stmtKept (hok _ hchecked.started) (fun j hj => ?_) fun _ _ => rfl
      rw [Auth.admin_updateAdmin, if_neg hj]
      exact fun _ => rfl

/-! ### Runs -/

instance (r : TotpRequest) (own : List Label) (before : Option Admin) :
    Decidable (r.MayWrite crypto own before) := by
  cases r <;> (unfold TotpRequest.MayWrite; infer_instance)

instance (i : ℕ) (s : Shared TotpRequest World Label) : (l : Label) →
    Decidable ((totpRules crypto).stmtOk i s l)
  | .updated _ before =>
    inferInstanceAs (Decidable (∀ r ∈ s.started[i]?, r.MayWrite crypto (s.own i) before))
  | .replacedCodes _ before =>
    inferInstanceAs (Decidable (∀ r ∈ s.started[i]?, r.MayWrite crypto (s.own i) before))
  | .clock _ | .check _ _ | .fail _ _ | .success _ | .comparing _ _ _ | .compared _ _ _
  | .selected _ | .signed _ | .authorized _ _ | .unauthorized | .recovery | .recoveryUsed _ _ =>
    isTrue trivial

instance (s : Shared TotpRequest World Label) (r : TotpRequest) :
    Decidable ((totpRules crypto).startOk s r) := isTrue trivial

instance (s : Shared TotpRequest World Label) (e : Env) :
    Decidable ((totpRules crypto).envOk s e) := isTrue trivial

variable (crypto) in
/-- The steps of any requests to the endpoints. -/
def totpStep : Pool TotpRequest World Label Response → Event TotpRequest Env →
    Option (Pool TotpRequest World Label Response) :=
  Requests.step (TotpRequest.program crypto) Env.apply

/-- **A factor that is on changes hands only with the current one.** In every run whose statements
write over what their request checked, a step that changes the factor of an admin is one of a
request that presented a code for the secret that is on. -/
theorem factor_changes_with_code {w : World} {events : List (Event TotpRequest Env)} {i : ℕ}
    {s s' : Pool TotpRequest World Label Response}
    (hok : Runs.Meets (totpStep crypto) (totpRules crypto).StepOk (Pool.initial w)
      (events ++ [.act i]))
    (hrun : Runs.run (totpStep crypto) (Pool.initial w) events = some s)
    (hstep : totpStep crypto s (.act i) = some s') :
    ChangesWithCode crypto i s.toShared s'.toShared := by
  obtain ⟨hok, hlast⟩ := Runs.meets_append.1 hok
  have hinv := Rules.run_inv totpRules_lawful (Rules.PoolInv.initial trivial)
    (fun r t _ _ hown => keeps_totpRequest (Requests.starting_get t r) hown) hok hrun
  exact hinv.guar totpRules_lawful (hlast s hrun).1 hstep

/-- A world with one admin, whose second factor is on. -/
def enrolledWorld : World where
  nanoseconds := 0
  admins :=
    [⟨"root", "", "root", none, "", true, none, none, none, none, true, some "old", none, none⟩]
  recoveryCodes := [⟨"code", "root", "hash", none⟩]
  limiter := ∅

/-- A request that removes the factor with the code of its secret, to its end. -/
theorem disable_with_code :
    ∃ s s' : Pool TotpRequest World Label Response,
      Runs.run (totpStep Crypto.plain) (Pool.initial enrolledWorld)
          [.start (.disable "root" (some "old")), .act 0, .act 0] = some s ∧
        totpStep Crypto.plain s (.act 0) = some s' ∧ s'.world.admins ≠ s.world.admins ∧
          ChangesWithCode Crypto.plain 0 s.toShared s'.toShared := by
  have hrun : (Runs.run (totpStep Crypto.plain) (Pool.initial enrolledWorld)
      [.start (.disable "root" (some "old")), .act 0, .act 0]).any (fun s =>
        (totpStep Crypto.plain s (.act 0)).any fun s' =>
          decide (s'.world.admins ≠ s.world.admins)) = true := by
    decide +kernel
  obtain ⟨s, hs, hrun⟩ := (Option.any_eq_true _ _).1 hrun
  obtain ⟨s', hs', hne⟩ := (Option.any_eq_true _ _).1 hrun
  exact ⟨s, s', hs, hs', of_decide_eq_true hne,
    factor_changes_with_code (by decide +kernel) hs hs'⟩

/-- **A secret that is replaced without the current code**: a setup is started and confirmed with
the code of the new secret, while the old one is on. -/
theorem confirm_replaces_secret :
    ¬∀ (w : World) (events : List (Event TotpRequest Env))
      (s s' : Pool TotpRequest World Label Response) (i : ℕ),
      Runs.run (totpStep Crypto.plain) (Pool.initial w) events = some s →
        totpStep Crypto.plain s (.act i) = some s' →
          ChangesWithCode Crypto.plain i s.toShared s'.toShared := by
  intro h
  let enrolled : Admin :=
    ⟨"root", "", "root", none, "", true, none, none, none, none, true, some "old", some "new",
      some 600000000000⟩
  have hrun : (Runs.run (totpStep Crypto.plain) (Pool.initial enrolledWorld)
      [.start (.setupStart "root" (.ok "new") (.ok "image") "nonce"), .act 0, .act 0, .act 0,
        .start (.setupConfirm "root" (some "new") "nonce" []), .act 1,
        .act 1, .act 1]).any (fun s =>
        (totpStep Crypto.plain s (.act 1)).any fun s' =>
          decide (s.world.admin "root" = some enrolled ∧
            ChangesFactor Crypto.plain s.world s'.world enrolled ∧
              s.started[1]? = some (.setupConfirm "root" (some "new") "nonce" []))) = true := by
    decide +kernel
  obtain ⟨s, hs, hrun⟩ := (Option.any_eq_true _ _).1 hrun
  obtain ⟨s', hs', hrun⟩ := (Option.any_eq_true _ _).1 hrun
  obtain ⟨hadmin, hchange, hstarted⟩ := of_decide_eq_true hrun
  obtain ⟨r, code, now, secret, hr, hcode, -, hsecret, hverify⟩ :=
    h _ _ s s' 1 hs hs' enrolled hadmin rfl hchange
  obtain rfl := Option.some.inj (hstarted.symm.trans hr)
  obtain rfl := Option.some.inj hcode
  obtain rfl := Option.some.inj hsecret
  -- the code of the new secret is none of the old one
  have hcode : GoStrings.replaceChar ' ' [] (normalizeTotpCode "new") ≠ "old" := by decide +kernel
  simp only [Auth.verifyTotp, Bool.and_eq_true] at hverify
  exact hcode (of_decide_eq_true hverify.2)

end OpenvpnControl.Handlers
