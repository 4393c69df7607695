import OpenvpnControl.Auth.Recovery

/-!
# Logging in

`auth/handler.go` and the middleware `RequireAuth`. `Login` checks a password and answers an access
token, or a token that waits for the second factor; `LoginMFA` checks the second factor; `Refresh`
answers a new access token for an old one. A credential is compared in a step of its own, which
changes nothing.

## Main definitions

* `checkLimiter`, `failLimiter`, `successLimiter`: the statements on the limiter.
* `login`, `loginMFA`, `refresh`: the handlers.
* `requireAuth`: the middleware in front of a handler.
-/

namespace OpenvpnControl.Auth

open Limiter (Client clientIP loginKey)

variable (cfg : Config) (crypto : Crypto)

/-! ### The limiter -/

/-- Is the key locked now? -/
def World.locked (w : World) (key : String) : Bool := Limiter.locked w.limiter key w.now

/-- `h.Limiter.Check`. -/
def checkLimiter (key : String) : Handler (Option ℤ) :=
  .read (fun w => .check key (Limiter.check w.limiter key w.now = none)) fun w =>
    Limiter.check w.limiter key w.now

/-- What `Fail` leaves. -/
def World.failed (key : String) (w : World) : World :=
  { w with limiter := Limiter.fail cfg.loginMaxAttempts cfg.loginLockout w.limiter key w.now }

/-- `h.Limiter.Fail`. -/
def failLimiter (key : String) : Handler Unit :=
  .write (fun w => .fail key ((w.failed cfg key).locked key)) (World.failed cfg key)

/-- What `Success` leaves. -/
def World.succeeded (key : String) (w : World) : World :=
  { w with limiter := Limiter.success w.limiter key }

/-- `h.Limiter.Success`. -/
def successLimiter (key : String) : Handler Unit :=
  .write (fun _ => .success key) (World.succeeded key)

/-- The credential of an attempt is compared. -/
def comparing (key : String) : Handler ℤ :=
  .read (fun w => .comparing key w.now (w.locked key)) World.now

/-- The outcome of the comparison. -/
def compared (key : String) (ok : Bool) : Handler Unit :=
  .read (fun w => .compared key ok (w.locked key)) fun _ => ()

/-! ### Login -/

structure LoginBody where
  username : String
  password : String
  deriving DecidableEq

/-- `mfaBody`; an empty text is a token that nobody signed. -/
structure MfaBody where
  mfaPendingToken : Jwt
  totpCode : String
  recoveryCode : String
  deriving DecidableEq

/-- An attempt that fails: `Fail`, and the answer. -/
def rejected (key msg : String) : Handler Response := do
  failLimiter cfg key
  pure (.error 401 msg)

/-- The rest of `Login`, with the row of the username. -/
def loginAs (key : String) (password : String) (admin : Admin) : Handler Response :=
  if admin.isActive = false then rejected cfg key "Invalid credentials"
  else if admin.inviteToken.getD "" ≠ "" then
    rejected cfg key
      "Завершите регистрацию по ссылке-приглашению, которую вам отправил администратор панели."
  else do
    let _ ← comparing key
    let ok := crypto.compareHashAndPassword admin.passwordHash password
    compared key ok
    if ok = false then rejected cfg key "Invalid credentials"
    else if admin.totpEnabled then do
      let tok ← signMFAPending cfg admin.id admin.username
      pure (.mfaRequired tok)
    else do
      successLimiter key
      let tok ← signAccess cfg admin.id admin.username
      pure (.token tok)

/-- `Login`; no body is a body that does not decode. -/
def login (client : Client) (body : Option LoginBody) : Handler Response :=
  match body with
  | none => pure (.error 400 "username and password are required")
  | some body =>
    if body.username = "" ∨ body.password = "" then
      pure (.error 400 "username and password are required")
    else do
      let key := loginKey (clientIP client) body.username
      match ← checkLimiter key with
      | some retry =>
        pure (.tooManyRequests
          "Слишком много неудачных попыток входа. Подождите и попробуйте снова." retry)
      | none =>
        let admin ← Request.read (fun w => .selected (w.adminNamed body.username)) fun w =>
          w.adminNamed body.username
        match admin with
        | none => rejected cfg key "Invalid credentials"
        | some admin => loginAs cfg crypto key body.password admin

/-! ### LoginMFA -/

/-- `DecryptSecret` of a stored secret, where an error reads as no secret. -/
def secretOf (enc : Option String) : String := (enc.bind crypto.decryptSecret).getD ""

/-- The rest of `LoginMFA`, with the row of the admin. -/
def loginMFAAs (key : String) (body : MfaBody) (claims : Claims) (admin : Admin) :
    Handler Response :=
  if admin.isActive = false ∨ admin.username ≠ claims.username ∨ admin.totpEnabled = false then
    rejected cfg key "Invalid credentials"
  else do
    let secret := secretOf crypto admin.totpSecretEnc
    let now ← comparing key
    let totpOk := secret ≠ "" && verifyTotp crypto now secret body.totpCode
    let recoveryOk ← verifyAndConsumeRecoveryCode crypto admin.id body.recoveryCode
    compared key (totpOk || recoveryOk)
    if totpOk = false ∧ recoveryOk = false then
      rejected cfg key "Неверный код двухфакторной аутентификации или резервный код"
    else do
      successLimiter key
      let tok ← signAccess cfg admin.id admin.username
      pure (.token tok)

def loginMFA (client : Client) (body : Option MfaBody) : Handler Response :=
  match body with
  | none => pure (.error 400 "Требуется токен подтверждения 2FA")
  | some body =>
    if body.mfaPendingToken = .other "" then pure (.error 400 "Требуется токен подтверждения 2FA")
    else do
      let now ← timeNow
      match parseToken now body.mfaPendingToken with
      | none => pure (.error 401 "Сессия подтверждения 2FA истекла. Войдите снова.")
      | some claims =>
        if claims.purpose ≠ "mfa_pending" then
          pure (.error 401 "Сессия подтверждения 2FA истекла. Войдите снова.")
        else do
          let key := loginKey (clientIP client) claims.username
          match ← checkLimiter key with
          | some retry => pure (.tooManyRequests "Слишком много неудачных попыток входа." retry)
          | none =>
            match ← selectAdmin claims.sub with
            | none => rejected cfg key "Invalid credentials"
            | some admin => loginMFAAs cfg crypto key body claims admin

/-! ### Requests that carry a token -/

/-- What `RequireAuth` accepts at a time. -/
def accepts (now : ℤ) (tok : Jwt) : Option Claims :=
  (parseToken now tok).filter fun c => c.purpose ≠ "mfa_pending"

/-- `RequireAuth` in front of a handler, with the token of the header `Authorization: Bearer …`. -/
def requireAuth (bearer : Option Jwt) (next : Claims → Handler Response) : Handler Response :=
  match bearer with
  | none => pure (.error 401 "Unauthorized")
  | some tok => do
    let claims ← Request.read
      (fun w => ((accepts w.now tok).map fun c => Label.authorized c w.now).getD .unauthorized)
      fun w => accepts w.now tok
    match claims with
    | none => pure (.error 401 "Invalid token")
    | some claims => next claims

def refresh (u : Claims) : Handler Response := do
  let tok ← signAccess cfg u.sub u.username
  pure (.token tok)

theorem accepts_eq_some {now : ℤ} {tok : Jwt} {c : Claims} :
    accepts now tok = some c ↔
      tok = .signed c ∧ now < c.expiresAt * second ∧ c.purpose ≠ "mfa_pending" := by
  rw [accepts, Option.filter_eq_some_iff, parseToken_eq_some, decide_eq_true_iff, and_assoc]

end OpenvpnControl.Auth
