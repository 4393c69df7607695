import OpenvpnControl.Library.GoMap
import OpenvpnControl.Library.GoStrings
import OpenvpnControl.Library.Requests
import OpenvpnControl.Library.Rows
import OpenvpnControl.Limiter.Login

/-!
# What the requests of the admins share

The tables `Admin` and `AdminTotpRecoveryCode`, the state of the login limiter and the clock, with
the statements the handlers of the package `auth` and of `admins_ext.go` make. A token is what its
signature says of it: the claims that were signed with the panel's secret, or nothing of the kind.
The functions of `bcrypt`, `pquerna/otp` and AES-GCM are parameters. Times are nanoseconds since
1970.

## Main definitions

* `Admin`, `RecoveryCode`, `World`: the state.
* `Claims`, `Jwt`, `parseToken`: tokens.
* `Crypto`, `Config`: the parameters.
* `Label`: what a statement leaves in the history.
* `Response`: what a handler answers.
-/

namespace OpenvpnControl.Auth

open Limiter (LoginState)

/-! ### The state -/

/-- A row of the table `Admin`. -/
structure Admin where
  id : String
  fullName : String
  username : String
  email : Option String
  passwordHash : String
  isActive : Bool
  inviteToken : Option String
  inviteExpiresAt : Option ℤ
  passwordResetToken : Option String
  passwordResetExpiresAt : Option ℤ
  totpEnabled : Bool
  totpSecretEnc : Option String
  totpPendingSecretEnc : Option String
  totpPendingExpiresAt : Option ℤ
  deriving DecidableEq

/-- A row of the table `AdminTotpRecoveryCode`. -/
structure RecoveryCode where
  id : String
  adminId : String
  codeHash : String
  usedAt : Option ℤ
  deriving DecidableEq

/-- The nanoseconds since 1970, the tables, and the map of the login limiter. -/
structure World where
  nanoseconds : ℕ
  admins : List Admin
  recoveryCodes : List RecoveryCode
  limiter : GoMap LoginState

/-- `time.Now()`. -/
def World.now (w : World) : ℤ := w.nanoseconds

/-- `SELECT … FROM "Admin" WHERE id = $1`. -/
def World.admin (w : World) (id : String) : Option Admin := Rows.byKey Admin.id id w.admins

/-- `SELECT … FROM "Admin" WHERE username = $1`. -/
def World.adminNamed (w : World) (username : String) : Option Admin :=
  Rows.byKey Admin.username username w.admins

/-- `UPDATE "Admin" SET … WHERE id = $1`. -/
def World.updateAdmin (id : String) (f : Admin → Admin) (w : World) : World :=
  { w with admins := Rows.updateWhere (fun a => a.id = id) f w.admins }

/-! ### Tokens -/

/-- `Claims`, with the times of `jwt.RegisteredClaims` in seconds. -/
structure Claims where
  sub : String
  username : String
  purpose : String
  expiresAt : ℤ
  issuedAt : ℤ
  deriving DecidableEq

/-- A compact token: one whose signature is the panel's, or any other text. -/
inductive Jwt where
  | signed (c : Claims)
  | other (text : String)
  deriving DecidableEq

/-- Nanoseconds in a second. -/
def second : ℤ := 1000000000

/-- `ParseToken` at a time: `jwt.ParseWithClaims` refuses a token from its `exp` on. -/
def parseToken (now : ℤ) : Jwt → Option Claims
  | .signed c => if now < c.expiresAt * second then some c else none
  | .other _ => none

/-- The claims of `SignAccess`; `jwt.NewNumericDate` cuts a time to the second. -/
def accessClaims (now expires : ℤ) (sub username : String) : Claims where
  sub := sub
  username := username
  purpose := ""
  expiresAt := (now + expires) / second
  issuedAt := now / second

/-- The claims of `SignMFAPending`. -/
def mfaPendingClaims (now expires : ℤ) (sub username : String) : Claims where
  sub := sub
  username := username
  purpose := "mfa_pending"
  expiresAt := (now + expires) / second
  issuedAt := now / second

/-! ### Parameters -/

/-- What the panel's secret decides and what libraries compute: `bcrypt`, `totp.Validate` at a time,
and AES-GCM with its nonce. -/
structure Crypto where
  compareHashAndPassword : String → String → Bool
  generateFromPassword : String → String → Option String
  validate : ℤ → String → String → Bool
  encryptSecret : String → String → String
  decryptSecret : String → Option String
  decrypt_encrypt : ∀ nonce secret, decryptSecret (encryptSecret nonce secret) = some secret

/-- Functions that hide nothing: a hash is the password, a code is the secret. -/
def Crypto.plain : Crypto where
  compareHashAndPassword hash password := hash = password
  generateFromPassword _ password := some password
  validate _ code secret := code = secret
  encryptSecret _ secret := secret
  decryptSecret payload := some payload
  decrypt_encrypt _ _ := rfl

/-- The settings of the panel that the handlers read. -/
structure Config where
  jwtExpiresIn : ℤ
  mfaPendingExpiresIn : ℤ
  loginMaxAttempts : ℤ
  loginLockout : ℤ

/-- Settings with times of an hour and a minute. -/
def Config.hourly : Config where
  jwtExpiresIn := 3600 * second
  mfaPendingExpiresIn := 60 * second
  loginMaxAttempts := 3
  loginLockout := 60 * second

/-- `VerifyTotp` at a time. -/
def verifyTotp (crypto : Crypto) (now : ℤ) (secret code : String) : Bool :=
  let code := GoStrings.replaceChar ' ' [] code
  code ≠ "" && crypto.validate now code secret

/-! ### What statements leave in the history, and what handlers answer -/

/-- What a statement leaves in the history. -/
inductive Label where
  /-- A reading of the clock. -/
  | clock (now : ℤ)
  /-- `Check` of the limiter. -/
  | check (key : String) (ok : Bool)
  /-- `Fail` of the limiter, which locks the key or not. -/
  | fail (key : String) (locks : Bool)
  /-- `Success` of the limiter. -/
  | success (key : String)
  /-- A credential is compared, while the key is locked or not. -/
  | comparing (key : String) (now : ℤ) (locked : Bool)
  /-- The outcome of the comparison of an attempt. -/
  | compared (key : String) (ok locked : Bool)
  /-- A row of `Admin` is read. -/
  | selected (row : Option Admin)
  /-- A token is signed. -/
  | signed (c : Claims)
  /-- `RequireAuth` lets a request pass. -/
  | authorized (c : Claims) (now : ℤ)
  /-- `RequireAuth` refuses a request. -/
  | unauthorized
  /-- A statement of a transaction on the recovery codes that changes nothing. -/
  | recovery
  /-- A recovery code is marked used, where `affected` is whether it was unused. -/
  | recoveryUsed (row : RecoveryCode) (affected : Bool)
  /-- A row of `Admin` is written, with the row before it. -/
  | updated (id : String) (before : Option Admin)
  /-- The recovery codes of an admin are replaced, with the row of the admin. -/
  | replacedCodes (id : String) (before : Option Admin)
  deriving DecidableEq

/-- The row that a statement read. -/
def Label.row : Label → Option Admin
  | .selected row => row
  | _ => none

/-- The rows that a request read, the latest first. -/
def rowsRead (own : List Label) : List Admin := own.filterMap Label.row

/-- What a handler answers. -/
inductive Response where
  | error (status : ℕ) (msg : String)
  | tooManyRequests (msg : String) (retryAfterSeconds : ℤ)
  | mfaRequired (mfaPendingToken : Jwt)
  | token (token : Jwt)
  | setup (qrDataUrl manualSecret : String) (expiresAt : ℤ)
  | recoveryCodes (codes : List String)
  | resetPath (token : String)
  | row (a : Admin)
  | ok
  deriving DecidableEq

/-- A handler. -/
abbrev Handler (α : Type) : Type := Request World Label α

/-- `time.Now()`. -/
def timeNow : Handler ℤ := .read (fun w => .clock w.now) World.now

def signAccess (cfg : Config) (sub username : String) : Handler Jwt :=
  .read (fun w => .signed (accessClaims w.now cfg.jwtExpiresIn sub username)) fun w =>
    .signed (accessClaims w.now cfg.jwtExpiresIn sub username)

def signMFAPending (cfg : Config) (sub username : String) : Handler Jwt :=
  .read (fun w => .signed (mfaPendingClaims w.now cfg.mfaPendingExpiresIn sub username)) fun w =>
    .signed (mfaPendingClaims w.now cfg.mfaPendingExpiresIn sub username)

/-- `SELECT … FROM "Admin" WHERE id = $1`, as a statement. -/
def selectAdmin (id : String) : Handler (Option Admin) :=
  .read (fun w => .selected (w.admin id)) fun w => w.admin id

/-- `UPDATE "Admin" SET … WHERE id = $1`, as a statement. -/
def updateAdmin (id : String) (f : Admin → Admin) : Handler Unit :=
  .write (fun w => .updated id (w.admin id)) (World.updateAdmin id f)

/-! ### The surroundings -/

/-- What happens beside the modelled requests: time passes, or another request writes the table of
the admins. -/
inductive Env where
  | tick (d : ℕ)
  | setAdmins (rows : List Admin)
  deriving DecidableEq

/-- The effect of the surroundings. -/
def Env.apply : Env → World → Option World
  | .tick d, w => some { w with nanoseconds := w.nanoseconds + d }
  | .setAdmins rows, w => some { w with admins := rows }

/-! ### Lemmas -/

@[simp] theorem rowsRead_nil : rowsRead [] = [] := rfl

@[simp] theorem rowsRead_selected (row : Option Admin) (own : List Label) :
    rowsRead (.selected row :: own) = row.toList ++ rowsRead own := by
  cases row <;> rfl

@[simp] theorem rowsRead_clock (now : ℤ) (own : List Label) :
    rowsRead (.clock now :: own) = rowsRead own := rfl

theorem parseToken_eq_some {now : ℤ} {tok : Jwt} {c : Claims} :
    parseToken now tok = some c ↔ tok = .signed c ∧ now < c.expiresAt * second := by
  cases tok with
  | other text => simp [parseToken]
  | signed d =>
    simp only [parseToken, Option.ite_none_right_eq_some, Option.some.injEq, Jwt.signed.injEq]
    constructor
    · rintro ⟨h, rfl⟩
      exact ⟨rfl, h⟩
    · rintro ⟨rfl, h⟩
      exact ⟨h, rfl⟩

/-- A token is good for no longer than its signer allowed. -/
theorem expiresAt_le (t : ℤ) : t / second * second ≤ t := by
  have := Int.ediv_mul_le t (b := second) (by decide)
  exact this

theorem admin_eq_some {w : World} {id : String} {a : Admin} (h : w.admin id = some a) :
    a ∈ w.admins ∧ a.id = id := by
  refine ⟨List.mem_of_find?_eq_some h, ?_⟩
  simpa using List.find?_some h

theorem adminNamed_eq_some {w : World} {username : String} {a : Admin}
    (h : w.adminNamed username = some a) : a ∈ w.admins ∧ a.username = username := by
  refine ⟨List.mem_of_find?_eq_some h, ?_⟩
  simpa using List.find?_some h

/-- What an update by `id` leaves under each `id`. -/
theorem admin_updateAdmin {w : World} {id : String} {f : Admin → Admin} (hf : ∀ a, (f a).id = a.id)
    (i : String) :
    (w.updateAdmin id f).admin i = if i = id then (w.admin i).map f else w.admin i := by
  simp only [World.admin, World.updateAdmin, Rows.byKey, Rows.updateWhere]
  induction w.admins with
  | nil => simp
  | cons a as ih =>
    have hid : (if decide (a.id = id) = true then f a else a).id = a.id := by
      split_ifs <;> simp [hf]
    simp only [List.map_cons, List.find?_cons, hid]
    by_cases ha : a.id = i
    · subst ha
      by_cases h : a.id = id <;> simp [h]
    · simpa only [ha, decide_false] using ih

end OpenvpnControl.Auth
