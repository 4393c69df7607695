import OpenvpnControl.Handlers.AdminPublic
import OpenvpnControl.Handlers.Admins

/-!
# Passwords that are accepted

Four handlers write the password of an admin and two check it, and some of them trim it. This file
determines the passwords that work after they have been accepted.

## Main definitions

* `changePassword`: the handler of `handlers/admins.go`.
* `Bcrypt`: `bcrypt` compares exactly.
* `PasswordRequest`: a request that sets a password, with `handler`, `target` and `Accepts`.
* `loginCheck`, `currentCheck`: the checks of `Login` and `ChangePassword`.

## Main results

* `login_passes_iff`, `changePassword_passes_iff`: the checks are those of the handlers.
* `passwordHash_of_accepts`: what an accepted password leaves in the row.
* `password_works_iff`: an accepted password works exactly when it has no spaces at its ends.
-/

namespace OpenvpnControl.Handlers

open Auth (World Admin Handler Crypto Response Claims Config)
open Limiter (Client clientIP loginKey)

/-! ### Changing the own password -/

/-- The body of `ChangePassword`. -/
structure ChangeBody where
  currentPassword : String
  newPassword : String
  deriving DecidableEq

/-- What `ChangePassword` writes. -/
def setOwnPassword (hash : String) (a : Admin) : Admin :=
  { a with passwordHash := hash, passwordResetToken := none, passwordResetExpiresAt := none }

/-- `ChangePassword`, for the user of the token; no body is a body that does not decode. -/
def changePassword (crypto : Crypto) (u : Option Claims) (body : Option ChangeBody)
    (salt : String) :
    Handler Response :=
  match u, body with
  | none, _ => pure (.error 401 "Unauthorized")
  | _, none => pure (.error 400 "invalid json")
  | some u, some body =>
    let current := GoStrings.trimSpace body.currentPassword
    let next := body.newPassword
    if current = "" ∨ next = "" then pure (.error 400 "Текущий и новый пароль обязательны")
    else if GoStrings.byteLength next < 10 then
      pure (.error 400 "Новый пароль должен быть не короче 10 символов")
    else do
      match ← Auth.selectAdmin u.sub with
      | none => pure (.error 401 "Unauthorized")
      | some a =>
        if a.isActive = false then pure (.error 401 "Unauthorized")
        else if crypto.compareHashAndPassword a.passwordHash current = false then
          pure (.error 400 "Текущий пароль указан неверно")
        else match crypto.generateFromPassword salt next with
          | none => pure (.error 500 "hash error")
          | some newHash => do
            Auth.updateAdmin u.sub (setOwnPassword newHash)
            pure .ok

/-! ### Checks of a password -/

/-- `bcrypt` compares exactly: a hash is the hash of one password. -/
def Bcrypt (crypto : Crypto) : Prop :=
  ∀ salt password hash, crypto.generateFromPassword salt password = some hash →
    ∀ q, crypto.compareHashAndPassword hash q = decide (q = password)

/-- The check of a password in `Login`. -/
def loginCheck (crypto : Crypto) (a : Admin) (password : String) : Bool :=
  decide (password ≠ "") && crypto.compareHashAndPassword a.passwordHash password

/-- The check of the current password in `ChangePassword`. -/
def currentCheck (crypto : Crypto) (a : Admin) (password : String) : Bool :=
  let current := GoStrings.trimSpace password
  decide (current ≠ "") && crypto.compareHashAndPassword a.passwordHash current

/-- Does an answer go on with a login? -/
def goesOn : Response → Bool
  | .token _ => true
  | .mfaRequired _ => true
  | _ => false

variable {crypto : Crypto} {w : World}

theorem goesOn_rejected (cfg : Config) (key msg : String) :
    goesOn ((Auth.rejected cfg key msg).alone w).2 = false := rfl

/-- **The check of `Login`**: the login of an active admin goes on when the password passes. -/
theorem login_passes_iff (cfg : Config) {client : Client} {username password : String} {a : Admin}
    (hname : username ≠ "") (hrow : w.adminNamed username = some a) (hactive : a.isActive = true)
    (hinvite : a.inviteToken.getD "" = "")
    (hunlocked : w.locked (loginKey (clientIP client) username) = false) :
    goesOn ((Auth.login cfg crypto client (some ⟨username, password⟩)).alone w).2 =
      loginCheck crypto a password := by
  rw [Auth.login, loginCheck]
  by_cases hpassword : password = ""
  · simp [hpassword, goesOn]
  have hcheck := Limiter.check_eq_none_iff.2 hunlocked
  simp only [hname, hpassword, or_self, if_false, Request.alone_bind, Auth.checkLimiter,
    Request.alone_read, hcheck, hrow]
  rw [Auth.loginAs, if_neg (by simp [hactive]), if_neg (by simp [hinvite])]
  cases hok : crypto.compareHashAndPassword a.passwordHash password with
  | false => simp [Request.alone_bind, Auth.comparing, Auth.compared,
    Request.alone_read, goesOn_rejected]
  | true =>
    cases htotp : a.totpEnabled with
    | false => simp [Request.alone_bind, Auth.comparing, Auth.compared,
        Auth.successLimiter, Auth.signAccess, Request.alone_read,
        Request.alone_write, hpassword, goesOn]
    | true => simp [Request.alone_bind, Auth.comparing, Auth.compared, Auth.signMFAPending,
        Request.alone_read, hpassword, goesOn]

/-- **The check of `ChangePassword`**: the password of an active admin is changed when the current
one passes. -/
theorem changePassword_passes_iff {u : Claims} {current next salt hash : String} {a : Admin}
    (hrow : w.admin u.sub = some a) (hactive : a.isActive = true)
    (hnext : 10 ≤ GoStrings.byteLength next)
    (hhash : crypto.generateFromPassword salt next = some hash) :
    ((changePassword crypto (some u) (some ⟨current, next⟩) salt).alone w).2 = .ok ↔
      currentCheck crypto a current = true := by
  have hne : next ≠ "" := by
    rintro rfl
    exact absurd hnext (by decide)
  rw [changePassword, currentCheck]
  by_cases hcurrent : GoStrings.trimSpace current = ""
  · simp [hcurrent]
  simp only [hcurrent, hne, or_self, if_false, Nat.not_lt.2 hnext, Request.alone_bind,
    Auth.selectAdmin, Request.alone_read, hrow, hactive, hhash]
  cases hok : crypto.compareHashAndPassword a.passwordHash (GoStrings.trimSpace current) with
  | false => simp
  | true => simp [Request.alone_bind, hcurrent]

/-! ### Requests that set a password -/

/-- A request that sets a password, with everything of it but the password; a body of `Patch` has
other fields beside the password. -/
inductive PasswordRequest where
  | inviteComplete (token : String)
  | passwordResetComplete (token : String)
  | changePassword (u : Claims) (currentPassword : String)
  | patch (adminID : String) (fields : Fields)

namespace PasswordRequest

/-- The handler of a request, with the password. -/
def handler (crypto : Crypto) (password salt : String) : PasswordRequest → Handler Response
  | inviteComplete token => Handlers.inviteComplete crypto (some ⟨token, password⟩) salt
  | passwordResetComplete token =>
    Handlers.passwordResetComplete crypto (some ⟨token, password⟩) salt
  | changePassword u current =>
    Handlers.changePassword crypto (some u) (some ⟨current, password⟩) salt
  | patch adminID fields =>
    patchAdmin crypto adminID (some (("password", .str password) :: fields)) salt

/-- The admin whose password a request sets. -/
def target (w : World) : PasswordRequest → Option String
  | inviteComplete token => (World.holder .invite (GoStrings.trimSpace token) w).map Admin.id
  | passwordResetComplete token =>
    (World.holder .passwordReset (GoStrings.trimSpace token) w).map Admin.id
  | changePassword u _ => some u.sub
  | patch adminID _ => some adminID

/-- Does the answer say that the password is set? `Patch` ignores a blank password. -/
def succeeded (password : String) : PasswordRequest → Response → Bool
  | patch _ _, .row _ => GoStrings.trimSpace password ≠ ""
  | patch _ _, _ => false
  | _, answer => answer = .ok

/-- The request, alone, sets the password of the admin. -/
def Accepts (crypto : Crypto) (password salt : String) (w : World) (id : String)
    (req : PasswordRequest) : Prop :=
  req.target w = some id ∧
    req.succeeded password ((req.handler crypto password salt).alone w).2 = true

instance {crypto : Crypto} {password salt : String} {w : World} {id : String}
    {req : PasswordRequest} :
    Decidable (req.Accepts crypto password salt w id) := inferInstanceAs (Decidable (_ ∧ _))

/-- The password as a request hashes it. -/
def written (password : String) : PasswordRequest → String
  | patch _ _ => GoStrings.trimSpace password
  | _ => password

end PasswordRequest

/-! ### What a request leaves -/

variable {password salt id : String}

/-- The row of an admin after an update. -/
theorem exists_admin_updateAdmin {f : Admin → Admin} (hf : ∀ a, (f a).id = a.id) {a : Admin}
    (ha : w.admin id = some a) : (w.updateAdmin id f).admin id = some (f a) := by
  rw [Auth.admin_updateAdmin hf, if_pos rfl, ha, Option.map_some]

/-- `tokenExpired` reads the clock only. -/
theorem alone_tokenExpired (exp : Option ℤ) : ∃ late, (tokenExpired exp).alone w = (w, late) := by
  cases exp <;> exact ⟨_, rfl⟩

theorem exists_admin_of_holder {kind : TokenKind} {token : String} {a : Admin}
    (h : World.holder kind token w = some a) : ∃ b, w.admin a.id = some b := by
  have hmem : a ∈ w.admins := List.mem_of_find?_eq_some h
  have hsome : (w.admin a.id).isSome = true := List.find?_isSome.2 ⟨a, hmem, by simp⟩
  exact Option.isSome_iff_exists.1 hsome

theorem byteLength_pos {n : ℕ} (h : ¬GoStrings.byteLength password < n)
    (hn : 0 < n) : password ≠ "" := by
  rintro rfl
  exact h hn

/-- `InviteComplete` and `PasswordResetComplete`. -/
theorem complete_accepts {kind : TokenKind} {notFound expired token : String}
    {write : String → Admin → Admin}
    (hwrite : ∀ hash a, (write hash a).id = a.id ∧ (write hash a).passwordHash = hash)
    (htarget : (World.holder kind (GoStrings.trimSpace token) w).map Admin.id = some id)
    (hok : ((complete kind notFound expired write crypto (some ⟨token, password⟩) salt).alone w).2 =
      .ok) :
    ∃ hash a, crypto.generateFromPassword salt password = some hash ∧
      ((complete kind notFound expired write crypto (some ⟨token, password⟩) salt).alone
        w).1.admin id = some a ∧
      a.passwordHash = hash ∧ password ≠ "" := by
  obtain ⟨a, ha, rfl⟩ := Option.map_eq_some_iff.1 htarget
  obtain ⟨b, hb⟩ := exists_admin_of_holder ha
  rw [complete] at hok ⊢
  by_cases hbody : GoStrings.trimSpace token = "" ∨ GoStrings.byteLength password < 8
  · simp [hbody] at hok
  simp only [if_neg hbody, Request.alone_bind] at hok ⊢
  by_cases hlength : GoStrings.byteLength (GoStrings.trimSpace token) < 16
  · simp [findAdminByToken, hlength] at hok
  have hfind : (findAdminByToken kind (GoStrings.trimSpace token)).alone w = (w, some a) := by
    rw [findAdminByToken, GoStrings.trimSpace_trimSpace, if_neg hlength, Request.alone_read, ha]
  simp only [hfind] at hok ⊢
  by_cases hempty : a.id = "" ∨ (kind.token a).getD "" = ""
  · simp [hempty] at hok
  obtain ⟨late, hlate⟩ := @alone_tokenExpired w (kind.expiresAt a)
  simp only [if_neg hempty, Request.alone_bind, hlate] at hok ⊢
  cases late with
  | true => simp at hok
  | false =>
    cases hhash : crypto.generateFromPassword salt password with
    | none => simp [hhash] at hok
    | some hash =>
      refine ⟨hash, write hash b, rfl, ?_, (hwrite hash b).2,
        byteLength_pos (not_or.1 hbody).2 (by decide)⟩
      simp only [Bool.false_eq_true, if_false, Request.alone_bind,
        Auth.updateAdmin, Request.alone_write]
      exact exists_admin_updateAdmin (fun a => (hwrite hash a).1) hb

/-- `ChangePassword`. -/
theorem changePassword_accepts {u : Claims} {current : String}
    (hok : ((changePassword crypto (some u) (some ⟨current, password⟩) salt).alone w).2 = .ok) :
    ∃ hash a, crypto.generateFromPassword salt password = some hash ∧
      ((changePassword crypto (some u) (some ⟨current, password⟩) salt).alone w).1.admin u.sub =
      some a ∧ a.passwordHash = hash ∧ password ≠ "" := by
  rw [changePassword] at hok ⊢
  by_cases hempty : GoStrings.trimSpace current = "" ∨ password = ""
  · simp [hempty] at hok
  by_cases hlength : GoStrings.byteLength password < 10
  · simp [hempty, hlength] at hok
  simp only [if_neg hempty, if_neg hlength, Request.alone_bind, Auth.selectAdmin,
    Request.alone_read] at hok ⊢
  cases ha : w.admin u.sub with
  | none => simp [ha] at hok
  | some a =>
    simp only [ha] at hok ⊢
    by_cases hactive : a.isActive = false
    · simp [hactive] at hok
    by_cases hcompare : crypto.compareHashAndPassword a.passwordHash
      (GoStrings.trimSpace current) = false
    · simp [hactive, hcompare] at hok
    simp only [if_neg hactive, if_neg hcompare] at hok ⊢
    cases hhash : crypto.generateFromPassword salt password with
    | none => simp [hhash] at hok
    | some hash =>
      refine ⟨hash, setOwnPassword hash a, rfl, ?_, rfl, byteLength_pos hlength (by decide)⟩
      exact exists_admin_updateAdmin (f := setOwnPassword hash) (fun _ => rfl) ha

/-! ### The fields of `Patch` -/

/-- A change of a row that keeps its id and its password. -/
def KeepsPassword (f : Admin → Admin) : Prop := ∀ a, (f a).id = a.id ∧
    (f a).passwordHash = a.passwordHash

/-- A field whose change keeps the password, or that ends the request with an error. -/
def Setter.KeepsPassword : Setter → Prop
  | .ok change => ∀ f, change = some f → Handlers.KeepsPassword f
  | .error answer => ∃ status msg, answer = .error status msg

theorem keepsPassword_setIsActive (body : Fields) : ∀ f,
    setIsActive body = some f → KeepsPassword f := by
  intro f h
  rw [setIsActive] at h
  split at h
  · obtain rfl := Option.some.inj h
    exact fun _ => ⟨rfl, rfl⟩
  · cases h

theorem keepsPassword_setFullName (body : Fields) : (setFullName body).KeepsPassword := by
  rw [setFullName]
  split_ifs
  · intro f h
    cases h
  · exact ⟨_, _, rfl⟩
  · intro f h
    cases h
    exact fun _ => ⟨rfl, rfl⟩

/-- The look-up of a name changes nothing. -/
theorem alone_setUsername (adminID : String) (body : Fields) :
    ∃ s : Setter, (setUsername adminID body).alone w = (w, s) ∧ s.KeepsPassword := by
  rw [setUsername]
  split_ifs
  · exact ⟨_, rfl, nofun⟩
  · exact ⟨_, rfl, _, _, rfl⟩
  · rw [Request.alone_bind, Request.alone_read]
    split_ifs
    · exact ⟨_, rfl, _, _, rfl⟩
    · refine ⟨_, rfl, fun f h => ?_⟩
      cases h
      exact fun _ => ⟨rfl, rfl⟩

/-- The look-up of an address changes nothing. -/
theorem alone_setEmail (adminID : String) (body : Fields) :
    ∃ s : Setter, (setEmail adminID body).alone w = (w, s) ∧ s.KeepsPassword := by
  rw [setEmail]
  split_ifs
  · exact ⟨_, rfl, nofun⟩
  · exact ⟨_, rfl, _, _, rfl⟩
  · exact ⟨_, rfl, _, _, rfl⟩
  · rw [Request.alone_bind, Request.alone_read]
    split_ifs
    · exact ⟨_, rfl, _, _, rfl⟩
    · refine ⟨_, rfl, fun f h => ?_⟩
      cases h
      exact fun _ => ⟨rfl, rfl⟩

/-- Changes that keep the password, one after the other. -/
theorem keepsPassword_applySets {sets : List (Admin → Admin)} (h : ∀ f ∈ sets, KeepsPassword f) :
    KeepsPassword (applySets sets) := by
  induction sets with
  | nil => exact fun _ => ⟨rfl, rfl⟩
  | cons f sets ih =>
    obtain ⟨hf, hsets⟩ := List.forall_mem_cons.1 h
    intro a
    obtain ⟨hid, hpassword⟩ := ih hsets (f a)
    exact ⟨hid.trans (hf a).1, hpassword.trans (hf a).2⟩

theorem applySets_append (sets sets' : List (Admin → Admin)) (a : Admin) :
    applySets (sets ++ sets') a = applySets sets' (applySets sets a) := List.foldl_append

/-- What `Patch` writes beside the password keeps it. -/
theorem applySets_filterMap {active fullName username email : Option (Admin → Admin)}
    {password : Admin → Admin} (hactive : ∀ f, active = some f → KeepsPassword f)
    (hfullName : ∀ f, fullName = some f → KeepsPassword f)
    (husername : ∀ f, username = some f → KeepsPassword f)
    (hemail : ∀ f, email = some f → KeepsPassword f) {hash : String}
    (hpassword : ∀ a, (password a).id = a.id ∧ (password a).passwordHash = hash) (a : Admin) :
    (applySets ([active, some password, fullName, username, email].filterMap fun f => f) a).id =
      a.id ∧ (applySets ([active, some password, fullName, username, email].filterMap fun f =>
        f) a).passwordHash =
        hash := by
  have hsplit : [active, some password, fullName, username, email].filterMap (fun f => f) =
      active.toList ++ (password :: [fullName, username, email].filterMap fun f => f) := by
    cases active <;> rfl
  have hbefore : KeepsPassword (applySets active.toList) :=
    keepsPassword_applySets fun f hf => hactive f (Option.mem_toList.1 hf)
  have hafter : KeepsPassword (applySets ([fullName, username, email].filterMap fun f => f)) :=
    keepsPassword_applySets fun f hf => by
      obtain ⟨o, ho, hof⟩ := List.mem_filterMap.1 hf
      simp only [List.mem_cons, List.not_mem_nil, or_false] at ho
      obtain rfl | rfl | rfl := ho
      · exact hfullName f hof
      · exact husername f hof
      · exact hemail f hof
  rw [hsplit, applySets_append]
  obtain ⟨hid, hhash⟩ := hafter (password (applySets active.toList a))
  obtain ⟨hid', hhash'⟩ := hpassword (applySets active.toList a)
  exact ⟨hid.trans (hid'.trans (hbefore a).1), hhash.trans hhash'⟩

/-- The statement that writes the fields. -/
theorem updateReturning_accepts {adminID hash : String} {sets : List (Admin → Admin)} {row : Admin}
    (hsets : ∀ a, (applySets sets a).id = a.id ∧ (applySets sets a).passwordHash = hash)
    (hrow : ((updateReturning adminID sets).alone w).2 = .row row) :
    ∃ a, ((updateReturning adminID sets).alone w).1.admin adminID = some a ∧
    a.passwordHash = hash := by
  rw [updateReturning, Request.alone_stmt, Request.alone_done] at hrow ⊢
  cases ha : w.admin adminID with
  | none =>
    rw [ha] at hrow
    cases hrow
  | some a =>
    rw [ha] at hrow
    by_cases hallows : World.allows w adminID (applySets sets a) = true
    · refine ⟨applySets sets a, ?_, (hsets a).2⟩
      simp only [Option.all_some, hallows, if_true]
      exact exists_admin_updateAdmin (f := applySets sets) (fun a => (hsets a).1) ha
    · simp [hallows] at hrow

/-- `Patch`. -/
theorem patchAdmin_accepts {adminID : String} {fields : Fields} {row : Admin}
    (htrim : GoStrings.trimSpace password ≠ "")
    (hrow : ((patchAdmin crypto adminID (some (("password", .str password) :: fields)) salt).alone
      w).2 = .row row) :
    ∃ hash a, crypto.generateFromPassword salt (GoStrings.trimSpace password) = some hash ∧
      ((patchAdmin crypto adminID (some (("password", .str password) :: fields)) salt).alone
        w).1.admin adminID = some a ∧ a.passwordHash = hash := by
  have htext : textField (("password", .str password) :: fields) "password" =
      GoStrings.trimSpace password := by
    simp [textField, Json.field, strAny]
  rw [patchAdmin] at hrow ⊢
  generalize hbody : ("password", Json.str password) :: fields = body at hrow htext ⊢
  cases hhash : crypto.generateFromPassword salt (GoStrings.trimSpace password) with
  | none => simp [setPassword, htext, htrim, hhash] at hrow
  | some hash =>
    simp only [setPassword, htext, if_neg htrim, hhash] at hrow ⊢
    have hkeeps := keepsPassword_setFullName body
    obtain ⟨username, husername, hkeepsUsername⟩ := @alone_setUsername w adminID body
    obtain ⟨email, hemail, hkeepsEmail⟩ := @alone_setEmail w adminID body
    cases hfull : setFullName body with
    | error answer =>
      rw [hfull] at hrow hkeeps
      obtain ⟨status, msg, rfl⟩ := hkeeps
      cases hrow
    | ok fullName =>
      rw [hfull] at hkeeps
      simp only [hfull, Request.alone_bind, husername] at hrow ⊢
      cases username with
      | error answer =>
        obtain ⟨status, msg, rfl⟩ := hkeepsUsername
        cases hrow
      | ok username =>
        simp only [Request.alone_bind, hemail] at hrow ⊢
        cases email with
        | error answer =>
          obtain ⟨status, msg, rfl⟩ := hkeepsEmail
          cases hrow
        | ok email =>
          have hsets := @applySets_filterMap (setIsActive body) fullName username email
            (fun a => { a with passwordHash := hash, inviteToken := none, inviteExpiresAt := none,
                               passwordResetToken := none, passwordResetExpiresAt := none })
            (keepsPassword_setIsActive body) hkeeps hkeepsUsername hkeepsEmail
              hash fun _ => ⟨rfl, rfl⟩
          dsimp only at hrow ⊢
          generalize ([setIsActive body, some _, fullName, username, email].filterMap fun f => f) =
            sets at hrow hsets ⊢
          by_cases hempty : sets.isEmpty = true
          · rw [if_pos hempty] at hrow
            cases hrow
          rw [if_neg hempty] at hrow ⊢
          obtain ⟨a, ha, hpassword⟩ := updateReturning_accepts hsets hrow
          exact ⟨hash, a, rfl, ha, hpassword⟩

/-! ### The property -/

namespace PasswordRequest

/-- **What an accepted password leaves**: its row holds the hash of the password as it is
written. -/
theorem passwordHash_of_accepts {req : PasswordRequest}
    (h : req.Accepts crypto password salt w id) :
    ∃ hash a, crypto.generateFromPassword salt (req.written password) = some hash ∧
      ((req.handler crypto password salt).alone w).1.admin id = some a ∧ a.passwordHash = hash ∧
      req.written password ≠ "" := by
  obtain ⟨htarget, hsucceeded⟩ := h
  cases req with
  | inviteComplete token =>
    exact complete_accepts (fun _ _ => ⟨rfl, rfl⟩) htarget (of_decide_eq_true hsucceeded)
  | passwordResetComplete token =>
    exact complete_accepts (fun _ _ => ⟨rfl, rfl⟩) htarget (of_decide_eq_true hsucceeded)
  | changePassword u current =>
    obtain rfl := Option.some.inj htarget
    exact changePassword_accepts (of_decide_eq_true hsucceeded)
  | patch adminID fields =>
    obtain rfl := Option.some.inj htarget
    cases hanswer : ((handler crypto password salt (patch adminID fields)).alone w).2 with
    | row a =>
      rw [hanswer] at hsucceeded
      have htrim : GoStrings.trimSpace password ≠ "" := of_decide_eq_true hsucceeded
      obtain ⟨hash, a, hhash, ha, hpassword⟩ := patchAdmin_accepts htrim hanswer
      exact ⟨hash, a, hhash, ha, hpassword, htrim⟩
    | _ =>
      rw [hanswer] at hsucceeded
      cases hsucceeded

/-- The password as it is written has no more spaces at its ends than the one that is compared. -/
theorem trimSpace_written (req : PasswordRequest) (password : String) :
    GoStrings.trimSpace (req.written password) = GoStrings.trimSpace password := by
  cases req with
  | patch adminID fields => exact GoStrings.trimSpace_trimSpace password
  | _ => rfl

/-- **Accepted passwords.** After a request has set a password, `Login` and `ChangePassword` accept
it and `Login` accepts no other one exactly when it has no spaces at its ends. -/
theorem password_works_iff (hbcrypt : Bcrypt crypto) {req : PasswordRequest}
    (haccepts : req.Accepts crypto password salt w id) :
    (∃ a, ((req.handler crypto password salt).alone w).1.admin id = some a ∧
      loginCheck crypto a password = true ∧ currentCheck crypto a password = true ∧
      ∀ q, q ≠ password → loginCheck crypto a q = false) ↔
      GoStrings.trimSpace password = password := by
  obtain ⟨hash, a, hhash, ha, rfl, hne⟩ := passwordHash_of_accepts haccepts
  have hcompare := hbcrypt salt _ _ hhash
  have hwritten := trimSpace_written req password
  simp only [loginCheck, currentCheck, Bool.and_eq_true, Bool.and_eq_false_iff, decide_eq_true_eq]
  constructor
  · rintro ⟨a', ha', ⟨-, hlogin⟩, ⟨-, hcurrent⟩, -⟩
    obtain rfl : a = a' := Option.some.inj (ha.symm.trans ha')
    rw [hcompare, decide_eq_true_eq] at hlogin hcurrent
    exact hcurrent.trans hlogin.symm
  · intro htrim
    have hsame : req.written password = password := by
      cases req with
      | patch adminID fields => exact htrim
      | _ => rfl
    rw [hsame] at hcompare hne
    refine ⟨a, ha, ⟨hne, by rw [hcompare, decide_eq_true_eq]⟩, ?_, fun q hq => Or.inr ?_⟩
    · rw [htrim]
      exact ⟨hne, by rw [hcompare, decide_eq_true_eq]⟩
    · rw [hcompare, decide_eq_false_iff_not]
      exact hq

end PasswordRequest

/-! ### An invitation and a change -/

/-- An admin without a password, with an invitation. -/
def invitedWorld : World where
  nanoseconds := 0
  admins := [⟨"a1", "Alice", "alice", none, "", true, some "0123456789abcdef", none, none,
    none, false, none, none, none⟩]
  recoveryCodes := []
  limiter := ∅

theorem bcrypt_plain : Bcrypt .plain := by
  intro salt password hash h q
  obtain rfl := Option.some.inj h
  exact decide_eq_decide.2 eq_comm

namespace PasswordRequest

/-- An invitation that is accepted with a password without spaces. -/
theorem password_works_iff_invited :
    (∃ a, (((inviteComplete "0123456789abcdef").handler .plain "password" "").alone
        invitedWorld).1.admin "a1" =
        some a ∧ loginCheck .plain a "password" = true ∧ currentCheck .plain a "password" = true ∧
      ∀ q, q ≠ "password" → loginCheck .plain a q = false) ↔
      GoStrings.trimSpace "password" = "password" :=
  @password_works_iff .plain invitedWorld "password" "" "a1" bcrypt_plain
    (inviteComplete "0123456789abcdef") (by decide +kernel)

/-- A password with a space at its end is accepted with an invitation, and no check of
`ChangePassword` passes it. -/
theorem password_fails :
    ¬∀ (crypto : Crypto) (password salt : String) (w : World) (id : String) (req : PasswordRequest),
      Bcrypt crypto → req.Accepts crypto password salt w id →
      ∃ a, ((req.handler crypto password salt).alone w).1.admin id = some a ∧
        loginCheck crypto a password = true ∧ currentCheck crypto a password = true ∧
        ∀ q, q ≠ password → loginCheck crypto a q = false := by
  intro h
  obtain ⟨a, ha, -, hcurrent, -⟩ :=
    h .plain "password " "" invitedWorld "a1" (inviteComplete "0123456789abcdef")
      bcrypt_plain (by decide +kernel)
  have hstored : ((((inviteComplete "0123456789abcdef").handler .plain "password " "").alone
      invitedWorld).1.admin "a1").map (·.passwordHash) = some "password " := by
    decide +kernel
  rw [ha] at hstored
  have hhash : a.passwordHash = "password " := Option.some.inj hstored
  rw [currentCheck, hhash] at hcurrent
  exact absurd hcurrent (by decide +kernel)

end PasswordRequest

end OpenvpnControl.Handlers
