import OpenvpnControl.Handlers.Admins
import OpenvpnControl.Handlers.Totp

/-!
# Where tokens come from

Any clients log in, refresh their tokens and make other requests, side by side. Nobody can sign a
token but the panel. Then every token that passes `RequireAuth` goes back, through refreshes, to a
login that checked the password of an active admin without a second factor, or to one that checked
the second factor as well.

## Main definitions

* `SessionRequest`: the requests, and their programs.
* `PasswordChecked`, `AcceptsFactor`, `Granted`: what a login checked, and the chain behind a token.
* `Unforged`: a request carries a token that was signed.

## Main results

* `keeps_sessionRequest`: every request keeps the provenance of the tokens.
* `authorized_granted`: the provenance of every token that passes.
-/

namespace OpenvpnControl.Auth

open Handlers (TotpRequest Fields)
open Limiter (Client)
open Requests (Shared Pool Event Rules)

variable (cfg : Config) (crypto : Crypto)

/-! ### Requests -/

/-- A request. The requests after `refresh` go to the part of the panel behind `RequireAuth`; `totp`
is one of the endpoints of the second factor, made for the admin of the token, and `api` any request
that makes no statement modelled here. -/
inductive SessionRequest where
  | login (client : Client) (body : Option LoginBody)
  | loginMFA (client : Client) (body : Option MfaBody)
  | refresh (bearer : Option Jwt)
  | totp (bearer : Option Jwt) (r : TotpRequest)
  | patch (bearer : Option Jwt) (id : String) (body : Option Fields) (salt : String)
  | api (bearer : Option Jwt)
  deriving DecidableEq

/-- The request of an admin to an endpoint of the second factor. -/
def totpRequestOf (id : String) : TotpRequest → TotpRequest
  | .setupStart _ secret qrDataURL nonce => .setupStart id secret qrDataURL nonce
  | .setupConfirm _ totpCode nonce seeds => .setupConfirm id totpCode nonce seeds
  | .recoveryRegenerate _ totpCode seeds => .recoveryRegenerate id totpCode seeds
  | .disable _ totpCode => .disable id totpCode

/-- The program of a request. -/
def SessionRequest.program : SessionRequest → Handler Response
  | .login client body => Auth.login cfg crypto client body
  | .loginMFA client body => Auth.loginMFA cfg crypto client body
  | .refresh bearer => requireAuth bearer (Auth.refresh cfg)
  | .totp bearer r => requireAuth bearer fun u => (totpRequestOf u.sub r).program crypto
  | .patch bearer id body salt => requireAuth bearer fun _ =>
    Handlers.patchAdmin crypto id body salt
  | .api bearer => requireAuth bearer fun _ => pure .ok

/-- The claims of a token with the signature of the panel. -/
def Jwt.claims : Jwt → Option Claims
  | .signed c => some c
  | .other _ => none

/-- The claims of the signed token that a request carries. -/
def SessionRequest.presents : SessionRequest → Option Claims
  | .login _ _ => none
  | .loginMFA _ body => body.bind fun body => body.mfaPendingToken.claims
  | .refresh bearer | .totp bearer _ | .patch bearer _ _ _ | .api bearer => bearer.bind Jwt.claims

/-- The steps of any requests. -/
def sessionStep : Pool SessionRequest World Label Response → Event SessionRequest Env →
    Option (Pool SessionRequest World Label Response) :=
  Requests.step (SessionRequest.program cfg crypto) Env.apply

/-! ### The chain behind a token -/

/-- The panel has signed a token with these claims. -/
def Signed (s : Shared SessionRequest World Label) (c : Claims) : Prop :=
  ∃ e ∈ s.history, e.2 = .signed c

/-- Nobody but the panel signs: a request carries a token that was signed before, or no token. -/
def Unforged (s : Shared SessionRequest World Label) (r : SessionRequest) : Prop :=
  ∀ c ∈ r.presents, Signed s c

/-- A request may sign: it is no `Refresh` of a token that waits for the second factor. -/
def SessionRequest.MaySign (r : SessionRequest) : Prop :=
  ∀ c, r = .refresh (some (.signed c)) → c.purpose ≠ "mfa_pending"

/-- Request `i` is a `Login` that read the row `a` of its name, of an active admin, and checked the
password. -/
def PasswordChecked (s : Shared SessionRequest World Label) (i : ℕ) (a : Admin) : Prop :=
  ∃ client body, s.started[i]? = some (.login client (some body)) ∧
    (i, .selected (some a)) ∈ s.history ∧ a.username = body.username ∧ a.isActive = true ∧
      crypto.compareHashAndPassword a.passwordHash body.password = true

/-- The claims were signed by a `Login` that checked the password of an active admin, and wait for
the second factor. -/
def Pending (s : Shared SessionRequest World Label) (c : Claims) : Prop :=
  c.purpose = "mfa_pending" ∧ ∃ i a, PasswordChecked crypto s i a ∧ c.sub = a.id ∧
    (i, .signed c) ∈ s.history

/-- Request `i` accepted a code of the second factor in the row `a`, or a recovery code of the
admin. -/
def AcceptsFactor (s : Shared SessionRequest World Label) (i : ℕ) (a : Admin) (body : MfaBody) :
    Prop :=
  (∃ key now locked, (i, .comparing key now locked) ∈ s.history ∧
      verifyTotp crypto now (secretOf crypto a.totpSecretEnc) body.totpCode = true) ∨
    ∃ row, (i, .recoveryUsed row true) ∈ s.history ∧ row.adminId = a.id ∧
      crypto.compareHashAndPassword row.codeHash
        (normalizeRecoveryCodeInput body.recoveryCode) = true

/-- **The chain behind an access token**: a `Login` without a second factor, a `LoginMFA` that
accepted the second factor for a token that waited for it, or a `Refresh` of such a token. -/
inductive Granted (s : Shared SessionRequest World Label) : Claims → Prop
  | login {i : ℕ} {a : Admin} {c : Claims} (hchecked : PasswordChecked crypto s i a)
      (htotp : a.totpEnabled = false) (hsigned : (i, .signed c) ∈ s.history)
      (hsub : c.sub = a.id) : Granted s c
  | loginMFA {i : ℕ} {a : Admin} {c pending : Claims} {client : Client} {body : MfaBody}
      (hpending : Pending crypto s pending)
      (hstarted : s.started[i]? = some (.loginMFA client (some body)))
      (hbody : body.mfaPendingToken = .signed pending)
      (hrow : (i, .selected (some a)) ∈ s.history) (hadmin : a.id = pending.sub)
      (hactive : a.isActive = true) (hfactor : AcceptsFactor crypto s i a body)
      (hsigned : (i, .signed c) ∈ s.history) (hsub : c.sub = a.id) : Granted s c
  | refresh {i : ℕ} {c old : Claims} {now : ℤ} (hold : Granted s old)
      (hstarted : s.started[i]? = some (.refresh (some (.signed old))))
      (hauthorized : (i, .authorized old now) ∈ s.history)
      (hsigned : (i, .signed c) ∈ s.history) (hsub : c.sub = old.sub) : Granted s c

/-- What is known of every signed token: it waits for the second factor, or it is an access token
with its chain. -/
def Justified (s : Shared SessionRequest World Label) (c : Claims) : Prop :=
  Pending crypto s c ∨ (c.purpose = "" ∧ Granted crypto s c)

/-- The provenance of the tokens: every signed token has its chain and comes from a request that may
sign, and what passes `RequireAuth` is a signed access token. -/
structure Provenance (s : Shared SessionRequest World Label) : Prop where
  signed : ∀ i c, (i, .signed c) ∈ s.history → Justified crypto s c
  signer : ∀ i c, (i, .signed c) ∈ s.history → ∃ r ∈ s.started[i]?, r.MaySign
  authorized : ∀ i c now, (i, .authorized c now) ∈ s.history →
    c.purpose ≠ "mfa_pending" ∧ Signed s c

/-- The rules: the provenance is kept when nobody forges a token. -/
def sessionRules : Rules SessionRequest Env World Label Response where
  inv := Provenance crypto
  rely _ _ := True
  guar _ _ _ := True
  post _ _ := True
  stmtOk _ _ _ := True
  startOk := Unforged
  envOk _ _ := True

variable {cfg crypto} {s t : Shared SessionRequest World Label} {i : ℕ}

/-! ### What is known stays known -/

/-- The history and the requests of `t` go on from those of `s`. -/
structure Later (s t : Shared SessionRequest World Label) : Prop where
  history : s.history <:+ t.history
  started : s.started <+: t.started

theorem Later.mem (h : Later s t) {e : ℕ × Label} (he : e ∈ s.history) : e ∈ t.history :=
  h.history.subset he

theorem Later.get (h : Later s t) {r : SessionRequest} (hr : s.started[i]? = some r) :
    t.started[i]? = some r := by
  obtain ⟨rest, hrest⟩ := h.started
  rw [← hrest, List.getElem?_append_left (List.getElem?_eq_some_iff.1 hr).1, hr]

theorem PasswordChecked.later {a : Admin} (h : PasswordChecked crypto s i a) (hl : Later s t) :
    PasswordChecked crypto t i a := by
  obtain ⟨client, body, hstarted, hrow, h⟩ := h
  exact ⟨client, body, hl.get hstarted, hl.mem hrow, h⟩

theorem Pending.later {c : Claims} (h : Pending crypto s c) (hl : Later s t) :
    Pending crypto t c := by
  obtain ⟨hpurpose, i, a, hchecked, hsub, hsigned⟩ := h
  exact ⟨hpurpose, i, a, hchecked.later hl, hsub, hl.mem hsigned⟩

theorem AcceptsFactor.later {a : Admin} {body : MfaBody} (h : AcceptsFactor crypto s i a body)
    (hl : Later s t) : AcceptsFactor crypto t i a body := by
  rcases h with ⟨key, now, locked, hmem, hverify⟩ | ⟨row, hmem, h⟩
  · exact Or.inl ⟨key, now, locked, hl.mem hmem, hverify⟩
  · exact Or.inr ⟨row, hl.mem hmem, h⟩

theorem Granted.later {c : Claims} (h : Granted crypto s c) (hl : Later s t) :
    Granted crypto t c := by
  induction h with
  | login hchecked htotp hsigned hsub =>
    exact .login (hchecked.later hl) htotp (hl.mem hsigned) hsub
  | loginMFA hpending hstarted hbody hrow hadmin hactive hfactor hsigned hsub =>
    exact .loginMFA (hpending.later hl) (hl.get hstarted) hbody (hl.mem hrow) hadmin hactive
      (hfactor.later hl) (hl.mem hsigned) hsub
  | refresh _ hstarted hauthorized hsigned hsub ih =>
    exact .refresh ih (hl.get hstarted) (hl.mem hauthorized) (hl.mem hsigned) hsub

theorem Justified.later {c : Claims} (h : Justified crypto s c) (hl : Later s t) :
    Justified crypto t c := by
  rcases h with h | ⟨hpurpose, h⟩
  · exact Or.inl (h.later hl)
  · exact Or.inr ⟨hpurpose, h.later hl⟩

theorem Signed.later {c : Claims} (h : Signed s c) (hl : Later s t) : Signed t c := by
  obtain ⟨e, he, h⟩ := h
  exact ⟨e, hl.mem he, h⟩

/-- A request that may sign goes on to be one. -/
theorem Later.maySign (hl : Later s t) (h : ∃ r ∈ s.started[i]?, r.MaySign) :
    ∃ r ∈ t.started[i]?, r.MaySign := by
  obtain ⟨r, hr, h⟩ := h
  exact ⟨r, hl.get hr, h⟩

theorem Later.trans {u : Shared SessionRequest World Label} (h : Later s t) (h' : Later t u) :
    Later s u := ⟨h.history.trans h'.history, h.started.trans h'.started⟩

theorem Later.of_rely {W : World → World → Prop} (h : Requests.Rely W i s t) : Later s t :=
  ⟨h.history, h.started⟩

theorem Later.after (s : Shared SessionRequest World Label) (i : ℕ) (label : World → Label)
    (write : World → World) : Later s (s.after i label write) :=
  ⟨List.suffix_cons _ _, List.prefix_refl _⟩

/-- A statement of a request, whatever the others did before it. -/
theorem Later.of_rely_after {W : World → World → Prop} {label : World → Label}
    {write : World → World} (h : Requests.Rely W i s t) : Later s (t.after i label write) :=
  (Later.of_rely h).trans (Later.after t i label write)

theorem sessionRules_lawful : (sessionRules crypto).Lawful Env.apply where
  refl _ := trivial
  trans _ _ := trivial
  start {s r} h _ := by
    have hl : Later s (s.starting r) := ⟨List.suffix_refl _, List.prefix_append _ _⟩
    exact ⟨fun i c hc => (h.signed i c hc).later hl, fun i c hc => hl.maySign (h.signer i c hc),
      fun i c now hc => h.authorized i c now hc⟩
  env {s e w} h _ _ := by
    have hl : Later s { s with world := w } := ⟨List.suffix_refl _, List.prefix_refl _⟩
    exact ⟨⟨fun i c hc => (h.signed i c hc).later hl, fun i c hc => h.signer i c hc,
      fun i c now hc => h.authorized i c now hc⟩, trivial⟩

/-! ### Statements about other things -/

/-- Does a label say nothing about tokens? -/
def Label.quiet : Label → Bool
  | .signed _ | .authorized _ _ => false
  | _ => true

/-- A statement that says nothing about tokens. -/
theorem stmtKept_of_quiet {label : World → Label} {write : World → World} (h : Provenance crypto s)
    (hquiet : (label s.world).quiet = true) :
    (sessionRules crypto).StmtKept i s label write := by
  have hl := Later.after s i label write
  refine ⟨⟨fun j c hc => ?_, fun j c hc => ?_, fun j c now hc => ?_⟩, trivial, trivial⟩
  · rcases List.mem_cons.1 hc with heq | hc
    · rw [← (Prod.mk.inj heq).2] at hquiet
      cases hquiet
    · exact (h.signed j c hc).later hl
  · rcases List.mem_cons.1 hc with heq | hc
    · rw [← (Prod.mk.inj heq).2] at hquiet
      cases hquiet
    · exact h.signer j c hc
  · rcases List.mem_cons.1 hc with heq | hc
    · rw [← (Prod.mk.inj heq).2] at hquiet
      cases hquiet
    · exact ⟨(h.authorized j c now hc).1, (h.authorized j c now hc).2.later hl⟩

/-- All statements of a program say nothing about tokens. -/
abbrev QuietProgram {α : Type} (p : Handler α) : Prop :=
  p.All fun label _ => ∀ w, (label w).quiet = true

/-- A quiet program keeps the provenance. -/
theorem keeps_quiet {p : Handler Response} (hp : QuietProgram p) :
    (sessionRules crypto).Keeps i p (fun _ _ => True) s :=
  (Rules.keeps_of_quiet (L := fun _ => True) hp (Request.ends_true p)
    fun _ _ hquiet _ hinv _ => ⟨trivial, stmtKept_of_quiet hinv (hquiet _)⟩).mono
      fun _ _ _ => trivial

/-- A quiet statement that reads, and what follows. -/
theorem keeps_read_quiet {α : Type} {label : World → Label} {f : World → α}
    {k : α → Handler Response} (hquiet : ∀ w, (label w).quiet = true)
    (h : ∀ t, Requests.Rely (sessionRules crypto).rely i s t → Later s (t.after i label id) →
      (sessionRules crypto).Keeps i (k (f t.world)) (fun _ _ => True) (t.after i label id)) :
    (sessionRules crypto).Keeps i (Request.read label f >>= k) (fun _ _ => True) s :=
  Rules.keeps_read fun t ht hinv _ =>
    ⟨stmtKept_of_quiet hinv (hquiet _), h t ht (Later.of_rely_after ht)⟩

/-- A quiet statement that writes, and what follows. -/
theorem keeps_write_quiet {label : World → Label} {f : World → World} {k : Unit → Handler Response}
    (hquiet : ∀ w, (label w).quiet = true)
    (h : ∀ t : Shared SessionRequest World Label, Later s (t.after i label f) →
      (sessionRules crypto).Keeps i (k ()) (fun _ _ => True) (t.after i label f)) :
    (sessionRules crypto).Keeps i (Request.write label f >>= k) (fun _ _ => True) s :=
  Rules.keeps_write fun t ht hinv _ =>
    ⟨stmtKept_of_quiet hinv (hquiet _), h t (Later.of_rely_after ht)⟩

theorem quiet_rejected (key msg : String) : QuietProgram (rejected cfg key msg) :=
  Request.all_write_bind (fun _ => rfl) (Request.all_pure _)

theorem quiet_replaceCodes (id : String) (seeds : List CodeSeed) (before : World → World) :
    QuietProgram (Handlers.replaceCodes crypto id seeds before) := by
  rw [Handlers.replaceCodes, replaceRecoveryCodesForAdmin]
  cases recoveryRows crypto id seeds with
  | none => exact Request.all_pure _
  | some rows => exact Request.all_stmt.2 ⟨fun _ => rfl, fun _ => Request.all_pure _⟩

theorem quiet_withAdminTotp {id code off : String} {next : Handler Response}
    (h : QuietProgram next) : QuietProgram (Handlers.withAdminTotp crypto id code off next) := by
  refine Request.all_read_bind (fun _ => rfl) fun row => ?_
  cases row with
  | none => exact Request.all_pure _
  | some a =>
    refine Request.all_ite (Request.all_pure _) ?_
    split
    · split
      · exact Request.all_pure _
      · exact Request.all_read_bind (fun _ => rfl) fun _ => Request.all_ite (Request.all_pure _) h
    · exact Request.all_pure _

theorem quiet_confirmPending {id code enc nonce : String} {exp : ℤ} {seeds : List CodeSeed} :
    QuietProgram (Handlers.confirmPending crypto id code enc exp nonce seeds) := by
  refine Request.all_read_bind (fun _ => rfl) fun _ => Request.all_ite (Request.all_pure _) ?_
  split
  · exact Request.all_pure _
  · exact Request.all_read_bind (fun _ => rfl) fun _ =>
      Request.all_ite (Request.all_pure _) (quiet_replaceCodes _ _ _)

/-- The endpoints of the second factor sign nothing. -/
theorem quiet_totpRequest (r : TotpRequest) : QuietProgram (r.program crypto) := by
  cases r with
  | setupStart id secret qrDataURL nonce =>
    rw [TotpRequest.program, Handlers.totpSetupStart.eq_def]
    refine Request.all_read_bind (fun _ => rfl) fun row => ?_
    cases row with
    | none => exact Request.all_pure _
    | some a =>
      refine Request.all_ite (Request.all_pure _) ?_
      cases secret with
      | error msg => exact Request.all_pure _
      | ok secret =>
        exact Request.all_read_bind (fun _ => rfl) fun _ =>
          Request.all_write_bind (fun _ => rfl) (by cases qrDataURL <;> exact Request.all_pure _)
  | setupConfirm id totpCode nonce seeds =>
    rw [TotpRequest.program, Handlers.totpSetupConfirm.eq_def]
    cases totpCode with
    | none => exact Request.all_pure _
    | some code =>
      refine Request.all_ite (Request.all_pure _) ?_
      refine Request.all_read_bind (fun _ => rfl) fun row => ?_
      cases row with
      | none => exact Request.all_pure _
      | some a =>
        refine Request.all_ite (Request.all_pure _) ?_
        split
        · exact quiet_confirmPending
        · exact Request.all_pure _
  | recoveryRegenerate id totpCode seeds =>
    rw [TotpRequest.program, Handlers.totpRecoveryRegenerate.eq_def]
    cases totpCode with
    | none => exact Request.all_pure _
    | some code =>
      exact Request.all_ite (Request.all_pure _) (quiet_withAdminTotp (quiet_replaceCodes _ _ _))
  | disable id totpCode =>
    rw [TotpRequest.program, Handlers.totpDisable.eq_def]
    cases totpCode with
    | none => exact Request.all_pure _
    | some code =>
      exact Request.all_ite (Request.all_pure _) (quiet_withAdminTotp
        (Request.all_write_bind (fun _ => rfl) (Request.all_pure _)))

/-- `Patch` signs nothing. -/
theorem quiet_patchAdmin (id : String) (body : Option Fields) (salt : String) :
    QuietProgram (Handlers.patchAdmin crypto id body salt) := by
  have husername (body : Fields) : QuietProgram (Handlers.setUsername id body) :=
    Request.all_ite (Request.all_pure _) <| Request.all_ite (Request.all_pure _) <|
      Request.all_read_bind (fun _ => rfl) fun _ =>
        Request.all_ite (Request.all_pure _) (Request.all_pure _)
  have hemail (body : Fields) : QuietProgram (Handlers.setEmail id body) :=
    Request.all_ite (Request.all_pure _) <| Request.all_ite (Request.all_pure _) <|
      Request.all_ite (Request.all_pure _) <| Request.all_read_bind (fun _ => rfl) fun _ =>
        Request.all_ite (Request.all_pure _) (Request.all_pure _)
  cases body with
  | none => exact Request.all_pure _
  | some body =>
    rw [Handlers.patchAdmin.eq_def]
    dsimp only
    split
    · exact Request.all_pure _
    · exact Request.all_pure _
    · refine (husername body).bind fun username => ?_
      cases username with
      | error answer => exact Request.all_pure _
      | ok username =>
        refine (hemail body).bind fun email => ?_
        cases email with
        | error answer => exact Request.all_pure _
        | ok email =>
          exact Request.all_ite (Request.all_pure _)
            (Request.all_stmt.2 ⟨fun _ => rfl, fun _ => Request.all_pure _⟩)

/-! ### Signing -/

/-- A token is signed with a reason. -/
theorem stmtKept_signed {label : World → Label} {write : World → World} {c : Claims}
    (h : Provenance crypto s) (hlabel : label s.world = .signed c)
    (hreason : Justified crypto (s.after i label write) c)
    (hsigner : ∃ r ∈ s.started[i]?, r.MaySign) :
    (sessionRules crypto).StmtKept i s label write := by
  have hl := Later.after s i label write
  refine ⟨⟨fun j d hd => ?_, fun j d hd => ?_, fun j d now hd => ?_⟩, trivial, trivial⟩
  · rcases List.mem_cons.1 hd with heq | hd
    · obtain ⟨-, heq⟩ := Prod.mk.inj heq
      obtain rfl := Label.signed.inj (heq.trans hlabel)
      exact hreason
    · exact (h.signed j d hd).later hl
  · rcases List.mem_cons.1 hd with heq | hd
    · obtain ⟨rfl, -⟩ := Prod.mk.inj heq
      exact hsigner
    · exact h.signer j d hd
  · rcases List.mem_cons.1 hd with heq | hd
    · cases (Prod.mk.inj heq).2.trans hlabel
    · exact ⟨(h.authorized j d now hd).1, (h.authorized j d now hd).2.later hl⟩

/-- A signed access token passes `RequireAuth`. -/
theorem stmtKept_authorized {label : World → Label} {write : World → World} {c : Claims} {now : ℤ}
    (h : Provenance crypto s) (hlabel : label s.world = .authorized c now)
    (hpurpose : c.purpose ≠ "mfa_pending") (hsigned : Signed s c) :
    (sessionRules crypto).StmtKept i s label write := by
  have hl := Later.after s i label write
  refine ⟨⟨fun j d hd => ?_, fun j d hd => ?_, fun j d now hd => ?_⟩, trivial, trivial⟩
  · rcases List.mem_cons.1 hd with heq | hd
    · cases (Prod.mk.inj heq).2.trans hlabel
    · exact (h.signed j d hd).later hl
  · rcases List.mem_cons.1 hd with heq | hd
    · cases (Prod.mk.inj heq).2.trans hlabel
    · exact h.signer j d hd
  · rcases List.mem_cons.1 hd with heq | hd
    · obtain ⟨-, heq⟩ := Prod.mk.inj heq
      obtain ⟨rfl, -⟩ := Label.authorized.inj (heq.trans hlabel)
      exact ⟨hpurpose, hsigned.later hl⟩
    · exact ⟨(h.authorized j d now hd).1, (h.authorized j d now hd).2.later hl⟩

/-- `SignAccess` with a chain for its claims, and the answer. -/
theorem keeps_signAccess {sub username : String} (hsigner : ∃ r ∈ s.started[i]?, r.MaySign)
    (h : ∀ t c, Later s t → (i, .signed c) ∈ t.history → c.sub = sub → Granted crypto t c) :
    (sessionRules crypto).Keeps i (signAccess cfg sub username >>= fun tok =>
      pure (Response.token tok))
      (fun _ _ => True) s := by
  refine Rules.keeps_read fun t ht hinv _ => ⟨?_, Rules.keeps_pure.2 trivial⟩
  exact stmtKept_signed hinv rfl
    (Or.inr ⟨rfl, h _ _ (Later.of_rely_after ht) List.mem_cons_self rfl⟩)
    ((Later.of_rely ht).maySign hsigner)

/-- **`Login`**, with the row of its name. -/
theorem keeps_loginAs {client : Client} {body : LoginBody} {a : Admin} {key : String}
    (hstarted : s.started[i]? = some (.login client (some body)))
    (hrow : (i, .selected (some a)) ∈ s.history) (hname : a.username = body.username) :
    (sessionRules crypto).Keeps i (loginAs cfg crypto key body.password a) (fun _ _ => True) s := by
  rw [loginAs]
  refine Rules.keeps_ite (fun _ => keeps_quiet (quiet_rejected _ _)) fun hactive => ?_
  refine Rules.keeps_ite (fun _ => keeps_quiet (quiet_rejected _ _)) fun _ => ?_
  refine keeps_read_quiet (fun _ => rfl) fun t _ ht => ?_
  refine keeps_read_quiet (fun _ => rfl) fun u _ hu => ?_
  refine Rules.keeps_ite (fun _ => keeps_quiet (quiet_rejected _ _)) fun hpassword => ?_
  have hchecked : PasswordChecked crypto s i a :=
    ⟨client, body, hstarted, hrow, hname, Bool.eq_true_of_not_eq_false hactive,
      Bool.eq_true_of_not_eq_false hpassword⟩
  have hchecked := hchecked.later (ht.trans hu)
  have hsigner := (ht.trans hu).maySign ⟨_, hstarted, fun _ h => by cases h⟩
  refine Rules.keeps_ite (fun _ => ?_) fun htotp => ?_
  · refine Rules.keeps_read fun v hv hinv _ => ⟨?_, Rules.keeps_pure.2 trivial⟩
    exact stmtKept_signed hinv rfl (Or.inl ⟨rfl, i, a, hchecked.later (Later.of_rely_after hv), rfl,
      List.mem_cons_self⟩) ((Later.of_rely hv).maySign hsigner)
  · refine keeps_write_quiet (fun _ => rfl) fun v hv => ?_
    exact keeps_signAccess (hv.maySign hsigner) fun x c hx hsigned hsub =>
      .login (hchecked.later (hv.trans hx)) (Bool.eq_false_of_not_eq_true htotp) hsigned hsub

/-- A recovery code is looked for, and never accepted. -/
theorem keeps_recoveryCode {id raw : String} {k : Bool → Handler Response}
    (h : ∀ t, Later s t → (sessionRules crypto).Keeps i (k false) (fun _ _ => True) t) :
    (sessionRules crypto).Keeps i (verifyAndConsumeRecoveryCode crypto id raw >>= k)
      (fun _ _ => True) s := by
  have hcall := @verifyAndConsumeRecoveryCode_eq crypto id raw
  generalize verifyAndConsumeRecoveryCode crypto id raw = p at hcall ⊢
  rcases hcall with rfl | rfl
  · exact h s ⟨List.suffix_refl _, List.prefix_refl _⟩
  · refine Rules.keeps_stmt.2 fun t ht hinv _ => ⟨stmtKept_of_quiet hinv rfl, ?_⟩
    refine Rules.keeps_stmt.2 fun u hu hinv _ => ⟨stmtKept_of_quiet hinv rfl, ?_⟩
    exact h _ ((Later.of_rely_after ht).trans (Later.of_rely_after hu))

/-- **`LoginMFA`**, with the row of the admin. -/
theorem keeps_loginMFAAs {client : Client} {body : MfaBody} {a : Admin} {key : String}
    {claims : Claims} (hstarted : s.started[i]? = some (.loginMFA client (some body)))
    (hbody : body.mfaPendingToken = .signed claims) (hpending : Pending crypto s claims)
    (hrow : (i, .selected (some a)) ∈ s.history) (hadmin : a.id = claims.sub) :
    (sessionRules crypto).Keeps i (loginMFAAs cfg crypto key body claims a)
    (fun _ _ => True) s := by
  rw [loginMFAAs]
  refine Rules.keeps_ite (fun _ => keeps_quiet (quiet_rejected _ _)) fun hrow' => ?_
  have hactive : a.isActive = true := Bool.eq_true_of_not_eq_false fun h => hrow' (Or.inl h)
  refine keeps_read_quiet (fun _ => rfl) fun t _ ht => ?_
  refine keeps_recoveryCode fun u hu => ?_
  refine keeps_read_quiet (fun _ => rfl) fun v _ hv => ?_
  refine Rules.keeps_ite (fun _ => keeps_quiet (quiet_rejected _ _)) fun haccept => ?_
  have hverify : verifyTotp crypto t.world.now (secretOf crypto a.totpSecretEnc)
      body.totpCode = true := by
    simp only [and_true, Bool.not_eq_false, Bool.and_eq_true] at haccept
    exact haccept.2
  have hfactor : AcceptsFactor crypto
      (t.after i (fun w => .comparing key w.now (w.locked key)) id) i a body :=
    Or.inl ⟨key, t.world.now, t.world.locked key, List.mem_cons_self, hverify⟩
  have hl : Later s _ := (ht.trans hu).trans hv
  refine keeps_write_quiet (fun _ => rfl) fun x hx => ?_
  have hsigner := (hl.trans hx).maySign ⟨_, hstarted, fun _ h => by cases h⟩
  exact keeps_signAccess hsigner fun y c hy hsigned hsub =>
    .loginMFA (hpending.later ((hl.trans hx).trans hy))
      (((hl.trans hx).trans hy).get hstarted) hbody
      (((hl.trans hx).trans hy).mem hrow) hadmin hactive
      (hfactor.later (((hu.trans hv).trans hx).trans hy)) hsigned hsub

/-- A request behind `RequireAuth`. -/
theorem keeps_requireAuth {bearer : Option Jwt} {next : Claims → Handler Response}
    (hsigned : ∀ c ∈ bearer.bind Jwt.claims, Signed s c)
    (hnext : ∀ c t now, Later s t → bearer = some (.signed c) → (i, .authorized c now) ∈ t.history →
      Provenance crypto t → (sessionRules crypto).Keeps i (next c) (fun _ _ => True) t) :
    (sessionRules crypto).Keeps i (requireAuth bearer next) (fun _ _ => True) s := by
  rw [requireAuth.eq_def]
  cases bearer with
  | none => exact Rules.keeps_pure.2 trivial
  | some tok =>
    refine Rules.keeps_read fun t ht hinv _ => ?_
    cases hacc : accepts t.world.now tok with
    | none =>
      exact ⟨stmtKept_of_quiet hinv (by rw [hacc]; rfl), Rules.keeps_pure.2 trivial⟩
    | some c =>
      obtain ⟨rfl, -, hpurpose⟩ := accepts_eq_some.1 hacc
      have hkept : (sessionRules crypto).StmtKept i t
          (fun w => ((accepts w.now (.signed c)).map fun c => Label.authorized c w.now).getD
            .unauthorized) id :=
        stmtKept_authorized hinv (by rw [hacc]; rfl) hpurpose
          ((hsigned c rfl).later (Later.of_rely ht))
      refine ⟨hkept, hnext c _ t.world.now (Later.of_rely_after ht) rfl ?_ hkept.inv⟩
      rw [Requests.after_history, hacc]
      exact List.mem_cons_self

/-- **Every request keeps the provenance of the tokens.** -/
theorem keeps_sessionRequest {r : SessionRequest} (hstarted : s.started[i]? = some r)
    (hforged : Unforged s r) (hinv : Provenance crypto s) :
    (sessionRules crypto).Keeps i (r.program cfg crypto) (fun _ _ => True) s := by
  cases r with
  | login client body =>
    rw [SessionRequest.program, login.eq_def]
    cases body with
    | none => exact Rules.keeps_pure.2 trivial
    | some body =>
      refine Rules.keeps_ite (fun _ => Rules.keeps_pure.2 trivial) fun _ => ?_
      refine keeps_read_quiet (fun _ => rfl) fun t _ ht => ?_
      cases Limiter.check t.world.limiter _ t.world.now with
      | some retry => exact Rules.keeps_pure.2 trivial
      | none =>
        refine keeps_read_quiet (fun _ => rfl) fun u _ hu => ?_
        cases hrow : u.world.adminNamed body.username with
        | none => exact keeps_quiet (quiet_rejected _ _)
        | some a =>
          refine keeps_loginAs ((ht.trans hu).get hstarted) ?_ (adminNamed_eq_some hrow).2
          rw [Requests.after_history, hrow]
          exact List.mem_cons_self
  | loginMFA client body =>
    rw [SessionRequest.program, loginMFA.eq_def]
    cases body with
    | none => exact Rules.keeps_pure.2 trivial
    | some body =>
      refine Rules.keeps_ite (fun _ => Rules.keeps_pure.2 trivial) fun _ => ?_
      refine keeps_read_quiet (fun _ => rfl) fun t _ ht => ?_
      cases hparse : parseToken t.world.now body.mfaPendingToken with
      | none => exact Rules.keeps_pure.2 trivial
      | some claims =>
        refine Rules.keeps_ite (fun _ => Rules.keeps_pure.2 trivial) fun hpurpose => ?_
        refine keeps_read_quiet (fun _ => rfl) fun u _ hu => ?_
        cases Limiter.check u.world.limiter _ u.world.now with
        | some retry => exact Rules.keeps_pure.2 trivial
        | none =>
          refine keeps_read_quiet (fun _ => rfl) fun v _ hv => ?_
          have hl := (ht.trans hu).trans hv
          cases hrow : v.world.admin claims.sub with
          | none => exact keeps_quiet (quiet_rejected _ _)
          | some a =>
            have hbody : body.mfaPendingToken = .signed claims := (parseToken_eq_some.1 hparse).1
            refine keeps_loginMFAAs (hl.get hstarted) hbody ?_ ?_ (admin_eq_some hrow).2
            · obtain ⟨⟨j, _⟩, hj, rfl⟩ := hforged claims (by
                rw [SessionRequest.presents, Option.bind_some, hbody]
                rfl)
              rcases hinv.signed j claims hj with hpending | ⟨haccess, -⟩
              · exact hpending.later hl
              · rw [haccess] at hpurpose
                exact absurd hpurpose (by decide)
            · rw [Requests.after_history, hrow]
              exact List.mem_cons_self
  | refresh bearer =>
    refine keeps_requireAuth hforged fun c t now ht hbearer hauthorized hinv => ?_
    subst hbearer
    obtain ⟨hpurpose, ⟨j, _⟩, hj, rfl⟩ := hinv.authorized _ _ _ hauthorized
    have hold : Granted crypto t c := by
      rcases hinv.signed j c hj with hpending | ⟨-, hgranted⟩
      · exact absurd hpending.1 hpurpose
      · exact hgranted
    refine keeps_signAccess ⟨_, ht.get hstarted, fun d hd => ?_⟩ fun u d hu hsigned hsub =>
      .refresh (hold.later hu) ((ht.trans hu).get hstarted) (hu.mem hauthorized) hsigned hsub
    cases hd
    exact hpurpose
  | totp bearer r =>
    exact keeps_requireAuth hforged fun _ _ _ _ _ _ _ => keeps_quiet (quiet_totpRequest _)
  | patch bearer id body salt =>
    exact keeps_requireAuth hforged fun _ _ _ _ _ _ _ => keeps_quiet (quiet_patchAdmin _ _ _)
  | api bearer =>
    exact keeps_requireAuth hforged fun _ _ _ _ _ _ _ => Rules.keeps_pure.2 trivial

/-! ### Runs -/

instance (s : Shared SessionRequest World Label) (r : SessionRequest) :
    Decidable ((sessionRules crypto).startOk s r) :=
  inferInstanceAs (Decidable (∀ c ∈ r.presents, ∃ e ∈ s.history, e.2 = .signed c))

instance (i : ℕ) (s : Shared SessionRequest World Label) (l : Label) :
    Decidable ((sessionRules crypto).stmtOk i s l) := isTrue trivial

instance (s : Shared SessionRequest World Label) (e : Env) :
    Decidable ((sessionRules crypto).envOk s e) := isTrue trivial

/-- What is known in every run that forges no token. -/
theorem run_sessions {w : World} {events : List (Event SessionRequest Env)}
    {t : Pool SessionRequest World Label Response}
    (hok : Runs.Meets (sessionStep cfg crypto) (sessionRules crypto).StepOk (Pool.initial w) events)
    (hrun : Runs.run (sessionStep cfg crypto) (Pool.initial w) events = some t) :
    (sessionRules crypto).PoolInv t := by
  refine Rules.run_inv sessionRules_lawful (Rules.PoolInv.initial ⟨?_, ?_, ?_⟩)
    (fun r s hinv hforged _ => ?_) hok hrun
  · exact fun _ _ h => absurd h List.not_mem_nil
  · exact fun _ _ h => absurd h List.not_mem_nil
  · exact fun _ _ _ h => absurd h List.not_mem_nil
  · exact keeps_sessionRequest (Requests.starting_get s r)
      (fun c hc => (hforged c hc).later ⟨List.suffix_refl _, List.prefix_append _ _⟩)
      (sessionRules_lawful.start hinv hforged)

/-- **No request is authorized without the second factor.** In every run in which nobody but the
panel signs, a token that passes `RequireAuth` does not wait for a second factor and has its chain,
and a `Refresh` of a token that waits signs nothing. -/
theorem authorized_granted {w : World} {events : List (Event SessionRequest Env)}
    {t : Pool SessionRequest World Label Response}
    (hok : Runs.Meets (sessionStep cfg crypto) (sessionRules crypto).StepOk (Pool.initial w) events)
    (hrun : Runs.run (sessionStep cfg crypto) (Pool.initial w) events = some t) :
    (∀ i c now, (i, .authorized c now) ∈ t.history →
        c.purpose ≠ "mfa_pending" ∧ Granted crypto t.toShared c) ∧
      ∀ i c c', t.started[i]? = some (.refresh (some (.signed c))) → c.purpose = "mfa_pending" →
        (i, .signed c') ∉ t.history := by
  have hinv := (run_sessions hok hrun).inv
  refine ⟨fun i c now h => ?_, fun i c c' hstarted hpurpose hsigned => ?_⟩
  · obtain ⟨hpurpose, ⟨j, _⟩, hj, rfl⟩ := hinv.authorized i c now h
    refine ⟨hpurpose, ?_⟩
    rcases hinv.signed j c hj with hpending | ⟨-, hgranted⟩
    · exact absurd hpending.1 hpurpose
    · exact hgranted
  · obtain ⟨r, hr, hmay⟩ := hinv.signer i c' hsigned
    obtain rfl := Option.some.inj (hstarted.symm.trans hr)
    exact hmay c rfl hpurpose

/-- A world with one admin, whose second factor is on. -/
def guardedWorld : World where
  nanoseconds := 0
  admins :=
    [⟨"root", "", "root", none, "pass", true, none, none, none, none, true,
      some "secret", none, none⟩]
  recoveryCodes := []
  limiter := ∅

/-- A token of `guardedWorld`, signed at the start. -/
def guardedToken (purpose : String) (expiresAt : ℤ) : Jwt :=
  .signed ⟨"root", "root", purpose, expiresAt, 0⟩

/-- A login with its second factor, and a request with the token that it gave. -/
def guardedEvents : List (Event SessionRequest Env) :=
  [Event.start (SessionRequest.login ⟨"", "client"⟩ (some ⟨"root", "pass"⟩))] ++
    List.replicate 5 (Event.act 0) ++
    [Event.start (SessionRequest.loginMFA ⟨"", "client"⟩
      (some ⟨guardedToken "mfa_pending" 60, "secret", ""⟩))] ++
    List.replicate 7 (Event.act 1) ++
    [Event.start (SessionRequest.api (some (guardedToken "" 3600))), Event.act 2]

/-- The request passes with its chain. -/
theorem login_granted_in_run :
    ∃ t : Pool SessionRequest World Label Response,
      Runs.run (sessionStep Config.hourly Crypto.plain) (Pool.initial guardedWorld)
          guardedEvents = some t ∧
        ∃ c now, (2, .authorized c now) ∈ t.history ∧ Granted Crypto.plain t.toShared c := by
  have hrun : (Runs.run (sessionStep Config.hourly Crypto.plain) (Pool.initial guardedWorld)
      guardedEvents).any
      (fun t => decide ((2, .authorized ⟨"root", "root", "", 3600, 0⟩ 0) ∈ t.history)) = true := by
    decide +kernel
  obtain ⟨t, ht, hmem⟩ := (Option.any_eq_true _ _).1 hrun
  have hmem := of_decide_eq_true hmem
  have h := @authorized_granted Config.hourly Crypto.plain _ _ _ (by decide +kernel) ht
  exact ⟨t, ht, _, _, hmem, (h.1 _ _ _ hmem).2⟩

end OpenvpnControl.Auth
