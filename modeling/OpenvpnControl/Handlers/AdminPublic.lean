import OpenvpnControl.Auth.Handler

/-!
# Invitations and password resets

`InviteComplete` and `PasswordResetComplete` of `handlers/admin_public.go` and `PasswordResetLink`
of `handlers/admins_ext.go`. A token is looked up in one statement and consumed in another one,
which finds its row by `id`. As long as the row still holds the token then, every token is used
once. Between the two statements another request can use the token, or a new one can take its place.

## Main definitions

* `TokenKind`: the two columns of tokens.
* `inviteComplete`, `passwordResetComplete`, `passwordResetLink`: the handlers.
* `TokenRequest`: a request to one of them.
* `spent`: the tokens that a statement took out of a row, so far.
* `HoldsToken`: the condition on the statements that consume.

## Main results

* `tokens_single_use`: the property of every run that meets the condition.
* `token_used_twice`: two requests that use one token.
-/

namespace OpenvpnControl.Handlers

open Auth (World Admin Handler Label Env Crypto Response)
open Requests (Shared Pool Event Rules)

/-! ### The handlers -/

/-- The two kinds of tokens. -/
inductive TokenKind where
  | invite
  | passwordReset
  deriving DecidableEq

/-- The column of a kind of tokens. -/
def TokenKind.token : TokenKind → Admin → Option String
  | .invite, a => a.inviteToken
  | .passwordReset, a => a.passwordResetToken

/-- The column of its time. -/
def TokenKind.expiresAt : TokenKind → Admin → Option ℤ
  | .invite, a => a.inviteExpiresAt
  | .passwordReset, a => a.passwordResetExpiresAt

/-- `SELECT … FROM "Admin" WHERE … = $1 LIMIT 1`, where the column is the one of the kind. -/
def World.holder (kind : TokenKind) (token : String) (w : World) : Option Admin :=
  w.admins.find? fun a => kind.token a = some token

/-- `findAdminByInviteToken` and `findAdminByPasswordResetToken`. -/
def findAdminByToken (kind : TokenKind) (token : String) : Handler (Option Admin) :=
  let t := GoStrings.trimSpace token
  if GoStrings.byteLength t < 16 then pure none
  else Request.read (fun w => .selected (World.holder kind t w)) (World.holder kind t)

def tokenExpired (exp : Option ℤ) : Handler Bool :=
  match exp with
  | none => pure false
  | some exp => do
    let now ← Auth.timeNow
    pure (exp < now)

/-- The body of the requests that complete. -/
structure CompleteBody where
  token : String
  password : String
  deriving DecidableEq

/-- What `InviteComplete` and `PasswordResetComplete` do, each with its kind of tokens, its answers
and what it writes; no body is a body that does not decode. -/
def complete (kind : TokenKind) (notFound expired : String) (write : String → Admin → Admin)
    (crypto : Crypto) (body : Option CompleteBody) (salt : String) : Handler Response :=
  match body with
  | none => pure (.error 400 "invalid json")
  | some body =>
    let token := GoStrings.trimSpace body.token
    if token = "" ∨ GoStrings.byteLength body.password < 8 then
      pure (.error 400 "Укажите токен и пароль не короче 8 символов")
    else do
      match ← findAdminByToken kind token with
      | none => pure (.error 404 notFound)
      | some a =>
        if a.id = "" ∨ (kind.token a).getD "" = "" then pure (.error 404 notFound)
        else do
          let late ← tokenExpired (kind.expiresAt a)
          if late then pure (.error 410 expired)
          else match crypto.generateFromPassword salt body.password with
            | none => pure (.error 500 "hash error")
            | some hash => do
              Auth.updateAdmin a.id (write hash)
              pure .ok

/-- What `InviteComplete` writes. -/
def acceptInvite (hash : String) (a : Admin) : Admin :=
  { a with passwordHash := hash, inviteToken := none, inviteExpiresAt := none }

def inviteComplete : Crypto → Option CompleteBody → String → Handler Response :=
  complete .invite "Приглашение не найдено или уже использовано"
    "Срок действия приглашения истёк" acceptInvite

/-- What `PasswordResetComplete` writes. -/
def resetPassword (hash : String) (a : Admin) : Admin :=
  { a with passwordHash := hash, passwordResetToken := none, passwordResetExpiresAt := none,
           inviteToken := none, inviteExpiresAt := none }

def passwordResetComplete : Crypto → Option CompleteBody → String → Handler Response :=
  complete .passwordReset "Ссылка сброса пароля недействительна или уже использована"
    "Срок действия ссылки истёк" resetPassword

def passwordResetTTL : ℤ := 24 * 3600 * Auth.second

/-- What `PasswordResetLink` writes. -/
def setResetToken (token : String) (expiresAt : ℤ) (a : Admin) : Admin :=
  { a with passwordResetToken := some token, passwordResetExpiresAt := some expiresAt }

/-- `PasswordResetLink`, with the token that `newAdminToken` makes, or its error. -/
def passwordResetLink (id : String) (token : Option String) : Handler Response := do
  match ← Auth.selectAdmin id with
  | none => pure (.error 404 "Администратор не найден")
  | some a =>
    if a.inviteToken.getD "" ≠ "" then
      pure (.error 400 "Для этой учётной записи ещё не завершена регистрация по приглашению.")
    else match token with
      | none => pure (.error 500 "token error")
      | some token => do
        let now ← Auth.timeNow
        let expiresAt := now + passwordResetTTL
        Auth.updateAdmin id (setResetToken token expiresAt)
        pure (.resetPath token)

/-! ### Requests -/

/-- A request to one of the endpoints. -/
inductive TokenRequest where
  | inviteComplete (body : Option CompleteBody) (salt : String)
  | passwordResetComplete (body : Option CompleteBody) (salt : String)
  | passwordResetLink (id : String) (token : Option String)
  deriving DecidableEq

/-- The program of a request. -/
def TokenRequest.program (crypto : Crypto) : TokenRequest → Handler Response
  | .inviteComplete body salt => Handlers.inviteComplete crypto body salt
  | .passwordResetComplete body salt => Handlers.passwordResetComplete crypto body salt
  | .passwordResetLink id token => Handlers.passwordResetLink id token

/-- The token that a request carries. -/
def TokenRequest.presents : TokenRequest → Option (TokenKind × String)
  | .inviteComplete body _ => body.map fun body => (.invite, GoStrings.trimSpace body.token)
  | .passwordResetComplete body _ =>
    body.map fun body => (.passwordReset, GoStrings.trimSpace body.token)
  | .passwordResetLink _ _ => none

/-- The token that a request issues. -/
def TokenRequest.issues : TokenRequest → Option String
  | .passwordResetLink _ token => token
  | _ => none

/-- Does a request take the tokens of a kind out of the row it writes? -/
def TokenRequest.spends : TokenRequest → TokenKind → Bool
  | .inviteComplete _ _, kind => kind = .invite
  | .passwordResetComplete _ _, _ => true
  | .passwordResetLink _ _, kind => kind = .passwordReset

/-- The steps of any requests. -/
def tokenStep (crypto : Crypto) : Pool TokenRequest World Label Response →
    Event TokenRequest Env → Option (Pool TokenRequest World Label Response) :=
  Requests.step (TokenRequest.program crypto) Env.apply

/-! ### Tokens that are spent -/

/-- The row that a statement wrote over. -/
def written : Label → Option Admin
  | .updated _ before => before
  | _ => none

/-- The token of a kind that a statement took out of its row. -/
def spentBy (started : List TokenRequest) (kind : TokenKind) (e : ℕ × Label) : Option String :=
  started[e.1]?.bind fun r => if r.spends kind then (written e.2).bind kind.token else none

/-- The tokens of a kind that are consumed or superseded so far. -/
def spent (s : Shared TokenRequest World Label) (kind : TokenKind) : List String :=
  s.history.filterMap (spentBy s.started kind)

/-- Request `i` has succeeded with a token: it carries the token and wrote a row. -/
def Succeeds (s : Shared TokenRequest World Label) (i : ℕ) (kind : TokenKind)
    (token : String) : Prop :=
  ∃ r id a, s.started[i]? = some r ∧ r.presents = some (kind, token) ∧
    (i, .updated id (some a)) ∈ s.history

/-- A request that writes a row carries the token that the row holds. -/
def HoldsToken (i : ℕ) (s : Shared TokenRequest World Label) (l : Label) : Prop :=
  ∀ r ∈ s.started[i]?, ∀ a ∈ written l, ∀ p ∈ r.presents, p.1.token a = some p.2

/-- A token that is issued is none that a row holds, or that is spent. -/
def IssuesFresh (i : ℕ) (s : Shared TokenRequest World Label) (l : Label) : Prop :=
  ∀ r ∈ s.started[i]?, ∀ _a ∈ written l, ∀ token ∈ r.issues,
    token ∉ spent s .passwordReset ∧ ∀ a ∈ s.world.admins, a.passwordResetToken ≠ some token

/-- What others may write into the table: its columns stay unique, and no spent token comes back. -/
def WritesNoSpent (s : Shared TokenRequest World Label) : Env → Prop
  | .tick _ => True
  | .setAdmins rows =>
    Rows.HasKey Admin.id rows ∧
      (Rows.HasPartialKey TokenKind.invite.token rows ∧
        ∀ token ∈ spent s .invite, ∀ a ∈ rows, a.inviteToken ≠ some token) ∧
      Rows.HasPartialKey TokenKind.passwordReset.token rows ∧
        ∀ token ∈ spent s .passwordReset, ∀ a ∈ rows, a.passwordResetToken ≠ some token

/-- The columns of the schema that are unique. -/
structure TokensUnique (rows : List Admin) : Prop where
  id : Rows.HasKey Admin.id rows
  token : ∀ kind : TokenKind, Rows.HasPartialKey kind.token rows

/-- The invariant: a spent token is in no row, and is not spent again; and a request that wrote a
row had the token of the row. -/
structure SingleUse (s : Shared TokenRequest World Label) : Prop where
  unique : TokensUnique s.world.admins
  gone : ∀ kind, ∀ token ∈ spent s kind, ∀ a ∈ s.world.admins, kind.token a ≠ some token
  once : ∀ kind, (spent s kind).Nodup
  started : ∀ e ∈ s.history, e.1 < s.started.length
  holds : ∀ e ∈ s.history, ∀ r ∈ s.started[e.1]?, ∀ a ∈ written e.2, ∀ p ∈ r.presents,
    p.1.token a = some p.2

/-- A step of request `i` with a spent token changes nothing, and a step with a token clears no
other reset token. -/
def KeepsOthers (i : ℕ) (s s' : Shared TokenRequest World Label) : Prop :=
  ∀ r ∈ s.started[i]?, ∀ p ∈ r.presents,
    (p.2 ∈ spent s p.1 → s'.world.admins = s.world.admins) ∧
      ∀ a ∈ s.world.admins, ∀ a' ∈ s'.world.admins, a'.id = a.id →
        a'.passwordResetToken ≠ a.passwordResetToken → a.passwordResetToken = some p.2

/-- The rules: issued tokens are fresh, and what consumes a token finds it in its row. -/
def tokenRules : Rules TokenRequest Env World Label Response where
  inv := SingleUse
  rely _ _ := True
  guar := KeepsOthers
  post _ _ := True
  stmtOk i s l := IssuesFresh i s l ∧ HoldsToken i s l
  startOk _ _ := True
  envOk := WritesNoSpent

/-- The rules of a run whose issued tokens are fresh, and nothing more. -/
def freshRules : Rules TokenRequest Env World Label Response :=
  { tokenRules with stmtOk := IssuesFresh }

instance (i : ℕ) (s : Shared TokenRequest World Label) (l : Label) :
    Decidable (IssuesFresh i s l) :=
  inferInstanceAs (Decidable (∀ r ∈ s.started[i]?, ∀ _a ∈ written l, ∀ token ∈ r.issues,
    token ∉ spent s .passwordReset ∧ ∀ a ∈ s.world.admins, a.passwordResetToken ≠ some token))

instance (i : ℕ) (s : Shared TokenRequest World Label) (l : Label) : Decidable (HoldsToken i s l) :=
  inferInstanceAs (Decidable (∀ r ∈ s.started[i]?, ∀ a ∈ written l, ∀ p ∈ r.presents,
    p.1.token a = some p.2))

instance (s : Shared TokenRequest World Label) : (e : Env) → Decidable (WritesNoSpent s e)
  | .tick _ => isTrue trivial
  | .setAdmins rows => inferInstanceAs (Decidable (Rows.HasKey Admin.id rows ∧
      (Rows.HasPartialKey TokenKind.invite.token rows ∧
        ∀ token ∈ spent s .invite, ∀ a ∈ rows, a.inviteToken ≠ some token) ∧
      Rows.HasPartialKey TokenKind.passwordReset.token rows ∧
        ∀ token ∈ spent s .passwordReset, ∀ a ∈ rows, a.passwordResetToken ≠ some token))

instance (i : ℕ) (s : Shared TokenRequest World Label) (l : Label) :
    Decidable (tokenRules.stmtOk i s l) :=
  inferInstanceAs (Decidable (IssuesFresh i s l ∧ HoldsToken i s l))

instance (s : Shared TokenRequest World Label) (r : TokenRequest) :
    Decidable (tokenRules.startOk s r) := isTrue trivial

instance (s : Shared TokenRequest World Label) (e : Env) : Decidable (tokenRules.envOk s e) :=
  inferInstanceAs (Decidable (WritesNoSpent s e))

instance (i : ℕ) (s : Shared TokenRequest World Label) (l : Label) :
    Decidable (freshRules.stmtOk i s l) :=
  inferInstanceAs (Decidable (IssuesFresh i s l))

instance (s : Shared TokenRequest World Label) (r : TokenRequest) :
    Decidable (freshRules.startOk s r) := isTrue trivial

instance (s : Shared TokenRequest World Label) (e : Env) : Decidable (freshRules.envOk s e) :=
  inferInstanceAs (Decidable (WritesNoSpent s e))

variable {crypto : Crypto} {s : Shared TokenRequest World Label} {i : ℕ} {label : World → Label}
  {write : World → World}

/-! ### Statements -/

theorem spent_after (kind : TokenKind) :
    spent (s.after i label write) kind =
      (spentBy s.started kind (i, label s.world)).toList ++ spent s kind := by
  rw [spent, Requests.after_history, Requests.after_started, List.filterMap_cons]
  cases spentBy s.started kind (i, label s.world) <;> rfl

theorem spentBy_of_none {kind : TokenKind} {started : List TokenRequest} {l : Label}
    (h : written l = none) : spentBy started kind (i, l) = none := by
  cases hr : started[i]? <;> simp [spentBy, h, hr]

theorem spentBy_eq_some {kind : TokenKind} {started : List TokenRequest} {r : TokenRequest}
    {l : Label} {a : Admin} {token : String} (hr : started[i]? = some r) (ha : written l = some a) :
    spentBy started kind (i, l) = some token ↔ r.spends kind = true ∧
    kind.token a = some token := by
  simp only [spentBy, hr, ha, Option.bind_some]
  cases r.spends kind <;> simp

/-- A statement that writes over no row. -/
theorem SingleUse.stmtKept (h : SingleUse s) {r : TokenRequest} (hr : s.started[i]? = some r)
    (hlabel : written (label s.world) = none) (hadmins : (write s.world).admins = s.world.admins) :
    tokenRules.StmtKept i s label write := by
  have hspent (kind : TokenKind) : spent (s.after i label write) kind = spent s kind := by
    rw [spent_after, spentBy_of_none hlabel]
    rfl
  refine ⟨⟨?_, fun kind => ?_, fun kind => ?_, ?_, ?_⟩, trivial,
    fun r' _ p _ => ⟨fun _ => hadmins, ?_⟩⟩
  · rw [Requests.after_world, hadmins]
    exact h.unique
  · rw [hspent, Requests.after_world, hadmins]
    exact h.gone kind
  · rw [hspent]
    exact h.once kind
  · exact List.forall_mem_cons.2 ⟨(List.getElem?_eq_some_iff.1 hr).1, h.started⟩
  · refine List.forall_mem_cons.2 ⟨fun r _ a ha => ?_, h.holds⟩
    rw [hlabel] at ha
    cases ha
  · intro a ha a' ha' hid hne
    rw [Requests.after_world, hadmins] at ha'
    rw [h.unique.id.eq_of_key ha' ha hid] at hne
    exact absurd rfl hne

/-- **A statement that writes a row**: it takes tokens out of the row, or leaves them, and puts none
in but the one that it issues. -/
theorem SingleUse.stmtKept_update (h : SingleUse s) {r : TokenRequest} {id : String}
    {f : Admin → Admin} (hr : s.started[i]? = some r) (hid : ∀ a, (f a).id = a.id)
    (hkeeps : ∀ kind a, r.spends kind = false → kind.token (f a) = kind.token a)
    (hissues : ∀ kind a, r.spends kind = true → ∀ token ∈ kind.token (f a),
      token ∈ r.issues ∧ kind = .passwordReset)
    (hfresh : IssuesFresh i s (.updated id (s.world.admin id)))
    (hholds : HoldsToken i s (.updated id (s.world.admin id))) :
    tokenRules.StmtKept i s (fun w => .updated id (w.admin id)) (World.updateAdmin id f) := by
  cases hrow : s.world.admin id with
  | none =>
    refine h.stmtKept hr hrow (Rows.updateWhere_eq_self fun a ha => ?_)
    simpa using List.find?_eq_none.1 hrow a ha
  | some b =>
    obtain ⟨hb, hbid⟩ := Auth.admin_eq_some hrow
    have hsame {a : Admin} (ha : a ∈ s.world.admins) (haid : a.id = id) : a = b :=
      h.unique.id.eq_of_key ha hb (haid.trans hbid.symm)
    -- a token that the statement puts into the row is new
    have hnew {kind : TokenKind} {token : String} (htoken : kind.token (f b) = some token)
        (hspends : r.spends kind = true) :
        token ∉ spent s kind ∧ ∀ a ∈ s.world.admins, kind.token a ≠ some token := by
      obtain ⟨hmem, rfl⟩ := hissues kind b hspends token htoken
      exact hfresh r hr b hrow token hmem
    have hafter {a : Admin} (ha : a ∈ (s.world.updateAdmin id f).admins) :
        (a ∈ s.world.admins ∧ a.id ≠ id) ∨ a = f b := by
      rcases Rows.mem_updateWhere.1 ha with ⟨ha, hne⟩ | ⟨a₀, ha₀, hid₀, rfl⟩
      · exact Or.inl ⟨ha, of_decide_eq_false hne⟩
      · exact Or.inr (congrArg f (hsame ha₀ (of_decide_eq_true hid₀)))
    have hspent {kind : TokenKind} {token : String} :
        spentBy s.started kind (i, .updated id (s.world.admin id)) = some token ↔
          r.spends kind = true ∧ kind.token b = some token := spentBy_eq_some hr hrow
    refine ⟨⟨⟨?_, fun kind => ?_⟩, fun kind token htoken a ha => ?_,
      fun kind => ?_, ?_, ?_⟩, trivial, fun r' hr' p hp => ⟨fun hmem => ?_,
      fun a ha a' ha' haid hne => ?_⟩⟩
    · exact h.unique.id.updateWhere fun a _ _ => hid a
    · refine (h.unique.token kind).updateWhere_byKey h.unique.id hid
        fun a ha haid token htoken a' ha' htoken' => ?_
      obtain rfl := hsame ha haid
      cases hspends : r.spends kind with
      | true => exact absurd htoken' ((hnew htoken hspends).2 a' ha')
      | false =>
        rw [hkeeps kind _ hspends] at htoken
        rw [(h.unique.token kind).eq_of_key ha' ha htoken' htoken, haid]
    · rw [spent_after, List.mem_append, Option.mem_toList, hspent] at htoken
      rcases hafter ha with ⟨ha, hane⟩ | rfl <;> intro hhas
      · rcases htoken with ⟨-, hbtoken⟩ | htoken
        · rw [(h.unique.token kind).eq_of_key ha hb hhas hbtoken] at hane
          exact hane hbid
        · exact h.gone kind token htoken a ha hhas
      · cases hspends : r.spends kind with
        | true =>
          rcases htoken with ⟨-, hbtoken⟩ | htoken
          · exact (hnew hhas hspends).2 b hb hbtoken
          · exact (hnew hhas hspends).1 htoken
        | false =>
          rw [hkeeps kind _ hspends] at hhas
          rcases htoken with ⟨htrue, -⟩ | htoken
          · rw [hspends] at htrue
            cases htrue
          · exact h.gone kind token htoken b hb hhas
    · rw [spent_after]
      cases htoken : spentBy s.started kind (i, .updated id (s.world.admin id)) with
      | none => exact h.once kind
      | some token =>
        refine List.nodup_cons.2 ⟨fun hmem => ?_, h.once kind⟩
        exact h.gone kind token hmem b hb (hspent.1 htoken).2
    · exact List.forall_mem_cons.2 ⟨(List.getElem?_eq_some_iff.1 hr).1, h.started⟩
    · exact List.forall_mem_cons.2 ⟨hholds, h.holds⟩
    · exact absurd (hholds r' hr' b hrow p hp) (h.gone p.1 p.2 hmem b hb)
    · rcases hafter ha' with ⟨ha', -⟩ | rfl
      · rw [h.unique.id.eq_of_key ha' ha haid] at hne
        exact absurd rfl hne
      · rw [hid] at haid
        obtain rfl := h.unique.id.eq_of_key ha hb haid.symm
        obtain rfl := Option.some.inj (hr.symm.trans hr')
        have hhas := hholds r hr a hrow p hp
        cases r with
        | inviteComplete body salt => exact absurd (hkeeps .passwordReset a rfl) hne
        | passwordResetComplete body salt =>
          obtain ⟨body, -, rfl⟩ := Option.map_eq_some_iff.1 hp
          exact hhas
        | passwordResetLink id token => cases hp

/-! ### Programs -/

variable {r : TokenRequest}

/-- A statement that reads, and what follows. -/
theorem keeps_tokenRead {α : Type} {f : World → α} {next : α → Handler Response}
    (hr : s.started[i]? = some r) (hlabel : ∀ w, written (label w) = none)
    (h : ∀ x t, t.started[i]? = some r → tokenRules.Keeps i (next x) (fun _ _ => True) t) :
    tokenRules.Keeps i (Request.read label f >>= next) (fun _ _ => True) s :=
  Rules.keeps_read fun _ ht hinv _ =>
    ⟨hinv.stmtKept (ht.started_get hr) (hlabel _) rfl, h _ _ (ht.started_get hr)⟩

/-- The statement that writes, and the answer. -/
theorem keeps_tokenUpdate {id : String} {f : Admin → Admin} {answer : Response}
    (hr : s.started[i]? = some r) (hid : ∀ a, (f a).id = a.id)
    (hkeeps : ∀ kind a, r.spends kind = false → kind.token (f a) = kind.token a)
    (hissues : ∀ kind a, r.spends kind = true → ∀ token ∈ kind.token (f a),
      token ∈ r.issues ∧ kind = .passwordReset) :
    tokenRules.Keeps i (do
      Auth.updateAdmin id f
      pure answer) (fun _ _ => True) s :=
  Rules.keeps_write fun _ ht hinv hok =>
    ⟨hinv.stmtKept_update (ht.started_get hr) hid hkeeps hissues hok.1 hok.2,
      Rules.keeps_pure.2 trivial⟩

/-- **The requests that complete.** -/
theorem keeps_complete {kind : TokenKind} {notFound expired salt : String}
    {set : String → Admin → Admin} {body : Option CompleteBody} (hr : s.started[i]? = some r)
    (hid : ∀ hash a, (set hash a).id = a.id)
    (hkeeps : ∀ hash kind a, r.spends kind = false → kind.token (set hash a) = kind.token a)
    (hspends : ∀ hash kind a, r.spends kind = true → kind.token (set hash a) = none) :
    tokenRules.Keeps i (complete kind notFound expired set crypto body salt)
    (fun _ _ => True) s := by
  cases body with
  | none => exact Rules.keeps_pure.2 trivial
  | some body =>
    have hupdate (id : String) (t : Shared TokenRequest World Label) (ht : t.started[i]? = some r) :
        tokenRules.Keeps i (match crypto.generateFromPassword salt body.password with
          | none => pure (Response.error 500 "hash error")
          | some hash => do
            Auth.updateAdmin id (set hash)
            pure Response.ok) (fun _ _ => True) t := by
      cases crypto.generateFromPassword salt body.password with
      | none => exact Rules.keeps_pure.2 trivial
      | some hash =>
        refine keeps_tokenUpdate ht (hid hash) (hkeeps hash) fun kind a hs token htoken => ?_
        rw [hspends hash kind a hs] at htoken
        cases htoken
    refine Rules.keeps_ite (fun _ => Rules.keeps_pure.2 trivial) fun _ => ?_
    rw [findAdminByToken]
    split_ifs
    · exact Rules.keeps_pure.2 trivial
    · refine keeps_tokenRead hr (fun _ => rfl) fun row t ht => ?_
      cases row with
      | none => exact Rules.keeps_pure.2 trivial
      | some a =>
        refine Rules.keeps_ite (fun _ => Rules.keeps_pure.2 trivial) fun _ => ?_
        cases kind.expiresAt a with
        | none => exact hupdate a.id t ht
        | some exp =>
          refine keeps_tokenRead ht (fun _ => rfl) fun now u hu => ?_
          exact Rules.keeps_ite (fun _ => Rules.keeps_pure.2 trivial) fun _ => hupdate a.id u hu

/-- **Each endpoint keeps the rules.** -/
theorem keeps_tokenRequest (hr : s.started[i]? = some r) :
    tokenRules.Keeps i (r.program crypto) (fun _ _ => True) s := by
  cases r with
  | inviteComplete body salt =>
    refine keeps_complete hr (fun _ _ => rfl) (fun hash kind a hs => ?_) fun hash kind a hs => ?_
    · cases kind with
      | invite => cases hs
      | passwordReset => rfl
    · cases kind with
      | invite => rfl
      | passwordReset => cases hs
  | passwordResetComplete body salt =>
    refine keeps_complete hr (fun _ _ => rfl) (fun hash kind a hs => ?_) fun hash kind a hs => ?_
    · cases hs
    · cases kind <;> rfl
  | passwordResetLink id token =>
    rw [TokenRequest.program, passwordResetLink.eq_def]
    refine keeps_tokenRead hr (fun _ => rfl) fun row t ht => ?_
    cases row with
    | none => exact Rules.keeps_pure.2 trivial
    | some a =>
      refine Rules.keeps_ite (fun _ => Rules.keeps_pure.2 trivial) fun _ => ?_
      cases token with
      | none => exact Rules.keeps_pure.2 trivial
      | some token =>
        refine keeps_tokenRead ht (fun _ => rfl) fun now u hu => ?_
        refine keeps_tokenUpdate hu (fun _ => rfl) (fun kind a hs => ?_) fun kind a hs x hx => ?_
        · cases kind with
          | invite => rfl
          | passwordReset => cases hs
        · cases kind with
          | invite => cases hs
          | passwordReset => exact ⟨hx, rfl⟩

/-! ### Runs -/

theorem tokenRules_lawful : tokenRules.Lawful Env.apply where
  refl _ := trivial
  trans _ _ := trivial
  start {s r} h _ := by
    have hspent (kind : TokenKind) : spent (s.starting r) kind = spent s kind := by
      refine List.filterMap_congr fun e he => ?_
      rw [spentBy, spentBy, Requests.Shared.starting, List.getElem?_append_left (h.started e he)]
    refine ⟨h.unique, fun kind => ?_, fun kind => ?_, fun e he => ?_, fun e he => ?_⟩
    · rw [hspent]
      exact h.gone kind
    · rw [hspent]
      exact h.once kind
    · exact (h.started e he).trans_le (List.length_append ▸ Nat.le_add_right _ _)
    · rw [Requests.Shared.starting, List.getElem?_append_left (h.started e he)]
      exact h.holds e he
  env {s e w} h hok he := by
    refine ⟨?_, trivial⟩
    cases e with
    | tick d =>
      obtain rfl := Option.some.inj he
      exact ⟨h.unique, h.gone, h.once, h.started, h.holds⟩
    | setAdmins rows =>
      obtain rfl := Option.some.inj he
      obtain ⟨hid, ⟨hinvite, hgone⟩, hreset, hgone'⟩ := hok
      refine ⟨⟨hid, fun kind => ?_⟩, fun kind => ?_, h.once, h.started, h.holds⟩
      · cases kind with
        | invite => exact hinvite
        | passwordReset => exact hreset
      · cases kind with
        | invite => exact hgone
        | passwordReset => exact hgone'

/-- **What one success leaves**: no other request succeeds with its token. -/
theorem SingleUse.eq_of_succeeds (h : SingleUse s) {j : ℕ} {kind : TokenKind} {token : String}
    (hi : Succeeds s i kind token) (hj : Succeeds s j kind token) : i = j := by
  have hspent {k : ℕ} (hk : Succeeds s k kind token) :
      ∃ l, (k, l) ∈ s.history ∧ token ∈ spentBy s.started kind (k, l) := by
    obtain ⟨r, id, a, hr, hpresents, hmem⟩ := hk
    refine ⟨_, hmem, (spentBy_eq_some hr rfl).2 ⟨?_, h.holds _ hmem r hr a rfl _ hpresents⟩⟩
    cases r with
    | inviteComplete body salt =>
      obtain ⟨body, -, heq⟩ := Option.map_eq_some_iff.1 hpresents
      exact decide_eq_true (Prod.mk.inj heq).1.symm
    | passwordResetComplete body salt => rfl
    | passwordResetLink id token => cases hpresents
  obtain ⟨l, hl, htoken⟩ := hspent hi
  obtain ⟨l', hl', htoken'⟩ := hspent hj
  exact (Prod.mk.inj (Rows.HasPartialKey.eq_of_key (h.once kind) hl hl' htoken htoken')).1

/-- **Tokens are used once.** In every run whose tokens are fresh, and where a request that consumes
a token finds it in the row that it writes, at most one request succeeds with a token, a step with a
spent token changes nothing, and a step with a token clears no other reset token. -/
theorem tokens_single_use {w : World} (hunique : TokensUnique w.admins)
    {events : List (Event TokenRequest Env)} {t : Pool TokenRequest World Label Response}
    (hok : Runs.Meets (tokenStep crypto) tokenRules.StepOk (Pool.initial w) events)
    (hrun : Runs.run (tokenStep crypto) (Pool.initial w) events = some t) :
    (∀ i j kind token, Succeeds t.toShared i kind token →
      Succeeds t.toShared j kind token → i = j) ∧
      ∀ i t', tokenRules.StepOk t (.act i) → tokenStep crypto t (.act i) = some t' →
        KeepsOthers i t.toShared t'.toShared := by
  have hinitial : SingleUse (⟨w, [], []⟩ : Shared TokenRequest World Label) :=
    ⟨hunique, fun _ _ h => absurd h List.not_mem_nil, fun _ => List.nodup_nil,
      fun _ h => absurd h List.not_mem_nil, fun _ h => absurd h List.not_mem_nil⟩
  have hinv := Rules.run_inv tokenRules_lawful (Rules.PoolInv.initial hinitial)
    (fun r t _ _ _ => keeps_tokenRequest (Requests.starting_get t r)) hok hrun
  exact ⟨fun i j kind token hi hj => hinv.inv.eq_of_succeeds hi hj,
    fun i t' hstep ht' => hinv.guar tokenRules_lawful hstep ht'⟩

/-- A world with one admin, who can reset the password. -/
def resettableWorld : World where
  nanoseconds := 0
  admins :=
    [⟨"root", "", "root", none, "pass", true, none, none, some "0123456789abcdef", none,
      false, none, none, none⟩]
  recoveryCodes := []
  limiter := ∅

theorem resettableWorld_unique : TokensUnique resettableWorld.admins where
  id := by decide
  token kind := by cases kind <;> decide

/-- A request that resets the password of `resettableWorld`. -/
def resetRequest (password : String) : TokenRequest :=
  .passwordResetComplete (some ⟨"0123456789abcdef", password⟩) ""

/-- A request with the token, and later another one: only the first one succeeds. -/
theorem reset_in_run :
    ∃ t : Pool TokenRequest World Label Response,
      Runs.run (tokenStep Crypto.plain) (Pool.initial resettableWorld)
          [.start (resetRequest "password"), .act 0, .act 0,
            .start (resetRequest "guess123"), .act 1] =
          some t ∧
        Succeeds t.toShared 0 .passwordReset "0123456789abcdef" ∧
          ∀ j, Succeeds t.toShared j .passwordReset "0123456789abcdef" → 0 = j := by
  have hrun : (Runs.run (tokenStep Crypto.plain) (Pool.initial resettableWorld)
      [.start (resetRequest "password"), .act 0, .act 0, .start (resetRequest "guess123"),
        .act 1]).any (fun t => decide (t.started[0]? = some (resetRequest "password") ∧
          (0, .updated "root" resettableWorld.admins.head?) ∈ t.history)) = true := by
    decide +kernel
  obtain ⟨t, ht, h⟩ := (Option.any_eq_true _ _).1 hrun
  obtain ⟨hstarted, hmem⟩ := of_decide_eq_true h
  have hsucceeds : Succeeds t.toShared 0 .passwordReset "0123456789abcdef" :=
    ⟨_, _, _, hstarted, by decide +kernel, hmem⟩
  have h := @tokens_single_use Crypto.plain _ resettableWorld_unique _ t (by decide +kernel) ht
  exact ⟨t, ht, hsucceeds, fun j hj => h.1 0 j _ _ hsucceeds hj⟩

/-- **Two requests that use one token**: both look it up before the first one consumes it. -/
theorem token_used_twice :
    ¬∀ (w : World) (events : List (Event TokenRequest Env))
      (t : Pool TokenRequest World Label Response),
      TokensUnique w.admins →
        Runs.Meets (tokenStep Crypto.plain) freshRules.StepOk (Pool.initial w) events →
          Runs.run (tokenStep Crypto.plain) (Pool.initial w) events = some t →
            ∀ i j kind token, Succeeds t.toShared i kind token → Succeeds t.toShared j kind token →
              i = j := by
  intro h
  have hrun : (Runs.run (tokenStep Crypto.plain) (Pool.initial resettableWorld)
      [.start (resetRequest "password"), .start (resetRequest "guess123"), .act 0, .act 1, .act 0,
        .act 1]).any (fun t => decide (t.started = [resetRequest "password",
        resetRequest "guess123"] ∧
          ∃ e ∈ t.history, ∃ e' ∈ t.history, e.1 = 0 ∧ e'.1 = 1 ∧ (written e.2).isSome ∧
            (written e'.2).isSome)) = true := by
    decide +kernel
  obtain ⟨t, ht, hboth⟩ := (Option.any_eq_true _ _).1 hrun
  obtain ⟨hstarted, ⟨i, l⟩, hl, ⟨j, l'⟩, hl', hi, hj, hwritten, hwritten'⟩ :=
    of_decide_eq_true hboth
  have hsucceeds {k : ℕ} {l : Label} {r : TokenRequest} (hr : t.started[k]? = some r)
      (hpresents : r.presents = some (.passwordReset, "0123456789abcdef")) (hl : (k, l) ∈ t.history)
      (hwritten : (written l).isSome = true) :
      Succeeds t.toShared k .passwordReset "0123456789abcdef" := by
    obtain ⟨a, ha⟩ := Option.isSome_iff_exists.1 hwritten
    cases l with
    | updated id before =>
      obtain rfl : before = some a := ha
      exact ⟨r, id, a, hr, hpresents, hl⟩
    | _ => cases ha
  obtain rfl : i = 0 := hi
  obtain rfl : j = 1 := hj
  have hone := h resettableWorld _ t resettableWorld_unique (by decide +kernel) ht 0 1 _ _
    (hsucceeds (by rw [hstarted]; rfl) (by decide +kernel) hl hwritten)
    (hsucceeds (by rw [hstarted]; rfl) (by decide +kernel) hl' hwritten')
  cases hone

end OpenvpnControl.Handlers
