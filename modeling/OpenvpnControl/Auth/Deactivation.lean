import OpenvpnControl.Auth.Sessions

/-!
# When access ends

`RequireAuth` and `Refresh` look at a token alone, and an admin that is made inactive keeps the
tokens signed before. As long as access tokens are signed for active admins only, all of them run
out within `JWTExpiresIn`. `Refresh` signs for anyone who has a token, so access goes on for as long
as it is refreshed.

## Main definitions

* `SignsForActive`: an access token is signed for an active admin.
* `activeRules`: the condition on the statements of a run.

## Main results

* `access_ends`: access ends in every run that meets the condition.
* `refresh_outlives_deactivation`: a chain of tokens that goes on.
-/

namespace OpenvpnControl.Auth

open Handlers (TotpRequest)
open Requests (Shared Pool Event Rules)

variable {cfg : Config} {crypto : Crypto}

/-! ### The condition -/

/-- Is there an active admin of this id? -/
def World.active (w : World) (id : String) : Bool := (w.admin id).any Admin.isActive

/-- The claims that a statement signs. -/
def Label.signs : Label → Option Claims
  | .signed c => some c
  | _ => none

/-- A statement that signs an access token signs it for an admin who is active. -/
def SignsForActive (w : World) (l : Label) : Prop :=
  ∀ c ∈ l.signs, c.purpose = "" → w.active c.sub = true

/-- The rules of a run in which nobody forges a token and access tokens are signed for active
admins. -/
def activeRules (crypto : Crypto) : Rules SessionRequest Env World Label Response :=
  { sessionRules crypto with stmtOk := fun _ s l => SignsForActive s.world l }

/-- The admin `id` is not active at any time after `t`. -/
def InactiveAfter (t : ℤ) (id : String) (w : World) : Prop := t < w.now → w.active id = false

instance (w : World) (l : Label) : Decidable (SignsForActive w l) :=
  inferInstanceAs (Decidable (∀ c ∈ l.signs, c.purpose = "" → w.active c.sub = true))

instance (t : ℤ) (id : String) (w : World) : Decidable (InactiveAfter t id w) :=
  inferInstanceAs (Decidable (t < w.now → w.active id = false))

instance (i : ℕ) (s : Shared SessionRequest World Label) (l : Label) :
    Decidable ((activeRules crypto).stmtOk i s l) :=
  inferInstanceAs (Decidable (SignsForActive s.world l))

instance (s : Shared SessionRequest World Label) (r : SessionRequest) :
    Decidable ((activeRules crypto).startOk s r) :=
  inferInstanceAs (Decidable ((sessionRules crypto).startOk s r))

instance (s : Shared SessionRequest World Label) (e : Env) :
    Decidable ((activeRules crypto).envOk s e) := isTrue trivial

/-! ### Times -/

/-- The times of a statement are right: an access token is good for no longer than `expires`, and
what passes `RequireAuth` has not run out. -/
def Label.Timed (expires now : ℤ) : Label → Prop
  | .signed c => c.purpose = "" → c.expiresAt * second ≤ now + expires
  | .authorized c u => u < c.expiresAt * second
  | _ => True

/-- All statements of a program have right times. -/
abbrev TimedProgram {α : Type} (expires : ℤ) (p : Handler α) : Prop :=
  p.All fun label _ => ∀ w, (label w).Timed expires w.now

theorem Label.timed_of_quiet {expires now : ℤ} {l : Label} (h : l.quiet = true) :
    l.Timed expires now := by
  cases l with
  | signed c => cases h
  | authorized c u => cases h
  | _ => trivial

theorem QuietProgram.timed {α : Type} {expires : ℤ} {p : Handler α} (h : QuietProgram p) :
    TimedProgram expires p :=
  h.mono fun _ _ hquiet w => Label.timed_of_quiet (hquiet w)

theorem timed_signAccess (sub username : String) :
    TimedProgram cfg.jwtExpiresIn
      (signAccess cfg sub username >>= fun tok => pure (Response.token tok)) :=
  Request.all_read_bind (fun _ _ => expiresAt_le _) fun _ => Request.all_pure _

theorem timed_requireAuth {bearer : Option Jwt} {next : Claims → Handler Response}
    (h : ∀ c, TimedProgram cfg.jwtExpiresIn (next c)) :
    TimedProgram cfg.jwtExpiresIn (requireAuth bearer next) := by
  cases bearer with
  | none => exact Request.all_pure _
  | some tok =>
    refine Request.all_read_bind (fun w => ?_) fun claims => ?_
    · cases hacc : accepts w.now tok with
      | none => trivial
      | some c => exact (accepts_eq_some.1 hacc).2.1
    · cases claims with
      | none => exact Request.all_pure _
      | some c => exact h c

theorem timed_loginAs (key password : String) (a : Admin) :
    TimedProgram cfg.jwtExpiresIn (loginAs cfg crypto key password a) := by
  have hrejected (msg : String) : TimedProgram cfg.jwtExpiresIn (rejected cfg key msg) :=
    (quiet_rejected key msg).timed
  refine Request.all_ite (hrejected _) <| Request.all_ite (hrejected _) ?_
  refine Request.all_read_bind (fun _ => trivial) fun _ => ?_
  refine Request.all_read_bind (fun _ => trivial) fun _ => Request.all_ite (hrejected _) ?_
  refine Request.all_ite ?_ (Request.all_write_bind (fun _ => trivial) (timed_signAccess _ _))
  -- the purpose of a token that waits is not empty
  refine Request.all_read_bind (fun w (h : "mfa_pending" = "") => ?_) fun _ => Request.all_pure _
  exact absurd h (by decide)

theorem timed_login (client : Limiter.Client) (body : Option LoginBody) :
    TimedProgram cfg.jwtExpiresIn (login cfg crypto client body) := by
  cases body with
  | none => exact Request.all_pure _
  | some body =>
    rw [login.eq_def]
    refine Request.all_ite (Request.all_pure _) ?_
    refine Request.all_read_bind (fun _ => trivial) fun retry => ?_
    cases retry with
    | some retry => exact Request.all_pure _
    | none =>
      refine Request.all_read_bind (fun _ => trivial) fun row => ?_
      cases row with
      | none => exact (quiet_rejected _ _).timed
      | some a => exact timed_loginAs _ _ a

theorem timed_loginMFAAs (key : String) (body : MfaBody) (claims : Claims) (a : Admin) :
    TimedProgram cfg.jwtExpiresIn (loginMFAAs cfg crypto key body claims a) := by
  have hrejected (msg : String) : TimedProgram cfg.jwtExpiresIn (rejected cfg key msg) :=
    (quiet_rejected key msg).timed
  rw [loginMFAAs]
  refine Request.all_ite (hrejected _) ?_
  refine Request.all_read_bind (fun _ => trivial) fun now => ?_
  refine Request.All.bind ?_ fun recoveryOk => ?_
  · rcases @verifyAndConsumeRecoveryCode_eq crypto a.id body.recoveryCode with h | h <;> rw [h]
    · exact Request.all_done _
    · exact Request.all_stmt.2 ⟨fun _ => trivial, fun _ =>
        Request.all_stmt.2 ⟨fun _ => trivial, fun _ => Request.all_done _⟩⟩
  · refine Request.all_read_bind (fun _ => trivial) fun _ => Request.all_ite (hrejected _) ?_
    exact Request.all_write_bind (fun _ => trivial) (timed_signAccess _ _)

theorem timed_loginMFA (client : Limiter.Client) (body : Option MfaBody) :
    TimedProgram cfg.jwtExpiresIn (loginMFA cfg crypto client body) := by
  cases body with
  | none => exact Request.all_pure _
  | some body =>
    rw [loginMFA.eq_def]
    refine Request.all_ite (Request.all_pure _) ?_
    refine Request.all_read_bind (fun _ => trivial) fun now => ?_
    cases parseToken now body.mfaPendingToken with
    | none => exact Request.all_pure _
    | some claims =>
      refine Request.all_ite (Request.all_pure _) ?_
      refine Request.all_read_bind (fun _ => trivial) fun retry => ?_
      cases retry with
      | some retry => exact Request.all_pure _
      | none =>
        refine Request.all_read_bind (fun _ => trivial) fun row => ?_
        cases row with
        | none => exact (quiet_rejected _ _).timed
        | some a => exact timed_loginMFAAs _ _ _ a

/-- **Every request** has right times. -/
theorem timed_sessionRequest (r : SessionRequest) :
    TimedProgram cfg.jwtExpiresIn (r.program cfg crypto) := by
  cases r with
  | login client body => exact timed_login client body
  | loginMFA client body => exact timed_loginMFA client body
  | refresh bearer => exact timed_requireAuth fun c => timed_signAccess c.sub c.username
  | totp bearer r => exact timed_requireAuth fun _ => (quiet_totpRequest _).timed
  | patch bearer id body salt => exact timed_requireAuth fun _ => (quiet_patchAdmin _ _ _).timed
  | api bearer => exact timed_requireAuth fun _ => Request.all_pure _

/-! ### Runs -/

/-- The access tokens of the admin `id` run out by `t + expires`, and what passed had not run out:
the rules of a run in which access tokens are signed for active admins and `id` is inactive after
`t`. -/
def endedRules (expires t : ℤ) (id : String) : Rules SessionRequest Env World Label Response where
  inv s := (∀ i c, (i, .signed c) ∈ s.history → c.sub = id → c.purpose = "" →
      c.expiresAt * second ≤ t + expires) ∧
    ∀ i c u, (i, .authorized c u) ∈ s.history → u < c.expiresAt * second
  rely _ _ := True
  guar _ _ _ := True
  post _ _ := True
  stmtOk _ s l := SignsForActive s.world l ∧ InactiveAfter t id s.world
  startOk _ _ := True
  envOk _ _ := True

theorem endedRules_lawful (expires t : ℤ) (id : String) :
    (endedRules expires t id).Lawful Env.apply where
  refl _ := trivial
  trans _ _ := trivial
  start h _ := h
  env h _ _ := ⟨h, trivial⟩

/-- A statement with the right times. -/
theorem stmtKept_of_timed {t : ℤ} {id : String} {i : ℕ} {s : Shared SessionRequest World Label}
    {label : World → Label} {write : World → World}
    (htimed : (label s.world).Timed cfg.jwtExpiresIn s.world.now)
    (hinv : (endedRules cfg.jwtExpiresIn t id).inv s)
    (hsigns : SignsForActive s.world (label s.world)) (hinactive : InactiveAfter t id s.world) :
    (endedRules cfg.jwtExpiresIn t id).StmtKept i s label write := by
  refine ⟨⟨fun j c hc hsub hpurpose => ?_, fun j c v hv => ?_⟩, trivial, trivial⟩
  · rcases List.mem_cons.1 hc with heq | hc
    · obtain ⟨-, hlabel⟩ := Prod.mk.inj heq
      rw [← hlabel] at htimed hsigns
      have hactive : s.world.active c.sub = true := hsigns c rfl hpurpose
      have hnow : s.world.now ≤ t := by
        by_contra hlate
        rw [hsub, hinactive (not_le.1 hlate)] at hactive
        cases hactive
      exact (htimed hpurpose).trans (Int.add_le_add_right hnow _)
    · exact hinv.1 j c hc hsub hpurpose
  · rcases List.mem_cons.1 hv with heq | hv
    · obtain ⟨-, hlabel⟩ := Prod.mk.inj heq
      rw [← hlabel] at htimed
      exact htimed
    · exact hinv.2 j c v hv

theorem keeps_ended {t : ℤ} {id : String} {i : ℕ} (r : SessionRequest)
    (s : Shared SessionRequest World Label) :
    (endedRules cfg.jwtExpiresIn t id).Keeps i (r.program cfg crypto) (fun _ _ => True) s :=
  (Rules.keeps_of_quiet (L := fun _ => True) (timed_sessionRequest r) (Request.ends_true _)
    fun _ _ htimed u hinv hok => ⟨trivial,
    stmtKept_of_timed (htimed u.world) hinv hok.1 hok.2⟩).mono
      fun _ _ _ => trivial

/-- **Access ends.** In every run in which nobody forges a token, access tokens are signed for
active admins and the admin `id` is inactive after `t`, no token of `id` passes later than
`JWTExpiresIn` after `t`. -/
theorem access_ends {w : World} {events : List (Event SessionRequest Env)} {t : ℤ} {id : String}
    {s : Pool SessionRequest World Label Response}
    (hok : Runs.Meets (sessionStep cfg crypto) (activeRules crypto).StepOk (Pool.initial w) events)
    (hinactive : Runs.Meets (sessionStep cfg crypto) (fun s _ => InactiveAfter t id s.world)
      (Pool.initial w) events)
    (hrun : Runs.run (sessionStep cfg crypto) (Pool.initial w) events = some s) :
    ∀ i c u, (i, .authorized c u) ∈ s.history → c.sub = id → u ≤ t + cfg.jwtExpiresIn := by
  have hsessions := (run_sessions (hok.mono fun s e h => by
    cases e with
    | act i => exact fun _ _ _ _ => trivial
    | start r => exact h
    | env e => trivial) hrun).inv
  have hended := (Rules.run_inv (endedRules_lawful cfg.jwtExpiresIn t id)
    (Rules.PoolInv.initial ⟨fun _ _ h => absurd h List.not_mem_nil,
      fun _ _ _ h => absurd h List.not_mem_nil⟩)
    (fun r s _ _ _ => keeps_ended r _) (hok.and_imp (fun s e h hinactive => by
      cases e with
      | act i => exact fun label write next hget => ⟨h label write next hget, hinactive⟩
      | start r => trivial
      | env e => trivial) hinactive) hrun).inv
  intro i c u hmem hsub
  obtain ⟨hpurpose, ⟨j, _⟩, hj, rfl⟩ := hsessions.authorized i c u hmem
  have haccess : c.purpose = "" := by
    rcases hsessions.signed j c hj with hpending | ⟨haccess, -⟩
    · exact absurd hpending.1 hpurpose
    · exact haccess
  exact (hended.2 i c u hmem).le.trans (hended.1 j c hj hsub haccess)

/-- A world with one admin, who has no second factor. -/
def plainWorld : World where
  nanoseconds := 0
  admins :=
    [⟨"root", "", "root", none, "pass", true, none, none, none, none, false, none, none, none⟩]
  recoveryCodes := []
  limiter := ∅

/-- A token of `plainWorld`, with its times in seconds. -/
def plainToken (issuedAt expiresAt : ℤ) : Jwt := .signed ⟨"root", "root", "", expiresAt, issuedAt⟩

/-- A login, and ten seconds later the request that makes the admin inactive. -/
def deactivation : List (Event SessionRequest Env) :=
  [Event.start (SessionRequest.login ⟨"", "client"⟩ (some ⟨"root", "pass"⟩))] ++
    List.replicate 6 (Event.act 0) ++
    [Event.env (Env.tick 10000000000),
      Event.start (SessionRequest.patch (some (plainToken 0 3600)) "root"
        (some [("isActive", .bool false)]) ""),
      Event.act 1, Event.act 1, Event.env (Env.tick 10000000000)]

/-- A request with the token from before, ten seconds after the admin was made inactive. -/
theorem deactivated_in_run :
    ∃ s : Pool SessionRequest World Label Response,
      Runs.run (sessionStep Config.hourly Crypto.plain) (Pool.initial plainWorld)
          (deactivation ++ [.start (.api (some (plainToken 0 3600))), .act 2]) = some s ∧
        ∃ c u, (2, .authorized c u) ∈ s.history ∧ u ≤ 10 * second + Config.hourly.jwtExpiresIn := by
  have hrun : (Runs.run (sessionStep Config.hourly Crypto.plain) (Pool.initial plainWorld)
      (deactivation ++ [.start (.api (some (plainToken 0 3600))), .act 2])).any (fun s =>
        decide ((2, .authorized ⟨"root", "root", "", 3600, 0⟩ 20000000000) ∈
          s.history)) = true := by
    decide +kernel
  obtain ⟨s, hs, hmem⟩ := (Option.any_eq_true _ _).1 hrun
  have hmem := of_decide_eq_true hmem
  exact ⟨s, hs, _, _, hmem, @access_ends Config.hourly Crypto.plain _ _ (10 * second) "root" _
    (by decide +kernel) (by decide +kernel) hs _ _ _ hmem rfl⟩

/-- **A chain of tokens that goes on**: the token from before is refreshed after the admin was made
inactive, and the new one passes when the old one has run out. -/
theorem refresh_outlives_deactivation :
    ¬∀ (w : World) (events : List (Event SessionRequest Env)) (t : ℤ) (id : String)
      (s : Pool SessionRequest World Label Response),
      Runs.Meets (sessionStep Config.hourly Crypto.plain) (sessionRules Crypto.plain).StepOk
          (Pool.initial w) events →
        Runs.Meets (sessionStep Config.hourly Crypto.plain) (fun s _ => InactiveAfter t id s.world)
            (Pool.initial w) events →
          Runs.run (sessionStep Config.hourly Crypto.plain) (Pool.initial w) events = some s →
            ∀ i c u, (i, .authorized c u) ∈ s.history → c.sub = id →
              u ≤ t + Config.hourly.jwtExpiresIn := by
  intro h
  let events : List (Event SessionRequest Env) := deactivation ++
    [.start (.refresh (some (plainToken 0 3600))), .act 2, .act 2, .env (.tick 3595000000000),
      .start (.api (some (plainToken 20 3620))), .act 3]
  have hrun : (Runs.run (sessionStep Config.hourly Crypto.plain) (Pool.initial plainWorld)
      events).any (fun s =>
        decide ((3, .authorized ⟨"root", "root", "", 3620, 20⟩ 3615000000000) ∈
          s.history)) = true := by
    decide +kernel
  obtain ⟨s, hs, hmem⟩ := (Option.any_eq_true _ _).1 hrun
  have hlate := h plainWorld events (10 * second) "root" s (by decide +kernel)
    (by decide +kernel) hs 3 _ _ (of_decide_eq_true hmem) rfl
  exact absurd hlate (by decide)

end OpenvpnControl.Auth
