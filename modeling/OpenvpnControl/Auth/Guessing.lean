import OpenvpnControl.Auth.Handler

/-!
# How many guesses the limiter allows

`Login` and `LoginMFA` check the limiter, compare a credential, and tell the limiter how it went, in
three steps. While an attempt only passes `Check` when the attempts before it leave room for one
more failure, a key is locked after `max` failures at the latest, and nothing is compared while it
is locked. Attempts that pass `Check` side by side are not counted before they fail.

## Main definitions

* `LoginRequest`: an attempt of either kind.
* `Attempt`, `attempt`: what a request says of its attempt so far.
* `guesses`: the failing comparisons for a key, since its last success or lock.
* `guessRules`: the condition on the checks, and the invariant.

## Main results

* `guesses_bounded`: the property of every run that meets the condition.
* `guesses_side_by_side`: four failing comparisons where the limit is three.
-/

namespace OpenvpnControl.Auth

open Limiter (Client)
open Requests (Shared Pool Event Rules)

/-! ### Attempts -/

/-- An attempt to log in. -/
inductive LoginRequest where
  | login (client : Client) (body : Option LoginBody)
  | loginMFA (client : Client) (body : Option MfaBody)
  deriving DecidableEq

/-- The program of an attempt. -/
def LoginRequest.program (cfg : Config) (crypto : Crypto) : LoginRequest → Handler Response
  | .login client body => Auth.login cfg crypto client body
  | .loginMFA client body => Auth.loginMFA cfg crypto client body

/-- An attempt that has passed `Check` and has not told the limiter yet how it went: its key, and
whether its comparison failed. -/
structure Attempt where
  key : String
  failed : Bool
  deriving DecidableEq

/-- The attempt of a request, read off its labels, the latest first. A token ends an attempt too: a
password that is right does not reach `Success` when a second factor is on. -/
def attempt : List Label → Option Attempt
  | [] => none
  | .check key true :: _ => some ⟨key, false⟩
  | .compared _ ok _ :: own => (attempt own).map fun a => { a with failed := !ok }
  | .fail _ _ :: _ | .success _ :: _ | .signed _ :: _ => none
  | .check _ false :: own | .clock _ :: own | .comparing _ _ _ :: own | .selected _ :: own
  | .authorized _ _ :: own | .unauthorized :: own | .recovery :: own | .recoveryUsed _ _ :: own
  | .updated _ _ :: own | .replacedCodes _ _ :: own => attempt own

/-- The comparisons for a key that failed since its last `Success`, or since the last failure that
locked it. -/
def guesses (key : String) : List (ℕ × Label) → ℕ
  | [] => 0
  | (_, l) :: history =>
    if l = .success key ∨ l = .fail key true then 0
    else if l = .compared key false true ∨ l = .compared key false false then
      guesses key history + 1
    else guesses key history

/-- A credential is compared while its key is locked. -/
def Label.ComparesLocked (key : String) (l : Label) : Prop :=
  (∃ now, l = .comparing key now true) ∨ ∃ ok, l = .compared key ok true

variable (cfg : Config) (crypto : Crypto) (key : String)

/-- An attempt for the key is on its way. -/
def onItsWay (own : List Label) : Bool := (attempt own).any fun a => a.key = key

/-- An attempt for the key whose comparison failed is on its way to `Fail`. -/
def aboutToFail (own : List Label) : Bool := attempt own = some ⟨key, true⟩

/-- The attempts for the key that are on their way. -/
def inFlight (s : Shared LoginRequest World Label) : ℕ := (s.those (onItsWay key)).card

/-- The attempts for the key that are about to fail. -/
def failing (s : Shared LoginRequest World Label) : ℕ := (s.those (aboutToFail key)).card

/-- The failures of the key. -/
def World.failures (w : World) (key : String) : ℕ := Limiter.failures w.limiter key

/-- The invariant: the attempts on their way have room for their failures, or there is one at most;
no attempt is on its way while the key is locked; and every failing comparison is a failure that is
counted, or one that will be. -/
structure Bounded (s : Shared LoginRequest World Label) : Prop where
  room : (s.world.failures key + inFlight key s : ℤ) ≤ cfg.loginMaxAttempts ∨ inFlight key s ≤ 1
  unlocked : inFlight key s ≠ 0 → s.world.locked key = false
  counted : guesses key s.history ≤ failing key s +
    if (s.world.failures key : ℤ) < cfg.loginMaxAttempts then s.world.failures key else 0
  compares : ∀ e ∈ s.history, ¬e.2.ComparesLocked key

/-- An attempt passes `Check` when no other one for the key is on its way, or when the failures of
the key and the attempts on their way leave room for one more. -/
def Room (s : Shared LoginRequest World Label) (l : Label) : Prop :=
  l = .check key true →
    inFlight key s = 0 ∨ (s.world.failures key + inFlight key s : ℤ) < cfg.loginMaxAttempts

/-- The rules: attempts pass with room only. -/
def guessRules : Rules LoginRequest Env World Label Response where
  inv := Bounded cfg key
  rely _ _ := True
  guar _ _ _ := True
  post _ _ := True
  stmtOk _ := Room cfg key
  startOk _ _ := True
  envOk _ _ := True

instance (i : ℕ) (s : Shared LoginRequest World Label) (l : Label) :
    Decidable ((guessRules cfg key).stmtOk i s l) :=
  inferInstanceAs (Decidable (l = .check key true →
    inFlight key s = 0 ∨ (s.world.failures key + inFlight key s : ℤ) < cfg.loginMaxAttempts))

instance (s : Shared LoginRequest World Label) (r : LoginRequest) :
    Decidable ((guessRules cfg key).startOk s r) := isTrue trivial

instance (s : Shared LoginRequest World Label) (e : Env) :
    Decidable ((guessRules cfg key).envOk s e) := isTrue trivial

/-- The steps of any attempts. -/
def loginStep : Pool LoginRequest World Label Response → Event LoginRequest Env →
    Option (Pool LoginRequest World Label Response) :=
  Requests.step (LoginRequest.program cfg crypto) Env.apply

variable {cfg crypto key} {s t : Shared LoginRequest World Label} {i : ℕ} {label : World → Label}
  {write : World → World} {k : String}

/-! ### Counting -/

theorem inFlight_after :
    inFlight key (s.after i label write) + (onItsWay key (s.own i)).toNat =
      inFlight key s + (onItsWay key (label s.world :: s.own i)).toNat :=
  Requests.card_those_after rfl

theorem failing_after :
    failing key (s.after i label write) + (aboutToFail key (s.own i)).toNat =
      failing key s + (aboutToFail key (label s.world :: s.own i)).toNat :=
  Requests.card_those_after rfl

/-- What is about to fail is on its way. -/
theorem failing_le_inFlight : failing key s ≤ inFlight key s := by
  refine Finset.card_le_card fun j hj => ?_
  rw [Requests.mem_those rfl] at hj ⊢
  rw [onItsWay, of_decide_eq_true hj, Option.any_some, decide_eq_true_iff]

/-- An attempt on its way is one of those in flight. -/
theorem inFlight_ne_zero (h : onItsWay key (s.own i) = true) : inFlight key s ≠ 0 :=
  Finset.card_ne_zero_of_mem ((Requests.mem_those rfl).2 h)

theorem onItsWay_of_attempt {own : List Label} {a : Attempt} (h : attempt own = some a) :
    onItsWay key own = decide (a.key = key) := by
  rw [onItsWay, h, Option.any_some]

theorem onItsWay_of_none {own : List Label} (h : attempt own = none) :
    onItsWay key own = false := by
  rw [onItsWay, h, Option.any_none]

theorem aboutToFail_of_attempt {own : List Label} {a : Attempt} (h : attempt own = some a) :
    aboutToFail key own = decide (a = ⟨key, true⟩) := by
  rw [aboutToFail, h]
  exact decide_eq_decide.2 Option.some_inj

theorem aboutToFail_of_none {own : List Label} (h : attempt own = none) :
    aboutToFail key own = false := by
  rw [aboutToFail, h]
  rfl

/-- **What the invariant bounds.** -/
theorem Bounded.guesses_le (hmax : 1 ≤ cfg.loginMaxAttempts) (h : Bounded cfg key s) :
    (guesses key s.history : ℤ) ≤ cfg.loginMaxAttempts := by
  have hcounted := h.counted
  have hfailing := @failing_le_inFlight key s
  rcases h.room with hroom | hone <;> split_ifs at hcounted <;> omega

/-! ### The statements of an attempt -/

/-- A statement that is nothing to the key. -/
theorem Bounded.frame (h : Bounded cfg key s)
    (hway : onItsWay key (label s.world :: s.own i) = onItsWay key (s.own i))
    (hfail : aboutToFail key (label s.world :: s.own i) = aboutToFail key (s.own i))
    (hguesses : guesses key ((i, label s.world) :: s.history) = guesses key s.history)
    (hcompares : ¬(label s.world).ComparesLocked key)
    (hfailures : (write s.world).failures key = s.world.failures key)
    (hlocked : (write s.world).locked key = s.world.locked key) :
    Bounded cfg key (s.after i label write) := by
  have hflight : inFlight key (s.after i label write) = inFlight key s := by
    have := @inFlight_after key s i label write
    rw [hway] at this
    omega
  have hfailing : failing key (s.after i label write) = failing key s := by
    have := @failing_after key s i label write
    rw [hfail] at this
    omega
  constructor
  · rw [hflight, Requests.after_world, hfailures]
    exact h.room
  · rw [hflight, Requests.after_world, hlocked]
    exact h.unlocked
  · rw [hfailing, Requests.after_world, Requests.after_history, hfailures, hguesses]
    exact h.counted
  · exact List.forall_mem_cons.2 ⟨hcompares, h.compares⟩

/-- Is a statement nothing to any attempt? -/
def Label.aside : Label → Bool
  | .clock _ | .check _ false | .selected _ | .recovery => true
  | _ => false

theorem attempt_aside {l : Label} {own : List Label} (h : l.aside = true) :
    attempt (l :: own) = attempt own := by
  cases l with
  | check k ok => cases ok <;> first | rfl | cases h
  | clock | selected | recovery => rfl
  | _ => cases h

/-- A statement that is nothing to any attempt. -/
theorem Bounded.aside (h : Bounded cfg key s) (haside : (label s.world).aside = true) :
    Bounded cfg key (s.after i label id) := by
  have hattempt : attempt (label s.world :: s.own i) = attempt (s.own i) := attempt_aside haside
  refine h.frame ?_ ?_ ?_ ?_ rfl rfl
  · rw [onItsWay, hattempt, onItsWay]
  · rw [aboutToFail, hattempt, aboutToFail]
  · generalize label s.world = l at haside
    cases l <;> first | rfl | cases haside
  · generalize label s.world = l at haside
    rintro (⟨now, rfl⟩ | ⟨ok, rfl⟩) <;> cases haside

/-- **An attempt passes `Check`**, with room. -/
theorem Bounded.check (h : Bounded cfg key s) (hattempt : attempt (s.own i) = none)
    (hlabel : label s.world = .check k true) (hunlocked : s.world.locked k = false)
    (hroom : Room cfg key s (label s.world)) : Bounded cfg key (s.after i label id) := by
  have hnew : attempt (label s.world :: s.own i) = some ⟨k, false⟩ := by rw [hlabel]; rfl
  have hguesses : guesses key ((i, label s.world) :: s.history) = guesses key s.history := by
    rw [hlabel]
    rfl
  have hcompares : ¬(label s.world).ComparesLocked key := by
    rw [hlabel]
    rintro (⟨now, h⟩ | ⟨ok, h⟩) <;> cases h
  have hfail : aboutToFail key (label s.world :: s.own i) = aboutToFail key (s.own i) := by
    rw [aboutToFail_of_none hattempt, aboutToFail_of_attempt hnew]
    exact decide_eq_false fun h => by cases (Attempt.mk.inj h).2
  by_cases hk : k = key
  · subst hk
    have hroom := hroom hlabel
    have hflight : inFlight k (s.after i label id) = inFlight k s + 1 := by
      have := @inFlight_after k s i label id
      rw [onItsWay_of_none hattempt, onItsWay_of_attempt hnew, decide_eq_true rfl] at this
      exact this
    have hfailing : failing k (s.after i label id) = failing k s := by
      have := @failing_after k s i label id
      rw [hfail] at this
      omega
    constructor
    · rw [hflight]
      simp only [Requests.after_world, id_eq]
      push_cast
      omega
    · exact fun _ => hunlocked
    · rw [hfailing, Requests.after_history, hguesses]
      exact h.counted
    · exact List.forall_mem_cons.2 ⟨hcompares, h.compares⟩
  · refine h.frame ?_ hfail hguesses hcompares rfl rfl
    rw [onItsWay_of_none hattempt, onItsWay_of_attempt hnew]
    exact decide_eq_false hk

/-- **A credential is compared** by an attempt on its way. -/
theorem Bounded.comparing (h : Bounded cfg key s) (hattempt : attempt (s.own i) = some ⟨k, false⟩) :
    Bounded cfg key (s.after i (fun w => .comparing k w.now (w.locked k)) id) := by
  refine h.frame rfl rfl rfl ?_ rfl rfl
  rintro (⟨now, hl⟩ | ⟨ok, hl⟩)
  · obtain ⟨rfl, -, hlocked⟩ := Label.comparing.inj hl
    have hway : onItsWay k (s.own i) = true := by
      rw [onItsWay_of_attempt hattempt, decide_eq_true rfl]
    rw [h.unlocked (inFlight_ne_zero hway)] at hlocked
    cases hlocked
  · cases hl

/-- **The comparison of an attempt** succeeds or fails. -/
theorem Bounded.compared {ok : Bool} (h : Bounded cfg key s)
    (hattempt : attempt (s.own i) = some ⟨k, false⟩) :
    Bounded cfg key (s.after i (fun w => .compared k ok (w.locked k)) id) := by
  have hnew (l : Bool) : attempt (.compared k ok l :: s.own i) = some ⟨k, !ok⟩ := by
    rw [attempt, hattempt]
    rfl
  have hway : onItsWay key (.compared k ok (s.world.locked k) :: s.own i) =
      onItsWay key (s.own i) := by
    rw [onItsWay_of_attempt (hnew _), onItsWay_of_attempt hattempt]
  have hcompares : ¬(Label.compared k ok (s.world.locked k)).ComparesLocked key := by
    rintro (⟨now, hl⟩ | ⟨ok, hl⟩)
    · cases hl
    · obtain ⟨rfl, -, hlocked⟩ := Label.compared.inj hl
      have hway : onItsWay k (s.own i) = true := by
        rw [onItsWay_of_attempt hattempt, decide_eq_true rfl]
      rw [h.unlocked (inFlight_ne_zero hway)] at hlocked
      cases hlocked
  by_cases hguess : k = key ∧ ok = false
  · obtain ⟨rfl, rfl⟩ := hguess
    have hflight : inFlight k (s.after i (fun w => .compared k false (w.locked k)) id) =
        inFlight k s := by
      have := @inFlight_after k s i (fun w => .compared k false (w.locked k)) id
      rw [hway] at this
      omega
    have hfailing : failing k (s.after i (fun w => .compared k false (w.locked k)) id) =
        failing k s + 1 := by
      have := @failing_after k s i (fun w => .compared k false (w.locked k)) id
      rw [aboutToFail_of_attempt hattempt, aboutToFail_of_attempt (hnew _)] at this
      simpa using this
    have hguesses : guesses k ((i, .compared k false (s.world.locked k)) :: s.history) =
        guesses k s.history + 1 := by
      cases s.world.locked k <;> simp [guesses]
    constructor
    · rw [hflight]
      exact h.room
    · rw [hflight]
      exact h.unlocked
    · have hcounted := h.counted
      rw [hfailing, Requests.after_history, hguesses, Requests.after_world]
      simp only [id_eq]
      omega
    · exact List.forall_mem_cons.2 ⟨hcompares, h.compares⟩
  · refine h.frame hway ?_ ?_ hcompares rfl rfl
    · rw [aboutToFail_of_attempt hattempt, aboutToFail_of_attempt (hnew _)]
      refine decide_eq_decide.2 (iff_of_false (fun h => hguess ?_) fun h => by cases h)
      obtain ⟨rfl, hok⟩ := Attempt.mk.inj h
      exact ⟨rfl, by simpa using hok⟩
    · have hl (l : Bool) : Label.compared k ok (s.world.locked k) ≠ .compared key false l := by
        intro h
        obtain ⟨rfl, rfl, -⟩ := Label.compared.inj h
        exact hguess ⟨rfl, rfl⟩
      rw [guesses, if_neg (by simp), if_neg (by simp [hl])]

/-- A statement that ends an attempt for another key. -/
theorem Bounded.ends_other {a : Attempt} (h : Bounded cfg key s) (hother : a.key ≠ key)
    (hattempt : attempt (s.own i) = some a) (hnew : attempt (label s.world :: s.own i) = none)
    (hguesses : guesses key ((i, label s.world) :: s.history) = guesses key s.history)
    (hcompares : ¬(label s.world).ComparesLocked key)
    (hlookup : (write s.world).limiter.lookup key = s.world.limiter.lookup key)
    (hnow : (write s.world).now = s.world.now) : Bounded cfg key (s.after i label write) := by
  refine h.frame ?_ ?_ hguesses hcompares ?_ ?_
  · rw [onItsWay_of_none hnew, onItsWay_of_attempt hattempt, decide_eq_false hother]
  · rw [aboutToFail_of_none hnew, aboutToFail_of_attempt hattempt]
    refine (decide_eq_false ?_).symm
    rintro rfl
    exact hother rfl
  · rw [World.failures, Limiter.failures, hlookup, World.failures, Limiter.failures]
  · rw [World.locked, Limiter.locked, hlookup, hnow, World.locked, Limiter.locked]

/-- What a statement that ends an attempt for the key leaves in flight. -/
theorem inFlight_ends {a : Attempt} (hattempt : attempt (s.own i) = some a) (hkey : a.key = key)
    (hnew : attempt (label s.world :: s.own i) = none) :
    inFlight key (s.after i label write) + 1 = inFlight key s := by
  have := @inFlight_after key s i label write
  rwa [onItsWay_of_none hnew, onItsWay_of_attempt hattempt, decide_eq_true hkey] at this

/-- **An attempt fails**, and locks its key or not. -/
theorem Bounded.fail {b : Bool} (hlock : 0 < Limiter.milliseconds cfg.loginLockout)
    (h : Bounded cfg key s) (hattempt : attempt (s.own i) = some ⟨k, b⟩) :
    Bounded cfg key
      (s.after i (fun w => .fail k ((w.failed cfg k).locked k)) (World.failed cfg k)) := by
  have hcompares : ¬(Label.fail k ((s.world.failed cfg k).locked k)).ComparesLocked key := by
    rintro (⟨now, hl⟩ | ⟨ok, hl⟩) <;> cases hl
  by_cases hk : k = key
  · subst hk
    have hflight := @inFlight_ends k s i (fun w => .fail k ((w.failed cfg k).locked k))
      (World.failed cfg k) _ hattempt rfl rfl
    have hfailing : failing k (s.after i (fun w => .fail k ((w.failed cfg k).locked k))
        (World.failed cfg k)) + b.toNat = failing k s := by
      have :=
        @failing_after k s i (fun w => .fail k ((w.failed cfg k).locked k)) (World.failed cfg k)
      rw [@aboutToFail_of_none k (.fail k _ :: s.own i) rfl,
        aboutToFail_of_attempt hattempt] at this
      cases b <;> simpa using this
    have hfailures : (s.world.failed cfg k).failures k = s.world.failures k + 1 :=
      Limiter.failures_fail_self
    have hlocked : (s.world.failed cfg k).locked k =
        decide (cfg.loginMaxAttempts ≤ s.world.failures k + 1) :=
      Limiter.locked_fail hlock (Int.natCast_nonneg _) (h.unlocked (by omega))
    have hroom := h.room
    have hcounted := h.counted
    have hb : b.toNat ≤ 1 := Bool.toNat_le b
    constructor
    · rw [Requests.after_world, hfailures]
      push_cast
      omega
    · intro hmore
      rw [Requests.after_world, hlocked, decide_eq_false_iff_not]
      omega
    · rw [Requests.after_history, Requests.after_world, hfailures]
      by_cases hlocks : cfg.loginMaxAttempts ≤ s.world.failures k + 1
      · rw [guesses, if_pos (Or.inr (by rw [hlocked, decide_eq_true hlocks]))]
        exact Nat.zero_le _
      · rw [guesses, if_neg (by simp [hlocked, hlocks]), if_neg (by simp)]
        push_cast
        rw [if_pos (by omega)] at hcounted ⊢
        omega
    · exact List.forall_mem_cons.2 ⟨hcompares, h.compares⟩
  · refine h.ends_other hk hattempt rfl ?_ hcompares (Limiter.lookup_fail_of_ne (Ne.symm hk)) rfl
    rw [guesses, if_neg (by simp [hk]), if_neg (by simp)]

/-- **An attempt succeeds.** -/
theorem Bounded.success (h : Bounded cfg key s) (hattempt : attempt (s.own i) = some ⟨k, false⟩) :
    Bounded cfg key (s.after i (fun _ => .success k) (World.succeeded k)) := by
  have hcompares : ¬(Label.success k).ComparesLocked key := by
    rintro (⟨now, hl⟩ | ⟨ok, hl⟩) <;> cases hl
  by_cases hk : k = key
  · subst hk
    have hflight :=
      @inFlight_ends k s i (fun _ => .success k) (World.succeeded k) _ hattempt rfl rfl
    have hfailures : (s.world.succeeded k).failures k = 0 := Limiter.failures_success_self
    have hroom := h.room
    constructor
    · rw [Requests.after_world, hfailures]
      push_cast
      omega
    · exact fun _ => Limiter.locked_success_self
    · rw [Requests.after_history, guesses, if_pos (Or.inl rfl)]
      exact Nat.zero_le _
    · exact List.forall_mem_cons.2 ⟨hcompares, h.compares⟩
  · refine h.ends_other hk hattempt rfl ?_ hcompares (Limiter.lookup_success_of_ne (Ne.symm hk)) rfl
    rw [guesses, if_neg (by simp [hk]), if_neg (by simp)]

/-- **A token is signed** after the attempt, or as its end. -/
theorem Bounded.signed {c : Claims} (h : Bounded cfg key s) (hlabel : label s.world = .signed c)
    (hattempt : attempt (s.own i) = none ∨ attempt (s.own i) = some ⟨k, false⟩) :
    Bounded cfg key (s.after i label id) := by
  have hnew : attempt (label s.world :: s.own i) = none := by rw [hlabel]; rfl
  have hguesses : guesses key ((i, label s.world) :: s.history) = guesses key s.history := by
    rw [hlabel]
    rfl
  have hcompares : ¬(label s.world).ComparesLocked key := by
    rw [hlabel]
    rintro (⟨now, hl⟩ | ⟨ok, hl⟩) <;> cases hl
  rcases hattempt with hattempt | hattempt
  · refine h.frame ?_ ?_ hguesses hcompares rfl rfl
    · rw [onItsWay_of_none hnew, onItsWay_of_none hattempt]
    · rw [aboutToFail_of_none hnew, aboutToFail_of_none hattempt]
  by_cases hk : k = key
  · subst hk
    have hflight := @inFlight_ends k s i label id _ hattempt rfl hnew
    have hfailing : failing k (s.after i label id) = failing k s := by
      have := @failing_after k s i label id
      rw [aboutToFail_of_none hnew, aboutToFail_of_attempt hattempt] at this
      simpa using this
    have hroom := h.room
    constructor
    · simp only [Requests.after_world, id_eq]
      omega
    · exact fun _ => h.unlocked (by omega)
    · rw [hfailing, Requests.after_history, hguesses]
      exact h.counted
    · exact List.forall_mem_cons.2 ⟨hcompares, h.compares⟩
  · exact h.ends_other hk hattempt hnew hguesses hcompares rfl rfl

/-! ### The programs -/

variable {msg : String} {b : Bool}

/-- A statement that is nothing to any attempt, and what follows. -/
theorem keeps_aside {α : Type} {f : World → α} {next : α → Handler Response} {a : Option Attempt}
    (haside : ∀ w, (label w).aside = true) (hattempt : attempt (s.own i) = a)
    (h : ∀ x t, attempt (t.own i) = a → (guessRules cfg key).Keeps i (next x) (fun _ _ => True) t) :
    (guessRules cfg key).Keeps i (Request.read label f >>= next) (fun _ _ => True) s :=
  Rules.keeps_read fun t ht hinv _ => ⟨⟨hinv.aside (haside _), trivial, trivial⟩, h _ _ (by
    rw [Requests.own_after_self, attempt_aside (haside _), ht.own, hattempt])⟩

/-- `Check`, and what follows. -/
theorem keeps_checkLimiter {next : Option ℤ → Handler Response}
    (hattempt : attempt (s.own i) = none)
    (hnext : ∀ answer t, answer = none → attempt (t.own i) = some ⟨k, false⟩ →
      (guessRules cfg key).Keeps i (next answer) (fun _ _ => True) t)
    (hrefused : ∀ retry t, (guessRules cfg key).Keeps i (next (some retry)) (fun _ _ => True) t) :
    (guessRules cfg key).Keeps i (checkLimiter k >>= next) (fun _ _ => True) s := by
  refine Rules.keeps_read fun t ht hinv hroom => ?_
  have hattempt := ht.own ▸ hattempt
  cases hcheck : Limiter.check t.world.limiter k t.world.now with
  | none =>
    have hlabel : Label.check k (decide (Limiter.check t.world.limiter k t.world.now = none)) =
        .check k true := by rw [decide_eq_true hcheck]
    refine ⟨⟨hinv.check hattempt hlabel (Limiter.check_eq_none_iff.1 hcheck) hroom,
      trivial, trivial⟩, hnext _ _ rfl ?_⟩
    rw [Requests.own_after_self, hlabel]
    rfl
  | some retry =>
    refine ⟨⟨hinv.aside ?_, trivial, trivial⟩, hrefused _ _⟩
    rw [hcheck]
    rfl

/-- `Fail`, and the answer. -/
theorem keeps_rejected (hlock : 0 < Limiter.milliseconds cfg.loginLockout)
    (hattempt : attempt (s.own i) = some ⟨k, b⟩) :
    (guessRules cfg key).Keeps i (rejected cfg k msg) (fun _ _ => True) s :=
  Rules.keeps_write fun _ ht hinv _ =>
    ⟨⟨hinv.fail hlock (ht.own ▸ hattempt), trivial, trivial⟩, Rules.keeps_pure.2 trivial⟩

/-- `Success`, an access token, and the answer. -/
theorem keeps_accepted {sub username : String} (hattempt : attempt (s.own i) = some ⟨k, false⟩) :
    (guessRules cfg key).Keeps i (do
      successLimiter k
      let tok ← signAccess cfg sub username
      pure (Response.token tok)) (fun _ _ => True) s := by
  refine Rules.keeps_write fun t ht hinv _ =>
    ⟨⟨hinv.success (ht.own ▸ hattempt), trivial, trivial⟩, ?_⟩
  refine Rules.keeps_read fun u hu hinv _ => ⟨⟨?_, trivial, trivial⟩, Rules.keeps_pure.2 trivial⟩
  refine @Bounded.signed _ _ _ _ _ k _ hinv rfl (Or.inl ?_)
  rw [hu.own, Requests.own_after_self]
  rfl

/-- The start of a comparison, and what follows. -/
theorem keeps_comparing {next : ℤ → Handler Response}
    (hattempt : attempt (s.own i) = some ⟨k, false⟩)
    (h : ∀ now t, attempt (t.own i) = some ⟨k, false⟩ →
      (guessRules cfg key).Keeps i (next now) (fun _ _ => True) t) :
    (guessRules cfg key).Keeps i (comparing k >>= next) (fun _ _ => True) s := by
  refine Rules.keeps_read fun t ht hinv _ =>
    ⟨⟨hinv.comparing (ht.own ▸ hattempt), trivial, trivial⟩, h _ _ ?_⟩
  rw [Requests.own_after_self, ht.own]
  exact hattempt

/-- The outcome of a comparison, and what follows. -/
theorem keeps_compared {ok : Bool} {next : Unit → Handler Response}
    (hattempt : attempt (s.own i) = some ⟨k, false⟩)
    (h : ∀ t, attempt (t.own i) = some ⟨k, !ok⟩ →
      (guessRules cfg key).Keeps i (next ()) (fun _ _ => True) t) :
    (guessRules cfg key).Keeps i (compared k ok >>= next) (fun _ _ => True) s := by
  refine Rules.keeps_read fun t ht hinv _ => ⟨⟨hinv.compared (ht.own ▸ hattempt), trivial, trivial⟩,
    h _ ?_⟩
  rw [Requests.own_after_self, ht.own, attempt, hattempt]
  rfl

/-- **`Login`**, with the row of its name. -/
theorem keeps_guess_loginAs {password : String} {a : Admin}
    (hlock : 0 < Limiter.milliseconds cfg.loginLockout)
    (hattempt : attempt (s.own i) = some ⟨k, false⟩) :
    (guessRules cfg key).Keeps i (loginAs cfg crypto k password a) (fun _ _ => True) s := by
  rw [loginAs]
  refine Rules.keeps_ite (fun _ => keeps_rejected hlock hattempt) fun _ => ?_
  refine Rules.keeps_ite (fun _ => keeps_rejected hlock hattempt) fun _ => ?_
  refine keeps_comparing hattempt fun _ t ht => keeps_compared ht fun u hu => ?_
  refine Rules.keeps_ite (fun _ => keeps_rejected hlock hu) fun hok => ?_
  rw [Bool.eq_true_of_not_eq_false hok, Bool.not_true] at hu
  refine Rules.keeps_ite (fun _ => ?_) fun _ => keeps_accepted hu
  refine Rules.keeps_read fun v hv hinv _ => ⟨⟨?_, trivial, trivial⟩, Rules.keeps_pure.2 trivial⟩
  exact hinv.signed rfl (Or.inr (hv.own ▸ hu))

/-- A recovery code is looked for, and never accepted. -/
theorem keeps_guess_recoveryCode {id raw : String} {next : Bool → Handler Response}
    {a : Option Attempt} (hattempt : attempt (s.own i) = a)
    (h : ∀ t, attempt (t.own i) = a →
      (guessRules cfg key).Keeps i (next false) (fun _ _ => True) t) :
    (guessRules cfg key).Keeps i (verifyAndConsumeRecoveryCode crypto id raw >>= next)
      (fun _ _ => True) s := by
  have hcall := @verifyAndConsumeRecoveryCode_eq crypto id raw
  generalize verifyAndConsumeRecoveryCode crypto id raw = p at hcall ⊢
  rcases hcall with rfl | rfl
  · exact h s hattempt
  · refine Rules.keeps_stmt.2 fun t ht hinv _ => ⟨⟨hinv.aside rfl, trivial, trivial⟩, ?_⟩
    refine Rules.keeps_stmt.2 fun u hu hinv _ => ⟨⟨hinv.aside rfl, trivial, trivial⟩, h _ ?_⟩
    rw [Requests.own_after_self, attempt_aside rfl, hu.own,
      Requests.own_after_self, attempt_aside rfl, ht.own, hattempt]

/-- **`LoginMFA`**, with the row of the admin. -/
theorem keeps_guess_loginMFAAs {body : MfaBody} {claims : Claims} {a : Admin}
    (hlock : 0 < Limiter.milliseconds cfg.loginLockout)
    (hattempt : attempt (s.own i) = some ⟨k, false⟩) :
    (guessRules cfg key).Keeps i (loginMFAAs cfg crypto k body claims a) (fun _ _ => True) s := by
  rw [loginMFAAs]
  refine Rules.keeps_ite (fun _ => keeps_rejected hlock hattempt) fun _ => ?_
  refine keeps_comparing hattempt fun _ t ht => ?_
  refine keeps_guess_recoveryCode ht fun u hu => keeps_compared hu fun v hv => ?_
  refine Rules.keeps_ite (fun _ => keeps_rejected hlock hv) fun hok => keeps_accepted ?_
  rw [hv]
  simp only [Bool.or_false, Option.some.injEq, Attempt.mk.injEq, true_and, Bool.not_eq_false']
  simpa using hok

/-- **Every attempt keeps the invariant.** -/
theorem keeps_loginRequest (hlock : 0 < Limiter.milliseconds cfg.loginLockout) (r : LoginRequest)
    (hown : s.own i = []) :
    (guessRules cfg key).Keeps i (r.program cfg crypto) (fun _ _ => True) s := by
  have hnone : attempt (s.own i) = none := by rw [hown]; rfl
  cases r with
  | login client body =>
    rw [LoginRequest.program, login.eq_def]
    cases body with
    | none => exact Rules.keeps_pure.2 trivial
    | some body =>
      refine Rules.keeps_ite (fun _ => Rules.keeps_pure.2 trivial) fun _ => ?_
      refine keeps_checkLimiter hnone (fun answer t hanswer ht => ?_) fun _ _ =>
        Rules.keeps_pure.2 trivial
      subst hanswer
      refine keeps_aside (fun _ => rfl) ht fun row u hu => ?_
      cases row with
      | none => exact keeps_rejected hlock hu
      | some a => exact keeps_guess_loginAs hlock hu
  | loginMFA client body =>
    rw [LoginRequest.program, loginMFA.eq_def]
    cases body with
    | none => exact Rules.keeps_pure.2 trivial
    | some body =>
      refine Rules.keeps_ite (fun _ => Rules.keeps_pure.2 trivial) fun _ => ?_
      refine keeps_aside (fun _ => rfl) hnone fun now t ht => ?_
      cases parseToken now body.mfaPendingToken with
      | none => exact Rules.keeps_pure.2 trivial
      | some claims =>
        refine Rules.keeps_ite (fun _ => Rules.keeps_pure.2 trivial) fun _ => ?_
        refine keeps_checkLimiter ht (fun answer u hanswer hu => ?_) fun _ _ =>
          Rules.keeps_pure.2 trivial
        subst hanswer
        refine keeps_aside (fun _ => rfl) hu fun row v hv => ?_
        cases row with
        | none => exact keeps_rejected hlock hv
        | some a => exact keeps_guess_loginMFAAs hlock hv

/-! ### Runs -/

/-- The surroundings leave the limiter alone, and a key that is not locked stays so. -/
theorem Bounded.surroundings {w : World} (h : Bounded cfg key s)
    (hlimiter : w.limiter = s.world.limiter)
    (hnow : s.world.now ≤ w.now) : Bounded cfg key { s with world := w } where
  room := by
    have hroom := h.room
    rwa [World.failures, ← hlimiter] at hroom
  unlocked hflight := by
    rw [World.locked, hlimiter]
    exact Limiter.locked_mono (h.unlocked hflight) hnow
  counted := by
    have hcounted := h.counted
    rwa [World.failures, ← hlimiter] at hcounted
  compares := h.compares

theorem guessRules_lawful : (guessRules cfg key).Lawful Env.apply where
  refl _ := trivial
  trans _ _ := trivial
  start h _ := ⟨h.room, h.unlocked, h.counted, h.compares⟩
  env {s e w} h _ he := by
    refine ⟨?_, trivial⟩
    cases e with
    | tick d =>
      obtain rfl := Option.some.inj he
      exact Bounded.surroundings h rfl (Int.ofNat_le.2 (Nat.le_add_right _ _))
    | setAdmins rows =>
      obtain rfl := Option.some.inj he
      exact Bounded.surroundings h rfl le_rfl

/-- **The limiter bounds guessing.** In every run whose attempts pass `Check` with room only, at
most `max` comparisons for a key fail before it is locked, since its last success or lock, and
nothing is compared for a key that is locked. -/
theorem guesses_bounded (hmax : 1 ≤ cfg.loginMaxAttempts)
    (hlock : 0 < Limiter.milliseconds cfg.loginLockout) {w : World}
    {events : List (Event LoginRequest Env)} {t : Pool LoginRequest World Label Response}
    (hok : Runs.Meets (loginStep cfg crypto) (guessRules cfg key).StepOk (Pool.initial w) events)
    (hrun : Runs.run (loginStep cfg crypto) (Pool.initial w) events = some t) :
    (guesses key t.history : ℤ) ≤ cfg.loginMaxAttempts ∧
      ∀ e ∈ t.history, ¬e.2.ComparesLocked key := by
  have hinitial : Bounded cfg key (⟨w, [], []⟩ : Shared LoginRequest World Label) :=
    ⟨Or.inr (Nat.zero_le _), fun h => absurd rfl h, Nat.zero_le _,
      fun _ he => absurd he List.not_mem_nil⟩
  have hinv := (Rules.run_inv guessRules_lawful (Rules.PoolInv.initial hinitial)
    (fun r _ _ _ hown => keeps_loginRequest hlock r hown) hok hrun).inv
  exact ⟨hinv.guesses_le hmax, hinv.compares⟩

/-- An attempt with a wrong password. -/
def wrongPassword : LoginRequest := .login ⟨"", "client"⟩ (some ⟨"root", "guess"⟩)

/-- A world with one admin, and nothing in the limiter. -/
def guessedWorld : World where
  nanoseconds := 0
  admins :=
    [⟨"root", "", "root", none, "pass", true, none, none, none, none, false, none, none, none⟩]
  recoveryCodes := []
  limiter := ∅

/-- Three wrong passwords, one after the other, lock the key. -/
theorem wrong_passwords_in_run :
    ∃ t : Pool LoginRequest World Label Response,
      Runs.run (loginStep Config.hourly Crypto.plain) (Pool.initial guessedWorld)
          ((List.range 3).flatMap fun i => .start wrongPassword :: List.replicate 5 (.act i)) =
          some t ∧
        t.world.locked "client:root" = true ∧
          ∀ e ∈ t.history, ¬e.2.ComparesLocked "client:root" := by
  have hrun : (Runs.run (loginStep Config.hourly Crypto.plain) (Pool.initial guessedWorld)
      ((List.range 3).flatMap fun i => .start wrongPassword :: List.replicate 5 (.act i))).any
      (fun t => t.world.locked "client:root") = true := by
    decide +kernel
  obtain ⟨t, ht, hlocked⟩ := (Option.any_eq_true _ _).1 hrun
  have h := @guesses_bounded Config.hourly Crypto.plain "client:root" (by decide)
    (by decide) guessedWorld _ t (by decide +kernel) ht
  exact ⟨t, ht, hlocked, h.2⟩

/-- **Four failing comparisons where the limit is three**: all attempts pass `Check` before the
first one fails. -/
theorem guesses_side_by_side :
    ¬∀ (w : World) (events : List (Event LoginRequest Env)) (key : String)
      (t : Pool LoginRequest World Label Response),
      Runs.run (loginStep Config.hourly Crypto.plain) (Pool.initial w) events = some t →
        (guesses key t.history : ℤ) ≤ Config.hourly.loginMaxAttempts ∧
          ∀ e ∈ t.history, ¬e.2.ComparesLocked key := by
  intro h
  have hrun : (Runs.run (loginStep Config.hourly Crypto.plain) (Pool.initial guessedWorld)
      ((List.range 4).flatMap fun i => .start wrongPassword :: List.replicate 4 (.act i))).any
      (fun t => decide (guesses "client:root" t.history = 4)) = true := by
    decide +kernel
  obtain ⟨t, ht, hguesses⟩ := (Option.any_eq_true _ _).1 hrun
  have hle := (h _ _ "client:root" t ht).1
  rw [of_decide_eq_true hguesses] at hle
  exact absurd hle (by decide)

end OpenvpnControl.Auth
