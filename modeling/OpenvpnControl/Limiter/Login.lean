import OpenvpnControl.Library.GoMap
import OpenvpnControl.Library.GoStrings

/-!
# The login limiter

The map of the package `limiter` and its three methods. Each method holds the mutex of the map, so
it is one step. The clock counts nanoseconds, and `lockedUntil` is in milliseconds.

A window counts the failures of a key; the failure that fills it locks the key for a while, and a
success forgets it. The key is made of the address of the client and the name of the user in lower
case, so two spellings of a name are one key.

## Main definitions

* `LoginState`: what the limiter knows of a key.
* `loginKey`, `clientIP`: the key of an attempt.
* `check`, `fail`, `success`: the methods.
* `locked`: is a key locked at a time?

## Main results

* `check_eq_none_iff`: `check` lets an attempt pass when its key is not locked.
* `locked_fail`: when a failure locks its key.
-/

namespace OpenvpnControl.Limiter

structure LoginState where
  failures : ℕ
  lockedUntil : ℤ
  deriving DecidableEq

/-- The fields of a request that `ClientIP` reads. -/
structure Client where
  xForwardedFor : String
  remoteAddr : String
  deriving DecidableEq

def clientIP (r : Client) : String :=
  if r.xForwardedFor ≠ "" then
    GoStrings.trimSpace (String.ofList (r.xForwardedFor.toList.takeWhile (· ≠ ',')))
  else
    let host := String.ofList (r.remoteAddr.toList.takeWhile (· ≠ ':'))
    if host ≠ "" then host else r.remoteAddr

/-- The key of an attempt. -/
def loginKey (ip username : String) : String :=
  GoStrings.toLower ip ++ ":" ++ GoStrings.toLower (GoStrings.trimSpace username)

/-- `time.Time.UnixMilli`. -/
def unixMilli (now : ℤ) : ℤ := now / 1000000

/-- `time.Duration.Milliseconds`. -/
def milliseconds (d : ℤ) : ℤ := d.tdiv 1000000

/-- Is the key locked? -/
def locked (m : GoMap LoginState) (key : String) (now : ℤ) : Bool :=
  (m.lookup key).any fun s => decide (unixMilli now < s.lockedUntil)

/-- The failures counted for a key. -/
def failures (m : GoMap LoginState) (key : String) : ℕ :=
  ((m.lookup key).map LoginState.failures).getD 0

/-- `Check`: nothing, or the seconds until the key can be tried again. -/
def check (m : GoMap LoginState) (key : String) (now : ℤ) : Option ℤ :=
  match m.lookup key with
  | some s =>
    if unixMilli now < s.lockedUntil then some ((s.lockedUntil - unixMilli now).tdiv 1000 + 1)
    else none
  | none => none

def fail (max lock : ℤ) (m : GoMap LoginState) (key : String) (now : ℤ) : GoMap LoginState :=
  let s := (m.lookup key).getD ⟨0, 0⟩
  let failures := s.failures + 1
  m.insert key
    ⟨failures, if max ≤ failures then unixMilli now + milliseconds lock else s.lockedUntil⟩

def success (m : GoMap LoginState) (key : String) : GoMap LoginState := m.erase key

variable {m : GoMap LoginState} {k l : String} {now : ℤ} {max lock : ℤ}

/-- **`Check` lets an attempt pass** when its key is not locked. -/
theorem check_eq_none_iff : check m k now = none ↔ locked m k now = false := by
  rw [check, locked]
  cases m.lookup k with
  | none => simp
  | some s => simp

@[simp] theorem failures_fail_self : failures (fail max lock m k now) k = failures m k + 1 := by
  rw [failures, fail, GoMap.lookup_insert_eq, if_pos rfl, failures]
  cases m.lookup k <;> rfl

theorem lookup_fail_of_ne (h : l ≠ k) : (fail max lock m k now).lookup l = m.lookup l := by
  rw [fail, GoMap.lookup_insert_eq, if_neg h]

theorem lookup_success_of_ne (h : l ≠ k) : (success m k).lookup l = m.lookup l := by
  rw [success, GoMap.lookup_erase_eq, if_neg h]

@[simp] theorem failures_success_self : failures (success m k) k = 0 := by
  rw [failures, success, GoMap.lookup_erase_eq, if_pos rfl]
  rfl

@[simp] theorem locked_success_self : locked (success m k) k now = false := by
  rw [locked, success, GoMap.lookup_erase_eq, if_pos rfl]
  rfl

/-- **When a failure locks its key**: from the `max`-th on, for as long as the lock lasts. -/
theorem locked_fail (hlock : 0 < milliseconds lock) (hnow : 0 ≤ now) (h : locked m k now = false) :
    locked (fail max lock m k now) k now = decide (max ≤ failures m k + 1) := by
  have hmilli : 0 ≤ unixMilli now := Int.ediv_nonneg hnow (by decide)
  have hold : ((m.lookup k).getD ⟨0, 0⟩).lockedUntil ≤ unixMilli now := by
    rw [locked] at h
    cases hs : m.lookup k with
    | none => exact hmilli
    | some s =>
      rw [hs] at h
      simpa using h
  have hfailures : ((m.lookup k).getD ⟨0, 0⟩).failures = failures m k := by
    rw [failures]
    cases m.lookup k <;> rfl
  rw [locked, fail, GoMap.lookup_insert_eq, if_pos rfl, Option.any_some,
    hfailures, decide_eq_decide]
  push_cast
  split_ifs with hmax
  · exact iff_of_true (by omega) hmax
  · exact iff_of_false (by omega) hmax

/-- A key that is not locked stays so until a failure locks it. -/
theorem locked_mono {now' : ℤ} (h : locked m k now = false) (hle : now ≤ now') :
    locked m k now' = false := by
  have hmilli : unixMilli now ≤ unixMilli now' := Int.ediv_le_ediv (by decide) hle
  rw [locked] at h ⊢
  cases hs : m.lookup k with
  | none => rfl
  | some s =>
    rw [hs] at h
    have hs : s.lockedUntil ≤ unixMilli now := by simpa using h
    simpa using hs.trans hmilli

end OpenvpnControl.Limiter
