import Mathlib.Order.Basic

/-!
# Requests that are checked before they act

A handler checks its request step by step, and refuses at the first check that fails. It is written
in `Except`, and a request that is not refused has passed every check: the lemmas of this file turn
`handler = .ok s` into the conjunction of the checks, one step at a time.

## Main definitions

* `Refusals.require`: a condition that must hold.
* `Refusals.fetch`: a value that must exist.

## Main results

* `Refusals.require_bind_eq_ok`, `Refusals.fetch_bind_eq_ok`: a step that is not refused.
-/

namespace Refusals

variable {ε α β σ : Type}

/-- Go on only when `p` holds. -/
def require (p : Prop) [Decidable p] (e : ε) : Except ε Unit := if p then .ok () else .error e

/-- Go on only when there is a value. -/
def fetch (o : Option α) (e : ε) : Except ε α := o.elim (.error e) .ok

@[simp] theorem require_bind_eq_ok {p : Prop} [Decidable p] {e : ε} {k : Unit → Except ε β}
    {b : β} :
    (require p e >>= k) = .ok b ↔ p ∧ k () = .ok b := by
  rw [require]
  split_ifs with h
  · exact ⟨fun hk => ⟨h, hk⟩, fun hk => hk.2⟩
  · exact ⟨nofun, fun hk => absurd hk.1 h⟩

@[simp] theorem fetch_bind_eq_ok {o : Option α} {e : ε} {k : α → Except ε β} {b : β} :
    (fetch o e >>= k) = .ok b ↔ ∃ a, o = some a ∧ k a = .ok b := by
  cases o with
  | none => exact ⟨nofun, fun ⟨_, h, _⟩ => absurd h nofun⟩
  | some a =>
    constructor
    · exact fun h => ⟨a, rfl, h⟩
    · rintro ⟨a', h, hk⟩
      rwa [Option.some.inj h]

@[simp] theorem require_eq_ok {p : Prop} [Decidable p] {e : ε} {u : Unit} :
    require p e = .ok u ↔ p := by
  rw [require]
  split_ifs with h
  · exact ⟨fun _ => h, fun _ => rfl⟩
  · exact ⟨nofun, fun hp => absurd hp h⟩

@[simp] theorem fetch_eq_ok {o : Option α} {e : ε} {a : α} : fetch o e = .ok a ↔ o = some a := by
  cases o with
  | none => exact ⟨nofun, nofun⟩
  | some b => exact ⟨fun h => congrArg _ (Except.ok.inj h), fun h => congrArg _ (Option.some.inj h)⟩

theorem ok_eq_ok_iff {a b : α} : (.ok a : Except ε α) = .ok b ↔ b = a := by
  rw [Except.ok.injEq, eq_comm]

theorem bind_eq_ok {x : Except ε α} {k : α → Except ε β} {b : β} :
    (x >>= k) = .ok b ↔ ∃ a, x = .ok a ∧ k a = .ok b := by
  cases x with
  | error e => exact ⟨nofun, fun ⟨_, h, _⟩ => absurd h nofun⟩
  | ok a =>
    constructor
    · exact fun h => ⟨a, rfl, h⟩
    · rintro ⟨a', h, hk⟩
      rwa [Except.ok.inj h]

@[simp] theorem pure_eq_ok {a b : α} : (pure a : Except ε α) = .ok b ↔ a = b :=
  ⟨Except.ok.inj, congrArg _⟩

@[simp] theorem mapError_eq_ok {ε' : Type} {f : ε → ε'} {x : Except ε α} {a : α} :
    x.mapError f = .ok a ↔ x = .ok a := by
  cases x with
  | error e => exact ⟨nofun, nofun⟩
  | ok b => exact ⟨fun h => congrArg _ (Except.ok.inj h), fun h => congrArg _ (Except.ok.inj h)⟩

/-- The state after a request that leaves it alone when it is refused. -/
def settle (s : σ) (x : Except ε σ) : σ :=
  match x with
  | .ok t => t
  | .error _ => s

theorem settle_cases (s : σ) (x : Except ε σ) :
    settle s x = s ∨ x = .ok (settle s x) := by
  cases x with
  | error e => exact Or.inl rfl
  | ok t => exact Or.inr rfl

theorem exists_of_isOk {r : Except ε α} (h : r.isOk = true) : ∃ a, r = .ok a := by
  cases r with
  | error e => cases h
  | ok a => exact ⟨a, rfl⟩

end Refusals
