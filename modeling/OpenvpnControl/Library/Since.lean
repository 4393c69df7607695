import Mathlib.Data.List.Infix

/-!
# What was added and not removed since

A state is the replay of a history of events, the latest first. When every event adds something,
removes it or leaves it as it is, then it is there at the end exactly when it was added at some
event and not removed since.

## Main definitions

* `Since.replay`: the state after a history.
* `Since.Holds`: something was added and not removed since.
* `Since.Law`: what an event does to something.

## Main results

* `Since.Law.present_iff`: what is there after a history.
* `Since.Law.present_iff_mem`: the same where adding depends on the event alone.
-/

namespace Since

variable {σ ε : Type} {step : σ → ε → σ} {inv present : σ → Prop} {ok : ε → Prop}
  {added : σ → ε → Prop} {removed : ε → Prop} {s : σ} {e : ε} {h : List ε}

/-- The state after a history, the latest event first. -/
def replay (step : σ → ε → σ) (s : σ) (h : List ε) : σ := h.foldr (fun e s => step s e) s

/-- An event added it, and none has removed it since. -/
def Holds (step : σ → ε → σ) (added : σ → ε → Prop) (removed : ε → Prop) (s : σ)
    (h : List ε) : Prop :=
  ∃ later e earlier, h = later ++ e :: earlier ∧ added (replay step s earlier) e ∧
    ∀ e' ∈ later, ¬removed e'

/-- What an event that is `ok` does: it keeps the invariant, and what is there afterwards was added,
or was there and is not removed. -/
structure Law (step : σ → ε → σ) (inv present : σ → Prop) (ok : ε → Prop) (added : σ → ε → Prop)
    (removed : ε → Prop) : Prop where
  keeps : ∀ {s e}, inv s → ok e → inv (step s e)
  there_iff : ∀ {s e}, inv s → ok e → (present (step s e) ↔ added s e ∨ present s ∧ ¬removed e)

@[simp] theorem replay_nil : replay step s [] = s := rfl

@[simp] theorem replay_cons : replay step s (e :: h) = step (replay step s h) e := rfl

@[simp] theorem not_holds_nil : ¬Holds step added removed s [] := by
  rintro ⟨later, e, earlier, h, -⟩
  simp at h

/-- The latest event adds it, or it was added before and the latest event does not remove it. -/
theorem holds_cons :
    Holds step added removed s (e :: h) ↔
      added (replay step s h) e ∨ Holds step added removed s h ∧ ¬removed e := by
  constructor
  · rintro ⟨_ | ⟨e', later⟩, a, earlier, hsplit, hadded, hkept⟩
    · obtain ⟨rfl, rfl⟩ := List.cons.inj hsplit
      exact .inl hadded
    · obtain ⟨rfl, rfl⟩ := List.cons.inj hsplit
      obtain ⟨hlatest, hlater⟩ := List.forall_mem_cons.1 hkept
      exact .inr ⟨⟨later, a, earlier, rfl, hadded, hlater⟩, hlatest⟩
  · rintro (hadded | ⟨⟨later, a, earlier, rfl, hadded, hlater⟩, hlatest⟩)
    · exact ⟨[], e, h, rfl, hadded, fun e' he' => absurd he' List.not_mem_nil⟩
    · exact ⟨e :: later, a, earlier, rfl, hadded, List.forall_mem_cons.2 ⟨hlatest, hlater⟩⟩

/-- Every event keeps the invariant. -/
theorem Law.inv_replay (law : Law step inv present ok added removed) (hs : inv s)
    (hok : ∀ e ∈ h, ok e) :
    inv (replay step s h) := by
  induction h with
  | nil => exact hs
  | cons e h ih =>
    obtain ⟨he, hh⟩ := List.forall_mem_cons.1 hok
    exact law.keeps (ih hh) he

/-- **What is there after a history**: what was added and not removed since, and what was there at
the start and was never removed. -/
theorem Law.present_iff (law : Law step inv present ok added removed) (hs : inv s)
    (hok : ∀ e ∈ h, ok e) :
    present (replay step s h) ↔
      Holds step added removed s h ∨ present s ∧ ∀ e ∈ h, ¬removed e := by
  induction h with
  | nil => simp
  | cons e h ih =>
    obtain ⟨he, hh⟩ := List.forall_mem_cons.1 hok
    rw [replay_cons, law.there_iff (law.inv_replay hs hh) he, ih hh,
      holds_cons, List.forall_mem_cons]
    tauto

/-- **What is there after a history** that begins without it, where an event adds it whatever the
state. -/
theorem Law.present_iff_mem {adds : ε → Prop}
    (law : Law step inv present ok (fun _ => adds) removed) (hs : inv s) (hok : ∀ e ∈ h, ok e)
    (hnone : ¬present s) :
    present (replay step s h) ↔
      ∃ later e earlier, h = later ++ e :: earlier ∧ adds e ∧ ∀ e' ∈ later, ¬removed e' := by
  rw [law.present_iff hs hok, or_iff_left fun hp => hnone hp.1]
  rfl

end Since
