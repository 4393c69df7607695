import Mathlib.Data.List.Basic

/-!
# Runs of a guarded step function

A system is a step function `step : σ → ε → Option σ`: `step s e` is the state after the event
`e`, and `none` when `e` cannot happen in `s`. This file folds a step function over a list of
events and derives, once, the two induction rules the rest of the development uses: a property
kept by every step is kept by every run, and a property kept by every step that meets a side
condition is kept by every run whose steps all meet it.

## Main definitions

* `Runs.run`: the state after a list of events.
* `Runs.Meets`: every step of a run meets a condition, read in the state before the step.
* `Runs.Possible`: some run of allowed events leads to a state with a property.

## Main results

* `Runs.run_invariant`, `Runs.run_invariant_of_meets`: the two induction rules.
* `Runs.meets_of_invariant`: what an invariant gives at every step.
* `Runs.run_append`, `Runs.meets_append`: runs compose.
* `Runs.not_possible_of_invariant`: what an invariant excludes is impossible.
-/

namespace Runs

variable {σ ε : Type*} {step : σ → ε → Option σ}

/-- The state after the events `es`, and `none` when one of them cannot happen. -/
def run (step : σ → ε → Option σ) : σ → List ε → Option σ
  | s, [] => some s
  | s, e :: es => (step s e).bind fun s' => run step s' es

/-- Every step of the run of `es` from `s` meets `ok` in the state before it. -/
def Meets (step : σ → ε → Option σ) (ok : σ → ε → Prop) : σ → List ε → Prop
  | _, [] => True
  | s, e :: es => ok s e ∧ ∀ s', step s e = some s' → Meets step ok s' es

theorem meets_cons_of_none {ok : σ → ε → Prop} {s : σ} {e : ε} {es : List ε}
    (h : step s e = none) : Meets step ok s (e :: es) ↔ ok s e := by
  simp [Meets, h]

theorem meets_cons_of_some {ok : σ → ε → Prop} {s s' : σ} {e : ε} {es : List ε}
    (h : step s e = some s') : Meets step ok s (e :: es) ↔ ok s e ∧ Meets step ok s' es := by
  simp [Meets, h]

/-- A decidable condition is decided along a run. -/
def decidableMeets (step : σ → ε → Option σ) (ok : σ → ε → Prop) [∀ s e, Decidable (ok s e)] :
    (s : σ) → (es : List ε) → Decidable (Meets step ok s es)
  | _, [] => isTrue trivial
  | s, e :: es =>
    match h : step s e with
    | none => decidable_of_iff _ (meets_cons_of_none h).symm
    | some s' =>
      have := decidableMeets step ok s' es
      decidable_of_iff _ (meets_cons_of_some h).symm

instance (step : σ → ε → Option σ) (ok : σ → ε → Prop) [∀ s e, Decidable (ok s e)] (s : σ)
    (es : List ε) : Decidable (Meets step ok s es) :=
  decidableMeets step ok s es

@[simp] theorem run_nil (s : σ) : run step s [] = some s := rfl

theorem run_cons (s : σ) (e : ε) (es : List ε) :
    run step s (e :: es) = (step s e).bind fun s' => run step s' es := rfl

@[simp] theorem meets_nil (ok : σ → ε → Prop) (s : σ) : Meets step ok s [] := trivial

/-- A condition that always holds is met by every run. -/
theorem meets_of_forall {ok : σ → ε → Prop} (h : ∀ s e, ok s e) (s : σ) (es : List ε) :
    Meets step ok s es := by
  induction es generalizing s with
  | nil => trivial
  | cons e es ih => exact ⟨h s e, fun s' _ => ih s'⟩

/-- What two conditions give is met by a run that meets both. -/
theorem Meets.and_imp {ok ok₁ ok₂ : σ → ε → Prop} (h : ∀ s e, ok₁ s e → ok₂ s e → ok s e) {s : σ}
    {es : List ε} (h₁ : Meets step ok₁ s es) (h₂ : Meets step ok₂ s es) : Meets step ok s es := by
  induction es generalizing s with
  | nil => trivial
  | cons e es ih => exact ⟨h s e h₁.1 h₂.1, fun s' hs' => ih (h₁.2 s' hs') (h₂.2 s' hs')⟩

/-- A weaker condition. -/
theorem Meets.mono {ok ok' : σ → ε → Prop} (h : ∀ s e, ok s e → ok' s e) {s : σ} {es : List ε}
    (hok : Meets step ok s es) : Meets step ok' s es :=
  hok.and_imp (fun s e he _ => h s e he) hok

/-- A condition on the events alone is met besides. -/
theorem Meets.and_forall_mem {ok : σ → ε → Prop} {p : ε → Prop} {s : σ} {es : List ε}
    (hok : Meets step ok s es) (hes : ∀ e ∈ es, p e) :
    Meets step (fun s e => ok s e ∧ p e) s es := by
  induction es generalizing s with
  | nil => trivial
  | cons e es ih =>
    obtain ⟨he, hes⟩ := List.forall_mem_cons.1 hes
    exact ⟨⟨hok.1, he⟩, fun s' hs' => ih (hok.2 s' hs') hes⟩

theorem run_cons_eq_some {s t : σ} {e : ε} {es : List ε} :
    run step s (e :: es) = some t ↔ ∃ s', step s e = some s' ∧ run step s' es = some t := by
  rw [run_cons, Option.bind_eq_some_iff]

theorem run_append (s : σ) (es fs : List ε) :
    run step s (es ++ fs) = (run step s es).bind fun s' => run step s' fs := by
  induction es generalizing s with
  | nil => rfl
  | cons e es ih =>
    rw [List.cons_append, run_cons, run_cons, Option.bind_assoc]
    exact congrArg _ (funext ih)

/-- **The run rule.** A property kept by every step is kept by every run. -/
theorem run_invariant {I : σ → Prop} (hstep : ∀ s e s', I s → step s e = some s' → I s') {s t : σ}
    (hs : I s) {es : List ε} (hrun : run step s es = some t) : I t := by
  induction es generalizing s with
  | nil =>
    cases hrun
    exact hs
  | cons e es ih =>
    obtain ⟨s', he, hrest⟩ := run_cons_eq_some.1 hrun
    exact ih (hstep s e s' hs he) hrest

/-- **The run rule under a side condition.** A property kept by every step that meets `ok` is kept
by every run whose steps all meet it. -/
theorem run_invariant_of_meets {I : σ → Prop} {ok : σ → ε → Prop}
    (hstep : ∀ s e s', I s → ok s e → step s e = some s' → I s') {s t : σ} (hs : I s) {es : List ε}
    (hok : Meets step ok s es) (hrun : run step s es = some t) : I t := by
  induction es generalizing s with
  | nil =>
    cases hrun
    exact hs
  | cons e es ih =>
    obtain ⟨s', he, hrest⟩ := run_cons_eq_some.1 hrun
    exact ih (hstep s e s' hs hok.1 he) (hok.2 s' he) hrest

/-- What an invariant and the side condition give is met by the run. -/
theorem meets_of_invariant {I : σ → Prop} {ok ok' : σ → ε → Prop}
    (hstep : ∀ s e s', I s → ok s e → step s e = some s' → I s') (h : ∀ s e, I s → ok s e → ok' s e)
    {s : σ} (hs : I s) {es : List ε} (hok : Meets step ok s es) : Meets step ok' s es := by
  induction es generalizing s with
  | nil => trivial
  | cons e es ih =>
    exact ⟨h s e hs hok.1, fun s' hs' => ih (hstep s e s' hs hok.1 hs') (hok.2 s' hs')⟩

theorem meets_append {ok : σ → ε → Prop} {s : σ} {es fs : List ε} :
    Meets step ok s (es ++ fs) ↔
      Meets step ok s es ∧ ∀ s', run step s es = some s' → Meets step ok s' fs := by
  induction es generalizing s with
  | nil => simp
  | cons e es ih =>
    simp only [List.cons_append, Meets, run_cons_eq_some, ih]
    constructor
    · rintro ⟨he, h⟩
      exact ⟨⟨he, fun s' hs' => (h s' hs').1⟩, fun t ⟨s', hs', ht⟩ => (h s' hs').2 t ht⟩
    · rintro ⟨⟨he, h⟩, h'⟩
      exact ⟨he, fun s' hs' => ⟨h s' hs', fun t ht => h' t ⟨s', hs', ht⟩⟩⟩

/-- The condition at each step of a run, which the events before it lead to. -/
theorem meets_iff_forall_append {ok : σ → ε → Prop} {s : σ} {es : List ε} :
    Meets step ok s es ↔
      ∀ past e rest, es = past ++ e :: rest → ∀ s', run step s past = some s' → ok s' e := by
  constructor
  · rintro hmeets past e rest rfl s' hs'
    exact ((meets_append.1 hmeets).2 s' hs').1
  · intro h
    induction es generalizing s with
    | nil => trivial
    | cons e es ih =>
      refine ⟨h [] e es rfl s rfl, fun s' hs' => ih fun past e' rest hes t ht => ?_⟩
      exact h (e :: past) e' rest (by rw [hes, List.cons_append]) t
        (run_cons_eq_some.2 ⟨s', hs', ht⟩)

/-! ### Possibility -/

/-- Some run of allowed events leads to a state with `P`. -/
def Possible (step : σ → ε → Option σ) (allowed : ε → Prop) (P : σ → Prop) (s : σ) : Prop :=
  ∃ es t, (∀ e ∈ es, allowed e) ∧ run step s es = some t ∧ P t

variable {allowed : ε → Prop} {P : σ → Prop}

theorem Possible.of_holds {s : σ} (h : P s) : Possible step allowed P s :=
  ⟨[], s, fun _ he => absurd he List.not_mem_nil, rfl, h⟩

theorem Possible.cons {s s' : σ} {e : ε} (hstep : step s e = some s') (he : allowed e)
    (h : Possible step allowed P s') : Possible step allowed P s := by
  obtain ⟨es, t, hes, hrun, ht⟩ := h
  refine ⟨e :: es, t, fun e' he' => ?_, run_cons_eq_some.2 ⟨s', hstep, hrun⟩, ht⟩
  rcases List.mem_cons.1 he' with rfl | he'
  · exact he
  · exact hes e' he'

/-- **The rule for what cannot happen.** A property that every step keeps and that excludes `P`
makes `P` impossible, whatever is allowed. -/
theorem not_possible_of_invariant {I : σ → Prop} (hstep : ∀ s e s', I s → step s e = some s' → I s')
    (hnot : ∀ s, I s → ¬P s) {s : σ} (hs : I s) : ¬Possible step allowed P s := by
  rintro ⟨es, t, -, hrun, ht⟩
  exact hnot t (run_invariant hstep hs hrun) ht

end Runs
