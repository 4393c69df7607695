import Mathlib.Data.Finset.Card
import Mathlib.Data.List.Infix
import OpenvpnControl.Library.Runs

/-!
# Requests that run side by side

A request handler is a program of atomic statements, where what a statement reads decides how the
program goes on. Any number of requests run side by side, and their statements interleave in any
order. Every statement leaves a label in a common history. This file gives the programs, the system
they run in, and a rule for reasoning about one program at a time: whatever the other requests do
between two of its statements, they leave its own part of the history alone.

## Main definitions

* `Request`: programs of atomic statements.
* `Request.each`, `Request.collect`: loops over a list.
* `Requests.Shared`, `Requests.Pool`: what the requests share, and the system with its programs.
* `Requests.step`: a request starts, a request takes a step, or the surroundings change.
* `Requests.Rules`, `Requests.Rules.Keeps`: what every statement of a program keeps.

## Main results

* `Requests.Rules.keeps_bind`: programs one after the other.
* `Requests.Rules.keeps_of_quiet`: a program whose statements all keep the invariant for one reason.
* `Requests.Rules.run_inv`: what every program keeps holds in every run.
-/

/-- A program of atomic statements. A statement is what it leaves in the history, what it writes,
and how the program goes on, all read from the state it runs in. -/
inductive Request (σ ℓ α : Type) where
  | done (a : α)
  | stmt (label : σ → ℓ) (write : σ → σ) (next : σ → Request σ ℓ α)

namespace Request

variable {σ ℓ α β : Type}

/-- One program after the other. -/
def bind : Request σ ℓ α → (α → Request σ ℓ β) → Request σ ℓ β
  | done a, f => f a
  | stmt label write next, f => stmt label write fun w => (next w).bind f

instance : Monad (Request σ ℓ) where
  pure := done
  bind := bind

/-- A statement that reads. -/
def read (label : σ → ℓ) (f : σ → α) : Request σ ℓ α := stmt label id fun w => done (f w)

/-- A statement that writes. -/
def write (label : σ → ℓ) (f : σ → σ) : Request σ ℓ Unit := stmt label f fun _ => done ()

/-- A program that nothing interrupts: the state it leaves, and its result. -/
def alone : Request σ ℓ α → σ → σ × α
  | done a, w => (w, a)
  | stmt _ write next, w => (next w).alone (write w)

/-- All statements of a program satisfy `P`. -/
def All (P : (σ → ℓ) → (σ → σ) → Prop) : Request σ ℓ α → Prop
  | done _ => True
  | stmt label write next => P label write ∧ ∀ w, (next w).All P

/-- All results of a program satisfy `R`. -/
def Ends (R : α → Prop) : Request σ ℓ α → Prop
  | done a => R a
  | stmt _ _ next => ∀ w, (next w).Ends R

@[simp] theorem pure_eq (a : α) : (pure a : Request σ ℓ α) = done a := rfl

@[simp] theorem done_bind (a : α) (f : α → Request σ ℓ β) : (done a >>= f) = f a := rfl

@[simp] theorem stmt_bind (label : σ → ℓ) (write : σ → σ) (next : σ → Request σ ℓ α)
    (f : α → Request σ ℓ β) :
    (stmt label write next >>= f) = stmt label write fun w => next w >>= f := rfl

@[simp] theorem alone_done (a : α) (w : σ) : (done a : Request σ ℓ α).alone w = (w, a) := rfl

@[simp] theorem alone_stmt (label : σ → ℓ) (write : σ → σ) (next : σ → Request σ ℓ α) (w : σ) :
    (stmt label write next).alone w = (next w).alone (write w) := rfl

theorem alone_read (label : σ → ℓ) (f : σ → α) (w : σ) : (read label f).alone w = (w, f w) := rfl

theorem alone_write (label : σ → ℓ) (f : σ → σ) (w : σ) : (write label f).alone w = (f w, ()) := rfl

theorem alone_bind (p : Request σ ℓ α) (f : α → Request σ ℓ β) (w : σ) :
    (p >>= f).alone w = (f (p.alone w).2).alone (p.alone w).1 := by
  induction p generalizing w with
  | done a => rfl
  | stmt label write next ih => exact ih w (write w)

/-- A program for each of some values, one after the other. -/
def each (f : β → Request σ ℓ Unit) : List β → Request σ ℓ Unit
  | [] => done ()
  | b :: bs => f b >>= fun _ => each f bs

/-- A program for each of some values, and the list of the results. -/
def collect (f : β → Request σ ℓ α) : List β → Request σ ℓ (List α)
  | [] => done []
  | b :: bs => f b >>= fun a => collect f bs >>= fun as => done (a :: as)

theorem alone_each (f : β → Request σ ℓ Unit) (bs : List β) (w : σ) :
    (each f bs).alone w = (bs.foldl (fun w b => ((f b).alone w).1) w, ()) := by
  induction bs generalizing w with
  | nil => rfl
  | cons b bs ih => rw [each, alone_bind, ih, List.foldl_cons]

/-- Programs that only read leave the state, and each reads it. -/
theorem alone_collect {f : β → Request σ ℓ α} {g : σ → β → α}
    (h : ∀ b w, (f b).alone w = (w, g w b)) (bs : List β)
    (w : σ) : (collect f bs).alone w = (w, bs.map (g w)) := by
  induction bs with
  | nil => rfl
  | cons b bs ih => rw [collect, alone_bind, h, alone_bind, ih, alone_done, List.map_cons]

variable {P : (σ → ℓ) → (σ → σ) → Prop}

@[simp] theorem all_done (a : α) : (done a : Request σ ℓ α).All P := trivial

@[simp] theorem all_stmt {label : σ → ℓ} {write : σ → σ} {next : σ → Request σ ℓ α} :
    (stmt label write next).All P ↔ P label write ∧ ∀ w, (next w).All P := Iff.rfl

@[simp] theorem all_read {label : σ → ℓ} {f : σ → α} : (read label f).All P ↔ P label id := by
  simp [read]

@[simp] theorem all_write {label : σ → ℓ} {f : σ → σ} : (write label f).All P ↔ P label f := by
  simp [write]

theorem all_pure (a : α) : (pure a : Request σ ℓ α).All P := trivial

/-- The statements of a test. -/
theorem all_ite {c : Prop} [Decidable c] {p q : Request σ ℓ α} (hp : p.All P) (hq : q.All P) :
    (if c then p else q).All P := by
  split_ifs
  · exact hp
  · exact hq

/-- The statements of a program that reads first. -/
theorem all_read_bind {label : σ → ℓ} {f : σ → β} {k : β → Request σ ℓ α} (h : P label id)
    (hk : ∀ b, (k b).All P) : (read label f >>= k).All P := ⟨h, fun w => hk (f w)⟩

/-- The statements of a program that writes first. -/
theorem all_write_bind {label : σ → ℓ} {f : σ → σ} {k : Unit → Request σ ℓ α} (h : P label f)
    (hk : (k ()).All P) : (write label f >>= k).All P := ⟨h, fun _ => hk⟩

theorem All.bind {p : Request σ ℓ α} {f : α → Request σ ℓ β} (hp : p.All P)
    (hf : ∀ a, (f a).All P) : (p >>= f).All P := by
  induction p with
  | done a => exact hf a
  | stmt label write next ih => exact ⟨hp.1, fun w => ih w (hp.2 w)⟩

theorem all_each {f : β → Request σ ℓ Unit} (h : ∀ b, (f b).All P) (bs : List β) :
    (each f bs).All P := by
  induction bs with
  | nil => trivial
  | cons b bs ih => exact (h b).bind fun _ => ih

theorem all_collect {f : β → Request σ ℓ α} (h : ∀ b, (f b).All P) (bs : List β) :
    (collect f bs).All P := by
  induction bs with
  | nil => trivial
  | cons b bs ih => exact (h b).bind fun _ => ih.bind fun _ => all_done _

/-- A weaker property of all statements. -/
theorem All.mono {P' : (σ → ℓ) → (σ → σ) → Prop} {p : Request σ ℓ α} (hp : p.All P)
    (h : ∀ label write, P label write → P' label write) : p.All P' := by
  induction p with
  | done a => trivial
  | stmt label write next ih => exact ⟨h label write hp.1, fun w => ih w (hp.2 w)⟩

theorem ends_true (p : Request σ ℓ α) : p.Ends fun _ => True := by
  induction p with
  | done a => trivial
  | stmt label write next ih => exact ih

attribute [irreducible] All

end Request

namespace Requests

variable {ρ ε σ ℓ α β : Type}

/-- What requests share: the state, the requests in the order they started, and the labels of the
statements made so far with the request that made each, the latest first. -/
structure Shared (ρ σ ℓ : Type) where
  world : σ
  started : List ρ
  history : List (ℕ × ℓ)

/-- The system: what the requests share, and what each of them still has to do. -/
structure Pool (ρ σ ℓ α : Type) extends Shared ρ σ ℓ where
  threads : List (Request σ ℓ α)

/-- The labels that request `i` left, the latest first. -/
def Shared.own (s : Shared ρ σ ℓ) (i : ℕ) : List ℓ :=
  (s.history.filter fun e => e.1 = i).map Prod.snd

/-- What a statement of request `i` leaves. -/
def Shared.after (s : Shared ρ σ ℓ) (i : ℕ) (label : σ → ℓ) (write : σ → σ) : Shared ρ σ ℓ :=
  { s with world := write s.world, history := (i, label s.world) :: s.history }

/-- What the start of a request leaves. -/
def Shared.starting (s : Shared ρ σ ℓ) (r : ρ) : Shared ρ σ ℓ :=
  { s with started := s.started ++ [r] }

/-- What can happen: a request starts, a request makes its next statement, or the surroundings
change. -/
inductive Event (ρ ε : Type) where
  | start (r : ρ)
  | act (i : ℕ)
  | env (e : ε)
  deriving DecidableEq

/-- The system with nothing started. -/
def Pool.initial (w : σ) : Pool ρ σ ℓ α := ⟨⟨w, [], []⟩, []⟩

/-- One step, where `prog` gives the program of a request and `env` what the surroundings do. -/
def step (prog : ρ → Request σ ℓ α) (env : ε → σ → Option σ) (s : Pool ρ σ ℓ α) :
    Event ρ ε → Option (Pool ρ σ ℓ α)
  | .start r => some ⟨s.toShared.starting r, s.threads ++ [prog r]⟩
  | .act i =>
    match s.threads[i]? with
    | some (.stmt label write next) =>
      some ⟨s.toShared.after i label write, s.threads.set i (next s.world)⟩
    | _ => none
  | .env e => (env e s.world).map fun w => { s with world := w }

/-! ### One request among the others -/

/-- What the other requests and the surroundings leave of what request `i` has seen, where `W` is a
relation that every change of the state respects. -/
structure Rely (W : σ → σ → Prop) (i : ℕ) (s t : Shared ρ σ ℓ) : Prop where
  history : s.history <:+ t.history
  own : t.own i = s.own i
  started : s.started <+: t.started
  world : W s.world t.world

/-- The rules of a system: an invariant, a relation that every change of the state respects, what a
statement of a request guarantees, what the result of a request satisfies, a condition on the
statements of a request, and conditions on what starts and on what the surroundings do. -/
structure Rules (ρ ε σ ℓ α : Type) where
  inv : Shared ρ σ ℓ → Prop
  rely : σ → σ → Prop
  guar : ℕ → Shared ρ σ ℓ → Shared ρ σ ℓ → Prop
  post : ρ → α → Prop
  stmtOk : ℕ → Shared ρ σ ℓ → ℓ → Prop
  startOk : Shared ρ σ ℓ → ρ → Prop
  envOk : Shared ρ σ ℓ → ε → Prop

variable (G : Rules ρ ε σ ℓ α)

/-- A statement of request `i` in the state `t` keeps the rules. -/
structure Rules.StmtKept (i : ℕ) (t : Shared ρ σ ℓ) (label : σ → ℓ) (write : σ → σ) : Prop where
  inv : G.inv (t.after i label write)
  rely : G.rely t.world (write t.world)
  guar : G.guar i t (t.after i label write)

/-- Every statement of a program of request `i` keeps the rules, from `s` on and whatever happens in
between, and the program ends with `Q`. -/
def Rules.Keeps (i : ℕ) : Request σ ℓ β → (β → Shared ρ σ ℓ → Prop) → Shared ρ σ ℓ → Prop
  | .done a, Q, s => Q a s
  | .stmt label write next, Q, s =>
    ∀ t, Rely G.rely i s t → G.inv t → G.stmtOk i t (label t.world) →
      G.StmtKept i t label write ∧ Rules.Keeps i (next t.world) Q (t.after i label write)

/-- The conditions of the rules on a step of the system. -/
def Rules.StepOk (s : Pool ρ σ ℓ α) : Event ρ ε → Prop
  | .start r => G.startOk s.toShared r
  | .act i => ∀ label write next, s.threads[i]? = some (.stmt label write next) →
      G.stmtOk i s.toShared (label s.world)
  | .env e => G.envOk s.toShared e

variable {G} in
theorem Rules.stepOk_act_iff {s : Pool ρ σ ℓ α} {i : ℕ} {label : σ → ℓ} {write : σ → σ}
    {next : σ → Request σ ℓ α} (h : s.threads[i]? = some (.stmt label write next)) :
    G.stmtOk i s.toShared (label s.world) ↔ G.StepOk s (.act i) := by
  simp [Rules.StepOk, h]

variable {G} in
theorem Rules.stepOk_act_of_done {s : Pool ρ σ ℓ α} {i : ℕ} {a : α}
    (h : s.threads[i]? = some (.done a)) : G.StepOk s (.act i) := by
  simp [Rules.StepOk, h]

variable {G} in
theorem Rules.stepOk_act_of_none {s : Pool ρ σ ℓ α} {i : ℕ} (h : s.threads[i]? = none) :
    G.StepOk s (.act i) := by
  simp [Rules.StepOk, h]

instance [∀ i s l, Decidable (G.stmtOk i s l)] [∀ s r, Decidable (G.startOk s r)]
    [∀ s e, Decidable (G.envOk s e)] (s : Pool ρ σ ℓ α) : (e : Event ρ ε) → Decidable (G.StepOk s e)
  | .start r => inferInstanceAs (Decidable (G.startOk s.toShared r))
  | .env e => inferInstanceAs (Decidable (G.envOk s.toShared e))
  | .act i =>
    match h : s.threads[i]? with
    | some (.stmt label _ _) =>
      decidable_of_iff (G.stmtOk i s.toShared (label s.world)) (Rules.stepOk_act_iff h)
    | some (.done _) => isTrue (Rules.stepOk_act_of_done h)
    | none => isTrue (Rules.stepOk_act_of_none h)

/-- The relation of the rules is reflexive and transitive, and the surroundings respect it and the
invariant. -/
structure Rules.Lawful (env : ε → σ → Option σ) : Prop where
  refl : ∀ w, G.rely w w
  trans : ∀ {u v w}, G.rely u v → G.rely v w → G.rely u w
  start : ∀ {s : Shared ρ σ ℓ} {r}, G.inv s → G.startOk s r → G.inv (s.starting r)
  env : ∀ {s : Shared ρ σ ℓ} {e w}, G.inv s → G.envOk s e → env e s.world = some w →
    G.inv { s with world := w } ∧ G.rely s.world w

variable {G} {env : ε → σ → Option σ} {prog : ρ → Request σ ℓ α} {i j : ℕ} {s t u : Shared ρ σ ℓ}
  {label : σ → ℓ} {write : σ → σ}

@[simp] theorem after_world : (s.after i label write).world = write s.world := rfl

@[simp] theorem after_history :
    (s.after i label write).history = (i, label s.world) :: s.history := rfl

@[simp] theorem after_started : (s.after i label write).started = s.started := rfl

/-- A statement of a request is its latest label. -/
@[simp] theorem own_after_self : (s.after i label write).own i = label s.world :: s.own i := by
  simp [Shared.own, Shared.after]

/-- The statements of other requests are no labels of a request. -/
theorem own_after_of_ne (h : i ≠ j) : (s.after i label write).own j = s.own j := by
  simp [Shared.own, Shared.after, h]

@[simp] theorem starting_world {r : ρ} : (s.starting r).world = s.world := rfl

@[simp] theorem starting_history {r : ρ} : (s.starting r).history = s.history := rfl

@[simp] theorem starting_own {r : ρ} : (s.starting r).own j = s.own j := rfl

theorem starting_get (s : Shared ρ σ ℓ) (r : ρ) :
    (s.starting r).started[s.started.length]? = some r :=
  List.getElem?_concat_length

theorem mem_history_of_mem_own {l : ℓ} (h : l ∈ s.own i) : (i, l) ∈ s.history := by
  obtain ⟨⟨j, l'⟩, he, rfl⟩ := List.mem_map.1 h
  obtain ⟨hmem, hj⟩ := List.mem_filter.1 he
  obtain rfl : j = i := of_decide_eq_true hj
  exact hmem

/-- A request that is not in the history has left no label. -/
theorem own_eq_nil (h : ∀ e ∈ s.history, e.1 ≠ i) : s.own i = [] := by
  rw [Shared.own, List.filter_eq_nil_iff.2 fun e he => by simpa using h e he, List.map_nil]

/-- The requests whose labels satisfy `P`, among those that have left any. -/
def Shared.those (s : Shared ρ σ ℓ) (P : List ℓ → Bool) : Finset ℕ :=
  (s.history.map Prod.fst).toFinset.filter fun i => P (s.own i)

/-- A request with labels that satisfy `P`, where no labels do not. -/
theorem mem_those {P : List ℓ → Bool} (hP : P [] = false) : i ∈ s.those P ↔ P (s.own i) = true := by
  rw [Shared.those, Finset.mem_filter, List.mem_toFinset, and_iff_right_iff_imp]
  intro h
  by_contra hmem
  rw [own_eq_nil fun e he hi => hmem (List.mem_map.2 ⟨e, he, hi⟩), hP] at h
  cases h

/-- **A statement moves its own request** into the requests that satisfy `P`, or out of them. -/
theorem card_those_after {P : List ℓ → Bool} (hP : P [] = false) :
    ((s.after i label write).those P).card + (P (s.own i)).toNat =
      (s.those P).card + (P (label s.world :: s.own i)).toNat := by
  have hothers : ((s.after i label write).those P).erase i = (s.those P).erase i := by
    ext j
    rw [Finset.mem_erase, Finset.mem_erase, mem_those hP, mem_those hP]
    refine and_congr_right fun hj => ?_
    rw [own_after_of_ne hj.symm]
  have hcard (t : Shared ρ σ ℓ) :
      (t.those P).card = ((t.those P).erase i).card + (P (t.own i)).toNat := by
    by_cases h : P (t.own i) = true
    · rw [h, Bool.toNat_true, Finset.card_erase_add_one ((mem_those hP).2 h)]
    · rw [Bool.eq_false_of_not_eq_true h, Bool.toNat_false, Nat.add_zero,
        Finset.erase_eq_of_notMem fun hmem => h ((mem_those hP).1 hmem)]
  rw [hcard (s.after i label write), hcard s, hothers, own_after_self]
  omega

section Rely

variable {W : σ → σ → Prop}

theorem Rely.refl (hW : ∀ w, W w w) (i : ℕ) (s : Shared ρ σ ℓ) : Rely W i s s :=
  ⟨List.suffix_refl _, rfl, List.prefix_refl _, hW _⟩

theorem Rely.trans (hW : ∀ {u v w}, W u v → W v w → W u w) (h : Rely W i s t)
    (h' : Rely W i t u) : Rely W i s u :=
  ⟨h.history.trans h'.history, h'.own.trans h.own, h.started.trans h'.started,
    hW h.world h'.world⟩

theorem Rely.started_get {r : ρ} (h : Rely W i s t) (hr : s.started[j]? = some r) :
    t.started[j]? = some r := by
  obtain ⟨rest, hrest⟩ := h.started
  have hlt : j < s.started.length := (List.getElem?_eq_some_iff.1 hr).1
  rw [← hrest, List.getElem?_append_left hlt, hr]

/-- A statement of another request. -/
theorem Rely.after (h : i ≠ j) (hw : W s.world (write s.world)) :
    Rely W j s (s.after i label write) :=
  ⟨List.suffix_cons _ _, own_after_of_ne h, List.prefix_refl _, hw⟩

end Rely

/-! ### The rules for programs -/

variable {γ : Type} {Q Q' : β → Shared ρ σ ℓ → Prop}

@[simp] theorem Rules.keeps_done {a : β} : G.Keeps i (.done a) Q s ↔ Q a s := Iff.rfl

theorem Rules.keeps_stmt {next : σ → Request σ ℓ β} :
    G.Keeps i (.stmt label write next) Q s ↔
      ∀ t, Rely G.rely i s t → G.inv t → G.stmtOk i t (label t.world) →
        G.StmtKept i t label write ∧ G.Keeps i (next t.world) Q (t.after i label write) := Iff.rfl

@[simp] theorem Rules.keeps_pure {a : β} : G.Keeps i (pure a) Q s ↔ Q a s := Iff.rfl

/-- The program of a test. -/
theorem Rules.keeps_ite {c : Prop} [Decidable c] {p q : Request σ ℓ β} (hp : c → G.Keeps i p Q s)
    (hq : ¬c → G.Keeps i q Q s) :
    G.Keeps i (if c then p else q) Q s := by
  split_ifs with h
  · exact hp h
  · exact hq h

/-- A statement that reads, and what follows. -/
theorem Rules.keeps_read {label : σ → ℓ} {f : σ → γ} {k : γ → Request σ ℓ β}
    (h : ∀ t, Rely G.rely i s t → G.inv t → G.stmtOk i t (label t.world) →
      G.StmtKept i t label id ∧ G.Keeps i (k (f t.world)) Q (t.after i label id)) :
    G.Keeps i (Request.read label f >>= k) Q s := h

/-- A statement that writes, and what follows. -/
theorem Rules.keeps_write {label : σ → ℓ} {f : σ → σ} {k : Unit → Request σ ℓ β}
    (h : ∀ t, Rely G.rely i s t → G.inv t → G.stmtOk i t (label t.world) →
      G.StmtKept i t label f ∧ G.Keeps i (k ()) Q (t.after i label f)) :
    G.Keeps i (Request.write label f >>= k) Q s := h

/-- **Programs one after the other.** -/
theorem Rules.keeps_bind {p : Request σ ℓ γ} {f : γ → Request σ ℓ β} :
    G.Keeps i (p >>= f) Q s ↔ G.Keeps i p (fun a t => G.Keeps i (f a) Q t) s := by
  induction p generalizing s with
  | done a => rfl
  | stmt label write next ih =>
    rw [Request.stmt_bind, Rules.keeps_stmt, Rules.keeps_stmt]
    exact forall₄_congr fun t _ _ _ => and_congr_right fun _ => ih t.world

theorem Rules.Keeps.mono {p : Request σ ℓ β} (h : G.Keeps i p Q s)
    (hQ : ∀ a t, Q a t → Q' a t) : G.Keeps i p Q' s := by
  induction p generalizing s with
  | done a => exact hQ a s h
  | stmt label write next ih =>
    exact fun t hrely hinv hok =>
      let ⟨hkept, hnext⟩ := h t hrely hinv hok
      ⟨hkept, ih t.world hnext⟩

/-- What a program keeps from one state on, it keeps from what the others make of the state. -/
theorem Rules.Keeps.of_rely (htrans : ∀ {u v w}, G.rely u v → G.rely v w → G.rely u w)
    {p : Request σ ℓ β} {R : β → Prop} (h : G.Keeps i p (fun a _ => R a) s)
    (hrely : Rely G.rely i s t) : G.Keeps i p (fun a _ => R a) t := by
  cases p with
  | done a => exact h
  | stmt label write next => exact fun u hu => h u (hrely.trans htrans hu)

attribute [irreducible] Rules.Keeps

/-- What a program of quiet statements leaves: its own labels are on top of those before it. -/
structure Quiet (L : ℓ → Prop) (i : ℕ) (s t : Shared ρ σ ℓ) : Prop where
  history : s.history <:+ t.history
  started : s.started <+: t.started
  own : ∃ ls, t.own i = ls ++ s.own i ∧ ∀ l ∈ ls, L l

theorem Quiet.refl (L : ℓ → Prop) (i : ℕ) (s : Shared ρ σ ℓ) : Quiet L i s s :=
  ⟨List.suffix_refl _, List.prefix_refl _, [], rfl, fun _ h => absurd h List.not_mem_nil⟩

theorem Quiet.trans {L : ℓ → Prop} (h : Quiet L i s t) (h' : Quiet L i t u) : Quiet L i s u := by
  obtain ⟨ls, hls, hL⟩ := h.own
  obtain ⟨ms, hms, hM⟩ := h'.own
  refine ⟨h.history.trans h'.history, h.started.trans h'.started, ms ++ ls, ?_, fun l hl => ?_⟩
  · rw [hms, hls, List.append_assoc]
  · exact (List.mem_append.1 hl).elim (hM l) (hL l)

theorem Quiet.of_rely {W : σ → σ → Prop} (L : ℓ → Prop) (h : Rely W i s t) : Quiet L i s t :=
  ⟨h.history, h.started, [], h.own, fun _ h => absurd h List.not_mem_nil⟩

theorem Quiet.after {L : ℓ → Prop} (h : L (label s.world)) : Quiet L i s (s.after i label write) :=
  ⟨List.suffix_cons _ _, List.prefix_refl _, [label s.world], own_after_self,
    fun _ hl => List.mem_singleton.1 hl ▸ h⟩

/-- A loop that collects keeps what each of its turns keeps. -/
theorem Rules.keeps_collect {I : Shared ρ σ ℓ → Prop} {f : γ → Request σ ℓ β} {bs : List γ}
    (h : ∀ b ∈ bs, ∀ t, I t → G.Keeps i (f b) (fun _ u => I u) t) (hs : I s) :
    G.Keeps i (Request.collect f bs) (fun _ t => I t) s := by
  induction bs generalizing s with
  | nil => exact Rules.keeps_done.2 hs
  | cons b bs ih =>
    obtain ⟨hb, hbs⟩ := List.forall_mem_cons.1 h
    refine Rules.keeps_bind.2 ((hb s hs).mono fun _ t ht => ?_)
    exact Rules.keeps_bind.2 ((ih hbs ht).mono fun _ u hu => Rules.keeps_done.2 hu)

/-- **Quiet programs.** The statements of a program all keep the invariant for one reason. -/
theorem Rules.keeps_of_quiet {P : (σ → ℓ) → (σ → σ) → Prop} {L : ℓ → Prop} {R : β → Prop}
    {p : Request σ ℓ β} (hp : p.All P) (hend : p.Ends R)
    (hP : ∀ label write, P label write → ∀ t : Shared ρ σ ℓ, G.inv t →
      G.stmtOk i t (label t.world) → L (label t.world) ∧ G.StmtKept i t label write) :
    G.Keeps i p (fun a t => R a ∧ Quiet L i s t) s := by
  suffices h : ∀ u, Quiet L i s u → G.Keeps i p (fun a t => R a ∧ Quiet L i s t) u from
    h s (Quiet.refl L i s)
  induction p with
  | done a => exact fun u hu => Rules.keeps_done.2 ⟨hend, hu⟩
  | stmt label write next ih =>
    refine fun u hu => Rules.keeps_stmt.2 fun t hrely hinv hok => ?_
    obtain ⟨hstmt, hrest⟩ := Request.all_stmt.1 hp
    obtain ⟨hL, hkept⟩ := hP label write hstmt t hinv hok
    refine ⟨hkept, ih t.world (hrest t.world) (hend t.world) _ ?_⟩
    exact (hu.trans (Quiet.of_rely L hrely)).trans (Quiet.after hL)

/-! ### Runs -/

/-- What holds of a system that keeps its rules: the invariant, and that each request keeps it with
what it still has to do. -/
structure Rules.PoolInv (G : Rules ρ ε σ ℓ α) (s : Pool ρ σ ℓ α) : Prop where
  inv : G.inv s.toShared
  length : s.started.length = s.threads.length
  bound : ∀ e ∈ s.history, e.1 < s.threads.length
  keeps : ∀ i r p, s.started[i]? = some r → s.threads[i]? = some p →
    G.Keeps i p (fun a _ => G.post r a) s.toShared

theorem step_act_eq_some {s s' : Pool ρ σ ℓ α} :
    step prog env s (.act i) = some s' ↔
      ∃ label write next, s.threads[i]? = some (.stmt label write next) ∧
        s' = ⟨s.toShared.after i label write, s.threads.set i (next s.world)⟩ := by
  rw [step]
  split
  · rename_i label write next h
    constructor
    · intro h'
      exact ⟨label, write, next, h, (Option.some.inj h').symm⟩
    · rintro ⟨_, _, _, h', rfl⟩
      obtain ⟨rfl, rfl, rfl⟩ := Request.stmt.inj (Option.some.inj (h.symm.trans h'))
      rfl
  · rename_i h
    constructor
    · intro h'
      cases h'
    · rintro ⟨label, write, next, h', -⟩
      exact absurd h' (h label write next)

theorem Rules.PoolInv.start (hG : G.Lawful env) {s : Pool ρ σ ℓ α} {r : ρ} (h : G.PoolInv s)
    (hok : G.startOk s.toShared r)
    (hprog : G.Keeps s.started.length (prog r) (fun a _ => G.post r a) (s.toShared.starting r)) :
    G.PoolInv (⟨s.toShared.starting r, s.threads ++ [prog r]⟩ : Pool ρ σ ℓ α) := by
  refine ⟨hG.start h.inv hok, by simp [Shared.starting, h.length], fun e he => ?_,
    fun i r' p hr hp => ?_⟩
  · have := h.bound e he
    simp only [List.length_append, List.length_singleton]
    omega
  · have hlt := (List.getElem?_eq_some_iff.1 hp).1
    rw [List.length_append, List.length_singleton] at hlt
    by_cases hi : i < s.threads.length
    · rw [List.getElem?_append_left hi] at hp
      rw [Shared.starting, List.getElem?_append_left (h.length ▸ hi)] at hr
      exact (h.keeps i r' p hr hp).of_rely hG.trans
        ⟨List.suffix_refl _, rfl, List.prefix_append _ _, hG.refl _⟩
    · obtain rfl : i = s.threads.length := by omega
      rw [List.getElem?_append_right le_rfl, Nat.sub_self] at hp
      rw [← h.length, starting_get] at hr
      obtain rfl := Option.some.inj hp
      obtain rfl := Option.some.inj hr
      exact h.length ▸ hprog

theorem Rules.PoolInv.act (hG : G.Lawful env) {s : Pool ρ σ ℓ α} (h : G.PoolInv s)
    {next : σ → Request σ ℓ α} (hget : s.threads[i]? = some (.stmt label write next))
    (hok : G.stmtOk i s.toShared (label s.world)) :
    G.PoolInv (⟨s.toShared.after i label write, s.threads.set i (next s.world)⟩ :
      Pool ρ σ ℓ α) := by
  have hi : i < s.threads.length := (List.getElem?_eq_some_iff.1 hget).1
  obtain ⟨r, hr⟩ : ∃ r, s.started[i]? = some r := ⟨_, List.getElem?_eq_getElem (h.length ▸ hi)⟩
  have hkept := (Rules.keeps_stmt.1 (h.keeps i r _ hr hget) s.toShared (Rely.refl hG.refl i _)
    h.inv hok).1
  refine ⟨hkept.inv, by simp [h.length], fun e he => ?_, fun j r' p hr' hp => ?_⟩
  · rw [List.length_set]
    rcases List.mem_cons.1 he with rfl | he
    · exact hi
    · exact h.bound e he
  · by_cases hij : i = j
    · subst hij
      rw [List.getElem?_set_self hi] at hp
      obtain rfl := Option.some.inj hp
      exact (Rules.keeps_stmt.1 (h.keeps i r' _ hr' hget) s.toShared (Rely.refl hG.refl i _)
        h.inv hok).2
    · rw [List.getElem?_set_ne hij] at hp
      exact (h.keeps j r' p hr' hp).of_rely hG.trans (Rely.after hij hkept.rely)

theorem Rules.PoolInv.initial {w : σ} (h : G.inv ⟨w, [], []⟩) :
    G.PoolInv (Pool.initial w : Pool ρ σ ℓ α) where
  inv := h
  length := rfl
  bound _ he := absurd he List.not_mem_nil
  keeps _ _ _ hr _ := by cases hr

/-- The result of a request that is finished. -/
theorem Rules.PoolInv.result {s : Pool ρ σ ℓ α} (h : G.PoolInv s) {r : ρ} {a : α}
    (hr : s.started[i]? = some r) (hdone : s.threads[i]? = some (.done a)) : G.post r a :=
  Rules.keeps_done.1 (h.keeps i r _ hr hdone)

/-- **What a statement guarantees** in a system that keeps its rules. -/
theorem Rules.PoolInv.guar (hG : G.Lawful env) {s s' : Pool ρ σ ℓ α} (h : G.PoolInv s)
    (hok : G.StepOk s (.act i)) (hstep : step prog env s (.act i) = some s') :
    G.guar i s.toShared s'.toShared := by
  obtain ⟨label, write, next, hget, rfl⟩ := step_act_eq_some.1 hstep
  have hi : i < s.threads.length := (List.getElem?_eq_some_iff.1 hget).1
  obtain ⟨r, hr⟩ : ∃ r, s.started[i]? = some r := ⟨_, List.getElem?_eq_getElem (h.length ▸ hi)⟩
  exact (Rules.keeps_stmt.1 (h.keeps i r _ hr hget) s.toShared (Rely.refl hG.refl i _) h.inv
    (hok label write next hget)).1.guar

/-- **What every program keeps holds in every run** that meets the conditions of the rules. -/
theorem Rules.run_inv (hG : G.Lawful env) {s t : Pool ρ σ ℓ α} (hs : G.PoolInv s)
    (hprog : ∀ r (s : Shared ρ σ ℓ), G.inv s → G.startOk s r → s.own s.started.length = [] →
      G.Keeps s.started.length (prog r) (fun a _ => G.post r a) (s.starting r))
    {events : List (Event ρ ε)} (hok : Runs.Meets (step prog env) G.StepOk s events)
    (hrun : Runs.run (step prog env) s events = some t) : G.PoolInv t := by
  refine Runs.run_invariant_of_meets (I := G.PoolInv) (fun s e s' hs hok hstep => ?_) hs hok hrun
  cases e with
  | start r =>
    obtain rfl := Option.some.inj hstep
    refine hs.start hG hok (hprog r _ hs.inv hok (own_eq_nil fun e he => ?_))
    exact Nat.ne_of_lt (hs.length ▸ hs.bound e he)
  | act i =>
    obtain ⟨label, write, next, hget, rfl⟩ := step_act_eq_some.1 hstep
    exact hs.act hG hget (hok label write next hget)
  | env e =>
    obtain ⟨w, hw, rfl⟩ := Option.map_eq_some_iff.1 hstep
    obtain ⟨hinv, hrely⟩ := hG.env hs.inv hok hw
    refine ⟨hinv, hs.length, hs.bound, fun i r p hr hp => ?_⟩
    exact (hs.keeps i r p hr hp).of_rely hG.trans
      ⟨List.suffix_refl _, rfl, List.prefix_refl _, hrely⟩

end Requests
