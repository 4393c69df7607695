import Mathlib.Data.List.Basic

/-!
# Regular expressions

A matcher with backtracking: it lists the places where a match can end, the preferred one first, so
a repetition takes as much as it can and the left branch of an alternative is tried first.

## Main definitions

* `Regexp`: expressions over classes of characters.
* `Regexp.runs`: the places where a match can end.
* `Regexp.find`: the groups of the leftmost match.
* `Regexp.Reads`: what an expression without groups can take.
* `Regexp.Accepts`: which texts an expression matches, with which groups.

## Main results

* `Regexp.Reads.seq`, `Regexp.Reads.alt`, `Regexp.Reads.star`, `Regexp.Reads.rep`: what the parts of
  an expression take.
* `Regexp.mem_runs_group`: what a group holds.
* `Regexp.Accepts.seq`, `Regexp.Accepts.alt`, `Regexp.Accepts.group`, `Regexp.Accepts.plus`: matches
  from the parts.
* `Regexp.find_whole_iff`: the match of a whole text.
-/

/-- A regular expression. -/
inductive Regexp where
  | empty
  | char (p : Char → Bool)
  | seq (r s : Regexp)
  | alt (r s : Regexp)
  | star (r : Regexp)
  | group (r : Regexp)
  | start
  | stop
  | wordBoundary

namespace Regexp

/-- A place in a text: the characters before it, the last one first, those after it, and the groups
so far. -/
@[ext]
structure Place where
  before : List Char
  rest : List Char
  groups : List (List Char)
  deriving DecidableEq

/-- The class `\w`. -/
def wordChar (c : Char) : Bool := c.isAlphanum || c = '_'

/-- The class `\s`. -/
def space (c : Char) : Bool := c = ' ' || c = '\t' || c = '\n' || c.toNat = 12 || c = '\r'

/-- Turns of a loop that take something, as many as `fuel` allows; the longest way is the first. -/
def iterate (f : Place → List Place) : ℕ → Place → List Place
  | 0, p => [p]
  | fuel + 1, p =>
    ((f p).filter fun q => q.rest.length < p.rest.length).flatMap (iterate f fuel) ++ [p]

/-- The places where a match can end, the preferred one first. -/
def runs : Regexp → Place → List Place
  | empty, p => [p]
  | char q, p =>
    match p.rest with
    | c :: rest => if q c then [{ p with before := c :: p.before, rest := rest }] else []
    | [] => []
  | seq r s, p => (runs r p).flatMap (runs s)
  | alt r s, p => runs r p ++ runs s p
  | star r, p => iterate (runs r) p.rest.length p
  | group r, p =>
    (runs r p).map fun q =>
      { q with groups := q.groups ++ [p.rest.take (p.rest.length - q.rest.length)] }
  | start, p => if p.before = [] then [p] else []
  | stop, p => if p.rest = [] then [p] else []
  | wordBoundary, p => if p.before.head?.any wordChar ≠ p.rest.head?.any wordChar then [p] else []

@[simp] theorem runs_empty (p : Place) : runs empty p = [p] := rfl

theorem runs_char (q : Char → Bool) (p : Place) :
    runs (char q) p =
      match p.rest with
      | c :: rest => if q c then [{ p with before := c :: p.before, rest := rest }] else []
      | [] => [] := rfl

theorem runs_seq (r s : Regexp) (p : Place) : runs (seq r s) p = (runs r p).flatMap (runs s) := rfl

theorem runs_alt (r s : Regexp) (p : Place) : runs (alt r s) p = runs r p ++ runs s p := rfl

theorem runs_star (r : Regexp) (p : Place) : runs (star r) p = iterate (runs r) p.rest.length p :=
  rfl

theorem runs_group (r : Regexp) (p : Place) :
    runs (group r) p =
      (runs r p).map fun q =>
      { q with groups := q.groups ++ [p.rest.take (p.rest.length - q.rest.length)] } := rfl

theorem runs_start (p : Place) : runs start p = if p.before = [] then [p] else [] := rfl

theorem runs_stop (p : Place) : runs stop p = if p.rest = [] then [p] else [] := rfl

theorem iterate_succ (f : Place → List Place) (fuel : ℕ) (p : Place) :
    iterate f (fuel + 1) p =
      ((f p).filter fun q => q.rest.length < p.rest.length).flatMap (iterate f fuel) ++ [p] := rfl

/-- `r?`. -/
def opt (r : Regexp) : Regexp := alt r empty

/-- `r+`. -/
def plus (r : Regexp) : Regexp := seq r (star r)

/-- `r{n}`. -/
def rep : ℕ → Regexp → Regexp
  | 0, _ => empty
  | n + 1, r => seq r (rep n r)

/-- Between `m` and `m + n` times `r`. -/
def between (m : ℕ) : ℕ → Regexp → Regexp
  | 0, r => rep m r
  | n + 1, r => alt (rep (m + n + 1) r) (between m n r)

/-- One character. -/
def lit (c : Char) : Regexp := char (· = c)

/-- One expression after the other. -/
def all : List Regexp → Regexp
  | [] => empty
  | r :: rs => seq r (all rs)

/-- The characters of a text, one after the other. -/
def text (s : String) : Regexp := all (s.toList.map lit)

/-- `^r$`. -/
def whole (r : Regexp) : Regexp := seq start (seq r stop)

/-- The first end of a match that starts here or later. -/
def findFrom (r : Regexp) (before : List Char) : List Char → Option Place
  | [] => (runs r ⟨before, [], []⟩).head?
  | c :: rest => (runs r ⟨before, c :: rest, []⟩).head?.or (findFrom r (c :: before) rest)

/-- The groups of the leftmost match. -/
def find (r : Regexp) (s : String) : Option (List String) :=
  (findFrom r [] s.toList).map fun p => p.groups.map String.ofList

theorem exists_of_findFrom {r : Regexp} {before rest : List Char} {q : Place}
    (h : findFrom r before rest = some q) :
    ∃ a b, rest = a ++ b ∧ q ∈ runs r ⟨a.reverse ++ before, b, []⟩ := by
  induction rest generalizing before with
  | nil => exact ⟨[], [], rfl, List.mem_of_mem_head? h⟩
  | cons c rest ih =>
    rw [findFrom, Option.or_eq_some_iff] at h
    obtain h | ⟨-, h⟩ := h
    · exact ⟨[], c :: rest, rfl, List.mem_of_mem_head? h⟩
    · obtain ⟨a, b, rfl, hq⟩ := ih h
      exact ⟨c :: a, b, rfl, by simpa using hq⟩

theorem mem_runs_seq {r s : Regexp} {p q : Place} : q ∈ runs (seq r s) p ↔
    ∃ m ∈ runs r p, q ∈ runs s m := by
  rw [runs_seq, List.mem_flatMap]

/-! ### What an expression takes -/

/-- Every match takes characters with `P` and adds no groups. -/
def Reads (r : Regexp) (P : List Char → Prop) : Prop :=
  ∀ p q : Place, q ∈ runs r p → ∃ l, P l ∧ p.rest = l ++ q.rest ∧ q.groups = p.groups

namespace Reads

variable {r s : Regexp} {P Q : List Char → Prop}

theorem mono (h : Reads r P) (himp : ∀ l, P l → Q l) : Reads r Q := fun p q hq => by
  obtain ⟨l, hl, hrest, hgroups⟩ := h p q hq
  exact ⟨l, himp l hl, hrest, hgroups⟩

theorem empty : Reads empty (· = []) := fun p q hq => by
  obtain rfl := List.mem_singleton.1 hq
  exact ⟨[], rfl, rfl, rfl⟩

theorem char (c : Char → Bool) : Reads (char c) fun l => ∃ x, c x = true ∧ l = [x] :=
  fun p q hq => by
  rw [runs_char] at hq
  cases hrest : p.rest with
  | nil => simp [hrest] at hq
  | cons x rest =>
    rw [hrest] at hq
    dsimp only at hq
    split_ifs at hq with hx
    · obtain rfl := List.mem_singleton.1 hq
      exact ⟨[x], ⟨x, hx, rfl⟩, rfl, rfl⟩
    · cases hq

theorem lit (c : Char) : Reads (lit c) (· = [c]) :=
  (char _).mono fun l h => by
    obtain ⟨x, hx, rfl⟩ := h
    rw [of_decide_eq_true hx]

theorem seq (hr : Reads r P) (hs : Reads s Q) : Reads (seq r s) fun l => ∃ a b,
    P a ∧ Q b ∧ l = a ++ b := by
  intro p q hq
  obtain ⟨m, hm, hq⟩ := mem_runs_seq.1 hq
  obtain ⟨a, ha, harest, hagroups⟩ := hr p m hm
  obtain ⟨b, hb, hbrest, hbgroups⟩ := hs m q hq
  exact ⟨a ++ b, ⟨a, b, ha, hb, rfl⟩,
    by rw [harest, hbrest, List.append_assoc], hbgroups.trans hagroups⟩

theorem alt (hr : Reads r P) (hs : Reads s Q) : Reads (alt r s) fun l => P l ∨ Q l := by
  intro p q hq
  rw [runs_alt, List.mem_append] at hq
  obtain hq | hq := hq
  · exact hr.mono (fun l => Or.inl) p q hq
  · exact hs.mono (fun l => Or.inr) p q hq

theorem opt (hr : Reads r P) : Reads (opt r) fun l => P l ∨ l = [] := hr.alt empty

/-- Repetitions of an expression that takes characters of a class. -/
theorem star {c : Char → Bool} (hr : Reads r fun l => ∀ x ∈ l, c x = true) :
    Reads (star r) fun l => ∀ x ∈ l, c x = true := by
  intro p q hq
  rw [runs_star] at hq
  generalize p.rest.length = fuel at hq
  induction fuel generalizing p with
  | zero =>
    obtain rfl := List.mem_singleton.1 hq
    exact ⟨[], nofun, rfl, rfl⟩
  | succ fuel ih =>
    rw [iterate_succ, List.mem_append, List.mem_flatMap, List.mem_singleton] at hq
    obtain ⟨m, hm, hq⟩ | rfl := hq
    · obtain ⟨a, ha, harest, hagroups⟩ := hr p m (List.mem_filter.1 hm).1
      obtain ⟨b, hb, hbrest, hbgroups⟩ := ih m hq
      refine ⟨a ++ b, List.forall_mem_append.2 ⟨ha, hb⟩, ?_, hbgroups.trans hagroups⟩
      rw [harest, hbrest, List.append_assoc]
    · exact ⟨[], nofun, rfl, rfl⟩

/-- Characters of a class. -/
theorem class' (c : Char → Bool) : Reads (.char c) fun l => ∀ x ∈ l, c x = true :=
  (char c).mono fun l h => by
    obtain ⟨x, hx, rfl⟩ := h
    simpa using hx

/-- At least one character of a class. -/
theorem plus (c : Char → Bool) : Reads (plus (.char c)) fun l => l ≠ [] ∧ ∀ x ∈ l, c x = true :=
  ((char c).seq (class' c).star).mono fun l h => by
    obtain ⟨-, b, ⟨x, hx, rfl⟩, hb, rfl⟩ := h
    exact ⟨nofun, List.forall_mem_cons.2 ⟨hx, hb⟩⟩

/-- As many characters of a class. -/
theorem rep (n : ℕ) (c : Char → Bool) : Reads (rep n (.char c)) fun l => l.length = n ∧
    ∀ x ∈ l, c x = true := by
  induction n with
  | zero => exact empty.mono fun l h => by simp [h]
  | succ n ih =>
    exact ((char c).seq ih).mono fun l h => by
      obtain ⟨-, b, ⟨x, hx, rfl⟩, ⟨hlength, hb⟩, rfl⟩ := h
      exact ⟨by rw [List.singleton_append, List.length_cons, hlength], List.forall_mem_cons.2 ⟨hx,
        hb⟩⟩

end Reads

/-- **What a group holds.** -/
theorem mem_runs_group {r : Regexp} {P : List Char → Prop} (h : Reads r P) {p q : Place}
    (hq : q ∈ runs (group r) p) :
    ∃ l, P l ∧ p.rest = l ++ q.rest ∧ q.groups = p.groups ++ [l] := by
  rw [runs_group, List.mem_map] at hq
  obtain ⟨m, hm, rfl⟩ := hq
  obtain ⟨l, hl, hrest, hgroups⟩ := h p m hm
  refine ⟨l, hl, hrest, ?_⟩
  rw [hgroups, hrest, List.length_append, Nat.add_sub_cancel, List.take_left]

/-! ### What an expression matches -/

/-- The matches are the texts with `P` and their groups. -/
def Accepts (r : Regexp) (P : List Char → List (List Char) → Prop) : Prop :=
  ∀ p q : Place, q ∈ runs r p ↔
    ∃ l gs, P l gs ∧ p.rest = l ++ q.rest ∧ q.before = l.reverse ++ p.before ∧
    q.groups = p.groups ++ gs

namespace Accepts

variable {r s : Regexp} {P Q : List Char → List (List Char) → Prop}

theorem congr (h : Accepts r P) (hiff : ∀ l gs, P l gs ↔ Q l gs) : Accepts r Q := fun p q => by
  simp only [← hiff]
  exact h p q

theorem empty : Accepts empty fun l gs => l = [] ∧ gs = [] := fun p q => by
  rw [runs_empty, List.mem_singleton]
  constructor
  · rintro rfl
    exact ⟨[], [], ⟨rfl, rfl⟩, rfl, rfl, by rw [List.append_nil]⟩
  · rintro ⟨_, _, ⟨rfl, rfl⟩, hrest, hbefore, hgroups⟩
    rw [List.append_nil] at hgroups
    exact Place.ext hbefore hrest.symm hgroups

theorem char (c : Char → Bool) : Accepts (char c) fun l gs => (∃ x, c x = true ∧ l = [x]) ∧
    gs = [] := fun p q => by
  rw [runs_char]
  constructor
  · intro hq
    cases hrest : p.rest with
    | nil => simp [hrest] at hq
    | cons x rest =>
      rw [hrest] at hq
      dsimp only at hq
      split_ifs at hq with hx
      · obtain rfl := List.mem_singleton.1 hq
        exact ⟨[x], [], ⟨⟨x, hx, rfl⟩, rfl⟩, rfl, rfl, by rw [List.append_nil]⟩
      · cases hq
  · rintro ⟨_, _, ⟨⟨x, hx, rfl⟩, rfl⟩, hrest, hbefore, hgroups⟩
    rw [List.append_nil] at hgroups
    rw [hrest, List.singleton_append]
    dsimp only
    rw [if_pos hx, List.mem_singleton]
    exact Place.ext hbefore rfl hgroups

theorem seq (hr : Accepts r P) (hs : Accepts s Q) :
    Accepts (seq r s) fun l gs => ∃ a ga b gb, P a ga ∧ Q b gb ∧ l = a ++ b ∧ gs = ga ++ gb :=
  fun p q => by
  rw [mem_runs_seq]
  constructor
  · rintro ⟨m, hm, hq⟩
    obtain ⟨a, ga, ha, harest, habefore, hagroups⟩ := (hr p m).1 hm
    obtain ⟨b, gb, hb, hbrest, hbbefore, hbgroups⟩ := (hs m q).1 hq
    refine ⟨a ++ b, ga ++ gb, ⟨a, ga, b, gb, ha, hb, rfl, rfl⟩, ?_, ?_, ?_⟩
    · rw [harest, hbrest, List.append_assoc]
    · rw [hbbefore, habefore, List.reverse_append, List.append_assoc]
    · rw [hbgroups, hagroups, List.append_assoc]
  · rintro ⟨_, _, ⟨a, ga, b, gb, ha, hb, rfl, rfl⟩, hrest, hbefore, hgroups⟩
    rw [List.append_assoc] at hrest
    refine ⟨⟨a.reverse ++ p.before, b ++ q.rest, p.groups ++ ga⟩,
      (hr p _).2 ⟨a, ga, ha, hrest, rfl, rfl⟩, (hs _ q).2 ⟨b, gb, hb, rfl, ?_, ?_⟩⟩
    · rw [hbefore, List.reverse_append, List.append_assoc]
    · rw [hgroups, List.append_assoc]

theorem alt (hr : Accepts r P) (hs : Accepts s Q) : Accepts (alt r s) fun l gs => P l gs ∨ Q l gs :=
  fun p q => by
  rw [runs_alt, List.mem_append, hr p q, hs p q]
  constructor
  · rintro (⟨l, gs, h, hrest⟩ | ⟨l, gs, h, hrest⟩)
    · exact ⟨l, gs, Or.inl h, hrest⟩
    · exact ⟨l, gs, Or.inr h, hrest⟩
  · rintro ⟨l, gs, h | h, hrest⟩
    · exact Or.inl ⟨l, gs, h, hrest⟩
    · exact Or.inr ⟨l, gs, h, hrest⟩

theorem group (h : Accepts r P) : Accepts (group r) fun l gs => ∃ inner, P l inner ∧
    gs = inner ++ [l] := fun p q => by
  rw [runs_group, List.mem_map]
  constructor
  · rintro ⟨m, hm, rfl⟩
    obtain ⟨l, inner, hl, hrest, hbefore, hgroups⟩ := (h p m).1 hm
    refine ⟨l, inner ++ [l], ⟨inner, hl, rfl⟩, hrest, hbefore, ?_⟩
    rw [hgroups, hrest, List.length_append, Nat.add_sub_cancel, List.take_left, List.append_assoc]
  · rintro ⟨l, _, ⟨inner, hl, rfl⟩, hrest, hbefore, hgroups⟩
    refine ⟨⟨q.before, q.rest, p.groups ++ inner⟩, (h p _).2 ⟨l, inner, hl, hrest, hbefore, rfl⟩,
      Place.ext rfl rfl ?_⟩
    rw [hgroups, hrest, List.length_append, Nat.add_sub_cancel, List.take_left, List.append_assoc]

/-- Turns of a loop over a class of characters. -/
private theorem iterate (c : Char → Bool) (fuel : ℕ) (p q : Place) (hfuel : p.rest.length ≤ fuel) :
    q ∈ iterate (runs (.char c)) fuel p ↔ ∃ l, (∀ x ∈ l, c x = true) ∧ p.rest = l ++ q.rest ∧
      q.before = l.reverse ++ p.before ∧ q.groups = p.groups := by
  induction fuel generalizing p with
  | zero =>
    have hnil : p.rest = [] := List.eq_nil_of_length_eq_zero (Nat.le_zero.1 hfuel)
    rw [Regexp.iterate, List.mem_singleton]
    constructor
    · rintro rfl
      exact ⟨[], nofun, rfl, rfl, rfl⟩
    · rintro ⟨l, -, hrest, hbefore, hgroups⟩
      obtain ⟨rfl, hqrest⟩ := List.append_eq_nil_iff.1 (hrest.symm.trans hnil)
      exact Place.ext hbefore (hqrest.trans hnil.symm) hgroups
  | succ fuel ih =>
    rw [iterate_succ, List.mem_append, List.mem_flatMap, List.mem_singleton]
    constructor
    · rintro (⟨m, hm, hq⟩ | rfl)
      · obtain ⟨hm, hlt⟩ := List.mem_filter.1 hm
        obtain ⟨_, _, ⟨⟨x, hx, rfl⟩, rfl⟩, hmrest, hmbefore, hmgroups⟩ := (char c p m).1 hm
        obtain ⟨l, hl, hrest, hbefore, hgroups⟩ :=
          (ih m (by have := of_decide_eq_true hlt; omega)).1 hq
        refine ⟨x :: l, List.forall_mem_cons.2 ⟨hx, hl⟩, ?_, ?_, ?_⟩
        · rw [hmrest, hrest, List.singleton_append, List.cons_append]
        · rw [hbefore, hmbefore, List.reverse_singleton, List.reverse_cons, List.append_assoc]
        · rw [hgroups, hmgroups, List.append_nil]
      · exact ⟨[], nofun, rfl, rfl, rfl⟩
    · rintro ⟨_ | ⟨x, l⟩, hl, hrest, hbefore, hgroups⟩
      · exact Or.inr (Place.ext hbefore hrest.symm hgroups)
      · obtain ⟨hx, hl⟩ := List.forall_mem_cons.1 hl
        rw [List.cons_append] at hrest
        have hlength : p.rest.length = (l ++ q.rest).length + 1 := by rw [hrest, List.length_cons]
        refine Or.inl ⟨⟨x :: p.before, l ++ q.rest, p.groups⟩, List.mem_filter.2 ⟨?_, ?_⟩, ?_⟩
        · exact (char c p _).2 ⟨[x], [], ⟨⟨x, hx, rfl⟩, rfl⟩, hrest, rfl, (List.append_nil _).symm⟩
        · exact decide_eq_true (by dsimp only; omega)
        · refine (ih _ (by dsimp only; omega)).2 ⟨l, hl, rfl, ?_, hgroups⟩
          rw [hbefore, List.reverse_cons, List.append_assoc, List.singleton_append]

/-- Characters of a class. -/
theorem star (c : Char → Bool) : Accepts (star (.char c)) fun l gs => (∀ x ∈ l, c x = true) ∧
    gs = [] := fun p q => by
  rw [runs_star, iterate c _ p q (Nat.le_refl _)]
  constructor
  · rintro ⟨l, hl, hrest, hbefore, hgroups⟩
    exact ⟨l, [], ⟨hl, rfl⟩, hrest, hbefore, by rw [hgroups, List.append_nil]⟩
  · rintro ⟨l, _, ⟨hl, rfl⟩, hrest, hbefore, hgroups⟩
    rw [List.append_nil] at hgroups
    exact ⟨l, hl, hrest, hbefore, hgroups⟩

/-- At least one character of a class. -/
theorem plus (c : Char → Bool) :
    Accepts (plus (.char c)) fun l gs => l ≠ [] ∧ (∀ x ∈ l, c x = true) ∧ gs = [] :=
  ((char c).seq (star c)).congr fun l gs => by
    constructor
    · rintro ⟨_, _, b, _, ⟨⟨x, hx, rfl⟩, rfl⟩, ⟨hb, rfl⟩, rfl, rfl⟩
      exact ⟨nofun, List.forall_mem_cons.2 ⟨hx, hb⟩, rfl⟩
    · rintro ⟨hne, hl, rfl⟩
      obtain ⟨x, b, rfl⟩ := List.exists_cons_of_ne_nil hne
      obtain ⟨hx, hb⟩ := List.forall_mem_cons.1 hl
      exact ⟨[x], [], b, [], ⟨⟨x, hx, rfl⟩, rfl⟩, ⟨hb, rfl⟩, rfl, rfl⟩

theorem text (t : String) : Accepts (text t) fun l gs => l = t.toList ∧ gs = [] := by
  rw [Regexp.text]
  induction t.toList with
  | nil => exact empty
  | cons c cs ih =>
    refine ((char _).seq ih).congr fun l gs => ?_
    constructor
    · rintro ⟨_, _, _, _, ⟨⟨x, hx, rfl⟩, rfl⟩, ⟨rfl, rfl⟩, rfl, rfl⟩
      rw [of_decide_eq_true hx]
      exact ⟨rfl, rfl⟩
    · rintro ⟨rfl, rfl⟩
      exact ⟨[c], [], cs, [], ⟨⟨c, decide_eq_true rfl, rfl⟩, rfl⟩, ⟨rfl, rfl⟩, rfl, rfl⟩

theorem nil : Accepts (all []) fun l gs => l = [] ∧ gs = [] := empty

/-- A text before other expressions. -/
theorem text_then (t : String) {rs : List Regexp} (hs : Accepts (all rs) Q) :
    Accepts (all (.text t :: rs)) fun l gs => ∃ b, Q b gs ∧ l = t.toList ++ b :=
  ((text t).seq hs).congr fun l gs => by
    constructor
    · rintro ⟨_, _, b, gb, ⟨rfl, rfl⟩, hb, rfl, rfl⟩
      exact ⟨b, hb, rfl⟩
    · rintro ⟨b, hb, rfl⟩
      exact ⟨_, [], b, gs, ⟨rfl, rfl⟩, hb, rfl, rfl⟩

/-- A character before other expressions. -/
theorem lit_then (c : Char) {rs : List Regexp} (hs : Accepts (all rs) Q) :
    Accepts (all (lit c :: rs)) fun l gs => ∃ b, Q b gs ∧ l = c :: b :=
  ((char _).seq hs).congr fun l gs => by
    constructor
    · rintro ⟨_, _, b, gb, ⟨⟨x, hx, rfl⟩, rfl⟩, hb, rfl, rfl⟩
      rw [of_decide_eq_true hx]
      exact ⟨b, hb, rfl⟩
    · rintro ⟨b, hb, rfl⟩
      exact ⟨[c], [], b, gs, ⟨⟨c, decide_eq_true rfl, rfl⟩, rfl⟩, hb, rfl, rfl⟩

/-- A group of characters of a class before other expressions. -/
theorem capture_then (c : Char → Bool) {rs : List Regexp} (hs : Accepts (all rs) Q) :
    Accepts (all (.group (.plus (.char c)) :: rs)) fun l gs =>
      ∃ x b gb, (x ≠ [] ∧ ∀ y ∈ x, c y = true) ∧ Q b gb ∧ l = x ++ b ∧ gs = x :: gb :=
  ((plus c).group.seq hs).congr fun l gs => by
    constructor
    · rintro ⟨x, _, b, gb, ⟨_, ⟨hne, hx, rfl⟩, rfl⟩, hb, rfl, rfl⟩
      exact ⟨x, b, gb, ⟨hne, hx⟩, hb, rfl, rfl⟩
    · rintro ⟨x, b, gb, ⟨hne, hx⟩, hb, rfl, rfl⟩
      exact ⟨x, [x], b, gb, ⟨[], ⟨hne, hx, rfl⟩, rfl⟩, hb, rfl, rfl⟩

end Accepts

/-- A match of the whole text starts at its beginning. -/
private theorem findFrom_whole (r : Regexp) (l : List Char) :
    findFrom (whole r) [] l = (runs (whole r) ⟨[], l, []⟩).head? := by
  have hlater : ∀ (rest before : List Char), before ≠ [] →
      findFrom (whole r) before rest = none := by
    intro rest
    induction rest with
    | nil =>
      intro before hne
      simp [findFrom, whole, runs_seq, runs_start, hne]
    | cons c rest ih =>
      intro before hne
      rw [findFrom, ih _ (List.cons_ne_nil c before)]
      simp [whole, runs_seq, runs_start, hne]
  cases l with
  | nil => rfl
  | cons c rest => rw [findFrom, hlater rest _ (List.cons_ne_nil c []), Option.or_none]

/-- **The match of a whole text**, where the text determines the groups. -/
theorem find_whole_iff {r : Regexp} {P : List Char → List (List Char) → Prop} (h : Accepts r P)
    (hone : ∀ l gs gs', P l gs → P l gs' → gs = gs') {s : String} {found : List String} :
    find (whole r) s = some found ↔ ∃ gs, P s.toList gs ∧ found = gs.map String.ofList := by
  have hruns : ∀ q, q ∈ runs (whole r) ⟨[], s.toList, []⟩ ↔ ∃ gs, P s.toList gs ∧
      q = ⟨s.toList.reverse, [], gs⟩ := by
    intro q
    rw [whole, mem_runs_seq]
    constructor
    · rintro ⟨m, hm, hq⟩
      obtain rfl := List.mem_singleton.1 hm
      obtain ⟨n, hn, hq⟩ := mem_runs_seq.1 hq
      rw [runs_stop] at hq
      split_ifs at hq with hstop
      · obtain rfl := List.mem_singleton.1 hq
        obtain ⟨l, gs, hl, hrest, hbefore, hgroups⟩ := (h _ q).1 hn
        rw [hstop, List.append_nil] at hrest
        obtain rfl : s.toList = l := hrest
        exact ⟨gs, hl, Place.ext (hbefore.trans (List.append_nil _)) hstop hgroups⟩
      · cases hq
    · rintro ⟨gs, hgs, rfl⟩
      refine ⟨⟨[], s.toList, []⟩, List.mem_singleton.2 rfl,
        mem_runs_seq.2 ⟨⟨s.toList.reverse, [], gs⟩, ?_, ?_⟩⟩
      · exact (h _ _).2 ⟨s.toList, gs, hgs, (List.append_nil _).symm, (List.append_nil _).symm, rfl⟩
      · exact List.mem_singleton.2 rfl
  rw [find, findFrom_whole, Option.map_eq_some_iff]
  constructor
  · rintro ⟨q, hq, rfl⟩
    obtain ⟨gs, hgs, rfl⟩ := (hruns q).1 (List.mem_of_mem_head? hq)
    exact ⟨gs, hgs, rfl⟩
  · rintro ⟨gs, hgs, rfl⟩
    obtain ⟨q, hq⟩ :=
      Option.isSome_iff_exists.1
        (List.isSome_head?.2 (List.ne_nil_of_mem ((hruns _).2 ⟨gs, hgs, rfl⟩)))
    obtain ⟨gs', hgs', rfl⟩ := (hruns q).1 (List.mem_of_mem_head? hq)
    exact ⟨_, hq, by rw [hone _ _ _ hgs' hgs]⟩

end Regexp
