import Mathlib.Data.List.Basic
import Mathlib.Logic.Function.Basic

/-!
# Rows put into tables one after another

A transaction that only inserts rows. Each statement is refused, or puts its row at the end of its
table, and the transaction stops at the first statement that is refused.

## Main definitions

* `Inserts.Engine`: what a statement stores, and when it is accepted.
* `Inserts.Engine.Accepted`: every statement is accepted after the ones before it.
* `Inserts.Engine.insert`: one statement.
* `Inserts.Engine.Does`: a part of a program that runs statements.
* `Inserts.Rules`: columns, keys and references that a database asks of its rows.

## Main results

* `Inserts.Engine.Does.bind`: two parts one after the other.
* `Inserts.Engine.putAll_tableByTable`: the rows of a table after a transaction.
* `Inserts.Rules.mem_before`: what a row points to is inserted before it.
* `Inserts.Rules.accepted_tableByTable`: when the statements of all tables are accepted.
-/

namespace Inserts

/-- The rows of each table. -/
abbrev Tables (ρ : Type) : Type := String → List ρ

/-- A database that takes rows of type `ρ` from statements with arguments of type `α`. -/
structure Engine (α ρ : Type) where
  /-- The row that a statement stores. -/
  row : String → α → ρ
  /-- Is the statement accepted? -/
  accepts : Tables ρ → String → α → Bool

namespace Engine

variable {α ρ : Type} (E : Engine α ρ)

/-- The tables after a statement. -/
def put (db : Tables ρ) (s : String × α) : Tables ρ :=
  Function.update db s.1 (db s.1 ++ [E.row s.1 s.2])

/-- The tables after the statements. -/
def putAll (db : Tables ρ) (ss : List (String × α)) : Tables ρ := ss.foldl E.put db

/-- Every statement is accepted after the ones before it. -/
def Accepted : Tables ρ → List (String × α) → Prop
  | _, [] => True
  | db, s :: ss => E.accepts db s.1 s.2 = true ∧ Accepted (E.put db s) ss

/-- One statement, with the error that it gives when it is refused. -/
def insert {ε : Type} (e : ε) (s : String × α) (db : Tables ρ) : Except ε (Tables ρ) :=
  if E.accepts db s.1 s.2 then .ok (E.put db s) else .error e

/-- A part of a program runs the statements `ss` and is stopped by those that are refused. -/
def Does {ε : Type} (x : Tables ρ → Except ε (Tables ρ)) (ss : List (String × α)) : Prop :=
  ∀ db db', x db = .ok db' ↔ E.Accepted db ss ∧ db' = E.putAll db ss

theorem put_apply (db : Tables ρ) (s : String × α) (t : String) :
    E.put db s t = if s.1 = t then db t ++ [E.row t s.2] else db t := by
  rw [put]
  split_ifs with h
  · subst h
    exact Function.update_self _ _ _
  · exact Function.update_of_ne (Ne.symm h) _ _

/-- **The rows of a table** after the statements. -/
theorem putAll_apply (db : Tables ρ) (ss : List (String × α)) (t : String) :
    E.putAll db ss t = db t ++ (ss.filter (·.1 = t)).map fun s => E.row t s.2 := by
  induction ss generalizing db with
  | nil => simp [putAll]
  | cons s ss ih =>
    have hstep : E.putAll db (s :: ss) = E.putAll (E.put db s) ss := rfl
    rw [hstep, ih, put_apply]
    by_cases h : s.1 = t <;> simp [h]

theorem accepted_append {db : Tables ρ} {ss ss' : List (String × α)} :
    E.Accepted db (ss ++ ss') ↔ E.Accepted db ss ∧ E.Accepted (E.putAll db ss) ss' := by
  induction ss generalizing db with
  | nil => exact (and_iff_right trivial).symm
  | cons s ss ih =>
    rw [List.cons_append, Accepted, Accepted, ih, and_assoc]
    rfl

theorem putAll_append (db : Tables ρ) (ss ss' : List (String × α)) :
    E.putAll db (ss ++ ss') = E.putAll (E.putAll db ss) ss' := List.foldl_append

theorem does_nothing {ε : Type} : E.Does (Except.ok (ε := ε)) [] := fun db db' => by
  rw [Except.ok.injEq, eq_comm]
  exact (and_iff_right trivial).symm

theorem does_insert {ε : Type} (e : ε) (s : String × α) : E.Does (E.insert e s) [s] := by
  intro db db'
  rw [insert, Accepted]
  split_ifs with h
  · rw [Except.ok.injEq, eq_comm, eq_true h, true_and]
    exact (and_iff_right trivial).symm
  · exact iff_of_false nofun fun h' => h h'.1.1

/-- The statements that insert the rows `args t` into each table `t` of a list. -/
def tableByTable (ts : List String) (args : String → List α) : List (String × α) :=
  ts.flatMap fun t => (args t).map fun a => (t, a)

/-- **The rows of a table**, after statements table by table. -/
theorem putAll_tableByTable (db : Tables ρ) {ts : List String} (hts : ts.Nodup)
    (args : String → List α) (t : String) :
    E.putAll db (tableByTable ts args) t =
      db t ++ if t ∈ ts then (args t).map (E.row t) else [] := by
  rw [putAll_apply]
  congr 1
  induction ts with
  | nil => rfl
  | cons u ts ih =>
    obtain ⟨hu, hts'⟩ := List.nodup_cons.1 hts
    rw [tableByTable, List.flatMap_cons, List.filter_append, List.map_append,
      ← tableByTable, ih hts']
    by_cases h : u = t
    · subst h
      simp [hu, List.filter_map, Function.comp_def]
    · simp [Ne.symm h, h, List.filter_map, Function.comp_def]

variable {E}

/-- **Two parts one after the other.** -/
theorem Does.bind {ε : Type} {x y : Tables ρ → Except ε (Tables ρ)} {ss ss' : List (String × α)}
    (hx : E.Does x ss) (hy : E.Does y ss') : E.Does (fun db => x db >>= y) (ss ++ ss') := by
  intro db db'
  rw [accepted_append, putAll_append, and_assoc, ← hy]
  show x db >>= y = .ok db' ↔ _
  cases h : x db with
  | ok mid =>
    obtain ⟨hacc, rfl⟩ := (hx db mid).1 h
    exact (and_iff_right hacc).symm
  | error e =>
    refine iff_of_false nofun fun h' => ?_
    rw [(hx db _).2 ⟨h'.1, rfl⟩] at h
    cases h

end Engine

/-! ### Tables with keys -/

/-- What a database asks of its rows: their columns and types, keys that no two rows of a table
share, and rows of other tables that a row points to. -/
structure Rules (α ρ : Type) where
  /-- The row that a statement stores. -/
  row : String → α → ρ
  /-- Do the arguments fit the columns of the table? -/
  typed : String → α → Bool
  /-- Do two rows of a table share a key? -/
  clash : String → ρ → ρ → Bool
  /-- The tables that a row points into, with the rows that it may point to. -/
  targets : String → ρ → List (String × (ρ → Bool))

namespace Rules

variable {α ρ : Type} (R : Rules α ρ)

/-- A row points to rows that are there. -/
def Pointed (db : Tables ρ) (t : String) (r : ρ) : Prop :=
  ∀ p ∈ R.targets t r, ∃ r' ∈ db p.1, p.2 r' = true

instance (db : Tables ρ) (t : String) (r : ρ) : Decidable (R.Pointed db t r) :=
  inferInstanceAs (Decidable (∀ p ∈ R.targets t r, ∃ r' ∈ db p.1, p.2 r' = true))

/-- The database that holds its rows to the rules. -/
def engine : Engine α ρ where
  row := R.row
  accepts db t a :=
    R.typed t a && (db t).all (fun r => !R.clash t r (R.row t a)) &&
      decide (R.Pointed db t (R.row t a))

/-- The rows of a table do not share a key. -/
def Distinct (t : String) (rows : List ρ) : Prop := rows.Pairwise fun r r' => R.clash t r r' = false

/-- A list of tables in which the rows of each point into tables that are not further on. -/
def Ordered (ts : List String) : Prop :=
  ts.Nodup ∧ ts.Pairwise (fun t u => ∀ r, ∀ p ∈ R.targets t r, p.1 ≠ u) ∧
    ∀ t ∈ ts, ∀ r, ∀ p ∈ R.targets t r, p.1 ≠ t

theorem accepts_iff {db : Tables ρ} {t : String} {a : α} :
    R.engine.accepts db t a = true ↔
      R.typed t a = true ∧ (∀ r ∈ db t, R.clash t r (R.row t a) = false) ∧
        R.Pointed db t (R.row t a) := by
  simp [engine, and_assoc]

theorem Pointed.congr {db db' : Tables ρ} {t : String} {r : ρ}
    (h : ∀ p ∈ R.targets t r, db p.1 = db' p.1) : R.Pointed db t r ↔ R.Pointed db' t r :=
  forall₂_congr fun p hp => by rw [h p hp]

/-- **The rows that a row points to are inserted before it**, when the statements go table by
table. -/
theorem mem_before {ts : List String} (hts : R.Ordered ts) {args : String → List α}
    {before after : List (String × α)} {s : String × α}
    (h : Engine.tableByTable ts args = before ++ s :: after) {r : ρ} {p : String × (ρ → Bool)}
    (hp : p ∈ R.targets s.1 r) (hu : p.1 ∈ ts) {b : α} (hb : b ∈ args p.1) : (p.1, b) ∈ before := by
  obtain ⟨-, hlater, hself⟩ := hts
  have htable {v : String × α} (hv : v ∈ Engine.tableByTable ts args) : v.1 ∈ ts := by
    obtain ⟨t, ht, hv⟩ := List.mem_flatMap.1 hv
    obtain ⟨a, -, rfl⟩ := List.mem_map.1 hv
    exact ht
  have hs : s.1 ∈ ts := htable (by rw [h]; exact List.mem_append_right _ List.mem_cons_self)
  -- no statement points into the table of a later one
  have hpair : (Engine.tableByTable ts args).Pairwise
      fun v w => ∀ r, ∀ p ∈ R.targets v.1 r, p.1 ≠ w.1 := by
    rw [Engine.tableByTable, List.pairwise_flatMap]
    refine ⟨fun t ht => ?_, hlater.imp fun hne v hv w hw => ?_⟩
    · rw [List.pairwise_map]
      exact List.pairwise_of_forall fun a b => hself t ht
    · obtain ⟨a, -, rfl⟩ := List.mem_map.1 hv
      obtain ⟨b, -, rfl⟩ := List.mem_map.1 hw
      exact hne
  have hmem : (p.1, b) ∈ Engine.tableByTable ts args :=
    List.mem_flatMap.2 ⟨p.1, hu, List.mem_map_of_mem hb⟩
  rw [h] at hmem hpair
  rcases List.mem_append.1 hmem with hbefore | hrest
  · exact hbefore
  · rcases List.mem_cons.1 hrest with rfl | hafter
    · exact absurd rfl (hself p.1 hs r p hp)
    · exact absurd rfl ((List.pairwise_cons.1 (List.pairwise_append.1 hpair).2.1).1 _ hafter r p hp)

/-- **The statements of one table** whose rows do not point into it. -/
theorem accepted_table {t : String} (hself : ∀ r, ∀ p ∈ R.targets t r, p.1 ≠ t) (as : List α)
    (db : Tables ρ) (hdb : R.Distinct t (db t)) :
    R.engine.Accepted db (as.map fun a => (t, a)) ↔
      (∀ a ∈ as, R.typed t a = true) ∧ R.Distinct t (db t ++ as.map (R.row t)) ∧
        ∀ a ∈ as, R.Pointed db t (R.row t a) := by
  induction as generalizing db with
  | nil => simpa [Engine.Accepted] using hdb
  | cons a as ih =>
    have hput : R.engine.put db (t, a) t = db t ++ [R.row t a] := by
      rw [Engine.put_apply, if_pos rfl]
      rfl
    have hpointed (b : α) : R.Pointed (R.engine.put db (t, a)) t (R.row t b) ↔
        R.Pointed db t (R.row t b) :=
      Pointed.congr R fun p hp => by
        rw [Engine.put_apply, if_neg (Ne.symm (hself _ p hp))]
    rw [List.map_cons, Engine.Accepted, accepts_iff]
    by_cases hclash : ∀ r ∈ db t, R.clash t r (R.row t a) = false
    · have hdb' : R.Distinct t (R.engine.put db (t, a) t) := by
        rw [hput, Distinct, List.pairwise_append]
        exact ⟨hdb, List.pairwise_singleton _ _, fun r hr r' hr' =>
          List.mem_singleton.1 hr' ▸ hclash r hr⟩
      rw [ih _ hdb', hput, List.append_assoc]
      simp only [List.forall_mem_cons, List.map_cons, List.singleton_append, hpointed]
      tauto
    · refine iff_of_false (fun h => hclash h.1.2.1) fun h => hclash fun r hr => ?_
      exact (List.pairwise_append.1 h.2.1).2.2 r hr _ (List.mem_map_of_mem List.mem_cons_self)

/-- **When the statements of all tables are accepted**: in a database without rows in these tables,
the rows fit their columns, share no key, and point to rows that are there in the end. -/
theorem accepted_tableByTable {ts : List String} (hts : R.Ordered ts) (args : String → List α)
    (db : Tables ρ) (hdb : ∀ t ∈ ts, db t = []) :
    R.engine.Accepted db (Engine.tableByTable ts args) ↔
      ∀ t ∈ ts, (∀ a ∈ args t, R.typed t a = true) ∧ R.Distinct t ((args t).map (R.row t)) ∧
        ∀ a ∈ args t,
          R.Pointed (R.engine.putAll db (Engine.tableByTable ts args)) t (R.row t a) := by
  induction ts generalizing db with
  | nil => simp [Engine.tableByTable, Engine.Accepted]
  | cons t ts ih =>
    obtain ⟨hnodup, hlater, hself⟩ := hts
    obtain ⟨hnot, hnodup'⟩ := List.nodup_cons.1 hnodup
    obtain ⟨hlater', hlater''⟩ := List.pairwise_cons.1 hlater
    obtain ⟨hself', hself''⟩ := List.forall_mem_cons.1 hself
    have hempty : db t = [] := hdb t List.mem_cons_self
    have hsplit : Engine.tableByTable (t :: ts) args =
        (args t).map (fun a => (t, a)) ++ Engine.tableByTable ts args := List.flatMap_cons
    -- the table of this step has its rows, and the later tables none
    have hstep (u : String) : R.engine.putAll db ((args t).map fun a => (t, a)) u =
        if u = t then (args t).map (R.row t) else db u := by
      have hone : [t].Nodup := List.pairwise_singleton _ t
      have h := R.engine.putAll_tableByTable db hone args u
      rw [Engine.tableByTable, List.flatMap_singleton] at h
      simp only [h, List.mem_singleton]
      split_ifs with hu
      · subst hu
        rw [hempty]
        rfl
      · exact List.append_nil _
    have hlast (r : ρ) : R.Pointed db t r ↔
        R.Pointed (R.engine.putAll db (Engine.tableByTable (t :: ts) args)) t r := by
      refine Pointed.congr R fun p hp => ?_
      have hp' : p.1 ∉ t :: ts := by
        rw [List.mem_cons, not_or]
        exact ⟨hself' r p hp, fun h => hlater' _ h r p hp rfl⟩
      rw [Engine.putAll_tableByTable _ _ hnodup, if_neg hp', List.append_nil]
    have hrest : ∀ u ∈ ts, R.engine.putAll db ((args t).map fun a => (t, a)) u = [] := by
      intro u hu
      have hne : u ≠ t := fun h => hnot (h ▸ hu)
      rw [hstep, if_neg hne, hdb u (List.mem_cons_of_mem _ hu)]
    rw [List.forall_mem_cons, hsplit, Engine.accepted_append,
      accepted_table R hself' _ _ (by rw [hempty]; exact List.Pairwise.nil),
      hempty, List.nil_append, ih ⟨hnodup', hlater'', hself''⟩ _ hrest,
      ← Engine.putAll_append, ← hsplit]
    simp only [hlast]

end Rules

end Inserts
