import Mathlib.Data.Int.Notation
import Mathlib.Data.List.Perm.Subperm
import Mathlib.Data.List.Sort
import OpenvpnControl.Library.Processes
import OpenvpnControl.Library.Rows

/-!
# Migrations at the start of the panel

`Run` goes through the sorted migrations and asks the database for each whether it is applied. If it
is not, its SQL and its record are executed in one transaction. Nothing keeps two starts from asking
at the same time, and a file that cannot be looked at is skipped as if it were not there. This file
says under which condition on the statements the schema is always the result of a prefix of the
migrations.

## Main definitions

* `MigrationsDir`, `names`, `migrations`: the directory, and its migrations in their order.
* `applyOne`, `runAct`: the transaction of one migration, and a start, statement by statement.
* `AppliedPrefix`: the schema is that of a prefix of the migrations, and the prefix is recorded.
* `StepSafe`: the condition on a statement.

## Main results

* `recorded_applyOne`: what the transaction leaves.
* `appliedPrefix_run`: in runs whose statements meet the condition a prefix is applied.
* `migration_applied_twice`: two starts that overlap apply a migration twice.
-/

namespace OpenvpnControl.Migrate

open Processes (State)

/-- An entry of the migrations directory, with the text of its `migration.sql` if it has one. -/
structure DirEntry where
  name : String
  isDir : Bool
  sql : Option String
  deriving DecidableEq

/-- The migrations directory, where no two entries have one name. -/
structure MigrationsDir where
  entries : List DirEntry
  nodup : (entries.map (·.name)).Nodup

/-- A row of `_prisma_migrations`. -/
structure PrismaMigration where
  id : String
  migrationName : String
  finishedAt : Option ℤ
  deriving DecidableEq

/-- The database: the schema that the migrations change, and the table of the migrations once it is
created. -/
structure Db (σ : Type) where
  schema : σ
  table : Option (List PrismaMigration)

/-- What happens to a statement: it fails, or it is executed, with the id and the time that a row
which is inserted gets. -/
inductive Answer where
  | fails
  | executes (id : String) (now : ℤ)
  deriving DecidableEq

/-! ### The directory -/

/-- The names of the directories, sorted. -/
def names (dir : MigrationsDir) : List String :=
  ((dir.entries.filter (·.isDir)).map (·.name)).insertionSort (· ≤ ·)

/-- The text of the `migration.sql` of a directory, if it has one. -/
def sqlOf (dir : MigrationsDir) (name : String) : Option String :=
  (dir.entries.find? fun entry => entry.name = name).bind (·.sql)

/-- The migrations of the listed directories. -/
def migrationsOf (dir : MigrationsDir) (names : List String) : List (String × String) :=
  names.filterMap fun name => (sqlOf dir name).map fun sql => (name, sql)

/-- The migrations in the order of their names. -/
def migrations (dir : MigrationsDir) : List (String × String) := migrationsOf dir (names dir)

/-! ### A start -/

variable {σ : Type}

/-- `isApplied`, on the rows of the table. -/
def isApplied (rows : List PrismaMigration) (name : String) : Bool :=
  0 < rows.countP fun r => r.migrationName = name ∧ r.finishedAt.isSome

/-- The transaction of `applyOne`, where `exec` executes the text of a migration. -/
def applyOne (exec : String → σ → Option σ) (id : String) (now : ℤ) (name sql : String) (w : Db σ) :
    Option (Db σ) := do
  let rows ← w.table
  let rows ← Rows.insertUnique (·.id) ⟨id, name, none⟩ rows
  let schema ← exec sql w.schema
  return ⟨schema, some (Rows.updateWhere (fun r => r.id = id)
    (fun r => { r with finishedAt := some now }) rows)⟩

/-- How far a start is: before its first statement, before it looks at the first of the names that
remain, before it asks whether a migration is applied, before the transaction of one that is not, or
at its end. -/
inductive Phase where
  | idle
  | next (rest : List String)
  | found (name sql : String) (rest : List String)
  | missing (name sql : String) (rest : List String)
  | finished

/-- The next statement of `Run`. A statement that fails ends it, but for `os.Stat`: then the
migration is skipped. -/
def runAct (dir : MigrationsDir) (exec : String → σ → Option σ) :
    Phase → Answer → Db σ → Option (Phase × Db σ)
  | .idle, .fails, w => some (.finished, w)
  | .idle, .executes _ _, w => some (.next (names dir), { w with table := some (w.table.getD []) })
  | .next [], _, w => some (.finished, w)
  | .next (name :: rest), answer, w =>
    match answer, sqlOf dir name with
    | .executes _ _, some sql => some (.found name sql rest, w)
    | _, _ => some (.next rest, w)
  | .found name sql rest, answer, w =>
    match answer, w.table with
    | .executes _ _, some rows =>
      some (if isApplied rows name then .next rest else .missing name sql rest, w)
    | _, _ => some (.finished, w)
  | .missing _ _ _, .fails, w => some (.finished, w)
  | .missing name sql rest, .executes id now, w =>
    match applyOne exec id now name sql w with
    | some w' => some (.next rest, w')
    | none => some (.finished, w)
  | .finished, _, _ => none

/-! ### Prefixes -/

/-- The names recorded with `finished_at`. -/
def recorded (w : Db σ) : List String :=
  ((w.table.getD []).filter fun r => r.finishedAt.isSome).map (·.migrationName)

/-- The schema after the listed migrations. -/
def schemaAfter (exec : String → σ → Option σ) (base : σ)
    (ms : List (String × String)) : Option σ :=
  ms.foldlM (fun schema m => exec m.2 schema) base

/-- **A prefix of the migrations is applied**, each once, and it is what the table records. -/
def AppliedPrefix (dir : MigrationsDir) (exec : String → σ → Option σ) (base : σ)
    (w : Db σ) : Prop :=
  ∃ k, schemaAfter exec base ((migrations dir).take k) = some w.schema ∧
    recorded w = ((migrations dir).take k).map (·.1)

variable {ι : Type*}

/-- **The condition on a statement of a run**: a migration is not skipped because `os.Stat` fails,
and when its transaction runs it is still not applied. -/
def StepSafe (dir : MigrationsDir) (s : State ι (Db σ) Phase) (event : ι × Answer) : Prop :=
  match s.phase event.1 with
  | .next (name :: _) => event.2 = .fails → sqlOf dir name = none
  | .missing name _ _ => event.2 ≠ .fails → name ∉ recorded s.world
  | _ => True

instance (dir : MigrationsDir) (s : State Bool (Db σ) Phase) (event : Bool × Answer) :
    Decidable (StepSafe dir s event) := by
  unfold StepSafe
  split <;> infer_instance

/-- What a start relies on: the migrations it has passed are recorded, and the one it has found is
the next one of the directory. -/
def Passed (dir : MigrationsDir) : Phase → Db σ → Prop
  | .next rest, w => ∃ done, names dir = done ++ rest ∧
      ∀ name ∈ (migrationsOf dir done).map (·.1), name ∈ recorded w
  | .found name sql rest, w | .missing name sql rest, w =>
      ∃ done, names dir = done ++ name :: rest ∧
      sqlOf dir name = some sql ∧ ∀ name ∈ (migrationsOf dir done).map (·.1), name ∈ recorded w
  | _, _ => True

variable {dir : MigrationsDir} {exec : String → σ → Option σ} {base : σ} {w w' : Db σ}
  {p p' : Phase} {answer : Answer} {name sql : String}

theorem nodup_names (dir : MigrationsDir) : (names dir).Nodup := by
  rw [names, (List.perm_insertionSort _ _).nodup_iff]
  exact dir.nodup.sublist (List.filter_sublist.map _)

/-- The names of the migrations are the names of the directories that have one. -/
theorem map_migrationsOf (dir : MigrationsDir) (ns : List String) :
    (migrationsOf dir ns).map (·.1) = ns.filter fun name => (sqlOf dir name).isSome := by
  induction ns with
  | nil => rfl
  | cons name ns ih =>
    rw [migrationsOf, List.filterMap_cons]
    cases hsql : sqlOf dir name with
    | none => simpa [migrationsOf, hsql] using ih
    | some sql => simpa [migrationsOf, hsql] using ih

theorem nodup_migrations (dir : MigrationsDir) : ((migrations dir).map (·.1)).Nodup := by
  rw [migrations, map_migrationsOf]
  exact (nodup_names dir).sublist List.filter_sublist

theorem migrationsOf_append (dir : MigrationsDir) (ns ms : List String) :
    migrationsOf dir (ns ++ ms) = migrationsOf dir ns ++ migrationsOf dir ms :=
  List.filterMap_append

theorem migrationsOf_cons_of_some {rest : List String} (h : sqlOf dir name = some sql) :
    migrationsOf dir (name :: rest) = (name, sql) :: migrationsOf dir rest := by
  rw [migrationsOf, List.filterMap_cons, h]
  rfl

theorem isApplied_iff {rows : List PrismaMigration} (h : w.table = some rows) :
    isApplied rows name = true ↔ name ∈ recorded w := by
  rw [isApplied, decide_eq_true_iff, List.countP_pos_iff, recorded, h, Option.getD_some]
  simp only [List.mem_map, List.mem_filter, decide_eq_true_iff]
  constructor
  · rintro ⟨r, hr, hname, hdone⟩
    exact ⟨r, ⟨hr, hdone⟩, hname⟩
  · rintro ⟨r, ⟨hr, hdone⟩, hname⟩
    exact ⟨r, hr, hname, hdone⟩

/-- **What the transaction of a migration leaves.** -/
theorem recorded_applyOne {id : String} {now : ℤ} (h : applyOne exec id now name sql w = some w') :
    exec sql w.schema = some w'.schema ∧ recorded w' = recorded w ++ [name] := by
  simp only [applyOne, Option.bind_eq_bind, Option.bind_eq_some_iff, Option.pure_def,
    Option.some.injEq] at h
  obtain ⟨rows, htable, rows', hinsert, schema, hexec, rfl⟩ := h
  obtain ⟨hfresh, rfl⟩ := Rows.insertUnique_eq_some.1 hinsert
  refine ⟨hexec, ?_⟩
  have hold : Rows.updateWhere (fun r => decide (r.id = id))
      (fun r => { r with finishedAt := some now }) rows = rows := by
    refine Rows.updateWhere_eq_self fun r hr => ?_
    exact decide_eq_false fun hid => hfresh (List.mem_map.2 ⟨r, hr, hid⟩)
  rw [Rows.updateWhere] at hold
  rw [recorded, recorded, htable, Option.getD_some, Option.getD_some,
    Rows.updateWhere, List.map_append, hold, List.filter_append, List.map_append]
  simp

/-! ### The outline -/

/-- A migration that is applied after all migrations before it, and was not applied, makes the
prefix longer. -/
theorem AppliedPrefix.apply (h : AppliedPrefix dir exec base w) {done rest : List String}
    (hnames : names dir = done ++ name :: rest) (hsql : sqlOf dir name = some sql)
    (hpassed : ∀ n ∈ (migrationsOf dir done).map (·.1), n ∈ recorded w) (hnot : name ∉ recorded w)
    {id : String} {now : ℤ} (happly : applyOne exec id now name sql w = some w') :
    AppliedPrefix dir exec base w' := by
  obtain ⟨k, hschema, hrecorded⟩ := h
  have hsplit : migrations dir =
      migrationsOf dir done ++ (name, sql) :: migrationsOf dir rest := by
    rw [migrations, hnames, migrationsOf_append, migrationsOf_cons_of_some hsql]
  have hnodup : ((migrationsOf dir done).map (·.1)).Nodup := by
    have := nodup_migrations dir
    rw [hsplit, List.map_append] at this
    exact this.of_append_left
  rw [hrecorded] at hnot hpassed
  rw [hsplit] at hschema hrecorded hnot hpassed
  generalize migrationsOf dir done = before at *
  -- the prefix ends before the migration, and has all that are before it
  have hle : k ≤ before.length := by
    by_contra hlt
    refine hnot (List.mem_map.2 ⟨(name, sql), ?_, rfl⟩)
    rw [List.take_append]
    refine List.mem_append_right _ ?_
    obtain ⟨n, hn⟩ := Nat.exists_eq_add_of_lt (Nat.lt_of_not_le hlt)
    rw [show k - before.length = n + 1 by omega, List.take_succ_cons]
    exact List.mem_cons_self
  have hge : before.length ≤ k := by
    have hsub := (List.subperm_of_subset hnodup fun n hn => hpassed n hn).length_le
    rw [List.length_map, List.length_map, List.length_take] at hsub
    omega
  obtain rfl : k = before.length := Nat.le_antisymm hle hge
  rw [List.take_left] at hschema hrecorded
  obtain ⟨hexec, hnew⟩ := recorded_applyOne happly
  refine ⟨before.length + 1, ?_⟩
  have htake : (migrations dir).take (before.length + 1) = before ++ [(name, sql)] := by
    rw [hsplit, List.append_cons]
    exact List.take_left' (by simp)
  rw [htake]
  constructor
  · rw [schemaAfter, List.foldlM_append, ← schemaAfter, hschema]
    simpa using hexec
  · rw [hnew, hrecorded, List.map_append]
    rfl

/-- What a statement can do to the database: the table is created, or a migration is applied. -/
theorem runAct_cases (h : runAct dir exec p answer w = some (p', w')) :
    (w'.schema = w.schema ∧ recorded w' = recorded w) ∨
      ∃ name sql rest id now, p = .missing name sql rest ∧ answer = .executes id now ∧
        applyOne exec id now name sql w = some w' := by
  cases p with
  | idle =>
    cases answer with
    | fails =>
      cases h
      exact Or.inl ⟨rfl, rfl⟩
    | executes id now =>
      cases h
      exact Or.inl ⟨rfl, rfl⟩
  | next rest =>
    cases rest with
    | nil =>
      cases h
      exact Or.inl ⟨rfl, rfl⟩
    | cons name rest =>
      dsimp only [runAct] at h
      split at h <;> (cases h; exact Or.inl ⟨rfl, rfl⟩)
  | found name sql rest =>
    dsimp only [runAct] at h
    split at h <;> (cases h; exact Or.inl ⟨rfl, rfl⟩)
  | missing name sql rest =>
    cases answer with
    | fails =>
      cases h
      exact Or.inl ⟨rfl, rfl⟩
    | executes id now =>
      dsimp only [runAct] at h
      split at h
      · rename_i w₁ happly
        cases h
        exact Or.inr ⟨name, sql, rest, id, now, rfl, rfl, happly⟩
      · cases h
        exact Or.inl ⟨rfl, rfl⟩
  | finished => cases h

/-- What is recorded stays recorded. -/
theorem recorded_subset (h : runAct dir exec p answer w = some (p', w')) :
    recorded w ⊆ recorded w' := by
  rcases runAct_cases h with ⟨-, hsame⟩ | ⟨name, sql, rest, id, now, -, -, happly⟩
  · rw [hsame]
    exact List.Subset.refl _
  · rw [(recorded_applyOne happly).2]
    exact List.subset_append_left _ _

theorem Passed.mono (h : Passed dir p w) (hsub : recorded w ⊆ recorded w') : Passed dir p w' := by
  cases p with
  | next rest =>
    obtain ⟨done, hnames, hpassed⟩ := h
    exact ⟨done, hnames, fun n hn => hsub (hpassed n hn)⟩
  | found name sql rest =>
    obtain ⟨done, hnames, hsql, hpassed⟩ := h
    exact ⟨done, hnames, hsql, fun n hn => hsub (hpassed n hn)⟩
  | missing name sql rest =>
    obtain ⟨done, hnames, hsql, hpassed⟩ := h
    exact ⟨done, hnames, hsql, fun n hn => hsub (hpassed n hn)⟩
  | idle => trivial
  | finished => trivial

/-- A migration is passed once it is recorded. -/
theorem Passed.next {done rest : List String} (hnames : names dir = done ++ name :: rest)
    (hpassed : ∀ n ∈ (migrationsOf dir done).map (·.1), n ∈ recorded w)
    (hname : (sqlOf dir name).isSome = true → name ∈ recorded w) : Passed dir (.next rest) w := by
  refine ⟨done ++ [name], by rw [hnames, List.append_cons], fun n hn => ?_⟩
  rw [map_migrationsOf, List.filter_append, List.mem_append, ← map_migrationsOf] at hn
  rcases hn with hn | hn
  · exact hpassed n hn
  · obtain ⟨hn, hsql⟩ := List.mem_filter.1 hn
    obtain rfl := List.mem_singleton.1 hn
    exact hname hsql

/-- **The outline of the starts.** -/
theorem runOutline (dir : MigrationsDir) (exec : String → σ → Option σ) (base : σ) :
    Processes.Outline (fun _ : ι => runAct dir exec) (StepSafe dir) (AppliedPrefix dir exec base)
      (fun _ => Passed dir) where
  own {s i answer p w} hinv hassert hok hact := by
    have hself := hassert i
    rw [StepSafe] at hok
    dsimp only at hok
    have hsub := recorded_subset hact
    constructor
    · rcases runAct_cases hact with ⟨hschema, hsame⟩ | ⟨name, sql, rest, id,
        now, hphase, rfl, happly⟩
      · obtain ⟨k, hk⟩ := hinv
        exact ⟨k, by rwa [hschema, hsame]⟩
      · rw [hphase] at hself hok
        obtain ⟨done, hnames, hsql, hpassed⟩ := hself
        exact hinv.apply hnames hsql hpassed (hok nofun) happly
    · cases hphase : s.phase i with
      | idle =>
        rw [hphase] at hact
        cases answer with
        | fails =>
          cases hact
          trivial
        | executes id now =>
          cases hact
          exact ⟨[], rfl, fun n hn => absurd hn List.not_mem_nil⟩
      | next rest =>
        rw [hphase] at hact hself hok
        cases rest with
        | nil =>
          cases hact
          trivial
        | cons name rest =>
          obtain ⟨done, hnames, hpassed⟩ := hself
          cases answer with
          | fails =>
            cases hact
            refine Passed.next hnames hpassed fun hsome => ?_
            rw [hok rfl] at hsome
            cases hsome
          | executes id now =>
            cases hsql : sqlOf dir name with
            | some sql =>
              dsimp only [runAct] at hact
              rw [hsql] at hact
              cases hact
              exact ⟨done, hnames, hsql, hpassed⟩
            | none =>
              dsimp only [runAct] at hact
              rw [hsql] at hact
              cases hact
              refine Passed.next hnames hpassed fun hsome => ?_
              rw [hsql] at hsome
              cases hsome
      | found name sql rest =>
        rw [hphase] at hact hself
        obtain ⟨done, hnames, hsql, hpassed⟩ := hself
        dsimp only [runAct] at hact
        split at hact
        · rename_i rows htable
          cases hact
          split_ifs with happlied
          · exact Passed.next hnames hpassed fun _ => (isApplied_iff htable).1 happlied
          · exact ⟨done, hnames, hsql, hpassed⟩
        · cases hact
          trivial
      | missing name sql rest =>
        rw [hphase] at hact hself
        obtain ⟨done, hnames, hsql, hpassed⟩ := hself
        cases answer with
        | fails =>
          cases hact
          trivial
        | executes id now =>
          dsimp only [runAct] at hact
          split at hact
          · rename_i w₁ happly
            cases hact
            refine Passed.next hnames (fun n hn => hsub (hpassed n hn)) fun _ => ?_
            rw [(recorded_applyOne happly).2]
            exact List.mem_append_right _ (List.mem_singleton_self _)
          · cases hact
            trivial
      | finished =>
        rw [hphase] at hact
        cases hact
  others {s i j answer p w} _ _ hassert _ hact := (hassert j).mono (recorded_subset hact)

variable [DecidableEq ι]

/-- **A prefix of the migrations is always applied**, each once and in order, in every run of starts
whose statements meet the condition. -/
theorem appliedPrefix_run {events : List (ι × Answer)} {t : State ι (Db σ) Phase}
    (hstart : AppliedPrefix dir exec base w)
    (hok : Runs.Meets (Processes.step fun _ => runAct dir exec) (StepSafe dir) ⟨w, fun _ => .idle⟩
      events)
    (hrun : Runs.run (Processes.step fun _ => runAct dir exec) ⟨w,
      fun _ => .idle⟩ events = some t) :
    AppliedPrefix dir exec base t.world := by
  have hinit : Processes.Holds (AppliedPrefix dir exec base) (fun _ : ι => Passed dir)
      ⟨w, fun _ => .idle⟩ := ⟨hstart, fun _ => trivial⟩
  exact ((runOutline dir exec base).run hinit hok hrun).1

/-- Two migrations. -/
private def twoMigrations : MigrationsDir :=
  ⟨[⟨"002_users", true, some "b"⟩, ⟨"001_init", true, some "a"⟩, ⟨"lock.toml", false, none⟩],
    by decide⟩

/-- A schema as the texts that made it. -/
private def appendText (sql : String) (schema : List String) : Option (List String) :=
  some (schema ++ [sql])

/-- An empty database. -/
private def emptyDb : Db (List String) := ⟨[], none⟩

/-- A statement that is executed, with an id and a time. -/
private def executed (i : Bool) (id : String) : Bool × Answer := (i, .executes id 0)

/-- The second start asks for the first migration after the first start has applied it. -/
private def oneAfterTheOther : List (Bool × Answer) :=
  [executed false "", executed true "", executed false "", executed false "", executed false "k1",
    executed true "", executed true "", executed true "", executed true "", executed true "k2"]

private theorem appliedPrefix_emptyDb : AppliedPrefix twoMigrations appendText [] emptyDb :=
  ⟨0, rfl, rfl⟩

theorem appliedPrefix_run_oneAfterTheOther :
    ∃ t, Runs.run (Processes.step fun _ => runAct twoMigrations appendText)
        ⟨emptyDb, fun _ => .idle⟩ oneAfterTheOther = some t ∧ AppliedPrefix twoMigrations appendText [] t.world := by
  obtain ⟨t, hrun⟩ := Option.isSome_iff_exists.1 (show (Runs.run
    (Processes.step fun _ => runAct twoMigrations appendText) ⟨emptyDb, fun _ => .idle⟩
    oneAfterTheOther).isSome = true by decide +kernel)
  exact ⟨t, hrun, appliedPrefix_run appliedPrefix_emptyDb (by decide +kernel) hrun⟩

/-- **A migration is applied twice**: two starts ask for it before either has applied it. -/
theorem migration_applied_twice :
    ¬∀ (dir : MigrationsDir) (exec : String → List String → Option (List String))
      (w : Db (List String)) (events : List (Bool × Answer))
      (t : State Bool (Db (List String)) Phase), AppliedPrefix dir exec [] w →
      Runs.run (Processes.step fun _ => runAct dir exec) ⟨w, fun _ => .idle⟩ events = some t →
      AppliedPrefix dir exec [] t.world := by
  intro h
  obtain ⟨k, -, hrecorded⟩ := h twoMigrations appendText emptyDb
    [executed false "", executed true "", executed false "", executed true "", executed false "",
      executed true "", executed false "k1", executed true "k2"] _ appliedPrefix_emptyDb rfl
  have hnodup := (nodup_migrations twoMigrations).sublist ((List.take_sublist k _).map _)
  rw [← hrecorded] at hnodup
  exact absurd hnodup (by decide +kernel)

end OpenvpnControl.Migrate
