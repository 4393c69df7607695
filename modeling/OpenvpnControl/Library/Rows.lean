import Mathlib.Data.List.Basic
import Mathlib.Data.List.Induction
import Mathlib.Data.List.Nodup
import Mathlib.Data.List.Pairwise

/-!
# Tables as lists of rows

A database table is the list of its rows, in storage order. The statements that change a table
are defined on it: `UPDATE … WHERE`, `DELETE … WHERE`, and `INSERT` into a table whose key is
unique.

## Main definitions

* `Rows.updateWhere`, `Rows.deleteWhere`: the statements with a `WHERE` clause.
* `Rows.insertUnique`: an `INSERT`, refused when the key is taken.
* `Rows.upsert`: an `INSERT` that updates the row of a key that is taken.
* `Rows.Choice`, `Rows.Choice.select`: a `SELECT … LIMIT 1`, which may return any row that matches.
* `Rows.HasKey`, `Rows.HasPartialKey`: the key column is unique, among all rows or those that have a
  key.
* `Rows.byKey`: the row of a key.

## Main results

* `Rows.HasKey.updateWhere`, `Rows.HasKey.deleteWhere`, `Rows.HasKey.insertUnique`: every
  statement keeps the key unique.
* `Rows.HasPartialKey.updateWhere`, `Rows.HasPartialKey.updateWhere_byKey`: an update that gives
  away no key that another row has keeps a partial key unique.
* `Rows.countP_updateWhere_le`: how many rows satisfy a predicate after an update.
-/

namespace Rows

variable {ρ κ : Type*}

/-- `UPDATE … SET f WHERE p`. -/
def updateWhere (p : ρ → Bool) (f : ρ → ρ) (t : List ρ) : List ρ :=
  t.map fun r => if p r then f r else r

/-- `DELETE … WHERE p`. -/
def deleteWhere (p : ρ → Bool) (t : List ρ) : List ρ :=
  t.filter fun r => !p r

/-- `INSERT` of a row into a table with the unique column `key`, refused when the key is taken. -/
def insertUnique [DecidableEq κ] (key : ρ → κ) (r : ρ) (t : List ρ) : Option (List ρ) :=
  if key r ∈ t.map key then none else some (t ++ [r])

/-- `INSERT … ON CONFLICT (key) DO UPDATE`: rewrite the row of the key, or insert one. -/
def upsert [DecidableEq κ] (key : ρ → κ) (new : ρ) (f : ρ → ρ) (t : List ρ) : List ρ :=
  if key new ∈ t.map key then updateWhere (fun r => decide (key r = key new)) f t else t ++ [new]

/-- Which row a `SELECT … LIMIT 1` without `ORDER BY` returns of the rows that match. -/
structure Choice (ρ : Type*) where
  pick : List ρ → Option ρ
  mem : ∀ {t r}, pick t = some r → r ∈ t
  isSome : ∀ {t}, t ≠ [] → (pick t).isSome

/-- The first row in storage order. -/
def Choice.first : Choice ρ where
  pick := List.head?
  mem h := List.mem_of_mem_head? h
  isSome {t} h := by
    cases t with
    | nil => exact absurd rfl h
    | cons r t => rfl

/-- A given row where it matches, else the first one. -/
def Choice.preferring [DecidableEq ρ] (r : ρ) : Choice ρ where
  pick t := if r ∈ t then some r else t.head?
  mem {t r'} h := by
    split_ifs at h with hr
    · exact Option.some.inj h ▸ hr
    · exact List.mem_of_mem_head? h
  isSome {t} h := by
    split_ifs
    · rfl
    · exact Choice.first.isSome h

/-- A row of some kind where one matches, else the first one. -/
def Choice.among (kind : ρ → Bool) : Choice ρ where
  pick t := (t.find? kind).or t.head?
  mem {t r} h := by
    rcases Option.or_eq_some_iff.1 h with h | ⟨-, h⟩
    · exact List.mem_of_find?_eq_some h
    · exact List.mem_of_mem_head? h
  isSome {t} h := by
    have hhead : t.head?.isSome = true := Choice.first.isSome h
    rw [Option.isSome_or, hhead, Bool.or_true]

/-- `SELECT … WHERE p LIMIT 1`. -/
def Choice.select (choice : Choice ρ) (p : ρ → Bool) (t : List ρ) : Option ρ :=
  choice.pick (t.filter p)

/-- The column `key` is unique in the table. -/
def HasKey (key : ρ → κ) (t : List ρ) : Prop := (t.map key).Nodup

instance [DecidableEq κ] (key : ρ → κ) (t : List ρ) : Decidable (HasKey key t) :=
  inferInstanceAs (Decidable (t.map key).Nodup)

/-- A key that only some rows have is unique: the condition of a partial unique index. -/
def HasPartialKey (key : ρ → Option κ) (t : List ρ) : Prop := (t.filterMap key).Nodup

instance [DecidableEq κ] (key : ρ → Option κ) (t : List ρ) : Decidable (HasPartialKey key t) :=
  inferInstanceAs (Decidable (t.filterMap key).Nodup)

/-- `SELECT … WHERE key = k`, which returns at most one row when the column is unique. -/
def byKey [DecidableEq κ] (key : ρ → κ) (k : κ) (t : List ρ) : Option ρ :=
  t.find? fun r => key r = k

/-! ### Membership -/

theorem mem_updateWhere {p : ρ → Bool} {f : ρ → ρ} {t : List ρ} {r : ρ} :
    r ∈ updateWhere p f t ↔ (r ∈ t ∧ p r = false) ∨ ∃ r₀ ∈ t, p r₀ = true ∧ f r₀ = r := by
  simp only [updateWhere, List.mem_map]
  constructor
  · rintro ⟨r₀, hr₀, rfl⟩
    cases hp : p r₀ with
    | true => exact Or.inr ⟨r₀, hr₀, hp, by simp⟩
    | false => exact Or.inl ⟨by simpa using hr₀, by simpa using hp⟩
  · rintro (⟨hr, hp⟩ | ⟨r₀, hr₀, hp, rfl⟩)
    · exact ⟨r, hr, by simp [hp]⟩
    · exact ⟨r₀, hr₀, by simp [hp]⟩

@[simp] theorem mem_deleteWhere {p : ρ → Bool} {t : List ρ} {r : ρ} :
    r ∈ deleteWhere p t ↔ r ∈ t ∧ p r = false := by
  simp [deleteWhere]

theorem mem_of_mem_upsert [DecidableEq κ] {key : ρ → κ} {new : ρ} {f : ρ → ρ} {t : List ρ} {r : ρ}
    (h : r ∈ upsert key new f t) : r ∈ t ∨ r = new ∨ ∃ r₀ ∈ t, f r₀ = r := by
  rw [upsert] at h
  split_ifs at h
  · rcases mem_updateWhere.1 h with ⟨hr, -⟩ | ⟨r₀, hr₀, -, hf⟩
    · exact Or.inl hr
    · exact Or.inr (Or.inr ⟨r₀, hr₀, hf⟩)
  · rcases List.mem_append.1 h with hr | hr
    · exact Or.inl hr
    · exact Or.inr (Or.inl (List.mem_singleton.1 hr))

theorem insertUnique_eq_some [DecidableEq κ] {key : ρ → κ} {r : ρ} {t t' : List ρ} :
    insertUnique key r t = some t' ↔ key r ∉ t.map key ∧ t' = t ++ [r] := by
  rw [insertUnique]
  split_ifs with h
  · simp [h]
  · simp [h, eq_comm]

/-- A row the update does not select stays. -/
theorem mem_updateWhere_of_not {p : ρ → Bool} {f : ρ → ρ} {t : List ρ} {r : ρ} (hr : r ∈ t)
    (hp : p r = false) : r ∈ updateWhere p f t :=
  mem_updateWhere.2 (Or.inl ⟨hr, hp⟩)

/-- A row the update selects is rewritten. -/
theorem mem_updateWhere_of {p : ρ → Bool} {f : ρ → ρ} {t : List ρ} {r : ρ} (hr : r ∈ t)
    (hp : p r = true) : f r ∈ updateWhere p f t :=
  mem_updateWhere.2 (Or.inr ⟨r, hr, hp, rfl⟩)

/-- An update that selects no row changes nothing. -/
theorem updateWhere_eq_self {p : ρ → Bool} {f : ρ → ρ} {t : List ρ}
    (h : ∀ r ∈ t, p r = false) : updateWhere p f t = t := by
  rw [updateWhere]
  conv_rhs => rw [← List.map_id t]
  exact List.map_congr_left fun r hr => by simp [h r hr]

/-- A delete that selects no row changes nothing. -/
theorem deleteWhere_eq_self {p : ρ → Bool} {t : List ρ}
    (h : ∀ r ∈ t, p r = false) : deleteWhere p t = t :=
  List.filter_eq_self.2 fun r hr => by simp [h r hr]

/-- An update of rows that a selection leaves out, before and after, does not change what it
selects. -/
theorem filter_updateWhere {p q : ρ → Bool} {f : ρ → ρ} {t : List ρ}
    (h : ∀ r ∈ t, q r = true → p r = false ∧ p (f r) = false) :
    (updateWhere q f t).filter p = t.filter p := by
  induction t with
  | nil => rfl
  | cons r t ih =>
    have ih' := ih fun r' hr' => h r' (List.mem_cons_of_mem _ hr')
    rw [updateWhere] at ih'
    rw [updateWhere, List.map_cons, List.filter_cons, List.filter_cons, ih']
    cases hq : q r with
    | false => simp
    | true =>
      obtain ⟨hp, hpf⟩ := h r List.mem_cons_self hq
      simp [hp, hpf]

/-- **A selection depends on the columns that it reads.** -/
theorem map_filter_congr_of_columns {β γ : Type*} {columns : ρ → γ} {p : ρ → Bool} {f : ρ → β}
    (hp : ∀ r r', columns r = columns r' → p r = p r')
    (hf : ∀ r r', columns r = columns r' → f r = f r') {t t' : List ρ}
    (h : t.map columns = t'.map columns) : (t.filter p).map f = (t'.filter p).map f := by
  induction t generalizing t' with
  | nil =>
    cases t' with
    | nil => rfl
    | cons r' t' => cases h
  | cons r t ih =>
    cases t' with
    | nil => cases h
    | cons r' t' =>
      rw [List.map_cons, List.map_cons, List.cons.injEq] at h
      rw [List.filter_cons, List.filter_cons, hp r r' h.1]
      split_ifs
      · rw [List.map_cons, List.map_cons, hf r r' h.1, ih h.2]
      · exact ih h.2

theorem Choice.mem_of_select {choice : Choice ρ} {p : ρ → Bool} {t : List ρ} {r : ρ}
    (h : choice.select p t = some r) : r ∈ t ∧ p r = true :=
  List.mem_filter.1 (choice.mem h)

theorem Choice.select_eq_none {choice : Choice ρ} {p : ρ → Bool} {t : List ρ} :
    choice.select p t = none ↔ ∀ r ∈ t, p r = false := by
  constructor
  · intro h r hr
    by_contra hp
    have hne : t.filter p ≠ [] :=
      List.ne_nil_of_mem (List.mem_filter.2 ⟨hr, by simpa using hp⟩)
    have hsome := choice.isSome hne
    rw [← Choice.select, h] at hsome
    cases hsome
  · intro h
    cases hs : choice.select p t with
    | none => rfl
    | some r =>
      obtain ⟨hr, hp⟩ := Choice.mem_of_select hs
      rw [h r hr] at hp
      exact absurd hp (by decide)

theorem Choice.select_preferring [DecidableEq ρ] {r : ρ} {p : ρ → Bool} {t : List ρ} (hr : r ∈ t)
    (hp : p r = true) : (Choice.preferring r).select p t = some r :=
  if_pos (List.mem_filter.2 ⟨hr, hp⟩)

/-- A row that is chosen is of the kind, where one that matches is. -/
theorem Choice.of_select_among {kind p : ρ → Bool} {t : List ρ} {r r' : ρ} (hr : r ∈ t)
    (hp : p r = true) (hkind : kind r = true)
    (h : (Choice.among kind).select p t = some r') : kind r' = true := by
  have hfound : ((t.filter p).find? kind).isSome := by
    rw [List.find?_isSome]
    exact ⟨r, List.mem_filter.2 ⟨hr, hp⟩, hkind⟩
  obtain ⟨r'', hr''⟩ := Option.isSome_iff_exists.1 hfound
  have heq : (Choice.among kind).select p t = some r'' := by
    rw [Choice.select, Choice.among]
    dsimp only
    rw [hr'']
    rfl
  rw [← Option.some.inj (heq.symm.trans h)]
  exact List.find?_some hr''

/-- The choice among rows of which one only matches. -/
theorem Choice.select_of_unique {choice : Choice ρ} {p : ρ → Bool} {t : List ρ} {r : ρ} (hr : r ∈ t)
    (hp : p r = true) (honly : ∀ r' ∈ t, p r' = true → r' = r) : choice.select p t = some r := by
  cases h : choice.select p t with
  | none =>
    rw [Choice.select_eq_none.1 h r hr] at hp
    cases hp
  | some r' =>
    obtain ⟨hr', hp'⟩ := Choice.mem_of_select h
    rw [honly r' hr' hp']

/-- Two updates by one function are an update, where the second selects as before the first. -/
theorem updateWhere_updateWhere {p q : ρ → Bool} {f : ρ → ρ} {t : List ρ} (hp : ∀ r, p (f r) = p r)
    (hf : ∀ r, f (f r) = f r) :
    updateWhere p f (updateWhere q f t) = updateWhere (fun r => p r || q r) f t := by
  simp only [updateWhere, List.map_map]
  refine List.map_congr_left fun r _ => ?_
  by_cases hpr : p r = true <;> by_cases hqr : q r = true <;> simp [hp, hf, hpr, hqr]

/-! ### The unique column -/

theorem HasKey.eq_of_key {key : ρ → κ} {t : List ρ} (h : HasKey key t) {r r' : ρ} (hr : r ∈ t)
    (hr' : r' ∈ t) (hk : key r = key r') : r = r' :=
  List.inj_on_of_nodup_map h hr hr' hk

theorem map_key_updateWhere {key : ρ → κ} {p : ρ → Bool} {f : ρ → ρ} {t : List ρ}
    (hf : ∀ r ∈ t, p r = true → key (f r) = key r) :
    (updateWhere p f t).map key = t.map key := by
  simp only [updateWhere, List.map_map]
  refine List.map_congr_left fun r hr => ?_
  cases hp : p r with
  | true => simp [hp, hf r hr hp]
  | false => simp [hp]

theorem HasKey.updateWhere {key : ρ → κ} {p : ρ → Bool} {f : ρ → ρ} {t : List ρ} (h : HasKey key t)
    (hf : ∀ r ∈ t, p r = true → key (f r) = key r) :
    HasKey key (updateWhere p f t) := by
  rw [HasKey, map_key_updateWhere hf]
  exact h

theorem HasKey.deleteWhere {key : ρ → κ} {p : ρ → Bool} {t : List ρ} (h : HasKey key t) :
    HasKey key (deleteWhere p t) :=
  List.Nodup.sublist (List.filter_sublist.map key) h

theorem HasKey.append_singleton {key : ρ → κ} {r : ρ} {t : List ρ} (h : HasKey key t)
    (hr : key r ∉ t.map key) : HasKey key (t ++ [r]) := by
  rw [HasKey, List.map_append, List.map_singleton]
  exact List.nodup_append.2 ⟨h, List.nodup_singleton _, fun a ha b hb => by
    rintro rfl
    exact hr (by simpa [List.mem_singleton.1 hb] using ha)⟩

theorem HasKey.insertUnique [DecidableEq κ] {key : ρ → κ} {r : ρ} {t t' : List ρ} (h : HasKey key t)
    (ht : insertUnique key r t = some t') : HasKey key t' := by
  obtain ⟨hr, rfl⟩ := insertUnique_eq_some.1 ht
  exact h.append_singleton hr

theorem mem_of_byKey_eq_some [DecidableEq κ] {key : ρ → κ} {k : κ} {t : List ρ} {r : ρ}
    (h : byKey key k t = some r) : r ∈ t ∧ key r = k :=
  ⟨List.mem_of_find?_eq_some h, by simpa using List.find?_some h⟩

theorem byKey_eq_some [DecidableEq κ] {key : ρ → κ} {k : κ} {t : List ρ} (h : HasKey key t)
    {r : ρ} : byKey key k t = some r ↔ r ∈ t ∧ key r = k := by
  refine ⟨mem_of_byKey_eq_some, fun ⟨hr, hk⟩ => ?_⟩
  cases hf : byKey key k t with
  | none => exact absurd (List.find?_eq_none.1 hf r hr) (by simpa using hk)
  | some r' =>
    obtain ⟨hr', hk'⟩ := mem_of_byKey_eq_some hf
    rw [h.eq_of_key hr' hr (hk'.trans hk.symm)]

theorem byKey_eq_none [DecidableEq κ] {key : ρ → κ} {k : κ} {t : List ρ} :
    byKey key k t = none ↔ k ∉ t.map key := by
  simp [byKey, List.find?_eq_none]

/-- The row of a key after an update. -/
theorem byKey_updateWhere [DecidableEq κ] {key : ρ → κ} {p : ρ → Bool} {f : ρ → ρ} {t : List ρ}
    (hf : ∀ r, p r = true → key (f r) = key r) (k : κ) :
    byKey key k (updateWhere p f t) = (byKey key k t).map fun r => if p r then f r else r := by
  have hkey : ((fun r => decide (key r = k)) ∘ fun r => if p r then f r else r) =
      fun r => decide (key r = k) := by
    funext r
    cases hp : p r with
    | true => simp [hp, hf r hp]
    | false => simp [hp]
  rw [byKey, updateWhere, List.find?_map, hkey]
  rfl

/-- The row of a key after a delete. -/
theorem byKey_deleteWhere [DecidableEq κ] {key : ρ → κ} {p : ρ → Bool} {t : List ρ}
    (h : HasKey key t) (k : κ) :
    byKey key k (deleteWhere p t) = (byKey key k t).filter fun r => !p r := by
  ext r
  simp only [byKey_eq_some h.deleteWhere, Option.filter_eq_some_iff, byKey_eq_some h,
    mem_deleteWhere, Bool.not_eq_true']
  tauto

/-- The row of a key after an insert. -/
theorem byKey_append_singleton [DecidableEq κ] {key : ρ → κ} {t : List ρ} (r : ρ) (k : κ) :
    byKey key k (t ++ [r]) = (byKey key k t).or (if key r = k then some r else none) := by
  simp only [byKey, List.find?_append, List.find?_singleton, decide_eq_true_eq]

theorem HasKey.upsert [DecidableEq κ] {key : ρ → κ} {new : ρ} {f : ρ → ρ} {t : List ρ}
    (h : HasKey key t) (hf : ∀ r, key (f r) = key r) : HasKey key (upsert key new f t) := by
  rw [Rows.upsert]
  split_ifs with hmem
  · exact h.updateWhere fun r _ _ => hf r
  · exact h.append_singleton hmem

/-- The row of a key after an insert or update. -/
theorem byKey_upsert [DecidableEq κ] {key : ρ → κ} {new : ρ} {f : ρ → ρ} {t : List ρ}
    (hf : ∀ r, key (f r) = key r) (k : κ) :
    byKey key k (upsert key new f t) =
      if k = key new then some (((byKey key k t).map f).getD new) else byKey key k t := by
  rw [Rows.upsert]
  split_ifs with hmem hk hk
  · subst hk
    obtain ⟨r, hr⟩ := Option.ne_none_iff_exists'.1 fun hnone => byKey_eq_none.1 hnone hmem
    rw [byKey_updateWhere fun r _ => hf r, hr]
    simp [(mem_of_byKey_eq_some hr).2]
  · rw [byKey_updateWhere fun r _ => hf r]
    cases hr : byKey key k t with
    | none => rfl
    | some r => simp [(mem_of_byKey_eq_some hr).2, hk]
  · subst hk
    rw [byKey_append_singleton, byKey_eq_none.2 hmem]
    simp
  · rw [byKey_append_singleton, if_neg (Ne.symm hk), Option.or_none]

/-- The row of a key after a row is put in its place. -/
theorem byKey_upsert_const [DecidableEq κ] {key : ρ → κ} {new : ρ} {t : List ρ} (k : κ) :
    byKey key k (upsert key new (fun _ => new) t) = if k = key new then some new
    else byKey key k t := by
  rw [Rows.upsert]
  split_ifs with hmem hk hk
  · subst hk
    obtain ⟨r, hr⟩ := Option.ne_none_iff_exists'.1 fun hnone => byKey_eq_none.1 hnone hmem
    rw [byKey_updateWhere fun r h => (of_decide_eq_true h).symm, hr]
    simp [(mem_of_byKey_eq_some hr).2]
  · rw [byKey_updateWhere fun r h => (of_decide_eq_true h).symm]
    cases hr : byKey key k t with
    | none => rfl
    | some r => simp [(mem_of_byKey_eq_some hr).2, hk]
  · subst hk
    rw [byKey_append_singleton, byKey_eq_none.2 hmem]
    simp
  · rw [byKey_append_singleton, if_neg (Ne.symm hk), Option.or_none]

/-- The row of a key after inserts or updates one after the other, each of which overwrites what the
one before it wrote: the last one for the key counts. -/
theorem byKey_foldl_upsert {γ : Type*} [DecidableEq κ] {key : ρ → κ} {new : γ → ρ} {f : γ → ρ → ρ}
    (hf : ∀ c r, key (f c r) = key r)
    (hnew : ∀ c c', key (new c') = key (new c) → f c (new c') = new c)
    (hff : ∀ c c' r, f c (f c' r) = f c r) (k : κ) (l : List γ) (t : List ρ) :
    byKey key k (l.foldl (fun t c => upsert key (new c) (f c) t) t) =
      match (l.filter fun c => key (new c) = k).getLast? with
      | none => byKey key k t
      | some c => some (((byKey key k t).map (f c)).getD (new c)) := by
  induction l using List.reverseRecOn with
  | nil => rfl
  | append_singleton l c ih =>
    rw [List.foldl_append, List.foldl_cons, List.foldl_nil, byKey_upsert (hf c), List.filter_append,
      ih]
    by_cases hk : key (new c) = k
    · have hone : ([c].filter fun c => decide (key (new c) = k)) = [c] := by simp [hk]
      rw [if_pos hk.symm, hone, List.getLast?_append_of_ne_nil _ (List.cons_ne_nil _ _),
        List.getLast?_singleton]
      cases hlast : (l.filter fun c => decide (key (new c) = k)).getLast? with
      | none => rfl
      | some c' =>
        have hc' : key (new c') = k :=
          of_decide_eq_true (List.mem_filter.1 (List.mem_of_getLast? hlast)).2
        cases hrow : byKey key k t with
        | none => simp [hnew c c' (hc'.trans hk.symm)]
        | some r => simp [hff]
    · have hnone : ([c].filter fun c => decide (key (new c) = k)) = [] := by simp [hk]
      rw [if_neg (Ne.symm hk), hnone, List.append_nil]

/-- Updates one after the other, row by row. -/
theorem foldl_updateWhere {γ : Type*} (p : γ → ρ → Bool) (f : γ → ρ → ρ) (l : List γ) (t : List ρ) :
    l.foldl (fun t c => updateWhere (p c) (f c) t) t =
      t.map fun r => l.foldl (fun r c => if p c r then f c r else r) r := by
  induction l generalizing t with
  | nil => simp
  | cons c l ih =>
    rw [List.foldl_cons, ih, updateWhere, List.map_map]
    rfl

/-- The row of a key after updates one after the other, none of which selects a row that one of them
changed. -/
theorem byKey_foldl_updateWhere {γ : Type*} [DecidableEq κ] {key : ρ → κ} {p : γ → ρ → Bool}
    {f : ρ → ρ} (hf : ∀ r, key (f r) = key r) (hp : ∀ c r, p c (f r) = false) (k : κ) (l : List γ)
    (t : List ρ) :
    byKey key k (l.foldl (fun t c => updateWhere (p c) f t) t) =
      (byKey key k t).map fun r => if l.any fun c => p c r then f r else r := by
  induction l generalizing t with
  | nil => simp
  | cons c l ih =>
    rw [List.foldl_cons, ih, byKey_updateWhere fun r _ => hf r, Option.map_map]
    congr 1
    funext r
    rw [Function.comp_apply, List.any_cons]
    cases hc : p c r with
    | true => simp [hp]
    | false => simp

/-- **An update of each selected row by its key** is an update of the rows that were selected. -/
theorem foldl_updateWhere_key [DecidableEq κ] {key : ρ → κ} {p : ρ → Bool} {f : ρ → ρ → ρ}
    (hf : ∀ s r, key (f s r) = key r) {t : List ρ} (h : HasKey key t) :
    (t.filter p).foldl (fun t s => updateWhere (fun r => decide (key r = key s)) (f s) t) t =
      updateWhere p (fun r => f r r) t := by
  -- the rows that are still to come have other keys than the ones done
  have hrow : ∀ l : List ρ, HasKey key l → ∀ r₀ r, key r = key r₀ →
      (∀ s ∈ l, key s = key r₀ → s = r₀) →
      l.foldl (fun r s => if decide (key r = key s) then f s r else r) r =
        if key r₀ ∈ l.map key then f r₀ r else r := by
    intro l
    induction l with
    | nil =>
      intro _ r₀ r _ _
      rfl
    | cons s l ih =>
      intro hl r₀ r hr hs
      obtain ⟨hnotin, hl⟩ := List.nodup_cons.1 hl
      have hs' : ∀ s' ∈ l, key s' = key r₀ → s' = r₀ := fun s' h => hs s' (List.mem_cons_of_mem _ h)
      rw [List.foldl_cons, List.map_cons]
      by_cases hkey : key r = key s
      · obtain rfl : s = r₀ := hs s List.mem_cons_self (hkey.symm.trans hr)
        rw [decide_eq_true hkey, if_pos rfl, ih hl s _ ((hf s r).trans hr) hs', if_neg hnotin,
          if_pos List.mem_cons_self]
      · rw [decide_eq_false hkey, if_neg Bool.false_ne_true, ih hl r₀ r hr hs']
        simp only [List.mem_cons, ← hr, hkey, false_or]
  rw [foldl_updateWhere, updateWhere]
  refine List.map_congr_left fun r hr => ?_
  have hsub : HasKey key (t.filter p) := List.Nodup.sublist (List.filter_sublist.map key) h
  have hmem : key r ∈ (t.filter p).map key ↔ p r = true := by
    rw [List.mem_map]
    constructor
    · rintro ⟨s, hs, hkey⟩
      obtain ⟨hst, hps⟩ := List.mem_filter.1 hs
      rwa [h.eq_of_key hr hst hkey.symm]
    · exact fun hp => ⟨r, List.mem_filter.2 ⟨hr, hp⟩, rfl⟩
  rw [hrow _ hsub r r rfl fun s hs hkey => h.eq_of_key (List.mem_of_mem_filter hs) hr hkey]
  simp only [hmem]

/-- Selected rows still have different keys, when what is selected from a row carries its key. -/
theorem nodup_map_filterMap {β : Type*} {key : ρ → κ} {f : ρ → Option β} {g : β → κ} {t : List ρ}
    (h : HasKey key t) (hf : ∀ r b, f r = some b → g b = key r) :
    ((t.filterMap f).map g).Nodup := by
  refine List.Nodup.sublist ?_ h
  induction t with
  | nil => exact List.Sublist.refl _
  | cons r t ih =>
    have ih' := ih (List.nodup_cons.1 h).2
    cases hr : f r with
    | none =>
      rw [List.filterMap_cons_none hr, List.map_cons]
      exact ih'.cons _
    | some b =>
      rw [List.filterMap_cons_some hr, List.map_cons, List.map_cons, hf r b hr]
      exact ih'.cons_cons _

/-! ### A key of some rows -/

theorem HasPartialKey.nil {key : ρ → Option κ} : HasPartialKey key [] := List.nodup_nil

theorem HasPartialKey.deleteWhere {key : ρ → Option κ} {p : ρ → Bool} {t : List ρ}
    (h : HasPartialKey key t) : HasPartialKey key (deleteWhere p t) :=
  List.Nodup.sublist (List.filter_sublist.filterMap key) h

theorem HasPartialKey.append_singleton {key : ρ → Option κ} {r : ρ} {t : List ρ}
    (h : HasPartialKey key t) (hr : ∀ k ∈ key r, ∀ r' ∈ t, k ∉ key r') :
    HasPartialKey key (t ++ [r]) := by
  rw [HasPartialKey, List.filterMap_append, List.nodup_append']
  refine ⟨h, ?_, ?_⟩
  · cases hk : key r with
    | none => simp [hk]
    | some k => simp [hk]
  · intro k hk hk'
    obtain ⟨r', hr', hkr'⟩ := List.mem_filterMap.1 hk
    obtain ⟨r₀, hr₀, hkr⟩ := List.mem_filterMap.1 hk'
    rw [List.mem_singleton.1 hr₀] at hkr
    exact hr k hkr r' hr' hkr'

/-- An update that takes keys away, and gives none. -/
theorem HasPartialKey.updateWhere {key : ρ → Option κ} {p : ρ → Bool} {f : ρ → ρ} {t : List ρ}
    (h : HasPartialKey key t) (hf : ∀ r ∈ t, p r = true → ∀ k ∈ key (f r), k ∈ key r) :
    HasPartialKey key (updateWhere p f t) := by
  have hkey : ∀ r ∈ t, ∀ k, key (if p r then f r else r) = some k → key r = some k := by
    intro r hr k hk
    cases hp : p r with
    | true => exact hf r hr hp k (by simpa [hp] using hk)
    | false => simpa [hp] using hk
  rw [HasPartialKey, List.Nodup, List.pairwise_filterMap] at h ⊢
  rw [Rows.updateWhere, List.pairwise_map]
  refine h.imp_of_mem fun {r r'} hr hr' hne k hk k' hk' => ?_
  exact hne k (hkey r hr k hk) k' (hkey r' hr' k' hk')

/-- In a table with a unique column, two rows of one key are the same row. -/
theorem hasPartialKey_iff {ι : Type*} {pk : ρ → ι} {key : ρ → Option κ} {t : List ρ}
    (hpk : HasKey pk t) :
    HasPartialKey key t ↔ ∀ r ∈ t, ∀ r' ∈ t, ∀ k ∈ key r, k ∈ key r' → pk r = pk r' := by
  rw [HasPartialKey, List.Nodup, List.pairwise_filterMap]
  constructor
  · intro h r hr r' hr' k hk hk'
    by_contra hne
    have hsymm : Std.Symm fun a b : ρ => ∀ k, key a = some k → ∀ k', key b = some k' → k ≠ k' :=
      ⟨fun a b hab k hk k' hk' => (hab k' hk' k hk).symm⟩
    exact h.forall hr hr' (fun heq => hne (congrArg pk heq)) k hk k hk' rfl
  · intro h
    have hne : t.Pairwise fun r r' => pk r ≠ pk r' := List.pairwise_map.1 hpk
    refine hne.imp_of_mem fun {r r'} hr hr' hne k hk k' hk' => ?_
    rintro rfl
    exact hne (h r hr r' hr' k hk hk')

/-- Two rows of one key are the same row. -/
theorem HasPartialKey.eq_of_key {key : ρ → Option κ} {t : List ρ} (h : HasPartialKey key t)
    {r r' : ρ} {k : κ} (hr : r ∈ t) (hr' : r' ∈ t) (hk : k ∈ key r)
    (hk' : k ∈ key r') : r = r' := by
  by_contra hne
  rw [HasPartialKey, List.Nodup, List.pairwise_filterMap] at h
  have hsymm : Std.Symm fun a b : ρ => ∀ k, key a = some k → ∀ k', key b = some k' → k ≠ k' :=
    ⟨fun a b hab k hk k' hk' => (hab k' hk' k hk).symm⟩
  exact h.forall hr hr' hne k hk k hk' rfl

/-- An update of the row of a unique column that gives it no key another row has. -/
theorem HasPartialKey.updateWhere_byKey {ι : Type*} [DecidableEq ι] {pk : ρ → ι}
    {key : ρ → Option κ} {f : ρ → ρ} {t : List ρ} (h : HasPartialKey key t) (hpk : HasKey pk t)
    (hfpk : ∀ r, pk (f r) = pk r) {i : ι}
    (hf : ∀ r ∈ t, pk r = i → ∀ k ∈ key (f r), ∀ r' ∈ t, k ∈ key r' → pk r' = i) :
    HasPartialKey key (Rows.updateWhere (fun r => pk r = i) f t) := by
  rw [hasPartialKey_iff (hpk.updateWhere fun r _ _ => hfpk r)]
  rw [hasPartialKey_iff hpk] at h
  intro r hr r' hr' k hk hk'
  rcases mem_updateWhere.1 hr with ⟨hr, hi⟩ | ⟨r₀, hr₀, hi, rfl⟩ <;>
    rcases mem_updateWhere.1 hr' with ⟨hr', hi'⟩ | ⟨r₀', hr₀', hi', rfl⟩
  · exact h r hr r' hr' k hk hk'
  · have hrow := hf r₀' hr₀' (of_decide_eq_true hi') k hk' r hr hk
    exact absurd hrow (of_decide_eq_false hi)
  · have hrow := hf r₀ hr₀ (of_decide_eq_true hi) k hk r' hr' hk'
    exact absurd hrow (of_decide_eq_false hi')
  · rw [hfpk, hfpk, of_decide_eq_true hi, of_decide_eq_true hi']

/-! ### Counting rows -/

theorem countP_deleteWhere_le (q p : ρ → Bool) (t : List ρ) :
    (deleteWhere p t).countP q ≤ t.countP q :=
  List.filter_sublist.countP_le

/-- Rows that satisfy one of two predicates that share no row. -/
theorem countP_add_countP {p q : ρ → Bool} {t : List ρ} (h : ∀ r ∈ t, ¬(p r = true ∧ q r = true)) :
    t.countP p + t.countP q = t.countP fun r => p r || q r := by
  induction t with
  | nil => rfl
  | cons r t ih =>
    have ih' := ih fun r' hr' => h r' (List.mem_cons_of_mem _ hr')
    have hr := h r List.mem_cons_self
    simp only [List.countP_cons]
    cases hp : p r <;> cases hq : q r <;> simp_all <;> omega

/-- Two predicates that share no row account for the whole table when each row satisfies one. -/
theorem countP_add_countP_eq_length_iff {p q : ρ → Bool} {t : List ρ}
    (h : ∀ r ∈ t, ¬(p r = true ∧ q r = true)) :
    t.countP p + t.countP q = t.length ↔ ∀ r ∈ t, p r = true ∨ q r = true := by
  rw [countP_add_countP h, List.countP_eq_length]
  simp only [Bool.or_eq_true]

/-- An update whose changed rows satisfied `q` before if they do after adds no row to the count. -/
theorem countP_updateWhere_le {q p : ρ → Bool} {f : ρ → ρ} {t : List ρ}
    (h : ∀ r ∈ t, p r = true → q (f r) = true → q r = true) :
    (updateWhere p f t).countP q ≤ t.countP q := by
  rw [updateWhere, List.countP_map]
  refine List.countP_mono_left fun r hr hq => ?_
  cases hp : p r with
  | true => exact h r hr hp (by simpa [hp] using hq)
  | false => simpa [hp] using hq

/-- With a unique key, an update of the row of one key turns at most that row into a `q` row. -/
theorem countP_updateWhere_key_le [DecidableEq κ] {key : ρ → κ} {q : ρ → Bool} {f : ρ → ρ}
    {t : List ρ} (hkey : HasKey key t) (k : κ) :
    (updateWhere (fun r => decide (key r = k)) f t).countP q ≤
      (deleteWhere (fun r => decide (key r = k)) t).countP q + 1 := by
  induction t with
  | nil => simp [updateWhere, deleteWhere]
  | cons r t ih =>
    have hnd : key r ∉ t.map key ∧ HasKey key t := List.nodup_cons.1 hkey
    by_cases hr : key r = k
    · -- the row with the key is the head, so the rest of the table is not touched
      have hrest : ∀ r' ∈ t, decide (key r' = k) = false := fun r' hr' => by
        rw [decide_eq_false_iff_not]
        rintro rfl
        exact hnd.1 (hr ▸ List.mem_map_of_mem hr')
      have hupd := updateWhere_eq_self (f := f) hrest
      have hdel := deleteWhere_eq_self hrest
      simp only [updateWhere, deleteWhere] at hupd hdel
      simp only [updateWhere, deleteWhere, List.map_cons, hr, decide_true, if_true, hupd,
        List.filter_cons, Bool.not_true, Bool.false_eq_true, if_false, hdel, List.countP_cons]
      split_ifs <;> omega
    · have ih' := ih hnd.2
      simp only [updateWhere, deleteWhere] at ih'
      simp only [updateWhere, deleteWhere, List.map_cons, hr, decide_false, Bool.false_eq_true,
        if_false, List.filter_cons, Bool.not_false, if_true, List.countP_cons]
      omega

end Rows
