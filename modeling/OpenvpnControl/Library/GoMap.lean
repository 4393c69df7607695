import Mathlib.Data.Finmap

/-!
# Go's maps with string keys

A Go map is a finite map. Go leaves the order of a `range` loop open, so a loop over a map is
defined here only where its result does not depend on that order: a loop whose body writes at most
the entry of its own key, and a loop that selects entries.

## Main definitions

* `GoMap`: Go's `map[string]ν`.
* `GoMap.alter`: one entry rewritten or deleted.
* `GoMap.range`: a `range` loop whose body alters the entry of its key in another map.
* `GoMap.mapValues`: the map with every value rewritten.
* `GoMap.filterKeys`: the entries whose key passes a test.
* `GoMap.collect`: a loop that collects rows under their keys.

## Main results

* `GoMap.lookup_range`, `GoMap.lookup_filterKeys`: what the loops leave under each key.
* `GoMap.collect_perm_iff`: when the order of the rows does not matter.
-/

/-- Go's `map[string]ν`. -/
abbrev GoMap (ν : Type) : Type := Finmap (fun _ : String => ν)

namespace GoMap

variable {μ ν : Type}

/-- In a list of entries with different keys, an entry is looked up. -/
theorem lookup_eq_some_iff_mem {κ ρ : Type} [DecidableEq κ] {es : List (κ × ρ)}
    (h : (es.map Prod.fst).Nodup) {k : κ} {v : ρ} : es.lookup k = some v ↔ (k, v) ∈ es := by
  induction es with
  | nil => simp
  | cons e es ih =>
    obtain ⟨l, w⟩ := e
    obtain ⟨hnot, hrest⟩ := List.nodup_cons.1 h
    by_cases hk : k = l
    · subst hk
      have hnotMem : (k, v) ∉ es := fun h => hnot (List.mem_map.2 ⟨_, h, rfl⟩)
      simp [hnotMem, eq_comm]
    · have hbeq : (k == l) = false := by simpa using hk
      rw [List.lookup_cons, hbeq]
      simp [ih hrest, hk]

/-- The map with the listed entries, where the first entry of a key counts. -/
def ofList : List (String × ν) → GoMap ν
  | [] => ∅
  | (k, v) :: l => (ofList l).insert k v

@[simp] theorem lookup_ofList_nil (k : String) :
    (ofList ([] : List (String × ν))).lookup k = none :=
  Finmap.lookup_empty k

theorem lookup_ofList_cons (k l : String) (v : ν) (es : List (String × ν)) :
    (ofList ((l, v) :: es)).lookup k = if k = l then some v else (ofList es).lookup k := by
  split_ifs with h
  · subst h
    exact Finmap.lookup_insert _
  · exact Finmap.lookup_insert_of_ne _ h

/-- The entries that a list makes of the elements of another one, each with its own key. -/
theorem lookup_ofList_map {ρ : Type} {f : ρ → String} {xs : List ρ} (h : (xs.map f).Nodup)
    (g : ρ → ν) {x : ρ} (hx : x ∈ xs) :
    (ofList (xs.map fun x => (f x, g x))).lookup (f x) = some (g x) := by
  induction xs with
  | nil => cases hx
  | cons y ys ih =>
    rw [List.map_cons, List.nodup_cons] at h
    rw [List.map_cons, lookup_ofList_cons]
    rcases List.mem_cons.1 hx with rfl | hx
    · rw [if_pos rfl]
    · have hne : f x ≠ f y := fun h' => h.1 (h' ▸ List.mem_map_of_mem hx)
      rw [if_neg hne, ih h.2 hx]

theorem lookup_ofList_map_none {ρ : Type} {f : ρ → String} {xs : List ρ} (g : ρ → ν) {k : String}
    (hk : k ∉ xs.map f) : (ofList (xs.map fun x => (f x, g x))).lookup k = none := by
  induction xs with
  | nil => rfl
  | cons y ys ih =>
    rw [List.map_cons, List.mem_cons, not_or] at hk
    rw [List.map_cons, lookup_ofList_cons, if_neg hk.1, ih hk.2]

theorem ext_lookup {m n : GoMap ν} (h : ∀ k, m.lookup k = n.lookup k) : m = n :=
  Finmap.ext_lookup h

theorem lookup_insert_eq (m : GoMap ν) (k l : String) (v : ν) :
    (m.insert k v).lookup l = if l = k then some v else m.lookup l := by
  split_ifs with h
  · subst h
    exact Finmap.lookup_insert _
  · exact Finmap.lookup_insert_of_ne _ h

theorem lookup_erase_eq (m : GoMap ν) (k l : String) :
    (m.erase k).lookup l = if l = k then none else m.lookup l := by
  split_ifs with h
  · subst h
    exact Finmap.lookup_erase _ _
  · exact Finmap.lookup_erase_ne h

/-! ### One entry -/

/-- Rewrite the entry of `k`, where `none` is an absent entry. -/
def alter (m : GoMap ν) (k : String) (f : Option ν → Option ν) : GoMap ν :=
  match f (m.lookup k) with
  | none => m.erase k
  | some v => m.insert k v

theorem lookup_alter (m : GoMap ν) (k l : String) (f : Option ν → Option ν) :
    (m.alter k f).lookup l = if l = k then f (m.lookup k) else m.lookup l := by
  rw [alter]
  cases h : f (m.lookup k) with
  | none => exact lookup_erase_eq m k l
  | some v => exact lookup_insert_eq m k l v

/-- Entries of different keys are rewritten in any order. -/
theorem alter_comm (m : GoMap ν) {k l : String} (h : k ≠ l) (f g : Option ν → Option ν) :
    (m.alter k f).alter l g = (m.alter l g).alter k f := by
  refine ext_lookup fun j => ?_
  simp only [lookup_alter]
  by_cases hk : j = k
  · subst hk
    simp [h]
  · by_cases hl : j = l
    · subst hl
      simp [h.symm]
    · simp [hk, hl]

/-! ### Range loops -/

private def rangeList (body : String → μ → Option ν → Option ν) (out : GoMap ν)
    (entries : List (Sigma fun _ : String => μ)) : GoMap ν :=
  entries.foldl (fun m e => m.alter e.1 (body e.1 e.2)) out

private theorem rangeList_perm (body : String → μ → Option ν → Option ν) (out : GoMap ν)
    {es fs : List (Sigma fun _ : String => μ)} (hes : es.NodupKeys) (h : es.Perm fs) :
    rangeList body out es = rangeList body out fs := by
  refine h.foldl_eq' (fun x hx y hy m => ?_) out
  by_cases hxy : x.1 = y.1
  · rw [hes.eq_of_fst_eq hx hy hxy]
  · exact alter_comm m hxy _ _

/-- The loop `for k, v := range m` whose body rewrites the entry of `k` in `out`. -/
def range (m : GoMap μ) (body : String → μ → Option ν → Option ν) (out : GoMap ν) : GoMap ν :=
  m.liftOn (fun a => rangeList body out a.entries) fun a _ h =>
    rangeList_perm body out a.nodupKeys h

private theorem lookup_rangeList (body : String → μ → Option ν → Option ν) (k : String)
    (es : List (Sigma fun _ : String => μ)) (hes : es.NodupKeys) (out : GoMap ν) :
    (rangeList body out es).lookup k =
      match es.dlookup k with
      | some v => body k v (out.lookup k)
      | none => out.lookup k := by
  induction es generalizing out with
  | nil => rfl
  | cons e es ih =>
    obtain ⟨l, v⟩ := e
    obtain ⟨hl, hes'⟩ := List.nodupKeys_cons.1 hes
    have hstep : rangeList body out (⟨l, v⟩ :: es) = rangeList body (out.alter l (body l v)) es :=
      rfl
    rw [hstep, ih hes', lookup_alter]
    by_cases hkl : k = l
    · subst hkl
      rw [List.dlookup_cons_eq, List.dlookup_eq_none.2 hl]
      simp
    · rw [List.dlookup_cons_ne _ _ hkl, if_neg hkl]

/-- **What a range loop leaves under each key.** -/
theorem lookup_range (m : GoMap μ) (body : String → μ → Option ν → Option ν) (out : GoMap ν)
    (k : String) :
    (m.range body out).lookup k =
      match m.lookup k with
      | some v => body k v (out.lookup k)
      | none => out.lookup k := by
  induction m using Finmap.induction_on with
  | H a => exact lookup_rangeList body k a.entries a.nodupKeys out

/-- The entries of a map, each of them once: an order in which Go may visit them. -/
structure Visits (m : GoMap μ) (entries : List (String × μ)) : Prop where
  nodup : (entries.map Prod.fst).Nodup
  mem_iff : ∀ k v, (k, v) ∈ entries ↔ m.lookup k = some v

theorem Visits.lookup_eq {m : GoMap μ} {entries : List (String × μ)} (h : m.Visits entries)
    (k : String) : entries.lookup k = m.lookup k := by
  cases hk : m.lookup k with
  | none =>
    refine List.lookup_eq_none_iff.2 fun e he => ?_
    have hne : k ≠ e.1 := fun h' => by
      rw [h', (h.mem_iff e.1 e.2).1 he] at hk
      cases hk
    simpa using hne
  | some v =>
    have hmem := (h.mem_iff k v).2 hk
    have hnodup := h.nodup
    clear h hk
    induction entries with
    | nil => cases hmem
    | cons e entries ih =>
      rw [List.map_cons, List.nodup_cons] at hnodup
      rcases List.mem_cons.1 hmem with rfl | hmem
      · simp
      · have hne : k ≠ e.1 := fun h' =>
          hnodup.1 (List.mem_map.2 ⟨(k, v), hmem, h'⟩)
        rw [List.lookup_cons, beq_false_of_ne hne]
        exact ih hmem hnodup.2

theorem Visits.perm {m : GoMap μ} {es fs : List (String × μ)} (h : m.Visits es)
    (hperm : es.Perm fs) :
    m.Visits fs :=
  ⟨(hperm.map Prod.fst).nodup_iff.1 h.nodup, fun k v => hperm.mem_iff.symm.trans (h.mem_iff k v)⟩

/-- The map of a list has its entries. -/
theorem visits_ofList {es : List (String × μ)} (h : (es.map Prod.fst).Nodup) :
    (ofList es).Visits es := by
  refine ⟨h, fun k v => ?_⟩
  induction es with
  | nil => simp
  | cons e es ih =>
    rw [List.map_cons, List.nodup_cons] at h
    rw [List.mem_cons, lookup_ofList_cons]
    by_cases hk : k = e.1
    · have hlater : (k, v) ∉ es := fun hmem => h.1 (List.mem_map.2 ⟨_, hmem, hk⟩)
      rw [if_pos hk, Option.some.injEq, or_iff_left hlater, Prod.ext_iff, and_iff_right hk, eq_comm]
    · have hne : (k, v) ≠ e := fun h' => hk (congrArg Prod.fst h')
      rw [if_neg hk, or_iff_right hne]
      exact ih h.2

/-- **A range loop in any order.** -/
theorem foldl_alter_eq_range {m : GoMap μ} {entries : List (String × μ)} (h : m.Visits entries)
    (body : String → μ → Option ν → Option ν) (out : GoMap ν) :
    entries.foldl (fun out e => out.alter e.1 (body e.1 e.2)) out = m.range body out := by
  refine ext_lookup fun k => ?_
  rw [lookup_range, ← h.lookup_eq]
  have hnodup := h.nodup
  clear h
  induction entries generalizing out with
  | nil => rfl
  | cons e entries ih =>
    rw [List.map_cons, List.nodup_cons] at hnodup
    rw [List.foldl_cons, ih _ hnodup.2, lookup_alter, List.lookup_cons]
    by_cases hk : k = e.1
    · have hlater : entries.lookup k = none := by
        refine List.lookup_eq_none_iff.2 fun f hf => ?_
        have hne : k ≠ f.1 := fun h' => hnodup.1 (List.mem_map.2 ⟨f, hf, by rw [← h', hk]⟩)
        simpa using hne
      rw [hlater, if_pos hk, hk, beq_self_eq_true]
    · rw [if_neg hk, beq_false_of_ne hk]

/-- The map with every value rewritten. -/
def mapValues (f : μ → ν) (m : GoMap μ) : GoMap ν := m.range (fun _ v _ => some (f v)) ∅

@[simp] theorem lookup_mapValues (f : μ → ν) (m : GoMap μ) (k : String) :
    (m.mapValues f).lookup k = (m.lookup k).map f := by
  rw [mapValues, lookup_range]
  cases m.lookup k <;> simp

/-- The entries whose key passes `p`. -/
def filterKeys (p : String → Bool) (m : GoMap ν) : GoMap ν :=
  m.range (fun k v _ => if p k then some v else none) ∅

/-- **What a selecting loop leaves under each key.** -/
theorem lookup_filterKeys (p : String → Bool) (m : GoMap ν) (k : String) :
    (m.filterKeys p).lookup k = if p k then m.lookup k else none := by
  rw [filterKeys, lookup_range]
  cases m.lookup k <;> simp

/-- Copy the entries of the listed keys that `src` has. -/
def copyKeys (keys : List String) (src dst : GoMap ν) : GoMap ν :=
  keys.foldl (fun m k => (src.lookup k).elim m fun v => m.insert k v) dst

theorem lookup_copyKeys (keys : List String) (src dst : GoMap ν) (k : String) :
    (copyKeys keys src dst).lookup k =
      if k ∈ keys then (src.lookup k).or (dst.lookup k) else dst.lookup k := by
  induction keys generalizing dst with
  | nil => rfl
  | cons l keys ih =>
    rw [copyKeys, List.foldl_cons, ← copyKeys, ih]
    by_cases hkl : k = l
    · subst hkl
      cases hv : src.lookup k with
      | none => simp
      | some v => simp
    · cases hv : src.lookup l with
      | none => simp [hkl]
      | some v => simp [hkl]

/-- The entries of `upper` on top of those of `base`. -/
def overlay (base upper : GoMap ν) : GoMap ν := upper ∪ base

theorem lookup_overlay (base upper : GoMap ν) (k : String) :
    (overlay base upper).lookup k = (upper.lookup k).or (base.lookup k) := by
  rw [overlay]
  by_cases h : k ∈ upper
  · obtain ⟨v, hv⟩ := Option.isSome_iff_exists.1 (Finmap.lookup_isSome.2 h)
    rw [Finmap.lookup_union_left h, hv, Option.some_or]
  · rw [Finmap.lookup_union_right h, Finmap.lookup_eq_none.2 h, Option.none_or]

/-! ### Collecting rows -/

section Collect

variable {ρ : Type} (key : ρ → Option String) (value : ρ → ν)

/-- One turn of a loop that collects the rows with a key: the entry of the key is written. -/
def addEntry (m : GoMap ν) (r : ρ) : GoMap ν :=
  match key r with
  | none => m
  | some k => m.insert k (value r)

/-- A loop that collects rows, where the last row of a key counts. -/
def collect (rows : List ρ) : GoMap ν := rows.foldl (addEntry key value) ∅

variable {key value}

theorem lookup_addEntry (m : GoMap ν) (r : ρ) (k : String) :
    (addEntry key value m r).lookup k = if key r = some k then some (value r) else m.lookup k := by
  rw [addEntry]
  cases hr : key r with
  | none => simp
  | some l => simp [lookup_insert_eq, eq_comm]

/-- **The last row of a key counts.** -/
theorem lookup_collect (rows : List ρ) (k : String) :
    (collect key value rows).lookup k =
      ((rows.filter fun r => key r = some k).getLast?).map value := by
  induction rows using List.reverseRecOn with
  | nil => exact Finmap.lookup_empty k
  | append_singleton rows r ih =>
    have hstep : collect key value (rows ++ [r]) = addEntry key value
        (collect key value rows) r := by
      rw [collect, List.foldl_append]
      rfl
    rw [hstep, lookup_addEntry, ih, List.filter_append]
    by_cases hr : key r = some k
    · simp [hr]
    · simp [hr]

/-- **When the order of the rows does not matter**: all rows of a key have one value. -/
theorem collect_perm_iff {rows : List ρ} :
    (∀ rows₁ rows₂, rows₁.Perm rows → rows₂.Perm rows →
        collect key value rows₁ = collect key value rows₂) ↔
      ∀ r₁ ∈ rows, ∀ r₂ ∈ rows, ∀ k, key r₁ = some k → key r₂ = some k → value r₁ = value r₂ := by
  constructor
  · intro h r₁ hr₁ r₂ hr₂ k hk₁ hk₂
    -- the order in which a given row comes last
    have hlast {r : ρ} (hr : r ∈ rows) (hk : key r = some k) :
        ∃ rows', rows'.Perm rows ∧ (collect key value rows').lookup k = some (value r) := by
      obtain ⟨as, bs, rfl⟩ := List.append_of_mem hr
      refine ⟨as ++ bs ++ [r], ?_, ?_⟩
      · exact (List.perm_append_singleton r (as ++ bs)).trans List.perm_middle.symm
      · simp [lookup_collect, hk]
    obtain ⟨rows₁, hp₁, hl₁⟩ := hlast hr₁ hk₁
    obtain ⟨rows₂, hp₂, hl₂⟩ := hlast hr₂ hk₂
    rw [h rows₁ rows₂ hp₁ hp₂, hl₂] at hl₁
    exact (Option.some.inj hl₁).symm
  · intro h rows₁ rows₂ hp₁ hp₂
    refine ext_lookup fun k => ?_
    have hperm := (hp₁.trans hp₂.symm).filter fun r => key r = some k
    rw [lookup_collect, lookup_collect]
    cases hl₁ : (rows₁.filter fun r => key r = some k).getLast? with
    | none =>
      rw [List.getLast?_eq_none_iff.1 hl₁] at hperm
      rw [hperm.nil_eq.symm]
      rfl
    | some r₁ =>
      cases hl₂ : (rows₂.filter fun r => key r = some k).getLast? with
      | none =>
        rw [List.getLast?_eq_none_iff.1 hl₂] at hperm
        rw [hperm.eq_nil] at hl₁
        cases hl₁
      | some r₂ =>
        obtain ⟨hr₁, hk₁⟩ := List.mem_filter.1 (List.mem_of_getLast? hl₁)
        obtain ⟨hr₂, hk₂⟩ := List.mem_filter.1 (List.mem_of_getLast? hl₂)
        have hvalue := h r₁ (hp₁.mem_iff.1 hr₁) r₂ (hp₂.mem_iff.1 hr₂) k (of_decide_eq_true hk₁)
          (of_decide_eq_true hk₂)
        rw [Option.map_some, Option.map_some, hvalue]

end Collect

end GoMap
