import Mathlib.Data.List.Basic
import Mathlib.Data.List.Nodup
import Mathlib.Data.List.Perm.Basic
import Mathlib.Order.Defs.LinearOrder
import Mathlib.Order.Lattice

/-!
# The newest rows

The rows of a list that have fewer than `n` newer rows, and the same rows as the first `n` of a
listing from the newest to the oldest.

A retention that keeps a number of rows is specified without a listing, by how many rows are newer
than a row. The lemma connects it to the code, which lists the rows and takes out the rest.

## Main definitions

* `Newest.newer`: how many rows are newer.
* `Newest.newest`: the newest rows.

## Main results

* `Newest.filter_not_mem_drop`: without the rest of a listing, the newest rows are left.
-/

namespace Newest

variable {α κ : Type*} [LinearOrder κ] (key : α → κ)

/-- How many rows are newer than one. -/
def newer (rows : List α) (b : α) : ℕ := (rows.filter fun a => key b < key a).length

/-- The rows with fewer than `n` newer ones. -/
def newest (n : ℕ) (rows : List α) : List α := rows.filter fun b => newer key rows b < n

/-- The rows are listed from the newest to the oldest, and no two are of the same time. -/
def Listed (listing : List α) : Prop := listing.Pairwise fun a b => key b < key a

variable {key}

theorem newer_perm {rows rows' : List α} (h : rows.Perm rows') (b : α) :
    newer key rows b = newer key rows' b :=
  (h.filter _).length_eq

/-- The newer rows are those before it in a listing. -/
theorem newer_append_cons {before after : List α} {b : α} (h : Listed key (before ++ b :: after)) :
    newer key (before ++ b :: after) b = before.length := by
  obtain ⟨-, hb, hcross⟩ := List.pairwise_append.1 h
  obtain ⟨hafter, -⟩ := List.pairwise_cons.1 hb
  have hbefore : before.filter (fun a => decide (key b < key a)) = before :=
    List.filter_eq_self.2 fun a ha => decide_eq_true (hcross a ha b List.mem_cons_self)
  have hrest : (b :: after).filter (fun a => decide (key b < key a)) = [] := by
    refine List.filter_eq_nil_iff.2 fun a ha => ?_
    rw [decide_eq_true_eq]
    obtain rfl | ha := List.mem_cons.1 ha
    · exact lt_irrefl _
    · exact lt_asymm (hafter a ha)
  rw [newer, List.filter_append, hbefore, hrest, List.append_nil]

theorem Listed.nodup {listing : List α} (h : Listed key listing) : listing.Nodup :=
  h.imp fun {a b} hlt heq => by
    subst heq
    exact lt_irrefl _ hlt

/-- A row is among the first `n` of a listing when it has fewer than `n` newer ones. -/
theorem mem_drop_iff {listing : List α} (h : Listed key listing) {b : α} (hb : b ∈ listing)
    (n : ℕ) :
    b ∈ listing.drop n ↔ n ≤ newer key listing b := by
  obtain ⟨before, after, rfl⟩ := List.append_of_mem hb
  rw [newer_append_cons h]
  constructor
  · intro hmem
    by_contra hlt
    -- past its place, the row would be there twice
    have hdrop : (before ++ b :: after).drop n = after.drop (n - before.length - 1) := by
      obtain ⟨k, rfl⟩ := Nat.exists_eq_add_of_lt (Nat.lt_of_not_le hlt)
      rw [List.drop_append, List.drop_eq_nil_of_le (by omega), List.nil_append,
        show before.length + k + 1 - before.length = k + 1 by omega, List.drop_succ_cons]
      rfl
    rw [hdrop] at hmem
    exact (List.nodup_cons.1 (List.nodup_append.1 h.nodup).2.1).1 (List.mem_of_mem_drop hmem)
  · intro hle
    rw [List.drop_append_of_le_length hle]
    exact List.mem_append_right _ List.mem_cons_self

/-- **The rows that are left** when the rest of a listing is taken out are the newest. -/
theorem filter_not_mem_drop {rows listing : List α} (hperm : listing.Perm rows)
    (h : Listed key listing) (n : ℕ) {keep : α → Bool}
    (hkeep : ∀ b ∈ rows, keep b = true ↔ b ∉ listing.drop n) :
    rows.filter keep = newest key n rows := by
  refine List.filter_congr fun b hb => ?_
  rw [Bool.eq_iff_iff, hkeep b hb, mem_drop_iff h (hperm.mem_iff.2 hb), newer_perm hperm,
    Nat.not_le, decide_eq_true_eq]

end Newest
