import Mathlib.Order.Lattice
import Mathlib.Tactic.Common

/-!
# Longest common subsequences

The length of a longest common subsequence of two lists that grow at their ends.

The property is a relation, and its rules give the length for two lists with one more element from
those of the shorter ones. A dynamic program that fills a table by these rules therefore has the
length in each of its cells, whichever order it fills them in.

## Main definitions

* `IsLcsLength`: a common subsequence has this length and none is longer.

## Main results

* `IsLcsLength.concat_same`, `IsLcsLength.concat_ne`: the rules of the dynamic program.
* `IsLcsLength.unique`: there is one such length.
-/

namespace OpenvpnControl

section Lcs

variable {α : Type} {a b l : List α} {x y : α} {k k' : ℕ}

/-- The length of a longest common subsequence of two lists. -/
structure IsLcsLength (k : ℕ) (a b : List α) : Prop where
  reached : ∃ l : List α, l.Sublist a ∧ l.Sublist b ∧ l.length = k
  bound : ∀ l : List α, l.Sublist a → l.Sublist b → l.length ≤ k

theorem IsLcsLength.unique (h : IsLcsLength k a b) (h' : IsLcsLength k' a b) : k = k' := by
  obtain ⟨l, ha, hb, rfl⟩ := h.reached
  obtain ⟨l', ha', hb', rfl⟩ := h'.reached
  exact le_antisymm (h'.bound l ha hb) (h.bound l' ha' hb')

theorem isLcsLength_nil_left (b : List α) : IsLcsLength 0 [] b where
  reached := ⟨[], List.nil_sublist _, List.nil_sublist _, rfl⟩
  bound l ha _ := by rw [List.sublist_nil.1 ha, List.length_nil]

theorem isLcsLength_nil_right (a : List α) : IsLcsLength 0 a [] where
  reached := ⟨[], List.nil_sublist _, List.nil_sublist _, rfl⟩
  bound l _ hb := by rw [List.sublist_nil.1 hb, List.length_nil]

/-- A subsequence of a list with one more element leaves the element out or ends in it. -/
theorem sublist_concat_iff : l.Sublist (a ++ [x]) ↔ l.Sublist a ∨ ∃ r : List α,
    l = r ++ [x] ∧ r.Sublist a := by
  rw [List.sublist_append_iff]
  constructor
  · rintro ⟨l₁, l₂, rfl, h₁, h₂⟩
    obtain h₃ | ⟨r, rfl, h₃⟩ := List.sublist_cons_iff.1 h₂
    · rw [List.sublist_nil.1 h₃, List.append_nil]
      exact Or.inl h₁
    · rw [List.sublist_nil.1 h₃]
      exact Or.inr ⟨l₁, rfl, h₁⟩
  · rintro (h | ⟨r, rfl, h⟩)
    · exact ⟨l, [], (List.append_nil l).symm, h, List.nil_sublist _⟩
    · exact ⟨r, [x], rfl, h, List.Sublist.refl _⟩

/-- Both lists get the same element. -/
theorem IsLcsLength.concat_same (h : IsLcsLength k a b) (x : α) :
    IsLcsLength (k + 1) (a ++ [x]) (b ++ [x]) where
  reached := by
    obtain ⟨l, ha, hb, rfl⟩ := h.reached
    exact ⟨l ++ [x], ha.append_right [x], hb.append_right [x], by simp⟩
  bound l ha hb := by
    have hshort {r : List α} (hra : r.Sublist a) (hrb : r.Sublist b) : (r ++
        [x]).length ≤ k + 1 := by
      have := h.bound r hra hrb
      simpa using this
    have hinit (r : List α) : r.Sublist (r ++ [x]) := List.sublist_append_left r [x]
    obtain ha' | ⟨r, rfl, ha'⟩ := sublist_concat_iff.1 ha
    · obtain hb' | ⟨r, rfl, hb'⟩ := sublist_concat_iff.1 hb
      · exact (h.bound l ha' hb').trans (Nat.le_succ k)
      · exact hshort ((hinit r).trans ha') hb'
    · obtain hb' | ⟨r', heq, hb'⟩ := sublist_concat_iff.1 hb
      · exact hshort ha' ((hinit r).trans hb')
      · obtain rfl := (List.append_inj' heq rfl).1
        exact hshort ha' hb'

/-- The lists get different elements, of which a common subsequence ends in one at most. -/
theorem IsLcsLength.concat_ne (hxy : x ≠ y) (h : IsLcsLength k a (b ++ [y]))
    (h' : IsLcsLength k' (a ++ [x]) b) : IsLcsLength (max k k') (a ++ [x]) (b ++ [y]) where
  reached := by
    obtain hle | hle := le_total k k'
    · obtain ⟨l, ha, hb, hl⟩ := h'.reached
      exact ⟨l, ha, hb.trans (List.sublist_append_left b [y]), by rw [hl, max_eq_right hle]⟩
    · obtain ⟨l, ha, hb, hl⟩ := h.reached
      exact ⟨l, ha.trans (List.sublist_append_left a [x]), hb, by rw [hl, max_eq_left hle]⟩
  bound l ha hb := by
    obtain ha' | ⟨r, rfl, -⟩ := sublist_concat_iff.1 ha
    · exact (h.bound l ha' hb).trans (le_max_left k k')
    · obtain hb' | ⟨r', heq, -⟩ := sublist_concat_iff.1 hb
      · exact (h'.bound _ ha hb').trans (le_max_right k k')
      · exact absurd (List.singleton_inj.1 (List.append_inj' heq rfl).2) hxy

end Lcs

end OpenvpnControl
