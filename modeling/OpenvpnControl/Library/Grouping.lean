import Mathlib.Data.List.Nodup
import Mathlib.Logic.Function.Basic
import Mathlib.Tactic.SplitIfs

/-!
# Loops that write one entry of a map at a time

A loop over a list reads the entry of a key, and writes it again. What it leaves at a key depends on
the elements with that key only.

The map is a function from keys to entries. This is the loop by which rows of one table are
collected under the rows of another one, so that no query is needed for each of them.

## Main definitions

* `Grouping.collect`: the loop.

## Main results

* `Grouping.collect_apply`: the entry of a key.
* `Grouping.collect_of_nodup`: the entry of a key that one element has.
-/

namespace Grouping

variable {ι κ σ : Type*} [DecidableEq κ] (key : ι → κ) (add : σ → ι → σ)

/-- The loop that writes the entry of the key of each element. -/
def collect (m : κ → σ) (l : List ι) : κ → σ :=
  l.foldl (fun m i => Function.update m (key i) (add (m (key i)) i)) m

variable {key add} {m : κ → σ} {l : List ι}

/-- **The entry of a key** is what the elements with the key write. -/
theorem collect_apply (m : κ → σ) (l : List ι) (k : κ) :
    collect key add m l k = (l.filter fun i => key i = k).foldl add (m k) := by
  induction l generalizing m with
  | nil => rfl
  | cons i l ih =>
    rw [collect, List.foldl_cons, ← collect, ih]
    by_cases hk : key i = k
    · subst hk
      rw [Function.update_self, List.filter_cons_of_pos (by simp), List.foldl_cons]
    · rw [Function.update_of_ne (Ne.symm hk), List.filter_cons_of_neg (by simpa using hk)]

/-- The elements with the key of an element, when no other one has the key. -/
theorem filter_key_of_nodup (h : (l.map key).Nodup) {i : ι} (hi : i ∈ l) :
    (l.filter fun j => key j = key i) = [i] := by
  induction l with
  | nil => cases hi
  | cons j l ih =>
    obtain ⟨hj, hl⟩ := List.nodup_cons.1 (by simpa only [List.map_cons] using h)
    rcases List.mem_cons.1 hi with rfl | hi
    · rw [List.filter_cons_of_pos (by simp), List.filter_eq_nil_iff.2]
      intro k hk hkey
      exact hj (List.mem_map.2 ⟨k, hk, of_decide_eq_true hkey⟩)
    · have hne : key j ≠ key i := fun hkey => hj (List.mem_map.2 ⟨i, hi, hkey.symm⟩)
      rw [List.filter_cons_of_neg (by simpa using hne), ih hl hi]

/-- The entry of the key of an element, when no other one has the key. -/
theorem collect_of_nodup (h : (l.map key).Nodup) {i : ι} (hi : i ∈ l) :
    collect key add m l (key i) = add (m (key i)) i := by
  rw [collect_apply, filter_key_of_nodup h hi]
  rfl

end Grouping
