import Mathlib.Data.List.Perm.Basic
import Mathlib.Tactic.Common

/-!
# Dragging a row of a table

The tables of rules are put in order by dragging a row onto another one. `reorderRowInList` of
`App.tsx` moves the row by its id. A row that is dropped below itself is taken out with every other
row of its id; this file shows that no other drop loses a row.

## Main definitions

* `reorderRowInList`: the rows after a drop.
* `OnlyMoved`: the rows have one row in another place, next to the row it was dropped on.

## Main results

* `onlyMoved_iff`: a drop only moves a row, unless it drops a row of a repeated id below itself.
-/

namespace OpenvpnControl.Frontend

section Reorder

variable {ρ : Type} (rowId : ρ → Option String)

/-- `String(x?.id ?? "")`. -/
def idText (x : ρ) : String := (rowId x).getD ""

/-- `arr.splice(i, 0, item)`. -/
def spliceIn (arr : List ρ) (i : ℕ) (item : ρ) : List ρ := arr.take i ++ item :: arr.drop i

/-- `reorderRowInList`, for a list of rows whose ids are read by `rowId`. -/
def reorderRowInList (list : List ρ) (dragId targetId : Option String)
    (placeAfter : Bool) : List ρ :=
  let dragIdStr := dragId.getD ""
  let targetIdStr := targetId.getD ""
  if dragIdStr = "" ∨ targetIdStr = "" then list
  else if dragIdStr = targetIdStr then
    if placeAfter = false then list
    else
      match list.findIdx? fun x => idText rowId x = dragIdStr with
      | none => list
      | some origIdx =>
        match list[origIdx]? with
        | none => list
        | some item =>
          let rest := list.filter fun x => idText rowId x ≠ dragIdStr
          spliceIn rest (min (origIdx + 1) rest.length) item
  else
    match list.findIdx? fun x => idText rowId x = dragIdStr,
      list.findIdx? fun x => idText rowId x = targetIdStr with
    | some source, some targetIdx =>
      match list[source]? with
      | none => list
      | some item =>
        let insertAt := targetIdx + if placeAfter then 1 else 0
        spliceIn (list.eraseIdx source) (if source < insertAt then insertAt - 1 else insertAt) item
    | _, _ => list

/-- `x` is the first row with the id, between the rows `pre` and `suf`. -/
structure First (id : String) (rows pre : List ρ) (x : ρ) (suf : List ρ) : Prop where
  eq : rows = pre ++ x :: suf
  has : idText rowId x = id
  before : ∀ y ∈ pre, idText rowId y ≠ id

/-- The rows after the drop are the rows before it, with the first row of the dragged id in another
place: next to the first row of the target id, when this is another id. A row whose id is missing or
empty has no id. -/
structure OnlyMoved (drag target : String) (placeAfter : Bool) (rows result : List ρ) : Prop where
  perm : result.Perm rows
  order : result = rows ∨ ∃ pre x suf pre' suf', First rowId drag rows pre x suf ∧
    result = pre' ++ x :: suf' ∧ pre' ++ suf' = pre ++ suf
  placed : drag ≠ target → drag ≠ "" → target ≠ "" →
    (∃ y ∈ rows, idText rowId y = drag) → (∃ y ∈ rows, idText rowId y = target) →
      ∃ pre x suf l t r, First rowId drag rows pre x suf ∧ First rowId target (pre ++ suf) l t r ∧
        result = if placeAfter then l ++ t :: x :: r else l ++ x :: t :: r

variable {rowId} {id drag target : String} {rows pre suf l r : List ρ} {x t : ρ} {placeAfter : Bool}

/-! ### Rows by their ids -/

theorem First.findIdx? (h : First rowId id rows pre x suf) :
    rows.findIdx? (fun y => idText rowId y = id) = some pre.length := by
  obtain ⟨rfl, hx, hpre⟩ := h
  rw [List.findIdx?_append, List.findIdx?_eq_none_iff.2 fun y hy => by simpa using hpre y hy,
    List.findIdx?_cons]
  simp [hx]

theorem First.getElem? (h : First rowId id rows pre x suf) : rows[pre.length]? = some x := by
  rw [h.eq]
  simp

theorem First.eraseIdx (h : First rowId id rows pre x suf) :
    rows.eraseIdx pre.length = pre ++ suf := by
  rw [h.eq, List.eraseIdx_append_of_length_le (Nat.le_refl _), Nat.sub_self,
    List.eraseIdx_cons_zero]

/-- An id has a first row, or none. -/
theorem exists_first (rowId : ρ → Option String) (id : String) (rows : List ρ) :
    (∃ pre x suf, First rowId id rows pre x suf) ∨ ∀ y ∈ rows, idText rowId y ≠ id := by
  induction rows with
  | nil => exact Or.inr fun y hy => absurd hy List.not_mem_nil
  | cons y rows ih =>
    by_cases hy : idText rowId y = id
    · exact Or.inl ⟨[], y, rows, rfl, hy, fun z hz => absurd hz List.not_mem_nil⟩
    · obtain ⟨pre, x, suf, hrows, hx, hpre⟩ | hnone := ih
      · exact Or.inl ⟨y :: pre, x, suf, by rw [hrows, List.cons_append], hx,
          List.forall_mem_cons.2 ⟨hy, hpre⟩⟩
      · exact Or.inr (List.forall_mem_cons.2 ⟨hy, hnone⟩)

theorem findIdx?_eq_none (h : ∀ y ∈ rows, idText rowId y ≠ id) :
    rows.findIdx? (fun y => idText rowId y = id) = none :=
  List.findIdx?_eq_none_iff.2 fun y hy => by simpa using h y hy

theorem First.mem (h : First rowId id rows pre x suf) : x ∈ rows := by
  rw [h.eq]
  exact List.mem_append_right _ List.mem_cons_self

theorem spliceIn_append (a b : List ρ) (x : ρ) : spliceIn (a ++ b) a.length x = a ++ x :: b := by
  rw [spliceIn, List.take_left, List.drop_left]

/-! ### The drop -/

/-- A drop that puts the dragged row next to the target. -/
theorem onlyMoved_of_placed {result : List ρ} (hdrag : First rowId drag rows pre x suf)
    (htarget : First rowId target (pre ++ suf) l t r)
    (hresult : result = if placeAfter then l ++ t :: x :: r else l ++ x :: t :: r) :
    OnlyMoved rowId drag target placeAfter rows result := by
  have hplace : ∃ pre' suf', result = pre' ++ x :: suf' ∧ pre' ++ suf' = pre ++ suf := by
    rw [htarget.eq, hresult]
    cases placeAfter with
    | true => exact ⟨l ++ [t], r, by simp, by simp⟩
    | false => exact ⟨l, t :: r, by simp, rfl⟩
  obtain ⟨pre', suf', hres, hrest⟩ := hplace
  refine ⟨?_, Or.inr ⟨pre, x, suf, pre', suf', hdrag, hres, hrest⟩, ?_⟩
  · rw [hres, hdrag.eq]
    exact (List.perm_middle.trans (hrest ▸ List.Perm.refl _)).trans List.perm_middle.symm
  · exact fun _ _ _ _ _ => ⟨pre, x, suf, l, t, r, hdrag, htarget, hresult⟩

/-- The rows stay as they are, when one of the ids does not occur. -/
theorem onlyMoved_self (h : drag = target ∨ drag = "" ∨ target = "" ∨
    (∀ y ∈ rows, idText rowId y ≠ drag) ∨ ∀ y ∈ rows, idText rowId y ≠ target) :
    OnlyMoved rowId drag target placeAfter rows rows := by
  refine ⟨List.Perm.refl _, Or.inl rfl, fun hne hd ht hdrag htarget => ?_⟩
  obtain ⟨y, hy, hyd⟩ := hdrag
  obtain ⟨z, hz, hzt⟩ := htarget
  obtain h | h | h | h | h := h
  · exact absurd h hne
  · exact absurd h hd
  · exact absurd h ht
  · exact absurd hyd (h y hy)
  · exact absurd hzt (h z hz)

/-- **Different ids.** The dragged row is put next to the target, wherever it was before. -/
theorem reorder_of_ne {dragId targetId : Option String} (hd : dragId.getD "" ≠ "")
    (ht : targetId.getD "" ≠ "") (hne : dragId.getD "" ≠ targetId.getD "")
    (hdrag : First rowId (dragId.getD "") rows pre x suf)
    (htarget : First rowId (targetId.getD "") (pre ++ suf) l t r) :
    reorderRowInList rowId rows dragId targetId placeAfter =
      if placeAfter then l ++ t :: x :: r else l ++ x :: t :: r := by
  have hplace : ∀ i, i = l.length → spliceIn (pre ++ suf) i x = l ++ x :: t :: r := by
    rintro i rfl
    rw [htarget.eq, spliceIn_append]
  have hbelow : ∀ i, i = l.length + 1 → spliceIn (pre ++ suf) i x = l ++ t :: x :: r := by
    rintro i rfl
    have hlist : l ++ t :: r = (l ++ [t]) ++ r := by simp
    have hlen : l.length + 1 = (l ++ [t]).length := by simp
    rw [htarget.eq, hlist, hlen, spliceIn_append]
    simp
  simp only [reorderRowInList, hd, ht, or_self, if_false, hne, hdrag.findIdx?]
  -- the target is below the dragged row or above it
  have hcases : (∃ a, l = pre ++ a ∧ suf = a ++ t :: r) ∨ ∃ a,
      pre = l ++ t :: a ∧ r = a ++ suf := by
    obtain ⟨a, hl, hsuf⟩ | ⟨_ | ⟨c, a⟩, hpre, hr⟩ := List.append_eq_append_iff.1 htarget.eq
    · exact Or.inl ⟨a, hl, hsuf⟩
    · exact Or.inl ⟨[], by rw [hpre, List.append_nil, List.append_nil], hr.symm⟩
    · obtain ⟨rfl, rfl⟩ := List.cons.inj hr
      exact Or.inr ⟨a, hpre, rfl⟩
  obtain ⟨a, hl, hsuf⟩ | ⟨a, hpre, hr⟩ := hcases
  · have hfirst : First rowId (targetId.getD "") rows (pre ++ x :: a) t r := by
      refine ⟨by rw [hdrag.eq, hsuf]; simp, htarget.has, fun y hy => ?_⟩
      obtain hy | hy := List.mem_append.1 hy
      · exact htarget.before y (hl ▸ List.mem_append_left _ hy)
      · obtain rfl | hy := List.mem_cons.1 hy
        · exact fun h => hne (hdrag.has.symm.trans h)
        · exact htarget.before y (hl ▸ List.mem_append_right _ hy)
    have hlen : (pre ++ x :: a).length = l.length + 1 := by simp [hl]; omega
    have hle : pre.length ≤ l.length := by simp [hl]
    rw [hfirst.findIdx?]
    simp only [hlen, hdrag.getElem?, hdrag.eraseIdx]
    cases placeAfter with
    | true =>
      rw [if_pos rfl, if_pos rfl, if_pos (by omega)]
      exact hbelow _ (by omega)
    | false =>
      rw [if_neg Bool.false_ne_true, if_neg Bool.false_ne_true, if_pos (by omega)]
      exact hplace _ (by omega)
  · have hfirst : First rowId (targetId.getD "") rows l t (a ++ x :: suf) :=
      ⟨by rw [hdrag.eq, hpre]; simp, htarget.has, htarget.before⟩
    have hlt : l.length < pre.length := by simp [hpre]
    rw [hfirst.findIdx?]
    simp only [hdrag.getElem?, hdrag.eraseIdx]
    cases placeAfter with
    | true =>
      rw [if_pos rfl, if_pos rfl, if_neg (by omega)]
      exact hbelow _ rfl
    | false =>
      rw [if_neg Bool.false_ne_true, if_neg Bool.false_ne_true, if_neg (by omega)]
      exact hplace _ rfl

/-- The rows of an id after its first row. -/
theorem countP_of_first (h : First rowId id rows pre x suf) :
    rows.countP (fun y => idText rowId y = id) = 1 + suf.countP fun y => idText rowId y = id := by
  have hpre : pre.countP (fun y => idText rowId y = id) = 0 :=
    List.countP_eq_zero.2 fun y hy => by simpa using h.before y hy
  rw [h.eq, List.countP_append, List.countP_cons, hpre]
  simp only [h.has, decide_true, if_true]
  omega

/-- **The same id.** A row that is dropped below itself goes one place down, and other rows of its
id are lost. -/
theorem reorder_of_eq {dragId targetId : Option String} (hd : dragId.getD "" ≠ "")
    (heq : dragId.getD "" = targetId.getD "")
    (hdrag : First rowId (dragId.getD "") rows pre x suf) :
    ∃ pre' suf', reorderRowInList rowId rows dragId targetId true = pre' ++ x :: suf' ∧
      pre' ++ suf' = pre ++ suf.filter fun y => idText rowId y ≠ dragId.getD "" := by
  have hrest : (rows.filter fun y => idText rowId y ≠ dragId.getD "") =
      pre ++ suf.filter fun y => idText rowId y ≠ dragId.getD "" := by
    rw [hdrag.eq, List.filter_append, List.filter_cons_of_neg (by simp [hdrag.has]),
      List.filter_eq_self.2 fun y hy => by simpa using hdrag.before y hy]
  simp only [reorderRowInList, hd, or_self, if_false, ← heq, if_true, Bool.true_eq_false,
    hdrag.findIdx?, hdrag.getElem?, hrest]
  exact ⟨_, _, rfl, List.take_append_drop _ _⟩

/-- A row that is dropped below itself only moves when its id is not repeated. -/
theorem onlyMoved_of_eq_iff {dragId targetId : Option String} (hd : dragId.getD "" ≠ "")
    (heq : dragId.getD "" = targetId.getD "")
    (hdrag : First rowId (dragId.getD "") rows pre x suf) :
    OnlyMoved rowId (dragId.getD "") (targetId.getD "") true rows
        (reorderRowInList rowId rows dragId targetId true) ↔
      rows.countP (fun y => idText rowId y = dragId.getD "") < 2 := by
  obtain ⟨pre', suf', hresult, hrest⟩ := reorder_of_eq hd heq hdrag
  rw [hresult, countP_of_first hdrag]
  constructor
  · rintro ⟨hperm, -, -⟩
    have hkept : suf.filter (fun y => idText rowId y ≠ dragId.getD "") = suf := by
      refine List.filter_sublist.eq_of_length ?_
      have hlen := hperm.length_eq
      have hsplit := congrArg List.length hrest
      rw [hdrag.eq] at hlen
      simp only [List.length_append, List.length_cons] at hlen hsplit
      omega
    have hzero : suf.countP (fun y => idText rowId y = dragId.getD "") = 0 :=
      List.countP_eq_zero.2 fun y hy => by simpa using List.filter_eq_self.1 hkept y hy
    omega
  · intro hcount
    have hzero : suf.countP (fun y => idText rowId y = dragId.getD "") = 0 := by omega
    rw [List.filter_eq_self.2 fun y hy => by simpa using List.countP_eq_zero.1 hzero y hy] at hrest
    refine ⟨?_, Or.inr ⟨pre, x, suf, pre', suf', hdrag, rfl, hrest⟩, fun hne => absurd heq hne⟩
    rw [hdrag.eq]
    exact (List.perm_middle.trans (hrest ▸ List.Perm.refl _)).trans List.perm_middle.symm

/-- **A drop only moves a row**, unless it drops a row below itself and the id of the row is
repeated. -/
theorem onlyMoved_iff (rowId : ρ → Option String) (rows : List ρ) (dragId targetId : Option String)
    (placeAfter : Bool) :
    OnlyMoved rowId (dragId.getD "") (targetId.getD "") placeAfter rows
        (reorderRowInList rowId rows dragId targetId placeAfter) ↔
      ¬(dragId.getD "" ≠ "" ∧ dragId.getD "" = targetId.getD "" ∧ placeAfter = true ∧
        2 ≤ rows.countP fun y => idText rowId y = dragId.getD "") := by
  by_cases hempty : dragId.getD "" = "" ∨ targetId.getD "" = ""
  · have hself : reorderRowInList rowId rows dragId targetId placeAfter = rows := by
      simp only [reorderRowInList, hempty, if_true]
    rw [hself]
    refine iff_of_true (onlyMoved_self ?_) fun ⟨hd, heq, _⟩ => ?_
    · exact hempty.elim (fun h => Or.inr (Or.inl h)) fun h => Or.inr (Or.inr (Or.inl h))
    · exact hempty.elim hd fun h => hd (heq.trans h)
  obtain ⟨hd, ht⟩ := not_or.1 hempty
  by_cases heq : dragId.getD "" = targetId.getD ""
  · by_cases hafter : placeAfter = true
    · subst hafter
      obtain ⟨pre, x, suf, hdrag⟩ | hnone := exists_first rowId (dragId.getD "") rows
      · rw [onlyMoved_of_eq_iff hd heq hdrag, ← Nat.not_le]
        exact not_congr ⟨fun h => ⟨hd, heq, rfl, h⟩, fun h => h.2.2.2⟩
      · have hself : reorderRowInList rowId rows dragId targetId true = rows := by
          simp only [reorderRowInList, hd, ← heq, or_self, if_false, if_true, Bool.true_eq_false,
            findIdx?_eq_none hnone]
        rw [hself]
        refine iff_of_true (onlyMoved_self (Or.inl heq)) fun ⟨_, _, _, hcount⟩ => ?_
        have hzero : rows.countP (fun y => idText rowId y = dragId.getD "") = 0 :=
          List.countP_eq_zero.2 fun y hy => by simpa using hnone y hy
        omega
    · obtain rfl := eq_false_of_ne_true hafter
      have hself : reorderRowInList rowId rows dragId targetId false = rows := by
        simp only [reorderRowInList, hd, ← heq, or_self, if_false, if_true]
      rw [hself]
      exact iff_of_true (onlyMoved_self (Or.inl heq)) fun h => absurd h.2.2.1 Bool.false_ne_true
  · refine iff_of_true ?_ fun h => heq h.2.1
    obtain ⟨pre, x, suf, hdrag⟩ | hnone := exists_first rowId (dragId.getD "") rows
    · obtain ⟨l, t, r, htarget⟩ | hnone := exists_first rowId (targetId.getD "") (pre ++ suf)
      · exact onlyMoved_of_placed hdrag htarget (reorder_of_ne hd ht heq hdrag htarget)
      · have hnotarget : ∀ y ∈ rows, idText rowId y ≠ targetId.getD "" := fun y hy => by
          rw [hdrag.eq] at hy
          obtain hy | hy := List.mem_append.1 hy
          · exact hnone y (List.mem_append_left _ hy)
          · obtain rfl | hy := List.mem_cons.1 hy
            · exact fun h => heq (hdrag.has.symm.trans h)
            · exact hnone y (List.mem_append_right _ hy)
        have hself : reorderRowInList rowId rows dragId targetId placeAfter = rows := by
          simp only [reorderRowInList, hd, ht, or_self, if_false, heq, hdrag.findIdx?,
            findIdx?_eq_none hnotarget]
        rw [hself]
        exact onlyMoved_self (Or.inr (Or.inr (Or.inr (Or.inr hnotarget))))
    · have hself : reorderRowInList rowId rows dragId targetId placeAfter = rows := by
        simp only [reorderRowInList, hd, ht, or_self, if_false, heq, findIdx?_eq_none hnone]
      rw [hself]
      exact onlyMoved_self (Or.inr (Or.inr (Or.inr (Or.inl hnone))))

/-- Of two rules of one id, the second is lost. -/
theorem reorder_loses :
    ¬∀ (ρ : Type) (rowId : ρ → Option String) (rows : List ρ) (dragId targetId : Option String)
      (placeAfter : Bool), OnlyMoved rowId (dragId.getD "") (targetId.getD "") placeAfter rows
        (reorderRowInList rowId rows dragId targetId placeAfter) := by
  intro h
  have hlen :=
    (h (String × String) (fun x => some x.1) [("r1", "allow"), ("r1", "deny")] (some "r1")
    (some "r1") true).perm.length_eq
  exact absurd hlen (by decide)

end Reorder

end OpenvpnControl.Frontend
