import OpenvpnControl.Library.JsStrings
import OpenvpnControl.Library.Lcs

/-!
# The difference of two configurations

`lineDiffLcs` of `App.tsx` compares the configuration of a server with its draft, line by line. It
fills a table with the lengths of the longest common subsequences of the first lines of both texts,
and goes back through it from the last cell, where equal lines are kept and a tie adds a line before
it removes one. `rawConfigFromServerSettingsDiff` makes a text from the difference, which the
browser posts to the panel, and the panel sends to the agent of the node.

The text of the difference has the lines of the draft as they are. The panel trims it as it trims
every field of a request, so the agent gets a draft without the white space before its first line
and after its last one.

## Main definitions

* `Table`, `fillRows`, `walk`: the table of lengths and the way back through it.
* `lineDiffLcs`, `rawConfigFromServerSettingsDiff`: the difference, and the text it stands for.
* `appliedRawConfig`: the text that the agent gets.
* `ExactDiff`: a difference that has the lines of both texts and keeps as many as can be kept.

## Main results

* `filled_fillRows`: the table satisfies its recursion at every cell.
* `exactDiff_walk`: the way back from a cell is an exact difference.
* `lineDiffLcs_exact`: the difference of two texts is exact, and what the agent gets of it.
* `blank_edges_lost`: white space around a draft does not reach the agent.
-/

namespace OpenvpnControl.Frontend

/-! ### Lines -/

/-- `replace(/\r\n/g, "\n")`. -/
def dropReturns : List Char → List Char
  | c :: d :: l => if c = '\r' ∧ d = '\n' then '\n' :: dropReturns l else c :: dropReturns (d :: l)
  | l => l

/-- `toLines` of `lineDiffLcs`. -/
def toLines (v : String) : List String :=
  (GoStrings.split (String.ofList (dropReturns v.toList)) '\n').rdropWhile fun line => line = ""

/-! ### The table -/

inductive LineType where
  | same
  | add
  | del
  deriving DecidableEq, Repr

structure DiffLine where
  type : LineType
  line : String
  deriving DecidableEq, Repr

/-- `dp`. -/
abbrev Table := ℕ → ℕ → ℕ

/-- `dp[i][j] = v`. -/
def Table.set (dp : Table) (i j v : ℕ) : Table := fun i' j' => if i' = i ∧
    j' = j then v else dp i' j'

variable (a b : List String)

/-- The value of a cell from the cells before it. -/
def cell (dp : Table) (i j : ℕ) : ℕ :=
  if a[i - 1]? = b[j - 1]? then dp (i - 1) (j - 1) + 1 else max (dp (i - 1) j) (dp i (j - 1))

/-- The inner loop of row `i`, up to column `j`. -/
def fillRow (i : ℕ) : ℕ → Table → Table
  | 0, dp => dp
  | j + 1, dp => (fillRow i j dp).set i (j + 1) (cell a b (fillRow i j dp) i (j + 1))

/-- The outer loop up to row `i`. -/
def fillRows : ℕ → Table → Table
  | 0, dp => dp
  | i + 1, dp => fillRow a b (i + 1) b.length (fillRows i dp)

/-! ### The difference -/

/-- The loop that goes back through the table, with the lines in the order in which it pushes
them. -/
def walk (dp : Table) (i j : ℕ) : List DiffLine :=
  if 0 < i ∨ 0 < j then
    if 0 < i ∧ 0 < j ∧ a[i - 1]? = b[j - 1]? then
      ⟨.same, a[i - 1]?.getD ""⟩ :: walk dp (i - 1) (j - 1)
    else if 0 < j ∧ (i = 0 ∨ dp (i - 1) j ≤ dp i (j - 1)) then
      ⟨.add, b[j - 1]?.getD ""⟩ :: walk dp i (j - 1)
    else ⟨.del, a[i - 1]?.getD ""⟩ :: walk dp (i - 1) j
  else []
termination_by i + j

def lineDiffLcs (oldStr newStr : String) : List DiffLine :=
  let a := toLines oldStr
  let b := toLines newStr
  let dp := fillRows a b a.length fun _ _ => 0
  (walk a b dp a.length b.length).reverse

def rawConfigFromServerSettingsDiff (diff : List DiffLine) : String :=
  if diff = [] then "" else "\n".intercalate ((diff.filter fun d => d.type ≠ .del).map (·.line))

/-- The text that `applyServerOpenVpnSettings` posts to the panel; a blank one is not posted. -/
def applyServerOpenVpnSettings (activeRaw draftRaw : String) : Option String :=
  let rawConfig := rawConfigFromServerSettingsDiff (lineDiffLcs activeRaw draftRaw)
  if JsStrings.trim rawConfig = "" then none else some rawConfig

/-- The text that `ApplyOpenvpnSettingsForPanel` sends to the agent of a node, from the one in the
request. -/
def applyOpenvpnSettingsForPanel (posted : String) : Option String :=
  -- `strField` trims
  let rawConfig := GoStrings.trimSpace posted
  if GoStrings.trimSpace rawConfig = "" then none else some rawConfig

/-- The text that the agent gets when the settings are applied. -/
def appliedRawConfig (activeRaw draftRaw : String) : Option String :=
  (applyServerOpenVpnSettings activeRaw draftRaw).bind applyOpenvpnSettingsForPanel

/-- The lines of a difference that are not of a type. -/
def linesBut (type : LineType) (diff : List DiffLine) : List String :=
  (diff.filter fun d => d.type ≠ type).map (·.line)

/-- Without the added lines the difference is the first list, without the removed lines it is the
second, and it keeps as many lines as the lists have in common. -/
structure ExactDiff (diff : List DiffLine) : Prop where
  old : linesBut .add diff = a
  new : linesBut .del diff = b
  same : IsLcsLength (diff.countP fun d => d.type = .same) a b

variable {a b} {dp : Table} {i j : ℕ}

/-! ### The loops -/

/-- The table satisfies its recursion in the rows above row `i` and in this row up to column `j`. -/
structure FilledTo (a b : List String) (dp : Table) (i j : ℕ) : Prop where
  row : ∀ j, dp 0 j = 0
  column : ∀ i, dp i 0 = 0
  cells : ∀ i' j', 1 ≤ i' → 1 ≤ j' → j' ≤ b.length → (i' < i ∨ i' = i ∧ j' ≤ j) →
    dp i' j' = cell a b dp i' j'

/-- A cell that is written later is not read. -/
theorem cell_set {i' j' v : ℕ} (h : 1 ≤ i') (hbefore : i' < i ∨ i' = i ∧ j' ≤ j + 1) (hj : 1 ≤ j') :
    cell a b (dp.set i (j + 1) v) i' j' = cell a b dp i' j' := by
  have hdiag : dp.set i (j + 1) v (i' - 1) (j' - 1) = dp (i' - 1) (j' - 1) := if_neg (by omega)
  have hup : dp.set i (j + 1) v (i' - 1) j' = dp (i' - 1) j' := if_neg (by omega)
  have hleft : dp.set i (j + 1) v i' (j' - 1) = dp i' (j' - 1) := if_neg (by omega)
  rw [cell, cell, hdiag, hup, hleft]

/-- One round of the inner loop. -/
theorem FilledTo.set (h : FilledTo a b dp i j) (hi : 1 ≤ i) :
    FilledTo a b (dp.set i (j + 1) (cell a b dp i (j + 1))) i (j + 1) where
  row j' := (if_neg (by omega)).trans (h.row j')
  column i' := (if_neg (by omega)).trans (h.column i')
  cells i' j' hi' hj' hle hbefore := by
    rw [cell_set hi' hbefore hj']
    by_cases hnew : i' = i ∧ j' = j + 1
    · obtain ⟨rfl, rfl⟩ := hnew
      exact if_pos ⟨rfl, rfl⟩
    · rw [← h.cells i' j' hi' hj' hle (by omega)]
      exact if_neg hnew

theorem FilledTo.fillRow (h : FilledTo a b dp i 0) (hi : 1 ≤ i) (j : ℕ) :
    FilledTo a b (fillRow a b i j dp) i j := by
  induction j with
  | zero => exact h
  | succ j ih => exact ih.set hi

/-- A row that is filled to its end is above the next one. -/
theorem FilledTo.next (h : FilledTo a b dp i b.length) : FilledTo a b dp (i + 1) 0 where
  row := h.row
  column := h.column
  cells i' j' hi' hj' hle hbefore := h.cells i' j' hi' hj' hle (by omega)

/-- **The table** satisfies its recursion at every cell. -/
theorem filled_fillRows (a b : List String) (i : ℕ) :
    FilledTo a b (fillRows a b i fun _ _ => 0) i b.length := by
  induction i with
  | zero => exact ⟨fun _ => rfl, fun _ => rfl, fun i' j' hi' _ _ hbefore => by omega⟩
  | succ i ih => exact ih.next.fillRow (by omega) b.length

/-- Its cells are lengths of longest common subsequences. -/
theorem isLcsLength_cell (h : FilledTo a b dp a.length b.length) (hi : i ≤ a.length)
    (hj : j ≤ b.length) :
    IsLcsLength (dp i j) (a.take i) (b.take j) := by
  induction i generalizing j with
  | zero =>
    rw [h.row, List.take_zero]
    exact isLcsLength_nil_left _
  | succ i ih =>
    induction j with
    | zero =>
      rw [h.column, List.take_zero]
      exact isLcsLength_nil_right _
    | succ j ihj =>
      have ha : a.take (i + 1) = a.take i ++ [a[i]] := List.take_succ_eq_append_getElem hi
      have hb : b.take (j + 1) = b.take j ++ [b[j]] := List.take_succ_eq_append_getElem hj
      have hdiag := ih (by omega) (show j ≤ b.length by omega)
      have hup := ih (by omega) hj
      have hleft := ihj (by omega)
      rw [h.cells (i + 1) (j + 1) (by omega) (by omega) hj (by omega), cell, Nat.add_sub_cancel,
        Nat.add_sub_cancel, List.getElem?_eq_getElem hi, List.getElem?_eq_getElem hj]
      by_cases heq : a[i] = b[j]
      · rw [if_pos (by rw [heq]), ha, hb, heq]
        exact hdiag.concat_same _
      · rw [if_neg fun h => heq (Option.some.inj h), ha, hb]
        rw [hb] at hup
        rw [ha] at hleft
        exact hup.concat_ne heq hleft

/-! ### The way back -/

section Exact

variable {diff : List DiffLine} {k : ℕ}

theorem linesBut_concat (type : LineType) (diff : List DiffLine) (d : DiffLine) :
    linesBut type (diff ++ [d]) = linesBut type diff ++ if d.type = type then [] else [d.line] := by
  by_cases h : d.type = type <;> simp [linesBut, List.filter_append, h]

theorem exactDiff_nil : ExactDiff [] [] [] := ⟨rfl, rfl, isLcsLength_nil_left []⟩

theorem ExactDiff.concat_same (h : ExactDiff a b diff) (x : String) :
    ExactDiff (a ++ [x]) (b ++ [x]) (diff ++ [⟨.same, x⟩]) where
  old := by simp [linesBut_concat, h.old]
  new := by simp [linesBut_concat, h.new]
  same := by
    rw [List.countP_append]
    exact h.same.concat_same x

/-- A line is added, which no longest common subsequence needs. -/
theorem ExactDiff.concat_add (h : ExactDiff a b diff) {y : String} (hk : IsLcsLength k a b)
    (hk' : IsLcsLength k a (b ++ [y])) : ExactDiff a (b ++ [y]) (diff ++ [⟨.add, y⟩]) where
  old := by simp [linesBut_concat, h.old]
  new := by simp [linesBut_concat, h.new]
  same := by
    rw [List.countP_append, h.same.unique hk]
    exact hk'

theorem ExactDiff.concat_del (h : ExactDiff a b diff) {x : String} (hk : IsLcsLength k a b)
    (hk' : IsLcsLength k (a ++ [x]) b) : ExactDiff (a ++ [x]) b (diff ++ [⟨.del, x⟩]) where
  old := by simp [linesBut_concat, h.old]
  new := by simp [linesBut_concat, h.new]
  same := by
    rw [List.countP_append, h.same.unique hk]
    exact hk'

end Exact

/-- **The way back** from a cell is an exact difference of the lines before it. -/
theorem exactDiff_walk (h : FilledTo a b dp a.length b.length) (hi : i ≤ a.length)
    (hj : j ≤ b.length) :
    ExactDiff (a.take i) (b.take j) (walk a b dp i j).reverse := by
  have hlast {l : List String} {n : ℕ} (hn : n + 1 ≤ l.length) :
      l.take (n + 1) = l.take n ++ [l[n]?.getD ""] := by
    rw [List.take_succ_eq_append_getElem hn, List.getElem?_eq_getElem hn, Option.getD_some]
  have hcell {i j : ℕ} (hi : i + 1 ≤ a.length) (hj : j + 1 ≤ b.length) (hne : ¬a[i]? = b[j]?) :
      dp (i + 1) (j + 1) = max (dp i (j + 1)) (dp (i + 1) j) := by
    rw [h.cells (i + 1) (j + 1) (by omega) (by omega) hj (by omega), cell, Nat.add_sub_cancel,
      Nat.add_sub_cancel, if_neg hne]
  rw [walk.eq_def]
  induction i, j using walk.induct a b dp with
  | case1 i j hpos hsame ih =>
    obtain ⟨i, rfl⟩ : ∃ n, i = n + 1 := ⟨i - 1, by omega⟩
    obtain ⟨j, rfl⟩ : ∃ n, j = n + 1 := ⟨j - 1, by omega⟩
    rw [if_pos hpos, if_pos hsame, List.reverse_cons, hlast hi, hlast hj]
    simp only [Nat.add_sub_cancel] at hsame ih ⊢
    rw [← hsame.2.2]
    rw [← walk.eq_def] at ih
    exact (ih (by omega) (by omega)).concat_same _
  | case2 i j hpos hsame hadd ih =>
    obtain ⟨j, rfl⟩ : ∃ n, j = n + 1 := ⟨j - 1, by omega⟩
    rw [if_pos hpos, if_neg hsame, if_pos hadd, List.reverse_cons]
    simp only [Nat.add_sub_cancel] at hsame hadd ih ⊢
    rw [← walk.eq_def] at ih
    have hlcs := isLcsLength_cell h hi hj
    have hk : dp i (j + 1) = dp i j := by
      obtain rfl | hle := hadd.2
      · rw [h.row, h.row]
      · cases i with
        | zero => rw [h.row, h.row]
        | succ i =>
          rw [hcell hi hj fun heq => hsame ⟨by omega, by omega, by rwa [Nat.add_sub_cancel]⟩]
          exact max_eq_right hle
    rw [hk, hlast hj] at hlcs
    rw [hlast hj]
    exact (ih hi (by omega)).concat_add (isLcsLength_cell h hi (by omega)) hlcs
  | case3 i j hpos hsame hadd ih =>
    have hipos : 0 < i := by
      by_contra hzero
      exact hadd ⟨by omega, Or.inl (by omega)⟩
    obtain ⟨i, rfl⟩ : ∃ n, i = n + 1 := ⟨i - 1, by omega⟩
    rw [if_pos hpos, if_neg hsame, if_neg hadd, List.reverse_cons]
    simp only [Nat.add_sub_cancel] at hsame hadd ih ⊢
    rw [← walk.eq_def] at ih
    have hlcs := isLcsLength_cell h hi hj
    have hk : dp (i + 1) j = dp i j := by
      cases j with
      | zero => rw [h.column, h.column]
      | succ j =>
        rw [hcell hi hj fun heq => hsame ⟨by omega, by omega, by rwa [Nat.add_sub_cancel]⟩]
        refine max_eq_left (Nat.le_of_not_le fun hle => hadd ⟨by omega, Or.inr hle⟩)
    rw [hk, hlast hi] at hlcs
    rw [hlast hi]
    exact (ih (by omega) hj).concat_del (isLcsLength_cell h (by omega) hj) hlcs
  | case4 i j hpos =>
    obtain ⟨rfl, rfl⟩ : i = 0 ∧ j = 0 := by omega
    rw [if_neg hpos]
    exact exactDiff_nil

theorem exactDiff_lineDiffLcs (oldStr newStr : String) :
    ExactDiff (toLines oldStr) (toLines newStr) (lineDiffLcs oldStr newStr) := by
  have h :=
    exactDiff_walk (filled_fillRows (toLines oldStr) (toLines newStr) (toLines oldStr).length)
    le_rfl le_rfl
  rwa [List.take_length, List.take_length] at h

/-- The text of a difference is the second text, up to empty lines at its end. -/
theorem rawConfig_lineDiffLcs (oldStr newStr : String) :
    rawConfigFromServerSettingsDiff (lineDiffLcs oldStr newStr) =
      "\n".intercalate (toLines newStr) := by
  have hexact := exactDiff_lineDiffLcs oldStr newStr
  rw [rawConfigFromServerSettingsDiff]
  split_ifs with hnil
  · rw [← hexact.new, hnil]
    rfl
  · exact congrArg _ hexact.new

/-! ### What the agent gets -/

theorem applyOpenvpnSettingsForPanel_eq_some_iff {posted rawConfig : String} :
    applyOpenvpnSettingsForPanel posted = some rawConfig ↔
      GoStrings.trimSpace posted ≠ "" ∧ rawConfig = GoStrings.trimSpace posted := by
  simp only [applyOpenvpnSettingsForPanel, GoStrings.trimSpace_trimSpace]
  split_ifs with hblank
  · simp [hblank]
  · simp [hblank, eq_comm]

/-- **The difference of two texts** is exact, and its text is the second one. The agent gets this
text without the white space around it, and gets it if and only if neither the browser nor the panel
finds it blank. -/
theorem lineDiffLcs_exact (oldStr newStr : String) :
    ExactDiff (toLines oldStr) (toLines newStr) (lineDiffLcs oldStr newStr) ∧
      rawConfigFromServerSettingsDiff (lineDiffLcs oldStr newStr) =
        "\n".intercalate (toLines newStr) ∧
      ∀ rawConfig, appliedRawConfig oldStr newStr = some rawConfig ↔
        JsStrings.trim ("\n".intercalate (toLines newStr)) ≠ "" ∧
          GoStrings.trimSpace ("\n".intercalate (toLines newStr)) ≠ "" ∧
          rawConfig = GoStrings.trimSpace ("\n".intercalate (toLines newStr)) := by
  refine ⟨exactDiff_lineDiffLcs oldStr newStr, rawConfig_lineDiffLcs oldStr newStr,
    fun rawConfig => ?_⟩
  rw [appliedRawConfig, applyServerOpenVpnSettings, rawConfig_lineDiffLcs]
  by_cases hblank : JsStrings.trim ("\n".intercalate (toLines newStr)) = ""
  · simp [hblank]
  · rw [if_neg hblank, Option.bind_some, applyOpenvpnSettingsForPanel_eq_some_iff]
    simp [hblank]

/-- **White space around the text is lost** on the way to the agent. -/
theorem blank_edges_lost : ∃ rawConfig, appliedRawConfig "" " port 1194" = some rawConfig ∧
    rawConfig ≠ "\n".intercalate (toLines " port 1194") := by
  refine ⟨"port 1194", ?_, by decide⟩
  rw [appliedRawConfig, applyServerOpenVpnSettings, rawConfig_lineDiffLcs]
  decide +kernel

end OpenvpnControl.Frontend
