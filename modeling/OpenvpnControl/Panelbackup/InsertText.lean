import Mathlib.Data.List.Sort
import OpenvpnControl.Library.SqlText
import OpenvpnControl.Panelbackup.Restore

/-!
# The statements of a restore

`insertSimple` of `panelbackup/service.go` puts the column names of an archive into the text of an
`INSERT`, and passes the values as arguments. Whatever the names are, the text is one `INSERT` into
the table.

The reader of the statement is the tokenizer of `Library.SqlText`, for which a quoted name ends at
the first quote that is not doubled. Doubling is undone by reading, so a name comes back as it was
whatever characters it has, and the columns and the arguments of the statement stand in one order
because both are made from one sorted list.

## Main definitions

* `quoteIdent`, `insertStatement`: the text and the arguments of a row.
* `InsertsRow`: the statement that they should be.

## Main results

* `insertStatement_insertsRow`: the column names do not change the statement.
* `InsertsRow.row`: it inserts the row that a restore passes on.
-/

namespace OpenvpnControl.Panelbackup

def quoteIdent (name : String) : String := "\"" ++ GoStrings.replaceChar '"' ['"', '"'] name ++ "\""

/-- `sort.Strings` of the keys of a row, in the order in which `range` visits them. -/
def sortedCols (visited : List (String × GoAny)) : List String :=
  (visited.map Prod.fst).insertionSort (· ≤ ·)

/-- The text and the arguments of a row in `insertSimple`. -/
def insertStatement (table : String) (m : GoMap GoAny) (visited : List (String × GoAny)) :
    String × List Arg :=
  let cols := sortedCols visited
  let vals := cols.map fun k => normalizeInsertValue ((m.lookup k).getD (.json .null))
  let quoted := cols.map quoteIdent
  let placeholders := (List.range cols.length).map fun i => "$" ++ Nat.repr (i + 1)
  ("INSERT INTO " ++ quoteIdent table ++ " (" ++ ", ".intercalate quoted ++ ") VALUES (" ++
    ", ".intercalate placeholders ++ ")", vals)

/-- The text is one `INSERT` into the table. Its columns are the keys of the row in order, its
placeholders are different ones, as many as there are columns, and the argument of a column is its
value. -/
structure InsertsRow (table : String) (m : GoMap GoAny) (q : String × List Arg) (st : Sql.Insert) :
    Prop where
  read : Sql.readInsert q.1 = some st
  table : st.table = table
  keys : ∀ k, k ∈ st.columns ↔ (m.lookup k).isSome = true
  sorted : st.columns.Pairwise (· < ·)
  distinct : st.values.Nodup
  length : st.values.length = st.columns.length ∧ q.2.length = st.columns.length
  arguments : ∀ (i : ℕ) (k : String), st.columns[i]? = some k → st.values[i]? = some (i + 1) ∧
    ∃ v, m.lookup k = some v ∧ q.2[i]? = some (normalizeInsertValue v)

variable {table : String} {m : GoMap GoAny} {visited : List (String × GoAny)}

theorem mem_sortedCols (h : m.Visits visited) (k : String) :
    k ∈ sortedCols visited ↔ (m.lookup k).isSome = true := by
  rw [sortedCols, List.mem_insertionSort, List.mem_map, Option.isSome_iff_exists]
  constructor
  · rintro ⟨e, he, rfl⟩
    exact ⟨e.2, (h.mem_iff e.1 e.2).1 he⟩
  · rintro ⟨v, hv⟩
    exact ⟨(k, v), (h.mem_iff k v).2 hv, rfl⟩

/-- The keys are in order, each of them once. -/
theorem sorted_sortedCols (h : m.Visits visited) : (sortedCols visited).Pairwise (· < ·) := by
  have hnodup : (sortedCols visited).Nodup :=
    (List.perm_insertionSort _ _).nodup_iff.2 h.nodup
  have hle : (sortedCols visited).Pairwise (· ≤ ·) := List.pairwise_insertionSort _ _
  exact (hle.and hnodup).imp fun hab => lt_of_le_of_ne hab.1 hab.2

/-- The text of a row is the text of one statement. -/
theorem insertStatement_text (table : String) (m : GoMap GoAny) (visited : List (String × GoAny)) :
    (insertStatement table m visited).1 = Sql.insertText ⟨table, sortedCols visited,
      (List.range (sortedCols visited).length).map (· + 1)⟩ := by
  have hparams : (List.range (sortedCols visited).length).map (fun i => "$" ++ Nat.repr (i + 1)) =
      ((List.range (sortedCols visited).length).map (· + 1)).map Sql.param := by
    rw [List.map_map]
    rfl
  unfold insertStatement
  dsimp only
  exact congrArg (fun params => "INSERT INTO " ++ quoteIdent table ++ " (" ++
    ", ".intercalate ((sortedCols visited).map quoteIdent) ++ ") VALUES (" ++
    ", ".intercalate params ++ ")") hparams

theorem snd_insertStatement (table : String) (m : GoMap GoAny) (visited : List (String × GoAny)) :
    (insertStatement table m visited).2 =
      (sortedCols visited).map fun k => normalizeInsertValue ((m.lookup k).getD (.json .null)) :=
  rfl

/-- **The column names do not change the statement**, in whatever order the keys of the row are
visited: the text is one `INSERT` into the table, its columns are the keys, and the argument of each
column is the value under its key. -/
theorem insertStatement_insertsRow (table : String) (h : m.Visits visited) :
    ∃ st, InsertsRow table m (insertStatement table m visited) st := by
  refine ⟨⟨table, sortedCols visited, (List.range (sortedCols visited).length).map (· + 1)⟩, ?_,
    rfl, mem_sortedCols h, sorted_sortedCols h, ?_, ?_, ?_⟩
  · rw [insertStatement_text, Sql.readInsert_insertText]
  · exact (List.nodup_map_iff (add_left_injective 1)).2 List.nodup_range
  · rw [snd_insertStatement, List.length_map, List.length_map, List.length_range]
    exact ⟨rfl, rfl⟩
  · intro i k hk
    have hi : i < (sortedCols visited).length := (List.getElem?_eq_some_iff.1 hk).1
    obtain ⟨v, hv⟩ := Option.isSome_iff_exists.1 ((mem_sortedCols h k).1 (List.mem_of_getElem? hk))
    refine ⟨by simp [hi], v, hv, ?_⟩
    rw [snd_insertStatement, List.getElem?_map, hk, Option.map_some, hv, Option.getD_some]

/-- A row with a name that would end the column list and the statement, and one that comes first in
the order of the columns. -/
def quotesRow : List (String × GoAny) :=
  [("email", .json (.str "bob@example.com")),
    ("id\") VALUES (1); DROP TABLE \"Admin\"; --", .int64 1)]

/-- The keys are visited in the other order. -/
theorem insertStatement_insertsRow_quotes :
    ∃ st, InsertsRow "VpnUser" (GoMap.ofList quotesRow)
      (insertStatement "VpnUser" (GoMap.ofList quotesRow) quotesRow.reverse) st :=
  insertStatement_insertsRow "VpnUser"
    ((GoMap.visits_ofList (by decide)).perm (List.reverse_perm quotesRow).symm)

/-- **The row of a statement** has the values as arguments, which is the row that a restore passes
on. -/
theorem InsertsRow.row {q : String × List Arg} {st : Sql.Insert} (h : InsertsRow table m q st) :
    GoMap.ofList (st.columns.zip q.2) = m.mapValues normalizeInsertValue := by
  have hkeys : (st.columns.zip q.2).map Prod.fst = st.columns :=
    List.map_fst_zip h.length.2.ge
  have hnodup : ((st.columns.zip q.2).map Prod.fst).Nodup := by
    rw [hkeys]
    exact h.sorted.imp fun hab => hab.ne
  have hvisits := GoMap.visits_ofList hnodup
  refine GoMap.ext_lookup fun k => ?_
  rw [GoMap.lookup_mapValues]
  by_cases hk : k ∈ st.columns
  · obtain ⟨i, hi⟩ := List.mem_iff_getElem?.1 hk
    obtain ⟨-, v, hv, hval⟩ := h.arguments i k hi
    rw [hv, Option.map_some]
    refine (hvisits.mem_iff _ _).1 (List.mem_iff_getElem?.2 ⟨i, ?_⟩)
    rw [List.getElem?_zip_eq_some]
    exact ⟨hi, hval⟩
  · have hnone : m.lookup k = none := by
      rwa [h.keys, Option.isSome_iff_ne_none, not_not] at hk
    rw [hnone, Option.map_none, Option.eq_none_iff_forall_ne_some]
    intro v hv
    have hmem := List.mem_map_of_mem (f := Prod.fst) ((hvisits.mem_iff k v).2 hv)
    rw [hkeys] at hmem
    exact hk hmem

end OpenvpnControl.Panelbackup
