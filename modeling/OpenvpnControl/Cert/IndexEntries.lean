import OpenvpnControl.Cert.Indextxt

/-!
# The entries of an exported index

An import trims the text that it is given, and reads its lines into one entry for each common name.
This file says which entries the text of an export gives.

An exported index has one line for each row, and its last line ends in a line break, which the
trimming of an import removes. The two files meet here: the writer of `Cert.Indextxt` and the reader
of `Cert.Inventory`.

## Main definitions

* `lineTexts`: the lines of a text that are not blank, without the white space around them.
* `IndexCertRow.entry`: what a valid row says.

## Main results

* `issuedEntries_trimSpace`: the white space around a text does not count.
* `issuedEntries_buildIndexTxt`: the entries of an exported index are the valid rows.
-/

namespace OpenvpnControl.Cert

/-- The lines of a text that are not blank, without the white space around them. -/
def lineTexts (l : List Char) : List (List Char) := ((l.splitOn '\n').map trimLine).filter (· ≠ [])

/-- What a valid row says. -/
def IndexCertRow.entry (row : IndexCertRow) : IssuedEntry :=
  ⟨GoStrings.trimSpace row.commonName, normalizeSerialHex row.serialNumber, unix row.expiresAt⟩

variable {defaultExp : ℤ} {byCN : List IssuedEntry}

/-! ### White space -/

theorem trimLine_cons {c : Char} (hc : GoStrings.isSpace c = true) (l : List Char) :
    trimLine (c :: l) = trimLine l := by
  rw [trimLine, trimLine, GoStrings.trimList, GoStrings.trimList, List.dropWhile_cons_of_pos hc]

theorem trimLine_concat {c : Char} (hc : GoStrings.isSpace c = true) (l : List Char) :
    trimLine (l ++ [c]) = trimLine l := by
  obtain ⟨a, b, hl, ha, hb⟩ := GoStrings.exists_eq_append_trimList GoStrings.isSpace l
  by_cases hblank : trimLine l = []
  · rw [hblank]
    refine GoStrings.trimList_eq_nil_iff.2 fun d hd => ?_
    rcases List.mem_append.1 hd with hd | hd
    · exact GoStrings.trimList_eq_nil_iff.1 hblank d hd
    · rwa [List.mem_singleton.1 hd]
  · have hend : ∀ d ∈ b ++ [c], GoStrings.isSpace d = true := by
      intro d hd
      rcases List.mem_append.1 hd with hd | hd
      · exact hb d hd
      · rwa [List.mem_singleton.1 hd]
    have htrim := GoStrings.trimList_append ha hend hblank (GoStrings.trimList_head hblank)
      (GoStrings.trimList_getLast hblank)
    calc trimLine (l ++ [c]) = trimLine (a ++ trimLine l ++ (b ++ [c])) := by
          rw [← List.append_assoc, trimLine, trimLine, trimLine, ← hl]
      _ = trimLine l := htrim

/-- A carriage return at the end of a line is trimmed with the line. -/
theorem trimLine_trimCR_eq (l : List Char) : trimLine (trimCR l) = trimLine l := by
  rw [trimCR]
  split_ifs with hlast
  · obtain ⟨m, rfl⟩ := List.getLast?_eq_some_iff.1 hlast
    rw [List.dropLast_concat, trimLine_concat (by decide)]
  · rfl

/-- The last line of a text, and one more character. -/
theorem splitOn_concat {c : Char} (hc : c ≠ '\n') (l : List Char) :
    ∃ lines last, l.splitOn '\n' = lines ++ [last] ∧ (l ++ [c]).splitOn '\n' =
    lines ++ [last ++ [c]] := by
  induction l with
  | nil =>
    refine ⟨[], [], rfl, ?_⟩
    rw [List.nil_append, List.splitOn_eq_singleton (by simpa using hc.symm)]
    rfl
  | cons d l ih =>
    obtain ⟨lines, last, hl, hlc⟩ := ih
    simp only [List.cons_append, List.splitOn_cons_eq_if_modifyHead, hl, hlc]
    by_cases hd : (d == '\n') = true
    · simp only [if_pos hd]
      exact ⟨[] :: lines, last, rfl, rfl⟩
    · simp only [if_neg hd]
      cases lines with
      | nil => exact ⟨[], d :: last, rfl, rfl⟩
      | cons line lines => exact ⟨(d :: line) :: lines, last, rfl, rfl⟩

theorem lineTexts_cons {c : Char} (hc : GoStrings.isSpace c = true) (l : List Char) :
    lineTexts (c :: l) = lineTexts l := by
  rw [lineTexts, lineTexts, List.splitOn_cons_eq_if_modifyHead]
  split_ifs
  · rfl
  · cases hsplit : l.splitOn '\n' with
    | nil => exact absurd hsplit (List.splitOn_ne_nil _ _)
    | cons line lines =>
      rw [List.modifyHead_cons, List.map_cons, List.map_cons, trimLine_cons hc]

theorem lineTexts_concat {c : Char} (hc : GoStrings.isSpace c = true) (l : List Char) :
    lineTexts (l ++ [c]) = lineTexts l := by
  rw [lineTexts, lineTexts]
  by_cases hbreak : c = '\n'
  · rw [hbreak, List.splitOn_append_cons_self, List.splitOn_nil,
      List.map_append, List.filter_append]
    exact List.append_nil _
  · obtain ⟨lines, last, hl, hlc⟩ := splitOn_concat hbreak l
    rw [hl, hlc, List.map_append, List.map_append, List.map_singleton, List.map_singleton,
      trimLine_concat hc]

/-- The white space around a text is none of its lines. -/
theorem lineTexts_trimList (l : List Char) :
    lineTexts (GoStrings.trimList GoStrings.isSpace l) = lineTexts l := by
  obtain ⟨a, b, hl, ha, hb⟩ := GoStrings.exists_eq_append_trimList GoStrings.isSpace l
  have hstart (m : List Char) : lineTexts (a ++ m) = lineTexts m := by
    clear hl
    induction a with
    | nil => rfl
    | cons c a ih =>
      obtain ⟨hc, ha⟩ := List.forall_mem_cons.1 ha
      rw [List.cons_append, lineTexts_cons hc, ih ha]
  have hend (m : List Char) : lineTexts (m ++ b) = lineTexts m := by
    clear hl
    induction b using List.reverseRecOn with
    | nil => rw [List.append_nil]
    | append_singleton b c ih =>
      obtain ⟨hb, hc⟩ := List.forall_mem_append.1 hb
      rw [← List.append_assoc, lineTexts_concat (hc c (List.mem_singleton_self c)), ih hb]
  conv_rhs => rw [hl, hend, hstart]

/-! ### The entries of a text -/

/-- What a line says is what is left of it when it is trimmed. -/
theorem addIssuedLine_trimLine (raw : List Char) :
    addIssuedLine defaultExp byCN raw = addIssuedLine defaultExp byCN (trimLine raw) := by
  have htrim : trimLine (trimLine raw) = trimLine raw := GoStrings.trimList_trimList _ _
  have heasy : parseEasyRsaIndexLine raw = parseEasyRsaIndexLine (trimLine raw) := by
    simp only [parseEasyRsaIndexLine, trimLine_trimCR_eq, htrim]
  have hparse : parseInventoryLine raw = parseInventoryLine (trimLine raw) := by
    simp only [parseInventoryLine, htrim]
  rw [addIssuedLine, addIssuedLine, heasy, hparse]

theorem addIssuedLine_trimCR (raw : List Char) :
    addIssuedLine defaultExp byCN (trimCR raw) = addIssuedLine defaultExp byCN raw := by
  rw [addIssuedLine_trimLine, trimLine_trimCR_eq, ← addIssuedLine_trimLine]

theorem addIssuedLine_nil : addIssuedLine defaultExp byCN [] = byCN := rfl

/-- The entries of a text, from its lines as they are. -/
theorem issuedEntries_eq (defaultExp : ℤ) (text : String) :
    issuedEntries defaultExp text = (text.toList.splitOn '\n').foldl (addIssuedLine defaultExp)
    [] := by
  rw [issuedEntries, List.foldl_map]
  exact congrArg (List.foldl · _ _) (funext₂ fun byCN raw => addIssuedLine_trimCR raw)

theorem foldl_addIssuedLine_lineTexts (lines : List (List Char)) :
    lines.foldl (addIssuedLine defaultExp) byCN =
      ((lines.map trimLine).filter (· ≠ [])).foldl (addIssuedLine defaultExp) byCN := by
  induction lines generalizing byCN with
  | nil => rfl
  | cons raw lines ih =>
    rw [List.foldl_cons, List.map_cons, ih]
    by_cases hblank : trimLine raw = []
    · rw [List.filter_cons_of_neg (by simpa using hblank), addIssuedLine_trimLine,
        hblank, addIssuedLine_nil]
    · rw [List.filter_cons_of_pos (by simpa using hblank), List.foldl_cons,
        ← addIssuedLine_trimLine]

/-- **The white space around a text does not count.** -/
theorem issuedEntries_trimSpace (defaultExp : ℤ) (text : String) :
    issuedEntries defaultExp (GoStrings.trimSpace text) = issuedEntries defaultExp text := by
  rw [issuedEntries_eq, issuedEntries_eq, foldl_addIssuedLine_lineTexts,
    GoStrings.trimSpace, String.toList_ofList, ← lineTexts, lineTexts_trimList, lineTexts,
    ← foldl_addIssuedLine_lineTexts]

/-! ### The entries of an export -/

variable {rows : List IndexCertRow}

/-- What the line of a row adds. -/
theorem IndexCertRow.Plain.addIssuedLine {row : IndexCertRow} (h : row.Plain) :
    addIssuedLine defaultExp byCN row.line =
      if row.revokedAt = none then Rows.upsert (·.cn) row.entry (fun _ => row.entry) byCN
      else byCN := by
  obtain ⟨e, hparse, hstatus, hserial, hcn, hexpiry, -⟩ := h.readAs
  rw [Cert.addIssuedLine, hparse]
  dsimp only
  rw [hstatus, hserial, hcn, hexpiry]
  cases row.revokedAt with
  | none => rfl
  | some rev => rfl

/-- The lines of an export. -/
theorem splitOn_buildIndexTxt (h : ∀ row ∈ rows, row.Plain) :
    (buildIndexTxt rows).toList.splitOn '\n' = rows.map (·.line) ++ [[]] := by
  rw [buildIndexTxt]
  split_ifs with hnil
  · subst hnil
    rfl
  · rw [String.toList_ofList]
    refine splitOn_lines (by simpa using hnil) fun line hline => ?_
    obtain ⟨row, hrow, rfl⟩ := List.mem_map.1 hline
    exact (h row hrow).newline_notMem

/-- **The entries of an exported index are the valid rows**, in their order. -/
theorem issuedEntries_buildIndexTxt (h : ∀ row ∈ rows, row.Plain)
    (hnames : ((rows.filter (·.revokedAt = none)).map (·.entry.cn)).Nodup) (defaultExp : ℤ) :
    issuedEntries defaultExp (buildIndexTxt rows) =
    (rows.filter (·.revokedAt = none)).map (·.entry) := by
  rw [issuedEntries_eq, splitOn_buildIndexTxt h, List.foldl_append]
  change (rows.map (·.line)).foldl (addIssuedLine defaultExp) [] = _
  induction rows using List.reverseRecOn with
  | nil => rfl
  | append_singleton rows row ih =>
    obtain ⟨hrows, hrow⟩ := List.forall_mem_append.1 h
    have hplain := hrow row (List.mem_singleton_self row)
    rw [List.filter_append, List.map_append] at hnames
    rw [List.map_append, List.map_singleton, List.foldl_append, List.foldl_cons, List.foldl_nil,
      ih hrows (List.nodup_append.1 hnames).1, hplain.addIssuedLine,
      List.filter_append, List.map_append]
    by_cases hvalid : row.revokedAt = none
    · have hself : [row].filter (·.revokedAt = none) = [row] :=
        List.filter_eq_self.2 (by simpa using hvalid)
      have hfresh : row.entry.cn ∉
          ((rows.filter (·.revokedAt = none)).map (·.entry)).map (·.cn) := by
        rw [List.map_map]
        intro hmem
        rw [hself, List.map_singleton] at hnames
        exact (List.nodup_append.1 hnames).2.2 _ hmem _ (List.mem_singleton_self _) rfl
      rw [if_pos hvalid, hself, Rows.upsert, if_neg hfresh, List.map_singleton]
    · have hself : [row].filter (·.revokedAt = none) = [] :=
        List.filter_eq_nil_iff.2 (by simpa using hvalid)
      rw [if_neg hvalid, hself, List.map_nil, List.append_nil]

end OpenvpnControl.Cert
