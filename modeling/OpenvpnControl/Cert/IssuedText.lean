import OpenvpnControl.Cert.RevokedList

/-!
# What a text lists as valid

The first loop of `SyncIssuedInventory` reads index lines and lines of other forms into one entry
for each common name. This file says which lines count, and which of them an entry is from.

A line that is no index line is a common name, alone or behind other fields, and gives an entry only
if no line before it has given one. The order of the lines matters for the serial number and the
date: those of the last index line of a name count. So the entry of a name is a function of the
lines of that name alone.

## Main definitions

* `acceptedLine`, `accepted`: what a line says of a common name, and the lines of a text that count.
* `entryOf`: what the lines of a common name say together.

## Main results

* `byKey_issuedEntries`: the entry of a common name.
* `length_issuedEntries`: there are as many entries as common names.
-/

namespace OpenvpnControl.Cert

/-- What a line says of a common name: nothing more, or the serial number and the date of an index
line. A line of status `R` does not count. -/
def acceptedLine (raw : List Char) : Option (String × Option (String × List Char)) :=
  match parseEasyRsaIndexLine raw with
  | some easy =>
    if easy.status = .revoked then none else some (easy.cn, some (easy.serialHex, easy.expiryUtc))
  | none =>
    (parseInventoryLine raw).bind fun p => if p.status = some .revoked then
      none else some (p.cn, none)

/-- What the lines of a text say that count. -/
def accepted (text : String) : List (String × Option (String × List Char)) :=
  ((text.toList.splitOn '\n').map trimCR).filterMap acceptedLine

/-- The last serial number and date of some lines. -/
def lastSerial (said : List (String × Option (String × List Char))) : Option (String × List Char) :=
  (said.filterMap (·.2)).getLast?

/-- What the lines of a common name say together: the last line with a serial number counts. -/
def entryOf (defaultExp : ℤ) (cn : String) (said : List (String × Option (String × List Char))) :
    Option IssuedEntry :=
  if said = [] then none
  else match lastSerial said with
    | none => some ⟨cn, "", defaultExp⟩
    | some (serialHex, date) => some ⟨cn, serialHex, (openSSLUtcTimeToDate date).getD defaultExp⟩

variable {defaultExp : ℤ} {text : String}

/-- A blank text lists nothing. -/
theorem issuedEntries_of_blank {text : String} (h : GoStrings.trimSpace text = "")
    (defaultExp : ℤ) :
    issuedEntries defaultExp text = [] := by
  have hline : ∀ raw ∈ (text.toList.splitOn '\n').map trimCR,
      addIssuedLine defaultExp [] raw = [] := by
    intro raw hraw
    have hspaces := isSpace_of_blank h hraw
    have hblank : trimLine raw = [] := GoStrings.trimList_eq_nil_iff.2 hspaces
    have hblankCR : trimLine (trimCR raw) = [] :=
      GoStrings.trimList_eq_nil_iff.2 fun c hc => hspaces c (mem_of_mem_trimCR hc)
    have heasy : parseEasyRsaIndexLine raw = none := by
      rw [parseEasyRsaIndexLine, hblankCR]
    have hparse : parseInventoryLine raw = none := by
      rw [parseInventoryLine]
      simp [hblank]
    rw [addIssuedLine, heasy, hparse]
  rw [issuedEntries]
  generalize (text.toList.splitOn '\n').map trimCR = lines at hline
  induction lines with
  | nil => rfl
  | cons raw lines ih =>
    rw [List.foldl_cons, hline raw List.mem_cons_self]
    exact ih fun raw' hraw' => hline raw' (List.mem_cons_of_mem _ hraw')

/-- One line of the first loop, on the entry of a common name. -/
theorem byKey_addIssuedLine (byCN : List IssuedEntry) (raw : List Char) (cn : String) :
    Rows.byKey (·.cn) cn (addIssuedLine defaultExp byCN raw) =
      match (acceptedLine raw).filter (·.1 = cn) with
      | none => Rows.byKey (·.cn) cn byCN
      | some (_, some (serialHex, date)) =>
        some ⟨cn, serialHex, (openSSLUtcTimeToDate date).getD defaultExp⟩
      | some (_, none) => some ((Rows.byKey (·.cn) cn byCN).getD ⟨cn, "", defaultExp⟩) := by
  rw [addIssuedLine, acceptedLine]
  cases heasy : parseEasyRsaIndexLine raw with
  | some easy =>
    dsimp only
    split_ifs with hrev
    · rfl
    · rw [Rows.byKey_upsert_const, Option.filter_some]
      by_cases hcn : easy.cn = cn
      · rw [if_pos hcn.symm, if_pos (decide_eq_true hcn)]
        simp only [hcn]
      · rw [if_neg (Ne.symm hcn), if_neg (by simpa using hcn)]
  | none =>
    dsimp only
    cases hparse : parseInventoryLine raw with
    | none => rfl
    | some p =>
      dsimp only
      rw [Option.bind_some]
      by_cases hrev : p.status = some .revoked
      · rw [if_pos (Or.inr hrev), if_pos hrev]
        rfl
      · rw [if_neg (not_or.2 ⟨parseInventoryLine_cn_ne hparse, hrev⟩),
          if_neg hrev, Option.filter_some]
        by_cases hcn : p.cn = cn
        · rw [if_pos (decide_eq_true hcn), ← hcn]
          dsimp only
          split_ifs with hmem
          · obtain ⟨e, he⟩ := Option.ne_none_iff_exists'.1 fun hnone =>
              Rows.byKey_eq_none.1 hnone hmem
            rw [he, Option.getD_some]
          · rw [Rows.byKey_append_singleton, Rows.byKey_eq_none.2 hmem]
            simp
        · rw [if_neg (c := decide (p.cn = cn) = true) (by simpa using hcn)]
          dsimp only
          split_ifs with hmem
          · rfl
          · rw [Rows.byKey_append_singleton, if_neg hcn, Option.or_none]

/-- One more line of a common name. -/
theorem entryOf_append_singleton (cn : String) (said : List (String × Option (String × List Char)))
    (line : String × Option (String × List Char)) :
    entryOf defaultExp cn (said ++ [line]) =
      match line.2 with
      | some (serialHex, date) => some ⟨cn, serialHex, (openSSLUtcTimeToDate date).getD defaultExp⟩
      | none => some ((entryOf defaultExp cn said).getD ⟨cn, "", defaultExp⟩) := by
  obtain ⟨name, told⟩ := line
  rw [entryOf, if_neg (List.append_ne_nil_of_right_ne_nil _ (List.cons_ne_nil _ _)), lastSerial,
    List.filterMap_append]
  cases told with
  | some told => simp
  | none =>
    rw [List.filterMap_cons_none rfl, List.filterMap_nil, List.append_nil, ← lastSerial, entryOf]
    by_cases hsaid : said = []
    · rw [if_pos hsaid, hsaid]
      rfl
    · rw [if_neg hsaid]
      cases lastSerial said <;> rfl

/-- **The entry of a common name** is what its lines say together. -/
theorem byKey_issuedEntries (defaultExp : ℤ) (text cn : String) :
    Rows.byKey (·.cn) cn (issuedEntries defaultExp text) =
      entryOf defaultExp cn ((accepted text).filter (·.1 = cn)) := by
  rw [issuedEntries, accepted]
  generalize (text.toList.splitOn '\n').map trimCR = lines
  induction lines using List.reverseRecOn with
  | nil => rfl
  | append_singleton lines raw ih =>
    rw [List.foldl_append, List.foldl_cons, List.foldl_nil, byKey_addIssuedLine, ih,
      List.filterMap_append, List.filter_append]
    cases hline : acceptedLine raw with
    | none =>
      rw [List.filterMap_cons_none hline, List.filterMap_nil, List.filter_nil, List.append_nil]
      rfl
    | some line =>
      rw [List.filterMap_cons_some hline, List.filterMap_nil, Option.filter_some]
      by_cases hcn : line.1 = cn
      · have hself : [line].filter (·.1 = cn) = [line] := List.filter_eq_self.2 (by simpa using hcn)
        rw [if_pos (decide_eq_true hcn), hself, entryOf_append_singleton]
        obtain ⟨name, told⟩ := line
        cases told <;> rfl
      · have hself : [line].filter (·.1 = cn) = [] := List.filter_eq_nil_iff.2 (by simpa using hcn)
        rw [if_neg (c := decide (line.1 = cn) = true) (by simpa using hcn), hself, List.append_nil]

/-- The common names of the entries are those of the lines that count. -/
theorem mem_cns_issuedEntries {cn : String} :
    cn ∈ (issuedEntries defaultExp text).map (·.cn) ↔ cn ∈ (accepted text).map (·.1) := by
  have hentry := byKey_issuedEntries defaultExp text cn
  rw [← not_iff_not, ← Rows.byKey_eq_none, hentry, entryOf]
  constructor
  · intro h hmem
    obtain ⟨line, hline, hcn⟩ := List.mem_map.1 hmem
    rw [if_neg (List.ne_nil_of_mem (List.mem_filter.2 ⟨hline, decide_eq_true hcn⟩))] at h
    cases hlast : lastSerial ((accepted text).filter (·.1 = cn)) with
    | none =>
      rw [hlast] at h
      cases h
    | some told =>
      rw [hlast] at h
      cases h
  · intro h
    rw [if_pos]
    rw [List.filter_eq_nil_iff]
    intro line hline hcn
    exact h (List.mem_map.2 ⟨line, hline, of_decide_eq_true hcn⟩)

/-- **There are as many entries as common names.** -/
theorem length_issuedEntries (defaultExp : ℤ) (text : String) :
    (issuedEntries defaultExp text).length = ((accepted text).map (·.1)).dedup.length := by
  have hperm : ((issuedEntries defaultExp text).map (·.cn)).Perm
      ((accepted text).map (·.1)).dedup := by
    refine (List.perm_ext_iff_of_nodup (issuedEntries_hasKey _ _) (List.nodup_dedup _)).2 fun cn =>
      ?_
    rw [mem_cns_issuedEntries, List.mem_dedup]
  rw [← hperm.length_eq, List.length_map]

/-- A serial number of an entry is on a line of its common name. -/
theorem exists_line_of_serialHex {e : IssuedEntry} (he : e ∈ issuedEntries defaultExp text)
    (hserial : e.serialHex ≠ "") : ∃ date, (e.cn, some (e.serialHex, date)) ∈ accepted text := by
  have hentry := byKey_issuedEntries defaultExp text e.cn
  rw [(Rows.byKey_eq_some (issuedEntries_hasKey _ _)).2 ⟨he, rfl⟩, entryOf] at hentry
  split_ifs at hentry
  cases hlast : lastSerial ((accepted text).filter (·.1 = e.cn)) with
  | none =>
    rw [hlast] at hentry
    exact absurd (congrArg IssuedEntry.serialHex (Option.some.inj hentry)) hserial
  | some told =>
    rw [hlast] at hentry
    obtain ⟨⟨name, _⟩, hline, rfl⟩ := List.mem_filterMap.1 (List.mem_of_getLast? hlast)
    obtain ⟨hmem, hname⟩ := List.mem_filter.1 hline
    have heq := Option.some.inj hentry
    refine ⟨told.2, ?_⟩
    rw [← of_decide_eq_true hname, congrArg IssuedEntry.serialHex heq]
    exact hmem

end OpenvpnControl.Cert
