import OpenvpnControl.Cert.Inventory

/-!
# Exporting an index

The `index.txt` of a root is written from its rows, and read by the import of an index. This file
proves that what is written is read back, line by line, where the common names have no character
that ends a name and the dates are of the hundred years that two digits stand for.

## Main definitions

* `IndexCertRow`, `buildIndexTxt`: the rows, and the text.
* `IndexCertRow.Plain`: the condition on a row.
* `IndexCertRow.ReadAs`: a line is read as the row.

## Main results

* `buildIndexTxt_roundTrip`: the lines of the text are read as the rows.
* `index_not_read_back`: four rows whose lines are not.
-/

namespace OpenvpnControl.Cert

/-- `IndexCertRow`. A time is in nanoseconds since the first of January 1970. -/
structure IndexCertRow where
  commonName : String
  serialNumber : String
  expiresAt : ℤ
  revokedAt : Option ℤ

/-- The nanoseconds of a second. -/
def second : ℤ := 1000000000

/-- A time truncated to seconds, `Unix`. -/
def unix (t : ℤ) : ℤ := t / second

/-- The zero time, the first of January of the year 1. -/
def zeroTime : ℤ := -62135596800 * second

/-- The date of a time. -/
def utcDate (t : ℤ) : Calendar.Civil := Calendar.civilFromDays (unix t / day)

/-- The format `%02d`. -/
def pad2 (n : ℤ) : List Char :=
  if n < 0 then '-' :: Nat.toDigits 10 n.natAbs
  else if n < 10 then '0' :: Nat.toDigits 10 n.toNat
  else Nat.toDigits 10 n.toNat

/-- `toOpenSSLUTC`, where the remainder of a negative year is negative. -/
def toOpenSSLUTC (t : ℤ) : List Char :=
  if t = zeroTime then "00000000000000Z".toList
  else
    let date := utcDate t
    let time := unix t % day
    pad2 (date.year.tmod 100) ++ pad2 date.month ++ pad2 date.day ++ pad2 (time / 3600) ++
      pad2 (time % 3600 / 60) ++ pad2 (time % 60) ++ ['Z']

/-- The serial number of a line. -/
def IndexCertRow.serialHex (row : IndexCertRow) : String :=
  let serialHex := normalizeSerialHex row.serialNumber
  if serialHex = "" then "01" else serialHex

/-- The line of a row. -/
def IndexCertRow.line (row : IndexCertRow) : List Char :=
  let cn := GoStrings.replaceList '\t' [' '] row.commonName.toList
  let subject := row.serialHex.toList ++ "\tunknown\t/CN=".toList ++ cn
  match row.revokedAt with
  | some rev =>
    "R\t".toList ++ toOpenSSLUTC row.expiresAt ++ '\t' :: toOpenSSLUTC rev ++ '\t' :: subject
  | none => "V\t".toList ++ toOpenSSLUTC row.expiresAt ++ "\t\t".toList ++ subject

def buildIndexTxt (rows : List IndexCertRow) : String :=
  if rows = [] then ""
  else String.ofList (['\n'].intercalate (rows.map (·.line)) ++ ['\n'])

/-- A time of the years that two digits stand for. -/
def InUTCTime (t : ℤ) : Prop := 1950 ≤ (utcDate t).year ∧ (utcDate t).year ≤ 2049

/-- A row whose line is read back: the common name is not blank and has no tab, line break, slash or
comma, the serial number has a digit, and the times are of the years that two digits stand for. -/
structure IndexCertRow.Plain (row : IndexCertRow) : Prop where
  name : GoStrings.trimSpace row.commonName ≠ ""
  chars : ∀ c ∈ row.commonName.toList, c ≠ '\t' ∧ c ≠ '\n' ∧ c ≠ '/' ∧ c ≠ ','
  serial : normalizeSerialHex row.serialNumber ≠ ""
  expiry : InUTCTime row.expiresAt
  revocation : ∀ t ∈ row.revokedAt, InUTCTime t

/-- A line is read as the row. -/
def IndexCertRow.ReadAs (row : IndexCertRow) (line : List Char) : Prop :=
  ∃ e, parseEasyRsaIndexLine line = some e ∧
    e.status = (if row.revokedAt.isSome then .revoked else .valid) ∧
    e.serialHex = normalizeSerialHex row.serialNumber ∧
    e.cn = GoStrings.trimSpace row.commonName ∧
    openSSLUtcTimeToDate e.expiryUtc = some (unix row.expiresAt) ∧
    e.revocationUtc.bind openSSLUtcTimeToDate = row.revokedAt.map unix

instance (row : IndexCertRow) (line : List Char) : Decidable (row.ReadAs line) :=
  match h : parseEasyRsaIndexLine line with
  | none => isFalse fun ⟨e, he, _⟩ => by
    rw [h] at he
    cases he
  | some e =>
    decidable_of_iff (e.status = (if row.revokedAt.isSome then .revoked else .valid) ∧
      e.serialHex = normalizeSerialHex row.serialNumber ∧
      e.cn = GoStrings.trimSpace row.commonName ∧
      openSSLUtcTimeToDate e.expiryUtc = some (unix row.expiresAt) ∧
      e.revocationUtc.bind openSSLUtcTimeToDate = row.revokedAt.map unix)
      ⟨fun hread => ⟨e, h, hread⟩, fun ⟨e', he', hread⟩ => by
        rw [h] at he'
        cases he'
        exact hread⟩

/-! ### Two digits -/

theorem pad2_eq {n : ℤ} (h0 : 0 ≤ n) (h1 : n < 100) :
    pad2 n = [Nat.digitChar (n / 10).toNat, Nat.digitChar (n % 10).toNat] := by
  have hall : ∀ n : Fin 100, pad2 (n : ℕ) =
      [Nat.digitChar ((n : ℕ) / 10), Nat.digitChar ((n : ℕ) % 10)] := by decide
  obtain ⟨n, rfl⟩ := Int.eq_ofNat_of_zero_le h0
  exact hall ⟨n, by omega⟩

theorem parseInt2_digitChar {a b : ℕ} (ha : a < 10) (hb : b < 10) :
    parseInt2 (Nat.digitChar a) (Nat.digitChar b) = 10 * a + b := by
  have hall : ∀ a b : Fin 10, parseInt2 (Nat.digitChar a) (Nat.digitChar b) =
      10 * ((a : ℕ) : ℤ) + ((b : ℕ) : ℤ) := by decide
  exact hall ⟨a, ha⟩ ⟨b, hb⟩

theorem isDigit_digitChar {d : ℕ} (h : d < 10) : (Nat.digitChar d).isDigit = true := by
  have hall : ∀ d : Fin 10, (Nat.digitChar d).isDigit = true := by decide
  exact hall ⟨d, h⟩

/-- Two digits are read as the number they were written for. -/
theorem parseInt2_pad2 {n : ℤ} (h0 : 0 ≤ n) (h1 : n < 100) :
    parseInt2 (Nat.digitChar (n / 10).toNat) (Nat.digitChar (n % 10).toNat) = n := by
  rw [parseInt2_digitChar (by omega) (by omega)]
  omega

/-- The digits of a time of the years that two digits stand for. -/
def utcDigits (t : ℤ) : List Char :=
  let date := utcDate t
  let time := unix t % day
  [date.year % 100, date.month, date.day, time / 3600, time % 3600 / 60, time % 60].flatMap fun n =>
    [Nat.digitChar (n / 10).toNat, Nat.digitChar (n % 10).toNat]

theorem length_utcDigits (t : ℤ) : (utcDigits t).length = 12 := rfl

theorem time_bounds (t : ℤ) : 0 ≤ unix t % day ∧ unix t % day < 86400 := by
  unfold day
  omega

/-- **A time is written as twelve digits.** -/
theorem toOpenSSLUTC_eq {t : ℤ} (h : InUTCTime t) : toOpenSSLUTC t = utcDigits t ++ ['Z'] := by
  have hzero : t ≠ zeroTime := by
    rintro rfl
    exact absurd h (by unfold InUTCTime; decide)
  obtain ⟨hm0, hm1⟩ := Calendar.month_bounds (unix t / day)
  obtain ⟨hd0, hd1⟩ := Calendar.day_bounds (unix t / day)
  obtain ⟨ht0, ht1⟩ := time_bounds t
  have hyear : (utcDate t).year.tmod 100 = (utcDate t).year % 100 :=
    Int.tmod_eq_emod_of_nonneg (by have := h.1; omega)
  simp only [toOpenSSLUTC, if_neg hzero, hyear]
  rw [pad2_eq (by omega) (by omega), pad2_eq (n := (utcDate t).month) (by rw [utcDate]; omega)
    (by rw [utcDate]; omega), pad2_eq (n := (utcDate t).day) (by rw [utcDate]; omega)
    (by rw [utcDate]; omega), pad2_eq (n := unix t % day / 3600) (by omega) (by omega),
    pad2_eq (n := unix t % day % 3600 / 60) (by omega) (by omega),
    pad2_eq (n := unix t % day % 60) (by omega) (by omega)]
  rfl

theorem isDigit_utcDigits (t : ℤ) : (utcDigits t).all Char.isDigit = true := by
  obtain ⟨hm0, hm1⟩ := Calendar.month_bounds (unix t / day)
  obtain ⟨hd0, hd1⟩ := Calendar.day_bounds (unix t / day)
  obtain ⟨ht0, ht1⟩ := time_bounds t
  rw [List.all_eq_true]
  intro c hc
  obtain ⟨n, hn, hc⟩ := List.mem_flatMap.1 hc
  have hbound : 0 ≤ n ∧ n < 100 := by
    simp only [utcDate, List.mem_cons, List.not_mem_nil, or_false] at hn
    omega
  simp only [List.mem_cons, List.not_mem_nil, or_false] at hc
  rcases hc with rfl | rfl
  · exact isDigit_digitChar (by omega)
  · exact isDigit_digitChar (by omega)

/-- **The digits are read as the time**, truncated to seconds. -/
theorem openSSLUtcTimeToDate_utcDigits {t : ℤ} (h : InUTCTime t) :
    openSSLUtcTimeToDate (utcDigits t) = some (unix t) := by
  obtain ⟨hm0, hm1⟩ := Calendar.month_bounds (unix t / day)
  obtain ⟨hd0, hd1⟩ := Calendar.day_bounds (unix t / day)
  obtain ⟨ht0, ht1⟩ := time_bounds t
  obtain ⟨hy0, hy1⟩ := h
  have hcivil := Calendar.daysFromCivil_civilFromDays (unix t / day)
  rw [utcDate] at hy0 hy1
  simp only [utcDigits, List.flatMap_cons, List.flatMap_nil, List.cons_append, List.nil_append,
    openSSLUtcTimeToDate, utcDate]
  rw [parseInt2_pad2 (by omega) (by omega), parseInt2_pad2 (by omega) (by omega),
    parseInt2_pad2 (by omega) (by omega), parseInt2_pad2 (by omega) (by omega),
    parseInt2_pad2 (by omega) (by omega), parseInt2_pad2 (by omega) (by omega)]
  generalize Calendar.civilFromDays (unix t / day) = date at *
  have hyear : (if date.year % 100 ≥ 50 then 1900 + date.year % 100 else 2000 + date.year % 100) =
      date.year := by
    split_ifs <;> omega
  have hmonth : (date.month - 1) / 12 = 0 ∧ (date.month - 1) % 12 + 1 = date.month := by omega
  rw [hyear, timeDate, hmonth.1, hmonth.2, add_zero, hcivil]
  congr 1
  unfold day at *
  omega

/-! ### The serial number -/

theorem hexValue_toUpper_digitChar {d : ℕ} (h : d < 16) :
    hexValue (Nat.digitChar d).toUpper = some d := by
  have hall : ∀ d : Fin 16, hexValue (Nat.digitChar d).toUpper = some (d : ℕ) := by decide
  exact hall ⟨d, h⟩

/-- The digits of a number are read as the number. -/
theorem filterMap_hexValue_toDigits (n : ℕ) :
    (((Nat.toDigits 16 n).map Char.toUpper).filterMap hexValue).foldl
    (fun n d => 16 * n + d) 0 = n := by
  induction n using Nat.strong_induction_on with
  | _ n ih =>
    rw [Nat.toDigits_eq_if (by decide)]
    split_ifs with hlt
    · simp [hexValue_toUpper_digitChar hlt]
    · rw [List.map_append, List.filterMap_append, List.foldl_append, ih (n / 16) (by omega)]
      simp only [List.map_cons, List.map_nil,
        List.filterMap_cons_some (hexValue_toUpper_digitChar (Nat.mod_lt n (by decide))),
        List.filterMap_nil, List.foldl_cons, List.foldl_nil]
      omega

theorem isSome_hexValue_of_mem_upperHex {n : ℕ} {c : Char} (h : c ∈ (upperHex n).toList) :
    (hexValue c).isSome := by
  rw [upperHex, String.toList_ofList, List.mem_map] at h
  obtain ⟨d, hd, rfl⟩ := h
  induction n using Nat.strong_induction_on with
  | _ n ih =>
    rw [Nat.toDigits_eq_if (by decide)] at hd
    split_ifs at hd with hlt
    · rw [List.mem_singleton.1 hd, hexValue_toUpper_digitChar hlt]
      rfl
    · rcases List.mem_append.1 hd with hd | hd
      · exact ih (n / 16) (by omega) hd
      · rw [List.mem_singleton.1 hd, hexValue_toUpper_digitChar (Nat.mod_lt n (by decide))]
        rfl

/-- **A serial number as text is in its normal form.** -/
theorem normalizeSerialHex_upperHex (n : ℕ) : normalizeSerialHex (upperHex n) = upperHex n := by
  have hplain := trimPrefix_plain (s := upperHex n)
    fun c hc => not_special_of_hexValue (isSome_hexValue_of_mem_upperHex hc)
  have hdigits := filterMap_hexValue_toDigits n
  have hne : (upperHex n).toList.filterMap hexValue ≠ [] := by
    obtain ⟨d, hd⟩ := List.exists_mem_of_ne_nil _ (Nat.toDigits_ne_nil (n := n) (b := 16))
    have hmem : d.toUpper ∈ (upperHex n).toList := by
      rw [upperHex, String.toList_ofList]
      exact List.mem_map_of_mem hd
    obtain ⟨v, hv⟩ := Option.isSome_iff_exists.1 (isSome_hexValue_of_mem_upperHex hmem)
    exact List.ne_nil_of_mem (List.mem_filterMap.2 ⟨_, hmem, hv⟩)
  have hlist : (upperHex n).toList = (Nat.toDigits 16 n).map Char.toUpper := by
    rw [upperHex, String.toList_ofList]
  simp only [normalizeSerialHex]
  rw [hplain, if_neg hne, hlist, hdigits]

/-- The serial number of a line is read as the number. -/
theorem normalizeSerialHex_eq_upperHex {s : String} (h : normalizeSerialHex s ≠ "") :
    ∃ n, normalizeSerialHex s = upperHex n := by
  simp only [normalizeSerialHex] at h ⊢
  split_ifs at h ⊢ with hnil
  · exact absurd rfl h
  · exact ⟨_, rfl⟩

/-! ### Reading a line -/

/-- The text of a line between its serial number and its common name. -/
def subjectHead : List Char := ['u', 'n', 'k', 'n', 'o', 'w', 'n', '\t', '/', 'C', 'N', '=']

theorem matchDate_utcDigits (t : ℤ) (l : List Char) :
    matchDate (utcDigits t ++ 'Z' :: l) = some (utcDigits t, l) := by
  have htake : (utcDigits t ++ 'Z' :: l).take 12 = utcDigits t := rfl
  have hdrop : (utcDigits t ++ 'Z' :: l).drop 12 = 'Z' :: l := rfl
  have hdrop' : (utcDigits t ++ 'Z' :: l).drop 13 = l := rfl
  simp only [matchDate, htake, hdrop, hdrop', length_utcDigits, isDigit_utcDigits, List.head?_cons,
    Option.any_some, true_or, decide_true, and_self, if_true]

theorem matchSpaces_append {s l : List Char} (hs : s ≠ [])
    (hspace : ∀ c ∈ s, isPatternSpace c = true)
    (hl : ∀ c ∈ l.head?, isPatternSpace c = false) : matchSpaces (s ++ l) = some l := by
  have htake : (s ++ l).takeWhile isPatternSpace = s := by
    cases l with
    | nil => rw [List.append_nil, List.takeWhile_eq_self_iff.2 hspace]
    | cons c l =>
      rw [List.takeWhile_append_of_pos hspace, List.takeWhile_cons_of_neg (by simp [hl c rfl]),
        List.append_nil]
  have hdrop : (s ++ l).dropWhile isPatternSpace = l := by
    cases l with
    | nil => rw [List.append_nil, List.dropWhile_eq_nil_iff.2 hspace]
    | cons c l =>
      rw [List.dropWhile_append_of_pos hspace, List.dropWhile_cons_of_neg (by simp [hl c rfl])]
  rw [matchSpaces, htake, if_neg hs, hdrop]

/-- The run of digits of a serial number ends at the tab after it. -/
theorem matchHex_upperHex (n : ℕ) (l : List Char) :
    matchHex ((upperHex n).toList ++ '\t' :: l) = some ((upperHex n).toList, '\t' :: l) := by
  have hhex : ∀ c ∈ (upperHex n).toList, (hexValue c).isSome = true :=
    fun c hc => isSome_hexValue_of_mem_upperHex hc
  have hne : (upperHex n).toList ≠ [] := by
    rw [upperHex, String.toList_ofList]
    exact fun h => Nat.toDigits_ne_nil (List.map_eq_nil_iff.1 h)
  have htab : (hexValue '\t').isSome = false := by decide
  rw [matchHex, List.takeWhile_append_of_pos hhex, List.dropWhile_append_of_pos hhex,
    List.takeWhile_cons_of_neg (by simp [htab]), List.dropWhile_cons_of_neg (by simp [htab]),
    List.append_nil, if_neg hne]

/-- The common name of a subject. -/
theorem subjectCNFromDN_plain {cn : List Char} (hne : cn ≠ [])
    (hcn : ∀ c ∈ cn, c ≠ '/' ∧ c ≠ '\n' ∧ c ≠ ',') :
    subjectCNFromDN (subjectHead ++ cn) = GoStrings.trimSpace (String.ofList cn) := by
  have hrun : commonNameRun cn = cn :=
    List.takeWhile_eq_self_iff.2 fun c hc => decide_eq_true (hcn c hc)
  have hfind : cnFromDN (subjectHead ++ cn) = some cn := by
    simp [subjectHead, cnFromDN, hrun, hne]
  rw [subjectCNFromDN, hfind, Option.getD_some]

/-- A carriage return at the end of a line is one of the characters after its text. -/
theorem trimCR_append {l : List Char} (hl : l.getLast? ≠ some '\r') (b : List Char) :
    ∃ b', trimCR (l ++ b) = l ++ b' ∧ ∀ c ∈ b', c ∈ b := by
  rcases List.eq_nil_or_concat b with rfl | ⟨b, c, rfl⟩
  · exact ⟨[], by rw [List.append_nil, trimCR, if_neg hl], fun c hc => hc⟩
  · rw [List.concat_eq_append, trimCR, ← List.append_assoc, List.getLast?_concat,
      List.dropLast_concat]
    split_ifs with hc
    · exact ⟨b, rfl, fun d hd => List.mem_append_left _ hd⟩
    · exact ⟨b ++ [c], by rw [List.append_assoc], fun d hd => hd⟩

/-- The text of a line, when its common name is not blank. -/
theorem trimLine_trimCR {pre cn : List Char} (hne : pre ≠ [])
    (hpre : GoStrings.isSpace (pre.head hne) = false) (hcn : trimLine cn ≠ []) :
    ∃ a, (∀ c ∈ a, GoStrings.isSpace c = true) ∧ (∀ c ∈ a, c ∈ cn) ∧
      trimLine (trimCR (pre ++ cn)) = pre ++ (a ++ trimLine cn) := by
  obtain ⟨a, b, heq, ha, hb⟩ := GoStrings.exists_eq_append_trimList GoStrings.isSpace cn
  have hlast := GoStrings.trimList_getLast hcn
  have hend : a ++ trimLine cn ≠ [] := List.append_ne_nil_of_right_ne_nil a hcn
  have htext : (pre ++ (a ++ trimLine cn)).getLast? ≠ some '\r' := by
    rw [List.getLast?_append_of_ne_nil _ hend, List.getLast?_append_of_ne_nil _ hcn,
      List.getLast?_eq_some_getLast hcn]
    intro hr
    have hspace : GoStrings.isSpace '\r' = true := by decide
    rw [← Option.some.inj hr] at hspace
    exact absurd (hlast.symm.trans hspace) (by decide)
  obtain ⟨b', htrim, hb'⟩ := trimCR_append htext b
  refine ⟨a, ha, fun c hc => ?_, ?_⟩
  · rw [heq]
    exact List.mem_append_left _ (List.mem_append_left _ hc)
  · have hline : pre ++ cn = pre ++ (a ++ trimLine cn) ++ b := by
      conv_lhs => rw [heq]
      simp only [trimLine, List.append_assoc]
    have htext : pre ++ (a ++ trimLine cn) ≠ [] := List.append_ne_nil_of_left_ne_nil hne _
    have hhead : GoStrings.isSpace ((pre ++ (a ++ trimLine cn)).head htext) = false := by
      rwa [List.head_append_of_ne_nil hne]
    have hlast' : GoStrings.isSpace ((pre ++ (a ++ trimLine cn)).getLast htext) = false := by
      rw [List.getLast_append_of_ne_nil _ hend, List.getLast_append_of_ne_nil _ hcn]
      exact hlast
    rw [hline, htrim]
    exact GoStrings.trimList_append (a := []) (by simp) (fun c hc => hb c (hb' c hc)) htext hhead
      hlast'

/-- The line of a row, up to its common name. -/
def IndexCertRow.head (row : IndexCertRow) (n : ℕ) : List Char :=
  match row.revokedAt with
  | some rev => 'R' :: '\t' :: (utcDigits row.expiresAt ++ 'Z' :: '\t' :: (utcDigits rev ++
      'Z' :: '\t' :: ((upperHex n).toList ++ '\t' :: subjectHead)))
  | none => 'V' :: '\t' :: (utcDigits row.expiresAt ++ 'Z' :: '\t' :: '\t' ::
      ((upperHex n).toList ++ '\t' :: subjectHead))

theorem IndexCertRow.head_cons (row : IndexCertRow) (n : ℕ) :
    ∃ c l, row.head n = c :: l ∧ GoStrings.isSpace c = false := by
  rw [IndexCertRow.head]
  split <;> exact ⟨_, _, rfl, by decide⟩

theorem IndexCertRow.Plain.line_eq {row : IndexCertRow} (h : row.Plain) {n : ℕ}
    (hn : normalizeSerialHex row.serialNumber = upperHex n) :
    row.line = row.head n ++ row.commonName.toList := by
  have hserial : row.serialHex = upperHex n := by
    rw [IndexCertRow.serialHex]
    simp only [if_neg h.serial]
    exact hn
  have hcn : GoStrings.replaceList '\t' [' '] row.commonName.toList = row.commonName.toList :=
    GoStrings.replaceList_eq_self fun htab => (h.chars _ htab).1 rfl
  have hV : "V\t".toList = ['V', '\t'] := rfl
  have hR : "R\t".toList = ['R', '\t'] := rfl
  have htabs : "\t\t".toList = ['\t', '\t'] := rfl
  have hsubject : "\tunknown\t/CN=".toList = '\t' :: subjectHead := rfl
  rw [IndexCertRow.line, IndexCertRow.head, hserial, hcn]
  cases hrev : row.revokedAt with
  | none => simp only [toOpenSSLUTC_eq h.expiry, hV, htabs, hsubject, List.append_assoc,
      List.cons_append, List.nil_append]
  | some rev => simp only [toOpenSSLUTC_eq h.expiry, toOpenSSLUTC_eq (h.revocation rev hrev), hR,
      hsubject, List.append_assoc, List.cons_append, List.nil_append]

theorem isPatternSpace_of_hexValue {c : Char} (h : (hexValue c).isSome) :
    isPatternSpace c = false := by
  by_contra hspace
  simp only [isPatternSpace, Bool.not_eq_false, Bool.or_eq_true, decide_eq_true_eq] at hspace
  rcases hspace with (((rfl | rfl) | rfl) | rfl) | hff
  · exact absurd h (by decide)
  · exact absurd h (by decide)
  · exact absurd h (by decide)
  · exact absurd h (by decide)
  · have hc : c = Char.ofNat 0x0c := by rw [← hff, Char.ofNat_toNat]
    rw [hc] at h
    exact absurd h (by decide)

theorem hexValue_of_isDigit {c : Char} (h : c.isDigit = true) : (hexValue c).isSome := by
  have hrange : '0' ≤ c ∧ c ≤ '9' := by
    rw [Char.isDigit, Bool.and_eq_true, decide_eq_true_eq, decide_eq_true_eq] at h
    exact h
  rw [hexValue, if_pos hrange]
  rfl

theorem matchSpaces_utcDigits (t : ℤ) (l : List Char) :
    matchSpaces ('\t' :: (utcDigits t ++ l)) = some (utcDigits t ++ l) := by
  have hne : utcDigits t ≠ [] := List.ne_nil_of_length_pos (by rw [length_utcDigits]; decide)
  have hhead : ∀ c ∈ (utcDigits t ++ l).head?, isPatternSpace c = false := by
    intro c hc
    rw [List.head?_append_of_ne_nil _ hne] at hc
    exact isPatternSpace_of_hexValue (hexValue_of_isDigit
      (List.all_eq_true.1 (isDigit_utcDigits t) c (List.mem_of_mem_head? hc)))
  exact matchSpaces_append (s := ['\t']) (l := utcDigits t ++ l) (by simp)
    (by simp [isPatternSpace]) hhead

theorem matchSpaces_upperHex {s : List Char} (hs : s ≠ []) (htab : ∀ c ∈ s, c = '\t') (n : ℕ)
    (l : List Char) : matchSpaces (s ++ ((upperHex n).toList ++ l)) =
    some ((upperHex n).toList ++ l) := by
  have hne : (upperHex n).toList ≠ [] := by
    rw [upperHex, String.toList_ofList]
    exact fun h => Nat.toDigits_ne_nil (List.map_eq_nil_iff.1 h)
  refine matchSpaces_append hs (fun c hc => ?_) fun c hc => ?_
  · rw [htab c hc]
    decide
  · rw [List.head?_append_of_ne_nil _ hne] at hc
    exact isPatternSpace_of_hexValue (isSome_hexValue_of_mem_upperHex (List.mem_of_mem_head? hc))

/-- A serial number is not taken for a date. -/
theorem matchDate_upperHex (n : ℕ) (l : List Char) :
    matchDate ((upperHex n).toList ++ '\t' :: l) = none := by
  rw [matchDate]
  refine if_neg ?_
  rintro ⟨-, hdigits, hZ⟩
  rw [List.all_eq_true] at hdigits
  by_cases hlen : 12 ≤ (upperHex n).toList.length
  · -- what follows twelve digits is a digit or the tab
    rw [List.drop_append_of_le_length hlen] at hZ
    obtain ⟨c, hc, hcZ⟩ : ∃ c, ((upperHex n).toList.drop 12 ++ '\t' :: l).head? = some c ∧
        (c = 'Z' ∨ c = 'z') := by
      rw [Option.any_eq_true] at hZ
      obtain ⟨c, hc, hcZ⟩ := hZ
      exact ⟨c, hc, of_decide_eq_true hcZ⟩
    have hmem : c = '\t' ∨ c ∈ (upperHex n).toList := by
      cases hdrop : (upperHex n).toList.drop 12 with
      | nil =>
        rw [hdrop] at hc
        exact Or.inl (Option.some.inj hc).symm
      | cons d t =>
        rw [hdrop] at hc
        have hd : d ∈ (upperHex n).toList.drop 12 := by
          rw [hdrop]
          exact List.mem_cons_self
        rw [← Option.some.inj hc]
        exact Or.inr (List.mem_of_mem_drop hd)
    rcases hmem with rfl | hmem
    · exact absurd hcZ (by decide)
    · have hhex := isSome_hexValue_of_mem_upperHex hmem
      rcases hcZ with rfl | rfl
      · exact absurd hhex (by decide)
      · exact absurd hhex (by decide)
  · -- the tab is among the first twelve characters
    have htab : '\t' ∈ ((upperHex n).toList ++ '\t' :: l).take 12 := by
      rw [List.take_append, List.mem_append]
      obtain ⟨k, hk⟩ : ∃ k, 12 - (upperHex n).toList.length = k + 1 :=
        ⟨_, (Nat.succ_pred (by omega)).symm⟩
      right
      rw [hk]
      exact List.mem_cons_self
    exact absurd (hdigits _ htab) (by decide)

/-- The common name of a line, and what is read of it. -/
structure NameText (cn : List Char) : Prop where
  ne : GoStrings.trimSpace (String.ofList cn) ≠ ""
  chars : ∀ c ∈ cn, c ≠ '/' ∧ c ≠ '\n' ∧ c ≠ ','

theorem matchSpaces_subject (cn : List Char) :
    matchSpaces ('\t' :: (subjectHead ++ cn)) = some (subjectHead ++ cn) := by
  refine matchSpaces_append (s := ['\t']) (by simp) (by simp [isPatternSpace]) fun c hc => ?_
  obtain rfl : 'u' = c := Option.some.inj hc
  decide

theorem upperHex_ne_empty (n : ℕ) : upperHex n ≠ "" := by
  rw [upperHex, ne_eq, GoStrings.ofList_eq_empty]
  exact fun h => Nat.toDigits_ne_nil (List.map_eq_nil_iff.1 h)

/-- **A line is read**: a status, a date, perhaps a second one, a serial number and a subject. -/
theorem parse_line {raw cn rest sep : List Char} {c : Char} {status : InventoryStatus}
    {t : ℤ} {n : ℕ} {revocation : Option (List Char)} (hcn : NameText cn)
    (hstatus : inventoryStatus c = some status)
    (htext : trimLine (trimCR raw) = c :: '\t' :: (utcDigits t ++ 'Z' :: rest))
    (hrev : matchRevocation rest =
      (revocation, sep ++ ((upperHex n).toList ++ '\t' :: (subjectHead ++ cn))))
    (hsep : sep ≠ []) (htab : ∀ c ∈ sep, c = '\t') :
    parseEasyRsaIndexLine raw = some
      ⟨status, utcDigits t, revocation, upperHex n, GoStrings.trimSpace (String.ofList cn)⟩ := by
  have hne : cn ≠ [] := by
    rintro rfl
    exact hcn.ne GoStrings.trimSpace_empty
  rw [parseEasyRsaIndexLine, htext]
  split
  · next h => cases h
  · next h =>
    obtain ⟨rfl, -⟩ := List.cons.inj h
    cases hstatus
  · next h =>
    obtain ⟨rfl, rfl⟩ := List.cons.inj h
    simp only [hstatus, Option.bind_eq_bind, Option.bind_some, matchSpaces_utcDigits,
      matchDate_utcDigits, hrev, matchSpaces_upperHex hsep htab, matchHex_upperHex,
      matchSpaces_subject, String.ofList_toList, normalizeSerialHex_upperHex,
      subjectCNFromDN_plain hne hcn.chars, upperHex_ne_empty, hcn.ne, or_self, if_false]

/-- The dates of a revoked certificate. -/
theorem matchRevocation_utcDigits (t : ℤ) (l : List Char) :
    matchRevocation ('\t' :: (utcDigits t ++ 'Z' :: l)) = (some (utcDigits t), l) := by
  rw [matchRevocation, matchSpaces_utcDigits, Option.bind_some, matchDate_utcDigits]

/-- The tabs after the date of a valid certificate, which a serial number follows. -/
theorem matchRevocation_upperHex (n : ℕ) (l : List Char) :
    matchRevocation (['\t', '\t'] ++ ((upperHex n).toList ++ '\t' :: l)) =
      (none, ['\t', '\t'] ++ ((upperHex n).toList ++ '\t' :: l)) := by
  have htabs : ∀ c ∈ ['\t', '\t'], c = '\t' := by simp
  rw [matchRevocation, matchSpaces_upperHex (List.cons_ne_nil _ _) htabs, Option.bind_some,
    matchDate_upperHex]

/-- Spaces before a common name are trimmed from it. -/
theorem trimSpace_append_trimLine {a cn : List Char} (ha : ∀ c ∈ a, GoStrings.isSpace c = true)
    (hcn : trimLine cn ≠ []) :
    GoStrings.trimSpace (String.ofList (a ++ trimLine cn)) = String.ofList (trimLine cn) := by
  have htrim := GoStrings.trimList_append (b := []) ha (by simp) hcn (GoStrings.trimList_head hcn)
    (GoStrings.trimList_getLast hcn)
  rw [List.append_nil] at htrim
  rw [GoStrings.trimSpace, String.toList_ofList, htrim]

/-- **A line is read as its row.** -/
theorem IndexCertRow.Plain.readAs {row : IndexCertRow} (h : row.Plain) : row.ReadAs row.line := by
  obtain ⟨n, hn⟩ := normalizeSerialHex_eq_upperHex h.serial
  have htext : GoStrings.trimSpace row.commonName =
      String.ofList (trimLine row.commonName.toList) := by
    rw [GoStrings.trimSpace, trimLine]
  have hname : trimLine row.commonName.toList ≠ [] :=
    fun hnil => h.name (htext.trans (GoStrings.ofList_eq_empty.2 hnil))
  obtain ⟨c, l, hhead, hc⟩ := row.head_cons n
  have hne : row.head n ≠ [] := hhead ▸ List.cons_ne_nil c l
  have hspace : GoStrings.isSpace ((row.head n).head hne) = false := by
    simp only [hhead, List.head_cons]
    exact hc
  obtain ⟨a, ha, hacn, hread⟩ := trimLine_trimCR hne hspace hname
  have htrim := (trimSpace_append_trimLine ha hname).trans htext.symm
  have hcn : NameText (a ++ trimLine row.commonName.toList) := by
    refine ⟨by rw [htrim]; exact h.name, fun c hc => ?_⟩
    have hmem : c ∈ row.commonName.toList := by
      rcases List.mem_append.1 hc with hc | hc
      · exact hacn c hc
      · exact (GoStrings.trimList_sublist _ _).subset hc
    exact ⟨(h.chars c hmem).2.2.1, (h.chars c hmem).2.1, (h.chars c hmem).2.2.2⟩
  rw [h.line_eq hn]
  cases hrev : row.revokedAt with
  | none =>
    have hline : trimLine (trimCR (row.head n ++ row.commonName.toList)) =
        'V' :: '\t' :: (utcDigits row.expiresAt ++ 'Z' :: (['\t', '\t'] ++ ((upperHex n).toList ++
          '\t' :: (subjectHead ++ (a ++ trimLine row.commonName.toList))))) := by
      rw [hread, IndexCertRow.head, hrev]
      simp only [List.cons_append, List.append_assoc, List.nil_append]
    have hparse := parse_line hcn (show inventoryStatus 'V' = some .valid from rfl) hline
      (matchRevocation_upperHex n _) (List.cons_ne_nil _ _) (by simp)
    refine ⟨_, hparse, ?_, hn.symm, htrim, openSSLUtcTimeToDate_utcDigits h.expiry, ?_⟩
    · rw [hrev]
      rfl
    · rw [hrev]
      rfl
  | some rev =>
    have hline : trimLine (trimCR (row.head n ++ row.commonName.toList)) =
        'R' :: '\t' :: (utcDigits row.expiresAt ++ 'Z' :: '\t' :: (utcDigits rev ++ 'Z' ::
          (['\t'] ++ ((upperHex n).toList ++
            '\t' :: (subjectHead ++ (a ++ trimLine row.commonName.toList)))))) := by
      rw [hread, IndexCertRow.head, hrev]
      simp only [List.cons_append, List.append_assoc, List.nil_append]
    have hparse := parse_line hcn (show inventoryStatus 'R' = some .revoked from rfl) hline
      (matchRevocation_utcDigits rev _) (List.cons_ne_nil _ _) (by simp)
    refine ⟨_, hparse, ?_, hn.symm, htrim, openSSLUtcTimeToDate_utcDigits h.expiry, ?_⟩
    · rw [hrev]
      rfl
    · rw [hrev]
      exact openSSLUtcTimeToDate_utcDigits (h.revocation rev hrev)

/-! ### The text -/

/-- A line has no line break. -/
theorem IndexCertRow.Plain.newline_notMem {row : IndexCertRow}
    (h : row.Plain) : '\n' ∉ row.line := by
  obtain ⟨n, hn⟩ := normalizeSerialHex_eq_upperHex h.serial
  have hdigits : ∀ t, '\n' ∉ utcDigits t := fun t hmem =>
    absurd (List.all_eq_true.1 (isDigit_utcDigits t) _ hmem) (by decide)
  have hhex : '\n' ∉ (upperHex n).toList := fun hmem =>
    absurd (isSome_hexValue_of_mem_upperHex hmem) (by decide)
  have hcn : '\n' ∉ row.commonName.toList := fun hmem => (h.chars _ hmem).2.1 rfl
  rw [h.line_eq hn, IndexCertRow.head]
  cases row.revokedAt <;> simp [subjectHead, hdigits, hhex, hcn]

/-- Lines with a line break after each are split into them, and an empty rest. -/
theorem splitOn_lines {lines : List (List Char)} (hne : lines ≠ [])
    (h : ∀ line ∈ lines, '\n' ∉ line) :
    (['\n'].intercalate lines ++ ['\n']).splitOn '\n' = lines ++ [[]] := by
  have hrest : ['\n'].intercalate lines ++ ['\n'] = ['\n'].intercalate (lines ++ [[]]) := by
    clear h
    induction lines with
    | nil => exact absurd rfl hne
    | cons line lines ih =>
      cases lines with
      | nil => simp
      | cons line' lines =>
        rw [List.intercalate_cons_cons, List.append_assoc, ih (List.cons_ne_nil _ _)]
        simp only [List.cons_append, List.intercalate_cons_cons]
  rw [hrest, List.splitOn_intercalate]
  · intro line hline
    rcases List.mem_append.1 hline with hline | hline
    · exact h line hline
    · rw [List.mem_singleton.1 hline]
      exact List.not_mem_nil
  · exact List.append_ne_nil_of_left_ne_nil hne _

/-- **An index is read as its rows.** The text has one line a row, in their order, and each line is
read as its row. -/
theorem buildIndexTxt_roundTrip {rows : List IndexCertRow} (h : ∀ row ∈ rows, row.Plain) :
    ∃ lines, (buildIndexTxt rows).toList.splitOn '\n' = lines ++ [[]] ∧
      List.Forall₂ IndexCertRow.ReadAs rows lines := by
  refine ⟨rows.map (·.line), ?_, ?_⟩
  · rw [buildIndexTxt]
    split_ifs with hnil
    · subst hnil
      rfl
    · rw [String.toList_ofList]
      refine splitOn_lines (by simpa using hnil) fun line hline => ?_
      obtain ⟨row, hrow, rfl⟩ := List.mem_map.1 hline
      exact (h row hrow).newline_notMem
  · rw [List.forall₂_map_right_iff, List.forall₂_same]
    exact fun row hrow => (h row hrow).readAs

/-- A revoked certificate of 2030 and a valid one of 1950. -/
def plainRows : List IndexCertRow :=
  [⟨" alice b.", "0x0a", 1900000000123456789, some 1700000000000000000⟩,
    ⟨"bob", "B", -631152000000000000, none⟩]

theorem buildIndexTxt_roundTrip_plainRows :
    ∃ lines, (buildIndexTxt plainRows).toList.splitOn '\n' = lines ++ [[]] ∧
      List.Forall₂ IndexCertRow.ReadAs plainRows lines := by
  refine buildIndexTxt_roundTrip fun row hrow => ?_
  rcases List.mem_cons.1 hrow with rfl | hrow
  · exact ⟨by decide +kernel, by decide, by decide +kernel, by unfold InUTCTime; decide,
      by unfold InUTCTime; decide⟩
  · rw [List.mem_singleton.1 hrow]
    exact ⟨by decide +kernel, by decide, by decide +kernel, by unfold InUTCTime; decide, by simp⟩

/-- A row with a name, a serial number and a date whose line is not read as the row. -/
def NotReadBack (row : IndexCertRow) : Prop :=
  GoStrings.trimSpace row.commonName ≠ "" ∧ '\t' ∉ row.commonName.toList ∧
    '\n' ∉ row.commonName.toList ∧ '\r' ∉ row.commonName.toList ∧
    (∃ c ∈ row.serialNumber.toList, (hexValue c).isSome = true) ∧ row.expiresAt ≠ zeroTime ∧
    (buildIndexTxt [row]).toList.splitOn '\n' = [row.line, []] ∧ ¬row.ReadAs row.line

instance (row : IndexCertRow) : Decidable (NotReadBack row) := by
  unfold NotReadBack
  infer_instance

/-- **Four rows that are not read back**: a common name with a slash, one with a comma, a
certificate of 2050, and a serial number that is a prefix only. -/
theorem index_not_read_back :
    NotReadBack ⟨"ops/alice", "A", 1900000000000000000, none⟩ ∧
      NotReadBack ⟨"Smith, John", "A", 1900000000000000000, none⟩ ∧
      NotReadBack ⟨"alice", "A", 2524608000000000000, none⟩ ∧
      NotReadBack ⟨"alice", "0x", 1900000000000000000, none⟩ := by
  decide +kernel

end OpenvpnControl.Cert
