import OpenvpnControl.Cert.Serials
import OpenvpnControl.Certificates.Revoked

/-!
# The index of a revocation list

`GeneratePEM` writes an `index.txt` of the revoked rows of a root and runs `openssl ca` on it. It
has an encoder of its own, beside that of `BuildIndexTxt`. This file proves which rows the two write
as the same line, and which lines are records of a database of `openssl ca`.

## Main definitions

* `caFiles`, `generatePEM`: the files of a run, and the run.
* `IsRecord`: a record of a database.
* `IsExportedIndex`: a text is the records that the export writes for some rows.
* `Encodes`: the condition on a row.

## Main results

* `index_exported_iff`: the index of a run is the exported one if and only if every row is encoded.
* `odd_serial_malformed`: a serial number with an odd number of digits.
-/

namespace OpenvpnControl.Crl

open Cert (hexValue normalizeSerialHex trimPrefix IndexCertRow)
open Certificates (RevokedRow)

/-! ### The encoder -/

/-- `strings.ToUpper` of a text in ASCII. -/
def upper (s : String) : String := String.ofList (s.toList.map Char.toUpper)

def serialToOpenSSLHex (serial : String) : String :=
  let s := GoStrings.trimSpace (trimPrefix (trimPrefix serial "0x") "0X")
  if s = "" then "01"
  -- the loop over the characters returns what follows it
  else if s.toList.any fun c => (hexValue c).isNone then upper s
  else upper s

/-- `toOpenSSLUTC` of the package, which is the one of the export. -/
def toOpenSSLUTC (t : ℤ) : List Char := Cert.toOpenSSLUTC t

/-- The common name in a line. -/
def lineName (commonName : String) : List Char :=
  let cn := GoStrings.replaceList '\t' [' '] commonName.toList
  let cn := GoStrings.replaceList '\n' [' '] cn
  let cn := GoStrings.replaceList '\r' [' '] cn
  if cn = [] then "unknown".toList else cn

/-- The line of a row. -/
def indexLine (c : RevokedRow) : List Char :=
  "R\t".toList ++ toOpenSSLUTC c.expiresAt ++ '\t' :: toOpenSSLUTC c.revokedAt ++
    '\t' :: (serialToOpenSSLHex c.serialNumber).toList ++ "\tunknown\t/CN=".toList ++
    lineName c.commonName

/-- The text of the index. -/
def indexContent (revoked : List RevokedRow) : String :=
  let content := ['\n'].intercalate (revoked.map indexLine)
  String.ofList (if content ≠ [] then content ++ ['\n'] else content)

/-- The files of a directory that `openssl ca` runs in. -/
structure CaFiles where
  caCrt : String
  caKey : String
  indexTxt : String
  indexTxtAttr : String
  serial : String
  crlnumber : String
  opensslCnf : String

/-- The files that `GeneratePEM` writes to a directory. -/
def caFiles (dirUnix caCertPEM caKeyPEM : String) (revoked : List RevokedRow) : CaFiles where
  caCrt := caCertPEM
  caKey := caKeyPEM
  indexTxt := indexContent revoked
  indexTxtAttr := "unique_subject = no\n"
  serial := "01\n"
  crlnumber := "01\n"
  opensslCnf := "[ ca ]\ndefault_ca = CA_default\n\n[ CA_default ]\n" ++
    "database = " ++ dirUnix ++ "/index.txt\n" ++ "certificate = " ++ dirUnix ++ "/ca.crt\n" ++
    "serial = " ++ dirUnix ++ "/serial\n" ++ "crlnumber = " ++ dirUnix ++ "/crlnumber\n" ++
    "private_key = " ++ dirUnix ++ "/ca.key\n" ++
    "default_md = sha256\ndefault_crl_days = 30\nunique_subject = no\n"

/-- `GeneratePEM`, where `gencrl` is what `openssl ca -gencrl` leaves in `crl.pem`, or its error and
output. -/
def generatePEM (gencrl : CaFiles → Except (String × String) String)
    (dirUnix caCertPEM caKeyPEM : String) (revoked : List RevokedRow) : Except String String :=
  match gencrl (caFiles dirUnix caCertPEM caKeyPEM revoked) with
  | .error (err, out) => .error (err ++ ": " ++ GoStrings.trimSpace out)
  | .ok data => .ok data

/-! ### Records -/

/-- A date of a record: twelve digits, or fourteen with the year in four, and the letter of UTC. -/
def IsDate (l : List Char) : Prop :=
  ∃ digits, l = digits ++ ['Z'] ∧ (digits.length = 12 ∨ digits.length = 14) ∧
    ∀ c ∈ digits, c.isDigit = true

/-- A serial number of a record: an even number of hexadecimal digits. -/
def IsSerial (l : List Char) : Prop :=
  l ≠ [] ∧ l.length % 2 = 0 ∧ ∀ c ∈ l, (hexValue c).isSome = true

/-- A record of a revoked certificate: six fields between tabs, with the dates of expiry and
revocation and the serial number. -/
def IsRecord (line : List Char) : Prop :=
  ∃ status expiry revocation serial file subject,
    line.splitOn '\t' = [status, expiry, revocation, serial, file, subject] ∧
      IsDate expiry ∧ IsDate revocation ∧ IsSerial serial

/-- The row that the export has for a revoked row. -/
def exportRow (c : RevokedRow) : IndexCertRow :=
  ⟨c.commonName, c.serialNumber, c.expiresAt, some c.revokedAt⟩

/-- A text is one line a row, and each line is a record and what the export writes for its row. -/
def IsExportedIndex (revoked : List RevokedRow) (text : String) : Prop :=
  ∃ lines, text.toList.splitOn '\n' = lines ++ [[]] ∧
    List.Forall₂ (fun c line => IsRecord line ∧
      (Cert.buildIndexTxt [exportRow c]).toList = line ++ ['\n']) revoked lines

/-- A text of the form of `ksuid.New`: twenty-seven digits and letters. -/
def IsKsuid (s : String) : Prop := s.toList.length = 27 ∧ ∀ c ∈ s.toList, c.isAlphanum = true

/-- A serial number as the operations on certificates store them: in normal form, or generated. -/
def StoredSerial (serial : String) : Prop :=
  (∃ s, serial = normalizeSerialHex s) ∨ IsKsuid serial

/-- The condition on a row: the serial number has an even number of characters, neither date has a
year before the year 0 that is no multiple of a hundred, and the common name is not empty and has no
line break or carriage return. -/
structure Encodes (c : RevokedRow) : Prop where
  serial : c.serialNumber.toList.length % 2 = 0
  expiry : 0 ≤ (Cert.utcDate c.expiresAt).year.tmod 100
  revocation : 0 ≤ (Cert.utcDate c.revokedAt).year.tmod 100
  name : c.commonName ≠ ""
  newline : '\n' ∉ c.commonName.toList
  carriageReturn : '\r' ∉ c.commonName.toList

/-! ### Dates -/

theorem pad2_digits {n : ℤ} (h0 : 0 ≤ n) (h1 : n < 100) :
    (Cert.pad2 n).length = 2 ∧ ∀ c ∈ Cert.pad2 n, c.isDigit = true := by
  rw [Cert.pad2_eq h0 h1]
  refine ⟨rfl, fun c hc => ?_⟩
  simp only [List.mem_cons, List.not_mem_nil, or_false] at hc
  rcases hc with rfl | rfl
  · exact Cert.isDigit_digitChar (by omega)
  · exact Cert.isDigit_digitChar (by omega)

/-- A date is one of a record unless the remainder of its year is negative. -/
theorem isDate_toOpenSSLUTC (t : ℤ) :
    IsDate (toOpenSSLUTC t) ↔ 0 ≤ (Cert.utcDate t).year.tmod 100 := by
  by_cases hzero : t = Cert.zeroTime
  · subst hzero
    rw [toOpenSSLUTC, Cert.toOpenSSLUTC, if_pos rfl]
    exact ⟨fun _ => by decide, fun _ => ⟨"00000000000000".toList, rfl, by decide, by decide⟩⟩
  simp only [toOpenSSLUTC, Cert.toOpenSSLUTC, if_neg hzero]
  constructor
  · rintro ⟨digits, htext, -, hdigits⟩
    by_contra hneg
    rw [Cert.pad2, if_pos (by omega)] at htext
    have hmem : '-' ∈ digits ++ ['Z'] := htext ▸ List.mem_cons_self
    rcases List.mem_append.1 hmem with hmem | hmem
    · exact absurd (hdigits _ hmem) (by decide)
    · exact absurd (List.mem_singleton.1 hmem) (by decide)
  · intro hyear
    obtain ⟨hm0, hm1⟩ := Calendar.month_bounds (Cert.unix t / Cert.day)
    obtain ⟨hd0, hd1⟩ := Calendar.day_bounds (Cert.unix t / Cert.day)
    obtain ⟨ht0, ht1⟩ := Cert.time_bounds t
    have hlt : (Cert.utcDate t).year.tmod 100 < 100 := Int.tmod_lt_of_pos _ (by decide)
    rw [Cert.utcDate] at *
    obtain ⟨hly, hy⟩ := pad2_digits hyear hlt
    obtain ⟨hlm, hm⟩ := pad2_digits (n := (Calendar.civilFromDays (Cert.unix t / Cert.day)).month)
      (by omega) (by omega)
    obtain ⟨hld, hd⟩ := pad2_digits (n := (Calendar.civilFromDays (Cert.unix t / Cert.day)).day)
      (by omega) (by omega)
    obtain ⟨hlh, hh⟩ := pad2_digits (n := Cert.unix t % Cert.day / 3600) (by omega) (by omega)
    obtain ⟨hlmin, hmin⟩ :=
      pad2_digits (n := Cert.unix t % Cert.day % 3600 / 60) (by omega) (by omega)
    obtain ⟨hls, hs⟩ := pad2_digits (n := Cert.unix t % Cert.day % 60) (by omega) (by omega)
    refine ⟨_, rfl, Or.inl ?_, fun c hc => ?_⟩
    · simp only [List.length_append, hly, hlm, hld, hlh, hlmin, hls]
    · simp only [List.mem_append] at hc
      rcases hc with ((((hc | hc) | hc) | hc) | hc) | hc
      · exact hy c hc
      · exact hm c hc
      · exact hd c hc
      · exact hh c hc
      · exact hmin c hc
      · exact hs c hc

/-- A date has no tab and no line break. -/
theorem ne_of_mem_date {t : ℤ} {c : Char} (h : c ∈ Cert.toOpenSSLUTC t) : c ≠ '\t' ∧ c ≠ '\n' := by
  have hdigits : ∀ n : ℤ, ∀ d ∈ Cert.pad2 n, d ≠ '\t' ∧ d ≠ '\n' := by
    intro n d hd
    have hnat : ∀ k : ℕ, ∀ e ∈ Nat.toDigits 10 k, e ≠ '\t' ∧ e ≠ '\n' := by
      intro k e he
      have hdigit := Nat.isDigit_of_mem_toDigits (by decide) (by decide) he
      refine ⟨?_, ?_⟩
      · rintro rfl
        exact absurd hdigit (by decide)
      · rintro rfl
        exact absurd hdigit (by decide)
    rw [Cert.pad2] at hd
    split_ifs at hd
    · rcases List.mem_cons.1 hd with rfl | hd
      · decide
      · exact hnat _ d hd
    · rcases List.mem_cons.1 hd with rfl | hd
      · decide
      · exact hnat _ d hd
    · exact hnat _ d hd
  rw [Cert.toOpenSSLUTC] at h
  split_ifs at h
  · exact (show ∀ c ∈ "00000000000000Z".toList, c ≠ '\t' ∧ c ≠ '\n' by decide) c h
  · simp only [List.mem_append, List.mem_singleton] at h
    rcases h with (((((h | h) | h) | h) | h) | h) | rfl
    · exact hdigits _ c h
    · exact hdigits _ c h
    · exact hdigits _ c h
    · exact hdigits _ c h
    · exact hdigits _ c h
    · exact hdigits _ c h
    · decide

/-! ### Serial numbers -/

/-- A digit or a letter stays one that is no white space. -/
theorem toUpper_of_isAlphanum {c : Char} (h : c.isAlphanum = true) :
    c.toUpper ≠ '\t' ∧ c.toUpper ≠ '\n' ∧ GoStrings.isSpace c = false := by
  have hall : ∀ n : Fin 128, (Char.ofNat n).isAlphanum = true → (Char.ofNat n).toUpper ≠ '\t' ∧
      (Char.ofNat n).toUpper ≠ '\n' ∧ GoStrings.isSpace (Char.ofNat n) = false := by decide +kernel
  have hlt : c.toNat < 128 := by
    delta Char.isAlphanum Char.isAlpha Char.isUpper Char.isLower Char.isDigit at h
    simp only [Bool.or_eq_true, Bool.and_eq_true, decide_eq_true_eq, UInt32.le_iff_toNat_le,
      ge_iff_le] at h
    have hnat : (65 ≤ c.toNat ∧ c.toNat ≤ 90 ∨ 97 ≤ c.toNat ∧ c.toNat ≤ 122) ∨
        48 ≤ c.toNat ∧ c.toNat ≤ 57 := h
    omega
  have hc := hall ⟨c.toNat, hlt⟩
  rw [Char.ofNat_toNat] at hc
  exact hc h

/-- A hexadecimal digit of a normal form is an upper-case one. -/
theorem upper_upperHex (n : ℕ) : upper (Cert.upperHex n) = Cert.upperHex n := by
  have htwice : ∀ d : Fin 16, (Nat.digitChar d).toUpper.toUpper = (Nat.digitChar d).toUpper := by
    decide
  rw [upper, Cert.upperHex, String.toList_ofList, List.map_map]
  congr 1
  refine List.map_congr_left fun c hc => ?_
  obtain ⟨d, hd, rfl⟩ := Cert.exists_digitChar_of_mem_toDigits hc
  exact htwice ⟨d, hd⟩

theorem serialToOpenSSLHex_eq {serial s : String}
    (hs : GoStrings.trimSpace (trimPrefix (trimPrefix serial "0x") "0X") = s) (hne : s ≠ "") :
    serialToOpenSSLHex serial = upper s := by
  simp only [serialToOpenSSLHex, hs, if_neg hne, ite_self]

/-- **The two encoders write a normal form alike.** -/
theorem serialToOpenSSLHex_normal (s : String) :
    serialToOpenSSLHex (normalizeSerialHex s) =
      if normalizeSerialHex s = "" then "01" else normalizeSerialHex s := by
  split_ifs with hnil
  · rw [hnil]
    decide +kernel
  · obtain ⟨n, hn⟩ := Cert.normalizeSerialHex_eq_upperHex hnil
    have hplain : ∀ c ∈ (Cert.upperHex n).toList, GoStrings.isSpace c = false ∧ c ≠ 'x' ∧ c ≠ 'X' :=
      fun c hc => Cert.not_special_of_hexValue (Cert.isSome_hexValue_of_mem_upperHex hc)
    have htrim : GoStrings.trimSpace (trimPrefix (trimPrefix (Cert.upperHex n) "0x") "0X") =
        Cert.upperHex n := by
      rw [Cert.trimPrefix_of_notMem (c := 'x') (by decide) fun hx => (hplain _ hx).2.1 rfl,
        Cert.trimPrefix_of_notMem (c := 'X') (by decide) fun hx => (hplain _ hx).2.2 rfl,
        GoStrings.trimSpace, GoStrings.trimList_eq_self, String.ofList_toList]
      · exact fun h => (hplain _ (List.head_mem h)).1
      · exact fun h => (hplain _ (List.getLast_mem h)).1
    rw [hn, serialToOpenSSLHex_eq htrim (Cert.upperHex_ne_empty n), upper_upperHex]

/-- A prefix of two characters takes none of the characters or two. -/
theorem trimPrefix_length {s pre : String} (hpre : pre.toList.length = 2) :
    (trimPrefix s pre).toList.length = s.toList.length ∨
      (trimPrefix s pre).toList.length + 2 = s.toList.length := by
  rw [trimPrefix]
  split_ifs with h
  · right
    have hle := (List.isPrefixOf_iff_prefix.1 h).length_le
    rw [String.toList_ofList, List.length_drop]
    omega
  · exact Or.inl rfl

theorem mem_of_mem_trimPrefix {s pre : String} {c : Char} (h : c ∈ (trimPrefix s pre).toList) :
    c ∈ s.toList := by
  rw [trimPrefix] at h
  split_ifs at h
  · rw [String.toList_ofList] at h
    exact List.mem_of_mem_drop h
  · exact h

/-- **A generated text has an odd number of characters**, which are digits and letters. -/
theorem serialToOpenSSLHex_ksuid {s : String} (h : IsKsuid s) :
    (serialToOpenSSLHex s).toList.length % 2 = 1 ∧
      ∀ c ∈ (serialToOpenSSLHex s).toList, c ≠ '\t' ∧ c ≠ '\n' := by
  obtain ⟨hlen, hchars⟩ := h
  obtain ⟨t, ht⟩ : ∃ t, trimPrefix (trimPrefix s "0x") "0X" = t := ⟨_, rfl⟩
  have halnum : ∀ c ∈ t.toList, c.isAlphanum = true := fun c hc =>
    hchars c (mem_of_mem_trimPrefix (mem_of_mem_trimPrefix (ht ▸ hc)))
  have hodd : t.toList.length % 2 = 1 := by
    rw [← ht]
    have h0x := @trimPrefix_length s "0x" rfl
    have h0X := @trimPrefix_length (trimPrefix s "0x") "0X" rfl
    omega
  have htrim : GoStrings.trimSpace t = t := by
    rw [GoStrings.trimSpace, GoStrings.trimList_eq_self, String.ofList_toList]
    · exact fun h => (toUpper_of_isAlphanum (halnum _ (List.head_mem h))).2.2
    · exact fun h => (toUpper_of_isAlphanum (halnum _ (List.getLast_mem h))).2.2
  have hne : t ≠ "" := by
    rintro rfl
    exact absurd hodd (by decide)
  rw [serialToOpenSSLHex_eq (ht.symm ▸ htrim) hne, upper, String.toList_ofList, List.length_map]
  refine ⟨hodd, fun c hc => ?_⟩
  obtain ⟨d, hd, rfl⟩ := List.mem_map.1 hc
  exact ⟨(toUpper_of_isAlphanum (halnum d hd)).1, (toUpper_of_isAlphanum (halnum d hd)).2.1⟩

/-- What is written for a stored serial number has no tab and no line break. -/
theorem ne_of_mem_serial {serial : String} (h : StoredSerial serial) {c : Char}
    (hc : c ∈ (serialToOpenSSLHex serial).toList) : c ≠ '\t' ∧ c ≠ '\n' := by
  rcases h with ⟨s, hs⟩ | hksuid
  · have hhex : (hexValue c).isSome = true := by
      rw [hs, serialToOpenSSLHex_normal] at hc
      split_ifs at hc with hnil
      · exact (show ∀ c ∈ "01".toList, (hexValue c).isSome = true by decide) c hc
      · obtain ⟨n, hn⟩ := Cert.normalizeSerialHex_eq_upperHex hnil
        exact Cert.isSome_hexValue_of_mem_upperHex (hn ▸ hc)
    refine ⟨?_, ?_⟩
    · rintro rfl
      exact absurd hhex (by decide)
    · rintro rfl
      exact absurd hhex (by decide)
  · exact (serialToOpenSSLHex_ksuid hksuid).2 c hc

/-- The serial number written is one of a record if and only if the stored one has an even number of
characters. -/
theorem isSerial_serialToOpenSSLHex {serial : String} (h : StoredSerial serial) :
    IsSerial (serialToOpenSSLHex serial).toList ↔ serial.toList.length % 2 = 0 := by
  rcases h with ⟨s, hs⟩ | hksuid
  · rw [hs, serialToOpenSSLHex_normal]
    split_ifs with hnil
    · rw [hnil]
      exact ⟨fun _ => by decide, fun _ => ⟨by decide, by decide, by decide⟩⟩
    · obtain ⟨n, hn⟩ := Cert.normalizeSerialHex_eq_upperHex hnil
      refine ⟨fun h => h.2.1, fun h => ⟨fun hempty => hnil (String.toList_inj.1 hempty), h, ?_⟩⟩
      rw [hn]
      exact fun c hc => Cert.isSome_hexValue_of_mem_upperHex hc
  · have hodd := (serialToOpenSSLHex_ksuid hksuid).1
    have hlen := hksuid.1
    refine ⟨fun h => ?_, fun h => ?_⟩
    · have heven := h.2.1
      omega
    · omega

/-! ### Common names -/

/-- A common name has no tab and no line break in a line. -/
theorem ne_of_mem_lineName {cn : String} {c : Char} (h : c ∈ lineName cn) :
    c ≠ '\t' ∧ c ≠ '\n' := by
  simp only [lineName] at h
  split_ifs at h
  · exact (show ∀ c ∈ "unknown".toList, c ≠ '\t' ∧ c ≠ '\n' by decide) c h
  · refine ⟨?_, ?_⟩
    · rintro rfl
      simp [GoStrings.mem_replaceList] at h
    · rintro rfl
      simp [GoStrings.mem_replaceList] at h

/-- **The two encoders write a common name alike** if and only if it is not empty and has no line
break and no carriage return. -/
theorem lineName_eq_iff (cn : String) :
    lineName cn = GoStrings.replaceList '\t' [' '] cn.toList ↔
      cn ≠ "" ∧ '\n' ∉ cn.toList ∧ '\r' ∉ cn.toList := by
  have hmem : ∀ c ∈ ['\n', '\r'], c ∈ GoStrings.replaceList '\t' [' '] cn.toList ↔
      c ∈ cn.toList := by
    intro c hc
    simp only [List.mem_cons, List.not_mem_nil, or_false] at hc
    rcases hc with rfl | rfl
    · simp [GoStrings.mem_replaceList]
    · simp [GoStrings.mem_replaceList]
  have hn := hmem '\n' (by simp)
  have hr := hmem '\r' (by simp)
  simp only [lineName]
  constructor
  · intro heq
    have hne : cn ≠ "" := by
      rintro rfl
      exact absurd heq (by decide)
    split_ifs at heq with hnil
    · -- nothing is left of a text only where there is none
      rw [← heq] at hnil
      exact absurd hnil (by decide)
    · refine ⟨hne, fun hin => ?_, fun hin => ?_⟩
      · have hout := hn.2 hin
        rw [← heq] at hout
        simp [GoStrings.mem_replaceList] at hout
      · have hout := hr.2 hin
        rw [← heq] at hout
        simp [GoStrings.mem_replaceList] at hout
  · rintro ⟨hne, hnl, hcr⟩
    have hnonempty : GoStrings.replaceList '\t' [' '] cn.toList ≠ [] := by
      obtain ⟨c, hc⟩ := List.exists_mem_of_ne_nil _ fun hnil => hne (String.toList_inj.1 hnil)
      by_cases htab : c = '\t'
      · exact List.ne_nil_of_mem (GoStrings.mem_replaceList.2
          (Or.inl ⟨htab ▸ hc, List.mem_singleton_self ' '⟩))
      · exact List.ne_nil_of_mem (GoStrings.mem_replaceList.2 (Or.inr ⟨hc, htab⟩))
    rw [GoStrings.replaceList_eq_self fun h => hnl (hn.1 h),
      GoStrings.replaceList_eq_self fun h => hcr (hr.1 h), if_neg hnonempty]

/-! ### Lines -/

/-- The fields of a line. -/
def lineFields (c : RevokedRow) : List (List Char) :=
  ["R".toList, toOpenSSLUTC c.expiresAt, toOpenSSLUTC c.revokedAt,
    (serialToOpenSSLHex c.serialNumber).toList, "unknown".toList,
    "/CN=".toList ++ lineName c.commonName]

theorem indexLine_eq (c : RevokedRow) : indexLine c = ['\t'].intercalate (lineFields c) := by
  have hR : "R\t".toList = "R".toList ++ ['\t'] := rfl
  have hsubject : "\tunknown\t/CN=".toList = '\t' :: "unknown".toList ++ '\t' :: "/CN=".toList :=
    rfl
  simp only [indexLine, lineFields, hR, hsubject, List.intercalate_cons_cons,
    List.intercalate_singleton, List.append_assoc, List.cons_append, List.nil_append]

theorem ne_of_mem_lineFields {c : RevokedRow} (h : StoredSerial c.serialNumber) {field : List Char}
    (hfield : field ∈ lineFields c) {d : Char} (hd : d ∈ field) : d ≠ '\t' ∧ d ≠ '\n' := by
  simp only [lineFields, List.mem_cons, List.not_mem_nil, or_false] at hfield
  rcases hfield with hf | hf | hf | hf | hf | hf
  · exact (show ∀ d ∈ "R".toList, d ≠ '\t' ∧ d ≠ '\n' by decide) d (hf ▸ hd)
  · exact ne_of_mem_date (hf ▸ hd)
  · exact ne_of_mem_date (hf ▸ hd)
  · exact ne_of_mem_serial h (hf ▸ hd)
  · exact (show ∀ d ∈ "unknown".toList, d ≠ '\t' ∧ d ≠ '\n' by decide) d (hf ▸ hd)
  · rw [hf] at hd
    rcases List.mem_append.1 hd with hd | hd
    · exact (show ∀ d ∈ "/CN=".toList, d ≠ '\t' ∧ d ≠ '\n' by decide) d hd
    · exact ne_of_mem_lineName hd

/-- **A line has the six fields** that are put between its tabs. -/
theorem splitOn_indexLine {c : RevokedRow} (h : StoredSerial c.serialNumber) :
    (indexLine c).splitOn '\t' = lineFields c := by
  rw [indexLine_eq]
  exact List.splitOn_intercalate _ (fun field hfield htab =>
    (ne_of_mem_lineFields h hfield htab).1 rfl)
    (List.cons_ne_nil _ _)

theorem newline_notMem_indexLine {c : RevokedRow} (h : StoredSerial c.serialNumber) :
    '\n' ∉ indexLine c := by
  have hfields : ∀ field ∈ lineFields c, '\n' ∉ field := fun field hfield hnl =>
    (ne_of_mem_lineFields h hfield hnl).2 rfl
  intro hmem
  rw [indexLine_eq] at hmem
  rcases GoStrings.mem_intercalateList hmem with hsep | ⟨field, hfield, hnl⟩
  · exact absurd hsep (by decide)
  · exact hfields field hfield hnl

/-- A line is a record if and only if its dates and its serial number are those of one. -/
theorem isRecord_indexLine {c : RevokedRow} (h : StoredSerial c.serialNumber) :
    IsRecord (indexLine c) ↔ IsDate (toOpenSSLUTC c.expiresAt) ∧ IsDate (toOpenSSLUTC c.revokedAt) ∧
      IsSerial (serialToOpenSSLHex c.serialNumber).toList := by
  constructor
  · rintro ⟨status, expiry, revocation, serial, file, subject, hfields, hrecord⟩
    rw [splitOn_indexLine h, lineFields] at hfields
    simp only [List.cons.injEq] at hfields
    obtain ⟨-, rfl, rfl, rfl, -⟩ := hfields
    exact hrecord
  · exact fun hrecord => ⟨_, _, _, _, _, _, splitOn_indexLine h, hrecord⟩

/-- The line that the export writes. -/
theorem buildIndexTxt_exportRow (c : RevokedRow) (line : List Char) :
    (Cert.buildIndexTxt [exportRow c]).toList = line ++ ['\n'] ↔ (exportRow c).line = line := by
  rw [Cert.buildIndexTxt, if_neg (List.cons_ne_nil _ _), String.toList_ofList, List.append_left_inj,
    List.map_cons, List.map_nil, List.intercalate_singleton]

/-- Where the serial numbers are written alike, the lines are if and only if the common names
are. -/
theorem exportRow_line_eq_iff {c : RevokedRow}
    (h : (exportRow c).serialHex = serialToOpenSSLHex c.serialNumber) :
    (exportRow c).line = indexLine c ↔
      lineName c.commonName = GoStrings.replaceList '\t' [' '] c.commonName.toList := by
  have hexport : (exportRow c).line = "R\t".toList ++ Cert.toOpenSSLUTC c.expiresAt ++
      '\t' :: Cert.toOpenSSLUTC c.revokedAt ++ '\t' :: ((exportRow c).serialHex.toList ++
        "\tunknown\t/CN=".toList ++ GoStrings.replaceList '\t' [' '] c.commonName.toList) := rfl
  have hline : indexLine c = "R\t".toList ++ Cert.toOpenSSLUTC c.expiresAt ++
      '\t' :: Cert.toOpenSSLUTC c.revokedAt ++
      '\t' :: ((serialToOpenSSLHex c.serialNumber).toList ++
        "\tunknown\t/CN=".toList ++ lineName c.commonName) := by
    rw [indexLine, toOpenSSLUTC, toOpenSSLUTC]
    simp only [List.append_assoc, List.cons_append]
  rw [hexport, hline, h, List.append_right_inj, List.cons.injEq, List.append_right_inj]
  exact ⟨fun heq => heq.2.symm, fun heq => ⟨rfl, heq.symm⟩⟩

/-- **A row is written well if and only if it is encoded.** -/
theorem indexLine_iff {c : RevokedRow} (h : StoredSerial c.serialNumber) :
    (IsRecord (indexLine c) ∧ (Cert.buildIndexTxt [exportRow c]).toList = indexLine c ++ ['\n']) ↔
      Encodes c := by
  rw [isRecord_indexLine h, isDate_toOpenSSLUTC, isDate_toOpenSSLUTC, isSerial_serialToOpenSSLHex h,
    buildIndexTxt_exportRow]
  have hline : c.serialNumber.toList.length % 2 = 0 → ((exportRow c).line = indexLine c ↔
      c.commonName ≠ "" ∧ '\n' ∉ c.commonName.toList ∧ '\r' ∉ c.commonName.toList) := by
    intro heven
    rw [exportRow_line_eq_iff, lineName_eq_iff]
    rcases h with ⟨s, hs⟩ | hksuid
    · rw [IndexCertRow.serialHex, exportRow, hs, serialToOpenSSLHex_normal,
        Cert.normalizeSerialHex_normalizeSerialHex]
    · have hlen := hksuid.1
      omega
  constructor
  · rintro ⟨⟨hexp, hrev, heven⟩, heq⟩
    obtain ⟨hne, hnl, hcr⟩ := (hline heven).1 heq
    exact ⟨heven, hexp, hrev, hne, hnl, hcr⟩
  · rintro ⟨heven, hexp, hrev, hne, hnl, hcr⟩
    exact ⟨⟨hexp, hrev, heven⟩, (hline heven).2 ⟨hne, hnl, hcr⟩⟩

/-! ### The index -/

theorem indexLine_ne_nil (c : RevokedRow) : indexLine c ≠ [] := by
  rw [indexLine]
  exact List.cons_ne_nil _ _

/-- **The index has one line a row**, in their order. -/
theorem splitOn_indexContent {revoked : List RevokedRow}
    (h : ∀ c ∈ revoked, StoredSerial c.serialNumber) :
    (indexContent revoked).toList.splitOn '\n' = revoked.map indexLine ++ [[]] := by
  rw [indexContent, String.toList_ofList]
  cases revoked with
  | nil => rfl
  | cons c revoked =>
    have hne : ['\n'].intercalate ((c :: revoked).map indexLine) ≠ [] := by
      intro hnil
      rw [List.map_cons] at hnil
      cases revoked with
      | nil =>
        rw [List.map_nil, List.intercalate_singleton] at hnil
        exact indexLine_ne_nil c hnil
      | cons d revoked =>
        rw [List.map_cons, List.intercalate_cons_cons] at hnil
        exact absurd hnil (by simp)
    rw [if_pos hne]
    refine Cert.splitOn_lines (by simp) fun line hline => ?_
    obtain ⟨d, hd, rfl⟩ := List.mem_map.1 hline
    exact newline_notMem_indexLine (h d hd)

theorem isExportedIndex_iff {revoked : List RevokedRow}
    (h : ∀ c ∈ revoked, StoredSerial c.serialNumber) :
    IsExportedIndex revoked (indexContent revoked) ↔ ∀ c ∈ revoked, Encodes c := by
  have hlines : IsExportedIndex revoked (indexContent revoked) ↔
      ∀ c ∈ revoked, IsRecord (indexLine c) ∧
        (Cert.buildIndexTxt [exportRow c]).toList = indexLine c ++ ['\n'] := by
    rw [IsExportedIndex, splitOn_indexContent h]
    constructor
    · rintro ⟨lines, hsplit, hall⟩
      rw [List.append_left_inj] at hsplit
      rw [← hsplit, List.forall₂_map_right_iff, List.forall₂_same] at hall
      exact hall
    · intro hall
      refine ⟨_, rfl, ?_⟩
      rw [List.forall₂_map_right_iff, List.forall₂_same]
      exact hall
  rw [hlines]
  exact forall₂_congr fun c hc => indexLine_iff (h c hc)

/-- **The index of a run is the exported one, in records, if and only if every row is encoded.** The
run and the export write different lines for a serial number with an odd number of characters and
for years before the year 0, and a name that is empty or more than one line makes no record. -/
theorem index_exported_iff {revoked : List RevokedRow}
    (h : ∀ c ∈ revoked, StoredSerial c.serialNumber) (dirUnix caCertPEM caKeyPEM : String) :
    IsExportedIndex revoked (caFiles dirUnix caCertPEM caKeyPEM revoked).indexTxt ↔
      ∀ c ∈ revoked, Encodes c :=
  isExportedIndex_iff h

/-- A row with the serial number of an issued certificate, and one with a generated serial
number. -/
def revokedRows : List RevokedRow :=
  [⟨"1A2B", "alice", 1900000000000000000, 1700000000000000000⟩,
    ⟨"2QbTZAzVGmLnpqkLQZpRjLGNQxG", "bob", 1900000000000000000, 1700000000000000000⟩]

theorem index_exported_iff_revokedRows :
    IsExportedIndex revokedRows (caFiles "/tmp/crl" "certificate" "key" revokedRows).indexTxt ↔
      ∀ c ∈ revokedRows, Encodes c := by
  refine index_exported_iff (fun c hc => ?_) "/tmp/crl" "certificate" "key"
  rcases List.mem_cons.1 hc with rfl | hc
  · exact Or.inl ⟨"1a:2b", by decide +kernel⟩
  · rw [List.mem_singleton.1 hc]
    exact Or.inr ⟨by decide, by decide⟩

/-- **A serial number with an odd number of digits is malformed**: the normal form of `01`. -/
theorem odd_serial_malformed : ¬∀ (revoked : List RevokedRow) (dirUnix caCertPEM caKeyPEM : String),
    (∀ c ∈ revoked, StoredSerial c.serialNumber) →
      IsExportedIndex revoked (caFiles dirUnix caCertPEM caKeyPEM revoked).indexTxt := by
  intro hall
  have hstored : ∀ c ∈ [(⟨"1", "alice", 1900000000000000000, 1700000000000000000⟩ : RevokedRow)],
      StoredSerial c.serialNumber := by
    intro c hc
    rw [List.mem_singleton.1 hc]
    exact Or.inl ⟨"01", by decide +kernel⟩
  have hencodes := (isExportedIndex_iff hstored).1 (hall _ "" "" "" hstored)
  exact absurd (hencodes _ (List.mem_singleton_self _)).serial (by decide)

end OpenvpnControl.Crl
