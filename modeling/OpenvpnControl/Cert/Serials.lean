import OpenvpnControl.Cert.Indextxt
import Mathlib.Data.Nat.Digits.Lemmas

/-!
# The normal form of serial numbers

`NormalizeSerialHex` decodes the digits of a serial number into bytes and writes the number of these
bytes; `serialHexBigInt` writes the bytes of a number. This file follows both through the bytes, and
shows that they compute the functions of `Cert.Pem`, which work on the digits. The normal form
depends only on the number that the digits denote.

## Main definitions

* `Bytes.normalizeSerialHex`, `Bytes.serialHexBigInt`: the two functions through bytes.
* `SerialText`: a serial number as it is written, with the number it denotes.

## Main results

* `Bytes.normalizeSerialHex_eq`, `Bytes.serialHexBigInt_eq`: the bytes make no difference.
* `SerialText.normalize`: the normal form of a written serial number.
* `serial_normal_form_iff`: the normal form is faithful, and a revocation list has it but for zero.
-/

namespace OpenvpnControl.Cert

/-! ### Through bytes -/

/-- `hex.DecodeString`. -/
def decodeString : List Char → Option (List ℕ)
  | [] => some []
  | [_] => none
  | c :: d :: l => do
    let high ← hexValue c
    let low ← hexValue d
    let bytes ← decodeString l
    return (16 * high + low) :: bytes

/-- `big.Int.SetBytes`: the number of big-endian bytes. -/
def setBytes (bytes : List ℕ) : ℕ := bytes.foldl (fun n b => 256 * n + b) 0

/-- `big.Int.Bytes`: the bytes of the absolute value, big-endian and without leading zeros. -/
def bigBytes (n : ℤ) : List ℕ := (Nat.digits 256 n.natAbs).reverse

/-- A byte as `%X` writes it. -/
def hexByte (b : ℕ) : List Char :=
  [(Nat.digitChar (b / 16)).toUpper, (Nat.digitChar (b % 16)).toUpper]

namespace Bytes

def normalizeSerialHex (serial : String) : String :=
  let s := GoStrings.trimSpace serial
  let s := trimPrefix (trimPrefix s "0x") "0X"
  let d := s.toList.filter fun c => (hexValue c).isSome
  if d = [] then ""
  else
    let d := if d.length % 2 = 1 then '0' :: d else d
    match decodeString d with
    | none => String.ofList (d.map Char.toUpper)
    | some b => upperHex (setBytes b)

def serialHexBigInt (n : ℤ) : String := String.ofList ((bigBytes n).flatMap hexByte)

end Bytes

/-- An even number of digits is decoded, into the number of the digits. -/
theorem decodeString_digits (d : List Char) (hd : ∀ c ∈ d, (hexValue c).isSome)
    (heven : d.length % 2 = 0) : ∃ bytes, decodeString d = some bytes ∧
      ∀ n, bytes.foldl (fun n b => 256 * n + b) n =
        (d.filterMap hexValue).foldl (fun n d => 16 * n + d) n := by
  induction d using decodeString.induct with
  | case1 => exact ⟨[], rfl, fun _ => rfl⟩
  | case2 c =>
    simp at heven
  | case3 c d l ih =>
    obtain ⟨high, hc⟩ := Option.isSome_iff_exists.1 (hd c List.mem_cons_self)
    obtain ⟨low, hd'⟩ := Option.isSome_iff_exists.1 (hd d (by simp))
    obtain ⟨bytes, hbytes, hfold⟩ := ih (fun e he => hd e (by simp [he])) (by
      simp only [List.length_cons] at heven
      omega)
    refine ⟨(16 * high + low) :: bytes, by simp [decodeString, hc, hd', hbytes], fun n => ?_⟩
    rw [List.foldl_cons, hfold, List.filterMap_cons_some hc, List.filterMap_cons_some hd',
      List.foldl_cons, List.foldl_cons]
    congr 1
    ring

/-- **The bytes make no difference** to the normal form. -/
theorem Bytes.normalizeSerialHex_eq (serial : String) :
    Bytes.normalizeSerialHex serial = Cert.normalizeSerialHex serial := by
  rw [Bytes.normalizeSerialHex, Cert.normalizeSerialHex]
  generalize (trimPrefix (trimPrefix (GoStrings.trimSpace serial) "0x") "0X").toList = l
  have hvalues : (l.filter fun c => (hexValue c).isSome).filterMap hexValue =
      l.filterMap hexValue := by
    rw [List.filterMap_filter]
    congr 1
    funext c
    cases hc : hexValue c <;> simp
  have hdigits : ∀ c ∈ l.filter fun c => (hexValue c).isSome, (hexValue c).isSome :=
    fun c hc => (List.mem_filter.1 hc).2
  have hnil : l.filter (fun c => (hexValue c).isSome) = [] ↔ l.filterMap hexValue = [] := by
    rw [List.filter_eq_nil_iff, List.filterMap_eq_nil_iff]
    exact forall₂_congr fun c _ => by simp
  rw [← hvalues] at hnil ⊢
  generalize l.filter (fun c => (hexValue c).isSome) = d at hdigits hnil ⊢
  simp only [← hnil]
  refine if_congr Iff.rfl rfl ?_
  by_cases hodd : d.length % 2 = 1
  · -- the digit in front is zero
    have hzero : (hexValue '0').isSome := by decide
    obtain ⟨bytes, hbytes, hfold⟩ := decodeString_digits ('0' :: d)
      (List.forall_mem_cons.2 ⟨hzero, hdigits⟩) (by rw [List.length_cons]; omega)
    rw [if_pos hodd, hbytes]
    dsimp only
    rw [setBytes, hfold]
    rfl
  · obtain ⟨bytes, hbytes, hfold⟩ := decodeString_digits d hdigits (by omega)
    rw [if_neg hodd, hbytes]
    dsimp only
    rw [setBytes, hfold]

/-- The digits of a number, with a zero in front of an odd number of them. -/
def evenDigits (n : ℕ) : List Char :=
  if (Nat.toDigits 16 n).length % 2 = 1 then '0' :: Nat.toDigits 16 n else Nat.toDigits 16 n

/-- The last two digits are those of the last byte. -/
theorem evenDigits_of_le {n : ℕ} (h : 256 ≤ n) :
    evenDigits n = evenDigits (n / 256) ++
      [Nat.digitChar (n % 256 / 16), Nat.digitChar (n % 256 % 16)] := by
  have hdigits : Nat.toDigits 16 n = Nat.toDigits 16 (n / 256) ++
      [Nat.digitChar (n % 256 / 16), Nat.digitChar (n % 256 % 16)] := by
    rw [Nat.toDigits_eq_if (by decide), if_neg (by omega), Nat.toDigits_eq_if (by decide),
      if_neg (by omega), List.append_assoc]
    have h₁ : n / 16 / 16 = n / 256 := by omega
    have h₂ : n / 16 % 16 = n % 256 / 16 := by omega
    have h₃ : n % 16 = n % 256 % 16 := by omega
    rw [h₁, h₂, h₃]
    rfl
  have hlen : (Nat.toDigits 16 n).length = (Nat.toDigits 16 (n / 256)).length + 2 := by
    rw [hdigits, List.length_append]
    rfl
  rw [evenDigits, evenDigits, hlen, Nat.add_mod_right, hdigits]
  split_ifs with hodd
  · rfl
  · rfl

/-- The bytes of a number are its digits, two by two. -/
theorem flatMap_hexByte_digits {n : ℕ} (h : n ≠ 0) :
    (Nat.digits 256 n).reverse.flatMap hexByte = (evenDigits n).map Char.toUpper := by
  induction n using Nat.strong_induction_on with
  | _ n ih =>
    rw [Nat.digits_def' (by decide) (Nat.pos_of_ne_zero h), List.reverse_cons, List.flatMap_append,
      List.flatMap_singleton]
    by_cases hlt : n < 256
    · have hzero : n / 256 = 0 := Nat.div_eq_of_lt hlt
      rw [hzero, Nat.digits_zero, Nat.mod_eq_of_lt hlt, evenDigits, Nat.toDigits_eq_if (by decide)]
      by_cases hdigit : n < 16
      · rw [if_pos hdigit, hexByte, Nat.div_eq_of_lt hdigit, Nat.mod_eq_of_lt hdigit]
        rfl
      · have hone : Nat.toDigits 16 (n / 16) = [Nat.digitChar (n / 16)] := by
          rw [Nat.toDigits_eq_if (by decide), if_pos (by omega)]
        rw [if_neg hdigit, hone, if_neg (by simp)]
        rfl
    · rw [ih (n / 256) (by omega) (by omega), evenDigits_of_le (not_lt.1 hlt), List.map_append]
      rfl

/-- **The bytes make no difference** to a serial number of a revocation list. -/
theorem Bytes.serialHexBigInt_eq (n : ℤ) : Bytes.serialHexBigInt n = Cert.serialHexBigInt n := by
  rw [Bytes.serialHexBigInt, Cert.serialHexBigInt, bigBytes]
  by_cases hn : n = 0
  · subst hn
    rfl
  · rw [flatMap_hexByte_digits (Int.natAbs_ne_zero.2 hn), evenDigits]
    simp only [if_neg hn, List.length_map]
    split_ifs with hodd
    · rfl
    · rfl

/-! ### The number that is denoted -/

/-- A serial number as it is written: digits and colons, with an optional prefix and white space
around them. -/
structure SerialText where
  before : List Char
  start : String
  body : List Char
  after : List Char
  space : ∀ c ∈ before ++ after, GoStrings.isSpace c = true
  start_mem : start ∈ ["", "0x", "0X"]
  chars : ∀ c ∈ body, c = ':' ∨ (hexValue c).isSome
  digit : ∃ c ∈ body, (hexValue c).isSome

namespace SerialText

/-- The text of a serial number. -/
def text (t : SerialText) : String :=
  String.ofList (t.before ++ (t.start.toList ++ t.body) ++ t.after)

/-- The number that its digits denote. -/
def value (t : SerialText) : ℕ := Nat.ofDigits 16 (t.body.filterMap hexValue).reverse

end SerialText

theorem ofDigits_reverse (b : ℕ) (digits : List ℕ) :
    Nat.ofDigits b digits.reverse = digits.foldl (fun n d => b * n + d) 0 := by
  rw [Nat.ofDigits_eq_foldr, List.foldr_reverse]
  congr 1
  funext n d
  exact Nat.add_comm _ _

theorem upperHex_inj {m n : ℕ} : upperHex m = upperHex n ↔ m = n := by
  constructor
  · intro h
    have hlist : (Nat.toDigits 16 m).map Char.toUpper = (Nat.toDigits 16 n).map Char.toUpper := by
      rw [← String.toList_ofList (l := (Nat.toDigits 16 m).map _), ← upperHex, h, upperHex,
        String.toList_ofList]
    rw [← filterMap_hexValue_toDigits m, hlist, filterMap_hexValue_toDigits n]
  · rintro rfl
    rfl

theorem trimPrefix_append (pre : String) (l : List Char) :
    trimPrefix (String.ofList (pre.toList ++ l)) pre = String.ofList l := by
  have hpre : pre.toList.isPrefixOf (pre.toList ++ l) = true :=
    List.isPrefixOf_iff_prefix.2 (List.prefix_append _ _)
  rw [trimPrefix, GoStrings.hasPrefix, String.toList_ofList, if_pos hpre, List.drop_left]

/-- The two prefixes are taken off. -/
theorem trimPrefix_start {start : String} {body : List Char} (hstart : start ∈ ["", "0x", "0X"])
    (hx : 'x' ∉ body) (hX : 'X' ∉ body) :
    trimPrefix (trimPrefix (String.ofList (start.toList ++ body)) "0x") "0X" =
    String.ofList body := by
  have hlower : trimPrefix (String.ofList body) "0x" = String.ofList body :=
    trimPrefix_of_notMem (c := 'x') (by decide) (by simpa using hx)
  have hupper : trimPrefix (String.ofList body) "0X" = String.ofList body :=
    trimPrefix_of_notMem (c := 'X') (by decide) (by simpa using hX)
  simp only [List.mem_cons, List.not_mem_nil, or_false] at hstart
  rcases hstart with rfl | rfl | rfl
  · have hnone : String.ofList ("".toList ++ body) = String.ofList body := rfl
    rw [hnone, hlower, hupper]
  · rw [trimPrefix_append, hupper]
  · have hother : trimPrefix (String.ofList ("0X".toList ++ body)) "0x" =
        String.ofList ("0X".toList ++ body) := by
      refine trimPrefix_of_notMem (c := 'x') (by decide) ?_
      rw [String.toList_ofList, List.mem_append]
      exact fun h => h.elim (by decide) hx
    rw [hother, trimPrefix_append]

/-- **The normal form of a written serial number** is its number. -/
theorem SerialText.normalize (t : SerialText) : normalizeSerialHex t.text = upperHex t.value := by
  have hplain : ∀ c ∈ t.body, GoStrings.isSpace c = false ∧ c ≠ 'x' ∧ c ≠ 'X' := by
    intro c hc
    rcases t.chars c hc with rfl | hhex
    · decide
    · exact not_special_of_hexValue hhex
  obtain ⟨c, hc, hhex⟩ := t.digit
  have hne : t.body ≠ [] := List.ne_nil_of_mem hc
  have hinner : ∀ c ∈ t.start.toList ++ t.body, GoStrings.isSpace c = false := by
    have hall : ∀ start ∈ ["", "0x", "0X"], ∀ c ∈ start.toList, GoStrings.isSpace c = false := by
      decide
    intro c hc
    rcases List.mem_append.1 hc with hc | hc
    · exact hall _ t.start_mem c hc
    · exact (hplain c hc).1
  have hinner_ne : t.start.toList ++ t.body ≠ [] := List.append_ne_nil_of_right_ne_nil _ hne
  have htrim : GoStrings.trimSpace t.text = String.ofList (t.start.toList ++ t.body) := by
    rw [GoStrings.trimSpace, SerialText.text, String.toList_ofList, GoStrings.trimList_append
      (fun c hc => t.space c (List.mem_append_left _ hc))
      (fun c hc => t.space c (List.mem_append_right _ hc)) hinner_ne
      (hinner _ (List.head_mem hinner_ne)) (hinner _ (List.getLast_mem hinner_ne))]
  have hdigits : t.body.filterMap hexValue ≠ [] := by
    obtain ⟨v, hv⟩ := Option.isSome_iff_exists.1 hhex
    exact List.ne_nil_of_mem (List.mem_filterMap.2 ⟨c, hc, hv⟩)
  simp only [normalizeSerialHex]
  rw [htrim, trimPrefix_start t.start_mem (fun h => (hplain _ h).2.1 rfl)
    (fun h => (hplain _ h).2.2 rfl), String.toList_ofList, if_neg hdigits, SerialText.value,
    ofDigits_reverse]

/-- The normal form of a text is in normal form. -/
theorem normalizeSerialHex_normalizeSerialHex (s : String) :
    normalizeSerialHex (normalizeSerialHex s) = normalizeSerialHex s := by
  by_cases h : normalizeSerialHex s = ""
  · rw [h]
    decide +kernel
  · obtain ⟨n, hn⟩ := normalizeSerialHex_eq_upperHex h
    rw [hn, normalizeSerialHex_upperHex]

/-! ### Certificates and revocation lists -/

theorem exists_digitChar_of_mem_toDigits {n : ℕ} {c : Char} (h : c ∈ Nat.toDigits 16 n) :
    ∃ d < 16, c = Nat.digitChar d := by
  induction n using Nat.strong_induction_on with
  | _ n ih =>
    rw [Nat.toDigits_eq_if (by decide)] at h
    split_ifs at h with hlt
    · exact ⟨n, hlt, List.mem_singleton.1 h⟩
    · rcases List.mem_append.1 h with h | h
      · exact ih (n / 16) (by omega) h
      · exact ⟨n % 16, Nat.mod_lt n (by decide), List.mem_singleton.1 h⟩

/-- The letter case of the digits makes no difference. -/
theorem filterMap_toUpper_toDigits (n : ℕ) :
    ((Nat.toDigits 16 n).map Char.toUpper).filterMap hexValue =
      (Nat.toDigits 16 n).filterMap hexValue := by
  rw [List.filterMap_map]
  refine List.filterMap_congr fun c hc => ?_
  obtain ⟨d, hd, rfl⟩ := exists_digitChar_of_mem_toDigits hc
  have hall : ∀ d : Fin 16, hexValue (Nat.digitChar d).toUpper = hexValue (Nat.digitChar d) := by
    decide
  exact hall ⟨d, hd⟩

/-- **The normal form of a certificate's serial number** is its number. -/
theorem normalizeSerialHex_bigText (n : ℕ) : normalizeSerialHex (bigText n) = upperHex n := by
  have hlist : (bigText n).toList = Nat.toDigits 16 n := by
    rw [bigText, if_neg (not_lt.2 (Int.natCast_nonneg n)),
      String.empty_append, String.toList_ofList, Int.natAbs_natCast]
  have hne : (Nat.toDigits 16 n).filterMap hexValue ≠ [] := by
    obtain ⟨c, hc⟩ := List.exists_mem_of_ne_nil _ (Nat.toDigits_ne_nil (n := n) (b := 16))
    obtain ⟨v, hv⟩ := Option.isSome_iff_exists.1 (hexValue_of_mem_toDigits hc)
    exact List.ne_nil_of_mem (List.mem_filterMap.2 ⟨c, hc, hv⟩)
  simp only [normalizeSerialHex]
  rw [bigText_plain, hlist, if_neg hne, ← filterMap_toUpper_toDigits, filterMap_hexValue_toDigits]

/-- The number zero has no bytes, and so no digits. -/
theorem normalizeSerialHex_serialHexBigInt_zero : normalizeSerialHex (serialHexBigInt 0) = "" := by
  decide +kernel

/-- **The normal form of a revoked serial number** other than zero is its number. -/
theorem normalizeSerialHex_serialHexBigInt {n : ℕ} (h : n ≠ 0) :
    normalizeSerialHex (serialHexBigInt n) = upperHex n := by
  have hdigits : (serialHexBigInt n).toList = (if (Nat.toDigits 16 n).length % 2 = 1 then
      '0' :: (Nat.toDigits 16 n).map Char.toUpper else (Nat.toDigits 16 n).map Char.toUpper) := by
    simp only [serialHexBigInt, String.toList_ofList, Int.natCast_eq_zero, if_neg h,
      Int.natAbs_natCast, List.length_map]
  have hvalue : ((serialHexBigInt n).toList.filterMap hexValue).foldl
      (fun n d => 16 * n + d) 0 = n := by
    have hzero : hexValue '0' = some 0 := by decide
    have hrest := filterMap_hexValue_toDigits n
    rw [hdigits]
    split_ifs
    · rwa [List.filterMap_cons_some hzero, List.foldl_cons]
    · exact hrest
  have hne : (serialHexBigInt n).toList.filterMap hexValue ≠ [] := by
    intro hnil
    rw [hnil] at hvalue
    exact h hvalue.symm
  have hplain : trimPrefix (trimPrefix (GoStrings.trimSpace (serialHexBigInt n)) "0x") "0X" =
      serialHexBigInt n := by
    refine trimPrefix_plain fun c hc => ?_
    have hhex : ∀ c ∈ (Nat.toDigits 16 n).map Char.toUpper, (hexValue c).isSome := fun c hc =>
      isSome_hexValue_of_mem_upperHex (n := n) (by rwa [upperHex, String.toList_ofList])
    rw [hdigits] at hc
    split_ifs at hc
    · rcases List.mem_cons.1 hc with rfl | hc
      · decide
      · exact not_special_of_hexValue (hhex c hc)
    · exact not_special_of_hexValue (hhex c hc)
  simp only [normalizeSerialHex]
  rw [hplain, if_neg hne, hvalue]

/-- **When the normal form is faithful**: it is one, it tells numbers apart, and a revocation list
and a certificate agree on a number exactly when it is not zero. -/
theorem serial_normal_form_iff (s t : SerialText) (n : ℕ) :
    (Bytes.normalizeSerialHex (Bytes.normalizeSerialHex s.text) = Bytes.normalizeSerialHex s.text ∧
      (Bytes.normalizeSerialHex s.text = Bytes.normalizeSerialHex t.text ↔ s.value = t.value) ∧
      Bytes.normalizeSerialHex (Bytes.serialHexBigInt n) = Bytes.normalizeSerialHex (bigText n)) ↔
    n ≠ 0 := by
  simp only [Bytes.normalizeSerialHex_eq, Bytes.serialHexBigInt_eq]
  constructor
  · rintro ⟨-, -, hagree⟩ rfl
    exact absurd hagree (by decide +kernel)
  · intro hn
    refine ⟨normalizeSerialHex_normalizeSerialHex _, ?_, ?_⟩
    · rw [s.normalize, t.normalize, upperHex_inj]
    · rw [normalizeSerialHex_serialHexBigInt hn, normalizeSerialHex_bigText]

/-- A serial number with colons and leading zeros, in lower case. -/
def colonSerial : SerialText where
  before := [' ']
  start := "0x"
  body := "00:ab:0c".toList
  after := ['\n']
  space := by decide
  start_mem := by decide
  chars := by decide
  digit := by decide

/-- Serial number zero is lost on the way from a revocation list. -/
theorem serial_zero_lost : ¬∀ (s t : SerialText) (n : ℕ),
    Bytes.normalizeSerialHex (Bytes.normalizeSerialHex s.text) = Bytes.normalizeSerialHex s.text ∧
      (Bytes.normalizeSerialHex s.text = Bytes.normalizeSerialHex t.text ↔ s.value = t.value) ∧
      Bytes.normalizeSerialHex (Bytes.serialHexBigInt n) =
      Bytes.normalizeSerialHex (bigText n) := by
  intro h
  have hagree := (h colonSerial colonSerial 0).2.2
  simp only [Bytes.normalizeSerialHex_eq, Bytes.serialHexBigInt_eq] at hagree
  exact absurd hagree (by decide +kernel)

end OpenvpnControl.Cert
