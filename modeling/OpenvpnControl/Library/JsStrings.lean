import OpenvpnControl.Library.Float64

/-!
# Strings and numbers of JavaScript

Strings are trimmed and split into lines, and numbers are read from strings and written. A finite
number is the shortest decimal that reads back as the same `float64`; the two zeros are one number.

## Main definitions

* `JsStrings.trim`: `String.prototype.trim`.
* `JsStrings.nonblank`: the trimmed strings of a list that are not empty.
* `JsStrings.toNumber`: the number that a string is.
* `JsStrings.ofNumber`: the string that a number is.

## Main results

* `JsStrings.nonblank_split_iff`: when the lines of a string are one line.
* `JsStrings.trim_ofNumber`: a number has no white space.
-/

namespace JsStrings

open GoStrings (split trimList)

/-! ### White space -/

/-- White space and line terminators. -/
def isSpace (c : Char) : Bool :=
  c.toNat ∈ [0x09, 0x0A, 0x0B, 0x0C, 0x0D, 0x20, 0xA0, 0x1680, 0x2028,
    0x2029, 0x202F, 0x205F, 0x3000, 0xFEFF] || (decide (0x2000 ≤ c.toNat) &&
    decide (c.toNat ≤ 0x200A))

/-- `String.prototype.trim`. -/
def trim (s : String) : String := String.ofList (trimList isSpace s.toList)

/-- `.map((x) => x.trim()).filter(Boolean)`. -/
def nonblank (xs : List String) : List String := (xs.map trim).filter fun x => x ≠ ""

@[simp] theorem nonblank_nil : nonblank [] = [] := rfl

theorem nonblank_append (xs ys : List String) :
    nonblank (xs ++ ys) = nonblank xs ++ nonblank ys := by
  rw [nonblank, List.map_append, List.filter_append, nonblank, nonblank]

theorem nonblank_singleton (s : String) : nonblank [s] = if trim s = "" then [] else [trim s] := by
  rw [nonblank, List.map_singleton, List.filter_singleton]
  by_cases h : trim s = "" <;> simp [h]

theorem trim_eq_empty_iff {s : String} : trim s = "" ↔ ∀ c ∈ s.toList, isSpace c = true := by
  rw [trim, GoStrings.ofList_eq_empty, GoStrings.trimList_eq_nil_iff]

theorem trim_eq_self {s : String} (h : ∀ c ∈ s.toList, isSpace c = false) : trim s = s := by
  rw [trim, GoStrings.trimList_eq_self (fun hne => h _ (List.head_mem hne)) fun hne =>
    h _ (List.getLast_mem hne), String.ofList_toList]

@[simp] theorem trim_trim (s : String) : trim (trim s) = trim s := by
  rw [trim, trim, String.toList_ofList, GoStrings.trimList_trimList]

theorem mem_nonblank {xs : List String} {x : String} (h : x ∈ nonblank xs) :
    ∃ y ∈ xs, x = trim y ∧ x ≠ "" := by
  obtain ⟨hmem, hne⟩ := List.mem_filter.1 h
  obtain ⟨y, hy, rfl⟩ := List.mem_map.1 hmem
  exact ⟨y, hy, rfl, of_decide_eq_true hne⟩

@[simp] theorem nonblank_nonblank (xs : List String) : nonblank (nonblank xs) = nonblank xs := by
  have htrim : (nonblank xs).map trim = nonblank xs := by
    conv_rhs => rw [← List.map_id (nonblank xs)]
    refine List.map_congr_left fun x hx => ?_
    obtain ⟨y, -, rfl, -⟩ := mem_nonblank hx
    exact trim_trim y
  rw [nonblank, htrim, nonblank, List.filter_filter]
  simp

theorem nonblank_eq_nil_iff {xs : List String} : nonblank xs = [] ↔ ∀ x ∈ xs, trim x = "" := by
  rw [nonblank, List.filter_eq_nil_iff]
  simp

/-! ### Lines -/

/-- White space on either side of a list is trimmed. -/
private theorem trimList_append_of_spaces {p : Char → Bool} {a l b : List Char}
    (ha : ∀ c ∈ a, p c = true)
    (hb : ∀ c ∈ b, p c = true) : trimList p (a ++ l ++ b) = trimList p l := by
  obtain ⟨a', b', hl, ha', hb'⟩ := GoStrings.exists_eq_append_trimList p l
  by_cases hnil : trimList p l = []
  · rw [hnil, GoStrings.trimList_eq_nil_iff]
    rw [GoStrings.trimList_eq_nil_iff] at hnil
    simp only [List.mem_append]
    rintro c ((hc | hc) | hc)
    · exact ha c hc
    · exact hnil c hc
    · exact hb c hc
  · have hsplit : a ++ l ++ b = (a ++ a') ++ trimList p l ++ (b' ++ b) := by
      conv_lhs => rw [hl]
      simp only [List.append_assoc]
    rw [hsplit]
    refine GoStrings.trimList_append (fun c hc => ?_) (fun c hc => ?_) hnil
      (GoStrings.trimList_head hnil) (GoStrings.trimList_getLast hnil)
    · exact (List.mem_append.1 hc).elim (ha c) (ha' c)
    · exact (List.mem_append.1 hc).elim (hb' c) (hb c)

theorem trim_append_left {a s : String} (ha : ∀ c ∈ a.toList, isSpace c = true) :
    trim (a ++ s) = trim s := by
  have h := trimList_append_of_spaces (l := s.toList) (b := []) ha nofun
  rw [List.append_nil] at h
  rw [trim, String.toList_append, h, trim]

theorem trim_append_right {s b : String} (hb : ∀ c ∈ b.toList, isSpace c = true) :
    trim (s ++ b) = trim s := by
  have h := trimList_append_of_spaces (a := []) (l := s.toList) nofun hb
  rw [List.nil_append] at h
  rw [trim, String.toList_append, h, trim]

/-- The lines of white space are blank. -/
theorem nonblank_split_of_spaces {s : String} (h : ∀ c ∈ s.toList, isSpace c = true) :
    nonblank (split s '\n') = [] := by
  rw [List.eq_nil_iff_forall_not_mem]
  intro x hx
  obtain ⟨part, hpart, rfl, hne⟩ := mem_nonblank hx
  have hpiece := (GoStrings.mem_split hpart).2
  rw [GoStrings.contains, decide_eq_true_eq] at hpiece
  exact hne (trim_eq_empty_iff.2 fun c hc => h c (hpiece.subset hc))

/-- A line break that is trimmed has white space only on one side. -/
private theorem spaces_of_trimmed_break {xs ys : List Char}
    (h : '\n' ∉ trimList isSpace (xs ++ '\n' :: ys)) :
    (∀ c ∈ xs, isSpace c = true) ∨ ∀ c ∈ ys, isSpace c = true := by
  obtain ⟨a, b, hl, ha, hb⟩ := GoStrings.exists_eq_append_trimList isSpace (xs ++ '\n' :: ys)
  generalize trimList isSpace (xs ++ '\n' :: ys) = m at h hl
  rw [List.append_assoc] at hl
  rcases List.append_eq_append_iff.1 hl with ⟨a', rfl, -⟩ | ⟨c, rfl, hc⟩
  · exact Or.inl fun c hc => ha c (List.mem_append_left _ hc)
  · rcases List.append_eq_append_iff.1 hc with ⟨d, rfl, hd⟩ | ⟨d, rfl, hd⟩
    · refine Or.inr fun e he => hb e ?_
      rw [hd]
      exact List.mem_append_right _ (List.mem_cons_of_mem _ he)
    · cases d with
      | nil =>
        refine Or.inr fun e he => hb e ?_
        rw [← List.nil_append b, ← hd]
        exact List.mem_cons_of_mem _ he
      | cons e d =>
        cases hd
        exact absurd (List.mem_append_right _ List.mem_cons_self) h

private theorem nonblank_split_of_trimmed (n : ℕ) :
    ∀ s : String, s.toList.length ≤ n → '\n' ∉ (trim s).toList →
      nonblank (split s '\n') = nonblank [s] := by
  induction n with
  | zero =>
    intro s hs _
    have hnil : s.toList = [] := List.eq_nil_of_length_eq_zero (Nat.le_zero.1 hs)
    rw [GoStrings.split_of_not_mem (by rw [hnil]; exact List.not_mem_nil)]
  | succ n ih =>
    intro s hs htrim
    by_cases hbreak : '\n' ∈ s.toList
    · -- one of the two sides of a line break is blank
      obtain ⟨xs, ys, hsplit⟩ := List.append_of_mem hbreak
      obtain rfl : s = String.ofList xs ++ String.singleton '\n' ++ String.ofList ys := by
        rw [← String.toList_inj]
        simpa using hsplit
      rw [hsplit, List.length_append, List.length_cons] at hs
      have hside := htrim
      rw [trim, hsplit, String.toList_ofList] at hside
      rw [GoStrings.split_append, nonblank_append]
      rcases spaces_of_trimmed_break hside with hxs | hys
      · have htail :=
          @trim_append_left (String.ofList xs ++ String.singleton '\n') (String.ofList ys) (by
          simpa [or_imp, forall_and] using ⟨hxs, by decide⟩)
        rw [htail] at htrim
        rw [nonblank_split_of_spaces (by simpa using hxs), List.nil_append,
          ih _ (by simp; omega) htrim, nonblank_singleton, nonblank_singleton, htail]
      · have hhead :=
          @trim_append_right (String.ofList xs) (String.singleton '\n' ++ String.ofList ys) (by
          simpa [or_imp, forall_and] using ⟨by decide, hys⟩)
        rw [← String.append_assoc] at hhead
        rw [hhead] at htrim
        rw [nonblank_split_of_spaces (s := String.ofList ys) (by simpa using hys), List.append_nil,
          ih _ (by simp; omega) htrim, nonblank_singleton, nonblank_singleton, hhead]
    · rw [GoStrings.split_of_not_mem hbreak]

/-- **The lines of a string are one line** when no line break is left in the trimmed string. -/
theorem nonblank_split_iff {s : String} :
    nonblank (split s '\n') = nonblank [s] ↔ '\n' ∉ (trim s).toList := by
  refine ⟨fun h => ?_, nonblank_split_of_trimmed _ s le_rfl⟩
  by_cases hblank : trim s = ""
  · rw [hblank]
    exact List.not_mem_nil
  · -- the trimmed string is one of the trimmed lines
    have hmem : trim s ∈ nonblank (split s '\n') := by
      rw [h, nonblank_singleton, if_neg hblank]
      exact List.mem_singleton_self _
    obtain ⟨part, hpart, heq, -⟩ := mem_nonblank hmem
    rw [heq, trim, String.toList_ofList]
    exact fun hbreak => (GoStrings.mem_split hpart).1 ((GoStrings.trimList_sublist _ _).mem hbreak)

/-! ### Numbers -/

/-- The value of a digit. -/
def digitValue (c : Char) : Option ℕ :=
  if '0' ≤ c ∧ c ≤ '9' then some (c.toNat - '0'.toNat)
  else if 'a' ≤ c ∧ c ≤ 'f' then some (c.toNat - 'a'.toNat + 10)
  else if 'A' ≤ c ∧ c ≤ 'F' then some (c.toNat - 'A'.toNat + 10)
  else none

/-- The value of the digits of a base, of which there is at least one. -/
def digits (base : ℕ) : List Char → Option ℕ
  | [] => none
  | cs => cs.foldlM (fun acc c => (digitValue c).bind fun d =>
      if d < base then some (base * acc + d) else none) 0

/-- A sign, and what follows it. -/
def signed : List Char → Bool × List Char
  | '-' :: cs => (true, cs)
  | '+' :: cs => (false, cs)
  | cs => (false, cs)

/-- The exponent of a decimal literal, from its `e` on. -/
def exponentPart : List Char → Option ℤ
  | [] => some 0
  | _ :: cs => (digits 10 (signed cs).2).map fun n => if (signed cs).1 then -n else n

/-- A decimal literal; `Infinity` is no finite number. -/
def decimalLiteral (cs : List Char) : Option JsonNumber :=
  let mantissa := (signed cs).2.takeWhile fun c => c ≠ 'e' ∧ c ≠ 'E'
  let exponent := (signed cs).2.dropWhile fun c => c ≠ 'e' ∧ c ≠ 'E'
  let frac := (mantissa.dropWhile (· ≠ '.')).tail
  (digits 10 (mantissa.takeWhile (· ≠ '.') ++ frac)).bind fun mant =>
    (exponentPart exponent).map fun exp => .ofDecimal (signed cs).1 mant (exp - frac.length)

/-- The number of a literal, where no characters are zero. -/
def literal : List Char → Option JsonNumber
  | [] => some .zero
  | '0' :: 'x' :: cs | '0' :: 'X' :: cs => (digits 16 cs).map fun n => .ofInt n
  | '0' :: 'o' :: cs | '0' :: 'O' :: cs => (digits 8 cs).map fun n => .ofInt n
  | '0' :: 'b' :: cs | '0' :: 'B' :: cs => (digits 2 cs).map fun n => .ofInt n
  | cs => decimalLiteral cs

/-- The number that a string is, where `none` is `NaN` or an infinity. -/
def toNumber (s : String) : Option JsonNumber :=
  (literal (trim s).toList).bind fun n => (Float64.parse n).map Float64.format

/-- A blank string is zero. -/
theorem toNumber_of_blank {s : String} (h : trim s = "") : toNumber s = some .zero := by
  rw [toNumber, h]
  decide +kernel

example : toNumber " 0x10\n" = some (.ofInt 16) ∧ toNumber "-1.50e3" = some (.ofInt (-1500)) ∧
    toNumber "" = some .zero ∧ toNumber "1194/udp" = none ∧ toNumber "." = none := by
  decide +kernel

/-- The string that a number is. -/
def ofNumber (n : JsonNumber) : String := n.marshal

theorem not_isSpace_ofNumber (n : JsonNumber) : ∀ c ∈ (ofNumber n).toList, isSpace c = false := by
  intro c hc
  rcases Json.numeral_marshal n c hc with hdigit | hsymbol
  · rw [Char.isDigit, Bool.and_eq_true, decide_eq_true_eq, decide_eq_true_eq] at hdigit
    have hlow : 48 ≤ c.toNat := hdigit.1
    have hhigh : c.toNat ≤ 57 := hdigit.2
    rw [isSpace, Bool.or_eq_false_iff, Bool.and_eq_false_iff, decide_eq_false_iff_not,
      decide_eq_false_iff_not, decide_eq_false_iff_not]
    simp only [List.mem_cons, List.not_mem_nil, or_false]
    omega
  · have hall : ∀ d ∈ ['-', '+', '.', 'e'], isSpace d = false := by decide
    exact hall c hsymbol

/-- **A number has no white space.** -/
@[simp] theorem trim_ofNumber (n : JsonNumber) : trim (ofNumber n) = ofNumber n :=
  trim_eq_self (not_isSpace_ofNumber n)

theorem ofNumber_ne_empty (n : JsonNumber) : ofNumber n ≠ "" := Json.marshal_ne_empty n

theorem nonblank_ofNumber (n : JsonNumber) : nonblank [ofNumber n] = [ofNumber n] := by
  rw [nonblank_singleton, trim_ofNumber, if_neg (ofNumber_ne_empty n)]

theorem nonblank_split_ofNumber (n : JsonNumber) :
    nonblank (split (ofNumber n) '\n') = [ofNumber n] := by
  rw [nonblank_split_iff.2, nonblank_ofNumber]
  rw [trim_ofNumber]
  exact fun h => absurd (not_isSpace_ofNumber n _ h) (by decide)

end JsStrings
