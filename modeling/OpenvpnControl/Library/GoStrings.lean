import Mathlib.Data.List.DropRight
import Mathlib.Data.List.Infix
import Mathlib.Data.String.Basic
import OpenvpnControl.Library.LetterCase

/-!
# The string functions of Go's standard library

Go's `strings`, `strconv` and `net` functions on the list of characters of a string. White space
is Unicode's, as in `unicode.IsSpace`, and so is the lower-case form of a letter
(`GoStrings.lowerRune`).

`EqualFold` is used with a text in ASCII on one side, and is exact there: besides the ASCII letters
only `U+212A` and `U+017F` fold to an ASCII letter, and the other runes are compared as they are.

## Main definitions

* `GoStrings.trimSpace`, `GoStrings.trimSet`, `GoStrings.fields`, `GoStrings.replaceChar`.
* `GoStrings.toLower`, `GoStrings.equalFold`.
* `GoStrings.hasPrefix`, `GoStrings.contains`.
* `GoStrings.splitHostPort`, `GoStrings.atoi`.

## Main results

* `GoStrings.trimSpace_trimSpace`: trimming twice is trimming once.
* `GoStrings.toLower_eq_iff_equalFold`: where `ToLower` and `EqualFold` recognise the same text.
-/

namespace GoStrings

/-! ### White space -/

/-- A condition on the characters of a text is decided on the text, not on all characters. -/
instance (priority := high) decidableForallMem (l : List Char) (p : Char → Prop) [DecidablePred p] :
    Decidable (∀ c ∈ l, p c) := List.decidableBAll p l

instance (priority := high) decidableExistsMem (l : List Char) (p : Char → Prop) [DecidablePred p] :
    Decidable (∃ c ∈ l, p c) := List.decidableBEx p l

/-- `unicode.IsSpace`. -/
def isSpace (c : Char) : Bool :=
  c = ' ' || (0x09 ≤ c.toNat && c.toNat ≤ 0x0d) || c.toNat = 0x85 || c.toNat = 0xa0 ||
    c.toNat = 0x1680 || (0x2000 ≤ c.toNat && c.toNat ≤ 0x200a) || c.toNat = 0x2028 ||
    c.toNat = 0x2029 || c.toNat = 0x202f || c.toNat = 0x205f || c.toNat = 0x3000

/-- Drop the characters in `p` from both ends. -/
def trimList (p : Char → Bool) (l : List Char) : List Char :=
  (l.dropWhile p).rdropWhile p

/-- The bytes of a string. -/
def bytes (s : String) : List UInt8 := s.toList.flatMap String.utf8EncodeChar

/-- `len` of a string. -/
def byteLength (s : String) : Nat := (bytes s).length

theorem bytes_inj {s t : String} : bytes s = bytes t ↔ s = t := by
  refine ⟨fun h => ?_, fun h => h ▸ rfl⟩
  have hencode : s.toList.utf8Encode = t.toList.utf8Encode := congrArg List.toByteArray h
  rwa [← String.toByteArray_ofList, ← String.toByteArray_ofList, String.toByteArray_inj,
    String.ofList_toList, String.ofList_toList] at hencode

/-- `strings.TrimSpace`. -/
def trimSpace (s : String) : String := String.ofList (trimList isSpace s.toList)

/-- `strings.Trim`, with the cutset as a list of characters. -/
def trimSet (cutset : List Char) (s : String) : String :=
  String.ofList (trimList (fun c => decide (c ∈ cutset)) s.toList)

/-- `replaceChar` on lists of characters. -/
def replaceList (old : Char) (new l : List Char) : List Char :=
  l.flatMap fun c => if c = old then new else [c]

/-- `strings.ReplaceAll` of a one-character text. -/
def replaceChar (old : Char) (new : List Char) (s : String) : String :=
  String.ofList (replaceList old new s.toList)

theorem mem_replaceList {old c : Char} {new l : List Char} :
    c ∈ replaceList old new l ↔ (old ∈ l ∧ c ∈ new) ∨ (c ∈ l ∧ c ≠ old) := by
  rw [replaceList, List.mem_flatMap]
  constructor
  · rintro ⟨d, hd, hc⟩
    split_ifs at hc with h
    · exact Or.inl ⟨h ▸ hd, hc⟩
    · obtain rfl := List.mem_singleton.1 hc
      exact Or.inr ⟨hd, h⟩
  · rintro (⟨hold, hc⟩ | ⟨hc, hne⟩)
    · exact ⟨old, hold, by rwa [if_pos rfl]⟩
    · exact ⟨c, hc, by rw [if_neg hne]; exact List.mem_singleton_self c⟩

/-- A character that does not occur is not replaced. -/
theorem replaceList_eq_self {old : Char} {new l : List Char} (h : old ∉ l) :
    replaceList old new l = l := by
  induction l with
  | nil => rfl
  | cons c l ih =>
    obtain ⟨hc, hl⟩ := not_or.1 fun h' => h (List.mem_cons.2 h')
    have ih' := ih hl
    rw [replaceList] at ih' ⊢
    rw [List.flatMap_cons, if_neg (Ne.symm hc), ih']
    rfl

/-- The maximal runs of characters outside `p`, where `word` is the run read so far. -/
def fieldsAux (p : Char → Bool) : List Char → List Char → List (List Char)
  | word, [] => if word = [] then [] else [word]
  | word, c :: l =>
    if p c then
      if word = [] then fieldsAux p [] l else word :: fieldsAux p [] l
    else fieldsAux p (word ++ [c]) l

/-- `strings.FieldsFunc`. -/
def fieldsFunc (p : Char → Bool) (s : String) : List String :=
  (fieldsAux p [] s.toList).map String.ofList

/-- `strings.Fields`. -/
def fields (s : String) : List String :=
  (fieldsAux isSpace [] s.toList).map String.ofList

theorem trimList_eq_nil_iff {p : Char → Bool} {l : List Char} :
    trimList p l = [] ↔ ∀ c ∈ l, p c = true := by
  rw [trimList, List.rdropWhile_eq_nil_iff]
  constructor
  · intro h c hc
    rw [← List.takeWhile_append_dropWhile (p := p) (l := l), List.mem_append] at hc
    exact hc.elim List.mem_takeWhile_imp (h c)
  · exact fun h c hc => h c ((List.dropWhile_sublist p).mem hc)

theorem trimList_sublist (p : Char → Bool) (l : List Char) : (trimList p l).Sublist l :=
  (List.rdropWhile_prefix p _).sublist.trans (List.dropWhile_sublist p)

/-- Trimming leaves a list whose ends are outside the trimmed set alone. -/
theorem trimList_eq_self {p : Char → Bool} {l : List Char}
    (hhead : ∀ h : l ≠ [], p (l.head h) = false) (hlast : ∀ h : l ≠ [], p (l.getLast h) = false) :
    trimList p l = l := by
  have hdrop : l.dropWhile p = l := by
    rw [List.dropWhile_eq_self_iff]
    intro hl
    have := hhead (List.ne_nil_of_length_pos hl)
    simpa [List.head_eq_getElem] using this
  rw [trimList, hdrop, List.rdropWhile_eq_self_iff]
  intro hl
  simp [hlast hl]

theorem trimList_head {p : Char → Bool} {l : List Char} (h : trimList p l ≠ []) :
    p ((trimList p l).head h) = false := by
  have hd : l.dropWhile p ≠ [] := by
    intro hnil
    exact h (by simp [trimList, hnil])
  have hpre : trimList p l <+: l.dropWhile p := List.rdropWhile_prefix p _
  obtain ⟨t, ht⟩ := hpre
  have hhead := List.head_dropWhile_not p hd
  have heq : (l.dropWhile p).head hd = (trimList p l).head h := by
    have : l.dropWhile p = trimList p l ++ t := ht.symm
    simp only [this, List.head_append_of_ne_nil h]
  rwa [heq] at hhead

theorem trimList_getLast {p : Char → Bool} {l : List Char} (h : trimList p l ≠ []) :
    p ((trimList p l).getLast h) = false := by
  exact Bool.eq_false_of_not_eq_true (List.rdropWhile_last_not p (l.dropWhile p) h)

/-- **Trimming is idempotent.** -/
@[simp] theorem trimList_trimList (p : Char → Bool) (l : List Char) :
    trimList p (trimList p l) = trimList p l :=
  trimList_eq_self (fun h => trimList_head h) (fun h => trimList_getLast h)

/-- **Trimming white space is idempotent.** -/
@[simp] theorem trimSpace_trimSpace (s : String) : trimSpace (trimSpace s) = trimSpace s := by
  simp [trimSpace]

/-- Trimming takes the characters of the set from both ends, up to the first and the last other
one. -/
theorem trimList_append {p : Char → Bool} {a m b : List Char} (ha : ∀ c ∈ a, p c = true)
    (hb : ∀ c ∈ b, p c = true) (hm : m ≠ []) (hhead : p (m.head hm) = false)
    (hlast : p (m.getLast hm) = false) : trimList p (a ++ m ++ b) = m := by
  obtain ⟨c, t, rfl⟩ := List.exists_cons_of_ne_nil hm
  have hdrop : (a ++ c :: t ++ b).dropWhile p = c :: t ++ b := by
    rw [List.append_assoc, List.dropWhile_append_of_pos ha, List.cons_append,
      List.dropWhile_cons_of_neg (by simpa using hhead)]
  have hreverse : (b.reverse ++ (c :: t).reverse).dropWhile p = (c :: t).reverse := by
    rw [List.dropWhile_append_of_pos fun d hd => hb d (List.mem_reverse.1 hd),
      List.dropWhile_eq_self_iff]
    intro hlen
    rw [← List.head_eq_getElem (List.ne_nil_of_length_pos hlen), List.head_reverse]
    simpa using hlast
  rw [trimList, hdrop, List.rdropWhile, List.reverse_append, hreverse, List.reverse_reverse]

/-- A list is what is trimmed from it, around what is left. -/
theorem exists_eq_append_trimList (p : Char → Bool) (l : List Char) :
    ∃ a b, l = a ++ trimList p l ++ b ∧ (∀ c ∈ a, p c = true) ∧ ∀ c ∈ b, p c = true := by
  refine ⟨l.takeWhile p, (l.dropWhile p).rtakeWhile p, ?_, fun c => List.mem_takeWhile_imp,
    fun c => List.mem_rtakeWhile_imp⟩
  rw [List.append_assoc, trimList, List.rdropWhile_append_rtakeWhile,
    List.takeWhile_append_dropWhile]

/-- A character outside the trimmed set stays. -/
theorem mem_trimList {p : Char → Bool} {l : List Char} {c : Char} (hc : c ∈ l) (hp : p c = false) :
    c ∈ trimList p l := by
  obtain ⟨a, b, hl, ha, hb⟩ := exists_eq_append_trimList p l
  rw [hl, List.mem_append, List.mem_append] at hc
  rcases hc with (hc | hc) | hc
  · exact absurd (ha c hc) (by simp [hp])
  · exact hc
  · exact absurd (hb c hc) (by simp [hp])

theorem ofList_eq_empty {l : List Char} : String.ofList l = "" ↔ l = [] := by
  constructor
  · intro h
    simpa using congrArg String.toList h
  · rintro rfl
    rfl

theorem trimSpace_eq_empty_iff {s : String} :
    trimSpace s = "" ↔ ∀ c ∈ s.toList, isSpace c = true := by
  rw [trimSpace, ofList_eq_empty, trimList_eq_nil_iff]

/-- A trimmed text does not end in white space. -/
theorem isSpace_getLast_of_trimSpace_eq {s : String} (h : trimSpace s = s) (hs : s.toList ≠ []) :
    isSpace (s.toList.getLast hs) = false := by
  have ht : trimList isSpace s.toList = s.toList := by
    conv_rhs => rw [← h, trimSpace, String.toList_ofList]
  have hne : trimList isSpace s.toList ≠ [] := by
    rw [ht]
    exact hs
  have hlast := trimList_getLast hne
  simpa only [ht] using hlast

@[simp] theorem trimSpace_empty : trimSpace "" = "" := rfl

@[simp] theorem trimSet_empty (cutset : List Char) : trimSet cutset "" = "" := rfl

@[simp] theorem replaceChar_empty (old : Char) (new : List Char) : replaceChar old new "" = "" :=
  rfl

/-- A text that is none of some texts: it is longer. -/
def freshText (texts : List String) : String :=
  String.ofList ((texts.map String.toList).flatten ++ ['x'])

theorem freshText_not_mem (texts : List String) : freshText texts ∉ texts := by
  intro h
  have hlen := (List.sublist_flatten_of_mem (List.mem_map_of_mem (f := String.toList) h)).length_le
  rw [freshText, String.toList_ofList, List.length_append] at hlen
  simp at hlen

/-! ### Letter case -/

/-- The simple folding of the runes that fold to an ASCII letter, as the lower-case letter. -/
def foldRune (c : Char) : Char :=
  if 'A' ≤ c ∧ c ≤ 'Z' then Char.ofNat (c.toNat + 32)
  else if c.toNat = 0x212a then 'k'
  else if c.toNat = 0x17f then 's'
  else c

/-- `strings.ToLower`. -/
def toLower (s : String) : String := String.ofList (s.toList.map lowerRune)

theorem toLower_eq_empty_iff {s : String} : toLower s = "" ↔ s = "" := by
  rw [toLower, ← String.toList_inj, String.toList_ofList, ← @String.toList_inj s]
  exact List.map_eq_nil_iff

/-- `strings.EqualFold`, where one of the texts is in ASCII. -/
def equalFold (s t : String) : Bool := s.toList.map foldRune = t.toList.map foldRune

/-- A lower-case ASCII letter that no rune outside ASCII lowers or folds to. -/
def PlainLetter (d : Char) : Prop :=
  'a' ≤ d ∧ d ≤ 'z' ∧ d ≠ 'i' ∧ d ≠ 'k' ∧ d ≠ 's'

instance (d : Char) : Decidable (PlainLetter d) := by
  unfold PlainLetter
  infer_instance

theorem lowerRune_eq_iff_foldRune_eq {c d : Char} (hd : PlainLetter d) :
    lowerRune c = d ↔ foldRune c = d := by
  obtain ⟨-, hdz, hi, hk, hs⟩ := hd
  have hz : d.toNat ≤ 0x7a := hdz
  by_cases hascii : c.toNat < 0x80
  · rw [lowerRune_of_ascii hascii, foldRune, if_neg (show ¬c.toNat = 0x212a by omega),
      if_neg (show ¬c.toNat = 0x17f by omega)]
  · have hup : ¬('A' ≤ c ∧ c ≤ 'Z') := by
      rintro ⟨-, h⟩
      have : c.toNat ≤ 0x5a := h
      omega
    -- neither of the two maps takes `c` to a plain letter
    refine iff_of_false ?_ ?_
    · rintro rfl
      rcases lowerRune_of_not_ascii (Nat.le_of_not_lt hascii) with ⟨-, h⟩ | ⟨-, h⟩ | h
      · exact hi h
      · exact hk h
      · omega
    · rw [foldRune, if_neg hup]
      split_ifs with hkelvin hlong
      · exact Ne.symm hk
      · exact Ne.symm hs
      · rintro rfl
        omega

theorem foldRune_plainLetter {d : Char} (hd : PlainLetter d) : foldRune d = d := by
  obtain ⟨hda, hdz, -⟩ := hd
  have ha : 0x61 ≤ d.toNat := hda
  have hz : d.toNat ≤ 0x7a := hdz
  have hup : ¬('A' ≤ d ∧ d ≤ 'Z') := by
    rintro ⟨-, h⟩
    have : d.toNat ≤ 0x5a := h
    omega
  rw [foldRune, if_neg hup, if_neg (by omega), if_neg (by omega)]

private theorem map_lowerRune_eq_iff (l : List Char) :
    ∀ t : List Char, (∀ d ∈ t, PlainLetter d) →
      (l.map lowerRune = t ↔ l.map foldRune = t.map foldRune) := by
  induction l with
  | nil => simp [eq_comm]
  | cons c l ih =>
    rintro (_ | ⟨d, t⟩) ht
    · simp
    · rw [List.forall_mem_cons] at ht
      simp only [List.map_cons, List.cons.injEq, foldRune_plainLetter ht.1, ih t ht.2,
        lowerRune_eq_iff_foldRune_eq ht.1]

/-- **`ToLower` and `EqualFold` recognise the same texts**, when the text looked for is written in
letters that no rune outside ASCII maps to. -/
theorem toLower_eq_iff_equalFold {s t : String} (ht : ∀ d ∈ t.toList, PlainLetter d) :
    toLower s = t ↔ equalFold s t = true := by
  rw [toLower, equalFold, decide_eq_true_iff, ← map_lowerRune_eq_iff _ _ ht, ← String.toList_inj,
    String.toList_ofList]

/-- No range of the table has white space. -/
theorem lowerRanges_not_space : ∀ r ∈ lowerRanges,
    ¬(r.lo ≤ 0x85 ∨ r.lo ≤ 0xa0 ∧ 0xa0 ≤ r.hi ∨ r.lo ≤ 0x1680 ∧ 0x1680 ≤ r.hi ∨
      r.lo ≤ 0x205f ∧ 0x2000 ≤ r.hi ∨ r.lo ≤ 0x3000 ∧ 0x3000 ≤ r.hi) := by
  decide +kernel

/-- White space has no lower-case form. -/
theorem lowerRune_of_isSpace {c : Char} (h : isSpace c = true) : lowerRune c = c := by
  simp only [isSpace, Bool.or_eq_true, Bool.and_eq_true, decide_eq_true_eq] at h
  have hspace : c.toNat < 0x41 ∨ c.toNat = 0x85 ∨ c.toNat = 0xa0 ∨ c.toNat = 0x1680 ∨
      0x2000 ≤ c.toNat ∧ c.toNat ≤ 0x205f ∨ c.toNat = 0x3000 := by
    rcases h with ((((((((((rfl | h) | h) | h) | h) | h) | h) | h) | h) | h) | h)
    · exact .inl (by decide)
    all_goals omega
  have hup : ¬('A' ≤ c ∧ c ≤ 'Z') := by
    rintro ⟨hA, hZ⟩
    have : 0x41 ≤ c.toNat := hA
    have : c.toNat ≤ 0x5a := hZ
    omega
  refine lowerRune_of_forall_not_has hup fun r hr hhas => lowerRanges_not_space r hr ?_
  obtain ⟨hlo, hhi, -⟩ := hhas
  omega

/-- A text without white space. -/
theorem trimSpace_eq_self {s : String} (h : ∀ c ∈ s.toList, isSpace c = false) :
    trimSpace s = s := by
  rw [trimSpace, trimList_eq_self (fun h' => h _ (List.head_mem h'))
    (fun h' => h _ (List.getLast_mem h')), String.ofList_toList]

/-- A text that lowers to a text without white space has none at its ends. -/
theorem trimSpace_of_toLower {s t : String} (h : toLower s = t)
    (ht : ∀ c ∈ t.toList, isSpace c = false) : trimSpace s = s := by
  have hs : ∀ c ∈ s.toList, isSpace c = false := by
    intro c hc
    by_contra hspace
    rw [Bool.not_eq_false] at hspace
    have hmem : c ∈ t.toList := by
      rw [← h, toLower, String.toList_ofList, List.mem_map]
      exact ⟨c, hc, lowerRune_of_isSpace hspace⟩
    rw [ht c hmem] at hspace
    cases hspace
  exact trimSpace_eq_self hs

/-! ### Searching -/

/-- `strings.HasPrefix`. -/
def hasPrefix (s pre : String) : Bool := pre.toList.isPrefixOf s.toList

/-- `strings.Contains`. -/
def contains (s sub : String) : Bool := decide (sub.toList <:+: s.toList)

/-- `strings.Split` by a one-character separator. -/
def split (s : String) (sep : Char) : List String :=
  (s.toList.splitOn sep).map String.ofList

/-- A text of two pieces with the separator between them is split into the parts of the pieces. -/
theorem split_append (s t : String) (sep : Char) :
    split (s ++ String.singleton sep ++ t) sep = split s sep ++ split t sep := by
  have hlist : (s ++ String.singleton sep ++ t).toList = s.toList ++ sep :: t.toList := by simp
  rw [split, hlist, List.splitOn_append_cons_self, List.map_append, split, split]

/-- **A joined text** is split into the parts of its pieces. -/
theorem split_intercalate {pieces : List String} (h : pieces ≠ []) (sep : Char) :
    split ((String.singleton sep).intercalate pieces) sep = pieces.flatMap (split · sep) := by
  induction pieces with
  | nil => exact absurd rfl h
  | cons s pieces ih =>
    by_cases hp : pieces = []
    · subst hp
      simp
    · rw [String.intercalate_cons_of_ne_nil hp, split_append, ih hp, List.flatMap_cons]

theorem split_of_not_mem {s : String} {sep : Char} (h : sep ∉ s.toList) : split s sep = [s] := by
  rw [split, List.splitOn_eq_singleton h, List.map_singleton, String.ofList_toList]

/-- A piece without the separator lies on one side of it. -/
theorem isInfix_append_cons_iff {l xs ys : List Char} {sep : Char} (h : sep ∉ l) :
    l <:+: xs ++ sep :: ys ↔ l <:+: xs ∨ l <:+: ys := by
  constructor
  · rintro ⟨a, b, hab⟩
    rcases List.append_eq_append_iff.1 hab with ⟨c, rfl, -⟩ | ⟨c, hc, hys⟩
    · exact .inl ⟨a, c, rfl⟩
    -- the separator is the first character after the left side
    cases c with
    | nil => exact .inl ⟨a, [], by simpa using hc⟩
    | cons d c =>
      obtain ⟨rfl, rfl⟩ := List.cons_eq_cons.1 hys
      rcases List.append_eq_append_iff.1 hc with ⟨e, -, rfl⟩ | ⟨e, -, he⟩
      · exact absurd (List.mem_append_right _ List.mem_cons_self) h
      · cases e with
        | nil =>
          rw [List.nil_append] at he
          exact absurd (he ▸ List.mem_cons_self) h
        | cons f e =>
          obtain ⟨-, rfl⟩ := List.cons_eq_cons.1 he
          exact .inr ⟨e, b, rfl⟩
  · rintro (⟨a, b, rfl⟩ | ⟨a, b, rfl⟩)
    · exact ⟨a, b ++ sep :: ys, by simp⟩
    · exact ⟨xs ++ sep :: a, b, by simp⟩

/-- **A joined text contains what one of its pieces contains.** -/
theorem contains_intercalate_iff {pieces : List String} {sub : String} {sep : Char}
    (hne : pieces ≠ []) (h : sep ∉ sub.toList) :
    contains ((String.singleton sep).intercalate pieces) sub = true ↔
      ∃ piece ∈ pieces, contains piece sub = true := by
  induction pieces with
  | nil => exact absurd rfl hne
  | cons s pieces ih =>
    by_cases hp : pieces = []
    · subst hp
      simp
    · have hlist : (s ++ String.singleton sep ++ (String.singleton sep).intercalate pieces).toList =
          s.toList ++ sep :: ((String.singleton sep).intercalate pieces).toList := by simp
      rw [String.intercalate_cons_of_ne_nil hp, contains, decide_eq_true_eq, hlist,
        isInfix_append_cons_iff h, List.exists_mem_cons_iff, ← ih hp, contains, contains,
        decide_eq_true_eq, decide_eq_true_eq]

/-- A character of joined lists is the separator or one of a piece. -/
theorem mem_intercalateList {pieces : List (List Char)} {sep c : Char}
    (h : c ∈ [sep].intercalate pieces) : c = sep ∨ ∃ piece ∈ pieces, c ∈ piece := by
  induction pieces with
  | nil => cases h
  | cons l pieces ih =>
    cases pieces with
    | nil =>
      rw [List.intercalate_singleton] at h
      exact Or.inr ⟨l, List.mem_cons_self, h⟩
    | cons l' pieces =>
      rw [List.intercalate_cons_cons, List.mem_append, List.mem_append, List.mem_singleton] at h
      rcases h with (h | h) | h
      · exact Or.inr ⟨l, List.mem_cons_self, h⟩
      · exact Or.inl h
      · exact (ih h).imp_right fun ⟨piece, hpiece, hc⟩ =>
          ⟨piece, List.mem_cons_of_mem _ hpiece, hc⟩

/-- A character of a joined text is the separator or one of a piece. -/
theorem mem_intercalate {pieces : List String} {sep c : Char}
    (h : c ∈ ((String.singleton sep).intercalate pieces).toList) :
    c = sep ∨ ∃ piece ∈ pieces, c ∈ piece.toList := by
  induction pieces with
  | nil => cases h
  | cons s pieces ih =>
    by_cases hp : pieces = []
    · subst hp
      exact .inr ⟨s, List.mem_cons_self, by simpa using h⟩
    · rw [String.intercalate_cons_of_ne_nil hp, String.toList_append, String.toList_append,
        String.toList_singleton, List.mem_append, List.mem_append, List.mem_singleton] at h
      rcases h with (h | h) | h
      · exact .inr ⟨s, List.mem_cons_self, h⟩
      · exact .inl h
      · exact (ih h).imp_right fun ⟨piece, hpiece, hc⟩ =>
          ⟨piece, List.mem_cons_of_mem _ hpiece, hc⟩

theorem toLower_append (s t : String) : toLower (s ++ t) = toLower s ++ toLower t := by
  rw [toLower, String.toList_append, List.map_append, String.ofList_append, toLower, toLower]

/-- A joined text is lowered piece by piece. -/
theorem toLower_intercalate {sep : Char} (h : lowerRune sep = sep) (pieces : List String) :
    toLower ((String.singleton sep).intercalate pieces) =
      (String.singleton sep).intercalate (pieces.map toLower) := by
  have hsep : toLower (String.singleton sep) = String.singleton sep := by
    rw [toLower, String.toList_singleton, List.map_singleton, h]
    rfl
  induction pieces with
  | nil => rfl
  | cons s pieces ih =>
    by_cases hp : pieces = []
    · subst hp
      simp
    · have hp' : pieces.map toLower ≠ [] := by simpa using hp
      rw [String.intercalate_cons_of_ne_nil hp, List.map_cons,
        String.intercalate_cons_of_ne_nil hp', toLower_append, toLower_append, hsep, ih]

private theorem mem_splitOn (sep : Char) (n : ℕ) :
    ∀ l : List Char, l.length ≤ n → ∀ part ∈ l.splitOn sep, sep ∉ part ∧ part <:+: l := by
  induction n with
  | zero =>
    intro l hl part hpart
    obtain rfl := List.eq_nil_of_length_eq_zero (Nat.le_zero.1 hl)
    simp_all
  | succ n ih =>
    intro l hl part hpart
    by_cases hsep : sep ∈ l
    · -- the two sides of a separator are shorter
      obtain ⟨xs, ys, rfl⟩ := List.append_of_mem hsep
      rw [List.length_append, List.length_cons] at hl
      rw [List.splitOn_append_cons_self, List.mem_append] at hpart
      rcases hpart with hpart | hpart
      · obtain ⟨hnot, a, b, hxs⟩ := ih xs (by omega) part hpart
        exact ⟨hnot, a, b ++ sep :: ys, by simp [← hxs]⟩
      · obtain ⟨hnot, a, b, hys⟩ := ih ys (by omega) part hpart
        exact ⟨hnot, xs ++ sep :: a, b, by simp [← hys]⟩
    · rw [List.splitOn_eq_singleton hsep, List.mem_singleton] at hpart
      rw [hpart]
      exact ⟨hsep, List.infix_refl l⟩

/-- **A part of a text** is a piece of it without the separator. -/
theorem mem_split {s part : String} {sep : Char} (h : part ∈ split s sep) :
    sep ∉ part.toList ∧ contains s part = true := by
  obtain ⟨l, hl, rfl⟩ := List.mem_map.1 h
  rw [contains, decide_eq_true_eq, String.toList_ofList]
  exact mem_splitOn sep _ s.toList le_rfl l hl

/-! ### Replacing -/

/-- `replaceAll` on lists of characters, after `skip` more characters of a match. -/
def replaceAllList (old new : List Char) : ℕ → List Char → List Char
  | _, [] => []
  | skip + 1, _ :: l => replaceAllList old new skip l
  | 0, c :: l =>
    if old.isPrefixOf (c :: l) then new ++ replaceAllList old new (old.length - 1) l
    else c :: replaceAllList old new 0 l

/-- `strings.ReplaceAll` of a text that is not empty. -/
def replaceAll (s old new : String) : String :=
  String.ofList (replaceAllList old.toList new.toList 0 s.toList)

theorem mem_replaceAllList_iff {old new : List Char} {c : Char} (hc : c ∉ old) (hne : old ≠ [])
    (l : List Char) (skip : ℕ) (hskip : c ∉ l.take skip) :
    c ∈ replaceAllList old new skip l ↔ c ∈ l ∨ (c ∈ new ∧ old <:+: l.drop skip) := by
  induction l generalizing skip with
  | nil => simp [replaceAllList, hne]
  | cons d l ih =>
    cases skip with
    | succ skip =>
      rw [List.take_succ_cons, List.mem_cons, not_or] at hskip
      rw [replaceAllList, ih skip hskip.2, List.drop_succ_cons, List.mem_cons, or_iff_right hskip.1]
    | zero =>
      rw [replaceAllList, List.drop_zero]
      split_ifs with hmatch
      · -- the characters of the match are not `c`
        have hprefix : old <+: d :: l := List.isPrefixOf_iff_prefix.1 hmatch
        obtain ⟨rest, hrest⟩ := hprefix
        obtain ⟨e, old', rfl⟩ := List.exists_cons_of_ne_nil hne
        obtain ⟨rfl, rfl⟩ := List.cons.inj hrest
        have htake : c ∉ (old' ++ rest).take ((e :: old').length - 1) := by
          rw [List.length_cons, Nat.add_sub_cancel, List.take_left]
          exact fun h => hc (List.mem_cons_of_mem _ h)
        have hin : e :: old' <:+: e :: (old' ++ rest) := ⟨[], rest, by simp⟩
        have hce : c ≠ e := fun h => hc (h ▸ List.mem_cons_self)
        rw [List.mem_append, ih _ htake, List.mem_cons, or_iff_right hce]
        tauto
      · have hprefix : ¬old <+: d :: l := fun h => hmatch (List.isPrefixOf_iff_prefix.2 h)
        rw [List.mem_cons, ih 0 (by simp), List.drop_zero, List.mem_cons, List.infix_cons_iff,
          or_iff_right hprefix, or_assoc]

/-- **The characters after a replacement**, but for those of the text that is replaced. -/
theorem mem_replaceAll_iff {s old new : String} {c : Char} (hc : c ∉ old.toList) (hne : old ≠ "") :
    c ∈ (replaceAll s old new).toList ↔
      c ∈ s.toList ∨ (c ∈ new.toList ∧ contains s old = true) := by
  have hlist : old.toList ≠ [] := by simpa using hne
  rw [replaceAll, String.toList_ofList, mem_replaceAllList_iff hc hlist _ _ (by simp), contains,
    decide_eq_true_eq, List.drop_zero]

/-! ### Addresses and numbers -/

/-- `net.SplitHostPort`; `none` is an error. In `[host]:port` the bracket must close just before
the last colon; without brackets the host holds no colon. No other bracket may occur. -/
def splitHostPort (s : String) : Option (String × String) :=
  let l := s.toList
  match l with
  | '[' :: rest =>
    let host := rest.takeWhile (· ≠ ']')
    match rest.dropWhile (· ≠ ']') with
    | ']' :: ':' :: port =>
      if ':' ∈ port ∨ '[' ∈ host ∨ '[' ∈ port ∨ ']' ∈ port then none
      else some (String.ofList host, String.ofList port)
    | _ => none
  | _ =>
    let host := l.takeWhile (· ≠ ':')
    match l.dropWhile (· ≠ ':') with
    | _ :: port =>
      if ':' ∈ port ∨ '[' ∈ l ∨ ']' ∈ l then none
      else some (String.ofList host, String.ofList port)
    | [] => none

/-- **The parts of an address** with and without brackets. -/
theorem toList_of_splitHostPort {s host port : String} (h : splitHostPort s = some (host, port)) :
    s.toList = host.toList ++ ':' :: port.toList ∨
      s.toList = '[' :: host.toList ++ ']' :: ':' :: port.toList := by
  have hhead (l : List Char) (c d : Char) (t : List Char)
      (hd : l.dropWhile (fun x => decide (x ≠ c)) = d :: t) :
      l = l.takeWhile (fun x => decide (x ≠ c)) ++ c :: t := by
    have hne : l.dropWhile (fun x => decide (x ≠ c)) ≠ [] := hd ▸ List.cons_ne_nil d t
    have hdc := List.head_dropWhile_not (fun x => decide (x ≠ c)) hne
    simp only [hd, List.head_cons, decide_eq_false_iff_not, ne_eq, not_not] at hdc
    conv_lhs => rw [← List.takeWhile_append_dropWhile (p := fun x => decide (x ≠ c)) (l := l)]
    rw [hd, hdc]
  simp only [splitHostPort] at h
  split at h
  · rename_i rest hs
    split at h
    · rename_i port' hrest
      split_ifs at h
      obtain ⟨rfl, rfl⟩ := Prod.mk.inj (Option.some.inj h)
      right
      rw [hs, String.toList_ofList, String.toList_ofList, List.cons_append,
        ← hhead rest ']' ']' (':' :: port') hrest]
    · cases h
  · split at h
    · rename_i c port' hrest
      split_ifs at h
      obtain ⟨rfl, rfl⟩ := Prod.mk.inj (Option.some.inj h)
      left
      rw [String.toList_ofList, String.toList_ofList, ← hhead s.toList ':' c port' hrest]
    · cases h

/-- Two texts that are equal are equal before and after their first separator. -/
theorem append_cons_inj {sep : Char} {a b c d : List Char} (ha : sep ∉ a) (hc : sep ∉ c)
    (h : a ++ sep :: b = c ++ sep :: d) : a = c ∧ b = d := by
  have hcut : ∀ {l r : List Char}, sep ∉ l → (l ++ sep :: r).takeWhile (· ≠ sep) = l := by
    intro l r hl
    rw [List.takeWhile_append_of_pos fun x hx => by simpa using ne_of_mem_of_not_mem hx hl,
      List.takeWhile_cons_of_neg (by simp), List.append_nil]
  obtain rfl : a = c := by rw [← hcut ha (r := b), h, hcut hc]
  exact ⟨rfl, (List.cons.inj (List.append_cancel_left h)).2⟩

/-- The value of a list of decimal digits, and `none` when a character is not a digit. -/
def decimal : Nat → List Char → Option Nat
  | acc, [] => some acc
  | acc, c :: l => if c.isDigit then decimal (10 * acc + (c.toNat - 48)) l else none

/-- Different numbers have different decimal texts. -/
theorem repr_inj {m n : ℕ} : Nat.repr m = Nat.repr n ↔ m = n := by
  constructor
  · intro h
    have hdigits : Nat.toDigits 10 m = Nat.toDigits 10 n := by
      rw [← Nat.toList_repr, ← Nat.toList_repr, h]
    rw [← @Nat.ofDigitChars_ten_toDigits m, hdigits, Nat.ofDigitChars_ten_toDigits]
  · rintro rfl
    rfl

/-- `strconv.Atoi`, on 64-bit `int`. -/
def atoi (s : String) : Option Int :=
  let bounded (sign : Int) (digits : List Char) : Option Int :=
    if digits = [] then none
    else (decimal 0 digits).bind fun n =>
      if -9223372036854775808 ≤ sign * n ∧ sign * n < 9223372036854775808 then some (sign * n)
      else none
  match s.toList with
  | '+' :: digits => bounded 1 digits
  | '-' :: digits => bounded (-1) digits
  | digits => bounded 1 digits

-- Unfolded, `trimSpace` makes every test for an empty text compute bytes: use the lemmas.
attribute [irreducible] trimSpace

end GoStrings
