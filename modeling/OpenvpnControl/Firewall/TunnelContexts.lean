import OpenvpnControl.Agentsnapshot.Tunnel
import OpenvpnControl.Panel.FirewallPreview

/-!
# The tunnel of a node, as panel and agent read it

The packages `panel` and `agentsnapshot` each read the tunnel of a node from its settings. They
agree on the interface, but not on every `server` directive. This file determines the directives on
which they do.

## Main definitions

* `Netmask`: a text of four numbers that are a netmask, where the numbers are read in a given way.
* `MaskAgrees`: the second words that both read as one mask.
* `ServerAgrees`: the directives on which panel and agent agree.

## Main results

* `netmask_agrees_iff`: the dotted masks.
* `subnet_agrees_iff`: the words of a directive.
* `tunnelContext_agrees_iff`: panel and agent read one tunnel exactly from these directives.
-/

namespace OpenvpnControl.Firewall

open Panel (regexpSpace serverLineRe)

/-- The numbers between the dots are four octets, which are ones and then zeros. -/
def Netmask (read : String → Option ℤ) (s : String) : Prop :=
  ∃ a b c d : ℕ, (GoStrings.split s '.').map read = [some (a : ℤ), some (b : ℤ),
    some (c : ℤ), some (d : ℤ)] ∧
    (∀ n ∈ [a, b, c, d], n ≤ 255) ∧ (maskPrefix (packOctets a b c d)).isSome = true

/-- Panel and agent read one mask. A prefix length is written as it is printed; four signed numbers
that are a netmask have no signs; and of four runs of digits that are a netmask none is empty or out
of the range of a signed 64-bit number. -/
structure MaskAgrees (second : String) : Prop where
  length : ∀ pl : ℕ, pl ≤ 32 → GoStrings.atoi second = some (pl : ℤ) → second = Nat.repr pl
  signs : Netmask GoStrings.atoi second →
    ∀ part ∈ GoStrings.split second '.', ∀ c ∈ part.toList, c.isDigit = true
  digits : Netmask (fun part => Agentsnapshot.octetValue 0 part.toList) second →
    ∀ part ∈ GoStrings.split second '.', part ≠ "" ∧
      ∃ n < 2 ^ 63, GoStrings.decimal 0 part.toList = some n

/-- Panel and agent read one directive: it has one word at most, or two words between characters of
the class `\s`, of which the second is one mask. -/
def ServerAgrees (server : String) : Prop :=
  (GoStrings.fields server).length ≤ 1 ∨
    ∃ ip second, GoStrings.fields server = [ip, second] ∧
      (∀ c ∈ server.toList, GoStrings.isSpace c = true → regexpSpace c = true) ∧ MaskAgrees second

/-! ### Words -/

section Words

variable {p : Char → Bool} {l w s : List Char}

/-- A word at the end. -/
theorem fieldsAux_word (word : List Char) (hw : ∀ c ∈ w, p c = false) :
    GoStrings.fieldsAux p word w = if word ++ w = [] then [] else [word ++ w] := by
  induction w generalizing word with
  | nil => rw [GoStrings.fieldsAux, List.append_nil]
  | cons c w ih =>
    obtain ⟨hc, hw⟩ := List.forall_mem_cons.1 hw
    rw [GoStrings.fieldsAux, hc, if_neg Bool.false_ne_true, ih _ hw, List.append_assoc,
      List.singleton_append]

/-- Spaces at the beginning. -/
theorem fieldsAux_spaces (hs : ∀ c ∈ s, p c = true) (l : List Char) :
    GoStrings.fieldsAux p [] (s ++ l) = GoStrings.fieldsAux p [] l := by
  induction s with
  | nil => rfl
  | cons c s ih =>
    obtain ⟨hc, hs⟩ := List.forall_mem_cons.1 hs
    rw [List.cons_append, GoStrings.fieldsAux, if_pos hc, if_pos rfl, ih hs]

/-- A word before spaces. -/
theorem fieldsAux_append (word : List Char) (hne : word ++ w ≠ []) (hw : ∀ c ∈ w, p c = false)
    (hs : ∀ c ∈ s, p c = true) (hsne : s ≠ []) (l : List Char) :
    GoStrings.fieldsAux p word (w ++ (s ++ l)) = (word ++ w) :: GoStrings.fieldsAux p [] l := by
  induction w generalizing word with
  | nil =>
    cases s with
    | nil => exact absurd rfl hsne
    | cons c s =>
      obtain ⟨hc, hs⟩ := List.forall_mem_cons.1 hs
      rw [List.append_nil] at hne ⊢
      rw [List.nil_append, List.cons_append, GoStrings.fieldsAux, if_pos hc, if_neg hne,
        fieldsAux_spaces hs]
  | cons c w ih =>
    obtain ⟨hc, hw⟩ := List.forall_mem_cons.1 hw
    rw [List.cons_append, GoStrings.fieldsAux, hc, if_neg Bool.false_ne_true,
      ih _ (List.append_ne_nil_of_left_ne_nil
      (List.append_ne_nil_of_right_ne_nil _ (List.cons_ne_nil _ _)) _)
        hw, List.append_assoc, List.singleton_append]

/-- The longest beginning of characters of a class. -/
theorem exists_eq_append (q : Char → Bool) (l : List Char) :
    ∃ w t, l = w ++ t ∧ (∀ c ∈ w, q c = true) ∧ ∀ c, t.head? = some c → q c = false := by
  refine ⟨l.takeWhile q, l.dropWhile q, List.takeWhile_append_dropWhile.symm,
    fun c => List.mem_takeWhile_imp, fun c hc => ?_⟩
  have hnot := List.head?_dropWhile_not q l
  rw [hc] at hnot
  exact hnot

/-- A text that neither begins nor ends with a space is one word, or a word, spaces and such a
text. -/
theorem word_cases (hhead : ∀ c, l.head? = some c → p c = false)
    (hlast : ∀ c, l.getLast? = some c → p c = false) :
    (∀ c ∈ l, p c = false) ∨ ∃ w s rest, l = w ++ (s ++ rest) ∧ w ≠ [] ∧ (∀ c ∈ w, p c = false) ∧
      s ≠ [] ∧ (∀ c ∈ s, p c = true) ∧ rest ≠ [] ∧ (∀ c, rest.head? = some c → p c = false) ∧
      ∀ c, rest.getLast? = some c → p c = false := by
  obtain ⟨w, t, rfl, hw, ht⟩ := exists_eq_append (!p ·) l
  have hword : ∀ c ∈ w, p c = false := fun c hc => by simpa using hw c hc
  cases t with
  | nil => exact Or.inl (by simpa using hword)
  | cons c t =>
    have hc : p c = true := by simpa using ht c rfl
    obtain ⟨s, rest, hrest, hs, hr⟩ := exists_eq_append p (c :: t)
    rw [hrest] at hlast hhead ⊢
    have hsne : s ≠ [] := by
      rintro rfl
      rw [List.nil_append] at hrest
      exact absurd (hr c (by rw [← hrest]; rfl)) (by simp [hc])
    have hrne : rest ≠ [] := by
      rintro rfl
      rw [List.append_nil, List.getLast?_append_of_ne_nil _ hsne] at hlast
      exact absurd (hlast _ (List.getLast?_eq_some_getLast hsne))
        (by simp [hs _ (List.getLast_mem hsne)])
    refine Or.inr ⟨w, s, rest, rfl, ?_, hword, hsne, hs, hrne, hr, fun d hd => hlast d ?_⟩
    · rintro rfl
      rw [List.nil_append, ← hrest] at hhead
      exact absurd (hhead c rfl) (by simp [hc])
    · rw [List.getLast?_append_of_ne_nil _ (List.append_ne_nil_of_right_ne_nil _ hrne),
        List.getLast?_append_of_ne_nil _ hrne, hd]

end Words

/-! ### The words of a directive -/

theorem isSpace_of_regexpSpace {c : Char} (h : regexpSpace c = true) :
    GoStrings.isSpace c = true := by
  simp only [regexpSpace, Bool.or_eq_true, decide_eq_true_eq] at h
  obtain (((rfl | rfl) | rfl) | hc) | rfl := h
  · rfl
  · rfl
  · rfl
  · simp [GoStrings.isSpace, hc]
  · rfl

/-- Two words without characters of a class, with characters of the class between them. -/
def WordPair (p : Char → Bool) (s a b : String) : Prop :=
  ∃ spaces : List Char, s.toList = a.toList ++ (spaces ++ b.toList) ∧
    a.toList ≠ [] ∧ b.toList ≠ [] ∧
    spaces ≠ [] ∧ (∀ c ∈ a.toList, p c = false) ∧ (∀ c ∈ b.toList, p c = false) ∧
    ∀ c ∈ spaces, p c = true

/-- The two groups of the regular expression. -/
theorem serverLineRe_eq_some_iff {s a b : String} :
    serverLineRe s = some (a, b) ↔ WordPair regexpSpace s a b := by
  constructor
  · intro h
    simp only [serverLineRe] at h
    split_ifs at h with hcond
    obtain ⟨hfirst, hrest, hsecond, hall⟩ := hcond
    obtain ⟨rfl, rfl⟩ := Prod.mk.inj (Option.some.inj h)
    refine ⟨(s.toList.dropWhile (!regexpSpace ·)).takeWhile regexpSpace, ?_, ?_, ?_, fun hnil => ?_,
      fun c hc => ?_, fun c hc => ?_, fun c hc => List.mem_takeWhile_imp hc⟩
    · rw [String.toList_ofList, String.toList_ofList, List.takeWhile_append_dropWhile,
        List.takeWhile_append_dropWhile]
    · rwa [String.toList_ofList]
    · rwa [String.toList_ofList]
    · have hhead := List.head_dropWhile_not (!regexpSpace ·) hrest
      obtain ⟨c, t, ht⟩ := List.exists_cons_of_ne_nil hrest
      simp only [ht, List.head_cons, Bool.not_eq_false'] at hhead
      rw [ht, List.takeWhile_cons_of_pos hhead] at hnil
      cases hnil
    · rw [String.toList_ofList] at hc
      simpa using List.mem_takeWhile_imp hc
    · rw [String.toList_ofList] at hc
      simpa using List.all_eq_true.1 hall c hc
  · rintro ⟨spaces, hs, ha, hb, hspaces, haw, hbw, hsp⟩
    obtain ⟨c, t, rfl⟩ := List.exists_cons_of_ne_nil hspaces
    obtain ⟨d, u, hdu⟩ := List.exists_cons_of_ne_nil hb
    have hc : regexpSpace c = true := hsp c List.mem_cons_self
    have hd : regexpSpace d = false := hbw d (by rw [hdu]; exact List.mem_cons_self)
    have hfirst : s.toList.takeWhile (!regexpSpace ·) = a.toList := by
      rw [hs, List.takeWhile_append_of_pos (by simpa using haw), List.cons_append,
        List.takeWhile_cons_of_neg (by simp [hc]), List.append_nil]
    have hrest : s.toList.dropWhile (!regexpSpace ·) = c :: t ++ b.toList := by
      rw [hs, List.dropWhile_append_of_pos (by simpa using haw), List.cons_append,
        List.dropWhile_cons_of_neg (by simp [hc])]
    have hsecond : (c :: t ++ b.toList).dropWhile regexpSpace = b.toList := by
      rw [List.dropWhile_append_of_pos hsp, hdu, List.dropWhile_cons_of_neg (by simp [hd])]
    simp only [serverLineRe, hfirst, hrest, hsecond]
    rw [if_pos ⟨ha, List.cons_ne_nil _ _, hb, by simpa using hbw⟩, String.ofList_toList,
      String.ofList_toList]

/-- The words of a text with two of them. -/
theorem fields_of_wordPair {s a b : String} (h : WordPair GoStrings.isSpace s a b) :
    GoStrings.fields s = [a, b] := by
  obtain ⟨spaces, hs, ha, hb, hspaces, haw, hbw, hsp⟩ := h
  rw [GoStrings.fields, hs, fieldsAux_append [] (by simpa using ha) haw hsp hspaces,
    fieldsAux_word _ hbw, List.nil_append, List.nil_append, if_neg hb, List.map_cons,
    List.map_cons, List.map_nil, String.ofList_toList, String.ofList_toList]

/-- A word has no spaces. -/
theorem not_isSpace_of_mem_fieldsAux {p : Char → Bool} {l word w : List Char}
    (hword : ∀ c ∈ word, p c = false) (hw : w ∈ GoStrings.fieldsAux p word l) :
    ∀ c ∈ w, p c = false := by
  induction l generalizing word with
  | nil =>
    rw [GoStrings.fieldsAux] at hw
    split_ifs at hw
    · cases hw
    · obtain rfl := List.mem_singleton.1 hw
      exact hword
  | cons c l ih =>
    rw [GoStrings.fieldsAux] at hw
    split_ifs at hw with hc
    · exact ih (by simp) hw
    · obtain rfl | hw := List.mem_cons.1 hw
      · exact hword
      · exact ih (by simp) hw
    · refine ih (fun d hd => ?_) hw
      obtain hd | hd := List.mem_append.1 hd
      · exact hword d hd
      · rw [List.mem_singleton.1 hd]
        exact Bool.eq_false_of_not_eq_true hc

theorem not_isSpace_of_mem_fields {s w : String} (hw : w ∈ GoStrings.fields s) :
    ∀ c ∈ w.toList, GoStrings.isSpace c = false := by
  obtain ⟨l, hl, rfl⟩ := List.mem_map.1 hw
  rw [String.toList_ofList]
  exact not_isSpace_of_mem_fieldsAux (by simp) hl

/-- A trimmed text neither begins nor ends with a space. -/
theorem ends_of_trimmed {l : List Char} {p : Char → Bool} (htrim : GoStrings.trimList p l = l) :
    (∀ c, l.head? = some c → p c = false) ∧ ∀ c, l.getLast? = some c → p c = false := by
  by_cases hl : l = []
  · subst hl
    exact ⟨nofun, nofun⟩
  have hne : GoStrings.trimList p l ≠ [] := by rwa [htrim]
  constructor
  · intro c hc
    have hhead := GoStrings.trimList_head hne
    simp only [htrim] at hhead
    rw [List.head?_eq_some_head hl] at hc
    rwa [← Option.some.inj hc]
  · intro c hc
    have hlast := GoStrings.trimList_getLast hne
    simp only [htrim] at hlast
    rw [List.getLast?_eq_some_getLast hl] at hc
    rwa [← Option.some.inj hc]

/-- A trimmed text is one word at most, or begins with two words. -/
theorem fields_cases {s : String} (htrim : GoStrings.trimSpace s = s) :
    ((∀ c ∈ s.toList, GoStrings.isSpace c = false) ∧ (GoStrings.fields s).length ≤ 1) ∨
      ∃ ip second more, GoStrings.fields s = ip :: second :: more ∧
        (more = [] → WordPair GoStrings.isSpace s ip second) := by
  have hl : GoStrings.trimList GoStrings.isSpace s.toList = s.toList := by
    conv_rhs => rw [← htrim, GoStrings.trimSpace, String.toList_ofList]
  obtain ⟨hhead, hlast⟩ := ends_of_trimmed hl
  obtain hword | ⟨ip, spaces, rest, hs, hip, hipw, hspaces, hsp, hrest, hrhead, hrlast⟩ :=
    word_cases hhead hlast
  · refine Or.inl ⟨hword, ?_⟩
    rw [GoStrings.fields, fieldsAux_word [] hword]
    split_ifs <;> simp
  right
  have hfields : GoStrings.fieldsAux GoStrings.isSpace [] s.toList =
      ip :: GoStrings.fieldsAux GoStrings.isSpace [] rest := by
    rw [hs, fieldsAux_append [] (by simpa using hip) hipw hsp hspaces, List.nil_append]
  obtain hword | ⟨second, spaces', rest', hs', hsecond, hsecondw, hspaces', hsp',
      hrest', hrhead', hrlast'⟩ :=
    word_cases hrhead hrlast
  · refine ⟨String.ofList ip, String.ofList rest, [], ?_, fun _ => ⟨spaces, ?_⟩⟩
    · rw [GoStrings.fields, hfields, fieldsAux_word [] hword, List.nil_append, if_neg hrest]
      rfl
    · rw [String.toList_ofList, String.toList_ofList]
      exact ⟨hs, hip, hrest, hspaces, hipw, hword, hsp⟩
  · refine ⟨String.ofList ip, String.ofList second,
      (GoStrings.fieldsAux GoStrings.isSpace [] rest').map String.ofList, ?_, fun hnil => ?_⟩
    · rw [GoStrings.fields, hfields, hs',
        fieldsAux_append [] (by simpa using hsecond) hsecondw hsp' hspaces']
      rfl
    · -- the rest begins with a word, so there is a third one
      rw [List.map_eq_nil_iff] at hnil
      obtain hword | ⟨w, s'', r, hr, hw, hww, hs'', hsp'', -⟩ := word_cases hrhead' hrlast'
      · rw [fieldsAux_word [] hword, List.nil_append, if_neg hrest'] at hnil
        cases hnil
      · rw [hr, fieldsAux_append [] (by simpa using hw) hww hsp'' hs''] at hnil
        cases hnil

/-! ### The subnet -/

/-- The words of a directive as panel and agent print them. -/
theorem serverLineRe_eq_of_subnet {s a b ip second : String} {more : List String}
    (hfields : GoStrings.fields s = ip :: second :: more) (hre : serverLineRe s = some (a, b))
    (h : a ++ " " ++ b = ip ++ " " ++ second) : a = ip ∧ b = second := by
  obtain ⟨spaces, -, -, -, -, haw, -⟩ := serverLineRe_eq_some_iff.1 hre
  have hip :=
    not_isSpace_of_mem_fields (s := s) (w := ip) (by rw [hfields]; exact List.mem_cons_self)
  have hchars : a.toList ++ ' ' :: b.toList = ip.toList ++ ' ' :: second.toList := by
    simpa [String.toList_append] using congrArg String.toList h
  obtain ⟨ha, hb⟩ := GoStrings.append_cons_inj (fun hmem => absurd (haw _ hmem) (by decide))
    (fun hmem => absurd (hip _ hmem) (by decide)) hchars
  exact ⟨String.toList_inj.1 ha, String.toList_inj.1 hb⟩

/-- Where the characters between the two words are of the class `\s`, the regular expression finds
the words. -/
theorem serverLineRe_of_wordPair {s ip second : String} (h : WordPair GoStrings.isSpace s ip second)
    (hspaces : ∀ c ∈ s.toList, GoStrings.isSpace c = true → regexpSpace c = true) :
    serverLineRe s = some (ip, second) := by
  have hword : ∀ c, GoStrings.isSpace c = false → regexpSpace c = false := fun c hc =>
    Bool.eq_false_of_not_eq_true fun hre => by simp [isSpace_of_regexpSpace hre] at hc
  obtain ⟨spaces, hs, hip, hsecond, hne, hipw, hsecondw, hsp⟩ := h
  refine serverLineRe_eq_some_iff.2 ⟨spaces, hs, hip, hsecond, hne, fun c hc => hword c (hipw c hc),
    fun c hc => hword c (hsecondw c hc), fun c hc => hspaces c ?_ (hsp c hc)⟩
  rw [hs]
  exact List.mem_append_right _ (List.mem_append_left _ hc)

/-- One word is no directive. -/
theorem serverLineRe_eq_none {s : String} (hword : ∀ c ∈ s.toList, GoStrings.isSpace c = false) :
    serverLineRe s = none := by
  refine Option.eq_none_iff_forall_ne_some.2 fun ⟨a, b⟩ hre => ?_
  obtain ⟨spaces, hs, -, -, hne, -, -, hsp⟩ := serverLineRe_eq_some_iff.1 hre
  obtain ⟨c, t, rfl⟩ := List.exists_cons_of_ne_nil hne
  have hc := hword c (by rw [hs]; simp)
  rw [isSpace_of_regexpSpace (hsp c List.mem_cons_self)] at hc
  cases hc

/-- **The words of a directive.** Panel and agent read one subnet when there is no second word, or
when there are two words between characters of the class `\s`. -/
theorem subnet_agrees_iff {s : String} (htrim : GoStrings.trimSpace s = s) :
    ((match serverLineRe s with | some (a, b) => a ++ " " ++ b | none => "") =
      match GoStrings.fields s with | a :: b :: _ => a ++ " " ++ b | _ => "") ↔
      (GoStrings.fields s).length ≤ 1 ∨ ∃ ip second, GoStrings.fields s = [ip, second] ∧
        ∀ c ∈ s.toList, GoStrings.isSpace c = true → regexpSpace c = true := by
  obtain ⟨hword, hlen⟩ | ⟨ip, second, more, hfields, hpair⟩ := fields_cases htrim
  · refine iff_of_true ?_ (Or.inl hlen)
    rw [serverLineRe_eq_none hword]
    generalize GoStrings.fields s = words at hlen ⊢
    rcases words with _ | ⟨a, _ | ⟨b, l⟩⟩
    · rfl
    · rfl
    · simp at hlen
  rw [hfields]
  constructor
  · intro h
    cases hre : serverLineRe s with
    | none =>
      rw [hre] at h
      exact absurd (congrArg String.toList h) (by simp [String.toList_append])
    | some pair =>
      rw [hre] at h
      obtain ⟨rfl, rfl⟩ := serverLineRe_eq_of_subnet hfields hre h
      obtain ⟨spaces, hs, ha, hb, hne, haw, hbw, hsp⟩ := serverLineRe_eq_some_iff.1 hre
      have haword := not_isSpace_of_mem_fields (s := s) (w := pair.1) (by simp [hfields])
      have hbword := not_isSpace_of_mem_fields (s := s) (w := pair.2) (by simp [hfields])
      have hfields' := fields_of_wordPair
        ⟨spaces, hs, ha, hb, hne, haword, hbword, fun c hc => isSpace_of_regexpSpace (hsp c hc)⟩
      refine Or.inr ⟨pair.1, pair.2, hfields ▸ hfields', fun c hc hspace => ?_⟩
      rw [hs, List.mem_append, List.mem_append] at hc
      obtain hc | hc | hc := hc
      · simp [haword c hc] at hspace
      · exact hsp c hc
      · simp [hbword c hc] at hspace
  · rintro (hlen | ⟨ip', second', heq, hspaces⟩)
    · simp at hlen
    · obtain ⟨rfl, rfl, rfl⟩ : ip = ip' ∧ second = second' ∧ more = [] := by simpa using heq
      rw [serverLineRe_of_wordPair (hpair rfl) hspaces]

/-! ### The mask -/

theorem isDigit_iff {c : Char} : c.isDigit = true ↔ '0' ≤ c ∧ c ≤ '9' := by
  simp [Char.isDigit, Char.le_def]

/-- The value of digits is no less than that of the digits before. -/
theorem le_of_decimal {l : List Char} {acc n : ℕ}
    (h : GoStrings.decimal acc l = some n) : acc ≤ n := by
  induction l generalizing acc with
  | nil => exact (Option.some.inj h).le
  | cons c l ih =>
    rw [GoStrings.decimal] at h
    split_ifs at h
    have := ih h
    omega

/-- The wrapping sum of digits is their value, when this is a signed 64-bit number. -/
theorem octetValue_eq_decimal {l : List Char} {acc n : ℕ} (h : GoStrings.decimal acc l = some n)
    (hn : n < 2 ^ 63) : Agentsnapshot.octetValue acc l = some (n : ℤ) := by
  induction l generalizing acc with
  | nil => rw [Agentsnapshot.octetValue, Option.some.inj h]
  | cons c l ih =>
    rw [GoStrings.decimal] at h
    split_ifs at h with hc
    have hle := le_of_decimal h
    have hdigit := isDigit_iff.1 hc
    have h48 : 48 ≤ c.toNat := by
      have := Char.le_def.1 hdigit.1
      exact UInt32.le_iff_toNat_le.1 this
    have hsum : (acc : ℤ) * 10 + ((c.toNat : ℤ) - 48) = (10 * acc + (c.toNat - 48) : ℕ) := by
      omega
    rw [Agentsnapshot.octetValue, if_pos hdigit, hsum,
      Int.bmod_eq_of_le (by omega) (by omega), ih h]

/-- A run of digits that is summed up has digits only. -/
theorem isDigit_of_octetValue {l : List Char} {acc n : ℤ}
    (h : Agentsnapshot.octetValue acc l = some n) :
    ∀ c ∈ l, c.isDigit = true := by
  induction l generalizing acc with
  | nil => exact fun c hc => absurd hc List.not_mem_nil
  | cons c l ih =>
    rw [Agentsnapshot.octetValue] at h
    split_ifs at h with hc
    exact List.forall_mem_cons.2 ⟨isDigit_iff.2 hc, ih h⟩

/-- Digits without a sign are read as their value, when this is a signed 64-bit number. -/
theorem atoi_eq_decimal {s : String} (hdigits : ∀ c ∈ s.toList, c.isDigit = true) (hne : s ≠ "") :
    GoStrings.atoi s = (GoStrings.decimal 0 s.toList).bind fun n =>
      if n < 2 ^ 63 then some (n : ℤ) else none := by
  have hbounded : ∀ n : ℕ,
      (if -9223372036854775808 ≤ 1 * (n : ℤ) ∧ 1 * (n : ℤ) < 9223372036854775808
      then some (1 * (n : ℤ)) else none) = if n < 2 ^ 63 then some (n : ℤ) else none := fun n => by
    rw [one_mul]
    exact if_congr ⟨fun h => by omega, fun h => by omega⟩ rfl rfl
  cases hl : s.toList with
  | nil => exact absurd (String.toList_inj.1 hl) hne
  | cons c l =>
    rw [hl] at hdigits
    have hc := hdigits c List.mem_cons_self
    have hplus : c ≠ '+' := by
      rintro rfl
      exact absurd hc (by decide)
    have hminus : c ≠ '-' := by
      rintro rfl
      exact absurd hc (by decide)
    simp only [GoStrings.atoi, hl, hbounded]
    split
    · next heq => exact absurd (List.cons.inj heq).1 hplus
    · next heq => exact absurd (List.cons.inj heq).1 hminus
    · rw [if_neg (List.cons_ne_nil c l)]

/-- A signed number without a sign is a run of digits in range. -/
theorem octet_of_atoi {part : String} {n : ℤ} (h : GoStrings.atoi part = some n)
    (hdigits : ∀ c ∈ part.toList, c.isDigit = true) :
    Agentsnapshot.octetValue 0 part.toList = some n ∧ part ≠ "" ∧
      ∃ m < 2 ^ 63, GoStrings.decimal 0 part.toList = some m := by
  have hne : part ≠ "" := by
    rintro rfl
    cases h
  rw [atoi_eq_decimal hdigits hne] at h
  obtain ⟨m, hm, hbound⟩ := Option.bind_eq_some_iff.1 h
  split_ifs at hbound with hlt
  obtain rfl := Option.some.inj hbound
  exact ⟨octetValue_eq_decimal hm hlt, hne, m, hlt, hm⟩

/-- A run of digits in range is a signed number. -/
theorem atoi_of_octet {part : String} {n : ℤ} (h : Agentsnapshot.octetValue 0 part.toList = some n)
    (hplain : part ≠ "" ∧ ∃ m < 2 ^ 63, GoStrings.decimal 0 part.toList = some m) :
    GoStrings.atoi part = some n := by
  obtain ⟨hne, m, hlt, hm⟩ := hplain
  rw [atoi_eq_decimal (isDigit_of_octetValue h) hne, hm, Option.bind_some, if_pos hlt, ← h]
  exact (octetValue_eq_decimal hm hlt).symm

theorem isDigit_of_decimal {l : List Char} {acc n : ℕ} (h : GoStrings.decimal acc l = some n) :
    ∀ c ∈ l, c.isDigit = true := by
  induction l generalizing acc with
  | nil => exact fun c hc => absurd hc List.not_mem_nil
  | cons c l ih =>
    rw [GoStrings.decimal] at h
    split_ifs at h with hc
    exact List.forall_mem_cons.2 ⟨hc, ih h⟩

/-- A number has no dots. -/
theorem dot_not_mem_of_atoi {s : String} {n : ℤ} (h : GoStrings.atoi s = some n) :
    '.' ∉ s.toList := by
  have hdigits : ∀ {sign : ℤ} {l : List Char},
      (if l = [] then none else (GoStrings.decimal 0 l).bind fun n =>
      if -9223372036854775808 ≤ sign * (n : ℤ) ∧ sign * (n : ℤ) < 9223372036854775808
      then some (sign * (n : ℤ)) else none) = some n → '.' ∉ l := by
    intro sign l h hmem
    split_ifs at h
    obtain ⟨m, hm, -⟩ := Option.bind_eq_some_iff.1 h
    exact absurd (isDigit_of_decimal hm _ hmem) (by decide)
  simp only [GoStrings.atoi] at h
  split at h
  · next l hl =>
    rw [hl]
    exact fun hmem => hdigits h ((List.mem_cons.1 hmem).resolve_left (by decide))
  · next l hl =>
    rw [hl]
    exact fun hmem => hdigits h ((List.mem_cons.1 hmem).resolve_left (by decide))
  · exact hdigits h

/-- A number as an octet. -/
def octetOf (n : ℤ) : Option ℕ := if n < 0 ∨ 255 < n then none else some n.toNat

theorem octetOf_eq_some_iff {n : ℤ} {a : ℕ} : octetOf n = some a ↔ n = (a : ℤ) ∧ a ≤ 255 := by
  rw [octetOf]
  split_ifs with h
  · refine iff_of_false (by simp) fun h' => ?_
    omega
  · rw [Option.some.injEq]
    omega

/-- The prefix length of four octets that are read in a given way. -/
def dotted (read : String → Option ℤ) (s : String) : Option ℕ :=
  (match GoStrings.split s '.' with
  | [a, b, c, d] =>
    match (read a).bind octetOf, (read b).bind octetOf, (read c).bind octetOf,
      (read d).bind octetOf with
    | some a, some b, some c, some d => some (packOctets a b c d)
    | _, _, _, _ => none
  | _ => none).bind maskPrefix

theorem panel_netmaskDottedToPrefix (s : String) :
    Panel.netmaskDottedToPrefix s = dotted GoStrings.atoi s := rfl

theorem agent_netmaskDottedToPrefix (s : String) : Agentsnapshot.netmaskDottedToPrefix s =
    dotted (fun part => Agentsnapshot.octetValue 0 part.toList) s := rfl

/-- The prefix length of a text whose numbers are known. -/
theorem dotted_eq {read : String → Option ℤ} {s : String} {a b c d : ℕ}
    (hread : (GoStrings.split s '.').map read = [some (a : ℤ), some (b : ℤ),
      some (c : ℤ), some (d : ℤ)])
    (hle : ∀ n ∈ [a, b, c, d], n ≤ 255) : dotted read s = maskPrefix (packOctets a b c d) := by
  have hoctet : ∀ n ∈ [a, b, c, d], octetOf n = some n := fun n hn =>
    octetOf_eq_some_iff.2 ⟨rfl, hle n hn⟩
  match hsplit : GoStrings.split s '.' with
  | [p, q, r, t] =>
    rw [hsplit] at hread
    simp only [List.map_cons, List.map_nil, List.cons.injEq, and_true] at hread
    obtain ⟨hp, hq, hr, ht⟩ := hread
    simp only [dotted, hsplit, hp, hq, hr, ht, Option.bind_some,
      hoctet a (by simp), hoctet b (by simp), hoctet c (by simp), hoctet d (by simp)]
  | [] | [_] | [_, _] | [_, _, _] | _ :: _ :: _ :: _ :: _ :: _ =>
    rw [hsplit] at hread
    simp at hread

theorem isSome_dotted_iff {read : String → Option ℤ} {s : String} :
    (dotted read s).isSome = true ↔ Netmask read s := by
  constructor
  · intro h
    obtain ⟨m, hm⟩ := Option.isSome_iff_exists.1 h
    rw [dotted] at hm
    obtain ⟨v, hv, hmask⟩ := Option.bind_eq_some_iff.1 hm
    split at hv
    · next p q r t hsplit =>
      split at hv
      · next a b c d hp hq hr ht =>
        obtain rfl := Option.some.inj hv
        obtain ⟨_, hp, hpa⟩ := Option.bind_eq_some_iff.1 hp
        obtain ⟨_, hq, hqb⟩ := Option.bind_eq_some_iff.1 hq
        obtain ⟨_, hr, hrc⟩ := Option.bind_eq_some_iff.1 hr
        obtain ⟨_, ht, htd⟩ := Option.bind_eq_some_iff.1 ht
        obtain ⟨rfl, ha⟩ := octetOf_eq_some_iff.1 hpa
        obtain ⟨rfl, hb⟩ := octetOf_eq_some_iff.1 hqb
        obtain ⟨rfl, hc⟩ := octetOf_eq_some_iff.1 hrc
        obtain ⟨rfl, hd⟩ := octetOf_eq_some_iff.1 htd
        refine ⟨a, b, c, d, by simp [hsplit, hp, hq, hr, ht], by simp [ha, hb, hc, hd], ?_⟩
        rw [hmask]
        rfl
      · cases hv
    · cases hv
  · rintro ⟨a, b, c, d, hread, hle, hmask⟩
    rwa [dotted_eq hread hle]

/-- The numbers of a netmask are read. -/
theorem Netmask.read_part {read : String → Option ℤ} {s part : String} (h : Netmask read s)
    (hpart : part ∈ GoStrings.split s '.') : ∃ n, read part = some n := by
  obtain ⟨a, b, c, d, hread, -⟩ := h
  have hmem := List.mem_map_of_mem (f := read) hpart
  rw [hread] at hmem
  simp only [List.mem_cons, List.not_mem_nil, or_false] at hmem
  obtain h | h | h | h := hmem <;> exact ⟨_, h⟩

/-- Where another reading has the same numbers, it has the same prefix length. -/
theorem Netmask.dotted_congr {read read' : String → Option ℤ} {s : String} (h : Netmask read s)
    (hread : ∀ part ∈ GoStrings.split s '.', ∀ n, read part = some n → read' part = some n) :
    dotted read s = dotted read' s := by
  have hmap : (GoStrings.split s '.').map read' = (GoStrings.split s '.').map read :=
    List.map_congr_left fun part hpart => by
      obtain ⟨n, hn⟩ := h.read_part hpart
      rw [hn, hread part hpart n hn]
  obtain ⟨a, b, c, d, hparts, hle, -⟩ := h
  rw [dotted_eq hparts hle, dotted_eq (hmap.trans hparts) hle]

/-- **The dotted masks.** Panel and agent read one prefix length when the signed numbers that are a
netmask have no signs, and the runs of digits that are a netmask are in range. -/
theorem netmask_agrees_iff (s : String) :
    Panel.netmaskDottedToPrefix s = Agentsnapshot.netmaskDottedToPrefix s ↔
      (Netmask GoStrings.atoi s → ∀ part ∈ GoStrings.split s '.',
        ∀ c ∈ part.toList, c.isDigit = true) ∧
      (Netmask (fun part => Agentsnapshot.octetValue 0 part.toList) s →
        ∀ part ∈ GoStrings.split s '.', part ≠ "" ∧
          ∃ n < 2 ^ 63, GoStrings.decimal 0 part.toList = some n) := by
  rw [panel_netmaskDottedToPrefix, agent_netmaskDottedToPrefix]
  constructor
  · intro h
    have hiff := @isSome_dotted_iff GoStrings.atoi s
    rw [h, isSome_dotted_iff] at hiff
    have hdigits : Netmask (fun part => Agentsnapshot.octetValue 0 part.toList) s →
        ∀ part ∈ GoStrings.split s '.', ∀ c ∈ part.toList, c.isDigit = true :=
        fun hmask part hpart =>
      isDigit_of_octetValue (hmask.read_part hpart).choose_spec
    refine ⟨fun hmask => hdigits (hiff.2 hmask), fun hmask part hpart => ?_⟩
    obtain ⟨n, hn⟩ := (hiff.1 hmask).read_part hpart
    exact (octet_of_atoi hn (hdigits hmask part hpart)).2
  · rintro ⟨hsigns, hdigits⟩
    by_cases hpanel : Netmask GoStrings.atoi s
    · exact hpanel.dotted_congr fun part hpart n hn =>
        (octet_of_atoi hn (hsigns hpanel part hpart)).1
    by_cases hagent : Netmask (fun part => Agentsnapshot.octetValue 0 part.toList) s
    · exact (hagent.dotted_congr fun part hpart n hn =>
        atoi_of_octet hn (hdigits hagent part hpart)).symm
    · rw [← isSome_dotted_iff, Bool.not_eq_true, Option.isSome_eq_false_iff,
        Option.isNone_iff_eq_none] at hpanel hagent
      rw [hpanel, hagent]

/-- A text before a slash and two texts after it. -/
theorem slash_inj {ip a b : String} : ip ++ "/" ++ a = ip ++ "/" ++ b ↔ a = b := by
  refine ⟨fun h => String.toList_inj.1 ?_, fun h => h ▸ rfl⟩
  have hchars := congrArg String.toList h
  simpa only [String.toList_append, List.append_assoc, List.append_cancel_left_eq] using hchars

theorem slash_ne_empty (ip a : String) : ip ++ "/" ++ a ≠ "" := fun h =>
  absurd (congrArg String.toList h) (by simp [String.toList_append])

/-- A mask without dots is no netmask. -/
theorem not_netmask {read : String → Option ℤ} {s : String} (h : '.' ∉ s.toList) :
    ¬Netmask read s := by
  rintro ⟨a, b, c, d, hread, -⟩
  rw [GoStrings.split_of_not_mem h] at hread
  simp at hread

theorem contains_dot_iff {s : String} : GoStrings.contains s "." = true ↔ '.' ∈ s.toList := by
  rw [GoStrings.contains, decide_eq_true_iff]
  constructor
  · exact fun h => h.subset (by simp)
  · intro h
    obtain ⟨a, b, hs⟩ := List.append_of_mem h
    exact ⟨a, b, by rw [hs]; simp⟩

/-- The texts of two prefix lengths. -/
theorem prefixText_agrees_iff (ip : String) (m n : Option ℕ) :
    ((match m with | some pref => ip ++ "/" ++ Nat.repr pref | none => "") =
      match n with | some pref => ip ++ "/" ++ Nat.repr pref | none => "") ↔ m = n := by
  cases m with
  | none =>
    cases n with
    | none => simp
    | some n => exact iff_of_false (slash_ne_empty _ _).symm (by simp)
  | some m =>
    cases n with
    | none => exact iff_of_false (slash_ne_empty _ _) (by simp)
    | some n => rw [slash_inj, GoStrings.repr_inj, Option.some.injEq]

/-- **The mask of a directive.** -/
theorem cidr_agrees_iff {server ip second : String} (htrim : GoStrings.trimSpace server = server)
    (hre : serverLineRe server = some (ip, second))
    (hfields : GoStrings.fields server = [ip, second]) :
    Panel.openvpnServerLineToCidr server = Agentsnapshot.openvpnServerLineToCidr server ↔
      MaskAgrees second := by
  rw [Panel.openvpnServerLineToCidr, Agentsnapshot.openvpnServerLineToCidr, htrim, hre, hfields]
  dsimp only
  by_cases hlength : ∃ pl : ℕ, pl ≤ 32 ∧ GoStrings.atoi second = some (pl : ℤ)
  · -- a prefix length has no dots, so it is no netmask
    obtain ⟨pl, hle, hatoi⟩ := hlength
    have hrange : (0 : ℤ) ≤ pl ∧ (pl : ℤ) ≤ 32 := by omega
    have hdot := dot_not_mem_of_atoi hatoi
    simp only [hatoi, Option.filter_some, hrange, and_self, decide_true, if_true, Option.any_some,
      Int.toNat_natCast]
    rw [slash_inj]
    constructor
    · refine fun h => ⟨fun pl' _ hatoi' => ?_, fun hmask => absurd hmask (not_netmask hdot),
        fun hmask => absurd hmask (not_netmask hdot)⟩
      rw [hatoi] at hatoi'
      rw [← h, Int.natCast_inj.1 (Option.some.inj hatoi')]
    · exact fun h => (h.length pl hle hatoi).symm
  have hnone : ∀ pl : ℤ, GoStrings.atoi second = some pl → ¬(0 ≤ pl ∧ pl ≤ 32) :=
    fun pl hatoi hrange =>
    hlength ⟨pl.toNat, by omega, by rw [hatoi, Int.toNat_of_nonneg hrange.1]⟩
  have hfilter : (GoStrings.atoi second).filter (fun pl => decide (0 ≤ pl ∧ pl ≤ 32)) = none :=
    Option.filter_eq_none_iff.2 fun pl hatoi => by simpa using hnone pl hatoi
  have hany : ((GoStrings.atoi second).any fun pl => decide (0 ≤ pl ∧ pl ≤ 32)) = false := by
    cases hatoi : GoStrings.atoi second with
    | none => rfl
    | some pl => simpa using hnone pl hatoi
  have hagree : MaskAgrees second ↔
      Panel.netmaskDottedToPrefix second = Agentsnapshot.netmaskDottedToPrefix second := by
    rw [netmask_agrees_iff]
    exact ⟨fun h => ⟨h.signs, h.digits⟩,
      fun h => ⟨fun pl hle hatoi => absurd ⟨pl, hle, hatoi⟩ hlength, h.1, h.2⟩⟩
  rw [hagree]
  simp only [hfilter, hany, Bool.false_eq_true, if_false]
  by_cases hdot : GoStrings.contains second "." = true
  · simp only [hdot, if_true]
    exact prefixText_agrees_iff ip _ _
  · rw [if_neg hdot, if_neg hdot]
    rw [contains_dot_iff] at hdot
    exact iff_of_true rfl (hagree.1 ⟨fun pl hle hatoi => absurd ⟨pl, hle, hatoi⟩ hlength,
      fun hmask => absurd hmask (not_netmask hdot), fun hmask => absurd hmask (not_netmask hdot)⟩)

/-! ### The tunnel -/

theorem linuxDevice_ne_empty {dev : String} (h : dev ≠ "") : linuxDevice dev ≠ "" := by
  rw [linuxDevice]
  split_ifs
  · decide
  · decide
  · exact h

/-- Panel and agent read one interface. -/
theorem interface_agrees (settings : Openvpn.Settings) :
    (Panel.parseTunnelContext settings).tunnelInterface =
    (Agentsnapshot.parseTunnelContext settings).tunnelInterface := by
  simp only [Panel.parseTunnelContext, Agentsnapshot.parseTunnelContext,
    Panel.linuxIfaceFromOpenvpnDev, Agentsnapshot.linuxIfaceFromOpenvpnDev,
    GoStrings.trimSpace_trimSpace]
  by_cases hdev : GoStrings.trimSpace (settings.get "dev").asString = ""
  · simp only [hdev, if_true]
  · simp only [hdev, if_false, linuxDevice_ne_empty hdev]

/-- Without a second word there is no subnet. -/
theorem cidr_of_one_word {server : String} (htrim : GoStrings.trimSpace server = server)
    (hlen : (GoStrings.fields server).length ≤ 1) :
    Panel.openvpnServerLineToCidr server = Agentsnapshot.openvpnServerLineToCidr server := by
  obtain ⟨hword, -⟩ | ⟨ip, second, more, hfields, -⟩ := fields_cases htrim
  · rw [Panel.openvpnServerLineToCidr, Agentsnapshot.openvpnServerLineToCidr, htrim,
      serverLineRe_eq_none hword]
    generalize GoStrings.fields server = words at hlen ⊢
    rcases words with _ | ⟨a, _ | ⟨b, l⟩⟩
    · rfl
    · rfl
    · simp at hlen
  · simp [hfields] at hlen

/-- A trimmed directive gives panel and agent one subnet and one CIDR. -/
theorem directive_agrees_iff {server : String} (htrim : GoStrings.trimSpace server = server) :
    ((match serverLineRe server with | some (a, b) => a ++ " " ++ b | none => "") =
        (match GoStrings.fields server with | a :: b :: _ => a ++ " " ++ b | _ => "") ∧
      Panel.openvpnServerLineToCidr server = Agentsnapshot.openvpnServerLineToCidr server) ↔
      ServerAgrees server := by
  have hcidr : ∀ {ip second}, GoStrings.fields server = [ip, second] →
      (∀ c ∈ server.toList, GoStrings.isSpace c = true → regexpSpace c = true) →
      (Panel.openvpnServerLineToCidr server = Agentsnapshot.openvpnServerLineToCidr server ↔
        MaskAgrees second) := by
    intro ip second hfields hspaces
    obtain ⟨-, hlen⟩ | ⟨ip', second', more, hfields', hpair⟩ := fields_cases htrim
    · simp [hfields] at hlen
    · obtain ⟨rfl, rfl, rfl⟩ : ip = ip' ∧ second = second' ∧ [] = more := by
        simpa [hfields] using hfields'
      exact cidr_agrees_iff htrim (serverLineRe_of_wordPair (hpair rfl) hspaces) hfields
  rw [subnet_agrees_iff htrim]
  constructor
  · rintro ⟨hlen | ⟨ip, second, hfields, hspaces⟩, h⟩
    · exact Or.inl hlen
    · exact Or.inr ⟨ip, second, hfields, hspaces, (hcidr hfields hspaces).1 h⟩
  · rintro (hlen | ⟨ip, second, hfields, hspaces, hmask⟩)
    · exact ⟨Or.inl hlen, cidr_of_one_word htrim hlen⟩
    · exact ⟨Or.inr ⟨ip, second, hfields, hspaces⟩, (hcidr hfields hspaces).2 hmask⟩

/-- **Panel and agent read one tunnel** exactly when they agree on the `server` directive. Both take
the network from the words of that directive, which they split and read with functions of their
own. -/
theorem tunnelContext_agrees_iff (settings : Openvpn.Settings) :
    Panel.parseTunnelContext settings = Agentsnapshot.parseTunnelContext settings ↔
      ServerAgrees (GoStrings.trimSpace (settings.get "server").asString) := by
  have hinterface := interface_agrees settings
  rw [← directive_agrees_iff (GoStrings.trimSpace_trimSpace _)]
  simp only [Panel.parseTunnelContext, Agentsnapshot.parseTunnelContext,
    TunnelContext.mk.injEq] at hinterface ⊢
  refine (and_iff_right hinterface).trans (and_congr_left' ?_)
  -- the words are the same, however they are computed
  generalize serverLineRe _ = groups
  generalize GoStrings.fields _ = words
  exact Iff.rfl

/-- After a third word the panel finds no subnet, while the agent reads the first two words. -/
theorem tunnelContext_disagrees :
    ¬∀ settings : Openvpn.Settings,
      Panel.parseTunnelContext settings = Agentsnapshot.parseTunnelContext settings := by
  intro h
  have h₀ := h (GoMap.ofList [("server", .str "10.8.0.0 255.255.255.0 nopool")])
  exact absurd (congrArg TunnelContext.vpnSubnet h₀) (by decide +kernel)

end OpenvpnControl.Firewall
