import OpenvpnControl.Library.JsStrings

/-!
# Percent-encoding

`encodeURIComponent`, `decodeURIComponent` and `URLSearchParams` of the browser. A component is
encoded as the bytes of its UTF-8 form; a decoder turns escapes into bytes and bytes into
characters.

The proofs go through bytes: the escapes of a component are those of its bytes, which a decoder puts
together again before it looks for characters. A query is split at `&` and at the first `=`, none of
which an encoded part has.

## Main definitions

* `encodeURIComponent`, `decodeURIComponent`: a component of a path.
* `parseQuery`, `getParam`, `formEncode`: the parameters of a query.

## Main results

* `decodeURIComponent_encode`: decoding undoes encoding.
* `decodeForm_encode`: so does the decoder of queries.
* `mem_encodeURIComponent`: the separators of a URL are encoded.
-/

namespace OpenvpnControl.Uri

/-! ### Encoding -/

def hexDigit (n : ℕ) : Char := Char.ofNat (if n < 10 then 48 + n else 55 + n)

/-- The escape of a byte. -/
def escapeByte (b : UInt8) : List Char := ['%', hexDigit (b.toNat / 16), hexDigit (b.toNat % 16)]

/-- The characters in `keep` stand for themselves, and the others are escaped. -/
def escape (keep : Char → Bool) (l : List Char) : List Char :=
  l.flatMap fun c => if keep c then [c] else (String.utf8EncodeChar c).flatMap escapeByte

def isAlnum (c : Char) : Bool :=
  (48 ≤ c.toNat && c.toNat ≤ 57) || (65 ≤ c.toNat && c.toNat ≤ 90) ||
    (97 ≤ c.toNat && c.toNat ≤ 122)

/-- The characters that `encodeURIComponent` does not escape. -/
def isUnreserved (c : Char) : Bool :=
  isAlnum c || c ∈ ['-', '_', '.', '!', '~', '*', '\'', '(', ')']

def encodeURIComponent (s : String) : String := String.ofList (escape isUnreserved s.toList)

/-- The serializer of `URLSearchParams`: a blank becomes a plus sign. -/
def formEncode (s : String) : String :=
  String.ofList (s.toList.flatMap fun c =>
    if c = ' ' then ['+'] else escape (fun c => isAlnum c || c ∈ ['*', '-', '.', '_']) [c])

/-! ### Bytes -/

/-- The number of bytes that are replaced by one character where no character can be decoded: the
longest beginning of a character, and one byte at least. -/
def badLength : List UInt8 → ℕ
  | b :: c :: l =>
    let low := if b = 0xE0 then 0xA0 else if b = 0xF0 then 0x90 else 0x80
    let high := if b = 0xED then 0x9F else if b = 0xF4 then 0x8F else 0xBF
    if b < 0xE0 ∨ 0xF4 < b ∨ c < low ∨ high < c then 1
    else if b < 0xF0 then 2
    else if l.head?.any fun d => decide (0x80 ≤ d ∧ d ≤ 0xBF) then 3
    else 2
  | _ => 1

/-- The characters of a list of bytes, and `none` for bytes that are no character. -/
def decodeChars : List UInt8 → List (Option Char)
  | [] => []
  | b :: l =>
    match (b :: l).toByteArray.utf8DecodeChar? 0 with
    | some c => some c :: decodeChars (l.drop (c.utf8Size - 1))
    | none => none :: decodeChars (l.drop (badLength (b :: l) - 1))
termination_by l => l.length

/-! ### Decoding -/

/-- The byte of an escape. -/
def escapedByte (h₁ h₂ : Char) : Option UInt8 :=
  (JsStrings.digitValue h₁).bind fun d₁ => (JsStrings.digitValue h₂).map fun d₂ =>
    UInt8.ofNat (16 * d₁ + d₂)

/-- The bytes of an encoded text, in which every percent sign begins an escape. -/
def unescape : List Char → Option (List UInt8)
  | [] => some []
  | c :: l =>
    if c = '%' then
      match l with
      | h₁ :: h₂ :: l => (escapedByte h₁ h₂).bind fun b => (unescape l).map (b :: ·)
      | _ => none
    else (unescape l).map (String.utf8EncodeChar c ++ ·)

/-- The bytes of an encoded text; a percent sign that begins no escape stands for itself. -/
def unescapeLoose : List Char → List UInt8
  | [] => []
  | c :: l =>
    if c = '%' then
      match l with
      | h₁ :: h₂ :: l' =>
        match escapedByte h₁ h₂ with
        | some b => b :: unescapeLoose l'
        | none => String.utf8EncodeChar c ++ unescapeLoose (h₁ :: h₂ :: l')
      | l => String.utf8EncodeChar c ++ unescapeLoose l
    else String.utf8EncodeChar c ++ unescapeLoose l

/-- `decodeURIComponent`, where `none` is a `URIError`. -/
def decodeURIComponent (s : String) : Option String :=
  (unescape s.toList).bind fun bytes => ((decodeChars bytes).mapM id).map String.ofList

/-- A name or a value of a query. -/
def decodeForm (s : String) : String :=
  let bytes := unescapeLoose (s.toList.map fun c => if c = '+' then ' ' else c)
  String.ofList ((decodeChars bytes).map fun c => c.getD (Char.ofNat 0xFFFD))

/-! ### Queries -/

/-- The text before the first separator and the text after it. -/
def cut (sep : Char) (s : String) : String × String :=
  (String.ofList (s.toList.takeWhile (· ≠ sep)),
    String.ofList ((s.toList.dropWhile (· ≠ sep)).drop 1))

/-- The names and values of `new URLSearchParams(search)`. -/
def parseQuery (search : String) : List (String × String) :=
  let s := if search.toList.head? = some '?' then String.ofList (search.toList.drop 1) else search
  ((GoStrings.split s '&').filter (· ≠ "")).map fun piece =>
    (decodeForm (cut '=' piece).1, decodeForm (cut '=' piece).2)

/-- `get` of `URLSearchParams`. -/
def getParam (sp : List (String × String)) (name : String) : Option String := sp.lookup name

/-! ### Decoding what is encoded -/

/-- The bytes of characters are decoded. -/
theorem decodeChars_utf8 (l : List Char) :
    decodeChars (l.flatMap String.utf8EncodeChar) = l.map some := by
  induction l with
  | nil => simp [decodeChars]
  | cons c l ih =>
    rw [List.flatMap_cons]
    have hdecode : (String.utf8EncodeChar c ++
        l.flatMap String.utf8EncodeChar).toByteArray.utf8DecodeChar? 0 = some c := by
      rw [List.toByteArray_append]
      exact ByteArray.utf8DecodeChar?_utf8EncodeChar_append
    have hlength := String.length_utf8EncodeChar c
    have hpos := c.utf8Size_pos
    cases hbytes : String.utf8EncodeChar c with
    | nil =>
      rw [hbytes, List.length_nil] at hlength
      omega
    | cons b bs =>
      rw [hbytes] at hdecode hlength
      rw [List.length_cons] at hlength
      have hdrop : (bs ++ l.flatMap String.utf8EncodeChar).drop (c.utf8Size - 1) =
          l.flatMap String.utf8EncodeChar := by
        rw [← hlength, Nat.add_sub_cancel, List.drop_left]
      rw [List.cons_append] at hdecode ⊢
      rw [decodeChars, hdecode]
      dsimp only
      rw [hdrop, ih, List.map_cons]

theorem unescape_cons {c : Char} (hc : c ≠ '%') (l : List Char) :
    unescape (c :: l) = (unescape l).map (String.utf8EncodeChar c ++ ·) := by
  rw [unescape.eq_def]
  simp only [if_neg hc]

theorem unescapeLoose_cons {c : Char} (hc : c ≠ '%') (l : List Char) :
    unescapeLoose (c :: l) = String.utf8EncodeChar c ++ unescapeLoose l := by
  rw [unescapeLoose.eq_def]
  simp only [if_neg hc]

/-- **An escape** is read as its byte. -/
theorem unescape_escapeByte (b : UInt8) (l : List Char) :
    unescape (escapeByte b ++ l) = (unescape l).map (b :: ·) := by
  have hdigit : ∀ n < 16, JsStrings.digitValue (hexDigit n) = some n := by decide
  have hb := b.toNat_lt
  have hvalue : escapedByte (hexDigit (b.toNat / 16)) (hexDigit (b.toNat % 16)) = some b := by
    rw [escapedByte, hdigit _ (by omega), hdigit _ (by omega), Option.bind_some, Option.map_some,
      Nat.div_add_mod, UInt8.ofNat_toNat]
  rw [escapeByte, List.cons_append, List.cons_append, List.cons_append, List.nil_append, unescape,
    if_pos rfl, hvalue, Option.bind_some]

/-- Bytes that are all escaped. -/
theorem unescape_escapeBytes (bs : List UInt8) (l : List Char) :
    unescape (bs.flatMap escapeByte ++ l) = (unescape l).map (bs ++ ·) := by
  induction bs with
  | nil => cases h : unescape l <;> simp [h]
  | cons b bs ih =>
    rw [List.flatMap_cons, List.append_assoc, unescape_escapeByte, ih, Option.map_map]
    rfl

/-- **Encoded characters** are read as their bytes, unless a percent sign stands for itself. -/
theorem unescape_escape {keep : Char → Bool} (hkeep : keep '%' = false) (l : List Char) :
    unescape (escape keep l) = some (l.flatMap String.utf8EncodeChar) := by
  induction l with
  | nil => rfl
  | cons c l ih =>
    rw [escape, List.flatMap_cons, ← escape, List.flatMap_cons]
    split_ifs with hc
    · have hne : c ≠ '%' := by
        rintro rfl
        rw [hkeep] at hc
        cases hc
      rw [List.singleton_append, unescape_cons hne, ih, Option.map_some]
    · rw [unescape_escapeBytes, ih, Option.map_some]

/-- The loose reading is the same where every percent sign begins an escape. -/
theorem unescapeLoose_eq {l : List Char} {bytes : List UInt8} (h : unescape l = some bytes) :
    unescapeLoose l = bytes := by
  induction l using unescape.induct generalizing bytes with
  | case1 => exact Option.some.inj h
  | case2 h₁ h₂ l ih =>
    rw [unescape, if_pos rfl] at h
    obtain ⟨b, hb, h⟩ := Option.bind_eq_some_iff.1 h
    obtain ⟨bs, hbs, rfl⟩ := Option.map_eq_some_iff.1 h
    rw [unescapeLoose, if_pos rfl, hb, ← ih hbs]
  | case3 l hl =>
    rw [unescape.eq_3 _ _ hl, if_pos rfl] at h
    cases h
  | case4 c l hc ih =>
    rw [unescape_cons hc] at h
    obtain ⟨bs, hbs, rfl⟩ := Option.map_eq_some_iff.1 h
    rw [unescapeLoose_cons hc, ih hbs]

/-- What may stand in an encoded text. -/
theorem mem_escape {keep : Char → Bool} {c : Char} {l : List Char} (h : c ∈ escape keep l) :
    keep c = true ∨ c = '%' ∨ ∃ n < 16, c = hexDigit n := by
  obtain ⟨d, -, hc⟩ := List.mem_flatMap.1 h
  split_ifs at hc with hd
  · rw [List.mem_singleton.1 hc]
    exact Or.inl hd
  · obtain ⟨b, -, hc⟩ := List.mem_flatMap.1 hc
    have hb := b.toNat_lt
    simp only [escapeByte, List.mem_cons, List.not_mem_nil, or_false] at hc
    obtain rfl | rfl | rfl := hc
    · exact Or.inr (Or.inl rfl)
    · exact Or.inr (Or.inr ⟨_, by omega, rfl⟩)
    · exact Or.inr (Or.inr ⟨_, by omega, rfl⟩)

/-- **The separators** of a URL do not stand in a component. -/
theorem not_mem_encodeURIComponent {c : Char} (hc : isUnreserved c = false) (hpercent : c ≠ '%')
    (s : String) :
    c ∉ (encodeURIComponent s).toList := by
  rw [encodeURIComponent, String.toList_ofList]
  intro h
  obtain h | h | ⟨n, hn, rfl⟩ := mem_escape h
  · rw [hc] at h
    cases h
  · exact hpercent h
  · have hdigit : ∀ n < 16, isUnreserved (hexDigit n) = true := by decide
    rw [hdigit n hn] at hc
    cases hc

/-- **Decoding a component** undoes encoding it. -/
theorem decodeURIComponent_encode (s : String) :
    decodeURIComponent (encodeURIComponent s) = some s := by
  have hchars : ∀ l : List Char, (l.map some).mapM id = some l := fun l => by
    induction l with
    | nil => rfl
    | cons c l ih =>
      rw [List.map_cons, List.mapM_cons, ih]
      rfl
  rw [decodeURIComponent, encodeURIComponent, String.toList_ofList, unescape_escape (by decide),
    Option.bind_some, decodeChars_utf8, hchars, Option.map_some, String.ofList_toList]

/-- **Decoding a value of a query** undoes encoding it as a component. -/
theorem decodeForm_encode (s : String) : decodeForm (encodeURIComponent s) = s := by
  have hplus : (encodeURIComponent s).toList.map (fun c => if c = '+' then ' ' else c) =
      escape isUnreserved s.toList := by
    rw [List.map_congr_left (g := id), List.map_id, encodeURIComponent, String.toList_ofList]
    intro c hc
    refine if_neg ?_
    rintro rfl
    exact not_mem_encodeURIComponent (by decide) (by decide) s hc
  have hchars : s.toList.map ((fun c : Option Char => c.getD (Char.ofNat 0xFFFD)) ∘ some) =
      s.toList :=
    List.map_id _
  have hbytes := @unescape_escape isUnreserved (by decide) s.toList
  simp only [decodeForm, hplus, unescapeLoose_eq hbytes, decodeChars_utf8, List.map_map]
  rw [hchars, String.ofList_toList]

/-- A text that needs no escapes is its own encoding. -/
theorem encodeURIComponent_eq_self {s : String} (h : ∀ c ∈ s.toList, isUnreserved c = true) :
    encodeURIComponent s = s := by
  have hlist : ∀ l : List Char, (∀ c ∈ l, isUnreserved c = true) → escape isUnreserved l = l :=
    fun l hl => by
    induction l with
    | nil => rfl
    | cons c l ih =>
      rw [List.forall_mem_cons] at hl
      rw [escape, List.flatMap_cons, ← escape, if_pos hl.1, ih hl.2, List.singleton_append]
  rw [encodeURIComponent, hlist _ h, String.ofList_toList]

theorem encodeURIComponent_ne_empty {s : String} (h : s ≠ "") : encodeURIComponent s ≠ "" := by
  intro hempty
  have hs := decodeURIComponent_encode s
  rw [hempty] at hs
  have hnone : decodeURIComponent "" = some "" := by
    simp [decodeURIComponent, unescape, decodeChars]
  exact h (Option.some.inj (hs.symm.trans hnone))

theorem encodeURIComponent_inj {s t : String} :
    encodeURIComponent s = encodeURIComponent t ↔ s = t := by
  refine ⟨fun h => ?_, fun h => h ▸ rfl⟩
  have hs := decodeURIComponent_encode s
  rw [h, decodeURIComponent_encode] at hs
  exact (Option.some.inj hs).symm

/-! ### Queries that are encoded -/

theorem cut_append {sep : Char} {a : String} (ha : sep ∉ a.toList) (b : String) :
    cut sep (a ++ String.singleton sep ++ b) = (a, b) := by
  have hlist : (a ++ String.singleton sep ++ b).toList = a.toList ++ sep :: b.toList := by simp
  have hne : ∀ c ∈ a.toList, decide (c ≠ sep) = true := fun c hc => by
    simpa using ne_of_mem_of_not_mem hc ha
  rw [cut, hlist, List.takeWhile_append_of_pos hne, List.dropWhile_append_of_pos hne,
    List.takeWhile_cons_of_neg (by simp), List.dropWhile_cons_of_neg (by simp),
    List.append_nil, List.drop_succ_cons, List.drop_zero,
    String.ofList_toList, String.ofList_toList]

theorem cut_of_not_mem {sep : Char} {a : String} (ha : sep ∉ a.toList) : cut sep a = (a, "") := by
  have hne : ∀ c ∈ a.toList, decide (c ≠ sep) = true := fun c hc => by
    simpa using ne_of_mem_of_not_mem hc ha
  rw [cut, List.takeWhile_eq_self_iff.2 hne, List.dropWhile_eq_nil_iff.2 hne, String.ofList_toList]
  rfl

/-- A parameter of a query. -/
def paramText (p : String × String) : String :=
  encodeURIComponent p.1 ++ "=" ++ encodeURIComponent p.2

theorem not_mem_paramText {c : Char} (hc : isUnreserved c = false) (hpercent : c ≠ '%')
    (hequals : c ≠ '=') (p : String × String) : c ∉ (paramText p).toList := by
  have hname := not_mem_encodeURIComponent hc hpercent p.1
  have hvalue := not_mem_encodeURIComponent hc hpercent p.2
  simp [paramText, hname, hvalue, hequals]

theorem split_paramTexts (ps : List (String × String)) :
    (ps.map paramText).flatMap (GoStrings.split · '&') = ps.map paramText := by
  induction ps with
  | nil => rfl
  | cons p ps ih =>
    rw [List.map_cons, List.flatMap_cons, ih,
      GoStrings.split_of_not_mem (not_mem_paramText (by decide) (by decide) (by decide) p),
      List.singleton_append]

/-- **Parameters** that are encoded are read back. -/
theorem parseQuery_intercalate {ps : List (String × String)} (hne : ps ≠ []) :
    parseQuery ("&".intercalate (ps.map paramText)) = ps := by
  have hhead : ("&".intercalate (ps.map paramText)).toList.head? ≠ some '?' := fun h => by
    have hmem := List.mem_of_mem_head? h
    rw [String.toList_intercalate] at hmem
    obtain hamp | ⟨l, hl, hmem⟩ := GoStrings.mem_intercalateList hmem
    · exact absurd hamp (by decide)
    · obtain ⟨text, htext, rfl⟩ := List.mem_map.1 hl
      obtain ⟨p, -, rfl⟩ := List.mem_map.1 htext
      exact not_mem_paramText (by decide) (by decide) (by decide) p hmem
  have hsplit : GoStrings.split ("&".intercalate (ps.map paramText)) '&' = ps.map paramText := by
    have hamp : ("&" : String) = String.singleton '&' := rfl
    rw [hamp, GoStrings.split_intercalate (by simpa using hne), split_paramTexts]
  have hfilter : (ps.map paramText).filter (· ≠ "") = ps.map paramText := by
    refine List.filter_eq_self.2 fun text htext => ?_
    obtain ⟨p, -, rfl⟩ := List.mem_map.1 htext
    have hmem : '=' ∈ (paramText p).toList := by simp [paramText]
    rw [decide_eq_true_eq]
    intro hempty
    rw [hempty] at hmem
    cases hmem
  have hcut (p : String × String) : cut '=' (paramText p) = (encodeURIComponent p.1,
      encodeURIComponent p.2) :=
    cut_append (not_mem_encodeURIComponent (by decide) (by decide) p.1) _
  simp only [parseQuery, if_neg hhead, hsplit, hfilter, List.map_map]
  refine (List.map_congr_left fun p _ => ?_).trans (List.map_id ps)
  simp only [Function.comp_apply, hcut, decodeForm_encode]
  rfl

end OpenvpnControl.Uri
