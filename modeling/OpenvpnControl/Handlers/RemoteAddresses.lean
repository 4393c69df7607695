import OpenvpnControl.Agent.ClientsPersist
import OpenvpnControl.Library.JsStrings

/-!
# The address of a client in the views

The address that OpenVPN reports for a client may have a port. `remoteAddrHostOnly` drops it before
the address is stored, `remoteHost` before it is listed, and `remoteAddrHostOnlyDisplay` of
`App.tsx` before it is shown. Only `remoteHost` cuts at the first colon, which an IPv6 address has
within.

## Main definitions

* `remoteHost`, `remoteAddrHostOnlyDisplay`: the functions of the handlers and of the frontend.
* `RemoteAddress`: the forms of an address.
* `SameAddress`: all views show one address.

## Main results

* `sameAddress_iff`: they do unless the address is an IPv6 address.
-/

namespace OpenvpnControl.Handlers

open Agent (remoteAddrHostOnly)

def remoteHost (ip : String) : String :=
  String.ofList ((GoStrings.trimSpace ip).toList.takeWhile (· ≠ ':'))

def remoteAddrHostOnlyDisplay (addr : String) : String :=
  let s := (JsStrings.trim addr).toList
  let inner := (s.drop 1).takeWhile (· ≠ ']')
  let host := (s.rdropWhile (· ≠ ':')).dropLast
  let tail := s.rtakeWhile (· ≠ ':')
  if s.head? = some '[' ∧ ']' ∈ s ∧ inner ≠ [] then String.ofList inner
  -- `/^\d{1,5}$/`
  else if ':' ∈ s ∧ host ≠ [] ∧ tail.all Char.isDigit ∧ 1 ≤ tail.length ∧
    tail.length ≤ 5 ∧ '.' ∈ host then
    String.ofList host
  else String.ofList s

/-! ### Addresses -/

/-- A run of digits. -/
def IsNumber (s : String) : Prop := s ≠ "" ∧ ∀ c ∈ s.toList, c.isDigit = true

instance (s : String) : Decidable (IsNumber s) := inferInstanceAs (Decidable (_ ∧ _))

/-- Four numbers between dots. -/
def IsIPv4 (s : String) : Prop :=
  ∃ a b c d, IsNumber a ∧ IsNumber b ∧ IsNumber c ∧ IsNumber d ∧
    s = a ++ "." ++ b ++ "." ++ c ++ "." ++ d

/-- One to five digits. -/
def IsPort (s : String) : Prop := IsNumber s ∧ s.length ≤ 5

instance (s : String) : Decidable (IsPort s) := inferInstanceAs (Decidable (_ ∧ _))

/-- One to four hexadecimal digits. -/
def IsGroup (s : String) : Prop :=
  s ≠ "" ∧ s.length ≤ 4 ∧
    ∀ c ∈ s.toList, c.isDigit = true ∨ ('a' ≤ c ∧ c ≤ 'f') ∨ ('A' ≤ c ∧ c ≤ 'F')

instance (s : String) : Decidable (IsGroup s) := inferInstanceAs (Decidable (_ ∧ _ ∧ _))

/-- The parts of an IPv6 address between its colons: groups, and possibly an IPv4 address, which
stands for two groups. -/
structure Parts where
  groups : List String
  quad : Option String
  isGroup : ∀ g ∈ groups, IsGroup g
  isIPv4 : ∀ q ∈ quad, IsIPv4 q

def Parts.count (p : Parts) : ℕ := p.groups.length + if p.quad.isSome then 2 else 0

def Parts.text (p : Parts) : String := ":".intercalate (p.groups ++ p.quad.toList)

/-- Eight groups, or fewer of them around two colons. -/
def IsIPv6 (s : String) : Prop :=
  (∃ p : Parts, p.count = 8 ∧ s = p.text) ∨
    ∃ (before : List String) (p : Parts), (∀ g ∈ before, IsGroup g) ∧ before.length + p.count ≤ 7 ∧
      s = ":".intercalate before ++ "::" ++ p.text

/-- A name without colons, brackets and white space. -/
def IsHostName (s : String) : Prop :=
  s ≠ "" ∧ ∀ c ∈ s.toList, c ≠ ':' ∧ c ≠ '[' ∧ GoStrings.isSpace c = false ∧
    JsStrings.isSpace c = false

/-- The forms of a remote address. -/
inductive RemoteAddress : String → Prop
  | ipv4 {s : String} (h : IsIPv4 s) : RemoteAddress s
  | ipv4Port {s port : String} (h : IsIPv4 s) (hport : IsPort port) : RemoteAddress
      (s ++ ":" ++ port)
  | ipv6Port {s port : String} (h : IsIPv6 s) (hport : IsPort port) :
    RemoteAddress ("[" ++ s ++ "]:" ++ port)
  | ipv6 {s : String} (h : IsIPv6 s) : RemoteAddress s
  | hostName {s : String} (h : IsHostName s) : RemoteAddress s

/-- An IPv6 address, with or without a port. -/
def HasIPv6 (a : String) : Prop :=
  IsIPv6 a ∨ ∃ s port, IsIPv6 s ∧ IsPort port ∧ a = "[" ++ s ++ "]:" ++ port

/-- The views show one address, and no function changes what it returns. -/
structure SameAddress (a : String) : Prop where
  live : remoteHost a = remoteAddrHostOnly a
  listed : remoteHost (remoteAddrHostOnly a) = remoteAddrHostOnly a
  shown : remoteAddrHostOnlyDisplay a = remoteAddrHostOnly a
  stored_again : remoteAddrHostOnly (remoteAddrHostOnly a) = remoteAddrHostOnly a
  live_again : remoteHost (remoteHost a) = remoteHost a
  shown_again : remoteAddrHostOnlyDisplay (remoteAddrHostOnlyDisplay a) =
    remoteAddrHostOnlyDisplay a

/-! ### Characters -/

/-- The characters of addresses are between a blank and a tilde. -/
def IsPlain (s : String) : Prop := ∀ c ∈ s.toList, 33 ≤ c.toNat ∧ c.toNat ≤ 126 ∧ c ≠ '[' ∧ c ≠ ']'

theorem IsPlain.append {s t : String} (hs : IsPlain s) (ht : IsPlain t) : IsPlain (s ++ t) :=
  fun c hc =>
  (List.mem_append.1 (String.toList_append ▸ hc)).elim (hs c) (ht c)

theorem not_isSpace_of_visible {c : Char} (hlow : 33 ≤ c.toNat) (hhigh : c.toNat ≤ 126) :
    GoStrings.isSpace c = false ∧ JsStrings.isSpace c = false := by
  constructor
  · have hne : c ≠ ' ' := by
      rintro rfl
      exact absurd hlow (by decide)
    simp [GoStrings.isSpace, hne]
    omega
  · simp [JsStrings.isSpace]
    omega

theorem trimSpace_of_visible {s : String} (h : ∀ c ∈ s.toList, 33 ≤ c.toNat ∧ c.toNat ≤ 126) :
    GoStrings.trimSpace s = s ∧ JsStrings.trim s = s :=
  ⟨GoStrings.trimSpace_eq_self fun c hc => (not_isSpace_of_visible (h c hc).1 (h c hc).2).1,
    JsStrings.trim_eq_self fun c hc => (not_isSpace_of_visible (h c hc).1 (h c hc).2).2⟩

theorem toNat_of_isDigit {c : Char} (h : c.isDigit = true) : 48 ≤ c.toNat ∧ c.toNat ≤ 57 := by
  simp only [Char.isDigit, Bool.and_eq_true, decide_eq_true_eq] at h
  exact ⟨UInt32.le_iff_toNat_le.1 h.1, UInt32.le_iff_toNat_le.1 h.2⟩

theorem IsNumber.isPlain {s : String} (h : IsNumber s) : IsPlain s := fun c hc => by
  have hdigit := toNat_of_isDigit (h.2 c hc)
  refine ⟨by omega, by omega, ?_, ?_⟩ <;> rintro rfl <;> exact absurd hdigit (by decide)

theorem IsIPv4.isPlain {s : String} (h : IsIPv4 s) : IsPlain s := by
  obtain ⟨a, b, c, d, ha, hb, hc, hd, rfl⟩ := h
  have hdot : IsPlain "." := by
    intro c hc
    obtain rfl : c = '.' := by simpa using hc
    decide
  exact (((((ha.isPlain.append hdot).append hb.isPlain).append hdot).append
    hc.isPlain).append hdot).append hd.isPlain

theorem IsGroup.isPlain {s : String} (h : IsGroup s) : IsPlain s := fun c hc => by
  have hbounds : ∀ lo hi : Char, lo ≤ c ∧ c ≤ hi → lo.toNat ≤ c.toNat ∧ c.toNat ≤ hi.toNat :=
    fun lo hi h => ⟨UInt32.le_iff_toNat_le.1 (Char.le_def.1 h.1),
      UInt32.le_iff_toNat_le.1 (Char.le_def.1 h.2)⟩
  have hrange : (48 ≤ c.toNat ∧ c.toNat ≤ 57) ∨ (97 ≤ c.toNat ∧ c.toNat ≤ 102) ∨
      (65 ≤ c.toNat ∧ c.toNat ≤ 70) :=
    (h.2.2 c hc).imp toNat_of_isDigit fun h => h.imp (hbounds 'a' 'f') (hbounds 'A' 'F')
  refine ⟨by omega, by omega, ?_, ?_⟩ <;> rintro rfl <;> exact absurd hrange (by decide)

theorem isPlain_intercalate {pieces : List String} (h : ∀ piece ∈ pieces, IsPlain piece) :
    IsPlain (":".intercalate pieces) := by
  intro c hc
  rw [String.toList_intercalate] at hc
  obtain rfl | ⟨l, hl, hc⟩ := GoStrings.mem_intercalateList hc
  · decide
  · obtain ⟨piece, hpiece, rfl⟩ := List.mem_map.1 hl
    exact h piece hpiece c hc

theorem Parts.isPlain_text (p : Parts) : IsPlain p.text := by
  refine isPlain_intercalate fun piece hpiece => ?_
  obtain hg | hq := List.mem_append.1 hpiece
  · exact (p.isGroup piece hg).isPlain
  · exact (p.isIPv4 piece (Option.mem_toList.1 hq)).isPlain

theorem IsIPv6.isPlain {s : String} (h : IsIPv6 s) : IsPlain s := by
  obtain ⟨p, -, rfl⟩ | ⟨before, p, hbefore, -, rfl⟩ := h
  · exact p.isPlain_text
  · have hcolons : IsPlain "::" := by
      intro c hc
      obtain rfl : c = ':' := by simpa using hc
      decide
    exact ((isPlain_intercalate fun g hg => (hbefore g hg).isPlain).append hcolons).append
      p.isPlain_text

/-- An IPv6 address has a colon after another one. -/
theorem IsIPv6.two_colons {s : String} (h : IsIPv6 s) : ∃ x y : List Char,
    s.toList = x ++ ':' :: y ∧ ':' ∈ y := by
  obtain ⟨p, hcount, rfl⟩ | ⟨before, p, -, -, rfl⟩ := h
  · have hlen : 3 ≤ (p.groups ++ p.quad.toList).length := by
      rw [Parts.count] at hcount
      rw [List.length_append]
      split_ifs at hcount <;> omega
    rw [Parts.text]
    obtain ⟨a, b, c, rest, hparts⟩ : ∃ a b c rest, p.groups ++ p.quad.toList =
        a :: b :: c :: rest := by
      match hl : p.groups ++ p.quad.toList with
      | a :: b :: c :: rest => exact ⟨a, b, c, rest, rfl⟩
      | [] | [_] | [_, _] => simp [hl] at hlen
    refine ⟨a.toList, (":".intercalate (b :: c :: rest)).toList, ?_, ?_⟩
    · rw [hparts, String.intercalate_cons_of_ne_nil (List.cons_ne_nil b _)]
      simp
    · rw [String.intercalate_cons_of_ne_nil (List.cons_ne_nil c _)]
      simp
  · exact ⟨(":".intercalate before).toList, ':' :: p.text.toList, by simp, List.mem_cons_self⟩

/-! ### Cutting -/

/-- A text is cut at its last colon. -/
theorem cut_last {host tail : List Char} (h : ':' ∉ tail) :
    ((host ++ ':' :: tail).rdropWhile (· ≠ ':')).dropLast = host ∧
      (host ++ ':' :: tail).rtakeWhile (· ≠ ':') = tail := by
  have hpos : ∀ c ∈ tail.reverse, decide (c ≠ ':') = true := fun c hc => by
    simpa using ne_of_mem_of_not_mem (List.mem_reverse.1 hc) h
  have hreverse : (host ++ ':' :: tail).reverse = tail.reverse ++ ':' :: host.reverse := by simp
  constructor
  · rw [List.rdropWhile, hreverse, List.dropWhile_append_of_pos hpos,
      List.dropWhile_cons_of_neg (by simp), List.reverse_cons,
      List.reverse_reverse, List.dropLast_concat]
  · rw [List.rtakeWhile, hreverse, List.takeWhile_append_of_pos hpos,
      List.takeWhile_cons_of_neg (by simp), List.append_nil, List.reverse_reverse]

/-- A text with two colons has one before its last one. -/
theorem mem_cut_last {x y : List Char} (h : ':' ∈ y) :
    ':' ∈ ((x ++ ':' :: y).rdropWhile (· ≠ ':')).dropLast := by
  obtain ⟨as, bs, hy, has⟩ := List.eq_append_cons_of_mem (List.mem_reverse.2 h)
  have hcut : x ++ ':' :: y = (x ++ ':' :: bs.reverse) ++ ':' :: as.reverse := by
    have := congrArg List.reverse hy
    simp only [List.reverse_reverse, List.reverse_append, List.reverse_cons] at this
    simp [this]
  rw [hcut, (cut_last (by simpa using has)).1]
  simp

/-- An address without its brackets or its port. -/
def hostOnly (s : List Char) : String :=
  let inner := (s.drop 1).takeWhile (· ≠ ']')
  let host := (s.rdropWhile (· ≠ ':')).dropLast
  let tail := s.rtakeWhile (· ≠ ':')
  if s.head? = some '[' ∧ ']' ∈ s ∧ inner ≠ [] then String.ofList inner
  else if ':' ∈ s ∧ host ≠ [] ∧ tail.all Char.isDigit ∧ 1 ≤ tail.length ∧
    tail.length ≤ 5 ∧ '.' ∈ host then
    String.ofList host
  else String.ofList s

/-- Where there is no white space, `remoteAddrHostOnly` and `remoteAddrHostOnlyDisplay` are one
function. -/
theorem eq_hostOnly {a : String} (h : GoStrings.trimSpace a = a ∧ JsStrings.trim a = a) :
    remoteAddrHostOnly a = hostOnly a.toList ∧ remoteAddrHostOnlyDisplay a = hostOnly a.toList ∧
      remoteHost a = String.ofList (a.toList.takeWhile (· ≠ ':')) := by
  rw [remoteAddrHostOnly, remoteAddrHostOnlyDisplay, remoteHost, h.1, h.2]
  exact ⟨rfl, rfl, rfl⟩

theorem hostOnly_plain {a : String} (h : ':' ∉ a.toList) (hhead : '[' ∉ a.toList) :
    hostOnly a.toList = a := by
  have hne : a.toList.head? ≠ some '[' := fun h' => hhead (List.mem_of_mem_head? h')
  rw [hostOnly, if_neg fun h' => hne h'.1, if_neg fun h' => h h'.1, String.ofList_toList]

theorem hostOnly_port {host port : String} (hhost : '[' ∉ host.toList) (hdot : '.' ∈ host.toList)
    (hport : IsPort port) : hostOnly (host.toList ++ ':' :: port.toList) = host := by
  have hcolon : ':' ∉ port.toList := fun h => absurd (hport.1.2 _ h) (by decide)
  obtain ⟨hcut, htail⟩ := @cut_last host.toList port.toList hcolon
  have hne : host.toList ≠ [] := List.ne_nil_of_mem hdot
  have hhead : (host.toList ++ ':' :: port.toList).head? ≠ some '[' := by
    rw [List.head?_append_of_ne_nil _ hne]
    exact fun h' => hhost (List.mem_of_mem_head? h')
  have hlen : 1 ≤ port.toList.length :=
    List.length_pos_iff.2 fun h => hport.1.1 (String.toList_inj.1 h)
  simp only [hostOnly, hcut, htail]
  rw [if_neg fun h' => hhead h'.1,
    if_pos ⟨by simp, hne, by simpa using hport.1.2, hlen, hport.2, hdot⟩, String.ofList_toList]

theorem hostOnly_brackets {host : String} {tail : List Char} (hne : host ≠ "")
    (hhost : ']' ∉ host.toList) :
    hostOnly ('[' :: (host.toList ++ ']' :: tail)) = host := by
  have hinner : (host.toList ++ ']' :: tail).takeWhile (· ≠ ']') = host.toList := by
    rw [List.takeWhile_append_of_pos fun c hc => by simpa using ne_of_mem_of_not_mem hc hhost,
      List.takeWhile_cons_of_neg (by simp), List.append_nil]
  simp only [hostOnly, List.drop_succ_cons, List.drop_zero, hinner]
  rw [if_pos ⟨rfl, by simp, fun h => hne (String.toList_inj.1 h)⟩, String.ofList_toList]

/-- What is left of a text with two colons has a colon. -/
theorem mem_hostOnly {s x y : List Char} (hs : s = x ++ ':' :: y) (hy : ':' ∈ y) (hhead : '[' ∉ s) :
    ':' ∈ (hostOnly s).toList := by
  have hne : s.head? ≠ some '[' := fun h' => hhead (List.mem_of_mem_head? h')
  have hcut := @mem_cut_last x y hy
  rw [← hs] at hcut
  simp only [hostOnly]
  rw [if_neg fun h' => hne h'.1]
  split_ifs
  · rwa [String.toList_ofList]
  · rw [String.toList_ofList, hs]
    simp

/-! ### The views -/

/-- What `remoteHost` returns has no colon. -/
theorem not_mem_remoteHost (ip : String) : ':' ∉ (remoteHost ip).toList := by
  rw [remoteHost, String.toList_ofList]
  intro h
  have := List.mem_takeWhile_imp h
  simp at this

/-- **An IPv6 address** is not the same in all views. -/
theorem not_sameAddress {a : String} (h : HasIPv6 a) : ¬SameAddress a := by
  intro hsame
  refine not_mem_remoteHost a ?_
  rw [hsame.live]
  obtain h | ⟨s, port, h, hport, rfl⟩ := h
  · obtain ⟨x, y, hs, hy⟩ := h.two_colons
    have hplain := h.isPlain
    rw [(eq_hostOnly (trimSpace_of_visible fun c hc => ⟨(hplain c hc).1, (hplain c hc).2.1⟩)).1]
    exact mem_hostOnly hs hy fun hmem => (hplain _ hmem).2.2.1 rfl
  · obtain ⟨x, y, hs, hy⟩ := h.two_colons
    have hplain := h.isPlain
    have hlist : ("[" ++ s ++ "]:" ++ port).toList =
      '[' :: (s.toList ++ ']' :: ':' :: port.toList) := by simp
    have hvisible : ∀ c ∈ ("[" ++ s ++ "]:" ++ port).toList, 33 ≤ c.toNat ∧ c.toNat ≤ 126 := by
      intro c hc
      rw [hlist, List.mem_cons, List.mem_append, List.mem_cons, List.mem_cons] at hc
      obtain rfl | hc | rfl | rfl | hc := hc
      · decide
      · exact ⟨(hplain c hc).1, (hplain c hc).2.1⟩
      · decide
      · decide
      · exact ⟨(hport.1.isPlain c hc).1, (hport.1.isPlain c hc).2.1⟩
    have hne : s ≠ "" := by
      rintro rfl
      simp at hs
    rw [(eq_hostOnly (trimSpace_of_visible hvisible)).1, hlist,
      hostOnly_brackets hne fun hmem => (hplain _ hmem).2.2.2 rfl, hs]
    simp

/-- An address that all functions turn into one they all keep is the same in all views. -/
theorem sameAddress_of_fixed {a host : String}
    (ha : remoteAddrHostOnly a = host ∧ remoteAddrHostOnlyDisplay a = host ∧ remoteHost a = host)
    (hhost : remoteAddrHostOnly host = host ∧ remoteAddrHostOnlyDisplay host = host ∧
      remoteHost host = host) :
    SameAddress a where
  live := ha.2.2.trans ha.1.symm
  listed := by rw [ha.1, hhost.2.2]
  shown := ha.2.1.trans ha.1.symm
  stored_again := by rw [ha.1, hhost.1]
  live_again := by rw [ha.2.2, hhost.2.2]
  shown_again := by rw [ha.2.1, hhost.2.1]

/-- A name stays as it is. -/
theorem IsHostName.fixed {a : String} (h : IsHostName a) :
    remoteAddrHostOnly a = a ∧ remoteAddrHostOnlyDisplay a = a ∧ remoteHost a = a := by
  obtain ⟨honly, hdisplay, hhost⟩ := eq_hostOnly
    ⟨GoStrings.trimSpace_eq_self fun c hc => (h.2 c hc).2.2.1,
      JsStrings.trim_eq_self fun c hc => (h.2 c hc).2.2.2⟩
  have hplain : hostOnly a.toList = a :=
    hostOnly_plain (fun hmem => (h.2 _ hmem).1 rfl) fun hmem => (h.2 _ hmem).2.1 rfl
  rw [honly, hdisplay, hhost, hplain,
    List.takeWhile_eq_self_iff.2 fun c hc => by simpa using (h.2 c hc).1, String.ofList_toList]
  exact ⟨rfl, rfl, rfl⟩

/-- Numbers and dots make a name. -/
theorem IsIPv4.isHostName {s : String} (h : IsIPv4 s) : IsHostName s := by
  have hplain := h.isPlain
  obtain ⟨a, b, c, d, ha, hb, hc, hd, rfl⟩ := h
  have hnumber {n : String} (hn : IsNumber n) : ':' ∉ n.toList :=
    fun h => absurd (hn.2 _ h) (by decide)
  have hcolon : ':' ∉ (a ++ "." ++ b ++ "." ++ c ++ "." ++ d).toList := by
    simp [hnumber ha, hnumber hb, hnumber hc, hnumber hd]
  refine ⟨fun h => by simpa using congrArg String.toList h, fun x hx => ?_⟩
  obtain ⟨hlow, hhigh, hbracket, -⟩ := hplain x hx
  exact ⟨ne_of_mem_of_not_mem hx hcolon, hbracket, not_isSpace_of_visible hlow hhigh⟩

/-- The port of an IPv4 address is dropped. -/
theorem sameAddress_of_port {s port : String} (h : IsIPv4 s) (hport : IsPort port) :
    SameAddress (s ++ ":" ++ port) := by
  refine sameAddress_of_fixed ?_ h.isHostName.fixed
  have hvisible : ∀ c ∈ (s ++ ":" ++ port).toList, 33 ≤ c.toNat ∧ c.toNat ≤ 126 := by
    intro c hc
    simp only [String.toList_append, List.mem_append] at hc
    obtain (hc | hc) | hc := hc
    · exact ⟨(h.isPlain c hc).1, (h.isPlain c hc).2.1⟩
    · obtain rfl : c = ':' := by simpa using hc
      decide
    · exact ⟨(hport.1.isPlain c hc).1, (hport.1.isPlain c hc).2.1⟩
  have hlist : (s ++ ":" ++ port).toList = s.toList ++ ':' :: port.toList := by simp
  have hdot : '.' ∈ s.toList := by
    obtain ⟨a, b, c, d, -, -, -, -, rfl⟩ := h
    simp
  have hcolon : ∀ c ∈ s.toList, c ≠ ':' := fun c hc => (h.isHostName.2 c hc).1
  obtain ⟨honly, hdisplay, hhost⟩ := eq_hostOnly (trimSpace_of_visible hvisible)
  have hcut := hostOnly_port (fun hmem => (h.isPlain _ hmem).2.2.1 rfl) hdot hport
  rw [honly, hdisplay, hhost, hlist, hcut,
    List.takeWhile_append_of_pos fun c hc => by
      simpa using hcolon c hc, List.takeWhile_cons_of_neg (by simp),
      List.append_nil, String.ofList_toList]
  exact ⟨rfl, rfl, rfl⟩

/-- **The views show one address** of a client unless it has an IPv6 address, of which `remoteHost`
keeps only what stands before the first colon. -/
theorem sameAddress_iff {a : String} (h : RemoteAddress a) : SameAddress a ↔ ¬HasIPv6 a := by
  refine ⟨fun hsame hv6 => not_sameAddress hv6 hsame, fun hv6 => ?_⟩
  cases h with
  | ipv4 h => exact sameAddress_of_fixed h.isHostName.fixed h.isHostName.fixed
  | ipv4Port h hport => exact sameAddress_of_port h hport
  | ipv6Port h hport => exact absurd (Or.inr ⟨_, _, h, hport, rfl⟩) hv6
  | ipv6 h => exact absurd (Or.inl h) hv6
  | hostName h => exact sameAddress_of_fixed h.fixed h.fixed

/-- A client at an IPv4 address. -/
theorem sameAddress_iff_ipv4 : SameAddress "198.51.100.7:50000" ↔ ¬HasIPv6 "198.51.100.7:50000" :=
  sameAddress_iff (.ipv4Port ⟨"198", "51", "100", "7",
    by decide, by decide, by decide, by decide, rfl⟩ (show IsPort "50000" by decide))

/-- A client at an IPv6 address is listed with a bracket and its first group. -/
theorem views_differ : ¬∀ a, RemoteAddress a → SameAddress a := by
  intro h
  have hv6 : IsIPv6 "2001:db8::1" :=
    Or.inr ⟨["2001", "db8"],
      ⟨["1"], none, by decide, fun q hq => absurd hq (Option.not_mem_none q)⟩,
      by decide, by decide, by decide⟩
  have hport : IsPort "1194" := by decide
  exact absurd (h ("[" ++ "2001:db8::1" ++ "]:" ++ "1194") (.ipv6Port hv6 hport)).live
    (by decide +kernel)

end OpenvpnControl.Handlers
