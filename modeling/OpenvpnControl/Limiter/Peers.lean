import OpenvpnControl.Limiter.Login

/-!
# Peers that share a counter of the login limiter

Without a proxy, a request comes from the address of its peer, `a.b.c.d:port` or `[IPv6]:port`. The
limiter cuts the address at its first colon, which is inside of an IPv6 address. This file
determines the requests whose failures another request can see.

## Main definitions

* `Peer`, `Peer.text`, `remoteAddr`: IPv4 and IPv6 addresses and their texts.
* `Attempt`, `Attempt.key`: a request without `X-Forwarded-For`, and its key.
* `Collides`: two requests of one user from IPv6 addresses with one text before the first colon.

## Main results

* `key_eq_iff`: the requests that share a counter.
* `check_unchanged_iff`: other requests leave `Check` alone exactly when none of them collides.
-/

namespace OpenvpnControl.Limiter

/-- The address of a peer. -/
inductive Peer where
  | v4 (a b c d : Fin 256)
  | v6 (groups : Vector (Fin 65536) 8)
  deriving DecidableEq

/-! ### The texts of addresses -/

/-- A group of an IPv6 address. -/
def hex (n : ℕ) : String := String.ofList (Nat.toDigits 16 n)

/-- The zero groups from a position on. -/
def zeros (groups : List ℕ) (i : ℕ) : ℕ := ((groups.drop i).takeWhile (· = 0)).length

/-- The first of the longest runs of two zero groups or more, as its beginning and its length. -/
def zeroRun (groups : List ℕ) : Option (ℕ × ℕ) :=
  (List.range groups.length).foldl (fun best i =>
    if 2 ≤ zeros groups i ∧ best.elim 0 Prod.snd < zeros groups i then some (i, zeros groups i)
      else best) none

/-- The text of an IPv6 address: the zero run is written as two colons. -/
def ipv6Text (groups : List ℕ) : String :=
  match zeroRun groups with
  | none => ":".intercalate (groups.map hex)
  | some (i, l) => ":".intercalate ((groups.take i).map hex) ++ "::" ++
      ":".intercalate ((groups.drop (i + l)).map hex)

namespace Peer

/-- The text of an address. -/
def text : Peer → String
  | v4 a b c d => Nat.repr a ++ "." ++ (Nat.repr b ++ "." ++ (Nat.repr c ++ "." ++ Nat.repr d))
  | v6 groups => ipv6Text (groups.toList.map Fin.val)

/-- The text before the first colon. -/
def head (p : Peer) : String := String.ofList (p.text.toList.takeWhile (· ≠ ':'))

/-- Is it an IPv6 address? -/
def isV6 : Peer → Bool
  | v4 .. => false
  | v6 _ => true

end Peer

/-- The field `RemoteAddr` of a request. -/
def remoteAddr (p : Peer) (port : ℕ) : String :=
  match p with
  | .v4 .. => p.text ++ ":" ++ Nat.repr port
  | .v6 _ => "[" ++ p.text ++ "]:" ++ Nat.repr port

/-- A login request without `X-Forwarded-For`. -/
structure Attempt where
  peer : Peer
  port : ℕ
  username : String
  deriving DecidableEq

namespace Attempt

/-- The trimmed lower-cased username. -/
def user (r : Attempt) : String := GoStrings.toLower (GoStrings.trimSpace r.username)

/-- The key of the request. -/
def key (r : Attempt) : String := loginKey (clientIP ⟨"", remoteAddr r.peer r.port⟩) r.username

end Attempt

/-- One user, and IPv6 addresses with one text before the first colon. -/
def Collides (r c : Attempt) : Prop :=
  r.user = c.user ∧ r.peer.isV6 = true ∧ c.peer.isV6 = true ∧ r.peer.head = c.peer.head

instance (r c : Attempt) : Decidable (Collides r c) := inferInstanceAs (Decidable (_ ∧ _))

/-! ### The characters of a text -/

/-- The characters of hexadecimal numbers. -/
def HexChar (c : Char) : Prop := ∃ d < 16, c = Nat.digitChar d

theorem hexChar_of_mem_toDigits {b n : ℕ} (hb : 1 < b) (hle : b ≤ 16) {c : Char}
    (h : c ∈ Nat.toDigits b n) : HexChar c := by
  induction n using Nat.strong_induction_on with
  | _ n ih =>
    by_cases hn : n < b
    · rw [Nat.toDigits_of_lt_base hn, List.mem_singleton] at h
      exact ⟨n, by omega, h⟩
    · rw [Nat.toDigits_of_base_le hb (by omega), List.mem_append, List.mem_singleton] at h
      obtain h | h := h
      · exact ih _ (Nat.div_lt_self (by omega) hb) h
      · exact ⟨n % b, (Nat.mod_lt n (by omega)).trans_le hle, h⟩

theorem hexChar_of_mem_hex {n : ℕ} {c : Char} (h : c ∈ (hex n).toList) : HexChar c := by
  rw [hex, String.toList_ofList] at h
  exact hexChar_of_mem_toDigits (by decide) le_rfl h

theorem hexChar_of_mem_repr {n : ℕ} {c : Char} (h : c ∈ (Nat.repr n).toList) : HexChar c := by
  rw [Nat.toList_repr] at h
  exact hexChar_of_mem_toDigits (by decide) (by decide) h

theorem HexChar.ne_colon {c : Char} (h : HexChar c) : c ≠ ':' := by
  obtain ⟨d, hd, rfl⟩ := h
  have hall : ∀ d < 16, Nat.digitChar d ≠ ':' := by decide
  exact hall d hd

theorem HexChar.lowerRune {c : Char} (h : HexChar c) : GoStrings.lowerRune c = c := by
  obtain ⟨d, hd, rfl⟩ := h
  have hall : ∀ d < 16, GoStrings.lowerRune (Nat.digitChar d) = Nat.digitChar d := by decide
  exact hall d hd

/-- The characters of the text of an IPv4 address. -/
theorem mem_text_v4 {a b c d : Fin 256} {x : Char} (h : x ∈ (Peer.v4 a b c d).text.toList) :
    HexChar x ∨ x = '.' := by
  simp only [Peer.text, String.toList_append, List.mem_append] at h
  obtain (h | h) | (h | h) | (h | h) | h := h
  · exact Or.inl (hexChar_of_mem_repr h)
  · exact Or.inr (by simpa using h)
  · exact Or.inl (hexChar_of_mem_repr h)
  · exact Or.inr (by simpa using h)
  · exact Or.inl (hexChar_of_mem_repr h)
  · exact Or.inr (by simpa using h)
  · exact Or.inl (hexChar_of_mem_repr h)

/-- The characters of the text of an IPv6 address. -/
theorem mem_ipv6Text {groups : List ℕ} {x : Char} (h : x ∈ (ipv6Text groups).toList) :
    HexChar x ∨ x = ':' := by
  have hjoined : ∀ {l : List ℕ}, x ∈ (":".intercalate (l.map hex)).toList →
      HexChar x ∨ x = ':' := by
    intro l hx
    obtain hx | ⟨piece, hpiece, hx⟩ := @GoStrings.mem_intercalate _ ':' _ hx
    · exact Or.inr hx
    · obtain ⟨n, -, rfl⟩ := List.mem_map.1 hpiece
      exact Or.inl (hexChar_of_mem_hex hx)
  rw [ipv6Text] at h
  split at h
  · exact hjoined h
  · simp only [String.toList_append, List.mem_append] at h
    obtain (h | h) | h := h
    · exact hjoined h
    · exact Or.inr (by simpa using h)
    · exact hjoined h

/-- The text of an IPv6 address has a colon. -/
theorem colon_mem_ipv6Text {groups : List ℕ} (h : 2 ≤ groups.length) :
    ':' ∈ (ipv6Text groups).toList := by
  rw [ipv6Text]
  split
  · obtain ⟨a, b, l, rfl⟩ : ∃ a b l, groups = a :: b :: l := by
      match groups, h with
      | a :: b :: l, _ => exact ⟨a, b, l, rfl⟩
    rw [List.map_cons, String.intercalate_cons_of_ne_nil (by simp)]
    simp [String.toList_append]
  · simp [String.toList_append]

/-! ### The part of an address that counts -/

namespace Peer

/-- What `ClientIP` keeps of an address. -/
def host (p : Peer) : String := if p.isV6 then "[" ++ p.head else p.text

theorem host_v6 (groups : Vector (Fin 65536) 8) : (v6 groups).host = "[" ++ (v6 groups).head := rfl

theorem text_v6 (groups : Vector (Fin 65536) 8) :
    (v6 groups).text = ipv6Text (groups.toList.map Fin.val) := rfl

theorem mem_host {p : Peer} {x : Char} (h : x ∈ p.host.toList) : HexChar x ∨ x = '.' ∨ x = '[' := by
  cases p with
  | v4 a b c d => exact (mem_text_v4 h).imp_right Or.inl
  | v6 groups =>
    rw [host_v6, String.toList_append, List.mem_append] at h
    obtain h | h := h
    · exact Or.inr (Or.inr (by simpa using h))
    · rw [head, String.toList_ofList, text_v6] at h
      generalize htext : ipv6Text _ = text at h
      have hmem : x ∈ text.toList := (List.takeWhile_sublist _).subset h
      have hne : x ≠ ':' := by simpa using List.mem_takeWhile_imp h
      rw [← htext] at hmem
      exact Or.inl ((mem_ipv6Text hmem).resolve_right hne)

theorem colon_not_mem_host (p : Peer) : ':' ∉ p.host.toList := fun h => by
  obtain h | h | h := mem_host h
  · exact h.ne_colon rfl
  · exact absurd h (by decide)
  · exact absurd h (by decide)

/-- The part that counts is in lower case. -/
theorem toLower_host (p : Peer) : GoStrings.toLower p.host = p.host := by
  rw [GoStrings.toLower, List.map_congr_left (g := id) fun x hx => ?_,
    List.map_id, String.ofList_toList]
  obtain h | rfl | rfl := mem_host hx
  · exact h.lowerRune
  · rfl
  · rfl

/-- An IPv4 address is its text. -/
theorem text_v4_inj {a b c d a' b' c' d' : Fin 256}
    (h : (v4 a b c d).text = (v4 a' b' c' d').text) :
    v4 a b c d = v4 a' b' c' d' := by
  have hdot : ∀ n : ℕ, '.' ∉ (Nat.repr n).toList := fun n hmem => by
    have hall : ∀ e < 16, '.' ≠ Nat.digitChar e := by decide
    obtain ⟨e, he, heq⟩ := hexChar_of_mem_repr hmem
    exact hall e he heq
  have hrepr : ∀ {m n : Fin 256}, (Nat.repr m).toList = (Nat.repr n).toList → m = n := fun h =>
    Fin.ext (GoStrings.repr_inj.1 (String.toList_inj.1 h))
  have hlist := congrArg String.toList h
  simp only [text, String.toList_append] at hlist
  obtain ⟨ha, hlist⟩ := GoStrings.append_cons_inj (hdot a) (hdot a') (by simpa using hlist)
  obtain ⟨hb, hlist⟩ := GoStrings.append_cons_inj (hdot b) (hdot b') (by simpa using hlist)
  obtain ⟨hc, hd⟩ := GoStrings.append_cons_inj (hdot c) (hdot c') (by simpa using hlist)
  have hd : (Nat.repr d).toList = (Nat.repr d').toList := by simpa using hd
  rw [hrepr ha, hrepr hb, hrepr hc, hrepr hd]

/-- **The addresses that the limiter does not tell apart.** -/
theorem host_eq_iff {p q : Peer} : p.host = q.host ↔
    p = q ∨ p.isV6 = true ∧ q.isV6 = true ∧ p.head = q.head := by
  have hbracket : ∀ {a b c d groups}, (v4 a b c d).host ≠ (v6 groups).host :=
    fun {a b c d groups} h => by
    have hmem : '[' ∈ (v4 a b c d).text.toList := by
      change '[' ∈ (v4 a b c d).host.toList
      rw [h, host_v6, String.toList_append]
      exact List.mem_append_left _ (by decide)
    have hall : ∀ e < 16, '[' ≠ Nat.digitChar e := by decide
    obtain ⟨e, he, heq⟩ | hx := mem_text_v4 hmem
    · exact hall e he heq
    · exact absurd hx (by decide)
  cases p with
  | v4 a b c d =>
    cases q with
    | v4 a' b' c' d' => exact ⟨fun h => Or.inl (text_v4_inj h),
      fun h => h.elim (congrArg host) nofun⟩
    | v6 groups => exact iff_of_false hbracket (by simp [isV6])
  | v6 groups =>
    cases q with
    | v4 a b c d => exact iff_of_false hbracket.symm (by simp [isV6])
    | v6 groups' =>
      rw [host_v6, host_v6, String.append_right_inj]
      exact ⟨fun h => Or.inr ⟨rfl, rfl, h⟩, fun h => h.elim (congrArg head) fun h => h.2.2⟩

end Peer

theorem takeWhile_append_cons {a b : List Char} (h : ':' ∉ a) :
    (a ++ ':' :: b).takeWhile (· ≠ ':') = a := by
  rw [List.takeWhile_append_of_pos fun x hx => by simpa using ne_of_mem_of_not_mem hx h,
    List.takeWhile_cons_of_neg (by simp), List.append_nil]

/-- `ClientIP` keeps that part, whatever the port. -/
theorem clientIP_remoteAddr (p : Peer) (port : ℕ) : clientIP ⟨"", remoteAddr p port⟩ = p.host := by
  have hcut : (remoteAddr p port).toList.takeWhile (· ≠ ':') = p.host.toList := by
    cases p with
    | v4 a b c d =>
      have haddr : (remoteAddr (.v4 a b c d) port).toList =
          (Peer.v4 a b c d).host.toList ++ ':' :: (Nat.repr port).toList := by
        simp [remoteAddr, Peer.host, Peer.isV6, String.toList_append]
      rw [haddr, takeWhile_append_cons (Peer.colon_not_mem_host _)]
    | v6 groups =>
      have hmem : ':' ∈ (Peer.v6 groups).text.toList := colon_mem_ipv6Text (by simp)
      generalize htext : (Peer.v6 groups).text.toList = text at hmem
      have haddr : (remoteAddr (.v6 groups) port).toList =
          '[' :: (text ++ (']' :: ':' :: (Nat.repr port).toList)) := by
        simp [remoteAddr, String.toList_append, htext]
      have hhost : (Peer.v6 groups).host.toList = '[' :: text.takeWhile (· ≠ ':') := by
        simp [Peer.host_v6, Peer.head, htext, String.toList_append]
      have hlen : (text.takeWhile (· ≠ ':')).length ≠ text.length := fun hlen => by
        have hall := List.takeWhile_eq_self_iff.1 ((List.takeWhile_sublist _).eq_of_length hlen)
        simpa using hall _ hmem
      rw [haddr, hhost, List.takeWhile_cons_of_pos (by decide), List.takeWhile_append, if_neg hlen]
  have hne : p.host ≠ "" := by
    cases p with
    | v4 a b c d =>
      refine fun h => absurd (congrArg String.toList h) ?_
      simp [Peer.host, Peer.isV6, Peer.text, String.toList_append]
    | v6 groups =>
      refine fun h => absurd (congrArg String.toList h) ?_
      simp [Peer.host_v6, String.toList_append]
  rw [clientIP, if_neg (fun h => h rfl), hcut, String.ofList_toList, if_pos hne]

/-- **The requests that share a counter.** -/
theorem key_eq_iff {r c : Attempt} : r.key = c.key ↔ r.user = c.user ∧
    r.peer = c.peer ∨ Collides r c := by
  have hcolon : ∀ {a b u v : String}, ':' ∉ a.toList → ':' ∉ b.toList →
      (a ++ ":" ++ u = b ++ ":" ++ v ↔ a = b ∧ u = v) := by
    intro a b u v ha hb
    refine ⟨fun h => ?_, fun ⟨h, h'⟩ => h ▸ h' ▸ rfl⟩
    have hlist : a.toList ++ ':' :: u.toList = b.toList ++ ':' :: v.toList := by
      simpa [String.toList_append] using congrArg String.toList h
    obtain ⟨h, h'⟩ := GoStrings.append_cons_inj ha hb hlist
    exact ⟨String.toList_inj.1 h, String.toList_inj.1 h'⟩
  have hkey : ∀ r : Attempt, r.key = r.peer.host ++ ":" ++ r.user := fun r => by
    rw [Attempt.key, loginKey, clientIP_remoteAddr, Peer.toLower_host, Attempt.user]
  rw [hkey, hkey, hcolon (Peer.colon_not_mem_host _) (Peer.colon_not_mem_host _), Peer.host_eq_iff,
    or_and_right, and_comm, Collides, and_comm (b := r.user = c.user)]

/-! ### Failures of other requests -/

variable {m : GoMap LoginState} {k : String} {now max lock : ℤ}

/-- Failures of other keys leave a key alone. -/
theorem lookup_foldl_fail {calls : List (Attempt × ℤ)} (h : ∀ c ∈ calls, c.1.key ≠ k) :
    (calls.foldl (fun m c => fail max lock m c.1.key c.2) m).lookup k = m.lookup k := by
  induction calls generalizing m with
  | nil => rfl
  | cons c calls ih =>
    obtain ⟨hc, hcalls⟩ := List.forall_mem_cons.1 h
    rw [List.foldl_cons, ih hcalls, lookup_fail_of_ne (Ne.symm hc)]

/-- Failures at time zero of a key whose failures have reached the limit set the end of its lock. -/
theorem lookup_foldl_fail_zero {calls : List (Attempt × ℤ)} (hzero : ∀ c ∈ calls, c.2 = 0)
    {s : LoginState} (hs : m.lookup k = some s) (hmax : max ≤ s.failures)
    (hcall : ∃ c ∈ calls, c.1.key = k) :
    ((calls.foldl (fun m c => fail max lock m c.1.key c.2) m).lookup k).map LoginState.lockedUntil =
      some (milliseconds lock) := by
  suffices ∀ (calls : List (Attempt × ℤ)) (m : GoMap LoginState) (s : LoginState),
      (∀ c ∈ calls, c.2 = 0) → m.lookup k = some s → max ≤ s.failures →
      (s.lockedUntil = milliseconds lock ∨ ∃ c ∈ calls, c.1.key = k) →
      ((calls.foldl (fun m c => fail max lock m c.1.key c.2) m).lookup k).map
      LoginState.lockedUntil =
        some (milliseconds lock) from this calls m s hzero hs hmax (Or.inr hcall)
  intro calls
  induction calls with
  | nil =>
    intro m s _ hs _ h
    obtain h | ⟨c, hc, -⟩ := h
    · rw [List.foldl_nil, hs, Option.map_some, h]
    · exact absurd hc List.not_mem_nil
  | cons c calls ih =>
    intro m s hzero hs hmax h
    obtain ⟨hc, hcalls⟩ := List.forall_mem_cons.1 hzero
    rw [List.foldl_cons]
    by_cases hkey : c.1.key = k
    · -- the lock is set, and later failures set it again
      refine ih _ ⟨s.failures + 1, milliseconds lock⟩ hcalls ?_ (by push_cast; omega) (Or.inl rfl)
      rw [hkey, fail, GoMap.lookup_insert_eq, if_pos rfl, hs, hc]
      have hlimit : max ≤ ((s.failures + 1 : ℕ) : ℤ) := by
        push_cast
        omega
      simp only [Option.getD_some, if_pos hlimit]
      simp [unixMilli]
    · refine ih _ s hcalls ?_ hmax (h.imp_right ?_)
      · rw [lookup_fail_of_ne (Ne.symm hkey), hs]
      · rintro ⟨d, hd, hkd⟩
        exact ⟨d, (List.mem_cons.1 hd).resolve_left fun heq => hkey (heq ▸ hkd), hkd⟩

/-- Failures of the same key can be seen. -/
theorem exists_check_ne {r : Attempt} {calls : List Attempt} (hcall : ∃ c ∈ calls, c.key = r.key)
    (max lock : ℤ) : ∃ (m : GoMap LoginState) (timed : List (Attempt × ℤ)),
      timed.map Prod.fst = calls ∧
      check (timed.foldl (fun m c => fail max lock m c.1.key c.2) m) r.key 0 ≠ check m r.key 0 := by
  -- a state that differs from the one after the failures in whether the key is locked
  let before : LoginState := ⟨max.toNat, if 0 < milliseconds lock then 0 else 1⟩
  let m : GoMap LoginState := (∅ : GoMap LoginState).insert r.key before
  have hm : m.lookup r.key = some before := by rw [GoMap.lookup_insert_eq, if_pos rfl]
  refine ⟨m, calls.map (·, 0), by simp [Function.comp_def], ?_⟩
  have hafter := @lookup_foldl_fail_zero m r.key max lock (calls.map (·, 0)) (by simp) before hm
    (Int.self_le_toNat max) (by simpa using hcall)
  obtain ⟨s, hs, hlocked⟩ := Option.map_eq_some_iff.1 hafter
  have hzero : unixMilli 0 = 0 := rfl
  rw [check, check, hs, hm]
  simp only [hlocked, hzero, before]
  by_cases hlock : 0 < milliseconds lock
  · rw [if_pos hlock, if_pos hlock, if_neg (lt_irrefl 0)]
    exact Option.some_ne_none _
  · rw [if_neg hlock, if_neg hlock, if_pos one_pos]
    exact (Option.some_ne_none _).symm

/-- **Failures of other requests.** They leave the result of `Check` alone, whatever the state of
the limiter and the times, exactly when none of them collides; requests of one user from one address
share a counter. -/
theorem check_unchanged_iff (max lock : ℤ) (r : Attempt) (calls : List Attempt)
    (hother : ∀ c ∈ calls, ¬(r.user = c.user ∧ r.peer = c.peer)) :
    ((∀ (m : GoMap LoginState) (timed : List (Attempt × ℤ)) (now : ℤ), timed.map Prod.fst = calls →
        check (timed.foldl (fun m c => fail max lock m c.1.key c.2) m) r.key now =
        check m r.key now) ∧
      ∀ c : Attempt, r.user = c.user → r.peer = c.peer → r.key = c.key) ↔
      ∀ c ∈ calls, ¬Collides r c := by
  have hkey : ∀ c ∈ calls, r.key = c.key ↔ Collides r c := fun c hc => by
    rw [key_eq_iff]
    exact ⟨fun h => h.resolve_left (hother c hc), Or.inr⟩
  constructor
  · rintro ⟨h, -⟩ c hc hcollides
    obtain ⟨m, timed, hcalls, hne⟩ :=
      exists_check_ne ⟨c, hc, ((hkey c hc).2 hcollides).symm⟩ max lock
    exact hne (h m timed 0 hcalls)
  · refine fun h => ⟨fun m timed now hcalls => ?_, fun c huser hpeer =>
      key_eq_iff.2 (Or.inl ⟨huser, hpeer⟩)⟩
    have hlookup := @lookup_foldl_fail m r.key max lock timed fun c hc heq => by
      have hmem : c.1 ∈ calls := hcalls ▸ List.mem_map_of_mem hc
      exact h c.1 hmem ((hkey c.1 hmem).1 heq.symm)
    rw [check, check, hlookup]

/-- Another user's failure from the same address. -/
theorem check_unchanged_iff_otherUser :
    ((∀ (m : GoMap LoginState) (timed : List (Attempt × ℤ)) (now : ℤ),
        timed.map Prod.fst = [⟨.v4 10 0 0 1, 50000, "bob"⟩] →
        check (timed.foldl (fun m c => fail 5 1000000000 m c.1.key c.2) m)
            (Attempt.mk (.v4 10 0 0 1) 40000 "alice").key now =
          check m (Attempt.mk (.v4 10 0 0 1) 40000 "alice").key now) ∧
      ∀ c : Attempt, (Attempt.mk (.v4 10 0 0 1) 40000 "alice").user =
        c.user → .v4 10 0 0 1 = c.peer → (Attempt.mk (.v4 10 0 0 1) 40000 "alice").key = c.key) ↔
      ∀ c ∈ [(⟨.v4 10 0 0 1, 50000, "bob"⟩ : Attempt)],
      ¬Collides ⟨.v4 10 0 0 1, 40000, "alice"⟩ c :=
  check_unchanged_iff 5 1000000000 ⟨.v4 10 0 0 1, 40000, "alice"⟩ [⟨.v4 10 0 0 1, 50000, "bob"⟩]
    (by decide +kernel)

/-- Two addresses that begin with the same group. -/
theorem check_changed :
    ¬∀ (max lock : ℤ) (r : Attempt) (calls : List Attempt),
      (∀ c ∈ calls, ¬(r.user = c.user ∧ r.peer = c.peer)) →
      (∀ (m : GoMap LoginState) (timed : List (Attempt × ℤ)) (now : ℤ), timed.map Prod.fst = calls →
        check (timed.foldl (fun m c => fail max lock m c.1.key c.2) m) r.key now =
        check m r.key now) ∧
      ∀ c : Attempt, r.user = c.user → r.peer = c.peer → r.key = c.key := by
  intro h
  let r : Attempt := ⟨.v6 #v[0x2001, 0xdb8, 0, 0, 0, 0, 0, 1], 443, "admin"⟩
  let c : Attempt := ⟨.v6 #v[0x2001, 0xdb8, 1, 0, 0, 0, 0, 2], 443, "admin"⟩
  have hkey : c.key = r.key := (key_eq_iff.2 (Or.inr (by decide +kernel))).symm
  obtain ⟨m, timed, hcalls, hne⟩ :=
    @exists_check_ne r [c] ⟨c, List.mem_singleton_self c, hkey⟩ 1 1000000000
  exact hne ((h 1 1000000000 r [c] (by decide +kernel)).1 m timed 0 hcalls)

end OpenvpnControl.Limiter
