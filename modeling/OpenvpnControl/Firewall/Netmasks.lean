import OpenvpnControl.Firewall.TunnelContexts

/-!
# The netmasks that panel and agent accept

The packages `panel` and `agentsnapshot` each turn a dotted netmask into a prefix length. Neither
accepts the netmasks alone: the panel reads signs, and the agent reads an octet without digits and
one that wraps around in 64 bits. This file determines the texts that both read as the netmask they
are.

## Main definitions

* `IsMask`: four octets, in a given reading, that are ones and then zeros.
* `IsOctet`, `SignedOctet`, `WrappedOctet`: the octets of a netmask, of the panel and of the agent.
* `ReadsNetmasks`: a parser accepts a text exactly when it is a netmask.

## Main results

* `maskPrefix_packOctets_iff`: the loop that shifts ones out counts them.
* `panel_isMask_iff`, `agent_isMask_iff`: what the parsers accept.
* `netmasks_iff`: the texts on which both accept the netmasks alone.
-/

namespace OpenvpnControl.Firewall

/-- An octet of a netmask: a decimal number from 0 to 255 without a sign. -/
structure IsOctet (part : String) (n : ℕ) : Prop where
  nonempty : part ≠ ""
  value : GoStrings.decimal 0 part.toList = some n
  le : n ≤ 255

/-- The text is four octets between dots, whose 32 bits are `p` ones and then zeros. -/
def IsMask (octet : String → ℕ → Prop) (m : String) (p : ℕ) : Prop :=
  ∃ w x y z a b c d, GoStrings.split m '.' = [w, x, y, z] ∧
    octet w a ∧ octet x b ∧ octet y c ∧ octet z d ∧
    p ≤ 32 ∧ a * 2 ^ 24 + b * 2 ^ 16 + c * 2 ^ 8 + d = 2 ^ 32 - 2 ^ (32 - p)

/-- A number from 0 to 255 that may have a sign. -/
def SignedOctet (part : String) (n : ℕ) : Prop :=
  n ≤ 255 ∧ ∃ digits ≠ [], GoStrings.decimal 0 digits = some n ∧
    (part.toList = digits ∨ part.toList = '+' :: digits ∨ part.toList = '-' :: digits ∧ n = 0)

/-- Digits, possibly none, whose value is a number from 0 to 255 modulo `2 ^ 64`. -/
def WrappedOctet (part : String) (n : ℕ) : Prop :=
  n ≤ 255 ∧ ∃ k, GoStrings.decimal 0 part.toList = some k ∧ k % 2 ^ 64 = n

/-- The parser finds a prefix length exactly in the netmask that has it. -/
def ReadsNetmasks (netmaskDottedToPrefix : String → Option ℕ) (m : String) : Prop :=
  ∀ p, netmaskDottedToPrefix m = some p ↔ IsMask IsOctet m p

/-! ### The loop -/

/-- One more leading one halves what is missing to `2 ^ 32`. -/
theorem exists_pow_mask {j : ℕ} (hj : j < 32) :
    ∃ q, 2 ^ (32 - (j + 1)) = q ∧ 2 ^ (32 - j) = 2 * q ∧ 1 ≤ q ∧ q ≤ 2 ^ 31 := by
  refine ⟨_, rfl, ?_, Nat.one_le_two_pow, Nat.pow_le_pow_right (by decide) (by omega)⟩
  rw [← pow_succ', show 32 - (j + 1) + 1 = 32 - j by omega]

/-- The loop ends with no bits left after as many rounds as the mask has ones. -/
theorem shiftOnes_eq_zero_iff {fuel pref p : ℕ} {v : BitVec 32} (hfuel : fuel ≤ 32) :
    shiftOnes fuel pref v = (p, 0) ↔ ∃ j ≤ fuel, p = pref + j ∧
    v.toNat = 2 ^ 32 - 2 ^ (32 - j) := by
  induction fuel generalizing pref v with
  | zero =>
    rw [shiftOnes, Prod.mk.injEq]
    constructor
    · rintro ⟨rfl, rfl⟩
      exact ⟨0, le_rfl, rfl, rfl⟩
    · rintro ⟨j, hj, rfl, hv⟩
      obtain rfl : j = 0 := Nat.le_zero.1 hj
      exact ⟨rfl, BitVec.eq_of_toNat_eq hv⟩
  | succ fuel ih =>
    rw [shiftOnes]
    have hlt := v.isLt
    split_ifs with hmsb
    · have hhigh : 2 ^ 31 ≤ v.toNat := by simpa [BitVec.msb_eq_decide] using hmsb
      have hshift : (v <<< 1).toNat = 2 * v.toNat - 2 ^ 32 := by
        rw [BitVec.toNat_shiftLeft, Nat.shiftLeft_eq]
        omega
      rw [ih (by omega), hshift]
      constructor
      · rintro ⟨j, hj, rfl, hv⟩
        obtain ⟨q, hq, hpow, hone, hle⟩ := exists_pow_mask (show j < 32 by omega)
        refine ⟨j + 1, by omega, by omega, ?_⟩
        rw [hpow] at hv
        rw [hq]
        omega
      · rintro ⟨_ | j, hj, rfl, hv⟩
        · rw [Nat.sub_zero, Nat.sub_self] at hv
          omega
        · obtain ⟨q, hq, hpow, hone, hle⟩ := exists_pow_mask (show j < 32 by omega)
          refine ⟨j, by omega, by omega, ?_⟩
          rw [hq] at hv
          rw [hpow]
          omega
    · have hlow : v.toNat < 2 ^ 31 := by simpa [BitVec.msb_eq_decide] using hmsb
      rw [Prod.mk.injEq]
      constructor
      · rintro ⟨rfl, rfl⟩
        exact ⟨0, Nat.zero_le _, rfl, rfl⟩
      · rintro ⟨_ | j, hj, rfl, hv⟩
        · exact ⟨rfl, BitVec.eq_of_toNat_eq hv⟩
        · obtain ⟨q, hq, hpow, hone, hle⟩ := exists_pow_mask (show j < 32 by omega)
          rw [hq] at hv
          omega

/-- The bits of four octets are a number in base 256. -/
theorem toNat_packOctets {a b c d : ℕ} (ha : a ≤ 255) (hb : b ≤ 255) (hc : c ≤ 255) (hd : d ≤ 255) :
    (packOctets a b c d).toNat = a * 2 ^ 24 + b * 2 ^ 16 + c * 2 ^ 8 + d := by
  have hab : a <<< 24 ||| b <<< 16 = (a * 2 ^ 8 + b) <<< 16 := by
    rw [← Nat.shiftLeft_add_eq_or_of_lt (by rw [Nat.shiftLeft_eq]; omega)]
    simp only [Nat.shiftLeft_eq]
    omega
  have habc : (a * 2 ^ 8 + b) <<< 16 ||| c <<< 8 = ((a * 2 ^ 8 + b) * 2 ^ 8 + c) <<< 8 := by
    rw [← Nat.shiftLeft_add_eq_or_of_lt (by rw [Nat.shiftLeft_eq]; omega)]
    simp only [Nat.shiftLeft_eq]
    omega
  rw [packOctets, hab, habc, ← Nat.shiftLeft_add_eq_or_of_lt (by omega), BitVec.toNat_ofNat,
    Nat.shiftLeft_eq]
  omega

/-- The prefix length of four octets is the number of their leading ones. -/
theorem maskPrefix_packOctets_iff {a b c d p : ℕ} (ha : a ≤ 255) (hb : b ≤ 255) (hc : c ≤ 255)
    (hd : d ≤ 255) : maskPrefix (packOctets a b c d) = some p ↔
      p ≤ 32 ∧ a * 2 ^ 24 + b * 2 ^ 16 + c * 2 ^ 8 + d = 2 ^ 32 - 2 ^ (32 - p) := by
  rw [← toNat_packOctets ha hb hc hd]
  generalize packOctets a b c d = v
  have hloop := @shiftOnes_eq_zero_iff 32 0 p v le_rfl
  rw [maskPrefix]
  generalize shiftOnes 32 0 v = r at hloop ⊢
  obtain ⟨pref, rest⟩ := r
  have hiff : (if rest = 0 then some pref else none) = some p ↔ (pref, rest) = (p, 0) := by
    rw [Prod.mk.injEq]
    split_ifs with h
    · rw [Option.some.injEq, and_iff_left h]
    · exact iff_of_false (by simp) fun h' => h h'.2
  rw [hiff, hloop]
  constructor
  · rintro ⟨j, hj, rfl, hv⟩
    rw [Nat.zero_add]
    exact ⟨hj, hv⟩
  · rintro ⟨hp, hv⟩
    exact ⟨p, hp, (Nat.zero_add p).symm, hv⟩

/-! ### The octets -/

/-- An octet of the panel. -/
theorem atoi_octet_iff {part : String} {n : ℕ} :
    (GoStrings.atoi part).bind octetOf = some n ↔ SignedOctet part n := by
  have hsigned (sign : ℤ) (digits : List Char) :
      ((if digits = [] then none else (GoStrings.decimal 0 digits).bind fun m =>
        if -9223372036854775808 ≤ sign * (m : ℤ) ∧ sign * (m : ℤ) < 9223372036854775808
        then some (sign * (m : ℤ)) else none).bind octetOf = some n) ↔
      n ≤ 255 ∧ digits ≠ [] ∧ ∃ m : ℕ, GoStrings.decimal 0 digits = some m ∧
      sign * (m : ℤ) = n := by
    split_ifs with hne
    · simp [hne]
    · rw [Option.bind_assoc]
      simp only [Option.bind_eq_some_iff, ne_eq, hne, not_false_eq_true, true_and]
      constructor
      · rintro ⟨m, hm, z, hz, hn⟩
        split_ifs at hz
        obtain rfl := Option.some.inj hz
        obtain ⟨hn, hle⟩ := octetOf_eq_some_iff.1 hn
        exact ⟨hle, m, hm, hn⟩
      · rintro ⟨hle, m, hm, hn⟩
        exact ⟨m, hm, n, by rw [hn, if_pos (by omega)], octetOf_eq_some_iff.2 ⟨rfl, hle⟩⟩
  have hnot {c : Char} {l : List Char} (hc : c.isDigit = false) : GoStrings.decimal
      0 (c :: l) ≠ some n := by
    simp [GoStrings.decimal, hc]
  simp only [GoStrings.atoi, SignedOctet]
  split
  · next l hl =>
    rw [hsigned, hl]
    refine and_congr_right fun _ => ⟨?_, ?_⟩
    · rintro ⟨hne, m, hm, hn⟩
      obtain rfl : m = n := by omega
      exact ⟨l, hne, hm, Or.inr (Or.inl rfl)⟩
    · rintro ⟨digits, hne, hm, rfl | heq | ⟨heq, -⟩⟩
      · exact absurd hm (hnot (by decide))
      · obtain rfl := (List.cons.inj heq).2
        exact ⟨hne, n, hm, one_mul _⟩
      · exact absurd (List.cons.inj heq).1 (by decide)
  · next l hl =>
    rw [hsigned, hl]
    refine and_congr_right fun _ => ⟨?_, ?_⟩
    · rintro ⟨hne, m, hm, hn⟩
      obtain ⟨rfl, rfl⟩ : m = 0 ∧ n = 0 := by omega
      exact ⟨l, hne, hm, Or.inr (Or.inr ⟨rfl, rfl⟩)⟩
    · rintro ⟨digits, hne, hm, rfl | heq | ⟨heq, rfl⟩⟩
      · exact absurd hm (hnot (by decide))
      · exact absurd (List.cons.inj heq).1 (by decide)
      · obtain rfl := (List.cons.inj heq).2
        exact ⟨hne, 0, hm, rfl⟩
  · next hplus hminus =>
    rw [hsigned]
    refine and_congr_right fun _ => ⟨?_, ?_⟩
    · rintro ⟨hne, m, hm, hn⟩
      obtain rfl : m = n := by omega
      exact ⟨part.toList, hne, hm, Or.inl rfl⟩
    · rintro ⟨digits, hne, hm, heq | heq | ⟨heq, -⟩⟩
      · rw [heq]
        exact ⟨hne, n, hm, one_mul _⟩
      · exact absurd heq (hplus digits)
      · exact absurd heq (hminus digits)

/-- The wrapping sum of digits is their value modulo `2 ^ 64`. -/
theorem octetValue_eq_bmod {l : List Char} {acc n : ℕ} (h : GoStrings.decimal acc l = some n) :
    Agentsnapshot.octetValue ((acc : ℤ).bmod (2 ^ 64)) l = some ((n : ℤ).bmod (2 ^ 64)) := by
  induction l generalizing acc with
  | nil => rw [Agentsnapshot.octetValue, Option.some.inj h]
  | cons c l ih =>
    rw [GoStrings.decimal] at h
    split_ifs at h with hc
    have hdigit := isDigit_iff.1 hc
    have h48 : 48 ≤ c.toNat := UInt32.le_iff_toNat_le.1 (Char.le_def.1 hdigit.1)
    have hsum : ((acc : ℤ).bmod (2 ^ 64) * 10 + ((c.toNat : ℤ) - 48)).bmod (2 ^ 64) =
        ((10 * acc + (c.toNat - 48) : ℕ) : ℤ).bmod (2 ^ 64) := by
      rw [Int.add_bmod, Int.bmod_mul_bmod, ← Int.add_bmod]
      congr 1
      omega
    rw [Agentsnapshot.octetValue, if_pos hdigit, hsum, ih h]

/-- Digits have a value. -/
theorem exists_decimal {l : List Char} (h : ∀ c ∈ l, c.isDigit = true) (acc : ℕ) :
    ∃ n, GoStrings.decimal acc l = some n := by
  induction l generalizing acc with
  | nil => exact ⟨acc, rfl⟩
  | cons c l ih =>
    rw [List.forall_mem_cons] at h
    rw [GoStrings.decimal, if_pos h.1]
    exact ih h.2 _

/-- An octet of the agent. -/
theorem octetValue_octet_iff {part : String} {n : ℕ} :
    (Agentsnapshot.octetValue 0 part.toList).bind octetOf = some n ↔ WrappedOctet part n := by
  have hvalue {k : ℕ} (hk : GoStrings.decimal 0 part.toList = some k) :
      Agentsnapshot.octetValue 0 part.toList = some ((k : ℤ).bmod (2 ^ 64)) := by
    have h := octetValue_eq_bmod hk
    rwa [Int.natCast_zero, Int.zero_bmod] at h
  have hmod (k : ℕ) : (k : ℤ).bmod (2 ^ 64) = (n : ℤ) ↔
      -(((2 ^ 64 : ℕ) : ℤ) / 2) ≤ n ∧ (n : ℤ) < (((2 ^ 64 : ℕ) : ℤ) + 1) / 2 ∧
        ((2 ^ 64 : ℕ) : ℤ) ∣ (n : ℤ) - k :=
    Int.bmod_eq_iff (by decide)
  constructor
  · intro h
    obtain ⟨z, hz, hn⟩ := Option.bind_eq_some_iff.1 h
    obtain ⟨k, hk⟩ := exists_decimal (isDigit_of_octetValue hz) 0
    obtain ⟨rfl, hle⟩ := octetOf_eq_some_iff.1 hn
    obtain ⟨-, -, hdvd⟩ := (hmod k).1 (Option.some.inj ((hvalue hk).symm.trans hz))
    exact ⟨hle, k, hk, by omega⟩
  · rintro ⟨hle, k, hk, hk'⟩
    rw [hvalue hk, Option.bind_some, octetOf_eq_some_iff, hmod]
    exact ⟨⟨by omega, by omega, by omega⟩, hle⟩

theorem isOctet_iff_signed {part : String} {n : ℕ} :
    IsOctet part n ↔ SignedOctet part n ∧ ∀ c ∈ part.toList, c.isDigit = true := by
  constructor
  · rintro ⟨hne, hvalue, hle⟩
    exact ⟨⟨hle, part.toList, fun h => hne (String.toList_inj.1 h), hvalue, Or.inl rfl⟩,
      isDigit_of_decimal hvalue⟩
  · rintro ⟨⟨hle, digits, hne, hvalue, hpart⟩, hdigits⟩
    obtain heq | heq | ⟨heq, -⟩ := hpart
    · exact ⟨fun h => hne (by rw [← heq, h]; rfl), heq ▸ hvalue, hle⟩
    · exact absurd (hdigits '+' (by rw [heq]; exact List.mem_cons_self)) (by decide)
    · exact absurd (hdigits '-' (by rw [heq]; exact List.mem_cons_self)) (by decide)

theorem isOctet_iff_wrapped {part : String} {n : ℕ} :
    IsOctet part n ↔ WrappedOctet part n ∧ part ≠ "" ∧ ∃ k ≤ 255,
    GoStrings.decimal 0 part.toList = some k := by
  constructor
  · rintro ⟨hne, hvalue, hle⟩
    exact ⟨⟨hle, n, hvalue, Nat.mod_eq_of_lt (by omega)⟩, hne, n, hle, hvalue⟩
  · rintro ⟨⟨hle, k, hk, hmod⟩, hne, k', hle', hk'⟩
    obtain rfl := Option.some.inj (hk.symm.trans hk')
    obtain rfl : k = n := by omega
    exact ⟨hne, hk, hle⟩

/-! ### The parsers -/

/-- A reading of octets has the prefix lengths of its masks. -/
theorem dotted_eq_some_iff {read : String → Option ℤ} {octet : String → ℕ → Prop}
    (hoctet : ∀ part n, (read part).bind octetOf = some n ↔ octet part n) {m : String} {p : ℕ} :
    dotted read m = some p ↔ IsMask octet m p := by
  have hle {part : String} {n : ℕ} (h : octet part n) : n ≤ 255 := by
    obtain ⟨z, -, hz⟩ := Option.bind_eq_some_iff.1 ((hoctet part n).2 h)
    exact (octetOf_eq_some_iff.1 hz).2
  constructor
  · intro h
    rw [dotted] at h
    obtain ⟨v, hv, hmask⟩ := Option.bind_eq_some_iff.1 h
    split at hv
    · next w x y z hsplit =>
      split at hv
      · next a b c d hw hx hy hz =>
        obtain rfl := Option.some.inj hv
        rw [hoctet] at hw hx hy hz
        rw [maskPrefix_packOctets_iff (hle hw) (hle hx) (hle hy) (hle hz)] at hmask
        exact ⟨w, x, y, z, a, b, c, d, hsplit, hw, hx, hy, hz, hmask⟩
      · cases hv
    · cases hv
  · rintro ⟨w, x, y, z, a, b, c, d, hsplit, hw, hx, hy, hz, hmask⟩
    simp only [dotted, hsplit, (hoctet w a).2 hw, (hoctet x b).2 hx, (hoctet y c).2 hy,
      (hoctet z d).2 hz, Option.bind_some]
    exact (maskPrefix_packOctets_iff (hle hw) (hle hx) (hle hy) (hle hz)).2 hmask

/-- **The masks of the panel** are four numbers with signs. -/
theorem panel_isMask_iff {m : String} {p : ℕ} :
    Panel.netmaskDottedToPrefix m = some p ↔ IsMask SignedOctet m p := by
  rw [panel_netmaskDottedToPrefix]
  exact dotted_eq_some_iff fun _ _ => atoi_octet_iff

/-- **The masks of the agent** are four numbers modulo `2 ^ 64`. -/
theorem agent_isMask_iff {m : String} {p : ℕ} :
    Agentsnapshot.netmaskDottedToPrefix m = some p ↔ IsMask WrappedOctet m p := by
  rw [agent_netmaskDottedToPrefix]
  exact dotted_eq_some_iff fun _ _ => octetValue_octet_iff

/-- A reading accepts the netmasks alone where all its octets are plain ones. -/
theorem isMask_iff_isNetmask {octet : String → ℕ → Prop} {plain : String → Prop}
    (hplain : ∀ part n, IsOctet part n ↔ octet part n ∧ plain part) {m : String} :
    (∀ p, IsMask octet m p ↔ IsMask IsOctet m p) ↔
      ((∃ p, IsMask octet m p) → ∀ part ∈ GoStrings.split m '.', plain part) := by
  constructor
  · rintro h ⟨p, hp⟩ part hpart
    obtain ⟨w, x, y, z, a, b, c, d, hsplit, hw, hx, hy, hz, -⟩ := (h p).1 hp
    rw [hsplit] at hpart
    simp only [List.mem_cons, List.not_mem_nil, or_false] at hpart
    obtain rfl | rfl | rfl | rfl := hpart
    · exact ((hplain _ _).1 hw).2
    · exact ((hplain _ _).1 hx).2
    · exact ((hplain _ _).1 hy).2
    · exact ((hplain _ _).1 hz).2
  · intro h p
    constructor
    · intro hp
      have hparts := h ⟨p, hp⟩
      obtain ⟨w, x, y, z, a, b, c, d, hsplit, hw, hx, hy, hz, hmask⟩ := hp
      rw [hsplit] at hparts
      simp only [List.forall_mem_cons] at hparts
      obtain ⟨hpw, hpx, hpy, hpz, -⟩ := hparts
      exact ⟨w, x, y, z, a, b, c, d, hsplit, (hplain _ _).2 ⟨hw, hpw⟩, (hplain _ _).2 ⟨hx, hpx⟩,
        (hplain _ _).2 ⟨hy, hpy⟩, (hplain _ _).2 ⟨hz, hpz⟩, hmask⟩
    · rintro ⟨w, x, y, z, a, b, c, d, hsplit, hw, hx, hy, hz, hmask⟩
      exact ⟨w, x, y, z, a, b, c, d, hsplit, ((hplain _ _).1 hw).1, ((hplain _ _).1 hx).1,
        ((hplain _ _).1 hy).1, ((hplain _ _).1 hz).1, hmask⟩

/-- **The netmasks that both accept.** Panel and agent accept a text exactly when it is a netmask,
unless it is a mask with signs, or one whose runs of digits are empty or out of range. -/
theorem netmasks_iff (m : String) :
    ReadsNetmasks Panel.netmaskDottedToPrefix m ∧
      ReadsNetmasks Agentsnapshot.netmaskDottedToPrefix m ↔ ((∃ p, IsMask SignedOctet m p) →
        ∀ part ∈ GoStrings.split m '.', ∀ c ∈ part.toList, c.isDigit = true) ∧
      ((∃ p, IsMask WrappedOctet m p) →
        ∀ part ∈ GoStrings.split m '.', part ≠ "" ∧ ∃ k ≤ 255,
        GoStrings.decimal 0 part.toList = some k) := by
  refine and_congr ?_ ?_
  · rw [← isMask_iff_isNetmask fun _ _ => isOctet_iff_signed]
    exact forall_congr' fun p => iff_congr panel_isMask_iff Iff.rfl
  · rw [← isMask_iff_isNetmask fun _ _ => isOctet_iff_wrapped]
    exact forall_congr' fun p => iff_congr agent_isMask_iff Iff.rfl

/-- The panel takes a sign, the agent an octet without digits and one that wraps around to 255. -/
theorem not_netmasks :
    ¬∀ m, ReadsNetmasks Panel.netmaskDottedToPrefix m ∧
    ReadsNetmasks Agentsnapshot.netmaskDottedToPrefix m := by
  intro h
  obtain ⟨w, x, y, z, a, b, c, d, hsplit, hw, -⟩ :=
    ((h "+255.255.255.0").1 24).1 (by decide)
  obtain ⟨rfl, -⟩ : w = "+255" ∧ [x, y, z] = ["255", "255", "0"] :=
    List.cons.inj (hsplit.symm.trans (by decide))
  exact absurd (isDigit_of_decimal hw.value '+' (by decide)) (by decide)

end OpenvpnControl.Firewall
