import Mathlib.Algebra.Order.Field.Power
import Mathlib.Algebra.Order.Round
import Mathlib.Data.Int.Log
import Mathlib.Data.Nat.Prime.Basic
import Mathlib.Data.Rat.Floor
import OpenvpnControl.Library.Json

/-!
# Decimals read as float64

A decimal is read as the nearest number with 53 binary digits, and a `float64` is written as the
shortest decimal that reads back as it. Both are rational numbers here; the two zeros are one
number.

## Main definitions

* `JsonNumber.value`, `JsonNumber.ofDecimal`: the number that a decimal is.
* `Float64.nearest`: the nearest `float64`, without the bound on the exponent.
* `Float64.parse`, `Float64.format`: reading and writing.
* `Float64.toInt64`: the conversion to a 64-bit integer.
* `Json.unmarshal`: `json.Unmarshal`.
* `Json.unmarshalDropped`: `json.Unmarshal` whose error is dropped.

## Main results

* `Float64.nearest_intCast`: the integers up to `2 ^ 53` are read as they are.
* `Float64.nearest_format`: what is written is read back.
* `Json.unmarshal_mapLeaves`: a decoded value is decoded as it is.
-/

namespace JsonNumber

/-- The number. -/
def value (n : JsonNumber) : ℚ := (if n.neg then -1 else 1) * n.mant * 10 ^ n.exp

/-- A decimal without the zeros at its end, where `fuel` bounds their number. -/
def stripZeros : ℕ → ℕ → ℤ → ℕ × ℤ
  | 0, mant, exp => (mant, exp)
  | fuel + 1, mant, exp =>
    if mant % 10 = 0 then stripZeros fuel (mant / 10) (exp + 1) else (mant, exp)

theorem stripZeros_mod {fuel mant : ℕ} {exp : ℤ} (hpos : 0 < mant) (hfuel : mant ≤ fuel) :
    (stripZeros fuel mant exp).1 % 10 ≠ 0 := by
  induction fuel generalizing mant exp with
  | zero => omega
  | succ fuel ih =>
    rw [stripZeros]
    split_ifs with h
    · exact ih (by omega) (by omega)
    · exact h

theorem stripZeros_value (fuel mant : ℕ) (exp : ℤ) :
    ((stripZeros fuel mant exp).1 : ℚ) * 10 ^ (stripZeros fuel mant exp).2 = mant * 10 ^ exp := by
  induction fuel generalizing mant exp with
  | zero => rfl
  | succ fuel ih =>
    rw [stripZeros]
    split_ifs with h
    · have hmant : (mant : ℚ) = (mant / 10 : ℕ) * 10 := by
        exact_mod_cast (Nat.div_mul_cancel (Nat.dvd_of_mod_eq_zero h)).symm
      rw [ih, zpow_add_one₀ (by norm_num), hmant]
      ring
    · rfl

/-- The number `± mant · 10 ^ exp`. -/
def ofDecimal (neg : Bool) (mant : ℕ) (exp : ℤ) : JsonNumber :=
  if h : mant = 0 then zero
  else
    { neg := neg
      mant := (stripZeros mant mant exp).1
      exp := (stripZeros mant mant exp).2
      canonical := fun h' => absurd h' (stripZeros_mod (Nat.pos_of_ne_zero h) le_rfl) }

/-- **The number that a decimal is.** -/
@[simp] theorem value_ofDecimal (neg : Bool) (mant : ℕ) (exp : ℤ) :
    (ofDecimal neg mant exp).value = (if neg then -1 else 1) * mant * 10 ^ exp := by
  rw [ofDecimal]
  by_cases h : mant = 0
  · simp [h, zero, value]
  · rw [dif_neg h, value, mul_assoc, stripZeros_value, ← mul_assoc]

/-- An integer. -/
def ofInt (i : ℤ) : JsonNumber := ofDecimal (decide (i < 0)) i.natAbs 0

@[simp] theorem value_ofInt (i : ℤ) : (ofInt i).value = i := by
  rw [ofInt, value_ofDecimal, zpow_zero, mul_one]
  by_cases h : i < 0
  · rw [if_pos (decide_eq_true h)]
    have hi : (i : ℚ) = -(i.natAbs : ℤ) := by exact_mod_cast (by omega : i = -(i.natAbs : ℤ))
    rw [hi, Int.cast_natCast]
    ring
  · rw [if_neg (by simpa using h)]
    have hi : (i : ℚ) = (i.natAbs : ℤ) := by exact_mod_cast (by omega : i = (i.natAbs : ℤ))
    rw [hi, Int.cast_natCast, one_mul]

end JsonNumber

namespace Float64

/-! ### Rounding -/

/-- The nearest integer, and the even one of two. -/
def roundEven (q : ℚ) : ℤ :=
  if q - ⌊q⌋ < 1 / 2 then ⌊q⌋
  else if 1 / 2 < q - ⌊q⌋ then ⌊q⌋ + 1
  else if ⌊q⌋ % 2 = 0 then ⌊q⌋ else ⌊q⌋ + 1

@[simp] theorem roundEven_intCast (i : ℤ) : roundEven i = i := by
  simp [roundEven]

/-- The exponent of the last binary digit that a `float64` next to `q` has. -/
def lastDigit (q : ℚ) : ℤ := max (Int.log 2 |q| - 52) (-1074)

/-- The nearest number with 53 binary digits and the last of them not below `2 ^ -1074`. -/
def nearest (q : ℚ) : ℚ := roundEven (q / 2 ^ lastDigit q) * 2 ^ lastDigit q

/-- A number whose digits end at the last digit of a `float64` is one. -/
theorem nearest_eq_self {q : ℚ} {m : ℤ} (h : q = m * 2 ^ lastDigit q) : nearest q = q := by
  have hpow : (2 : ℚ) ^ lastDigit q ≠ 0 := zpow_ne_zero _ two_ne_zero
  have hdiv : q / 2 ^ lastDigit q = m := by
    rw [div_eq_iff hpow]
    exact h
  rw [nearest, hdiv, roundEven_intCast, ← h]

/-- The last digit of an integer up to `2 ^ 53`. -/
theorem lastDigit_intCast_le {i : ℤ} (hlow : -2 ^ 53 < i) (hhigh : i < 2 ^ 53) :
    lastDigit i ≤ 0 := by
  have hlog : Int.log 2 |(i : ℚ)| < 53 := by
    by_cases h : i = 0
    · simp [h]
    · refine (Int.lt_zpow_iff_log_lt one_lt_two (by positivity)).1 ?_
      have habs : |i| < 2 ^ 53 := abs_lt.2 ⟨hlow, hhigh⟩
      exact_mod_cast habs
  rw [lastDigit]
  omega

/-- **The integers up to `2 ^ 53`** are read as they are. -/
theorem nearest_intCast {i : ℤ} (hlow : -2 ^ 53 < i) (hhigh : i < 2 ^ 53) : nearest i = i := by
  obtain ⟨k, hk⟩ := Int.eq_ofNat_of_zero_le (neg_nonneg.2 (lastDigit_intCast_le hlow hhigh))
  refine nearest_eq_self (m := i * 2 ^ k) ?_
  rw [show lastDigit i = -(k : ℤ) by omega, zpow_neg, zpow_natCast, Int.cast_mul]
  field_simp
  norm_num

/-- An integer is read as an integer. -/
theorem exists_nearest_intCast (i : ℤ) : ∃ j : ℤ, nearest i = j := by
  by_cases h : lastDigit i ≤ 0
  · obtain ⟨k, hk⟩ := Int.eq_ofNat_of_zero_le (neg_nonneg.2 h)
    refine ⟨i, nearest_eq_self (m := i * 2 ^ k) ?_⟩
    rw [show lastDigit i = -(k : ℤ) by omega, zpow_neg, zpow_natCast, Int.cast_mul]
    field_simp
    norm_num
  · obtain ⟨k, hk⟩ := Int.eq_ofNat_of_zero_le (not_le.1 h).le
    exact ⟨roundEven (i / 2 ^ lastDigit i) * 2 ^ k,
      by rw [nearest, hk, zpow_natCast]; push_cast; rfl⟩

/-- Rounding stays on its side of an integer. -/
theorem roundEven_le {q : ℚ} {b : ℤ} (h : q ≤ b) : roundEven q ≤ b := by
  have hfloor : ⌊q⌋ ≤ b := by
    exact_mod_cast (Int.floor_le q).trans h
  rcases hfloor.eq_or_lt with heq | hlt
  · have hq : q = b := le_antisymm h (heq ▸ Int.floor_le q)
    rw [hq, roundEven_intCast]
  · rw [roundEven]
    split_ifs <;> omega

theorem le_roundEven {q : ℚ} {b : ℤ} (h : (b : ℚ) ≤ q) : b ≤ roundEven q := by
  have hfloor : b ≤ ⌊q⌋ := Int.le_floor.2 h
  rw [roundEven]
  split_ifs <;> omega

@[simp] theorem nearest_zero : nearest 0 = 0 := by
  simpa using nearest_eq_self (q := 0) (m := 0) (by simp)

/-- The last digit of a number with 53 binary digits is one of them. -/
theorem lastDigit_mul_zpow_le {m e : ℤ} (hm : |m| < 2 ^ 53) (hne : m ≠ 0) (he : -1074 ≤ e) :
    lastDigit (m * 2 ^ e) ≤ e := by
  have hlog : Int.log 2 |(m : ℚ) * 2 ^ e| < 53 + e := by
    refine (Int.lt_zpow_iff_log_lt one_lt_two (by positivity)).1 ?_
    have habs : |(m : ℚ)| < 2 ^ 53 := by exact_mod_cast hm
    have hpow : (0 : ℚ) < 2 ^ e := by positivity
    rw [abs_mul, abs_of_pos hpow, Nat.cast_ofNat, zpow_add₀ two_ne_zero]
    exact mul_lt_mul_of_pos_right (by simpa using habs) hpow
  rw [lastDigit]
  omega

/-- A number with 53 binary digits is a `float64`. -/
theorem nearest_mul_zpow {m e : ℤ} (hm : |m| < 2 ^ 53) (he : -1074 ≤ e) :
    nearest (m * 2 ^ e) = m * 2 ^ e := by
  by_cases hne : m = 0
  · simp [hne]
  obtain ⟨k, hk⟩ := Int.eq_ofNat_of_zero_le (sub_nonneg.2 (lastDigit_mul_zpow_le hm hne he))
  refine nearest_eq_self (m := m * 2 ^ k) ?_
  have he' : (k : ℤ) + lastDigit (m * 2 ^ e) = e := by omega
  rw [Int.cast_mul, mul_assoc, Int.cast_pow, Int.cast_ofNat, ← zpow_natCast,
    ← zpow_add₀ two_ne_zero, he']

/-- The digits that are left when a number is rounded. -/
theorem abs_roundEven_le (q : ℚ) : |roundEven (q / 2 ^ lastDigit q)| ≤ 2 ^ 53 := by
  have hpow : (0 : ℚ) < 2 ^ lastDigit q := by positivity
  have hq : |q / 2 ^ lastDigit q| ≤ (2 ^ 53 : ℤ) := by
    rw [abs_div, abs_of_pos hpow, div_le_iff₀ hpow]
    calc |q| ≤ 2 ^ (Int.log 2 |q| + 1) := (Int.lt_zpow_succ_log_self one_lt_two |q|).le
      _ ≤ 2 ^ (53 + lastDigit q) := zpow_le_zpow_right₀ one_le_two (by rw [lastDigit]; omega)
      _ = (2 ^ 53 : ℤ) * 2 ^ lastDigit q := by rw [zpow_add₀ two_ne_zero]; norm_num
  obtain ⟨hlow, hhigh⟩ := abs_le.1 hq
  refine abs_le.2 ⟨le_roundEven ?_, roundEven_le hhigh⟩
  exact_mod_cast hlow

/-- **Rounding twice is rounding once.** -/
@[simp] theorem nearest_nearest (q : ℚ) : nearest (nearest q) = nearest q := by
  have he : -1074 ≤ lastDigit q := le_max_right _ _
  rw [nearest.eq_def q]
  rcases (abs_roundEven_le q).lt_or_eq with hlt | heq
  · exact nearest_mul_zpow hlt he
  -- the digits carry over: half of them and one place up
  have hhalf : ∃ m : ℤ, |m| < 2 ^ 53 ∧ roundEven (q / 2 ^ lastDigit q) = m * 2 := by
    rcases eq_or_eq_neg_of_abs_eq heq with h | h
    · exact ⟨2 ^ 52, by norm_num, by rw [h]; norm_num⟩
    · exact ⟨-2 ^ 52, by norm_num, by rw [h]; norm_num⟩
  obtain ⟨m, hm, hround⟩ := hhalf
  have hup : (roundEven (q / 2 ^ lastDigit q) : ℚ) * 2 ^ lastDigit q =
      m * 2 ^ (lastDigit q + 1) := by
    rw [hround, zpow_add_one₀ two_ne_zero]
    push_cast
    ring
  rw [hup]
  exact nearest_mul_zpow hm (by omega)

theorem exists_den_div_two_pow (m : ℤ) (n : ℕ) : ∃ k, ((m : ℚ) / 2 ^ n).den = 2 ^ k := by
  have hdvd : ((m : ℚ) / 2 ^ n).den ∣ 2 ^ n := by
    have hden := Rat.den_dvd m (2 ^ n)
    rw [Rat.divInt_eq_div] at hden
    exact_mod_cast hden
  obtain ⟨k, -, hk⟩ := (Nat.dvd_prime_pow Nat.prime_two).1 hdvd
  exact ⟨k, hk⟩

/-- The denominator of a `float64` is a power of two. -/
theorem exists_den_nearest (q : ℚ) : ∃ k, (nearest q).den = 2 ^ k := by
  rw [nearest]
  rcases le_total 0 (lastDigit q) with h | h
  · obtain ⟨n, hn⟩ := Int.eq_ofNat_of_zero_le h
    have heq : (roundEven (q / 2 ^ lastDigit q) : ℚ) * 2 ^ lastDigit q =
        (roundEven (q / 2 ^ lastDigit q) * 2 ^ n : ℤ) / 2 ^ 0 := by
      conv_lhs => rw [hn]
      simp [hn]
    rw [heq]
    exact exists_den_div_two_pow _ 0
  · obtain ⟨n, hn⟩ := Int.eq_ofNat_of_zero_le (neg_nonneg.2 h)
    rw [show lastDigit q = -(n : ℤ) by omega, zpow_neg, zpow_natCast, ← div_eq_mul_inv]
    exact exists_den_div_two_pow _ n

/-! ### Quotients of integers -/

theorem sub_half_le_roundEven (q : ℚ) : q - 1 / 2 ≤ roundEven q := by
  have hfloor := Int.lt_floor_add_one q
  have hle := Int.floor_le q
  rw [roundEven]
  split_ifs
  all_goals push_cast
  all_goals linarith

/-- Rounding loses at most half of the last digit. -/
theorem sub_half_le_nearest (q : ℚ) : q - 2 ^ lastDigit q / 2 ≤ nearest q := by
  have hpow : (0 : ℚ) < 2 ^ lastDigit q := by positivity
  have hhalf := mul_le_mul_of_nonneg_right (sub_half_le_roundEven (q / 2 ^ lastDigit q)) hpow.le
  rw [sub_mul, div_mul_cancel₀ _ hpow.ne'] at hhalf
  rw [nearest]
  linarith

/-- A number with binary digits after the point is not rounded over an integer. -/
theorem nearest_le_intCast {q : ℚ} {i : ℤ} (hdigit : lastDigit q ≤ 0)
    (h : q ≤ i) : nearest q ≤ i := by
  obtain ⟨k, hk⟩ := Int.eq_ofNat_of_zero_le (neg_nonneg.2 hdigit)
  have hpow : (0 : ℚ) < 2 ^ lastDigit q := by positivity
  have hint : (i : ℚ) / 2 ^ lastDigit q = ((i * 2 ^ k : ℤ) : ℚ) := by
    rw [show lastDigit q = -(k : ℤ) by omega, zpow_neg, zpow_natCast, div_inv_eq_mul]
    push_cast
    rfl
  have hround : roundEven (q / 2 ^ lastDigit q) ≤ i * 2 ^ k := by
    refine roundEven_le ?_
    rw [← hint]
    gcongr
  have hcast : (roundEven (q / 2 ^ lastDigit q) : ℚ) ≤ i / 2 ^ lastDigit q := by
    rw [hint]
    exact_mod_cast hround
  rw [nearest]
  exact (le_div_iff₀ hpow).1 hcast

/-- The last digit of a quotient of two integers is smaller than its distance to the next
integer. -/
theorem mul_zpow_lastDigit_lt {q : ℚ} {a b : ℕ} (hq : 0 < q) (hmul : q * b = a) (ha : a < 2 ^ 53)
    (hb : b < 2 ^ 53) :
    b * (2 : ℚ) ^ lastDigit q < 2 := by
  rw [lastDigit]
  rcases max_choice (Int.log 2 |q| - 52) (-1074) with hmax | hmax
  · have hself : (2 : ℚ) ^ Int.log 2 |q| ≤ q := by
      rw [abs_of_pos hq]
      exact Int.zpow_log_le_self one_lt_two hq
    have haq : (a : ℚ) < 2 ^ 53 := by exact_mod_cast ha
    rw [hmax, zpow_sub₀ two_ne_zero]
    calc b * ((2 : ℚ) ^ Int.log 2 |q| / 2 ^ (52 : ℤ)) ≤ b * (q / 2 ^ (52 : ℤ)) := by gcongr
      _ = a / 2 ^ (52 : ℤ) := by rw [← mul_div_assoc, mul_comm (b : ℚ), hmul]
      _ < 2 := by
        rw [div_lt_iff₀ (by positivity)]
        exact haq.trans_le (by norm_num)
  · have hbq : (b : ℚ) ≤ 2 ^ 53 := by exact_mod_cast hb.le
    rw [hmax]
    calc (b : ℚ) * 2 ^ (-1074 : ℤ) ≤ 2 ^ 53 * 2 ^ (-53 : ℤ) := by
          gcongr
          · exact one_le_two
          · norm_num
      _ < 2 := by norm_num

/-- **The ceiling of a quotient** is that of the quotient as it is computed. -/
theorem ceil_nearest_div {a b : ℕ} (ha : a < 2 ^ 53) (hb : 0 < b) (hb' : b < 2 ^ 53) :
    ⌈nearest ((a : ℚ) / b)⌉ = ⌈(a : ℚ) / b⌉ := by
  rcases Nat.eq_zero_or_pos a with rfl | hapos
  · simp
  have hbq : (0 : ℚ) < b := by exact_mod_cast hb
  have hqpos : (0 : ℚ) < a / b := div_pos (by exact_mod_cast hapos) hbq
  have hqle : (a : ℚ) / b ≤ a := div_le_self (Nat.cast_nonneg a) (by exact_mod_cast hb)
  have hmul : (a : ℚ) / b * b = a := div_mul_cancel₀ _ hbq.ne'
  generalize (a : ℚ) / b = q at hqpos hqle hmul ⊢
  have hlast : lastDigit q ≤ 0 := by
    have hlog : Int.log 2 |q| < 53 := by
      refine (Int.lt_zpow_iff_log_lt one_lt_two (abs_pos.2 hqpos.ne')).1 ?_
      rw [abs_of_pos hqpos]
      exact hqle.trans_lt (by exact_mod_cast ha)
    rw [lastDigit]
    omega
  refine Int.ceil_eq_iff.2 ⟨?_, nearest_le_intCast hlast (Int.le_ceil q)⟩
  -- the integer below stays below, by one in units of the divisor
  have hbelow : ((⌈q⌉ - 1 : ℤ) : ℚ) * b + 1 ≤ q * b := by
    have hlt : ((⌈q⌉ - 1 : ℤ) : ℚ) * b < q * b := by
      gcongr
      exact Int.lt_ceil.1 (Int.sub_one_lt_of_le le_rfl)
    rw [hmul] at hlt ⊢
    exact_mod_cast Int.add_one_le_of_lt (by exact_mod_cast hlt : (⌈q⌉ - 1) * (b : ℤ) < a)
  have hdigit := mul_zpow_lastDigit_lt hqpos hmul ha hb'
  have hround := mul_le_mul_of_nonneg_right (sub_half_le_nearest q) hbq.le
  have hscaled : ((⌈q⌉ : ℚ) - 1) * b < nearest q * b := by
    push_cast at hbelow
    linarith
  exact lt_of_mul_lt_mul_right hscaled hbq.le

/-! ### Reading and writing -/

/-- `strconv.ParseFloat`, where `none` is a number out of range. -/
def parse (n : JsonNumber) : Option ℚ :=
  if |nearest n.value| < 2 ^ 1024 then some (nearest n.value) else none

/-- The decimal expansion of a number whose denominator is a power of two. -/
def expansion (q : ℚ) : JsonNumber :=
  JsonNumber.ofDecimal (decide (q < 0)) (q.num.natAbs * 5 ^ q.den.log2) (-q.den.log2)

/-- The decimals with `digits` digits on either side of `q`, the nearer one first. -/
def candidates (q : ℚ) (digits : ℕ) : List JsonNumber :=
  let exp := Int.log 10 |q| + 1 - digits
  let near := roundEven (|q| / 10 ^ exp)
  let far := if near = ⌊|q| / 10 ^ exp⌋ then near + 1 else near - 1
  [near, far].map fun mant => JsonNumber.ofDecimal (decide (q < 0)) mant.toNat exp

/-- `strconv.FormatFloat` with the fewest digits that read back as `q`. -/
def format (q : ℚ) : JsonNumber :=
  (((List.range' 1 17).flatMap (candidates q)).find? fun n =>
    nearest n.value = q).getD (expansion q)

theorem value_expansion {q : ℚ} {k : ℕ} (h : q.den = 2 ^ k) : (expansion q).value = q := by
  have hnum : (if decide (q < 0) then (-1 : ℚ) else 1) * q.num.natAbs = q.num := by
    have habs := Int.natCast_natAbs q.num
    by_cases hneg : q < 0
    · rw [if_pos (decide_eq_true hneg), Nat.cast_natAbs, abs_of_neg (Rat.num_neg.2 hneg)]
      push_cast
      ring
    · rw [if_neg (by simpa using hneg), Nat.cast_natAbs,
        abs_of_nonneg (Rat.num_nonneg.2 (not_lt.1 hneg)), one_mul]
  rw [expansion, JsonNumber.value_ofDecimal, h, Nat.log2_two_pow, Nat.cast_mul, ← mul_assoc, hnum,
    zpow_neg, zpow_natCast, Nat.cast_pow, Nat.cast_ofNat,
    show (10 : ℚ) = 2 * 5 by norm_num, mul_pow]
  conv_rhs => rw [← Rat.num_div_den q, h]
  push_cast
  field_simp

/-- **What is written is read back.** -/
theorem nearest_format {q : ℚ} (h : nearest q = q) : nearest (format q).value = q := by
  rw [format]
  cases hfind : ((List.range' 1 17).flatMap (candidates q)).find? fun n => nearest n.value = q with
  | some n =>
    have hn := List.find?_some hfind
    exact of_decide_eq_true hn
  | none =>
    obtain ⟨k, hk⟩ := exists_den_nearest q
    rw [Option.getD_none, value_expansion (h ▸ hk), h]

/-- A rounded number is at most one binary place longer. -/
theorem abs_nearest_le {q : ℚ} {e : ℤ} (h : Int.log 2 |q| ≤ e) (he : -1022 ≤ e) :
    |nearest q| ≤ 2 ^ (e + 1) := by
  have hpow : (0 : ℚ) < 2 ^ lastDigit q := by positivity
  have hround : |(roundEven (q / 2 ^ lastDigit q) : ℚ)| ≤ 2 ^ (53 : ℤ) := by
    exact_mod_cast abs_roundEven_le q
  calc |nearest q| = |(roundEven (q / 2 ^ lastDigit q) : ℚ)| * 2 ^ lastDigit q := by
        rw [nearest, abs_mul, abs_of_pos hpow]
    _ ≤ 2 ^ (53 : ℤ) * 2 ^ lastDigit q := mul_le_mul_of_nonneg_right hround hpow.le
    _ = 2 ^ (53 + lastDigit q) := (zpow_add₀ two_ne_zero _ _).symm
    _ ≤ 2 ^ (e + 1) := zpow_le_zpow_right₀ one_le_two (by rw [lastDigit]; omega)

/-- The integers of 64 bits can be decoded. -/
theorem isSome_parse_ofInt {i : ℤ} (hlow : -2 ^ 63 ≤ i) (hhigh : i < 2 ^ 63) :
    (parse (JsonNumber.ofInt i)).isSome = true := by
  have hlog : Int.log 2 |(i : ℚ)| ≤ 63 := by
    by_cases h : i = 0
    · simp [h]
    · refine Int.lt_add_one_iff.1 ((Int.lt_zpow_iff_log_lt one_lt_two (by positivity)).1 ?_)
      have habs : |i| < 2 ^ 64 := abs_lt.2 ⟨by omega, by omega⟩
      exact_mod_cast habs
  have hlt : |nearest i| < 2 ^ 1024 := by
    calc |nearest i| ≤ 2 ^ ((63 : ℤ) + 1) := abs_nearest_le hlog (by norm_num)
      _ < 2 ^ (1024 : ℤ) := zpow_lt_zpow_right₀ one_lt_two (by norm_num)
      _ = 2 ^ 1024 := zpow_natCast 2 1024
  rw [parse, JsonNumber.value_ofInt, if_pos hlt]
  rfl

/-- A decimal after it has been read as a `float64`. -/
def reread (n : JsonNumber) : JsonNumber := format (nearest n.value)

@[simp] theorem nearest_reread (n : JsonNumber) : nearest (reread n).value = nearest n.value :=
  nearest_format (nearest_nearest _)

/-- **Reading twice is reading once.** -/
@[simp] theorem reread_reread (n : JsonNumber) : reread (reread n) = reread n := by
  rw [reread, nearest_reread, reread]

/-- The conversion of a `float64` to an `int64`, toward zero; out of range it is the least
number. -/
def toInt64 (q : ℚ) : ℤ :=
  let i := if 0 ≤ q then ⌊q⌋ else ⌈q⌉
  if -2 ^ 63 ≤ i ∧ i < 2 ^ 63 then i else -2 ^ 63

theorem toInt64_intCast {i : ℤ} (hlow : -2 ^ 63 ≤ i) (hhigh : i < 2 ^ 63) : toInt64 i = i := by
  have hfloor : (if (0 : ℚ) ≤ i then ⌊(i : ℚ)⌋ else ⌈(i : ℚ)⌉) = i := by simp
  rw [toInt64, hfloor, if_pos ⟨hlow, hhigh⟩]

theorem toInt64_mem (q : ℚ) : -2 ^ 63 ≤ toInt64 q ∧ toInt64 q < 2 ^ 63 := by
  rw [toInt64]
  generalize (if 0 ≤ q then ⌊q⌋ else ⌈q⌉) = i
  by_cases h : -2 ^ 63 ≤ i ∧ i < 2 ^ 63
  · simp only [if_pos h]
    exact h
  · simp only [if_neg h]
    norm_num

/-- **A number of 64 bits** is read and converted as it is when it is a `float64`. -/
theorem toInt64_nearest_eq_iff {i : ℤ} (hlow : -2 ^ 63 ≤ i) (hhigh : i < 2 ^ 63) :
    toInt64 (nearest i) = i ↔ nearest i = i := by
  constructor
  · intro h
    obtain ⟨j, hj⟩ := exists_nearest_intCast i
    by_cases hrange : -2 ^ 63 ≤ j ∧ j < 2 ^ 63
    · rw [hj, toInt64_intCast hrange.1 hrange.2] at h
      rw [hj, h]
    · -- the conversion fails, and its result is read as it is
      have hleast : i = (-1 : ℤ) * 2 ^ 63 := by
        have hfloor : (if (0 : ℚ) ≤ j then ⌊(j : ℚ)⌋ else ⌈(j : ℚ)⌉) = j := by simp
        rw [hj, toInt64, hfloor, if_neg hrange] at h
        omega
      have hread := nearest_mul_zpow (m := -1) (e := 63) (by norm_num) (by norm_num)
      rw [hleast]
      exact_mod_cast hread
  · intro h
    rw [h, toInt64_intCast hlow hhigh]

end Float64

namespace Json

/-- `json.Unmarshal` of a value into `any`, where `none` is a number out of the range of
`float64`. -/
def unmarshal (v : Json) : Option Json :=
  if v.allNumbers fun n => (Float64.parse n).isSome then
    some (v.mapLeaves Float64.reread id) else none

theorem unmarshal_eq_some_iff {v w : Json} :
    v.unmarshal = some w ↔
      (v.allNumbers fun n => (Float64.parse n).isSome) = true ∧
      w = v.mapLeaves Float64.reread id := by
  rw [unmarshal]
  split_ifs with h
  · simp [h, eq_comm]
  · simp [h]

/-- **A decoded value is decoded as it is**, whatever its texts have become. -/
theorem unmarshal_mapLeaves {v w : Json} (h : v.unmarshal = some w) (g : String → String) :
    (w.mapLeaves id g).unmarshal = some (w.mapLeaves id g) := by
  obtain ⟨hall, rfl⟩ := unmarshal_eq_some_iff.1 h
  refine unmarshal_eq_some_iff.2 ⟨?_, ?_⟩
  · rw [allNumbers_mapLeaves, allNumbers_mapLeaves, ← hall]
    refine congrArg (fun p => allNumbers p v) (funext fun n => ?_)
    simp [Float64.parse]
  · simp only [mapLeaves_mapLeaves, Function.id_comp, Function.comp_id]
    exact congrArg (fun f => mapLeaves f g v) (funext fun n => (Float64.reread_reread n).symm)

/-- A value that is decoded as another one can be told from it without its texts. -/
theorem unmarshal_eq_self_iff {v w : Json} (h : v.unmarshal = some w) (g : String → String) :
    w.mapLeaves id g = v.mapLeaves id g ↔ v.unmarshal = some v := by
  obtain ⟨hall, rfl⟩ := unmarshal_eq_some_iff.1 h
  rw [mapLeaves_mapLeaves, Function.id_comp, Function.comp_id]
  constructor
  · exact fun h' => unmarshal_eq_some_iff.2 ⟨hall, (mapLeaves_eq_self h').symm⟩
  · intro h'
    have hv := (unmarshal_eq_some_iff.1 h').2
    calc v.mapLeaves Float64.reread g = (v.mapLeaves Float64.reread id).mapLeaves id g := by
          rw [mapLeaves_mapLeaves, Function.id_comp, Function.comp_id]
      _ = v.mapLeaves id g := by rw [← hv]

/-! ### A dropped error -/

mutual

/-- What `json.Unmarshal` leaves in an `any` when its error is dropped: a number out of range is
left out. -/
def unmarshalDropped : Json → Json
  | .null => .null
  | .bool b => .bool b
  | .num n => if (Float64.parse n).isSome then .num (Float64.reread n) else .null
  | .str s => .str s
  | .arr xs => .arr (unmarshalDroppedList xs)
  | .obj fields => .obj (unmarshalDroppedFields fields)

/-- The elements of a list. -/
def unmarshalDroppedList : List Json → List Json
  | [] => []
  | x :: xs => unmarshalDropped x :: unmarshalDroppedList xs

/-- The fields of an object. -/
def unmarshalDroppedFields : List (String × Json) → List (String × Json)
  | [] => []
  | (k, v) :: fields => (k, unmarshalDropped v) :: unmarshalDroppedFields fields

end

theorem unmarshalDroppedList_eq_map (xs : List Json) : unmarshalDroppedList xs =
    xs.map unmarshalDropped := by
  induction xs with
  | nil => rfl
  | cons x xs ih => rw [unmarshalDroppedList, ih, List.map_cons]

theorem unmarshalDroppedFields_eq_map (fields : List (String × Json)) :
    unmarshalDroppedFields fields = fields.map fun e => (e.1, unmarshalDropped e.2) := by
  induction fields with
  | nil => rfl
  | cons e fields ih => rw [unmarshalDroppedFields, ih, List.map_cons]

/-- **Decoding twice is decoding once.** -/
@[simp] theorem unmarshalDropped_unmarshalDropped (v : Json) :
    unmarshalDropped (unmarshalDropped v) = unmarshalDropped v := by
  induction v using Json.induction with
  | hnull => rfl
  | hbool b => rfl
  | hnum n =>
    have hrange : (Float64.parse (Float64.reread n)).isSome = (Float64.parse n).isSome := by
      rw [Float64.parse, Float64.nearest_reread, Float64.parse]
    by_cases h : (Float64.parse n).isSome = true
    · rw [unmarshalDropped, if_pos h, unmarshalDropped, hrange, if_pos h, Float64.reread_reread]
    · rw [unmarshalDropped, if_neg h, unmarshalDropped]
  | hstr s => rfl
  | harr xs ih =>
    simp only [unmarshalDropped, unmarshalDroppedList_eq_map, List.map_map]
    exact congrArg Json.arr (List.map_congr_left ih)
  | hobj fields ih =>
    simp only [unmarshalDropped, unmarshalDroppedFields_eq_map, List.map_map]
    exact congrArg Json.obj (List.map_congr_left fun e he => congrArg (Prod.mk e.1) (ih e he))

end Json
