import Mathlib.Data.List.Basic

/-!
# Base64

The standard alphabet with padding, on lists of bytes. A decoder ignores line breaks, and the bits
of the last character that belong to no byte.

Encoding takes three bytes at a time and gives four characters, the last of which may be padding.
Decoding is the inverse on what encoding gives; on other lists it refuses what is not made of whole
groups.

## Main definitions

* `Base64.encode`, `Base64.decode`.

## Main results

* `Base64.decode_encode`: an encoded list is decoded as it was.
* `Base64.mem_encode`: an encoded list has characters of the alphabet and padding only.
-/

namespace OpenvpnControl.Base64

/-- The character of a number below 64. -/
def encodeChar (v : ℕ) : UInt8 :=
  if v < 26 then .ofNat (v + 65) else if v < 52 then .ofNat (v + 71)
    else if v < 62 then .ofNat (v - 4)
  else if v = 62 then 43 else 47

/-- The number of a character. -/
def decodeChar (c : UInt8) : Option ℕ :=
  if 65 ≤ c.toNat ∧ c.toNat ≤ 90 then some (c.toNat - 65)
  else if 97 ≤ c.toNat ∧ c.toNat ≤ 122 then some (c.toNat - 71)
  else if 48 ≤ c.toNat ∧ c.toNat ≤ 57 then some (c.toNat + 4)
  else if c = 43 then some 62 else if c = 47 then some 63 else none

/-- The padding character. -/
def pad : UInt8 := 61

/-- Three bytes are four characters; one or two bytes are padded. -/
def encode : List UInt8 → List UInt8
  | [] => []
  | [a] => [encodeChar (a.toNat / 4), encodeChar (a.toNat % 4 * 16), pad, pad]
  | [a, b] =>
    let v := a.toNat * 256 + b.toNat
    [encodeChar (v / 1024), encodeChar (v / 16 % 64), encodeChar (v % 16 * 4), pad]
  | a :: b :: c :: l =>
    let v := a.toNat * 65536 + b.toNat * 256 + c.toNat
    encodeChar (v / 262144) :: encodeChar (v / 4096 % 64) :: encodeChar (v / 64 % 64) ::
      encodeChar (v % 64) :: encode l

/-- Four characters are three bytes, or less when they are padded at the end. -/
def decodeQuanta : List UInt8 → Option (List UInt8)
  | [] => some []
  | a :: b :: c :: d :: l =>
    match decodeChar a, decodeChar b, decodeChar c, decodeChar d with
    | some w, some x, some y, some z =>
      let v := w * 262144 + x * 4096 + y * 64 + z
      (decodeQuanta l).map fun bytes => .ofNat (v / 65536) :: .ofNat
        (v / 256 % 256) :: .ofNat (v % 256) :: bytes
    | some w, some x, some y, none =>
      let v := w * 262144 + x * 4096 + y * 64
      if d = pad ∧ l = [] then some [.ofNat (v / 65536), .ofNat (v / 256 % 256)] else none
    | some w, some x, none, _ =>
      let v := w * 262144 + x * 4096
      if c = pad ∧ d = pad ∧ l = [] then some [.ofNat (v / 65536)] else none
    | _, _, _, _ => none
  | _ => none

/-- The decoder, which ignores line breaks. -/
def decode (s : List UInt8) : Option (List UInt8) :=
  decodeQuanta (s.filter fun c => c ≠ 10 && c ≠ 13)

@[simp] theorem decodeChar_encodeChar {v : ℕ} (h : v < 64) :
    decodeChar (encodeChar v) = some v := by
  have hall : ∀ v < 64, decodeChar (encodeChar v) = some v := by decide
  exact hall v h

@[simp] theorem decodeChar_pad : decodeChar pad = none := by decide

/-- The characters of an encoded list. -/
theorem mem_encode {bytes : List UInt8} {c : UInt8} (h : c ∈ encode bytes) :
    (∃ v < 64, c = encodeChar v) ∨ c = pad := by
  fun_induction encode bytes with
  | case1 => cases h
  | case2 a =>
    have ha := a.toNat_lt
    simp only [List.mem_cons, List.not_mem_nil, or_false] at h
    obtain rfl | rfl | rfl | rfl := h
    · exact Or.inl ⟨_, by omega, rfl⟩
    · exact Or.inl ⟨_, by omega, rfl⟩
    · exact Or.inr rfl
    · exact Or.inr rfl
  | case3 a b v =>
    have ha := a.toNat_lt
    have hb := b.toNat_lt
    simp only [List.mem_cons, List.not_mem_nil, or_false] at h
    obtain rfl | rfl | rfl | rfl := h
    · exact Or.inl ⟨_, by omega, rfl⟩
    · exact Or.inl ⟨_, by omega, rfl⟩
    · exact Or.inl ⟨_, by omega, rfl⟩
    · exact Or.inr rfl
  | case4 a b d l v ih =>
    have ha := a.toNat_lt
    have hb := b.toNat_lt
    have hd := d.toNat_lt
    simp only [List.mem_cons] at h
    obtain rfl | rfl | rfl | rfl | h := h
    · exact Or.inl ⟨_, by omega, rfl⟩
    · exact Or.inl ⟨_, by omega, rfl⟩
    · exact Or.inl ⟨_, by omega, rfl⟩
    · exact Or.inl ⟨_, by omega, rfl⟩
    · exact ih h

/-- A byte is the number that it is. -/
theorem ofNat_eq {a : UInt8} {n : ℕ} (h : n = a.toNat) : UInt8.ofNat n = a := by
  rw [h, UInt8.ofNat_toNat]

theorem decodeQuanta_encode (bytes : List UInt8) : decodeQuanta (encode bytes) = some bytes := by
  fun_induction encode bytes with
  | case1 => rfl
  | case2 a =>
    have ha := a.toNat_lt
    rw [decodeQuanta, decodeChar_encodeChar (by omega), decodeChar_encodeChar (by omega),
      decodeChar_pad]
    simp only [and_self, if_true]
    rw [ofNat_eq (a := a) (by omega)]
  | case3 a b v =>
    have ha := a.toNat_lt
    have hb := b.toNat_lt
    rw [decodeQuanta, decodeChar_encodeChar (by omega), decodeChar_encodeChar (by omega),
      decodeChar_encodeChar (by omega), decodeChar_pad]
    simp only [and_self, if_true]
    rw [ofNat_eq (a := a) (by omega), ofNat_eq (a := b) (by omega)]
  | case4 a b c l v ih =>
    have ha := a.toNat_lt
    have hb := b.toNat_lt
    have hc := c.toNat_lt
    rw [decodeQuanta, decodeChar_encodeChar (by omega), decodeChar_encodeChar (by omega),
      decodeChar_encodeChar (by omega), decodeChar_encodeChar (by omega), ih]
    simp only [Option.map_some]
    rw [ofNat_eq (a := a) (by omega), ofNat_eq (a := b) (by omega), ofNat_eq (a := c) (by omega)]

/-- **An encoded list is decoded as it was.** -/
theorem decode_encode (bytes : List UInt8) : decode (encode bytes) = some bytes := by
  have hbreaks : ∀ v < 64, encodeChar v ≠ 10 ∧ encodeChar v ≠ 13 := by decide
  have hfilter : (encode bytes).filter (fun c => c ≠ 10 && c ≠ 13) = encode bytes := by
    refine List.filter_eq_self.2 fun c hc => ?_
    obtain ⟨v, hv, rfl⟩ | rfl := mem_encode hc
    · simpa using hbreaks v hv
    · decide
  rw [decode, hfilter, decodeQuanta_encode]

end OpenvpnControl.Base64
