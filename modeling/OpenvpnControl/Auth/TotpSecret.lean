import OpenvpnControl.Library.Base64

/-!
# Stored TOTP secrets

A TOTP secret is stored encrypted, as a text of three parts. Texts and keys are lists of bytes here.
This file proves that a stored secret is read back, and determines the texts on which the decryption
panics.

## Main definitions

* `Primitives`: SHA-256 and AES-GCM, with what their documentation says of them.
* `encryptSecret`, `decryptSecret`.
* `Parts`: the texts of three decodable parts.
* `Authenticates`: the texts that a key authenticates.

## Main results

* `decryptSecret_of_parts`, `decryptSecret_of_no_parts`: what the decryption does with a text.
* `secret_iff`: a text is decrypted without a panic exactly when its nonce has twelve bytes.
-/

namespace OpenvpnControl.Auth

/-- SHA-256 and AES-GCM. Without a nonce of twelve bytes `Open` panics, so nothing is said of it
there. -/
structure Primitives where
  sum256 : List UInt8 → List UInt8
  sealed (key nonce plaintext : List UInt8) : List UInt8
  opened (key nonce ciphertext : List UInt8) : Option (List UInt8)
  length_sum256 : ∀ m, (sum256 m).length = 32
  length_sealed : ∀ {key nonce} plaintext, nonce.length = 12 →
    (sealed key nonce plaintext).length = plaintext.length + 16
  opened_eq_some_iff : ∀ {key nonce ciphertext plaintext}, nonce.length = 12 →
    (opened key nonce ciphertext = some plaintext ↔ ciphertext = sealed key nonce plaintext)

/-- A cipher that hides nothing and whose tag is zero. -/
def Primitives.plain : Primitives where
  sum256 _ := List.replicate 32 0
  sealed _ _ plaintext := plaintext ++ List.replicate 16 0
  opened _ _ ciphertext :=
    if ciphertext.drop (ciphertext.length - 16) = List.replicate 16 0 then
      some (ciphertext.take (ciphertext.length - 16))
    else none
  length_sum256 _ := List.length_replicate
  length_sealed plaintext _ := by simp
  opened_eq_some_iff := by
    intro _ _ ciphertext plaintext _
    constructor
    · intro h
      split_ifs at h with htag
      rw [← Option.some.inj h, ← htag, List.take_append_drop]
    · rintro rfl
      simp

/-- Twelve random bytes. -/
abbrev Nonce := {bytes : List UInt8 // bytes.length = 12}

/-- The errors. -/
inductive SecretError where
  | invalidPayload
  | corruptInput
  | keySize
  | random
  | authentication
  deriving DecidableEq, Repr

/-- What a call ends with. -/
inductive Outcome where
  | value (s : List UInt8)
  | error (e : SecretError)
  | panic
  deriving DecidableEq, Repr

variable (P : Primitives)

def encryptionKey (jwtSecret : List UInt8) : List UInt8 := P.sum256 jwtSecret

/-- The sizes of the keys of `aes.NewCipher`. -/
def keySizes : List ℕ := [16, 24, 32]

/-- The colon. -/
def colon : UInt8 := 58

/-- `EncryptSecret`, where `random` is what `rand.Reader` gives. -/
def encryptSecret (random : Option Nonce) (jwtSecret secret : List UInt8) : Outcome :=
  let key := encryptionKey P jwtSecret
  if key.length ∉ keySizes then .error .keySize
  else
    match random with
    | none => .error .random
    | some nonce =>
      let ciphertext := P.sealed key nonce secret
      let tag := ciphertext.drop (ciphertext.length - 16)
      let data := ciphertext.take (ciphertext.length - 16)
      .value ([colon].intercalate [Base64.encode nonce, Base64.encode tag, Base64.encode data])

def decryptSecret (jwtSecret payload : List UInt8) : Outcome :=
  match payload.splitOn colon with
  | [ivPart, tagPart, dataPart] =>
    match Base64.decode ivPart with
    | none => .error .corruptInput
    | some iv =>
      match Base64.decode tagPart with
      | none => .error .corruptInput
      | some tag =>
        match Base64.decode dataPart with
        | none => .error .corruptInput
        | some data =>
          let key := encryptionKey P jwtSecret
          if key.length ∉ keySizes then .error .keySize
          else if iv.length ≠ 12 then .panic
          else
            match P.opened key iv (data ++ tag) with
            | none => .error .authentication
            | some plain => .value plain
  | _ => .error .invalidPayload

/-- A text of three parts that can be decoded. -/
def Parts (payload iv tag data : List UInt8) : Prop :=
  ∃ ivPart tagPart dataPart, payload.splitOn colon = [ivPart, tagPart, dataPart] ∧
    Base64.decode ivPart = some iv ∧ Base64.decode tagPart = some tag ∧
    Base64.decode dataPart = some data

/-- A text that the key authenticates, with the secret that it holds. -/
def Authenticates (jwtSecret payload secret : List UInt8) : Prop :=
  ∃ iv tag data, Parts payload iv tag data ∧ iv.length = 12 ∧
    data ++ tag = P.sealed (encryptionKey P jwtSecret) iv secret

variable {P} {jwtSecret payload iv tag data : List UInt8}

theorem length_encryptionKey_mem : (encryptionKey P jwtSecret).length ∈ keySizes := by
  rw [encryptionKey, P.length_sum256]
  decide

/-- What the decryption does with three parts. -/
theorem decryptSecret_of_parts (h : Parts payload iv tag data) : decryptSecret P jwtSecret payload =
    if iv.length ≠ 12 then .panic
    else
      match P.opened (encryptionKey P jwtSecret) iv (data ++ tag) with
      | none => .error .authentication
      | some plain => .value plain := by
  obtain ⟨ivPart, tagPart, dataPart, hsplit, hiv, htag, hdata⟩ := h
  simp only [decryptSecret, hsplit, hiv, htag, hdata]
  exact if_neg fun h => h length_encryptionKey_mem

/-- Any other text is an error. -/
theorem decryptSecret_of_no_parts (h : ∀ iv tag data, ¬Parts payload iv tag data) :
    ∃ e, decryptSecret P jwtSecret payload = .error e := by
  rw [decryptSecret]
  split
  · next ivPart tagPart dataPart hsplit =>
    cases hiv : Base64.decode ivPart with
    | none => exact ⟨_, rfl⟩
    | some iv =>
      cases htag : Base64.decode tagPart with
      | none => exact ⟨_, rfl⟩
      | some tag =>
        cases hdata : Base64.decode dataPart with
        | none => exact ⟨_, rfl⟩
        | some data => exact absurd ⟨_, _, _, hsplit, hiv, htag, hdata⟩ (h iv tag data)
  · exact ⟨_, rfl⟩

/-- An encoded text has no colons. -/
theorem colon_not_mem_encode (bytes : List UInt8) : colon ∉ Base64.encode bytes := by
  have hchars : ∀ v < 64, colon ≠ Base64.encodeChar v := by decide
  intro h
  obtain ⟨v, hv, hc⟩ | hc := Base64.mem_encode h
  · exact hchars v hv hc
  · exact absurd hc (by decide)

/-- The parts of a text that is put together. -/
theorem parts_intercalate (iv tag data : List UInt8) :
    Parts ([colon].intercalate [Base64.encode iv, Base64.encode tag, Base64.encode data]) iv
    tag data := by
  refine ⟨_, _, _, List.splitOn_intercalate colon ?_ (List.cons_ne_nil _ _),
    Base64.decode_encode iv, Base64.decode_encode tag, Base64.decode_encode data⟩
  simp [colon_not_mem_encode]

/-- **A stored secret is read back.** -/
theorem decryptSecret_encryptSecret (nonce : Nonce) (jwtSecret secret : List UInt8) :
    ∃ stored, encryptSecret P (some nonce) jwtSecret secret = .value stored ∧
      decryptSecret P jwtSecret stored = .value secret := by
  have hkey : ¬(encryptionKey P jwtSecret).length ∉ keySizes := fun h => h length_encryptionKey_mem
  refine ⟨_, by rw [encryptSecret, if_neg hkey], ?_⟩
  rw [decryptSecret_of_parts (parts_intercalate _ _ _), if_neg (fun h => h nonce.2),
    List.take_append_drop, (P.opened_eq_some_iff nonce.2).2 rfl]

/-- The parts of a text are unique. -/
theorem Parts.unique {iv' tag' data' : List UInt8} (h : Parts payload iv tag data)
    (h' : Parts payload iv' tag' data') : iv = iv' ∧ tag = tag' ∧ data = data' := by
  obtain ⟨a, b, c, hsplit, hiv, htag, hdata⟩ := h
  obtain ⟨a', b', c', hsplit', hiv', htag', hdata'⟩ := h'
  rw [hsplit] at hsplit'
  obtain ⟨rfl, rfl, rfl⟩ : a = a' ∧ b = b' ∧ c = c' := by simpa using hsplit'
  rw [hiv] at hiv'
  rw [htag] at htag'
  rw [hdata] at hdata'
  exact ⟨Option.some.inj hiv', Option.some.inj htag', Option.some.inj hdata'⟩

/-- The decryption panics on three parts of which the first has not twelve bytes. -/
theorem decryptSecret_eq_panic_iff : decryptSecret P jwtSecret payload = .panic ↔
    ∃ iv tag data, Parts payload iv tag data ∧ iv.length ≠ 12 := by
  by_cases h : ∃ iv tag data, Parts payload iv tag data
  · obtain ⟨iv, tag, data, hparts⟩ := h
    have hunique : (∃ iv tag data, Parts payload iv tag data ∧ iv.length ≠ 12) ↔ iv.length ≠ 12 :=
      ⟨fun ⟨_, _, _, h', hlen⟩ => (hparts.unique h').1 ▸ hlen, fun hlen => ⟨_, _, _, hparts, hlen⟩⟩
    rw [decryptSecret_of_parts hparts, hunique]
    split_ifs with hlen
    · exact iff_of_true rfl hlen
    · refine iff_of_false ?_ hlen
      cases P.opened (encryptionKey P jwtSecret) iv (data ++ tag) <;> nofun
  · obtain ⟨e, he⟩ := @decryptSecret_of_no_parts P jwtSecret payload
      fun iv tag data h' => h ⟨iv, tag, data, h'⟩
    rw [he]
    exact iff_of_false nofun fun ⟨iv, tag, data, h', _⟩ => h ⟨iv, tag, data, h'⟩

/-- A text that is decrypted is authenticated. -/
theorem authenticates_of_decryptSecret {secret : List UInt8}
    (h : decryptSecret P jwtSecret payload = .value secret) :
    Authenticates P jwtSecret payload secret := by
  by_cases hparts : ∃ iv tag data, Parts payload iv tag data
  · obtain ⟨iv, tag, data, hparts⟩ := hparts
    rw [decryptSecret_of_parts hparts] at h
    split_ifs at h with hlen
    have hlen := not_not.1 hlen
    cases hopen : P.opened (encryptionKey P jwtSecret) iv (data ++ tag) with
    | none =>
      rw [hopen] at h
      cases h
    | some plain =>
      rw [hopen] at h
      obtain rfl : plain = secret := Outcome.value.inj h
      exact ⟨iv, tag, data, hparts, hlen, (P.opened_eq_some_iff hlen).1 hopen⟩
  · obtain ⟨e, he⟩ := @decryptSecret_of_no_parts P jwtSecret payload
      fun iv tag data h' => hparts ⟨iv, tag, data, h'⟩
    rw [he] at h
    cases h

/-- **Stored secrets.** A stored secret is read back, and a text is decrypted without a panic
exactly when its nonce has twelve bytes; what is decrypted is authenticated. -/
theorem secret_iff (P : Primitives) (nonce : Nonce) (jwtSecret secret payload : List UInt8) :
    ((∃ stored, encryptSecret P (some nonce) jwtSecret secret = .value stored ∧
        decryptSecret P jwtSecret stored = .value secret) ∧
      decryptSecret P jwtSecret payload ≠ .panic ∧
      ∀ plain, decryptSecret P jwtSecret payload = .value plain →
      Authenticates P jwtSecret payload plain) ↔
      ∀ iv tag data, Parts payload iv tag data → iv.length = 12 := by
  have hpanic : decryptSecret P jwtSecret payload ≠ .panic ↔
      ∀ iv tag data, Parts payload iv tag data → iv.length = 12 := by
    rw [Ne, decryptSecret_eq_panic_iff]
    push Not
    exact Iff.rfl
  rw [and_iff_right (decryptSecret_encryptSecret nonce jwtSecret secret), hpanic]
  exact and_iff_left fun plain => authenticates_of_decryptSecret

/-- A nonce of one byte, without tag and data: `AA==::`. -/
theorem decryptSecret_panics :
    ¬∀ (P : Primitives) (nonce : Nonce) (jwtSecret secret payload : List UInt8),
      (∃ stored, encryptSecret P (some nonce) jwtSecret secret = .value stored ∧
          decryptSecret P jwtSecret stored = .value secret) ∧
        decryptSecret P jwtSecret payload ≠ .panic ∧
        ∀ plain, decryptSecret P jwtSecret payload = .value plain →
        Authenticates P jwtSecret payload plain := by
  intro h
  have h₀ := (h .plain ⟨List.replicate 12 0, rfl⟩ [] [] [65, 65, 61, 61, 58, 58]).2.1
  exact h₀ (by decide)

end OpenvpnControl.Auth
