import OpenvpnControl.Library.GoStrings
import OpenvpnControl.Library.Refusals

/-!
# Certificates and serial numbers

The package `cert` on PEM texts, serial numbers and issuing. Parsing, verification and signing are
those of Go's `crypto/x509`, which is a parameter.

## Main definitions

* `X509Certificate`, `X509`: a parsed certificate, and the library.
* `X509.Lawful`, `X509.CreatesLeaves`: what the package relies on.
* `normalizeSerialHex`, `serialHex`: serial numbers as text.
* `keysMatch`, `verifyIssuedByRoot`, `isCAOrSelfSigned`, `hasNegativeSerial`, `issueLeaf`.

## Main results

* `serialHex_ne_empty`: every certificate has a serial number as text.
* `issueLeaf_spec`: what an issued certificate holds.
-/

namespace OpenvpnControl.Cert

/-- What is read of a parsed certificate; the public key is its PKIX text, or an error. -/
structure X509Certificate where
  serialNumber : ℤ
  subjectCN : String
  subject : String
  issuer : String
  notAfter : ℤ
  isCA : Bool
  publicKey : Except String String

/-- The functions of `crypto/x509` and `encoding/pem` the package calls, with their errors. A leaf
is created from a root, the key of the root, a common name and an expiry. -/
structure X509 where
  parseCertificate : String → Except String X509Certificate
  parsePrivateKey : String → Except String (Except String String)
  verify : X509Certificate → X509Certificate → Bool
  createLeaf : X509Certificate → String → String → ℤ → Except String (String × String)
  parseRevocationList : String → Option (List ℤ)

variable (x : X509)

/-! ### Serial numbers -/

/-- A hexadecimal digit and its value. -/
def hexValue (c : Char) : Option ℕ :=
  if '0' ≤ c ∧ c ≤ '9' then some (c.toNat - 48)
  else if 'a' ≤ c ∧ c ≤ 'f' then some (c.toNat - 87)
  else if 'A' ≤ c ∧ c ≤ 'F' then some (c.toNat - 55)
  else none

/-- The upper-case digits of a number. -/
def upperHex (n : ℕ) : String := String.ofList ((Nat.toDigits 16 n).map Char.toUpper)

/-- `strings.TrimPrefix`. -/
def trimPrefix (s pre : String) : String :=
  if GoStrings.hasPrefix s pre then String.ofList (s.toList.drop pre.toList.length) else s

/-- `NormalizeSerialHex`: characters that are no digits are dropped, and so are leading zeros. -/
def normalizeSerialHex (serial : String) : String :=
  let s := trimPrefix (trimPrefix (GoStrings.trimSpace serial) "0x") "0X"
  let digits := s.toList.filterMap hexValue
  if digits = [] then "" else upperHex (digits.foldl (fun n d => 16 * n + d) 0)

/-- `big.Int.Text(16)`. -/
def bigText (n : ℤ) : String :=
  (if n < 0 then "-" else "") ++ String.ofList (Nat.toDigits 16 n.natAbs)

def serialHex (c : X509Certificate) : String := normalizeSerialHex (bigText c.serialNumber)

/-- `serialHexBigInt`, of a serial number of a revocation list. -/
def serialHexBigInt (n : ℤ) : String :=
  let digits := (Nat.toDigits 16 n.natAbs).map Char.toUpper
  String.ofList (if n = 0 then [] else if digits.length % 2 = 1 then '0' :: digits else digits)

/-- `RevokedSerialSetFromCRL`, without repetitions. -/
def revokedSerialSetFromCRL (pemText : String) : Option (List String) :=
  (x.parseRevocationList (GoStrings.trimSpace pemText)).map fun serials =>
    ((serials.map fun n => normalizeSerialHex (serialHexBigInt n)).filter (· ≠ "")).dedup

/-! ### PEM texts -/

def ensurePEMNewline (s : String) : String :=
  let s := GoStrings.trimSpace s
  if s = "" then s else s ++ "\n"

/-- `KeysMatch`, where success has no value. -/
def keysMatch (certPEM keyPEM : String) : Except String Unit := do
  let cert ← x.parseCertificate certPEM
  let key ← x.parsePrivateKey keyPEM
  let certPub ← cert.publicKey
  let keyPub ← key
  Refusals.require (certPub = keyPub) "Закрытый ключ не соответствует сертификату"

def subjectCN (certPEM : String) : Except String String :=
  (x.parseCertificate certPEM).map (·.subjectCN)

def hasNegativeSerial (certPEM : String) : Bool :=
  match x.parseCertificate certPEM with
  | .ok c => c.serialNumber < 0
  | .error _ => false

def isCAOrSelfSigned (certPEM : String) : Bool :=
  match x.parseCertificate certPEM with
  | .ok c => c.isCA || decide (c.subject = c.issuer ∧ c.subjectCN ≠ "")
  | .error _ => false

def verifyIssuedByRoot (leafPEM rootPEM : String) : Except String Unit := do
  let leaf ← x.parseCertificate leafPEM
  let root ← x.parseCertificate rootPEM
  Refusals.require (x.verify leaf root = true)
    "Импорт невозможен: сертификат подписан не корневым сертификатом этого сервера."

/-! ### Issuing -/

/-- The seconds of a day. -/
def day : ℤ := 86400

/-- The validity `IssueLeaf` gives for a requested number of days. -/
def leafDays (validityDays : ℤ) : ℤ := min (if validityDays < 1 then 365 else validityDays) 3650

/-- What `IssueLeaf` returns. -/
structure IssuedLeaf where
  certPEM : String
  keyPEM : String
  expiresAt : ℤ
  serial : String

/-- `IssueLeaf`. The expiry and the serial number are read back from the certificate; a certificate
that cannot be read leaves the zero time and no serial number. -/
def issueLeaf (now : ℤ) (caCertPEM caKeyPEM commonName : String) (validityDays : ℤ) :
    Except String IssuedLeaf := do
  let caCert ← x.parseCertificate caCertPEM
  let _ ← x.parsePrivateKey caKeyPEM
  let (certPEM, keyPEM) ←
    x.createLeaf caCert caKeyPEM commonName (now + leafDays validityDays * day)
  return match x.parseCertificate certPEM with
    | .ok leaf => ⟨certPEM, keyPEM, leaf.notAfter, serialHex leaf⟩
    | .error _ => ⟨certPEM, keyPEM, 0, ""⟩

/-- What the package relies on: a created certificate can be read, names the common name it was
created for and matches its key; and a PEM text that can be read is read the same with a line break
after it. -/
structure X509.Lawful : Prop where
  createLeaf : ∀ {caCert caKey cn notAfter certPEM keyPEM},
    x.createLeaf caCert caKey cn notAfter = .ok (certPEM, keyPEM) →
      ∃ c, x.parseCertificate certPEM = .ok c ∧ c.subjectCN = cn ∧
        keysMatch x certPEM keyPEM = .ok ()
  certNewline : ∀ {s c}, x.parseCertificate s = .ok c → x.parseCertificate (s ++ "\n") = .ok c
  keyNewline : ∀ {s k}, x.parsePrivateKey s = .ok k → x.parsePrivateKey (s ++ "\n") = .ok k

/-- What the package relies on for the subject of a created certificate: it is no authority, its
issuer is the subject of the root, and its subject is the text `nameOf` of a name that has its
common name only. -/
def X509.CreatesLeaves (nameOf : String → String) : Prop :=
  ∀ {caCert caKey cn notAfter certPEM keyPEM},
    x.createLeaf caCert caKey cn notAfter = .ok (certPEM, keyPEM) →
      ∃ c, x.parseCertificate certPEM = .ok c ∧ c.isCA = false ∧ c.subject = nameOf cn ∧
        c.issuer = caCert.subject

variable {x}

theorem ensurePEMNewline_of_ne {s : String} (htrim : GoStrings.trimSpace s = s) (hs : s ≠ "") :
    ensurePEMNewline s = s ++ "\n" := by
  simp only [ensurePEMNewline, htrim, if_neg hs]

/-- What is read of a certificate and its key when they match. -/
theorem keysMatch_eq_ok {certPEM keyPEM : String} :
    keysMatch x certPEM keyPEM = .ok () ↔
      ∃ c k pub, x.parseCertificate certPEM = .ok c ∧ x.parsePrivateKey keyPEM = .ok k ∧
        c.publicKey = .ok pub ∧ k = .ok pub := by
  simp only [keysMatch, Refusals.bind_eq_ok, Refusals.require]
  constructor
  · rintro ⟨c, hc, k, hk, pub, hpub, keyPub, hkey, h⟩
    split_ifs at h with heq
    exact ⟨c, k, pub, hc, hk, hpub, heq ▸ hkey⟩
  · rintro ⟨c, k, pub, hc, hk, hpub, hkey⟩
    exact ⟨c, hc, k, hk, pub, hpub, pub, hkey, by rw [if_pos rfl]⟩

theorem ensurePEMNewline_cases {s : String} (htrim : GoStrings.trimSpace s = s) :
    ensurePEMNewline s = s ∨ ensurePEMNewline s = s ++ "\n" := by
  by_cases hs : s = ""
  · left
    subst hs
    rw [ensurePEMNewline, GoStrings.trimSpace_empty, if_pos rfl]
  · exact Or.inr (ensurePEMNewline_of_ne htrim hs)

/-- A certificate is read the same from the text that is stored of it. -/
theorem X509.Lawful.parse_ensurePEMNewline (hx : x.Lawful) {s : String} {c : X509Certificate}
    (htrim : GoStrings.trimSpace s = s) (h : x.parseCertificate s = .ok c) :
    x.parseCertificate (ensurePEMNewline s) = .ok c := by
  rcases ensurePEMNewline_cases htrim with hs | hs
  · rw [hs]
    exact h
  · rw [hs]
    exact hx.certNewline h

theorem X509.Lawful.keysMatch_ensurePEMNewline (hx : x.Lawful) {certPEM keyPEM : String}
    (hcert : GoStrings.trimSpace certPEM = certPEM) (hkey : GoStrings.trimSpace keyPEM = keyPEM)
    (h : keysMatch x certPEM keyPEM = .ok ()) :
    keysMatch x (ensurePEMNewline certPEM) (ensurePEMNewline keyPEM) = .ok () := by
  obtain ⟨c, k, pub, hc, hk, hpub, hkpub⟩ := keysMatch_eq_ok.1 h
  refine keysMatch_eq_ok.2 ⟨c, k, pub, hx.parse_ensurePEMNewline hcert hc, ?_, hpub, hkpub⟩
  rcases ensurePEMNewline_cases hkey with hs | hs
  · rw [hs]
    exact hk
  · rw [hs]
    exact hx.keyNewline hk

/-! ### The text of a serial number -/

theorem digitChar_hexValue {d : ℕ} (h : d < 16) : (hexValue (Nat.digitChar d)).isSome := by
  have hall : ∀ d : Fin 16, (hexValue (Nat.digitChar d)).isSome := by decide
  exact hall ⟨d, h⟩

theorem hexValue_of_mem_toDigits {n : ℕ} {c : Char} (h : c ∈ Nat.toDigits 16 n) :
    (hexValue c).isSome := by
  induction n using Nat.strong_induction_on with
  | _ n ih =>
    rw [Nat.toDigits_eq_if (by decide)] at h
    split_ifs at h with hlt
    · rw [List.mem_singleton.1 h]
      exact digitChar_hexValue hlt
    · rcases List.mem_append.1 h with h | h
      · exact ih (n / 16) (by omega) h
      · rw [List.mem_singleton.1 h]
        exact digitChar_hexValue (Nat.mod_lt n (by decide))

/-- No digit is white space or the letter of a prefix. -/
theorem not_special_of_hexValue {c : Char} (h : (hexValue c).isSome) :
    GoStrings.isSpace c = false ∧ c ≠ 'x' ∧ c ≠ 'X' := by
  have hrange : ('0' ≤ c ∧ c ≤ '9') ∨ ('a' ≤ c ∧ c ≤ 'f') ∨ ('A' ≤ c ∧ c ≤ 'F') := by
    rw [hexValue] at h
    split_ifs at h with h0 ha hA
    · exact Or.inl h0
    · exact Or.inr (Or.inl ha)
    · exact Or.inr (Or.inr hA)
    · cases h
  have hnat : (0x30 ≤ c.toNat ∧ c.toNat ≤ 0x39) ∨ (0x61 ≤ c.toNat ∧ c.toNat ≤ 0x66) ∨
      (0x41 ≤ c.toNat ∧ c.toNat ≤ 0x46) := hrange
  refine ⟨?_, ?_, ?_⟩
  · have hspace : c ≠ ' ' := by
      rintro rfl
      exact absurd hnat (by decide)
    simp only [GoStrings.isSpace, hspace, decide_false, Bool.false_or, Bool.or_eq_false_iff,
      Bool.and_eq_false_iff, decide_eq_false_iff_not]
    omega
  · rintro rfl
    exact absurd hnat (by decide)
  · rintro rfl
    exact absurd hnat (by decide)

theorem trimPrefix_of_notMem {s pre : String} {c : Char} (hc : c ∈ pre.toList)
    (h : c ∉ s.toList) : trimPrefix s pre = s := by
  rw [trimPrefix, if_neg]
  intro hpre
  exact h ((List.isPrefixOf_iff_prefix.1 hpre).subset hc)

theorem mem_bigText {n : ℤ} {c : Char} (h : c ∈ (bigText n).toList) :
    c = '-' ∨ (hexValue c).isSome := by
  rw [bigText, String.toList_append, String.toList_ofList, List.mem_append] at h
  rcases h with h | h
  · left
    split_ifs at h
    · simpa using h
    · simp at h
  · exact Or.inr (hexValue_of_mem_toDigits h)

/-- A text without white space and the letter of a prefix is left alone. -/
theorem trimPrefix_plain {s : String}
    (hplain : ∀ c ∈ s.toList, GoStrings.isSpace c = false ∧ c ≠ 'x' ∧ c ≠ 'X') :
    trimPrefix (trimPrefix (GoStrings.trimSpace s) "0x") "0X" = s := by
  have htrim : GoStrings.trimSpace s = s := by
    rw [GoStrings.trimSpace, GoStrings.trimList_eq_self, String.ofList_toList]
    · exact fun h => (hplain _ (List.head_mem h)).1
    · exact fun h => (hplain _ (List.getLast_mem h)).1
  have hlower : trimPrefix s "0x" = s :=
    trimPrefix_of_notMem (c := 'x') (by decide) fun hx => (hplain _ hx).2.1 rfl
  have hupper : trimPrefix s "0X" = s :=
    trimPrefix_of_notMem (c := 'X') (by decide) fun hx => (hplain _ hx).2.2 rfl
  rw [htrim, hlower, hupper]

theorem bigText_plain (n : ℤ) :
    trimPrefix (trimPrefix (GoStrings.trimSpace (bigText n)) "0x") "0X" = bigText n := by
  refine trimPrefix_plain fun c hc => ?_
  rcases mem_bigText hc with rfl | hhex
  · decide
  · exact not_special_of_hexValue hhex

/-- **Every certificate has a serial number as text.** -/
theorem serialHex_ne_empty (c : X509Certificate) : serialHex c ≠ "" := by
  have hdigits : (bigText c.serialNumber).toList.filterMap hexValue ≠ [] := by
    obtain ⟨d, hd⟩ := List.exists_mem_of_ne_nil _
      (Nat.toDigits_ne_nil (n := c.serialNumber.natAbs) (b := 16))
    obtain ⟨v, hv⟩ := Option.isSome_iff_exists.1 (hexValue_of_mem_toDigits hd)
    refine List.ne_nil_of_mem (a := v) (List.mem_filterMap.2 ⟨d, ?_, hv⟩)
    rw [bigText, String.toList_append, String.toList_ofList]
    exact List.mem_append_right _ hd
  rw [serialHex, normalizeSerialHex, bigText_plain]
  simp only [if_neg hdigits, upperHex, ne_eq, GoStrings.ofList_eq_empty, List.map_eq_nil_iff]
  exact Nat.toDigits_ne_nil

/-- **An issued certificate** can be read, and its serial number, expiry and common name are those
that are returned. -/
theorem issueLeaf_spec (hx : x.Lawful) {now : ℤ} {caCertPEM caKeyPEM cn : String} {validityDays : ℤ}
    {leaf : IssuedLeaf} (h : issueLeaf x now caCertPEM caKeyPEM cn validityDays = .ok leaf) :
    ∃ c, x.parseCertificate leaf.certPEM = .ok c ∧ c.subjectCN = cn ∧
      leaf.serial = serialHex c ∧ leaf.expiresAt = c.notAfter ∧
      keysMatch x leaf.certPEM leaf.keyPEM = .ok () := by
  rw [issueLeaf, Refusals.bind_eq_ok] at h
  obtain ⟨caCert, -, h⟩ := h
  rw [Refusals.bind_eq_ok] at h
  obtain ⟨-, -, h⟩ := h
  rw [Refusals.bind_eq_ok] at h
  obtain ⟨⟨certPEM, keyPEM⟩, hcreate, h⟩ := h
  obtain ⟨c, hparse, hcn, hkeys⟩ := hx.createLeaf hcreate
  simp only [hparse, Refusals.pure_eq_ok] at h
  subst h
  dsimp only
  exact ⟨c, hparse, hcn, rfl, rfl, hkeys⟩

/-- **An issued certificate is a leaf**, unless it names what the root names. -/
theorem issueLeaf_isLeaf {nameOf : String → String} (hx : x.CreatesLeaves nameOf) {now : ℤ}
    {caCertPEM caKeyPEM cn : String} {validityDays : ℤ} {leaf : IssuedLeaf}
    (h : issueLeaf x now caCertPEM caKeyPEM cn validityDays = .ok leaf) :
    ∃ ca, x.parseCertificate caCertPEM = .ok ca ∧
      (nameOf cn ≠ ca.subject → isCAOrSelfSigned x leaf.certPEM = false) := by
  rw [issueLeaf, Refusals.bind_eq_ok] at h
  obtain ⟨ca, hca, h⟩ := h
  rw [Refusals.bind_eq_ok] at h
  obtain ⟨-, -, h⟩ := h
  rw [Refusals.bind_eq_ok] at h
  obtain ⟨⟨certPEM, keyPEM⟩, hcreate, h⟩ := h
  obtain ⟨c, hparse, hCA, hsubject, hissuer⟩ := hx hcreate
  simp only [hparse, Refusals.pure_eq_ok] at h
  subst h
  refine ⟨ca, hca, fun hne => ?_⟩
  have hself : ¬(c.subject = c.issuer ∧ c.subjectCN ≠ "") := by
    rw [hsubject, hissuer]
    exact fun heq => hne heq.1
  simp only [isCAOrSelfSigned, hparse, hCA, Bool.false_or, decide_eq_false hself]

/-! ### A library of a few certificates -/

/-- A text without the line breaks at its end. -/
def chomp (s : String) : String := String.ofList (s.toList.rdropWhile (· = '\n'))

theorem chomp_append_newline (s : String) : chomp (s ++ "\n") = chomp s := by
  rw [chomp, String.toList_append]
  exact congrArg String.ofList (List.rdropWhile_concat_pos _ _ _ (by decide))

/-- A root and four leaves, by their texts. The third common name has a space. -/
def sampleCertificates : List (String × X509Certificate) :=
  [("BEGIN CERTIFICATE root", ⟨1, "ca", "CN=ca", "CN=ca", 1000 * day, true, .ok "root"⟩),
    ("BEGIN CERTIFICATE alice", ⟨10, "alice", "CN=alice", "CN=ca", 100 * day, false, .ok "alice"⟩),
    ("BEGIN CERTIFICATE bob", ⟨11, "bob", "CN=bob", "CN=ca", 100 * day, false, .ok "bob"⟩),
    ("BEGIN CERTIFICATE vpn", ⟨12, "my vpn", "CN=my vpn", "CN=ca", 100 * day, false, .ok "vpn"⟩),
    ("BEGIN CERTIFICATE vpn2", ⟨13, "my_vpn", "CN=my_vpn", "CN=ca", 100 * day, false, .ok "vpn2"⟩)]

/-- The keys, by their texts. -/
def sampleKeys : List (String × Except String String) :=
  [("BEGIN PRIVATE KEY root", .ok "root"), ("BEGIN PRIVATE KEY alice", .ok "alice"),
    ("BEGIN PRIVATE KEY bob", .ok "bob"), ("BEGIN PRIVATE KEY vpn", .ok "vpn"),
    ("BEGIN PRIVATE KEY vpn2", .ok "vpn2")]

/-- A library that knows these certificates and keys, and issues the one of `alice`. -/
def sampleX509 : X509 where
  parseCertificate s :=
    Refusals.fetch (sampleCertificates.lookup (chomp s)) "invalid certificate PEM"
  parsePrivateKey s := Refusals.fetch (sampleKeys.lookup (chomp s)) "invalid private key PEM"
  verify _ root := root.isCA
  createLeaf root _ cn _ :=
    if cn = "alice" ∧ root.subject = "CN=ca" then
      .ok ("BEGIN CERTIFICATE alice", "BEGIN PRIVATE KEY alice")
    else .error "x509: cannot sign"
  parseRevocationList _ := none

theorem sampleX509_lawful : sampleX509.Lawful where
  createLeaf {caCert caKey cn notAfter certPEM keyPEM} h := by
    simp only [sampleX509] at h
    split_ifs at h with hcn
    cases h
    rw [hcn.1]
    exact ⟨_, rfl, rfl, rfl⟩
  certNewline {s c} h := by
    simp only [sampleX509, chomp_append_newline] at h ⊢
    exact h
  keyNewline {s k} h := by
    simp only [sampleX509, chomp_append_newline] at h ⊢
    exact h

theorem sampleX509_createsLeaves : sampleX509.CreatesLeaves ("CN=" ++ ·) := by
  intro caCert caKey cn notAfter certPEM keyPEM h
  simp only [sampleX509] at h
  split_ifs at h with hcn
  cases h
  rw [hcn.1, hcn.2]
  exact ⟨_, rfl, rfl, rfl, rfl⟩

end OpenvpnControl.Cert
