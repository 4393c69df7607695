import OpenvpnControl.Cert.Pem
import OpenvpnControl.Handlers.ProfileMail
import OpenvpnControl.Handlers.Requests
import OpenvpnControl.Ovpn.Blocks
import OpenvpnControl.Panel.MaterialLinks

/-!
# The profile of a user

The handler `Profile` makes a profile for a certificate of a user and a node, and answers it or
mails it. This file says whose certificate and which key the client takes from what arrives.

A profile is a text of OpenVPN directives with the certificates and the key in blocks. It travels as
the body of the answer, or as an attachment of a mail; in either case it comes with a file name, of
which the client makes a path. What the client then reads is compared with the rows that the request
has named.

## Main definitions

* `VpnUsers.profile`: the handler.
* `received`: the file with a name that the client has after the answer.

## Main results

* `VpnUsers.profile_of_ok`: what a request that is not refused has passed.
* `VpnUsers.profile_delivers`: the blocks of the profile that arrives.
-/

namespace OpenvpnControl.Cert

def isClientLeaf (x : X509) (certPEM : String) : Bool :=
  match x.parseCertificate certPEM with
  | .ok c => !c.isCA && decide (c.subject ≠ c.issuer)
  | .error _ => false

end OpenvpnControl.Cert

namespace OpenvpnControl.Handlers

open Ovpn (BuildInput GoFloat NoTags Unbroken buildClientOvpn copiedKeys inlineBlock readBlocks)
open Panel (Db)
open Refusals (require fetch)

/-- A row of `AgentNodeOpenvpnMaterial` with its text. -/
structure Material extends Panel.AgentNodeOpenvpnMaterial where
  pem : String
  deriving DecidableEq

/-- The rows that `Profile` reads; `host` is the column of `AgentNode`. -/
structure ProfileDb where
  db : Db
  host : String → String
  materials : List Material

/-- The body of a request. -/
structure ProfileRequest where
  action : String
  certificateId : String
  serverId : String
  email : String

/-- A request for a mail. -/
def ProfileRequest.Mailed (body : ProfileRequest) : Prop :=
  GoStrings.toLower (GoStrings.trimSpace body.action) = "email"

/-- The row that the first query finds. -/
structure ProfileRow where
  certPEM : String
  keyPEM : String
  rootCaID : String
  commonName : String
  nodeHost : String
  nodeName : String

/-- The queries whose error is dropped. -/
inductive ProfileLookup where
  | settings
  | root
  | tlsAuth
  deriving DecidableEq

/-- An answer of `Profile`: a file, or a text after a mail was sent. -/
inductive ProfileAnswer where
  | file (fileName contentBase64 : String)
  | mailed (message mail : String)
  deriving DecidableEq

/-! ### The handler -/

/-- The first query. A column that is `NULL` cannot be scanned, which is an error. -/
def ProfileDb.row (w : ProfileDb) (id : String) (body : ProfileRequest) : Option ProfileRow := do
  let c ← (w.db.cert body.certificateId).filter fun c => c.vpnUserId = some id ∧ c.revokedAt = none
  let n ← w.db.node body.serverId
  return ⟨← c.certPem, ← c.keyPem, ← c.rootCaId, c.commonName, w.host n.id, n.name⟩

/-- A character that `safeName` keeps. -/
def SafeRune (c : Char) : Prop :=
  ('a' ≤ c ∧ c ≤ 'z') ∨ ('A' ≤ c ∧ c ≤ 'Z') ∨ ('0' ≤ c ∧ c ≤ '9') ∨ c = '.' ∨ c = '_' ∨ c = '-'

instance (c : Char) : Decidable (SafeRune c) := by
  unfold SafeRune
  infer_instance

def safeName (s : String) : String :=
  String.ofList (s.toList.map fun c => if SafeRune c then c else '-')

def ProfileRow.fileName (row : ProfileRow) : String :=
  safeName row.nodeName ++ "-" ++ safeName row.commonName ++ ".ovpn"

variable (fails : ProfileLookup → Bool) (w : ProfileDb)

/-- `st`. -/
def profileSettings (serverID : String) : Openvpn.Settings :=
  if fails .settings then ∅ else w.db.settingsOf serverID

/-- `rootPEM`. -/
def profileRoot (rootCaID : String) : String :=
  if fails .root then "" else ((w.db.root rootCaID).map (·.certPem)).getD ""

/-- `tlsPem`. -/
def profileTls (serverID : String) : String :=
  let tlsID :=
    GoStrings.trimSpace (strAny ((profileSettings fails w serverID).get "panelTlsAuthMaterialId"))
  if tlsID = "" ∨ fails .tlsAuth then ""
  else ((w.materials.find? fun m => m.id = tlsID ∧ m.agentNodeId = serverID ∧ m.kind = .tlsAuth).map
    (·.pem)).getD ""

/-- The argument of `BuildClientOvpn`. -/
def profileInput (row : ProfileRow) (serverID : String) : BuildInput where
  host := row.nodeHost
  settings := profileSettings fails w serverID
  certPEM := row.certPEM
  keyPEM := row.keyPEM
  rootCAPEM := profileRoot fails w row.rootCaID
  tlsAuthPEM := profileTls fails w serverID

variable (x : Cert.X509) (scanFloat : String → Option GoFloat) (newID : String)
  (sendmail : String → Bool)

/-- The handler `Profile`, where `newID` is the fresh id of a mail and `sendmail` the success of the
command. -/
def VpnUsers.profile (id : String) (body : Option ProfileRequest) : Except Refusal ProfileAnswer :=
  do
  let body ← fetch body ⟨400, "invalid json"⟩
  let action := GoStrings.toLower (GoStrings.trimSpace body.action)
  require (action = "download" ∨ action = "email") ⟨400, "action должен быть download или email"⟩
  require (body.certificateId ≠ "" ∧ body.serverId ≠ "") ⟨400,
    "certificateId и serverId обязательны"⟩
  let row ← fetch (w.row id body) ⟨404, "Сертификат или сервер не найден"⟩
  require (row.certPEM ≠ "" ∧ row.keyPEM ≠ "") ⟨422, "У сертификата нет cert/key материала"⟩
  require (Cert.isClientLeaf x row.certPEM = true) ⟨422, "Нужен клиентский сертификат"⟩
  let st := profileSettings fails w body.serverId
  require (GoStrings.trimSpace (strAny (st.get "panelRootCaId")) = GoStrings.trimSpace row.rootCaID)
    ⟨409, "Сертификат не соответствует корневому сертификату выбранного сервера"⟩
  let profile := buildClientOvpn scanFloat (profileInput fails w row body.serverId)
  if action = "download" then
    return .file row.fileName (base64Text (GoStrings.bytes profile))
  let email := GoStrings.trimSpace body.email
  require (email ≠ "") ⟨400, "email обязателен для отправки"⟩
  let mail := profileMail newID email row.fileName profile
  require (sendmail mail = true) ⟨502,
    "Не удалось отправить email через sendmail на сервере панели"⟩
  return .mailed ("Конфигурация отправлена на " ++ email) mail

/-! ### What a request has passed -/

variable {fails w x scanFloat newID sendmail}

section Input

variable {row : ProfileRow} {serverID : String}

@[simp] theorem profileInput_host : (profileInput fails w row serverID).host = row.nodeHost := rfl

@[simp] theorem profileInput_settings :
    (profileInput fails w row serverID).settings = profileSettings fails w serverID := rfl

@[simp] theorem profileInput_certPEM : (profileInput fails w row serverID).certPEM = row.certPEM :=
  rfl

@[simp] theorem profileInput_keyPEM : (profileInput fails w row serverID).keyPEM = row.keyPEM := rfl

@[simp] theorem profileInput_rootCAPEM :
    (profileInput fails w row serverID).rootCAPEM = profileRoot fails w row.rootCaID := by
  simp only [profileInput]

@[simp] theorem profileInput_tlsAuthPEM :
    (profileInput fails w row serverID).tlsAuthPEM = profileTls fails w serverID := by
  simp only [profileInput]

end Input

/-- What the first query finds. -/
theorem ProfileDb.row_eq_some {id : String} {body : ProfileRequest} {row : ProfileRow}
    (h : w.row id body = some row) :
    ∃ c n, w.db.cert body.certificateId = some c ∧ c.vpnUserId = some id ∧ c.revokedAt = none ∧
      w.db.node body.serverId = some n ∧ c.certPem = some row.certPEM ∧ c.keyPem = some row.keyPEM ∧
        c.rootCaId = some row.rootCaID ∧ row.nodeHost = w.host n.id := by
  simp only [ProfileDb.row, Option.bind_eq_bind, Option.bind_eq_some_iff,
    Option.pure_def, Option.some.injEq, Option.filter_eq_some_iff, decide_eq_true_eq] at h
  obtain ⟨c, ⟨hc, huser, hrevoked⟩, n, hn, certPEM, hcert, keyPEM, hkey, rootCaID, hroot, rfl⟩ := h
  exact ⟨c, n, hc, huser, hrevoked, hn, hcert, hkey, hroot, rfl⟩

/-- **What a request that is not refused has passed**, and what it answers. -/
theorem VpnUsers.profile_of_ok {id : String} {body : ProfileRequest} {answer : ProfileAnswer}
    (h : VpnUsers.profile fails w x scanFloat newID sendmail id (some body) = .ok answer) :
    ∃ row, w.row id body = some row ∧ (row.certPEM ≠ "" ∧ row.keyPEM ≠ "") ∧
      Cert.isClientLeaf x row.certPEM = true ∧
      GoStrings.trimSpace (strAny ((profileSettings fails w body.serverId).get "panelRootCaId")) =
        GoStrings.trimSpace row.rootCaID ∧
      (answer = .file row.fileName (base64Text (GoStrings.bytes
          (buildClientOvpn scanFloat (profileInput fails w row body.serverId)))) ∨
        body.Mailed ∧ ∃ message, answer = .mailed message
          (profileMail newID (GoStrings.trimSpace body.email) row.fileName
            (buildClientOvpn scanFloat (profileInput fails w row body.serverId)))) := by
  simp only [VpnUsers.profile, Refusals.fetch_bind_eq_ok, Refusals.require_bind_eq_ok,
    Option.some.injEq] at h
  obtain ⟨_, rfl, haction, -, row, hrow, hpem, hleaf, hroot, h⟩ := h
  refine ⟨row, hrow, hpem, hleaf, hroot, ?_⟩
  split_ifs at h with hdownload
  · exact Or.inl (Refusals.pure_eq_ok.1 h).symm
  · rw [Refusals.require_bind_eq_ok] at h
    obtain ⟨-, h⟩ := h
    rw [Refusals.require_bind_eq_ok] at h
    exact Or.inr ⟨haction.resolve_left hdownload, _, (Refusals.pure_eq_ok.1 h.2).symm⟩

/-! ### What the client has -/

/-- The bytes of the file with a name that the client has after an answer: the one that is answered,
or the attachment of the mail. -/
def received (fileName : String) : ProfileAnswer → Option (List UInt8)
  | .file name contentBase64 =>
    if name = fileName then Base64.decode (GoStrings.bytes contentBase64) else none
  | .mailed _ mail => attachment mail fileName

/-- The stored PEM texts have no tag of a block, and the texts that a profile copies have no line
break. -/
structure CleanTexts (w : ProfileDb) : Prop where
  certs : ∀ c ∈ w.db.certs, (∀ pem ∈ c.certPem, NoTags pem) ∧ ∀ pem ∈ c.keyPem, NoTags pem
  roots : ∀ r ∈ w.db.roots, NoTags r.certPem
  materials : ∀ m ∈ w.materials, NoTags m.pem
  settings : ∀ row ∈ w.db.settings, ∀ key ∈ copiedKeys,
    '\n' ∉ (Ovpn.str (row.settings.get key)).toList
  hosts : ∀ n ∈ w.db.nodes, '\n' ∉ (GoStrings.trimSpace (w.host n.id)).toList

theorem safeRune_fileName (row : ProfileRow) : ∀ c ∈ row.fileName.toList, SafeRune c := by
  have hsafe (s : String) : ∀ c ∈ (safeName s).toList, SafeRune c := by
    rw [safeName, String.toList_ofList]
    intro c hc
    obtain ⟨d, -, rfl⟩ := List.mem_map.1 hc
    split_ifs with hd
    · exact hd
    · decide
  have hdash : ∀ c ∈ "-".toList, SafeRune c := by decide
  have hsuffix : ∀ c ∈ ".ovpn".toList, SafeRune c := by decide
  simp only [ProfileRow.fileName, String.toList_append, List.forall_mem_append]
  exact ⟨⟨⟨hsafe _, hdash⟩, hsafe _⟩, hsuffix⟩

theorem noTags_empty_text : NoTags "" := by decide

theorem CleanTexts.noTags_profileRoot (hclean : CleanTexts w) (rootCaID : String) :
    NoTags (profileRoot fails w rootCaID) := by
  rw [profileRoot]
  split_ifs
  · exact noTags_empty_text
  · cases hroot : w.db.root rootCaID with
    | none => exact noTags_empty_text
    | some r => exact hclean.roots r (Rows.mem_of_byKey_eq_some hroot).1

theorem CleanTexts.noTags_profileTls (hclean : CleanTexts w) (serverID : String) :
    NoTags (profileTls fails w serverID) := by
  simp only [profileTls]
  split_ifs
  · exact noTags_empty_text
  · cases hfind : w.materials.find? _ with
    | none => exact noTags_empty_text
    | some m => exact hclean.materials m (List.mem_of_find?_eq_some hfind)

/-- No line break is copied from the settings of a node. -/
theorem CleanTexts.settings_text (hclean : CleanTexts w) {serverID key : String}
    (hkey : key ∈ copiedKeys) :
    '\n' ∉ (Ovpn.str ((profileSettings fails w serverID).get key)).toList := by
  have hempty : Ovpn.str ((∅ : Openvpn.Settings).get key) = "" := rfl
  rw [profileSettings]
  split_ifs
  · rw [hempty]
    decide
  · cases hrow : Rows.byKey (·.agentNodeId) serverID w.db.settings with
    | none =>
      rw [Db.settingsOf, Db.storedSettings, Db.loadSettingsRow, hrow]
      exact hempty ▸ by decide
    | some row =>
      rw [Db.settingsOf, Db.storedSettings, Db.loadSettingsRow, hrow]
      exact hclean.settings row (Rows.mem_of_byKey_eq_some hrow).1 key hkey

/-- **What arrives**, as the only file of a download or as the attachment of a mail: the certificate
of the user that was asked for, which is not revoked, with its key, the root that it is stored with
and the tls-auth key that the settings of the node link. -/
theorem VpnUsers.profile_delivers {id : String} {body : ProfileRequest} {answer : ProfileAnswer}
    (hclean : CleanTexts w)
    (hmail : body.Mailed → '\n' ∉ newID.toList ∧ '\n' ∉ (GoStrings.trimSpace body.email).toList)
    (h : VpnUsers.profile fails w x scanFloat newID sendmail id (some body) = .ok answer) :
    ∃ c ∈ w.db.certs, ∃ certPEM keyPEM rootCaID fileName text,
      (c.id = body.certificateId ∧ c.vpnUserId = some id ∧ c.revokedAt = none) ∧
      (c.certPem = some certPEM ∧ c.keyPem = some keyPEM ∧ c.rootCaId = some rootCaID) ∧
      (certPEM ≠ "" ∧ keyPEM ≠ "" ∧ Cert.isClientLeaf x certPEM = true) ∧
      GoStrings.trimSpace (strAny ((profileSettings fails w body.serverId).get "panelRootCaId")) =
        GoStrings.trimSpace rootCaID ∧
      (∀ ch ∈ fileName.toList, SafeRune ch) ∧ received fileName answer =
      some (GoStrings.bytes text) ∧ readBlocks none (GoStrings.split text '\n') =
        [inlineBlock "ca" (profileRoot fails w rootCaID), inlineBlock "cert" certPEM,
          inlineBlock "key" keyPEM] ++ if profileTls fails w body.serverId ≠ "" then
          [inlineBlock "tls-auth" (profileTls fails w body.serverId)]
          else [] := by
  obtain ⟨row, hrow, ⟨hcertPEM, hkeyPEM⟩, hleaf, hroot, hanswer⟩ := VpnUsers.profile_of_ok h
  obtain ⟨c, n, hc, huser, hrevoked, hn, hcert, hkey, hrootCaID, hhost⟩ :=
    ProfileDb.row_eq_some hrow
  obtain ⟨hmem, hcid⟩ := Rows.mem_of_byKey_eq_some hc
  obtain ⟨hcerts, hkeys⟩ := hclean.certs c hmem
  have hbroken : Unbroken (profileInput fails w row body.serverId) := by
    constructor
    · intro key hkey
      rw [profileInput_settings]
      exact hclean.settings_text hkey
    · intro _
      rw [profileInput_host, hhost]
      exact hclean.hosts n (Rows.mem_of_byKey_eq_some hn).1
  have hca : NoTags (profileInput fails w row body.serverId).rootCAPEM := by
    rw [profileInput_rootCAPEM]
    exact hclean.noTags_profileRoot _
  have htls : NoTags (profileInput fails w row body.serverId).tlsAuthPEM := by
    rw [profileInput_tlsAuthPEM]
    exact hclean.noTags_profileTls _
  have hblocks := @Ovpn.readBlocks_buildClientOvpn scanFloat _ hca (hcerts row.certPEM hcert)
    (hkeys row.keyPEM hkey) htls hbroken
  rw [profileInput_certPEM, profileInput_keyPEM, profileInput_rootCAPEM,
    profileInput_tlsAuthPEM] at hblocks
  generalize buildClientOvpn scanFloat (profileInput fails w row body.serverId) =
    text at hblocks hanswer
  have hfile : '\n' ∉ row.fileName.toList :=
    fun hbreak => absurd (safeRune_fileName row _ hbreak) (by decide)
  refine ⟨c, hmem, row.certPEM, row.keyPEM, row.rootCaID, row.fileName, text,
    ⟨hcid, huser, hrevoked⟩, ⟨hcert, hkey, hrootCaID⟩, ⟨hcertPEM, hkeyPEM, hleaf⟩, ?_, ?_, ?_, ?_⟩
  · exact hroot
  · exact safeRune_fileName row
  · rcases hanswer with rfl | ⟨hmailed, message, rfl⟩
    · rw [received, if_pos rfl, bytes_base64Text, Base64.decode_encode]
    · obtain ⟨hid, hto⟩ := hmail hmailed
      exact attachment_profileMail hid hfile hto
  · exact hblocks

/-- A certificate of a user, its root, and the node with the settings that link the root. -/
def oneProfile : ProfileDb where
  db := { Db.empty with
    nodes := [⟨"n1", "VPN 1"⟩]
    roots := [⟨"r", "root", "ca", "BEGIN CERTIFICATE ca", "BEGIN PRIVATE KEY ca"⟩]
    certs :=
      [⟨"k", "alice", "11", "ca", some "r", some "n1", some "u1", some "BEGIN CERTIFICATE alice",
        some "BEGIN PRIVATE KEY alice", 2000, 1000, none, none⟩]
    settings :=
      [⟨"n1", .ofList [("panelRootCaId", .str "r"), ("panelTlsAuthMaterialId", .str "m1")], none⟩] }
  host _ := "vpn.example.com"
  materials := [⟨⟨"m1", "n1", .tlsAuth⟩, "BEGIN OpenVPN Static key V1"⟩]

theorem oneProfile_clean : CleanTexts oneProfile where
  certs := by decide +kernel
  roots := by decide +kernel
  materials := by decide +kernel
  settings := by decide +kernel
  hosts := by decide +kernel

theorem VpnUsers.profile_delivers_mail : ∃ answer c certPEM fileName text,
    VpnUsers.profile (fun _ => false) oneProfile Cert.sampleX509
        (fun _ => none) "id" (fun _ => true) "u1"
        (some ⟨"email", "k", "n1", "alice@example.com"⟩) = .ok answer ∧
      c ∈ oneProfile.db.certs ∧ c.certPem = some certPEM ∧
      received fileName answer = some (GoStrings.bytes text) ∧
      inlineBlock "cert" certPEM ∈ readBlocks none (GoStrings.split text '\n') := by
  have hok : (VpnUsers.profile (fun _ => false) oneProfile Cert.sampleX509
      (fun _ => none) "id" (fun _ => true) "u1"
      (some ⟨"email", "k", "n1", "alice@example.com"⟩)).isOk = true := by decide +kernel
  cases hanswer : VpnUsers.profile (fun _ => false) oneProfile Cert.sampleX509 (fun _ => none) "id"
      (fun _ => true) "u1" (some ⟨"email", "k", "n1", "alice@example.com"⟩) with
  | error e =>
    rw [hanswer] at hok
    cases hok
  | ok answer =>
    obtain ⟨c, hc, certPEM, keyPEM, rootCaID, fileName, text, -, ⟨hcert, -⟩, -,
        -, -, hfile, hblocks⟩ :=
      VpnUsers.profile_delivers oneProfile_clean (fun _ => ⟨by decide, by decide +kernel⟩) hanswer
    exact ⟨answer, c, certPEM, fileName, text, rfl, hc, hcert, hfile, by rw [hblocks]; simp⟩

end OpenvpnControl.Handlers
