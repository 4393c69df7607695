import OpenvpnControl.Library.Base64
import OpenvpnControl.Library.GoStrings

/-!
# The mail with a profile

`sendProfileEmail` gives a message to `sendmail -t`, which takes the recipients from its header. The
profile is an attachment. This file says what a reader of the message finds.

## Main definitions

* `base64Text`: an encoded list as a text.
* `profileMail`: the message.
* `headers`, `readParts`, `attachment`: reading a message.

## Main results

* `attachment_profileMail`: the attachment of the message is the profile.
* `headers_profileMail_iff`: when its header has only the lines that are written.
-/

namespace OpenvpnControl.Handlers

/-- `base64.StdEncoding.EncodeToString`. -/
def base64Text (data : List UInt8) : String :=
  String.ofList ((Base64.encode data).map fun b => Char.ofNat b.toNat)

/-- The start of the line that names the boundary. -/
def multipart : String := "Content-Type: multipart/mixed; boundary=\""

/-- The lines of the header. -/
def mailHeader (boundary recipient : String) : List String :=
  ["To: " ++ recipient, "Subject: OpenVPN connection profile", "MIME-Version: 1.0",
    multipart ++ boundary ++ "\""]

/-- The part with the text. -/
def textPart : List String :=
  ["Content-Type: text/plain; charset=UTF-8", "", "Во вложении конфигурация OpenVPN.", ""]

/-- The part with the profile. -/
def profilePart (fileName content : String) : List String :=
  ["Content-Type: application/octet-stream; name=\"" ++ fileName ++ "\"",
    "Content-Transfer-Encoding: base64", "Content-Disposition: attachment; filename=\"" ++
    fileName ++ "\"", "", base64Text (GoStrings.bytes content)]

/-- The message of `sendProfileEmail`, where `id` is the fresh id of the boundary. -/
def profileMail (id recipient fileName content : String) : String :=
  let boundary := "ovpn-" ++ id
  "\n".intercalate (mailHeader boundary recipient ++ ["", "--" ++ boundary] ++ textPart ++
    ["--" ++ boundary] ++ profilePart fileName content ++ ["--" ++ boundary ++ "--", ""])

/-! ### Reading a message -/

/-- The lines before the first empty line. -/
def headers (lines : List String) : List String := lines.takeWhile (· ≠ "")

/-- The lines after it. -/
def content (lines : List String) : List String := (lines.dropWhile (· ≠ "")).drop 1

/-- The boundary that a header names. -/
def boundary? (lines : List String) : Option String :=
  (lines.find? (GoStrings.hasPrefix · multipart)).map fun line =>
    String.ofList (line.toList.drop multipart.toList.length).dropLast

/-- The parts between the lines with the boundary, where `some read` are the lines of the part that
is read. -/
def readParts (delimiter : String) : Option (List String) → List String → List (List String)
  | _, [] => []
  | none, line :: lines => readParts delimiter (if line = delimiter then some [] else none) lines
  | some read, line :: lines =>
    if line = delimiter ++ "--" then [read]
    else if line = delimiter then read :: readParts delimiter (some []) lines
    else readParts delimiter (some (read ++ [line])) lines

/-- The bytes of a part, which its header may say are encoded. -/
def partBytes (part : List String) : Option (List UInt8) :=
  let data := GoStrings.bytes ("\n".intercalate (content part))
  if "Content-Transfer-Encoding: base64" ∈ headers part then Base64.decode data else some data

/-- The bytes of the attached file with the name. -/
def attachment (mail fileName : String) : Option (List UInt8) := do
  let lines := GoStrings.split mail '\n'
  let boundary ← boundary? (headers lines)
  let part ← (readParts ("--" ++ boundary) none (content lines)).find? fun part =>
    ("Content-Disposition: attachment; filename=\"" ++ fileName ++ "\"") ∈ headers part
  partBytes part

/-! ### The encoded text -/

theorem encode_ascii {data : List UInt8} : ∀ b ∈ Base64.encode data,
    b.toNat < 128 ∧ b ≠ 10 ∧ b ≠ 45 := by
  have hchars : ∀ v < 64, (Base64.encodeChar v).toNat < 128 ∧ Base64.encodeChar v ≠ 10 ∧
      Base64.encodeChar v ≠ 45 := by decide
  intro b hb
  obtain ⟨v, hv, rfl⟩ | rfl := Base64.mem_encode hb
  · exact hchars v hv
  · decide

/-- The bytes of an encoded text. -/
theorem bytes_base64Text (data : List UInt8) : GoStrings.bytes (base64Text data) =
    Base64.encode data := by
  have hchars : ∀ n < 128, String.utf8EncodeChar (Char.ofNat n) = [UInt8.ofNat n] := by decide
  rw [GoStrings.bytes, base64Text, String.toList_ofList, List.flatMap_map]
  calc (Base64.encode data).flatMap (fun b => String.utf8EncodeChar (Char.ofNat b.toNat))
      = (Base64.encode data).flatMap fun b => [b] := List.flatMap_congr fun b hb => by
        rw [hchars _ (encode_ascii b hb).1, UInt8.ofNat_toNat]
    _ = Base64.encode data := List.flatMap_singleton' _

/-- An encoded text is one line, which is no boundary. -/
theorem base64Text_line (data : List UInt8) :
    '\n' ∉ (base64Text data).toList ∧ '-' ∉ (base64Text data).toList := by
  have hchars : ∀ n < 128, Char.ofNat n = '\n' → n = 10 := by decide
  have hdashes : ∀ n < 128, Char.ofNat n = '-' → n = 45 := by decide
  rw [base64Text, String.toList_ofList]
  constructor
  · intro h
    obtain ⟨b, hb, hc⟩ := List.mem_map.1 h
    obtain ⟨hlt, hne, -⟩ := encode_ascii b hb
    exact hne (UInt8.toNat.inj (hchars _ hlt hc))
  · intro h
    obtain ⟨b, hb, hc⟩ := List.mem_map.1 h
    obtain ⟨hlt, -, hne⟩ := encode_ascii b hb
    exact hne (UInt8.toNat.inj (hdashes _ hlt hc))

/-! ### What a reader finds -/

variable {id recipient fileName text : String}

theorem readParts_some {delimiter : String} {read lines rest : List String}
    (h : ∀ line ∈ lines, line ≠ delimiter ∧ line ≠ delimiter ++ "--") :
    readParts delimiter (some read) (lines ++ rest) = readParts delimiter
    (some (read ++ lines)) rest := by
  induction lines generalizing read with
  | nil => rw [List.nil_append, List.append_nil]
  | cons line lines ih =>
    obtain ⟨⟨hline, hend⟩, hlines⟩ := List.forall_mem_cons.1 h
    rw [List.cons_append, readParts, if_neg hend, if_neg hline, ih hlines, List.append_assoc,
      List.singleton_append]

/-- A line that begins with no dash is no boundary. -/
theorem ne_delimiter {line boundary : String} (h : line.toList.head? ≠ some '-') :
    line ≠ "--" ++ boundary ∧ line ≠ "--" ++ boundary ++ "--" := by
  constructor <;> rintro rfl <;> exact h (by simp)

theorem textPart_line : ∀ line ∈ textPart, line.toList.head? ≠ some '-' := by decide

theorem profilePart_line : ∀ line ∈ profilePart fileName text, line.toList.head? ≠ some '-' := by
  have hencoded : (base64Text (GoStrings.bytes text)).toList.head? ≠ some '-' := fun h =>
    (base64Text_line _).2 (List.mem_of_head? h)
  simp [profilePart, hencoded]

theorem readParts_profileMail {boundary : String} :
    readParts ("--" ++ boundary) none (["--" ++ boundary] ++ textPart ++ ["--" ++ boundary] ++
        profilePart fileName text ++ ["--" ++ boundary ++ "--", ""]) =
      [textPart, profilePart fileName text] := by
  have hne : "--" ++ boundary ≠ "--" ++ boundary ++ "--" := by
    intro h
    have hlength := congrArg String.length h
    simp at hlength
  rw [List.append_assoc, List.append_assoc, List.append_assoc,
    List.singleton_append, readParts, if_pos rfl, readParts_some fun line hline =>
    ne_delimiter (textPart_line line hline), List.nil_append, List.singleton_append, readParts,
      if_neg hne, if_pos rfl, readParts_some fun line hline =>
      ne_delimiter (profilePart_line line hline),
    List.nil_append, readParts, if_pos rfl]

/-- The parts with their headers and contents. -/
theorem headers_parts : headers textPart = ["Content-Type: text/plain; charset=UTF-8"] ∧
    headers (profilePart fileName text) =
      ["Content-Type: application/octet-stream; name=\"" ++ fileName ++ "\"",
        "Content-Transfer-Encoding: base64",
        "Content-Disposition: attachment; filename=\"" ++ fileName ++ "\""] ∧
    content (profilePart fileName text) = [base64Text (GoStrings.bytes text)] := by
  refine ⟨by decide, ?_, ?_⟩
  · simp [headers, profilePart]
  · simp [content, profilePart]

theorem partBytes_profilePart : partBytes (profilePart fileName text) =
    some (GoStrings.bytes text) := by
  obtain ⟨-, hheaders, hcontent⟩ := @headers_parts fileName text
  have hone : "\n".intercalate [base64Text (GoStrings.bytes text)] =
      base64Text (GoStrings.bytes text) := by
    simp
  simp only [partBytes, hheaders, hcontent, hone, bytes_base64Text, Base64.decode_encode]
  simp

/-- The header of the message, and what follows it. -/
theorem headers_lines {boundary : String} {lines : List String} :
    headers (mailHeader boundary recipient ++ "" :: lines) = mailHeader boundary recipient ∧
      content (mailHeader boundary recipient ++ "" :: lines) = lines := by
  constructor
  · simp [headers, mailHeader, multipart]
  · simp [content, mailHeader, multipart]

theorem boundary?_mailHeader {boundary : String} :
    boundary? (mailHeader boundary recipient) = some boundary := by
  have hto : GoStrings.hasPrefix ("To: " ++ recipient) multipart = false := by
    rw [GoStrings.hasPrefix, String.toList_append]
    rfl
  have hsubject : GoStrings.hasPrefix "Subject: OpenVPN connection profile" multipart = false := by
    decide
  have hversion : GoStrings.hasPrefix "MIME-Version: 1.0" multipart = false := by decide
  have hnamed : GoStrings.hasPrefix (multipart ++ boundary ++ "\"") multipart = true := by
    simp [GoStrings.hasPrefix]
  simp [boundary?, mailHeader, hto, hsubject, hversion, hnamed]

theorem split_lines {pieces : List String} (hne : pieces ≠ []) (h : ∀ p ∈ pieces, '\n' ∉ p.toList) :
    GoStrings.split ("\n".intercalate pieces) '\n' = pieces := by
  have hsep : "\n" = String.singleton '\n' := rfl
  rw [hsep, GoStrings.split_intercalate hne]
  calc pieces.flatMap (GoStrings.split · '\n')
      = pieces.flatMap fun p => [p] := List.flatMap_congr fun p hp =>
      GoStrings.split_of_not_mem (h p hp)
    _ = pieces := List.flatMap_singleton' _

/-- The lines of the message, when the address is one line. -/
theorem split_profileMail (hid : '\n' ∉ id.toList) (hfile : '\n' ∉ fileName.toList)
    (hto : '\n' ∉ recipient.toList) :
    GoStrings.split (profileMail id recipient fileName text) '\n' =
      mailHeader ("ovpn-" ++ id) recipient ++ "" :: (["--" ++ ("ovpn-" ++ id)] ++ textPart ++
        ["--" ++ ("ovpn-" ++ id)] ++ profilePart fileName text ++
        ["--" ++ ("ovpn-" ++ id) ++ "--", ""]) := by
  have hencoded := (base64Text_line (GoStrings.bytes text)).1
  have htext : ∀ line ∈ textPart, '\n' ∉ line.toList := by decide
  rw [profileMail, split_lines]
  · simp only [List.append_assoc, List.cons_append, List.nil_append]
  · simp [mailHeader]
  · simp only [List.forall_mem_append]
    refine ⟨⟨⟨⟨⟨?_, ?_⟩, htext⟩, ?_⟩, ?_⟩, ?_⟩
    · simp [mailHeader, multipart, hto, hid]
    · simp [hid]
    · simp [hid]
    · simp [profilePart, hfile, hencoded]
    · simp [hid]

/-- **The attachment of the message** is the profile. -/
theorem attachment_profileMail (hid : '\n' ∉ id.toList) (hfile : '\n' ∉ fileName.toList)
    (hto : '\n' ∉ recipient.toList) :
    attachment (profileMail id recipient fileName text) fileName = some (GoStrings.bytes text) := by
  obtain ⟨htext, hprofile, -⟩ := @headers_parts fileName text
  obtain ⟨hheader, hcontent⟩ :=
    @headers_lines recipient ("ovpn-" ++ id) (["--" ++ ("ovpn-" ++ id)] ++ textPart ++
    ["--" ++ ("ovpn-" ++ id)] ++ profilePart fileName text ++ ["--" ++ ("ovpn-" ++ id) ++ "--", ""])
  have hnot : "Content-Disposition: attachment; filename=\"" ++ fileName ++
      "\"" ∉ headers textPart := by
    rw [htext, List.mem_singleton]
    intro h
    have hstart := congrArg (fun s => s.toList.take 9) h
    rw [String.append_assoc, String.toList_append] at hstart
    exact absurd (show "Content-D".toList = "Content-T".toList from hstart) (by decide)
  have hin : "Content-Disposition: attachment; filename=\"" ++ fileName ++ "\"" ∈
      headers (profilePart fileName text) := by simp [hprofile]
  simp only [attachment, split_profileMail hid hfile hto, hheader, hcontent, boundary?_mailHeader,
    Option.bind_eq_bind, Option.bind_some, readParts_profileMail]
  rw [List.find?_cons_of_neg (by simpa using hnot), List.find?_cons_of_pos (by simpa using hin),
    Option.bind_some, partBytes_profilePart]

/-- **The header of the message** has only the lines that are written when the address is one
line. -/
theorem headers_profileMail_iff (hid : '\n' ∉ id.toList) (hfile : '\n' ∉ fileName.toList) :
    headers (GoStrings.split (profileMail id recipient fileName text) '\n') =
      mailHeader ("ovpn-" ++ id) recipient ↔ '\n' ∉ recipient.toList := by
  constructor
  · intro h hbreak
    have hmem : "To: " ++ recipient ∈
        headers (GoStrings.split (profileMail id recipient fileName text) '\n') := by
      rw [h]
      exact List.mem_cons_self
    exact (GoStrings.mem_split (List.takeWhile_subset _ hmem)).1 (by simp [hbreak])
  · intro hto
    rw [split_profileMail hid hfile hto, headers_lines.1]

end OpenvpnControl.Handlers
