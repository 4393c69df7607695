import OpenvpnControl.Ovpn.Lines

/-!
# The blocks of a profile

OpenVPN takes the certificates and keys of a profile from its blocks: the lines between a line with
a tag and the line that ends it. This file says what it takes from the profile of a client.

A PEM text stands in its block as it is, so a line of it that looks like a tag would end the block
early, or begin another one. The lemma asks for texts without such lines.

## Main definitions

* `readBlocks`: the blocks among some lines, each with its tag and its lines.
* `inlineBlock`: the block of a PEM text.

## Main results

* `readBlocks_buildClientOvpn`: the blocks of a profile are the PEM texts that it is built from.
-/

namespace OpenvpnControl.Ovpn

/-! ### Reading blocks -/

/-- The tag of a line that begins a block. -/
def openingTag? (line : String) : Option String := blockTags.find? fun tag =>
    line = "<" ++ tag ++ ">"

/-- The blocks among some lines, where `some (tag, read)` is the block that is read with its lines
so far. A block that is not ended is none. -/
def readBlocks : Option (String × List String) → List String → List (String × List String)
  | _, [] => []
  | some (tag, read), line :: lines =>
    if line = "</" ++ tag ++ ">" then (tag, read) :: readBlocks none lines
    else readBlocks (some (tag, read ++ [line])) lines
  | none, line :: lines => readBlocks ((openingTag? line).map fun tag => (tag, [])) lines

/-- The block that a PEM text should be read as. -/
def inlineBlock (tag pem : String) : String × List String :=
  (tag, GoStrings.split (GoStrings.trimSpace pem) '\n')

variable {scanFloat : String → Option GoFloat} {input : BuildInput}

theorem readBlocks_some {tag : String} {read lines rest : List String}
    (h : "</" ++ tag ++ ">" ∉ lines) :
    readBlocks (some (tag, read)) (lines ++ ("</" ++ tag ++ ">") :: rest) =
      (tag, read ++ lines) :: readBlocks none rest := by
  induction lines generalizing read with
  | nil => rw [List.nil_append, readBlocks, if_pos rfl, List.append_nil]
  | cons line lines ih =>
    rw [List.mem_cons, not_or] at h
    rw [List.cons_append, readBlocks, if_neg (Ne.symm h.1), ih h.2,
      List.append_assoc, List.singleton_append]

/-- Lines without a tag are no blocks. -/
theorem readBlocks_none {lines rest : List String} (h : ∀ line ∈ lines, openingTag? line = none) :
    readBlocks none (lines ++ rest) = readBlocks none rest := by
  induction lines with
  | nil => rfl
  | cons line lines ih =>
    obtain ⟨hline, hlines⟩ := List.forall_mem_cons.1 h
    rw [List.cons_append, readBlocks, hline]
    exact ih hlines

theorem openingTag?_tag : ∀ tag ∈ blockTags, openingTag? ("<" ++ tag ++ ">") = some tag := by
  decide +kernel

/-- **The block of a PEM text** is read. -/
theorem readBlocks_block {tag pem : String} {rest : List String} (htag : tag ∈ blockTags)
    (hpem : NoTags pem) :
    readBlocks none ((block tag pem).flatMap (GoStrings.split · '\n') ++ rest) =
      inlineBlock tag pem :: readBlocks none rest := by
  obtain ⟨hopen, hclose, -⟩ := tag_lines tag htag
  have hnot : "</" ++ tag ++ ">" ∉ GoStrings.split (GoStrings.trimSpace pem) '\n' := by
    intro hmem
    have hin := contains_trans (contains_trimSpace pem) (GoStrings.mem_split hmem).2
    rw [(hpem tag htag).2] at hin
    cases hin
  rw [block, List.flatMap_cons, List.flatMap_cons, List.flatMap_cons,
    List.flatMap_nil, hopen, hclose, List.append_nil, List.append_assoc, List.append_assoc,
    List.singleton_append, List.singleton_append, readBlocks, openingTag?_tag tag htag,
    Option.map_some, readBlocks_some hnot, List.nil_append, inlineBlock]

theorem readBlocks_empty (rest : List String) :
    readBlocks none ([""].flatMap (GoStrings.split · '\n') ++ rest) = readBlocks none rest := by
  have hsplit : [""].flatMap (GoStrings.split · '\n') = [""] := by decide
  have hopening : openingTag? "" = none := by decide
  rw [hsplit, List.singleton_append, readBlocks, hopening]
  rfl

/-- The blocks after the directives. -/
theorem readBlocks_blocks (hca : NoTags input.rootCAPEM) (hcert : NoTags input.certPEM)
    (hkey : NoTags input.keyPEM) (htls : NoTags input.tlsAuthPEM) :
    readBlocks none ((blocks input).flatMap (GoStrings.split · '\n')) =
      [inlineBlock "ca" input.rootCAPEM, inlineBlock "cert" input.certPEM,
        inlineBlock "key" input.keyPEM] ++
        if input.tlsAuthPEM ≠ "" then [inlineBlock "tls-auth" input.tlsAuthPEM] else [] := by
  have hend : readBlocks none ([""].flatMap (GoStrings.split · '\n')) = [] := by decide
  have hblocks : blocks input = [""] ++ (block "ca" input.rootCAPEM ++ ([""] ++
      (block "cert" input.certPEM ++ ([""] ++ (block "key" input.keyPEM ++
        ((if input.tlsAuthPEM ≠ "" then [""] ++ block "tls-auth" input.tlsAuthPEM else []) ++
          [""])))))) := by
    simp only [blocks, List.append_assoc]
  rw [hblocks, List.flatMap_append, readBlocks_empty, List.flatMap_append,
    readBlocks_block (by decide) hca, List.flatMap_append, readBlocks_empty, List.flatMap_append,
    readBlocks_block (by decide) hcert, List.flatMap_append, readBlocks_empty, List.flatMap_append,
    readBlocks_block (by decide) hkey]
  split_ifs
  · rw [List.append_assoc, List.flatMap_append, readBlocks_empty, List.flatMap_append,
      readBlocks_block (by decide) htls, hend]
    rfl
  · rw [List.nil_append, hend]
    rfl

/-- **What OpenVPN takes from a profile**: the PEM texts that it is built from, trimmed, when the
copied texts have no line break. -/
theorem readBlocks_buildClientOvpn (hca : NoTags input.rootCAPEM) (hcert : NoTags input.certPEM)
    (hkey : NoTags input.keyPEM) (htls : NoTags input.tlsAuthPEM) (hunbroken : Unbroken input) :
    readBlocks none (GoStrings.split (buildClientOvpn scanFloat input) '\n') =
      [inlineBlock "ca" input.rootCAPEM, inlineBlock "cert" input.certPEM,
        inlineBlock "key" input.keyPEM] ++
        if input.tlsAuthPEM ≠ "" then [inlineBlock "tls-auth" input.tlsAuthPEM] else [] := by
  have hlines := (@unbroken_iff scanFloat input).1 hunbroken
  have hne : (clientDirectives scanFloat input).map Directive.line ++ blocks input ≠ [] := by
    simp [blocks]
  have hsplit : ((clientDirectives scanFloat input).map Directive.line).flatMap
      (GoStrings.split · '\n') = (clientDirectives scanFloat input).map Directive.line := by
    rw [List.flatMap_map, List.map_eq_flatMap]
    exact List.flatMap_congr fun d hd => GoStrings.split_of_not_mem (hlines d hd)
  have hsep : "\n" = String.singleton '\n' := rfl
  have hdirectives : ∀ line ∈ (clientDirectives scanFloat input).map Directive.line,
      openingTag? line = none := by
    intro line hline
    obtain ⟨d, hd, rfl⟩ := List.mem_map.1 hline
    exact Option.map_eq_none_iff.1 (closing_line hd).1
  rw [buildClientOvpn_eq, hsep, GoStrings.split_intercalate hne, List.flatMap_append, hsplit,
    readBlocks_none hdirectives, readBlocks_blocks hca hcert hkey htls]

end OpenvpnControl.Ovpn
