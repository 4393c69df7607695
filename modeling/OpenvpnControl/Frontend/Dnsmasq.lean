import OpenvpnControl.Frontend.ConfigDiff
import OpenvpnControl.Library.Regexp

/-!
# The draft of a dnsmasq configuration

The DNS tab of `App.tsx` shows the configuration of a node as rows (`parseDnsmasqConfigToDraft`) and
makes the text that is applied from the rows (`buildDnsmasqTextFromDraft`).

## Main definitions

* `parseDnsmasqConfigToDraft`, `buildDnsmasqTextFromDraft`: the rows of a text and the text of rows.
* `Recognised`: the lines that are read as a row.
* `Survives`: the rows that are saved are the ones that are read again.
* `Lossless`: the settings of a text are all that is saved.

## Main results

* `parseDnsmasqLine_eq_some_iff`: the ordered expressions read the lines that are recognised.
* `survives_iff`: the draft is read again exactly when no row is ambiguous.
* `lossless_iff`: nothing is lost exactly when every setting is recognised, without white space
  around its values.
-/

namespace OpenvpnControl.Frontend

open JsStrings (trim nonblank)

/-! ### The rows -/

/-- The type of a row, with the fields that the type has. -/
inductive DnsRule where
  | domainResolver (domain targetDns : String)
  | cache (cacheSize : String)
  | ipOverride (domain ip : String)
  | arbitraryAddress (ip : String)
  | forward (targetDns : String)
  | hostsFile (path : String)
  | listenInterface (iface : String)
  deriving DecidableEq, Repr

/-- A row of the draft. -/
structure DraftRow where
  id : String
  rule : DnsRule
  deriving DecidableEq, Repr

/-! ### Reading -/

/-- `.`, which no line terminator matches. -/
def dot (c : Char) : Bool := c.toNat ∉ [0x0A, 0x0D, 0x2028, 0x2029]

/-- `^key=\/([^/]+)\/(.+)$`. -/
def slashedRe (key : String) : Regexp :=
  .whole (.all [.text key, .text "=/", .group (.plus (.char (· ≠ '/'))), .lit '/',
    .group (.plus (.char dot))])

/-- `^key=(.+)$`. -/
def valueRe (key : Regexp) : Regexp := .whole (.all [key, .lit '=', .group (.plus (.char dot))])

/-- What the expressions make of one line. -/
def parseDnsmasqLine (line : String) : Option DnsRule :=
  if let some m := (slashedRe "server").find line then
    some (.domainResolver (m.getD 0 "") (m.getD 1 ""))
  else if let some m := (valueRe (.text "cache-size")).find line then some (.cache (m.getD 0 ""))
  else if let some m := (slashedRe "address").find line then
    if m.getD 0 "" = "#" then some (.arbitraryAddress (m.getD 1 ""))
      else some (.ipOverride (m.getD 0 "") (m.getD 1 ""))
  else if let some m := (valueRe (.text "server")).find line then some (.forward (m.getD 0 ""))
  else if let some m := (valueRe (.alt (.text "addn-hosts") (.text "hosts-file"))).find line then
    some (.hostsFile (m.getD 0 ""))
  else if let some m := (valueRe (.text "interface")).find line then
    some (.listenInterface (m.getD 0 ""))
  else none

/-- The lines of a text that are not blank, `split(/\r?\n/)` and trimmed. -/
def settingLines (raw : String) : List String :=
  nonblank (GoStrings.split (String.ofList (dropReturns raw.toList)) '\n')

/-- The rows of the lines; only a row takes the next number. -/
def draftRows (seq : ℕ) : List String → List DraftRow
  | [] => []
  | line :: lines =>
    match parseDnsmasqLine line with
    | some rule => ⟨"dns-" ++ toString seq, rule⟩ :: draftRows (seq + 1) lines
    | none => draftRows seq lines

def parseDnsmasqConfigToDraft (raw : String) : List DraftRow := draftRows 1 (settingLines raw)

/-! ### Writing -/

/-- The line of a row, when its required fields are not blank. -/
def DnsRule.line : DnsRule → Option String
  | .domainResolver domain targetDns =>
    if trim domain ≠ "" ∧ trim targetDns ≠ "" then
      some ("server=/" ++ trim domain ++ "/" ++ trim targetDns) else none
  | .cache cacheSize => if trim cacheSize ≠ "" then some ("cache-size=" ++ trim cacheSize) else none
  | .ipOverride domain ip =>
    if trim domain ≠ "" ∧ trim ip ≠ "" then some ("address=/" ++ trim domain ++ "/" ++ trim ip)
      else none
  | .arbitraryAddress ip => if trim ip ≠ "" then some ("address=/#/" ++ trim ip) else none
  | .forward targetDns => if trim targetDns ≠ "" then some ("server=" ++ trim targetDns) else none
  | .hostsFile path => if trim path ≠ "" then some ("addn-hosts=" ++ trim path) else none
  | .listenInterface iface => if trim iface ≠ "" then some ("interface=" ++ trim iface) else none

def buildDnsmasqTextFromDraft (draft : List DraftRow) : String :=
  "\n".intercalate (draft.filterMap fun row => row.rule.line)

/-! ### What is asked of the two -/

/-- The fields that a row needs. -/
def DnsRule.fields : DnsRule → List String
  | .domainResolver domain targetDns => [domain, targetDns]
  | .ipOverride domain ip => [domain, ip]
  | .cache v | .arbitraryAddress v | .forward v | .hostsFile v | .listenInterface v => [v]

/-- A row with other fields. -/
def DnsRule.map (f : String → String) : DnsRule → DnsRule
  | .domainResolver domain targetDns => .domainResolver (f domain) (f targetDns)
  | .cache cacheSize => .cache (f cacheSize)
  | .ipOverride domain ip => .ipOverride (f domain) (f ip)
  | .arbitraryAddress ip => .arbitraryAddress (f ip)
  | .forward targetDns => .forward (f targetDns)
  | .hostsFile path => .hostsFile (f path)
  | .listenInterface iface => .listenInterface (f iface)

/-- The trimmed row, when its fields are not blank. -/
def DnsRule.kept (rule : DnsRule) : Option DnsRule :=
  if ∀ v ∈ rule.fields, trim v ≠ "" then some (rule.map trim) else none

/-- The rows of a draft that are not blank are read again, in order. -/
def Survives (draft : List DraftRow) : Prop :=
  (parseDnsmasqConfigToDraft (buildDnsmasqTextFromDraft draft)).map DraftRow.rule =
    draft.filterMap fun row => row.rule.kept

instance (draft : List DraftRow) : Decidable (Survives draft) := inferInstanceAs (Decidable (_ = _))

/-- A line that `dnsmasq` skips. -/
def CommentLine (line : String) : Prop := line.toList.head? = some '#'

instance (line : String) : Decidable (CommentLine line) := inferInstanceAs (Decidable (_ = _))

/-- `hosts-file=` written as `addn-hosts=`. -/
def renamed (line : String) : String :=
  if GoStrings.hasPrefix line "hosts-file=" then
    "addn-hosts=" ++ String.ofList (line.toList.drop 11) else line

/-- The text that is saved consists of the settings of the text that was opened. -/
def Lossless (raw : String) : Prop :=
  buildDnsmasqTextFromDraft (parseDnsmasqConfigToDraft raw) =
    "\n".intercalate (((settingLines raw).filter fun line => ¬CommentLine line).map renamed)

instance (raw : String) : Decidable (Lossless raw) := inferInstanceAs (Decidable (_ = _))

/-! ### The expressions -/

/-- What `.+` matches without a line terminator. -/
def SingleLine (v : String) : Prop := ∀ c ∈ v.toList, dot c = true

instance (v : String) : Decidable (SingleLine v) :=
  inferInstanceAs (Decidable (∀ c ∈ v.toList, dot c = true))

/-- What `[^/]+` matches. -/
def Domain (v : String) : Prop := v ≠ "" ∧ '/' ∉ v.toList

/-- What `.+` matches. -/
def Value (v : String) : Prop := v ≠ "" ∧ SingleLine v

/-- A line with a value. -/
def valueLine (key v : String) : String := key ++ "=" ++ v

/-- A line with a domain and a value. -/
def slashedLine (key x y : String) : String := key ++ "=/" ++ x ++ "/" ++ y

variable {key line x y v : String} {found : List String} {rule : DnsRule}

theorem toList_valueLine : (valueLine key v).toList = key.toList ++ '=' :: v.toList := by
  simp [valueLine]

theorem toList_slashedLine : (slashedLine key x y).toList = key.toList ++
    '=' :: '/' :: x.toList ++ '/' :: y.toList := by
  simp [slashedLine]

theorem domain_ofList {l : List Char} : Domain (String.ofList l) ↔ l ≠ [] ∧ ∀ c ∈ l,
    decide (c ≠ '/') = true := by
  rw [Domain, Ne, GoStrings.ofList_eq_empty, String.toList_ofList]
  refine and_congr_right fun _ => ⟨fun h c hc => decide_eq_true (ne_of_mem_of_not_mem hc h),
    fun h hmem => ?_⟩
  exact absurd rfl (of_decide_eq_true (h _ hmem))

theorem value_ofList {l : List Char} : Value (String.ofList l) ↔ l ≠ [] ∧
    ∀ c ∈ l, dot c = true := by
  rw [Value, SingleLine, Ne, GoStrings.ofList_eq_empty, String.toList_ofList]

/-- **The lines of `slashedRe`.** -/
theorem find_slashedRe_iff : (slashedRe key).find line = some found ↔
    ∃ x y, Domain x ∧ Value y ∧ line = slashedLine key x y ∧ found = [x, y] := by
  have haccepts : Regexp.Accepts (.all _) _ :=
    .text_then key (.text_then "=/" (.capture_then (fun c => decide (c ≠ '/'))
    (.lit_then '/' (.capture_then dot .nil))))
  have hmatches := haccepts.congr (Q := fun l gs => ∃ x y : List Char, Domain (String.ofList x) ∧
      Value (String.ofList y) ∧ l = key.toList ++ '=' :: '/' :: x ++ '/' :: y ∧
      gs = [x, y]) fun l gs => by
    simp only [domain_ofList, value_ofList]
    constructor
    · rintro ⟨_, ⟨_, ⟨x, _, _, hx, ⟨_, ⟨y, _, _, hy, ⟨rfl, rfl⟩, rfl, rfl⟩, rfl⟩, rfl, rfl⟩, rfl⟩,
        rfl⟩
      exact ⟨x, y, hx, hy, by simp, rfl⟩
    · rintro ⟨x, y, hx, hy, rfl, rfl⟩
      exact ⟨'=' :: '/' :: x ++ '/' :: y, ⟨x ++ '/' :: y, ⟨x, '/' :: y, [y], hx,
        ⟨y, ⟨y, [], [], hy, ⟨rfl, rfl⟩, by simp, rfl⟩, rfl⟩, rfl, rfl⟩, rfl⟩, by simp⟩
  refine (Regexp.find_whole_iff hmatches fun l gs gs' => ?_).trans ?_
  · rintro ⟨x, y, hx, -, rfl, rfl⟩ ⟨x', y', hx', -, hl, rfl⟩
    simp only [List.append_assoc, List.cons_append, List.append_cancel_left_eq,
      List.cons.injEq, true_and] at hl
    obtain ⟨rfl, rfl⟩ := GoStrings.append_cons_inj (by simpa [Domain] using hx.2)
      (by simpa [Domain] using hx'.2) hl
    rfl
  · constructor
    · rintro ⟨_, ⟨x, y, hx, hy, hl, rfl⟩, rfl⟩
      refine ⟨String.ofList x, String.ofList y, hx, hy, String.toList_inj.1 ?_, rfl⟩
      rw [hl, toList_slashedLine, String.toList_ofList, String.toList_ofList]
    · rintro ⟨x, y, hx, hy, rfl, rfl⟩
      exact ⟨[x.toList, y.toList], ⟨x.toList, y.toList,
        by rwa [String.ofList_toList], by rwa [String.ofList_toList], toList_slashedLine, rfl⟩,
        by simp⟩

/-- **The lines of `valueRe`**, whose key has no `=`. -/
theorem find_valueRe_iff {re : Regexp} {keys : List String}
    (hre : re.Accepts fun l gs => (∃ key ∈ keys, l = key.toList) ∧ gs = [])
    (hkeys : ∀ key ∈ keys, '=' ∉ key.toList) :
    (valueRe re).find line = some found ↔ ∃ key ∈ keys, ∃ v, Value v ∧
    line = valueLine key v ∧ found = [v] := by
  have hvalue : Regexp.Accepts (.all _) _ := .lit_then '=' (.capture_then dot .nil)
  have hmatches := (hre.seq hvalue).congr (Q := fun l gs => ∃ key ∈ keys, ∃ v : List Char,
      Value (String.ofList v) ∧ l = key.toList ++ '=' :: v ∧ gs = [v]) fun l gs => by
    simp only [value_ofList]
    constructor
    · rintro ⟨_, _, _, _, ⟨⟨key, hkey, rfl⟩, rfl⟩,
        ⟨_, ⟨v, _, _, hv, ⟨rfl, rfl⟩, rfl, rfl⟩, rfl⟩, rfl, rfl⟩
      exact ⟨key, hkey, v, hv, by simp, rfl⟩
    · rintro ⟨key, hkey, v, hv, rfl, rfl⟩
      exact ⟨key.toList, [], '=' :: v, [v], ⟨⟨key, hkey, rfl⟩, rfl⟩,
        ⟨v, ⟨v, [], [], hv, ⟨rfl, rfl⟩, by simp, rfl⟩, rfl⟩, rfl, rfl⟩
  refine (Regexp.find_whole_iff hmatches fun l gs gs' => ?_).trans ?_
  · rintro ⟨key, hkey, v, -, rfl, rfl⟩ ⟨key', hkey', v', -, hl, rfl⟩
    obtain ⟨-, rfl⟩ := GoStrings.append_cons_inj (hkeys key hkey) (hkeys key' hkey') hl
    rfl
  · constructor
    · rintro ⟨_, ⟨key, hkey, v, hv, hl, rfl⟩, rfl⟩
      refine ⟨key, hkey, String.ofList v, hv, String.toList_inj.1 ?_, rfl⟩
      rw [hl, toList_valueLine, String.toList_ofList]
    · rintro ⟨key, hkey, v, hv, rfl, rfl⟩
      exact ⟨[v.toList], ⟨key, hkey, v.toList,
        by rwa [String.ofList_toList], toList_valueLine, rfl⟩, by simp⟩

theorem find_keyRe_iff (hkey : '=' ∉ key.toList) :
    (valueRe (.text key)).find line = some found ↔ ∃ v, Value v ∧
    line = valueLine key v ∧ found = [v] := by
  have hkeys : (Regexp.text key).Accepts fun l gs => (∃ k ∈ [key], l = k.toList) ∧ gs = [] :=
    (Regexp.Accepts.text key).congr fun l gs => by simp
  rw [find_valueRe_iff hkeys (by simpa using hkey)]
  simp

theorem find_hostsRe_iff :
    (valueRe (.alt (.text "addn-hosts") (.text "hosts-file"))).find line = some found ↔
    ∃ key ∈ ["addn-hosts", "hosts-file"], ∃ v, Value v ∧ line = valueLine key v ∧ found = [v] := by
  refine find_valueRe_iff (((Regexp.Accepts.text _).alt (Regexp.Accepts.text _)).congr fun l gs =>
    ?_) (by decide)
  simp [or_and_right, exists_or]

/-! ### The lines that are read -/

/-- What follows `server=` when it is read as a domain with its server. -/
def Slashed (v : String) : Prop := ∃ x y, Domain x ∧ Value y ∧ v = "/" ++ x ++ "/" ++ y

/-- The rows and the lines that are read as them. -/
inductive Recognised : String → DnsRule → Prop
  | domainResolver {x y : String} (hx : Domain x) (hy : Value y) :
      Recognised (slashedLine "server" x y) (.domainResolver x y)
  | cache {v : String} (hv : Value v) : Recognised (valueLine "cache-size" v) (.cache v)
  | ipOverride {x y : String} (hx : Domain x) (hall : x ≠ "#") (hy : Value y) :
      Recognised (slashedLine "address" x y) (.ipOverride x y)
  | arbitraryAddress {y : String} (hy : Value y) : Recognised (slashedLine "address" "#" y)
      (.arbitraryAddress y)
  | forward {v : String} (hv : Value v) (hslashed : ¬Slashed v) : Recognised
      (valueLine "server" v) (.forward v)
  | hostsFile {key v : String} (hkey : key ∈ ["addn-hosts", "hosts-file"]) (hv : Value v) :
      Recognised (valueLine key v) (.hostsFile v)
  | listenInterface {v : String} (hv : Value v) : Recognised
      (valueLine "interface" v) (.listenInterface v)

theorem slashedLine_eq_valueLine : slashedLine key x y = valueLine key ("/" ++ x ++ "/" ++ y) := by
  rw [← String.toList_inj, toList_slashedLine, toList_valueLine]
  simp

/-- The key of a line is what stands before its first `=`. -/
theorem valueLine_inj {key key' v v' : String} (hkey : '=' ∉ key.toList) (hkey' : '=' ∉ key'.toList)
    (h : valueLine key v = valueLine key' v') : key = key' ∧ v = v' := by
  rw [← String.toList_inj, toList_valueLine, toList_valueLine] at h
  obtain ⟨hk, hv⟩ := GoStrings.append_cons_inj hkey hkey' h
  exact ⟨String.toList_inj.1 hk, String.toList_inj.1 hv⟩

theorem find_keyRe_eq_none {key' : String} (hkey : '=' ∉ key.toList) (hkey' : '=' ∉ key'.toList)
    (hne : key ≠ key') :
    (valueRe (.text key')).find (valueLine key v) = none := by
  rw [Option.eq_none_iff_forall_ne_some]
  intro found h
  obtain ⟨v', -, hline, -⟩ := (find_keyRe_iff hkey').1 h
  exact hne (valueLine_inj hkey hkey' hline).1

theorem find_slashedRe_eq_none {key' : String} (hkey : '=' ∉ key.toList) (hkey' : '=' ∉ key'.toList)
    (hne : key ≠ key') :
    (slashedRe key').find (valueLine key v) = none := by
  rw [Option.eq_none_iff_forall_ne_some]
  intro found h
  obtain ⟨x, y, -, -, hline, -⟩ := find_slashedRe_iff.1 h
  exact hne (valueLine_inj hkey hkey' (hline.trans slashedLine_eq_valueLine)).1

theorem find_server_eq_none (h : ¬Slashed v) :
    (slashedRe "server").find (valueLine "server" v) = none := by
  rw [Option.eq_none_iff_forall_ne_some]
  intro found hfound
  obtain ⟨x, y, hx, hy, hline, -⟩ := find_slashedRe_iff.1 hfound
  obtain ⟨-, rfl⟩ := valueLine_inj (by decide) (by decide) (hline.trans slashedLine_eq_valueLine)
  exact h ⟨x, y, hx, hy, rfl⟩

theorem recognised_of_parseDnsmasqLine (h : parseDnsmasqLine line = some rule) :
    Recognised line rule := by
  rw [parseDnsmasqLine] at h
  split at h
  · next m hm =>
    obtain ⟨x, y, hx, hy, rfl, rfl⟩ := find_slashedRe_iff.1 hm
    obtain rfl := Option.some.inj h
    exact .domainResolver hx hy
  next hserver =>
  split at h
  · next m hm =>
    obtain ⟨v, hv, rfl, rfl⟩ := (find_keyRe_iff (by decide)).1 hm
    obtain rfl := Option.some.inj h
    exact .cache hv
  split at h
  · next m hm =>
    obtain ⟨x, y, hx, hy, rfl, rfl⟩ := find_slashedRe_iff.1 hm
    split_ifs at h with hall
    · obtain rfl : x = "#" := hall
      obtain rfl := Option.some.inj h
      exact .arbitraryAddress hy
    · obtain rfl := Option.some.inj h
      exact .ipOverride hx hall hy
  split at h
  · next m hm =>
    obtain ⟨v, hv, rfl, rfl⟩ := (find_keyRe_iff (by decide)).1 hm
    obtain rfl := Option.some.inj h
    refine .forward hv fun ⟨x, y, hx, hy, hslashed⟩ => hserver [x, y] ?_
    exact find_slashedRe_iff.2 ⟨x, y, hx, hy, by rw [hslashed, slashedLine_eq_valueLine], rfl⟩
  split at h
  · next m hm =>
    obtain ⟨key, hkey, v, hv, rfl, rfl⟩ := find_hostsRe_iff.1 hm
    obtain rfl := Option.some.inj h
    exact .hostsFile hkey hv
  split at h
  · next m hm =>
    obtain ⟨v, hv, rfl, rfl⟩ := (find_keyRe_iff (by decide)).1 hm
    obtain rfl := Option.some.inj h
    exact .listenInterface hv
  · cases h

theorem parseDnsmasqLine_of_recognised (h : Recognised line rule) :
    parseDnsmasqLine line = some rule := by
  cases h with
  | domainResolver hx hy =>
    rw [parseDnsmasqLine, find_slashedRe_iff.2 ⟨_, _, hx, hy, rfl, rfl⟩]
    rfl
  | cache hv =>
    rw [parseDnsmasqLine, find_slashedRe_eq_none (by decide) (by decide) (by decide),
      (find_keyRe_iff (by decide)).2 ⟨_, hv, rfl, rfl⟩]
    rfl
  | @ipOverride x y hx hall hy =>
    rw [parseDnsmasqLine, slashedLine_eq_valueLine, find_slashedRe_eq_none (by decide)
      (by decide) (by decide), find_keyRe_eq_none (by decide) (by decide) (by decide),
      ← slashedLine_eq_valueLine, find_slashedRe_iff.2 ⟨_, _, hx, hy, rfl, rfl⟩]
    exact if_neg hall
  | @arbitraryAddress y hy =>
    rw [parseDnsmasqLine, slashedLine_eq_valueLine, find_slashedRe_eq_none (by decide)
      (by decide) (by decide), find_keyRe_eq_none (by decide) (by decide) (by decide),
      ← slashedLine_eq_valueLine, find_slashedRe_iff.2 ⟨_, _, ⟨by decide, by decide⟩, hy, rfl, rfl⟩]
    rfl
  | forward hv hslashed =>
    rw [parseDnsmasqLine, find_server_eq_none hslashed,
      find_keyRe_eq_none (by decide) (by decide) (by decide), find_slashedRe_eq_none (by decide)
      (by decide) (by decide), (find_keyRe_iff (by decide)).2 ⟨_, hv, rfl, rfl⟩]
    rfl
  | @hostsFile key v hkey hv =>
    have hother : '=' ∉ key.toList ∧ key ≠ "server" ∧ key ≠ "cache-size" ∧ key ≠ "address" := by
      revert key
      decide
    obtain ⟨heq, hserver, hcache, haddress⟩ := hother
    rw [parseDnsmasqLine, find_slashedRe_eq_none heq (by decide) hserver,
      find_keyRe_eq_none heq (by decide) hcache, find_slashedRe_eq_none heq (by decide) haddress,
      find_keyRe_eq_none heq (by decide) hserver, find_hostsRe_iff.2 ⟨key, hkey, v, hv, rfl, rfl⟩]
    rfl
  | @listenInterface v hv =>
    have hhosts : (valueRe (.alt (.text "addn-hosts") (.text "hosts-file"))).find
        (valueLine "interface" v) = none := by
      rw [Option.eq_none_iff_forall_ne_some]
      intro found h
      obtain ⟨key, hkey, v', -, hline, -⟩ := find_hostsRe_iff.1 h
      have heq : '=' ∉ key.toList ∧ "interface" ≠ key := by
        clear hline
        revert key
        decide
      exact heq.2 (valueLine_inj (by decide) heq.1 hline).1
    rw [parseDnsmasqLine, find_slashedRe_eq_none (by decide) (by decide) (by decide),
      find_keyRe_eq_none (by decide) (by decide) (by decide), find_slashedRe_eq_none (by decide)
      (by decide) (by decide), find_keyRe_eq_none (by decide) (by decide) (by decide), hhosts,
        (find_keyRe_iff (by decide)).2 ⟨_, hv, rfl, rfl⟩]
    rfl

/-- **The ordered expressions** read the lines that are recognised. -/
theorem parseDnsmasqLine_eq_some_iff : parseDnsmasqLine line = some rule ↔ Recognised line rule :=
  ⟨recognised_of_parseDnsmasqLine, parseDnsmasqLine_of_recognised⟩

/-! ### Lines of texts -/

/-- A trimmed line that is not blank. -/
structure Setting (line : String) : Prop where
  ne_empty : line ≠ ""
  trimmed : trim line = line
  oneLine : '\n' ∉ line.toList

/-- Whether the `\r` before a `\n` belongs to the line makes no difference once the lines are
trimmed. -/
theorem nonblank_split_dropReturns (l before : List Char) (h : '\n' ∉ before) :
    nonblank (GoStrings.split (String.ofList (before ++ dropReturns l)) '\n') =
      nonblank (GoStrings.split (String.ofList (before ++ l)) '\n') := by
  have hbreak : ∀ b l : List Char, '\n' ∉ b →
      nonblank (GoStrings.split (String.ofList (b ++ '\n' :: l)) '\n') =
      nonblank [String.ofList b] ++ nonblank (GoStrings.split (String.ofList l) '\n') := by
    intro b l hb
    have hpieces : String.ofList (b ++ '\n' :: l) = String.ofList b ++
        String.singleton '\n' ++ String.ofList l := by
      rw [← String.toList_inj]
      simp
    rw [hpieces, GoStrings.split_append, JsStrings.nonblank_append,
      GoStrings.split_of_not_mem (s := String.ofList b) (by rwa [String.toList_ofList])]
  fun_induction dropReturns l generalizing before with
  | case1 c d l hreturn ih =>
    obtain ⟨rfl, rfl⟩ := hreturn
    have htrim : trim (String.ofList (before ++ ['\r'])) = trim (String.ofList before) := by
      rw [String.ofList_append]
      exact JsStrings.trim_append_right (by decide)
    have hcr : before ++ '\r' :: '\n' :: l = (before ++ ['\r']) ++ '\n' :: l := by simp
    rw [hbreak before _ h, hcr, hbreak _ l (by simpa using h), JsStrings.nonblank_singleton,
      JsStrings.nonblank_singleton, htrim]
    exact congrArg _ (ih [] List.not_mem_nil)
  | case2 c d l hreturn ih =>
    by_cases hc : c = '\n'
    · subst hc
      rw [hbreak before _ h, hbreak before _ h]
      exact congrArg _ (ih [] List.not_mem_nil)
    · have hnext := ih (before ++ [c]) (by simpa [Ne.symm hc] using h)
      rwa [List.append_assoc, List.append_assoc] at hnext
  | case3 l hl => rfl

theorem settingLines_eq (raw : String) :
    settingLines raw = nonblank (GoStrings.split raw '\n') := by
  rw [settingLines, ← List.nil_append (dropReturns _),
    nonblank_split_dropReturns _ [] List.not_mem_nil, List.nil_append, String.ofList_toList]

theorem setting_of_mem {raw : String} (h : line ∈ settingLines raw) : Setting line := by
  rw [settingLines_eq] at h
  obtain ⟨part, hpart, rfl, hne⟩ := JsStrings.mem_nonblank h
  refine ⟨hne, JsStrings.trim_trim part, fun hmem => (GoStrings.mem_split hpart).1 ?_⟩
  rw [trim, String.toList_ofList] at hmem
  exact (GoStrings.trimList_sublist _ _).mem hmem

/-- **The lines of joined settings** are the settings. -/
theorem settingLines_intercalate {lines : List String} (h : ∀ line ∈ lines, Setting line) :
    settingLines ("\n".intercalate lines) = lines := by
  have hnonblank : nonblank lines = lines := by
    have hmap : lines.map trim = lines := by
      rw [List.map_congr_left fun line hline => (h line hline).trimmed, List.map_id']
    rw [nonblank, hmap, List.filter_eq_self]
    exact fun line hline => decide_eq_true (h line hline).ne_empty
  rw [settingLines_eq]
  by_cases hnil : lines = []
  · subst hnil
    decide
  · have hsplit : lines.flatMap (GoStrings.split · '\n') = lines := by
      rw [List.flatMap_congr fun line hline => GoStrings.split_of_not_mem (h line hline).oneLine,
        List.flatMap_singleton']
    rw [show "\n" = String.singleton '\n' from rfl, GoStrings.split_intercalate hnil,
      hsplit, hnonblank]

theorem map_rule_draftRows (seq : ℕ) (lines : List String) :
    (draftRows seq lines).map DraftRow.rule = lines.filterMap parseDnsmasqLine := by
  induction lines generalizing seq with
  | nil => rfl
  | cons line lines ih =>
    rw [draftRows]
    cases h : parseDnsmasqLine line with
    | none => rw [List.filterMap_cons_none h, ih seq]
    | some rule => rw [List.filterMap_cons_some h, List.map_cons, ih (seq + 1)]

/-! ### Rows and their lines -/

/-- The line of a row as it is. -/
def DnsRule.text : DnsRule → String
  | .domainResolver domain targetDns => slashedLine "server" domain targetDns
  | .cache cacheSize => valueLine "cache-size" cacheSize
  | .ipOverride domain ip => slashedLine "address" domain ip
  | .arbitraryAddress ip => slashedLine "address" "#" ip
  | .forward targetDns => valueLine "server" targetDns
  | .hostsFile path => valueLine "addn-hosts" path
  | .listenInterface iface => valueLine "interface" iface

theorem DnsRule.line_eq (rule : DnsRule) : rule.line = rule.kept.map DnsRule.text := by
  cases rule <;>
    simp only [line, kept, fields, List.mem_cons, List.not_mem_nil, or_false,
    forall_eq_or_imp, forall_eq] <;> split_ifs <;> simp [map, text, slashedLine, valueLine]

theorem DnsRule.fields_map (f : String → String) (rule : DnsRule) :
    (rule.map f).fields = rule.fields.map f := by
  cases rule <;> rfl

theorem DnsRule.kept_eq_some_iff {rule r : DnsRule} :
    rule.kept = some r ↔ (∀ v ∈ rule.fields, trim v ≠ "") ∧ r = rule.map trim := by
  rw [kept]
  split_ifs with h
  · rw [Option.some_inj, eq_comm, and_iff_right h]
  · simp [h]

/-- The fields of a row that is kept are trimmed and not blank. -/
theorem DnsRule.fields_of_kept {rule r : DnsRule} (h : rule.kept = some r) : ∀ v ∈ r.fields,
    v ≠ "" ∧ trim v = v := by
  obtain ⟨hne, rfl⟩ := kept_eq_some_iff.1 h
  rw [fields_map, List.forall_mem_map]
  exact fun v hv => ⟨hne v hv, JsStrings.trim_trim v⟩

/-- The last character of a trimmed text is no white space. -/
theorem isSpace_getLast {v : String} (hne : v.toList ≠ []) (hv : trim v = v) :
    JsStrings.isSpace (v.toList.getLast hne) = false := by
  have hlist : GoStrings.trimList JsStrings.isSpace v.toList = v.toList := by
    rw [← String.toList_inj, trim, String.toList_ofList] at hv
    exact hv
  have hlast := GoStrings.trimList_getLast (p := JsStrings.isSpace) (l := v.toList) (by rwa [hlist])
  simpa only [hlist] using hlast

/-- A text is trimmed when it begins with no white space and the text at its end ends with none. -/
theorem trim_append {a v : String} {c : Char} {l : List Char} (ha : a.toList = c :: l)
    (hc : JsStrings.isSpace c = false) (hne : v.toList ≠ [])
    (hlast : JsStrings.isSpace (v.toList.getLast hne) = false) :
    trim (a ++ v) = a ++ v := by
  rw [trim, String.toList_append, GoStrings.trimList_eq_self,
    ← String.toList_append, String.ofList_toList]
  · intro _
    simpa [ha] using hc
  · intro _
    rwa [List.getLast_append_of_ne_nil _ hne]

theorem setting_append {a v : String} {c : Char} {l : List Char} (ha : a.toList = c :: l)
    (hc : JsStrings.isSpace c = false) (hbreak : '\n' ∉ a.toList)
    (hv : v ≠ "" ∧ trim v = v ∧ '\n' ∉ v.toList) :
    Setting (a ++ v) where
  ne_empty h := hv.1 (String.append_eq_empty_iff.1 h).2
  trimmed := trim_append ha hc (by simpa using hv.1) (isSpace_getLast _ hv.2.1)
  oneLine h := by
    rw [String.toList_append, List.mem_append] at h
    exact h.elim hbreak hv.2.2

/-- The line of a row with trimmed fields of one line. -/
theorem DnsRule.setting_text {r : DnsRule}
    (h : ∀ v ∈ r.fields, v ≠ "" ∧ trim v = v ∧ '\n' ∉ v.toList) :
    Setting r.text := by
  have hslashed : ∀ {c : Char} {l : List Char} {key x y : String}, key.toList = c :: l →
      JsStrings.isSpace c = false →
      '\n' ∉ key.toList → '\n' ∉ x.toList → (y ≠ "" ∧ trim y = y ∧ '\n' ∉ y.toList) →
      Setting (slashedLine key x y) := by
    intro c l key x y hkey hc hbreak hx hy
    refine setting_append
      (by simp only [String.toList_append, hkey, List.cons_append]; rfl) hc ?_ hy
    simpa using ⟨hbreak, hx⟩
  have hvalue : ∀ {c : Char} {l : List Char} {key v : String}, key.toList = c :: l →
      JsStrings.isSpace c = false →
      '\n' ∉ key.toList → (v ≠ "" ∧ trim v = v ∧ '\n' ∉ v.toList) → Setting (valueLine key v) := by
    intro c l key v hkey hc hbreak hv
    refine setting_append
      (by simp only [String.toList_append, hkey, List.cons_append]; rfl) hc ?_ hv
    simpa using hbreak
  cases r with
  | domainResolver domain targetDns =>
    obtain ⟨hx, hy⟩ := List.forall_mem_cons.1 h
    exact hslashed rfl rfl (by decide) hx.2.2 (hy _ List.mem_cons_self)
  | cache v => exact hvalue rfl rfl (by decide) (h _ List.mem_cons_self)
  | ipOverride domain ip =>
    obtain ⟨hx, hy⟩ := List.forall_mem_cons.1 h
    exact hslashed rfl rfl (by decide) hx.2.2 (hy _ List.mem_cons_self)
  | arbitraryAddress ip => exact hslashed rfl rfl (by decide) (by decide) (h _ List.mem_cons_self)
  | forward v => exact hvalue rfl rfl (by decide) (h _ List.mem_cons_self)
  | hostsFile v => exact hvalue rfl rfl (by decide) (h _ List.mem_cons_self)
  | listenInterface v => exact hvalue rfl rfl (by decide) (h _ List.mem_cons_self)

/-! ### The draft is read again -/

/-- The rows that are read again as what they are. -/
def DnsRule.Unambiguous : DnsRule → Prop
  | .domainResolver domain targetDns => '/' ∉ domain.toList ∧
    '\n' ∉ domain.toList ∧ SingleLine targetDns
  | .ipOverride domain ip => domain ≠ "#" ∧ '/' ∉ domain.toList ∧
    '\n' ∉ domain.toList ∧ SingleLine ip
  | .forward targetDns => SingleLine targetDns ∧ ¬Slashed targetDns
  | .cache v | .arbitraryAddress v | .hostsFile v | .listenInterface v => SingleLine v

theorem SingleLine.not_mem (h : SingleLine v) : '\n' ∉ v.toList :=
  fun hmem => absurd (h _ hmem) (by decide)

theorem DnsRule.Unambiguous.not_mem (h : rule.Unambiguous) :
    ∀ v ∈ rule.fields, '\n' ∉ v.toList := by
  cases rule with
  | domainResolver domain targetDns => simpa [fields] using ⟨h.2.1, h.2.2.not_mem⟩
  | ipOverride domain ip => simpa [fields] using ⟨h.2.2.1, h.2.2.2.not_mem⟩
  | forward targetDns => simpa [fields] using h.1.not_mem
  | _ => simpa [fields] using SingleLine.not_mem h

/-- A line of one line is read as a row that is not ambiguous. -/
theorem Recognised.unambiguous (h : Recognised line rule) (hbreak : '\n' ∉ line.toList) :
    rule.Unambiguous := by
  cases h with
  | domainResolver hx hy =>
    simp only [toList_slashedLine, List.mem_append, List.mem_cons, not_or] at hbreak
    exact ⟨hx.2, hbreak.1.2.2.2, hy.2⟩
  | cache hv => exact hv.2
  | ipOverride hx hall hy =>
    simp only [toList_slashedLine, List.mem_append, List.mem_cons, not_or] at hbreak
    exact ⟨hall, hx.2, hbreak.1.2.2.2, hy.2⟩
  | arbitraryAddress hy => exact hy.2
  | forward hv hslashed => exact ⟨hv.2, hslashed⟩
  | hostsFile hkey hv => exact hv.2
  | listenInterface hv => exact hv.2

/-- A row that is not ambiguous is read from its line. -/
theorem DnsRule.Unambiguous.recognised (h : rule.Unambiguous) (hne : ∀ v ∈ rule.fields, v ≠ "") :
    Recognised rule.text rule := by
  cases rule with
  | domainResolver domain targetDns =>
    obtain ⟨hx, hy⟩ := List.forall_mem_cons.1 hne
    exact .domainResolver ⟨hx, h.1⟩ ⟨hy _ List.mem_cons_self, h.2.2⟩
  | cache v => exact .cache ⟨hne _ List.mem_cons_self, h⟩
  | ipOverride domain ip =>
    obtain ⟨hx, hy⟩ := List.forall_mem_cons.1 hne
    exact .ipOverride ⟨hx, h.2.1⟩ h.1 ⟨hy _ List.mem_cons_self, h.2.2.2⟩
  | arbitraryAddress v => exact .arbitraryAddress ⟨hne _ List.mem_cons_self, h⟩
  | forward v => exact .forward ⟨hne _ List.mem_cons_self, h.1⟩ h.2
  | hostsFile v => exact .hostsFile List.mem_cons_self ⟨hne _ List.mem_cons_self, h⟩
  | listenInterface v => exact .listenInterface ⟨hne _ List.mem_cons_self, h⟩

/-- The rows of a draft that are not blank, trimmed. -/
def keptRules (draft : List DraftRow) : List DnsRule := draft.filterMap fun row => row.rule.kept

theorem buildDnsmasqTextFromDraft_eq (draft : List DraftRow) :
    buildDnsmasqTextFromDraft draft = "\n".intercalate ((keptRules draft).map DnsRule.text) := by
  rw [buildDnsmasqTextFromDraft, keptRules, List.map_filterMap]
  simp only [DnsRule.line_eq]

/-- **A draft is read again** exactly when none of the rows that are kept is ambiguous: each has to
be one line, which the pattern of its own kind is the first to recognise. -/
theorem survives_iff (draft : List DraftRow) : Survives draft ↔
    ∀ rule ∈ keptRules draft, rule.Unambiguous := by
  rw [Survives, parseDnsmasqConfigToDraft, map_rule_draftRows, buildDnsmasqTextFromDraft_eq]
  change _ = keptRules draft ↔ _
  have hfields : ∀ rule ∈ keptRules draft, ∀ v ∈ rule.fields, v ≠ "" ∧ trim v = v := by
    intro rule hrule
    obtain ⟨row, -, hkept⟩ := List.mem_filterMap.1 hrule
    exact DnsRule.fields_of_kept hkept
  constructor
  · intro h rule hrule
    rw [← h] at hrule
    obtain ⟨line, hline, hread⟩ := List.mem_filterMap.1 hrule
    exact (parseDnsmasqLine_eq_some_iff.1 hread).unambiguous (setting_of_mem hline).oneLine
  · intro h
    rw [settingLines_intercalate (List.forall_mem_map.2 fun rule hrule =>
      DnsRule.setting_text fun v hv =>
      ⟨(hfields rule hrule v hv).1, (hfields rule hrule v hv).2, (h rule hrule).not_mem v hv⟩),
        List.filterMap_map]
    refine (List.filterMap_congr fun rule hrule => ?_).trans List.filterMap_some
    exact parseDnsmasqLine_of_recognised ((h rule hrule).recognised fun v hv =>
      (hfields rule hrule v hv).1)

/-- A row that gives the domain `#` an address is read as a row for any address. -/
theorem draft_not_survives :
    ¬∀ draft, (∀ row ∈ draft, ∀ v ∈ row.rule.fields, SingleLine v) → Survives draft := by
  intro h
  exact absurd (h [⟨"dns-1", .ipOverride "#" "10.0.0.1"⟩] (by decide)) (by decide +kernel)

/-! ### Nothing is lost -/

/-- The line that is saved for a line. -/
def writtenLine (line : String) : Option String := (parseDnsmasqLine line).bind DnsRule.line

theorem buildDnsmasqTextFromDraft_parse (raw : String) :
    buildDnsmasqTextFromDraft (parseDnsmasqConfigToDraft raw) =
    "\n".intercalate ((settingLines raw).filterMap writtenLine) := by
  have hrows : (parseDnsmasqConfigToDraft raw).filterMap (fun row => row.rule.line) =
      ((parseDnsmasqConfigToDraft raw).map DraftRow.rule).filterMap DnsRule.line := by
    rw [List.filterMap_map]
    rfl
  rw [buildDnsmasqTextFromDraft, hrows, parseDnsmasqConfigToDraft, map_rule_draftRows,
    List.filterMap_filterMap]
  rfl

theorem Recognised.ne_empty (h : Recognised line rule) : ∀ v ∈ rule.fields, v ≠ "" := by
  cases h with
  | domainResolver hx hy => simpa [DnsRule.fields] using ⟨hx.1, hy.1⟩
  | cache hv => simpa [DnsRule.fields] using hv.1
  | ipOverride hx hall hy => simpa [DnsRule.fields] using ⟨hx.1, hy.1⟩
  | arbitraryAddress hy => simpa [DnsRule.fields] using hy.1
  | forward hv hslashed => simpa [DnsRule.fields] using hv.1
  | hostsFile hkey hv => simpa [DnsRule.fields] using hv.1
  | listenInterface hv => simpa [DnsRule.fields] using hv.1

theorem renamed_hosts : renamed (valueLine "hosts-file" v) = valueLine "addn-hosts" v := by
  have hlist : (valueLine "hosts-file" v).toList = "hosts-file=".toList ++ v.toList := by
    rw [valueLine, String.toList_append]
    rfl
  rw [renamed, GoStrings.hasPrefix, hlist,
    if_pos (List.isPrefixOf_iff_prefix.2 (List.prefix_append _ _)),
    List.drop_left' (by rfl), String.ofList_toList]
  rfl

theorem renamed_of_ne (hkey : '=' ∉ key.toList) (hne : key ≠ "hosts-file") :
    renamed (valueLine key v) = valueLine key v := by
  rw [renamed, if_neg]
  intro hprefix
  obtain ⟨rest, hrest⟩ := List.isPrefixOf_iff_prefix.1 hprefix
  have hline : valueLine key v = valueLine "hosts-file" (String.ofList rest) := by
    rw [← String.toList_inj, ← hrest, toList_valueLine]
    simp only [String.toList_ofList]
    rfl
  exact hne (valueLine_inj hkey (by decide) hline).1

/-- The line of a row is the line it was read from, renamed. -/
theorem Recognised.text_eq (h : Recognised line rule) : rule.text = renamed line := by
  cases h with
  | @hostsFile key v hkey hv =>
    rw [List.mem_cons, List.mem_singleton] at hkey
    obtain rfl | rfl := hkey
    · exact (renamed_of_ne (by decide) (by decide)).symm
    · exact renamed_hosts.symm
  | domainResolver hx hy =>
    rw [slashedLine_eq_valueLine, renamed_of_ne (by decide) (by decide), DnsRule.text,
      slashedLine_eq_valueLine]
  | ipOverride hx hall hy =>
    rw [slashedLine_eq_valueLine, renamed_of_ne (by decide) (by decide), DnsRule.text,
      slashedLine_eq_valueLine]
  | arbitraryAddress hy =>
    rw [slashedLine_eq_valueLine, renamed_of_ne (by decide) (by decide), DnsRule.text,
      slashedLine_eq_valueLine]
  | _ => exact (renamed_of_ne (by decide) (by decide)).symm

/-- The fields of a row whose line stays the same are trimmed. -/
theorem Recognised.trimmed_of_text (h : Recognised line rule)
    (htext : (rule.map trim).text = rule.text) :
    ∀ v ∈ rule.fields, trim v = v := by
  have hvalue : ∀ {key v w : String}, valueLine key v = valueLine key w → v = w := by
    intro key v w heq
    rw [← String.toList_inj, toList_valueLine, toList_valueLine] at heq
    exact String.toList_inj.1 (List.cons.inj (List.append_cancel_left heq)).2
  have hslashed : ∀ {key x y : String}, '/' ∉ x.toList →
      slashedLine key (trim x) (trim y) = slashedLine key x y → trim x = x ∧ trim y = y := by
    intro key x y hx heq
    have htrim : '/' ∉ (trim x).toList := fun hmem => hx ((GoStrings.trimList_sublist _ _).mem (by
      rwa [trim, String.toList_ofList] at hmem))
    rw [← String.toList_inj, toList_slashedLine, toList_slashedLine] at heq
    simp only [List.append_assoc, List.cons_append, List.append_cancel_left_eq,
      List.cons.injEq, true_and] at heq
    obtain ⟨hdomain, htarget⟩ := GoStrings.append_cons_inj htrim hx heq
    exact ⟨String.toList_inj.1 hdomain, String.toList_inj.1 htarget⟩
  cases h with
  | domainResolver hx hy => simpa [DnsRule.fields] using hslashed hx.2 htext
  | ipOverride hx hall hy => simpa [DnsRule.fields] using hslashed hx.2 htext
  | @arbitraryAddress y hy => 
    have heq : slashedLine "address" "#" (trim y) = slashedLine "address" "#" y := htext
    rw [slashedLine_eq_valueLine, slashedLine_eq_valueLine] at heq
    simpa [DnsRule.fields] using hvalue heq
  | cache hv => simpa [DnsRule.fields] using hvalue htext
  | forward hv hnot => simpa [DnsRule.fields] using hvalue htext
  | hostsFile hkey hv => simpa [DnsRule.fields] using hvalue htext
  | listenInterface hv => simpa [DnsRule.fields] using hvalue htext

/-- **A line is saved as it is** exactly when it is recognised and its values are trimmed. -/
theorem writtenLine_eq_iff : writtenLine line = some (renamed line) ↔
    ∃ rule, Recognised line rule ∧ ∀ v ∈ rule.fields, trim v = v := by
  rw [writtenLine, Option.bind_eq_some_iff]
  refine exists_congr fun rule => ?_
  rw [parseDnsmasqLine_eq_some_iff]
  refine and_congr_right fun hrec => ?_
  rw [DnsRule.line_eq, Option.map_eq_some_iff, ← hrec.text_eq]
  constructor
  · rintro ⟨r, hkept, htext⟩
    obtain ⟨-, rfl⟩ := DnsRule.kept_eq_some_iff.1 hkept
    exact hrec.trimmed_of_text htext
  · intro htrim
    refine ⟨rule, DnsRule.kept_eq_some_iff.2 ⟨fun v hv => ?_, ?_⟩, rfl⟩
    · rw [htrim v hv]
      exact hrec.ne_empty v hv
    · cases rule <;> simp_all [DnsRule.map, DnsRule.fields]

theorem setting_writtenLine {w : String} (hline : Setting line) (h : writtenLine line = some w) :
    Setting w := by
  obtain ⟨rule, hread, hwrite⟩ := Option.bind_eq_some_iff.1 h
  rw [DnsRule.line_eq, Option.map_eq_some_iff] at hwrite
  obtain ⟨r, hkept, rfl⟩ := hwrite
  refine DnsRule.setting_text fun v hv => ⟨(DnsRule.fields_of_kept hkept v hv).1,
    (DnsRule.fields_of_kept hkept v hv).2, ?_⟩
  obtain ⟨-, rfl⟩ := DnsRule.kept_eq_some_iff.1 hkept
  rw [DnsRule.fields_map] at hv
  obtain ⟨field, hfield, rfl⟩ := List.mem_map.1 hv
  have hbreak :=
    ((recognised_of_parseDnsmasqLine hread).unambiguous hline.oneLine).not_mem field hfield
  rw [trim, String.toList_ofList]
  exact fun hmem => hbreak ((GoStrings.trimList_sublist _ _).mem hmem)

theorem setting_renamed (h : Setting line) : Setting (renamed line) := by
  rw [renamed]
  split_ifs with hprefix
  · obtain ⟨rest, hrest⟩ := List.isPrefixOf_iff_prefix.1 hprefix
    rw [← hrest, List.drop_left' (by rfl)]
    by_cases hnil : rest = []
    · subst hnil
      exact ⟨by decide, by decide, by decide⟩
    · have hlast := isSpace_getLast (by simp [← hrest]) h.trimmed
      simp only [← hrest, List.getLast_append_of_ne_nil _ hnil] at hlast
      refine ⟨fun hempty => hnil ?_, trim_append rfl rfl (by simpa using hnil)
        (by simpa using hlast), fun hbreak => ?_⟩
      · simpa using (String.append_eq_empty_iff.1 hempty).2
      · refine h.oneLine ?_
        rw [String.toList_append, List.mem_append] at hbreak
        rw [← hrest]
        exact List.mem_append_right _ (by simpa using hbreak.resolve_left (by decide))
  · exact h

theorem writtenLine_of_comment (h : CommentLine line) : writtenLine line = none := by
  have hread : parseDnsmasqLine line = none := by
    rw [Option.eq_none_iff_forall_ne_some]
    intro rule hrule
    rw [CommentLine] at h
    cases recognised_of_parseDnsmasqLine hrule with
    | @hostsFile key v hkey hv =>
      rw [List.mem_cons, List.mem_singleton] at hkey
      obtain rfl | rfl := hkey <;> exact absurd h (by simp [toList_valueLine])
    | _ => exact absurd h (by simp [toList_valueLine, toList_slashedLine])
  rw [writtenLine, hread, Option.bind_none]

/-- **Nothing is lost** exactly when every setting is recognised and has no white space around its
values. Comments and blank lines are no settings, and the reader drops them on purpose. -/
theorem lossless_iff (raw : String) : Lossless raw ↔ ∀ line ∈ settingLines raw, ¬CommentLine line →
    ∃ rule, Recognised line rule ∧ ∀ v ∈ rule.fields, trim v = v := by
  have hcomments : (settingLines raw).filterMap writtenLine =
      ((settingLines raw).filter fun line => ¬CommentLine line).filterMap writtenLine := by
    rw [List.filterMap_filter]
    refine List.filterMap_congr fun line _ => ?_
    by_cases hcomment : CommentLine line
    · simp [hcomment, writtenLine_of_comment hcomment]
    · simp [hcomment]
  have hsettings : Lossless raw ↔ (settingLines raw).filterMap writtenLine =
      ((settingLines raw).filter fun line => ¬CommentLine line).map renamed := by
    rw [Lossless, buildDnsmasqTextFromDraft_parse]
    refine ⟨fun h => ?_, fun h => by rw [h]⟩
    have hwritten : ∀ w ∈ (settingLines raw).filterMap writtenLine, Setting w := by
      intro w hw
      obtain ⟨line, hline, hwrite⟩ := List.mem_filterMap.1 hw
      exact setting_writtenLine (setting_of_mem hline) hwrite
    rw [← settingLines_intercalate hwritten, h, settingLines_intercalate]
    intro w hw
    obtain ⟨line, hline, rfl⟩ := List.mem_map.1 hw
    exact setting_renamed (setting_of_mem (List.mem_filter.1 hline).1)
  rw [hsettings, hcomments, List.filterMap_eq_map_iff_forall_eq_some]
  simp only [writtenLine_eq_iff, List.mem_filter, decide_eq_true_eq, and_imp]

/-- A directive that no expression knows is dropped. -/
theorem opening_loses : ¬∀ raw, Lossless raw := fun h => absurd (h "no-resolv") (by decide +kernel)

end OpenvpnControl.Frontend
