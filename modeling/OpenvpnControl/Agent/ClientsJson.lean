import Mathlib.Data.List.ReduceOption
import OpenvpnControl.Agent.ClientsPersist
import OpenvpnControl.Library.Float64

/-!
# The clients in the answer of an agent

`parseClientsJSON` decodes the list of clients into records. When an element is ill typed it decodes
the whole list again, into maps, and converts the values itself. This file determines when a
well-typed row gets the same record beside any other rows.

## Main definitions

* `ClientsDocument`: the answer of the agent.
* `strictElement`, `looseElement`, `looseClient`: the two decodings.
* `parseClientsJSON`, `outcome`: the records, and what becomes of one element.
* `WellTyped`, `Typed`, `InRange`, `ReadsAlike`: conditions on rows.

## Main results

* `isSome_strictRow_iff`, `strictRow_eq`: the rows that can be decoded, and their records.
* `looseClient_eq_iff`: the rows of which both decodings make one record.
* `independent_iff`: when a row does not depend on the others.
-/

namespace OpenvpnControl.Agent.ClientsJson

/-! ### Documents -/

/-- A value of a row: a number that is written with digits alone, or any other one. -/
inductive Value where
  | uint (n : ℕ)
  | other (v : Json)
  deriving DecidableEq

/-- The value. -/
def Value.json : Value → Json
  | uint n => .num (.ofInt n)
  | other v => v

/-- The fields of an object as they are written. -/
abbrev Row : Type := List (String × Value)

/-- An element of the list; `other` is neither an object nor `null`. -/
inductive Element where
  | obj (row : Row)
  | null
  | other

/-- The answer without the byte order mark and the white space at its ends; `other` is neither a
list nor `null`. -/
inductive ClientsDocument where
  | blank
  | malformed
  | null
  | array (elems : List Element)
  | other

/-- The fields of `vpnClientJSON` that are texts. -/
inductive TextField where
  | id
  | commonName
  | remoteIp
  | virtualIp
  | connectedAt
  deriving DecidableEq

/-- The fields of `vpnClientJSON` that are numbers. -/
inductive CountField where
  | rxBytes
  | txBytes
  deriving DecidableEq

/-- The key of a field. -/
def TextField.key : TextField → String
  | id => "id"
  | commonName => "commonName"
  | remoteIp => "remoteIp"
  | virtualIp => "virtualIp"
  | connectedAt => "connectedAt"

/-- The key of a field. -/
def CountField.key : CountField → String
  | rxBytes => "rxBytes"
  | txBytes => "txBytes"

structure VpnClientJSON extends VpnClient where
  rxBytes : ℕ
  txBytes : ℕ
  deriving DecidableEq

namespace VpnClientJSON

/-- The record without values. -/
def zero : VpnClientJSON := ⟨⟨"", "", "", "", ""⟩, 0, 0⟩

/-- A text of a record. -/
def text (c : VpnClientJSON) : TextField → String
  | .id => c.id
  | .commonName => c.commonName
  | .remoteIp => c.remoteIp
  | .virtualIp => c.virtualIp
  | .connectedAt => c.connectedAt

/-- A number of a record. -/
def count (c : VpnClientJSON) : CountField → ℕ
  | .rxBytes => c.rxBytes
  | .txBytes => c.txBytes

/-- The record with the texts and numbers. -/
def of (text : TextField → String) (count : CountField → ℕ) : VpnClientJSON :=
  ⟨⟨text .id, text .commonName, text .remoteIp, text .virtualIp, text .connectedAt⟩,
    count .rxBytes, count .txBytes⟩

@[simp] theorem text_of (text : TextField → String) (count : CountField → ℕ) (f : TextField) :
    (of text count).text f = text f := by
  cases f <;> rfl

@[simp] theorem count_of (text : TextField → String) (count : CountField → ℕ) (f : CountField) :
    (of text count).count f = count f := by
  cases f <;> rfl

theorem of_inj {text text' : TextField → String} {count count' : CountField → ℕ} :
    of text count = of text' count' ↔ (∀ f, text f = text' f) ∧ ∀ f, count f = count' f := by
  constructor
  · intro h
    exact ⟨fun f => by rw [← text_of text count f, h,
      text_of], fun f => by rw [← count_of text count f, h, count_of]⟩
  · rintro ⟨htext, hcount⟩
    rw [funext htext, funext hcount]

end VpnClientJSON

/-! ### Decoding into records -/

/-- A field that a key names. -/
inductive Named where
  | text (f : TextField)
  | count (f : CountField)
  deriving DecidableEq

/-- The field that `encoding/json` finds for a key: the name is compared up to case, and no two
names are equal up to case. -/
def named (k : String) : Option Named :=
  if GoStrings.equalFold k "id" then some (.text .id)
  else if GoStrings.equalFold k "commonName" then some (.text .commonName)
  else if GoStrings.equalFold k "remoteIp" then some (.text .remoteIp)
  else if GoStrings.equalFold k "virtualIp" then some (.text .virtualIp)
  else if GoStrings.equalFold k "connectedAt" then some (.text .connectedAt)
  else if GoStrings.equalFold k "rxBytes" then some (.count .rxBytes)
  else if GoStrings.equalFold k "txBytes" then some (.count .txBytes)
  else none

/-- A value decoded into a `string` that holds `s`, where `none` is an error. -/
def decodeString (s : String) : Value → Option String
  | .other (.str t) => some t
  | .other .null => some s
  | _ => none

/-- A value decoded into a `uint64` that holds `n`, where `none` is an error. -/
def decodeUint64 (n : ℕ) : Value → Option ℕ
  | .uint m => if m < 2 ^ 64 then some m else none
  | .other .null => some n
  | _ => none

/-- A field decoded into a record. -/
def decodeField (c : VpnClientJSON) (e : String × Value) : Option VpnClientJSON :=
  match named e.1 with
  | none => some c
  | some (.text f) => (decodeString (c.text f) e.2).map fun s =>
    .of (Function.update c.text f s) c.count
  | some (.count f) => (decodeUint64 (c.count f) e.2).map fun n =>
    .of c.text (Function.update c.count f n)

/-- An object decoded into a record. -/
def strictRow (row : Row) : Option VpnClientJSON := row.foldlM decodeField .zero

/-- An element decoded into a record; `null` leaves it without values. -/
def strictElement : Element → Option VpnClientJSON
  | .obj row => strictRow row
  | .null => some .zero
  | .other => none

/-! ### Decoding into maps -/

/-- The numbers of a row are in the range of `float64`. -/
def InRange (row : Row) : Prop :=
  ∀ e ∈ row, (e.2.json.allNumbers fun n => (Float64.parse n).isSome) = true

instance : DecidablePred InRange := fun row =>
  inferInstanceAs
    (Decidable (∀ e ∈ row, (e.2.json.allNumbers fun n => (Float64.parse n).isSome) = true))

/-- An object decoded into a map, where the last value of a key counts and `none` is an error. -/
def looseRow (row : Row) : Option (GoMap Json) :=
  if InRange row then
    some (GoMap.ofList (row.reverse.map fun e => (e.1, e.2.json.mapLeaves Float64.reread id)))
  else none

/-- An element decoded into a map. -/
def looseElement : Element → Option (GoMap Json)
  | .obj row => looseRow row
  | .null => some ∅
  | .other => none

def strVal : Json → String
  | .str s => s
  | v => GoStrings.trimSpace v.sprint

def bigIntVal : Json → ℤ
  | .num n => Float64.toInt64 (Float64.nearest n.value)
  | _ => 0

/-- The record of a map, and `none` when it is dropped. -/
def looseClient (m : GoMap Json) : Option VpnClientJSON :=
  let c := VpnClientJSON.of (fun f => strVal (m.get f.key)) fun f =>
    (bigIntVal (m.get f.key) % 2 ^ 64).toNat
  if c.id = "" ∨ c.commonName = "" ∨ c.remoteIp = "" then none else some c

/-- `parseClientsJSON`, where `none` is an error. -/
def parseClientsJSON : ClientsDocument → Option (List VpnClientJSON)
  | .blank => some []
  | .malformed => none
  | .null => some []
  | .array elems =>
    match elems.mapM strictElement with
    | some typed => some typed
    | none => (elems.mapM looseElement).map fun loose => loose.filterMap looseClient
  | .other => none

/-- The record of each element, and `none` for an element that is dropped. -/
def records (elems : List Element) : Option (List (Option VpnClientJSON)) :=
  match elems.mapM strictElement with
  | some typed => some (typed.map some)
  | none => (elems.mapM looseElement).map fun loose => loose.map looseClient

/-- What becomes of the element at a place: an error, or its record unless it is dropped. -/
def outcome (elems : List Element) (i : ℕ) : Option (Option VpnClientJSON) :=
  (records elems).bind (·[i]?)

/-- The records of the elements make up the answer. -/
theorem parseClientsJSON_array (elems : List Element) :
    parseClientsJSON (.array elems) = (records elems).map List.reduceOption := by
  rw [parseClientsJSON, records]
  cases elems.mapM strictElement with
  | some typed => simp [List.reduceOption]
  | none => simp [List.reduceOption, List.filterMap_map, Function.comp_def]

/-! ### Rows that can be decoded into records -/

/-- A field with a value of its type: a text, or a number of 64 bits, or `null`. -/
def TypedField (e : String × Value) : Prop :=
  match named e.1 with
  | none => True
  | some (.text _) => (∃ s, e.2 = .other (.str s)) ∨ e.2 = .other .null
  | some (.count _) => (∃ n < 2 ^ 64, e.2 = .uint n) ∨ e.2 = .other .null

/-- A row whose known fields have values of their types. -/
def Typed (row : Row) : Prop := ∀ e ∈ row, TypedField e

theorem isSome_decodeString_iff {s : String} {v : Value} :
    (decodeString s v).isSome = true ↔ (∃ t, v = .other (.str t)) ∨ v = .other .null := by
  cases v with
  | uint n => simp [decodeString]
  | other v => cases v <;> simp [decodeString]

theorem isSome_decodeUint64_iff {n : ℕ} {v : Value} :
    (decodeUint64 n v).isSome = true ↔ (∃ m < 2 ^ 64, v = .uint m) ∨ v = .other .null := by
  cases v with
  | uint m =>
    rw [decodeUint64]
    by_cases hm : m < 2 ^ 64
    · rw [if_pos hm]
      exact iff_of_true rfl (Or.inl ⟨m, hm, rfl⟩)
    · rw [if_neg hm]
      refine iff_of_false Bool.false_ne_true ?_
      rintro (⟨m', hm', h⟩ | h)
      · exact hm (Value.uint.inj h ▸ hm')
      · cases h
  | other v => cases v <;> simp [decodeUint64]

theorem isSome_decodeField_iff {c : VpnClientJSON} {e : String × Value} :
    (decodeField c e).isSome = true ↔ TypedField e := by
  rw [decodeField, TypedField]
  cases named e.1 with
  | none => simp
  | some f =>
    cases f with
    | text f => simpa using isSome_decodeString_iff
    | count f => simpa using isSome_decodeUint64_iff

/-- **The rows that can be decoded into records.** -/
theorem isSome_strictRow_iff {row : Row} : (strictRow row).isSome = true ↔ Typed row := by
  rw [strictRow]
  generalize VpnClientJSON.zero = c
  induction row generalizing c with
  | nil => simp [Typed]
  | cons e row ih =>
    rw [List.foldlM_cons, Typed, List.forall_mem_cons, ← @isSome_decodeField_iff c]
    cases decodeField c e with
    | none => simp
    | some c' =>
      rw [Option.isSome_some, eq_self_iff_true, true_and]
      exact ih c'

/-! ### Well-typed rows -/

/-- A field with a text, or with a number below `2 ^ 53`. -/
def WellTypedField (e : String × Value) : Prop :=
  match named e.1 with
  | none => True
  | some (.text _) => ∃ s, e.2 = .other (.str s)
  | some (.count _) => ∃ n < 2 ^ 53, e.2 = .uint n

/-- A row whose known fields are texts and numbers below `2 ^ 53`. -/
def WellTyped (row : Row) : Prop := ∀ e ∈ row, WellTypedField e

theorem WellTypedField.typedField {e : String × Value} (h : WellTypedField e) : TypedField e := by
  rw [WellTypedField] at h
  rw [TypedField]
  cases hname : named e.1 with
  | none => trivial
  | some f =>
    rw [hname] at h
    cases f with
    | text f => exact Or.inl h
    | count f =>
      obtain ⟨n, hn, hv⟩ := h
      exact Or.inl ⟨n, hn.trans (by norm_num), hv⟩

theorem WellTyped.typed {row : Row} (h : WellTyped row) : Typed row :=
  fun e he => (h e he).typedField

/-- The last value whose key passes a test. -/
def lastValue (p : String → Bool) (row : Row) : Option Value :=
  (row.reverse.find? fun e => p e.1).map Prod.snd

theorem lastValue_append (p : String → Bool) (row : Row) (e : String × Value) :
    lastValue p (row ++ [e]) = if p e.1 then some e.2 else lastValue p row := by
  rw [lastValue, List.reverse_append, List.reverse_singleton,
    List.singleton_append, List.find?_cons]
  cases p e.1 <;> rfl

theorem mem_of_lastValue {p : String → Bool} {row : Row} {v : Value}
    (h : lastValue p row = some v) :
    ∃ k, p k = true ∧ (k, v) ∈ row := by
  obtain ⟨e, he, rfl⟩ := Option.map_eq_some_iff.1 h
  exact ⟨e.1, @List.find?_some _ (fun e : String × Value => p e.1) _ _ he,
    List.mem_reverse.1 (List.mem_of_find?_eq_some he)⟩

/-- A text, where every other value reads as none. -/
def Value.text : Value → String
  | other (.str s) => s
  | _ => ""

/-- A number of digits, where every other value reads as zero. -/
def Value.count : Value → ℕ
  | uint n => n
  | _ => 0

/-- The text of a field, up to the case of its key. -/
def strictText (row : Row) (f : TextField) : String :=
  ((lastValue (fun k => named k = some (.text f)) row).map Value.text).getD ""

/-- The number of a field, up to the case of its key. -/
def strictCount (row : Row) (f : CountField) : ℕ :=
  ((lastValue (fun k => named k = some (.count f)) row).map Value.count).getD 0

theorem strictText_append (row : Row) (e : String × Value) (f : TextField) :
    strictText (row ++ [e]) f = if named e.1 = some (.text f) then e.2.text
    else strictText row f := by
  rw [strictText, lastValue_append]
  split_ifs with h₁ h₂ h₂
  · rfl
  · exact absurd (of_decide_eq_true h₁) h₂
  · exact absurd (decide_eq_true h₂) h₁
  · rfl

theorem strictCount_append (row : Row) (e : String × Value) (f : CountField) :
    strictCount (row ++ [e]) f = if named e.1 = some (.count f) then e.2.count
    else strictCount row f := by
  rw [strictCount, lastValue_append]
  split_ifs with h₁ h₂ h₂
  · rfl
  · exact absurd (of_decide_eq_true h₁) h₂
  · exact absurd (decide_eq_true h₂) h₁
  · rfl

/-- One more field of a well-typed row. -/
theorem decodeField_of (row : Row) {e : String × Value} (h : WellTypedField e) :
    decodeField (.of (strictText row) (strictCount row)) e =
      some (.of (strictText (row ++ [e])) (strictCount (row ++ [e]))) := by
  rw [WellTypedField] at h
  rw [decodeField]
  cases hname : named e.1 with
  | none =>
    refine congrArg some (VpnClientJSON.of_inj.2 ⟨fun f => ?_, fun f => ?_⟩)
    · rw [strictText_append, hname, if_neg nofun]
    · rw [strictCount_append, hname, if_neg nofun]
  | some g =>
    rw [hname] at h
    cases g with
    | text g =>
      obtain ⟨s, hs⟩ := h
      rw [hs]
      refine congrArg some (VpnClientJSON.of_inj.2 ⟨fun f => ?_, fun f => ?_⟩)
      · rw [strictText_append, hname, hs, Function.update_apply, VpnClientJSON.text_of]
        exact if_congr ⟨fun h => by rw [h], fun h => by cases h; rfl⟩ rfl rfl
      · rw [strictCount_append, hname, if_neg nofun, VpnClientJSON.count_of]
    | count g =>
      obtain ⟨n, hn, hv⟩ := h
      have hlt : n < 2 ^ 64 := hn.trans (by norm_num)
      dsimp only
      rw [hv, decodeUint64, if_pos hlt]
      refine congrArg some (VpnClientJSON.of_inj.2 ⟨fun f => ?_, fun f => ?_⟩)
      · rw [strictText_append, hname, if_neg nofun, VpnClientJSON.text_of]
      · rw [strictCount_append, hname, hv, Function.update_apply, VpnClientJSON.count_of]
        exact if_congr ⟨fun h => by rw [h], fun h => by cases h; rfl⟩ rfl rfl

/-- **The record of a well-typed row.** -/
theorem strictRow_eq {row : Row} (h : WellTyped row) :
    strictRow row = some (.of (strictText row) (strictCount row)) := by
  induction row using List.reverseRecOn with
  | nil => rfl
  | append_singleton row e ih =>
    obtain ⟨hrow, he⟩ := List.forall_mem_append.1 h
    have hfield := decodeField_of row (he e (List.mem_singleton_self e))
    rw [strictRow, List.foldlM_append, ← strictRow, ih hrow]
    simp only [Option.bind_eq_bind, Option.bind_some, List.foldlM_cons, List.foldlM_nil, hfield]
    rfl

/-! ### Well-typed rows in maps -/

/-- The text under the key of a field. -/
def exactText (row : Row) (f : TextField) : Option String :=
  (lastValue (· = f.key) row).map Value.text

/-- The number under the key of a field. -/
def exactCount (row : Row) (f : CountField) : Option ℕ :=
  (lastValue (· = f.key) row).map Value.count

theorem named_textKey (f : TextField) : named f.key = some (.text f) := by
  cases f <;> decide

theorem named_countKey (f : CountField) : named f.key = some (.count f) := by
  cases f <;> decide

/-- The last value under the key of a text. -/
theorem eq_str_of_lastValue {row : Row} (h : WellTyped row) {f : TextField} {v : Value}
    (hv : lastValue (· = f.key) row = some v) : ∃ s, v = .other (.str s) := by
  obtain ⟨k, hk, hmem⟩ := mem_of_lastValue hv
  have hfield := h _ hmem
  rwa [of_decide_eq_true hk, WellTypedField, named_textKey] at hfield

/-- The last value under the key of a number. -/
theorem eq_uint_of_lastValue {row : Row} (h : WellTyped row) {f : CountField} {v : Value}
    (hv : lastValue (· = f.key) row = some v) : ∃ n < 2 ^ 53, v = .uint n := by
  obtain ⟨k, hk, hmem⟩ := mem_of_lastValue hv
  have hfield := h _ hmem
  rwa [of_decide_eq_true hk, WellTypedField, named_countKey] at hfield

/-- **What the map of a row holds.** -/
theorem get_of_looseRow {row : Row} {m : GoMap Json} (h : looseRow row = some m) (k : String) :
    m.get k = ((lastValue (· = k) row).map fun v =>
    v.json.mapLeaves Float64.reread id).getD .null := by
  rw [looseRow] at h
  split_ifs at h
  obtain rfl := Option.some.inj h
  rw [GoMap.get, lastValue]
  refine congrArg (fun o => Option.getD o Json.null) ?_
  induction row.reverse with
  | nil => rfl
  | cons e rest ih =>
    rw [List.map_cons, GoMap.lookup_ofList_cons, List.find?_cons]
    by_cases hk : k = e.1
    · rw [if_pos hk, decide_eq_true hk.symm]
      rfl
    · rw [if_neg hk, decide_eq_false fun h => hk h.symm]
      exact ih

theorem strVal_of_looseRow {row : Row} {m : GoMap Json} (hrow : WellTyped row)
    (h : looseRow row = some m)
    (f : TextField) : strVal (m.get f.key) = (exactText row f).getD "<nil>" := by
  rw [get_of_looseRow h, exactText]
  cases hv : lastValue (· = f.key) row with
  | none => decide +kernel
  | some v =>
    obtain ⟨s, rfl⟩ := eq_str_of_lastValue hrow hv
    rfl

theorem bigIntVal_of_looseRow {row : Row} {m : GoMap Json} (hrow : WellTyped row)
    (h : looseRow row = some m)
    (f : CountField) : (bigIntVal (m.get f.key) % 2 ^ 64).toNat = (exactCount row f).getD 0 := by
  rw [get_of_looseRow h, exactCount]
  cases hv : lastValue (· = f.key) row with
  | none => rfl
  | some v =>
    obtain ⟨n, hn, rfl⟩ := eq_uint_of_lastValue hrow hv
    have hlow : (-2 ^ 53 : ℤ) < n := by omega
    have hhigh : (n : ℤ) < 2 ^ 53 := by exact_mod_cast hn
    have hread : bigIntVal (.num (Float64.reread (.ofInt n))) = n := by
      rw [bigIntVal, Float64.nearest_reread, JsonNumber.value_ofInt,
        Float64.nearest_intCast hlow hhigh, Float64.toInt64_intCast (by omega) (by omega)]
    simp only [Option.map_some, Option.getD_some, Value.json, Json.mapLeaves, hread, Value.count]
    omega

/-- The rows of which both decodings make one record: the value under the key of each field, or what
`strVal` and `bigIntVal` make of none, is the last one up to the case of the key, and the texts that
are checked are not empty. -/
structure ReadsAlike (row : Row) : Prop where
  text : ∀ f, (exactText row f).getD "<nil>" = strictText row f
  count : ∀ f, (exactCount row f).getD 0 = strictCount row f
  id : strictText row .id ≠ ""
  commonName : strictText row .commonName ≠ ""
  remoteIp : strictText row .remoteIp ≠ ""

/-- **One record of both decodings.** -/
theorem looseClient_eq_iff {row : Row} {m : GoMap Json} (hrow : WellTyped row)
    (h : looseRow row = some m) :
    looseClient m = some (.of (strictText row) (strictCount row)) ↔ ReadsAlike row := by
  have htext : (fun f : TextField => strVal (m.get f.key)) = fun f =>
      (exactText row f).getD "<nil>" :=
    funext (strVal_of_looseRow hrow h)
  have hcount : (fun f : CountField => (bigIntVal (m.get f.key) % 2 ^ 64).toNat) = fun f =>
      (exactCount row f).getD 0 :=
    funext (bigIntVal_of_looseRow hrow h)
  rw [looseClient, htext, hcount]
  constructor
  · intro heq
    split_ifs at heq with hempty
    obtain ⟨ht, hc⟩ := VpnClientJSON.of_inj.1 (Option.some.inj heq)
    simp only [VpnClientJSON.of, not_or, ht] at hempty
    exact ⟨ht, hc, hempty.1, hempty.2.1, hempty.2.2⟩
  · intro halike
    have hof := VpnClientJSON.of_inj.2 ⟨halike.text, halike.count⟩
    rw [hof, if_neg]
    simp only [VpnClientJSON.of, not_or]
    exact ⟨halike.id, halike.commonName, halike.remoteIp⟩

/-! ### Lists -/

/-- A list is decoded when every element is. -/
theorem mapM_cases {α β : Type} (f : α → Option β) (xs : List α) :
    (∃ ys, xs.mapM f = some ys ∧ xs.map f = ys.map some) ∨ xs.mapM f = none ∧
    ∃ x ∈ xs, f x = none := by
  induction xs with
  | nil => exact Or.inl ⟨[], rfl, rfl⟩
  | cons x xs ih =>
    rw [List.mapM_cons]
    cases hx : f x with
    | none => exact Or.inr ⟨rfl, x, List.mem_cons_self, hx⟩
    | some y =>
      obtain ⟨ys, hys, hmap⟩ | ⟨hnone, x', hx', hf⟩ := ih
      · refine Or.inl ⟨y :: ys, ?_, ?_⟩
        · rw [hys]
          rfl
        · rw [List.map_cons, List.map_cons, hx, hmap]
      · refine Or.inr ⟨?_, x', List.mem_cons_of_mem x hx', hf⟩
        rw [hnone]
        rfl

/-- The decoded element at a place. -/
theorem getElem?_of_map_eq {α β : Type} {f : α → Option β} {xs : List α} {ys : List β}
    (h : xs.map f = ys.map some) {i : ℕ} {x : α} (hx : xs[i]? = some x) : f x = ys[i]? := by
  have hi := congrArg (fun l : List (Option β) => l[i]?) h
  simp only [List.getElem?_map, hx, Option.map_some] at hi
  cases hy : ys[i]? with
  | none => simp [hy] at hi
  | some y => simpa [hy] using hi

variable {pre post : List Row} {r : Row}

/-- The rows as elements of a list. -/
def elements (rows : List Row) : List Element := rows.map .obj

theorem getElem?_elements (pre post : List Row) (r : Row) :
    (elements (pre ++ r :: post))[pre.length]? = some (.obj r) := by
  rw [elements, List.getElem?_map, List.getElem?_append_right le_rfl, Nat.sub_self]
  rfl

theorem isSome_looseRow_iff {row : Row} : (looseRow row).isSome = true ↔ InRange row := by
  rw [looseRow]
  split_ifs with h <;> simp [h]

/-- **What becomes of a row** beside rows that can all be decoded into records. -/
theorem outcome_of_typed (h : ∀ o ∈ pre ++ r :: post, Typed o) :
    outcome (elements (pre ++ r :: post)) pre.length = (strictRow r).map some := by
  rw [outcome, records]
  obtain ⟨typed, htyped, hmap⟩ | ⟨-, x, hx, hnone⟩ :=
    mapM_cases strictElement (elements (pre ++ r :: post))
  · have hrow := getElem?_of_map_eq hmap (getElem?_elements pre post r)
    rw [htyped, Option.bind_some, List.getElem?_map, ← hrow]
    rfl
  · obtain ⟨row, hrow, rfl⟩ := List.mem_map.1 hx
    have hsome := isSome_strictRow_iff.2 (h row hrow)
    rw [strictElement] at hnone
    rw [hnone] at hsome
    cases hsome

/-- **What becomes of a row** beside a row that cannot be decoded into a record. -/
theorem outcome_of_not_typed (h : ¬∀ o ∈ pre ++ r :: post, Typed o) :
    outcome (elements (pre ++ r :: post)) pre.length =
      if ∀ o ∈ pre ++ r :: post, InRange o then (looseRow r).map looseClient else none := by
  rw [outcome, records]
  obtain ⟨typed, -, hmap⟩ | ⟨htyped, -⟩ := mapM_cases strictElement (elements (pre ++ r :: post))
  · refine absurd (fun o ho => isSome_strictRow_iff.1 ?_) h
    have hmem : strictRow o ∈ typed.map some :=
      hmap ▸ List.mem_map_of_mem (f := strictElement) (List.mem_map_of_mem (f := Element.obj) ho)
    obtain ⟨c, -, hc⟩ := List.mem_map.1 hmem
    rw [← hc, Option.isSome_some]
  · rw [htyped]
    obtain ⟨loose, hloose, hmap⟩ | ⟨hloose, x, hx, hnone⟩ :=
      mapM_cases looseElement (elements (pre ++ r :: post))
    · have hrange : ∀ o ∈ pre ++ r :: post, InRange o := fun o ho => by
        have hmem : looseRow o ∈ loose.map some :=
          hmap ▸ List.mem_map_of_mem (f := looseElement) (List.mem_map_of_mem (f := Element.obj) ho)
        obtain ⟨m, -, hm⟩ := List.mem_map.1 hmem
        exact isSome_looseRow_iff.1 (by rw [← hm, Option.isSome_some])
      have hrow := getElem?_of_map_eq hmap (getElem?_elements pre post r)
      rw [if_pos hrange]
      simp only [hloose, Option.map_some, Option.bind_some, List.getElem?_map, ← hrow]
      rfl
    · obtain ⟨row, hrow, rfl⟩ := List.mem_map.1 hx
      have hout : ¬∀ o ∈ pre ++ r :: post, InRange o := fun hall => by
        have hsome := isSome_looseRow_iff.2 (hall row hrow)
        rw [looseElement] at hnone
        rw [hnone] at hsome
        cases hsome
      rw [if_neg hout]
      simp only [hloose, Option.map_none, Option.bind_none]

/-! ### The property -/

/-- The values of a record stand in a row under their keys, up to case; a field without a value is
empty. -/
structure VpnClientJSON.From (c : VpnClientJSON) (row : Row) : Prop where
  text : ∀ f, c.text f = "" ∨ ∃ k, named k = some (.text f) ∧ (k, .other (.str (c.text f))) ∈ row
  count : ∀ f, c.count f = 0 ∨ ∃ k, named k = some (.count f) ∧ (k, .uint (c.count f)) ∈ row

/-- The record of a well-typed row has its values from the row. -/
theorem from_strict (h : WellTyped r) :
    (VpnClientJSON.of (strictText r) (strictCount r)).From r := by
  refine ⟨fun f => ?_, fun f => ?_⟩
  · rw [VpnClientJSON.text_of, strictText]
    cases hv : lastValue (fun k => named k = some (.text f)) r with
    | none => exact Or.inl rfl
    | some v =>
      obtain ⟨k, hk, hmem⟩ := mem_of_lastValue hv
      have hfield := h _ hmem
      rw [WellTypedField, of_decide_eq_true hk] at hfield
      obtain ⟨s, hs⟩ := hfield
      obtain rfl : v = .other (.str s) := hs
      exact Or.inr ⟨k, of_decide_eq_true hk, hmem⟩
  · rw [VpnClientJSON.count_of, strictCount]
    cases hv : lastValue (fun k => named k = some (.count f)) r with
    | none => exact Or.inl rfl
    | some v =>
      obtain ⟨k, hk, hmem⟩ := mem_of_lastValue hv
      have hfield := h _ hmem
      rw [WellTypedField, of_decide_eq_true hk] at hfield
      obtain ⟨n, -, hn⟩ := hfield
      obtain rfl : v = .uint n := hn
      exact Or.inr ⟨k, of_decide_eq_true hk, hmem⟩

/-- A row between other rows becomes what it becomes alone, and its record has its values from the
row. -/
def Independent (pre : List Row) (r : Row) (post : List Row) : Prop :=
  outcome (elements (pre ++ r :: post)) pre.length = outcome (elements [r]) 0 ∧
    ∀ c, outcome (elements (pre ++ r :: post)) pre.length = some (some c) → c.From r

/-- A well-typed row alone. -/
theorem outcome_alone (h : WellTyped r) :
    outcome (elements [r]) 0 = some (some (.of (strictText r) (strictCount r))) := by
  have htyped : ∀ o ∈ [] ++ r :: [], Typed o := fun o ho => by
    obtain rfl := List.mem_singleton.1 ho
    exact h.typed
  have houtcome := outcome_of_typed htyped
  rw [strictRow_eq h] at houtcome
  exact houtcome

/-- A row that becomes what it becomes alone has its values from itself. -/
theorem independent_iff_outcome (h : WellTyped r) :
    Independent pre r post ↔ outcome (elements (pre ++ r :: post)) pre.length =
      some (some (.of (strictText r) (strictCount r))) := by
  rw [Independent, outcome_alone h]
  refine and_iff_left_of_imp fun heq c hc => ?_
  rw [heq] at hc
  obtain rfl := Option.some.inj (Option.some.inj hc)
  exact from_strict h

/-- **One bad row.** A well-typed row does not depend on the others exactly when all rows can be
decoded into records, or when all numbers are in range and both decodings make one record of the
row. -/
theorem independent_iff (h : WellTyped r) :
    Independent pre r post ↔
      (∀ o ∈ pre ++ post, Typed o) ∨ (∀ o ∈ pre ++ r :: post, InRange o) ∧ ReadsAlike r := by
  rw [independent_iff_outcome h]
  by_cases hall : ∀ o ∈ pre ++ r :: post, Typed o
  · refine iff_of_true ?_ (Or.inl fun o ho => hall o ?_)
    · rw [outcome_of_typed hall, strictRow_eq h, Option.map_some]
    · rw [List.mem_append] at ho ⊢
      exact ho.imp_right (List.mem_cons_of_mem r)
  · have hothers : ¬∀ o ∈ pre ++ post, Typed o := fun hothers => hall fun o ho => by
      rw [List.mem_append, List.mem_cons] at ho
      obtain ho | rfl | ho := ho
      · exact hothers o (List.mem_append_left post ho)
      · exact h.typed
      · exact hothers o (List.mem_append_right pre ho)
    rw [outcome_of_not_typed hall, or_iff_right hothers]
    by_cases hrange : ∀ o ∈ pre ++ r :: post, InRange o
    · obtain ⟨m, hm⟩ := Option.isSome_iff_exists.1
        (isSome_looseRow_iff.2 (hrange r (List.mem_append_right pre List.mem_cons_self)))
      rw [if_pos hrange, hm, Option.map_some, Option.some.injEq,
        looseClient_eq_iff h hm, and_iff_right hrange]
    · rw [if_neg hrange]
      exact iff_of_false nofun fun h' => hrange h'.1

/-- A client without an address in the tunnel. -/
def connecting : Row :=
  [(TextField.id.key, .other (.str "1")), (TextField.commonName.key, .other (.str "alice")),
    (TextField.remoteIp.key, .other (.str "192.0.2.1"))]

theorem wellTyped_connecting : WellTyped connecting := by
  have htext : ∀ (f : TextField) (s : String), WellTypedField (f.key, .other (.str s)) :=
    fun f s => by
    rw [WellTypedField, named_textKey]
    exact ⟨s, rfl⟩
  simp only [WellTyped, connecting, List.forall_mem_cons, htext, true_and]
  exact nofun

/-- A row whose id is no text. -/
def untyped : Row := [("id", .other (.bool true))]

theorem independent_iff_connecting : Independent [] connecting [untyped] ↔
    (∀ o ∈ [] ++ [untyped], Typed o) ∨
      (∀ o ∈ [] ++ connecting :: [untyped], InRange o) ∧ ReadsAlike connecting :=
  independent_iff wellTyped_connecting

/-- Beside this row the client gets an address that it does not have. -/
theorem not_independent : ¬∀ (pre : List Row) (r : Row) (post : List Row), WellTyped r →
    Independent pre r post := by
  intro h
  have heq := (h [] connecting [untyped] wellTyped_connecting).1
  exact absurd heq (by decide +kernel)

end OpenvpnControl.Agent.ClientsJson
