import Mathlib.Computability.Primrec.List
import OpenvpnControl.Firewall.Stored
import OpenvpnControl.Library.Float64

/-!
# The stored format of firewall rules

Rules are stored as an object, or in the old format as a list. The package `firewall` normalises the
rows when it writes an object and when it reads either format. This file proves that an object is
read as it was written, and determines the lists that are read as the rules of an object.

## Main definitions

* `FirewallRule.Normal`, `FirewallNatRule.Normal`: the rules that the normalisation leaves alone.
* `parseStoredText`: `ParseStored` on a JSON text, whose numbers can be out of range.
* `OneKind`: the lists whose elements can all be decoded into maps, and those without objects.

## Main results

* `normalizeRuleRow_toJson`, `normalizeNatRow_toJson`: a normalised row is normal.
* `parseStored_serializeForDB`: an object is read as it was written.
* `storedFormat_iff`: both formats are read alike exactly for the lists of one kind.
-/

namespace OpenvpnControl.Firewall

/-! ### Normal rules -/

/-- A rule as the normalisation leaves it. -/
structure FirewallRule.Normal (r : FirewallRule) : Prop where
  id : r.id ≠ ""
  destination : GoStrings.trimSpace r.destination = r.destination
  ports : GoStrings.trimSpace r.ports = r.ports
  note : GoStrings.trimSpace r.note = r.note

/-- A translation as the normalisation leaves it. -/
structure FirewallNatRule.Normal (r : FirewallNatRule) : Prop where
  id : r.id ≠ ""
  src : GoStrings.trimSpace r.src = r.src
  dst : GoStrings.trimSpace r.dst = r.dst
  outInterface : GoStrings.trimSpace r.outInterface = r.outInterface
  toAddress : GoStrings.trimSpace r.toAddress = r.toAddress
  note : GoStrings.trimSpace r.note = r.note

@[simp] theorem Action.ofText_text (a : Action) : Action.ofText (GoStrings.toLower a.text) = a := by
  cases a <;> decide

@[simp] theorem Proto.ofText_text (p : Proto) : Proto.ofText (GoStrings.toLower p.text) = p := by
  cases p <;> decide

@[simp] theorem NatType.ofText_text (t : NatType) :
    NatType.ofText (GoStrings.toLower t.text) = t := by
  cases t <;> decide

@[simp] theorem Mode.ofText_text (m : Mode) : Mode.ofText (GoStrings.toLower m.text) = m := by
  cases m <;> decide

@[simp] theorem Mode.trimSpace_text (m : Mode) : GoStrings.trimSpace m.text = m.text := by
  cases m <;> decide +kernel

theorem fmtID_ne_empty (pre : String) (n : ℕ) : fmtID pre n ≠ "" := fun h =>
  absurd (congrArg String.toList h) (by simp [fmtID, String.toList_append])

theorem trimSpace_trimmed (src : List (String × Json)) (k : String) :
    GoStrings.trimSpace (trimmed src k) = trimmed src k := GoStrings.trimSpace_trimSpace _

/-- A normalised row is a normal rule. -/
theorem normal_of_normalizeRuleRow {i : ℕ} {row : Json} {r : FirewallRule}
    (h : normalizeRuleRow i row = some r) : r.Normal := by
  cases row with
  | obj src =>
    obtain rfl := Option.some.inj h
    refine ⟨?_, trimSpace_trimmed src _, trimSpace_trimmed src _, trimSpace_trimmed src _⟩
    dsimp only
    split_ifs with hid
    · exact fmtID_ne_empty _ _
    · exact hid
  | _ => cases h

/-- A normalised row is a normal translation. -/
theorem normal_of_normalizeNatRow {i : ℕ} {row : Json} {r : FirewallNatRule}
    (h : normalizeNatRow i row = some r) : r.Normal := by
  cases row with
  | obj src =>
    obtain rfl := Option.some.inj h
    refine ⟨?_, trimSpace_trimmed src _, trimSpace_trimmed src _, trimSpace_trimmed src _,
      trimSpace_trimmed src _, trimSpace_trimmed src _⟩
    dsimp only
    split_ifs with hid
    · exact fmtID_ne_empty _ _
    · exact hid
  | _ => cases h

/-- **A normal rule stays as it is**, wherever it stands. -/
theorem normalizeRuleRow_toJson {r : FirewallRule} (h : r.Normal) (i : ℕ) :
    normalizeRuleRow i r.toJson = some r := by
  have hid : str [("action", .str r.action.text), ("destination", .str r.destination),
      ("id", .str r.id), ("note", .str r.note), ("ports", .str r.ports),
      ("proto", .str r.proto.text)] "id" = r.id := rfl
  rw [FirewallRule.toJson, normalizeRuleRow, hid, if_neg h.id]
  simp [str, trimmed, Json.field, List.lookup, h.destination, h.ports, h.note]

/-- **A normal translation stays as it is**, wherever it stands. -/
theorem normalizeNatRow_toJson {r : FirewallNatRule} (h : r.Normal) (i : ℕ) :
    normalizeNatRow i r.toJson = some r := by
  have hid : str [("dst", .str r.dst), ("id", .str r.id), ("note", .str r.note),
      ("outInterface", .str r.outInterface), ("src", .str r.src), ("toAddress", .str r.toAddress),
      ("type", .str r.type.text)] "id" = r.id := rfl
  rw [FirewallNatRule.toJson, normalizeNatRow, hid, if_neg h.id]
  simp [str, trimmed, Json.field, List.lookup, h.src, h.dst, h.outInterface, h.toAddress, h.note]

/-! ### Lists -/

/-- A loop that leaves the elements of a list alone leaves the list alone. -/
theorem filterMap_zipIdx_map {α β : Type} {f : ℕ → β → Option α} {enc : α → β} {xs : List α}
    (h : ∀ x ∈ xs, ∀ i, f i (enc x) = some x) :
    ((xs.map enc).zipIdx.filterMap fun (b, i) => f i b) = xs := by
  suffices ∀ k, (((xs.map enc).zipIdx k).filterMap fun (b, i) => f i b) = xs from this 0
  induction xs with
  | nil => exact fun _ => rfl
  | cons x xs ih =>
    intro k
    obtain ⟨hx, hxs⟩ := List.forall_mem_cons.1 h
    have hcons := @List.filterMap_cons_some _ _ (fun p : β × ℕ => f p.2 p.1) (enc x, k)
      ((xs.map enc).zipIdx (k + 1)) x (hx k)
    rw [List.map_cons, List.zipIdx_cons]
    exact hcons.trans (congrArg (List.cons x) (ih hxs (k + 1)))

theorem normal_of_mem_normalizeRulesAny {rows : List Json} {r : FirewallRule}
    (h : r ∈ (normalizeRulesAny rows).elems) : r.Normal := by
  rw [normalizeRulesAny, GoSlice.elems_appended, List.mem_filterMap] at h
  obtain ⟨p, -, hp⟩ := h
  exact normal_of_normalizeRuleRow hp

theorem normal_of_mem_normalizeNatAny {rows : List Json} {r : FirewallNatRule}
    (h : r ∈ (normalizeNatAny rows).elems) : r.Normal := by
  rw [normalizeNatAny, GoSlice.elems_appended, List.mem_filterMap] at h
  obtain ⟨p, -, hp⟩ := h
  exact normal_of_normalizeNatRow hp

theorem elems_asSlice_toJson {ν : Type} (enc : ν → Json) (s : GoSlice ν) :
    (s.toJson enc).asSlice.elems = s.elems.map enc := by
  cases s <;> rfl

/-- Normal rules are read as they are. -/
theorem normalizeRulesAny_toJson {rows : List Json} :
    normalizeRulesAny ((normalizeRulesAny rows).toJson FirewallRule.toJson).asSlice.elems =
      normalizeRulesAny rows := by
  have hnormal : ∀ r ∈ (normalizeRulesAny rows).elems, ∀ i, normalizeRuleRow i r.toJson = some r :=
    fun r hr i => normalizeRuleRow_toJson (normal_of_mem_normalizeRulesAny hr) i
  rw [elems_asSlice_toJson, normalizeRulesAny.eq_def (List.map _ _), filterMap_zipIdx_map hnormal,
    normalizeRulesAny, GoSlice.elems_appended]

/-- Normal translations are read as they are. -/
theorem normalizeNatAny_toJson {rows : List Json} :
    normalizeNatAny ((normalizeNatAny rows).toJson FirewallNatRule.toJson).asSlice.elems =
      normalizeNatAny rows := by
  have hnormal : ∀ r ∈ (normalizeNatAny rows).elems, ∀ i, normalizeNatRow i r.toJson = some r :=
    fun r hr i => normalizeNatRow_toJson (normal_of_mem_normalizeNatAny hr) i
  rw [elems_asSlice_toJson, normalizeNatAny.eq_def (List.map _ _), filterMap_zipIdx_map hnormal,
    normalizeNatAny, GoSlice.elems_appended]

/-! ### Objects -/

/-- **An object is read as it was written.** -/
theorem parseStored_serializeForDB (mode : String) (rules natRules : Json) :
    parseStored (some (serializeForDB mode rules natRules)) =
      { mode := .ofText (GoStrings.toLower (GoStrings.trimSpace mode))
        rules := normalizeRulesAny rules.asSlice.elems
        natRules := normalizeNatAny natRules.asSlice.elems } := by
  have hfields : ∀ m nat rul : Json, Json.field [("mode", m), ("natRules", nat),
      ("rules", rul)] "mode" = m ∧
      Json.field [("mode", m), ("natRules", nat), ("rules", rul)] "rules" = rul ∧
      Json.field [("mode", m), ("natRules", nat), ("rules", rul)] "natRules" = nat :=
    fun _ _ _ => ⟨rfl, rfl, rfl⟩
  simp only [serializeForDB, parseStored, str, hfields, Json.asString_str, Mode.ofText_text,
    normalizeRulesAny_toJson, normalizeNatAny_toJson]

/-- The mode of an object is `replace` when the text is, up to case and surrounding spaces. -/
theorem ofText_eq_replace_iff (mode : String) :
    Mode.ofText (GoStrings.toLower (GoStrings.trimSpace mode)) = .replace ↔
      GoStrings.equalFold (GoStrings.trimSpace mode) "replace" = true := by
  have hreplace : ∀ d ∈ "replace".toList, GoStrings.PlainLetter d := by decide
  rw [← GoStrings.toLower_eq_iff_equalFold hreplace, Mode.ofText]
  split_ifs with h <;> simp [h]

/-! ### Texts -/

/-- `ParseStored` on a text: numbers out of the range of `float64` are errors of both decodings. -/
def parseStoredText (raw : Json) : Stored :=
  match Json.unmarshal raw with
  | some v => parseStored (some v)
  | none => .empty

/-- A value without numbers is decoded as it is. -/
theorem unmarshal_of_no_numbers {v : Json} (hall : ∀ p, v.allNumbers p = true)
    (hself : ∀ f, v.mapLeaves f id = v) : Json.unmarshal v = some v :=
  Json.unmarshal_eq_some_iff.2 ⟨hall _, (hself _).symm⟩

theorem unmarshal_serializeForDB (mode : String) (rules natRules : Json) :
    Json.unmarshal (serializeForDB mode rules natRules) =
    some (serializeForDB mode rules natRules) := by
  have hrule : ∀ p f, ∀ r : FirewallRule, r.toJson.allNumbers p = true ∧
      r.toJson.mapLeaves f id = r.toJson :=
    fun _ _ _ => ⟨rfl, rfl⟩
  have hnat : ∀ p f, ∀ r : FirewallNatRule, r.toJson.allNumbers p = true ∧
      r.toJson.mapLeaves f id = r.toJson :=
    fun _ _ _ => ⟨rfl, rfl⟩
  have hslice : ∀ {ν : Type} (enc : ν → Json), (∀ p f, ∀ x, (enc x).allNumbers p = true ∧
      (enc x).mapLeaves f id = enc x) → ∀ s : GoSlice ν, (∀ p, (s.toJson enc).allNumbers p = true) ∧
      ∀ f, (s.toJson enc).mapLeaves f id = s.toJson enc := by
    intro ν enc henc s
    cases s with
    | nil => exact ⟨fun _ => rfl, fun _ => rfl⟩
    | of xs =>
      refine ⟨fun p => ?_, fun f => ?_⟩
      · rw [GoSlice.toJson, Json.allNumbers, Json.allNumbersList_eq_all,
          List.all_map, List.all_eq_true]
        exact fun x _ => (henc p id x).1
      · rw [GoSlice.toJson, Json.mapLeaves, Json.mapLeavesList_eq_map, List.map_map]
        exact congrArg Json.arr (List.map_congr_left fun x _ => (henc (fun _ => true) f x).2)
  have hrules := hslice _ hrule (normalizeRulesAny rules.asSlice.elems)
  have hnats := hslice _ hnat (normalizeNatAny natRules.asSlice.elems)
  refine unmarshal_of_no_numbers (fun p => ?_) (fun f => ?_)
  · simp [serializeForDB, Json.allNumbers, Json.allNumbersFields, hrules.1 p, hnats.1 p]
  · simp [serializeForDB, Json.mapLeaves, Json.mapLeavesFields, hrules.2 f, hnats.2 f]

/-! ### Lists in the old format -/

/-- The lists whose elements can all be decoded into maps, and those without objects. -/
def OneKind (rows : List Json) : Prop :=
  (∀ row ∈ rows, isMapOrNull row = true) ∨ ∀ row ∈ rows, row.isObj = false

instance : DecidablePred OneKind := fun _ => inferInstanceAs (Decidable (_ ∨ _))

theorem normalizeRulesAny_elems_eq_nil_iff {rows : List Json} :
    (normalizeRulesAny rows).elems = [] ↔ ∀ row ∈ rows, row.isObj = false := by
  rw [normalizeRulesAny, GoSlice.elems_appended, List.filterMap_eq_nil_iff]
  constructor
  · intro h row hrow
    obtain ⟨i, hi⟩ := List.mem_iff_getElem?.1 hrow
    have hnone := h (row, i) (List.mk_mem_zipIdx_iff_getElem?.2 hi)
    cases row with
    | obj src => cases hnone
    | _ => rfl
  · rintro h ⟨row, i⟩ hmem
    have hrow := h row (List.mem_of_getElem? (List.mk_mem_zipIdx_iff_getElem?.1 hmem))
    cases row with
    | obj src => cases hrow
    | _ => rfl

/-- The rules of a list and of an object with that list. -/
theorem parseStored_list_iff (rows : List Json) :
    (parseStored (some (.arr rows))).rules.elems =
      (parseStored (some (.obj [("mode", .str "merge"), ("rules", .arr rows)]))).rules.elems ↔
      OneKind rows := by
  have hobj : (parseStored (some (.obj [("mode", .str "merge"), ("rules", .arr rows)]))).rules =
      normalizeRulesAny rows := rfl
  rw [hobj, OneKind, ← normalizeRulesAny_elems_eq_nil_iff, parseStored, ← List.all_eq_true]
  split_ifs with hall
  · exact iff_of_true rfl (Or.inl hall)
  · exact ⟨fun h => Or.inr h.symm, fun h => (h.resolve_left hall).symm⟩

/-- A list is decoded as the list of an object is. -/
theorem unmarshal_list (rows : List Json) : Json.unmarshal (.arr rows) = none ∧
      Json.unmarshal (.obj [("mode", .str "merge"), ("rules", .arr rows)]) = none ∨
    ∃ rows', Json.unmarshal (.arr rows) = some (.arr rows') ∧
      Json.unmarshal (.obj [("mode", .str "merge"), ("rules", .arr rows)]) =
        some (.obj [("mode", .str "merge"), ("rules", .arr rows')]) ∧
        (OneKind rows' ↔ OneKind rows) := by
  have hobj : ∀ p, (Json.obj [("mode", .str "merge"), ("rules", .arr rows)]).allNumbers p =
      (Json.arr rows).allNumbers p := fun p => by
    simp [Json.allNumbers, Json.allNumbersFields]
  by_cases hall : ((Json.arr rows).allNumbers fun n => (Float64.parse n).isSome) = true
  · refine Or.inr ⟨rows.map (Json.mapLeaves Float64.reread id), ?_, ?_, ?_⟩
    · rw [Json.unmarshal, if_pos hall, Json.mapLeaves, Json.mapLeavesList_eq_map]
    · rw [Json.unmarshal, hobj, if_pos hall]
      simp only [Json.mapLeaves, Json.mapLeavesFields, Json.mapLeavesList_eq_map, id]
    · have hmap : ∀ row : Json, isMapOrNull (row.mapLeaves Float64.reread id) = isMapOrNull row ∧
          (row.mapLeaves Float64.reread id).isObj = row.isObj := fun row => by
        cases row <;> exact ⟨rfl, rfl⟩
      simp only [OneKind, List.forall_mem_map, hmap]
  · left
    rw [Json.unmarshal, Json.unmarshal, hobj, if_neg hall, if_neg hall]
    exact ⟨rfl, rfl⟩

/-- **Both formats are read alike** exactly for the lists of one kind, where the numbers are in
range. -/
theorem parseStoredText_list_iff (rows : List Json) :
    (parseStoredText (.arr rows)).rules.elems =
      (parseStoredText (.obj [("mode", .str "merge"), ("rules", .arr rows)])).rules.elems ↔
      ((Json.unmarshal (.arr rows)).isSome = true → OneKind rows) := by
  obtain ⟨harr, hobj⟩ | ⟨rows', harr, hobj, hkind⟩ := unmarshal_list rows
  · simp [parseStoredText, harr, hobj]
  · rw [parseStoredText, parseStoredText, harr, hobj, ← hkind]
    simpa using parseStored_list_iff rows'

/-- The object `s` that `SerializeForDB` writes is read with the mode and the normalised rows of the
inputs, and written again it is read as the same value. -/
structure ReadAsWritten (mode : String) (rules natRules : Json) (stored : Stored) : Prop where
  mode : stored.mode = .replace ↔ GoStrings.equalFold (GoStrings.trimSpace mode) "replace" = true
  rules : stored.rules.elems = rules.asSlice.elems.zipIdx.filterMap fun (raw, i) =>
    normalizeRuleRow i raw
  natRules : stored.natRules.elems =
    natRules.asSlice.elems.zipIdx.filterMap fun (raw, i) => normalizeNatRow i raw
  again : parseStoredText (serializeForDB stored.mode.text (stored.rules.toJson FirewallRule.toJson)
    (stored.natRules.toJson FirewallNatRule.toJson)) = stored

/-- Every object is read as it was written. -/
theorem readAsWritten_serializeForDB (mode : String) (rules natRules : Json) :
    ReadAsWritten mode rules natRules (parseStoredText (serializeForDB mode rules natRules)) := by
  have hparse : ∀ mode rules natRules, parseStoredText (serializeForDB mode rules natRules) =
      parseStored (some (serializeForDB mode rules natRules)) := fun mode rules natRules => by
    simp only [parseStoredText, unmarshal_serializeForDB]
  rw [hparse, parseStored_serializeForDB]
  refine ⟨?_, ?_, ?_, ?_⟩
  · dsimp only
    exact ofText_eq_replace_iff mode
  · dsimp only
    rw [normalizeRulesAny, GoSlice.elems_appended]
  · dsimp only
    rw [normalizeNatAny, GoSlice.elems_appended]
  · rw [hparse, parseStored_serializeForDB, normalizeRulesAny_toJson, normalizeNatAny_toJson]
    simp only [Mode.trimSpace_text, Mode.ofText_text]

/-- **The stored format.** Objects are read as they were written, and a list is read as the rules of
an object exactly when its numbers are out of range or its elements are of one kind. -/
theorem storedFormat_iff (mode : String) (rules natRules : Json) (rows : List Json) :
    ReadAsWritten mode rules natRules (parseStoredText (serializeForDB mode rules natRules)) ∧
      (parseStoredText (.arr rows)).rules.elems =
        (parseStoredText (.obj [("mode", .str "merge"), ("rules", .arr rows)])).rules.elems ↔
      ((Json.unmarshal (.arr rows)).isSome = true → OneKind rows) :=
  (and_iff_right (readAsWritten_serializeForDB mode rules natRules)).trans
    (parseStoredText_list_iff rows)

/-- A list with an element that is no object loses its rules, while an object with that list keeps
them. -/
theorem list_loses_rules :
    ¬∀ (mode : String) (rules natRules : Json) (rows : List Json),
      ReadAsWritten mode rules natRules (parseStoredText (serializeForDB mode rules natRules)) ∧
        (parseStoredText (.arr rows)).rules.elems =
          (parseStoredText (.obj [("mode", .str "merge"), ("rules", .arr rows)])).rules.elems := by
  intro h
  exact absurd (h "" .null .null [.bool true, .obj []]).2 (by decide)

end OpenvpnControl.Firewall
