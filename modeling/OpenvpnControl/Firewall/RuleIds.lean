import OpenvpnControl.Firewall.StoredFormat
import OpenvpnControl.Panel.FirewallPreview

/-!
# The ids of normalised rules

A normalised rule keeps its id, or gets one that is made from its position in the list. This file
determines when the ids of a normalised list are distinct, for the four functions that normalise
lists.

## Main definitions

* `Normaliser`, `Normaliser.ids`: the four functions and the ids that they give.
* `DistinctIds`: the ids of the rows are distinct, where a row without an id does not count.
* `Normaliser.Apart`: no id of a row is one that is made for a row without an id.

## Main results

* `nodup_getD_iff`: kept and generated names of a list.
* `Normaliser.nodup_ids_iff`: the ids are distinct exactly when kept and generated ids are apart.
-/

namespace OpenvpnControl.Firewall

/-! ### Kept and generated names -/

section Names

variable {α : Type} {gen : ℕ → α} {rows : List (Option α × ℕ)}

theorem mem_map_getD_iff {a : α} : a ∈ rows.map (fun p => p.1.getD (gen p.2)) ↔
    a ∈ rows.filterMap Prod.fst ∨ ∃ i, (none, i) ∈ rows ∧ gen i = a := by
  rw [List.mem_map, List.mem_filterMap]
  constructor
  · rintro ⟨⟨kept, i⟩, hmem, rfl⟩
    cases kept with
    | none => exact Or.inr ⟨i, hmem, rfl⟩
    | some b => exact Or.inl ⟨(some b, i), hmem, rfl⟩
  · rintro (⟨⟨kept, i⟩, hmem, hkept⟩ | ⟨i, hmem, rfl⟩)
    · obtain rfl : kept = some a := hkept
      exact ⟨(some a, i), hmem, rfl⟩
    · exact ⟨(none, i), hmem, rfl⟩

/-- The names of a list are distinct exactly when the kept ones are, and none of them is generated
for another position. -/
theorem nodup_getD_iff (hgen : Function.Injective gen) (hrows : (rows.map Prod.snd).Nodup) :
    (rows.map fun p => p.1.getD (gen p.2)).Nodup ↔
      (rows.filterMap Prod.fst).Nodup ∧ ∀ i, (none, i) ∈ rows →
      gen i ∉ rows.filterMap Prod.fst := by
  induction rows with
  | nil => simp
  | cons p rows ih =>
    obtain ⟨kept, i⟩ := p
    rw [List.map_cons, List.nodup_cons] at hrows
    obtain ⟨hi, hrows⟩ := hrows
    rw [List.map_cons, List.nodup_cons, mem_map_getD_iff, ih hrows, not_or]
    cases kept with
    | none =>
      have hother : ¬∃ j, (none, j) ∈ rows ∧ gen j = gen i := by
        rintro ⟨j, hj, hij⟩
        exact hi (List.mem_map.2 ⟨_, hj, hgen hij⟩)
      rw [List.filterMap_cons_none rfl]
      constructor
      · rintro ⟨⟨hkept, -⟩, hnodup, hrest⟩
        refine ⟨hnodup, fun j hj => ?_⟩
        obtain hj | hj := List.mem_cons.1 hj
        · exact (Prod.mk.inj hj).2 ▸ hkept
        · exact hrest j hj
      · rintro ⟨hnodup, hrest⟩
        exact ⟨⟨hrest i List.mem_cons_self, hother⟩, hnodup, fun j hj =>
          hrest j (List.mem_cons_of_mem _ hj)⟩
    | some a =>
      have hcons : ((some a, i) :: rows).filterMap Prod.fst = a :: rows.filterMap Prod.fst := rfl
      rw [hcons, List.nodup_cons]
      constructor
      · rintro ⟨⟨hkept, hother⟩, hnodup, hrest⟩
        refine ⟨⟨hkept, hnodup⟩, fun j hj hmem => ?_⟩
        have hj := (List.mem_cons.1 hj).resolve_left (by simp)
        obtain hmem | hmem := List.mem_cons.1 hmem
        · exact hother ⟨j, hj, hmem⟩
        · exact hrest j hj hmem
      · rintro ⟨⟨hkept, hnodup⟩, hrest⟩
        refine ⟨⟨hkept, ?_⟩, hnodup, fun j hj hmem => hrest j (List.mem_cons_of_mem _ hj)
          (List.mem_cons_of_mem _ hmem)⟩
        rintro ⟨j, hj, rfl⟩
        exact hrest j (List.mem_cons_of_mem _ hj) List.mem_cons_self

variable {ρ : Type} {kept : ρ → Option (Option α)} {rows : List ρ}

/-- The rows that are not skipped, each with the name that it keeps and its position. -/
def positions (kept : ρ → Option (Option α)) (rows : List ρ) : List (Option α × ℕ) :=
  rows.zipIdx.filterMap fun p => (kept p.1).map (·, p.2)

theorem nodup_snd_positions : ((positions kept rows).map Prod.snd).Nodup := by
  have hsub : ∀ l : List (ρ × ℕ),
      ((l.filterMap fun p => (kept p.1).map (·, p.2)).map Prod.snd).Sublist (l.map Prod.snd) := by
    intro l
    induction l with
    | nil => exact List.Sublist.refl _
    | cons p l ih =>
      cases hkept : kept p.1 with
      | none =>
        rw [List.filterMap_cons_none (by simp [hkept]), List.map_cons]
        exact ih.cons _
      | some o =>
        rw [List.filterMap_cons_some (b := (o, p.2)) (by simp [hkept]),
          List.map_cons, List.map_cons]
        exact ih.cons_cons _
  refine (hsub rows.zipIdx).nodup ?_
  rw [List.zipIdx_map_snd]
  exact List.nodup_range'

theorem filterMap_fst_positions :
    (positions kept rows).filterMap Prod.fst = rows.filterMap fun row => (kept row).join := by
  rw [positions, List.filterMap_filterMap]
  conv_rhs => rw [← List.zipIdx_map_fst 0 rows, List.filterMap_map]
  refine List.filterMap_congr fun p _ => ?_
  cases hkept : kept p.1 <;> simp [hkept]

theorem none_mem_positions {i : ℕ} :
    (none, i) ∈ positions kept rows ↔ ∃ row, rows[i]? = some row ∧ kept row = some none := by
  rw [positions, List.mem_filterMap]
  constructor
  · rintro ⟨⟨row, j⟩, hmem, hrow⟩
    obtain ⟨o, ho, heq⟩ := Option.map_eq_some_iff.1 hrow
    obtain ⟨rfl, rfl⟩ := Prod.mk.inj heq
    exact ⟨row, List.mk_mem_zipIdx_iff_getElem?.1 hmem, ho⟩
  · rintro ⟨row, hrow, hkept⟩
    exact ⟨(row, i), List.mk_mem_zipIdx_iff_getElem?.2 hrow, by simp [hkept]⟩

/-- The names of the rows are distinct exactly when the kept ones are, and none of them is
generated. -/
theorem nodup_names_iff (hgen : Function.Injective gen) :
    ((positions kept rows).map fun p => p.1.getD (gen p.2)).Nodup ↔
      (rows.filterMap fun row => (kept row).join).Nodup ∧
        ∀ i row, rows[i]? = some row → kept row = some none →
          gen i ∉ rows.filterMap fun row => (kept row).join := by
  rw [nodup_getD_iff hgen nodup_snd_positions, filterMap_fst_positions]
  refine and_congr_right fun _ => ⟨fun h i row hrow hkept =>
    h i (none_mem_positions.2 ⟨row, hrow, hkept⟩), fun h i hi => ?_⟩
  obtain ⟨row, hrow, hkept⟩ := none_mem_positions.1 hi
  exact h i row hrow hkept

end Names

/-! ### The functions -/

/-- The functions that normalise a list of rows. -/
inductive Normaliser where
  | normalizeRulesAny
  | normalizeNatAny
  | normalizeFirewallBaseRules
  | normalizeFirewallNatRules
  deriving DecidableEq, Repr

/-- The id of a row. -/
def rowId (row : Json) : String := str row.asFields "id"

/-- The rows of a list have distinct ids, apart from those without one. -/
def DistinctIds (rows : List Json) : Prop :=
  ((rows.map fun row => GoStrings.trimSpace (rowId row)).filter (· ≠ "")).Nodup

instance : DecidablePred DistinctIds := fun _ => inferInstanceAs (Decidable (List.Nodup _))

/-- Blank ids that are not empty are distinct, and no id is the one made for an object without an
id. -/
def RawIdsApart (pre : String) (rows : List Json) : Prop :=
  ((rows.map rowId).filter fun s => decide (s ≠ "") && decide (GoStrings.trimSpace s = "")).Nodup ∧
    ∀ i src, rows[i]? = some (.obj src) → str src "id" = "" → fmtID pre (i + 1) ∉ rows.map rowId

/-- No trimmed id is the one made for a row without an id. -/
def TrimmedIdsApart (pre : String) (rows : List Json) : Prop :=
  ∀ i row, rows[i]? = some row → GoStrings.trimSpace (rowId row) = "" →
    pre ++ Nat.repr (i + 1) ∉ rows.map fun row => GoStrings.trimSpace (rowId row)

namespace Normaliser

/-- The ids of a normalised list. -/
def ids : Normaliser → List Json → List String
  | normalizeRulesAny, rows => (Firewall.normalizeRulesAny rows).elems.map FirewallRule.id
  | normalizeNatAny, rows => (Firewall.normalizeNatAny rows).elems.map FirewallNatRule.id
  | normalizeFirewallBaseRules, rows =>
    (Panel.normalizeFirewallBaseRules (.arr rows)).map FirewallRule.id
  | normalizeFirewallNatRules, rows =>
    (Panel.normalizeFirewallNatRules (.arr rows)).map FirewallNatRule.id

/-- Kept and generated ids are apart. -/
def Apart : Normaliser → List Json → Prop
  | normalizeRulesAny => RawIdsApart "rule"
  | normalizeNatAny => RawIdsApart "nat"
  | normalizeFirewallBaseRules => TrimmedIdsApart "rule-"
  | normalizeFirewallNatRules => TrimmedIdsApart "nat-"

end Normaliser

/-! ### Raw ids -/

/-- The id that an object keeps in the package `firewall`; other rows are skipped. -/
def keptRaw : Json → Option (Option String)
  | .obj src => some (if str src "id" = "" then none else some (str src "id"))
  | _ => none

/-- The id that a row keeps in the package `panel`. -/
def keptTrimmed (row : Json) : Option (Option String) :=
  some (if GoStrings.trimSpace (rowId row) = "" then none
    else some (GoStrings.trimSpace (rowId row)))

/-- The texts that are not empty. -/
theorem filterMap_nonempty {ρ : Type} (f : ρ → String) (rows : List ρ) :
    rows.filterMap (fun row => if f row = "" then none else some (f row)) =
    (rows.map f).filter (· ≠ "") := by
  induction rows with
  | nil => rfl
  | cons row rows ih =>
    by_cases h : f row = ""
    · rw [List.filterMap_cons_none (by rw [if_pos h]), ih, List.map_cons,
        List.filter_cons_of_neg (by simpa using h)]
    · rw [List.filterMap_cons_some (b := f row) (by rw [if_neg h]), ih, List.map_cons,
        List.filter_cons_of_pos (by simpa using h)]

theorem filterMap_keptRaw (rows : List Json) :
    (rows.filterMap fun row => (keptRaw row).join) = (rows.map rowId).filter (· ≠ "") := by
  rw [← filterMap_nonempty]
  refine List.filterMap_congr fun row _ => ?_
  cases row <;> rfl

theorem filterMap_keptTrimmed (rows : List Json) :
    (rows.filterMap fun row => (keptTrimmed row).join) =
    (rows.map fun row => GoStrings.trimSpace (rowId row)).filter (· ≠ "") := by
  rw [← filterMap_nonempty]
  simp only [keptTrimmed, Option.join_some]

/-- Distinct trimmed texts leave only blank texts that can be equal. -/
theorem nodup_nonempty_iff {texts : List String}
    (h : ((texts.map GoStrings.trimSpace).filter (· ≠ "")).Nodup) : (texts.filter (· ≠ "")).Nodup ↔
      (texts.filter fun s => decide (s ≠ "") && decide (GoStrings.trimSpace s = "")).Nodup := by
  induction texts with
  | nil => rfl
  | cons s texts ih =>
    by_cases hempty : s = ""
    · subst hempty
      rw [List.map_cons, List.filter_cons_of_neg (by simp)] at h
      rw [List.filter_cons_of_neg (by simp), List.filter_cons_of_neg (by simp), ih h]
    by_cases hblank : GoStrings.trimSpace s = ""
    · rw [List.map_cons, List.filter_cons_of_neg (by simpa using hblank)] at h
      rw [List.filter_cons_of_pos (by simpa using hempty),
        List.filter_cons_of_pos (by simp [hempty, hblank]), List.nodup_cons, List.nodup_cons, ih h,
        List.mem_filter, List.mem_filter]
      simp [hempty, hblank]
    · rw [List.map_cons, List.filter_cons_of_pos (by simpa using hblank), List.nodup_cons] at h
      rw [List.filter_cons_of_pos (by simpa using hempty),
        List.filter_cons_of_neg (by simp [hblank]), List.nodup_cons, ih h.2, and_iff_right]
      -- an equal text would have an equal trimmed text
      intro hmem
      exact h.1 (List.mem_filter.2 ⟨List.mem_map_of_mem (List.mem_filter.1 hmem).1,
        by simpa using hblank⟩)

theorem keptRaw_eq_some_none {row : Json} :
    keptRaw row = some none ↔ ∃ src, row = .obj src ∧ str src "id" = "" := by
  cases row with
  | obj src => simp [keptRaw]
  | _ => simp [keptRaw]

theorem fmtID_injective (pre : String) : Function.Injective fun i => fmtID pre (i + 1) :=
  fun i j h => by
  simpa only [fmtID, String.append_right_inj, GoStrings.repr_inj, Nat.add_right_cancel_iff] using h

/-- **The ids of the package `firewall`.** -/
theorem nodup_rawIds_iff {pre : String} {rows : List Json} (h : DistinctIds rows) :
    ((positions keptRaw rows).map fun p => p.1.getD (fmtID pre (p.2 + 1))).Nodup ↔
    RawIdsApart pre rows := by
  have htexts : (((rows.map rowId).map GoStrings.trimSpace).filter (· ≠ "")).Nodup := by
    rw [List.map_map]
    exact h
  have hmem : ∀ i, fmtID pre (i + 1) ∈ (rows.map rowId).filter (· ≠ "") ↔
      fmtID pre (i + 1) ∈ rows.map rowId :=
    fun i => by
      rw [List.mem_filter, and_iff_left]
      simpa using fmtID_ne_empty pre (i + 1)
  rw [nodup_names_iff (fmtID_injective pre), filterMap_keptRaw, nodup_nonempty_iff htexts]
  refine and_congr_right fun _ => ⟨fun hapart i src hrow hid => ?_,
    fun hapart i row hrow hkept => ?_⟩
  · exact fun hin => hapart i _ hrow (keptRaw_eq_some_none.2 ⟨src, rfl, hid⟩) ((hmem i).2 hin)
  · obtain ⟨src, rfl, hid⟩ := keptRaw_eq_some_none.1 hkept
    exact fun hin => hapart i src hrow hid ((hmem i).1 hin)

theorem keptTrimmed_eq_some_none {row : Json} :
    keptTrimmed row = some none ↔ GoStrings.trimSpace (rowId row) = "" := by
  rw [keptTrimmed]
  split_ifs with h <;> simp [h]

/-- **The ids of the package `panel`.** -/
theorem nodup_trimmedIds_iff {pre : String} {rows : List Json} (h : DistinctIds rows) :
    ((positions keptTrimmed rows).map fun p => p.1.getD (pre ++ Nat.repr (p.2 + 1))).Nodup ↔
      TrimmedIdsApart pre rows := by
  have hgen : Function.Injective fun i => pre ++ Nat.repr (i + 1) := fun i j hij => by
    simpa only [String.append_right_inj, GoStrings.repr_inj, Nat.add_right_cancel_iff] using hij
  have hmem : ∀ i, pre ++ Nat.repr (i + 1) ∈
      (rows.map fun row => GoStrings.trimSpace (rowId row)).filter (· ≠ "") ↔
      pre ++ Nat.repr (i + 1) ∈ rows.map fun row => GoStrings.trimSpace (rowId row) := fun i => by
    rw [List.mem_filter, and_iff_left]
    simp
  rw [nodup_names_iff hgen, filterMap_keptTrimmed]
  refine (and_iff_right h).trans
    ⟨fun hapart i row hrow hid => ?_, fun hapart i row hrow hkept => ?_⟩
  · exact fun hin => hapart i row hrow (keptTrimmed_eq_some_none.2 hid) ((hmem i).2 hin)
  · exact fun hin => hapart i row hrow (keptTrimmed_eq_some_none.1 hkept) ((hmem i).1 hin)

/-! ### The four functions -/

namespace Normaliser

/-- The ids of rows that a function of the package `firewall` normalises one by one. -/
theorem map_filterMap_keptRaw {β : Type} {row : ℕ → Json → Option β} {id : β → String}
    {pre : String}
    (hrow : ∀ i raw, (row i raw).map id = (keptRaw raw).map (·.getD (fmtID pre (i + 1))))
    (rows : List Json) :
    (rows.zipIdx.filterMap fun (raw, i) => row i raw).map id =
      (positions keptRaw rows).map fun p => p.1.getD (fmtID pre (p.2 + 1)) := by
  rw [positions, List.map_filterMap, List.map_filterMap]
  refine List.filterMap_congr fun ⟨raw, i⟩ _ => ?_
  rw [hrow, Option.map_map]
  rfl

theorem ids_normalizeRulesAny (rows : List Json) : normalizeRulesAny.ids rows =
    (positions keptRaw rows).map fun p => p.1.getD (fmtID "rule" (p.2 + 1)) := by
  rw [ids, Firewall.normalizeRulesAny, GoSlice.elems_appended]
  refine map_filterMap_keptRaw (fun i raw => ?_) rows
  cases raw with
  | obj src => by_cases h : str src "id" = "" <;> simp [normalizeRuleRow, keptRaw, h]
  | _ => rfl

theorem ids_normalizeNatAny (rows : List Json) : normalizeNatAny.ids rows =
    (positions keptRaw rows).map fun p => p.1.getD (fmtID "nat" (p.2 + 1)) := by
  rw [ids, Firewall.normalizeNatAny, GoSlice.elems_appended]
  refine map_filterMap_keptRaw (fun i raw => ?_) rows
  cases raw with
  | obj src => by_cases h : str src "id" = "" <;> simp [normalizeNatRow, keptRaw, h]
  | _ => rfl

/-- The ids of rows that a function of the package `panel` normalises: no row is skipped. -/
theorem map_keptTrimmed {β : Type} {row : Json × ℕ → β} {id : β → String} {pre : String}
    (hrow : ∀ p : Json × ℕ, id (row p) = if GoStrings.trimSpace (rowId p.1) = "" then
      pre ++ Nat.repr (p.2 + 1)
      else GoStrings.trimSpace (rowId p.1)) (rows : List Json) :
    (rows.zipIdx.map row).map id =
      (positions keptTrimmed rows).map fun p => p.1.getD (pre ++ Nat.repr (p.2 + 1)) := by
  have hpositions : positions keptTrimmed rows = rows.zipIdx.map fun p =>
      (if GoStrings.trimSpace (rowId p.1) = "" then none
        else some (GoStrings.trimSpace (rowId p.1)), p.2) :=
    congrFun List.filterMap_eq_map _
  rw [hpositions, List.map_map, List.map_map]
  refine List.map_congr_left fun p _ => ?_
  rw [Function.comp_apply, hrow, Function.comp_apply]
  split_ifs <;> rfl

theorem ids_normalizeFirewallBaseRules (rows : List Json) : normalizeFirewallBaseRules.ids rows =
    (positions keptTrimmed rows).map fun p => p.1.getD ("rule-" ++ Nat.repr (p.2 + 1)) := by
  rw [ids, Panel.normalizeFirewallBaseRules]
  refine map_keptTrimmed (fun p => ?_) rows
  show (Panel.normalizeFirewallRule p.1.asFields p.2).id = _
  rw [Panel.normalizeFirewallRule, rowId, ← trimmed]

theorem ids_normalizeFirewallNatRules (rows : List Json) : normalizeFirewallNatRules.ids rows =
    (positions keptTrimmed rows).map fun p => p.1.getD ("nat-" ++ Nat.repr (p.2 + 1)) := by
  rw [ids, Panel.normalizeFirewallNatRules]
  refine map_keptTrimmed (fun p => ?_) rows
  show (Panel.normalizeFirewallNatRule p.1.asFields p.2).id = _
  rw [Panel.normalizeFirewallNatRule, rowId, ← trimmed]

/-- **Ids are distinct** exactly when kept and generated ids are apart: a generated id is the number
of the row behind a prefix, and nothing keeps a stored row from having the same text as its id. -/
theorem nodup_ids_iff (norm : Normaliser) {rows : List Json} (h : DistinctIds rows) :
    (norm.ids rows).Nodup ↔ norm.Apart rows := by
  cases norm with
  | normalizeRulesAny =>
    rw [ids_normalizeRulesAny]
    exact nodup_rawIds_iff h
  | normalizeNatAny =>
    rw [ids_normalizeNatAny]
    exact nodup_rawIds_iff h
  | normalizeFirewallBaseRules =>
    rw [ids_normalizeFirewallBaseRules]
    exact nodup_trimmedIds_iff h
  | normalizeFirewallNatRules =>
    rw [ids_normalizeFirewallNatRules]
    exact nodup_trimmedIds_iff h

/-- Two rules, of which the second has no id. -/
theorem nodup_ids_iff_named :
    (normalizeFirewallBaseRules.ids [.obj [("id", .str "ssh")], .obj []]).Nodup ↔
      normalizeFirewallBaseRules.Apart [.obj [("id", .str "ssh")], .obj []] :=
  nodup_ids_iff normalizeFirewallBaseRules (by decide +kernel)

/-- The second rule of a list gets the id that the first one has. -/
theorem not_nodup_ids :
    ¬∀ (norm : Normaliser) (rows : List Json), DistinctIds rows → (norm.ids rows).Nodup := by
  intro h
  exact absurd (h normalizeFirewallBaseRules [.obj [("id", .str "rule-2")], .obj []]
    (by decide +kernel)) (by decide +kernel)

end Normaliser

end OpenvpnControl.Firewall
