import OpenvpnControl.Library.Processes
import OpenvpnControl.Panel.LostUpdate

/-!
# Links to deleted materials

The settings of a node link its DH parameters and its tls-auth key by their ids. The delete of a
material takes the row away first, and then loads the settings, blanks the link and stores them,
each in a statement of its own. The settings requests load and store the whole row beside it. This
file says under which condition on the statements no link is left to a material that is gone.

## Main definitions

* `MaterialCall`, `MaterialPhase`, `materialAct`: the requests on one node, statement by statement.
* `linkOf`, `Refers`: a link as it is read, and the material it refers to.
* `LinkSafe`: the condition on a statement, for one link.

## Main results

* `material_links_kept`: in runs whose statements meet the condition, no link is left to a material
  that is gone.
* `material_link_dangles`: a link that stays when the statement that blanks it fails.
-/

namespace OpenvpnControl.Panel

open Openvpn (Settings)
open Processes (State step)

/-- The column `kind` of a material. -/
inductive MaterialKind where
  | dh
  | tlsAuth
  deriving DecidableEq

/-- A row of `AgentNodeOpenvpnMaterial`. -/
structure AgentNodeOpenvpnMaterial where
  id : String
  agentNodeId : String
  kind : MaterialKind
  deriving DecidableEq

/-- The tables that the requests on materials and settings use. -/
structure MaterialDb where
  materials : List AgentNodeOpenvpnMaterial
  db : Db

/-- The key of the settings that links a material of the kind. -/
def MaterialKind.linkKey : MaterialKind → String
  | .dh => "panelDhMaterialId"
  | .tlsAuth => "panelTlsAuthMaterialId"

/-- The link of the settings to a material of the kind, as the tasks that write it to the node read
it. -/
def linkOf (settings : Settings) (kind : MaterialKind) : String :=
  Paneltasks.trimmedSetting settings kind.linkKey

/-- The node has a material of the kind with the id. -/
def Refers (w : MaterialDb) (node : String) (kind : MaterialKind) (id : String) : Prop :=
  ∃ m ∈ w.materials, m.id = id ∧ m.agentNodeId = node ∧ m.kind = kind

instance (w : MaterialDb) (node : String) (kind : MaterialKind) (id : String) :
    Decidable (Refers w node kind id) :=
  inferInstanceAs (Decidable (∃ m ∈ w.materials, m.id = id ∧ m.agentNodeId = node ∧ m.kind = kind))

/-! ### The statements -/

/-- A settings row with its links to the material blanked. -/
def unlinkMaterial (settings : Settings) (materialID : String) : Settings :=
  let settings :=
    if (settings.get "panelDhMaterialId").asString = materialID then
      settings.insert "panelDhMaterialId" (.str "")
    else settings
  if (GoMap.get settings "panelTlsAuthMaterialId").asString = materialID then
    settings.insert "panelTlsAuthMaterialId" (.str "")
  else settings

/-- Does one of the two links carry exactly the id of the material? -/
def linksMaterial (settings : Settings) (materialID : String) : Bool :=
  (settings.get "panelDhMaterialId").asString = materialID ∨
    (settings.get "panelTlsAuthMaterialId").asString = materialID

namespace MaterialDb

/-- `DELETE FROM "AgentNodeOpenvpnMaterial" WHERE id = $1`. -/
def deleteMaterial (w : MaterialDb) (materialID : String) : MaterialDb :=
  { w with materials := Rows.deleteWhere (fun m => m.id = materialID) w.materials }

/-- The settings of the node are stored. -/
def store (w : MaterialDb) (node : String) (settings : Settings) : MaterialDb :=
  { w with db := w.db.upsertSettings node settings none }

end MaterialDb

/-- A request on the node: one on its settings, or `DeleteNodeOpenvpnMaterial`. -/
inductive MaterialCall where
  | settings (r : Request)
  | deleteMaterial (materialID : String)

/-- How far a request is. -/
inductive MaterialPhase where
  | idle
  | loaded (row : Option Settings)
  | found
  | deleted
  | clearing (settings : Settings)
  | finished
  deriving DecidableEq

/-- The next statement of a request, which the database executes or refuses. A request that is
refused a statement ends. In `DeleteNodeOpenvpnMaterial` the errors of the load and of the store are
dropped. -/
def materialAct (node : String) : MaterialCall → MaterialPhase → Bool → MaterialDb →
    Option (MaterialPhase × MaterialDb)
  | .settings _, .idle, executes, w =>
    some (if executes then .loaded (w.db.storedSettings node) else .finished, w)
  | .settings r, .loaded row, executes, w =>
    match executes, r.written row with
    | true, some settings => some (.finished, w.store node settings)
    | _, _ => some (.finished, w)
  | .deleteMaterial materialID, .idle, executes, w =>
    let found := w.materials.any fun m => m.id = materialID ∧ m.agentNodeId = node
    some (if executes && found then .found else .finished, w)
  | .deleteMaterial materialID, .found, executes, w =>
    some (if executes then (.deleted, w.deleteMaterial materialID) else (.finished, w))
  | .deleteMaterial materialID, .deleted, executes, w =>
    match executes, w.db.storedSettings node with
    | true, some settings =>
      some (if linksMaterial settings materialID then .clearing settings else .finished, w)
    | _, _ => some (.finished, w)
  | .deleteMaterial materialID, .clearing settings, executes, w =>
    some (.finished, if executes then w.store node (unlinkMaterial settings materialID) else w)
  | _, _, _, _ => none

/-! ### The condition -/

variable {ι : Type*} [DecidableEq ι]

/-- The request is a delete of the material that will still blank the link. -/
def MaterialCall.WillUnlink (kind : MaterialKind) (id : String) :
    MaterialCall → MaterialPhase → Prop
  | .deleteMaterial materialID, .deleted => materialID = id
  | .deleteMaterial materialID, .clearing row =>
    materialID = id ∧ linkOf (unlinkMaterial row id) kind ≠ id
  | _, _ => False

/-- A link to the material is right now, or will be blanked. -/
def Linkable (node : String) (kind : MaterialKind) (id : String) (calls : ι → MaterialCall)
    (s : State ι MaterialDb MaterialPhase) : Prop :=
  Refers s.world node kind id ∨ ∃ j, (calls j).WillUnlink kind id (s.phase j)

/-- The condition on a statement, where `stored` are the stored settings of the node. What a request
stores carries the link only while the link is right or will be blanked. And the delete of the
material is refused neither the load nor the store while the link is stored, which is stored without
white space around it. -/
def StatementSafe (kind : MaterialKind) (id : String) (stored : Settings) (linkable : Prop) :
    MaterialCall → MaterialPhase → Bool → Prop
  | .settings r, .loaded row, true => ∀ written ∈ r.written row, linkOf written kind = id → linkable
  | .deleteMaterial materialID, .deleted, executes =>
    materialID = id → linkOf stored kind = id →
      executes = true ∧ (stored.get kind.linkKey).asString = id
  | .deleteMaterial materialID, .clearing row, true =>
    linkOf (unlinkMaterial row materialID) kind = id → linkable
  | .deleteMaterial materialID, .clearing _, false => materialID = id → linkOf stored kind ≠ id
  | _, _, _ => True

/-- **The condition on a statement of a run**, for the link of one kind to one material. -/
def LinkSafe (node : String) (kind : MaterialKind) (id : String) (calls : ι → MaterialCall)
    (s : State ι MaterialDb MaterialPhase) (event : ι × Bool) : Prop :=
  StatementSafe kind id (s.world.db.settingsOf node) (Linkable node kind id calls s) (calls event.1)
    (s.phase event.1) event.2

instance decidableWillUnlink (kind : MaterialKind) (id : String) :
    (call : MaterialCall) → (phase : MaterialPhase) → Decidable (call.WillUnlink kind id phase)
  | .deleteMaterial materialID, .deleted => inferInstanceAs (Decidable (materialID = id))
  | .deleteMaterial materialID, .clearing row =>
    inferInstanceAs (Decidable (materialID = id ∧ linkOf (unlinkMaterial row id) kind ≠ id))
  | .deleteMaterial _, .idle | .deleteMaterial _, .loaded _ | .deleteMaterial _, .found
  | .deleteMaterial _, .finished | .settings _, _ => isFalse not_false

instance decidableStatementSafe (kind : MaterialKind) (id : String) (stored : Settings)
    (linkable : Prop) [Decidable linkable] :
    (call : MaterialCall) → (phase : MaterialPhase) → (executes : Bool) →
      Decidable (StatementSafe kind id stored linkable call phase executes)
  | .settings r, .loaded row, true =>
    inferInstanceAs (Decidable (∀ written ∈ r.written row, linkOf written kind = id → linkable))
  | .deleteMaterial materialID, .deleted, executes =>
    inferInstanceAs (Decidable (materialID = id → linkOf stored kind = id →
      executes = true ∧ (stored.get kind.linkKey).asString = id))
  | .deleteMaterial materialID, .clearing row, true =>
    inferInstanceAs (Decidable (linkOf (unlinkMaterial row materialID) kind = id → linkable))
  | .deleteMaterial materialID, .clearing _, false =>
    inferInstanceAs (Decidable (materialID = id → linkOf stored kind ≠ id))
  | .deleteMaterial _, .idle, _ | .deleteMaterial _, .loaded _, _ | .deleteMaterial _, .found, _
  | .deleteMaterial _, .finished, _ => isTrue trivial
  | .settings _, .idle, _ | .settings _, .loaded _, false | .settings _, .found, _
  | .settings _, .deleted, _ | .settings _, .clearing _, _ | .settings _, .finished, _ =>
    isTrue trivial

instance (node : String) (kind : MaterialKind) (id : String) (calls : Bool → MaterialCall)
    (s : State Bool MaterialDb MaterialPhase) (event : Bool × Bool) :
    Decidable (LinkSafe node kind id calls s event) :=
  have : Decidable (Linkable node kind id calls s) := inferInstanceAs (Decidable (_ ∨ _))
  inferInstanceAs (Decidable (StatementSafe _ _ _ _ _ _ _))

/-- The link is not stored, or the material is there, or the link will be blanked. -/
def LinkKept (node : String) (kind : MaterialKind) (id : String) (calls : ι → MaterialCall)
    (s : State ι MaterialDb MaterialPhase) : Prop :=
  linkOf (s.world.db.settingsOf node) kind = id → Linkable node kind id calls s

/-! ### What the statements do to a link -/

variable {node : String} {kind : MaterialKind} {id materialID : String} {calls : ι → MaterialCall}

@[simp] theorem MaterialDb.materials_store (w : MaterialDb) (settings : Settings) :
    (w.store node settings).materials = w.materials := rfl

theorem MaterialDb.settingsOf_store (w : MaterialDb) (settings : Settings) :
    (w.store node settings).db.settingsOf node = settings :=
  (Db.settingsOf_upsertSettings _ _ _ _ _).trans (if_pos rfl)

@[simp] theorem refers_store {w : MaterialDb} {settings : Settings} :
    Refers (w.store node settings) node kind id ↔ Refers w node kind id := Iff.rfl

/-- A delete of another material leaves the material there. -/
theorem refers_deleteMaterial {w : MaterialDb} (h : Refers w node kind id) (hne : materialID ≠ id) :
    Refers (w.deleteMaterial materialID) node kind id := by
  obtain ⟨m, hm, hid, hnode, hkind⟩ := h
  refine ⟨m, Rows.mem_deleteWhere.2 ⟨hm, ?_⟩, hid, hnode, hkind⟩
  rw [hid]
  exact decide_eq_false (Ne.symm hne)

/-- A link that carries exactly the id is blanked. -/
theorem linkOf_unlinkMaterial {settings : Settings}
    (h : (settings.get kind.linkKey).asString = id) :
    linkOf (unlinkMaterial settings id) kind = "" := by
  have hblank : GoStrings.trimSpace "" = "" := by decide +kernel
  have hne : "panelTlsAuthMaterialId" ≠ "panelDhMaterialId" := by decide
  rw [linkOf, Paneltasks.trimmedSetting]
  cases kind with
  | dh =>
    rw [MaterialKind.linkKey] at h ⊢
    simp only [unlinkMaterial, if_pos h]
    split_ifs with htls
    · rw [GoMap.get, GoMap.lookup_insert_eq, if_neg hne.symm, GoMap.lookup_insert_eq, if_pos rfl]
      exact hblank
    · rw [GoMap.get, GoMap.lookup_insert_eq, if_pos rfl]
      exact hblank
  | tlsAuth =>
    rw [MaterialKind.linkKey] at h ⊢
    have htls : ∀ v, (GoMap.get (settings.insert "panelDhMaterialId" v)
        "panelTlsAuthMaterialId").asString = id := fun v => by
      rw [GoMap.get, GoMap.lookup_insert_eq, if_neg hne, ← GoMap.get]
      exact h
    have hcleared : ∀ m : Settings, (GoMap.get m "panelTlsAuthMaterialId").asString = id →
        GoStrings.trimSpace (GoMap.get
          (if (GoMap.get m "panelTlsAuthMaterialId").asString = id then
            m.insert "panelTlsAuthMaterialId" (.str "") else m)
          "panelTlsAuthMaterialId").asString = "" := by
      intro m hm
      rw [if_pos hm, GoMap.get, GoMap.lookup_insert_eq, if_pos rfl]
      exact hblank
    simp only [unlinkMaterial]
    by_cases hdh : (settings.get "panelDhMaterialId").asString = id
    · rw [if_pos hdh]
      exact hcleared _ (htls _)
    · rw [if_neg hdh]
      exact hcleared settings h

theorem linksMaterial_of_link {settings : Settings}
    (h : (settings.get kind.linkKey).asString = id) : linksMaterial settings id = true := by
  cases kind with
  | dh => simp [linksMaterial, show (settings.get "panelDhMaterialId").asString = id from h]
  | tlsAuth => simp [linksMaterial,
    show (settings.get "panelTlsAuthMaterialId").asString = id from h]

/-! ### Runs -/

/-- **What a statement can do**: leave the tables alone, store the settings of a settings request,
delete the material, load the settings after that, or blank the link. -/
theorem materialAct_cases {call : MaterialCall} {p p' : MaterialPhase} {executes : Bool}
    {w w' : MaterialDb} (h : materialAct node call p executes w = some (p', w')) :
    (w' = w ∧ ∀ kind id, ¬call.WillUnlink kind id p) ∨
    (∃ r row settings, call = .settings r ∧ p = .loaded row ∧ executes = true ∧
      r.written row = some settings ∧ w' = w.store node settings) ∨
    (∃ materialID, call = .deleteMaterial materialID ∧ p = .found ∧ p' = .deleted ∧
      w' = w.deleteMaterial materialID) ∨
    (∃ materialID, call = .deleteMaterial materialID ∧ p = .deleted ∧ w' = w ∧
      ∀ settings, executes = true → w.db.storedSettings node = some settings →
        linksMaterial settings materialID = true → p' = .clearing settings) ∨
    (∃ materialID row, call = .deleteMaterial materialID ∧ p = .clearing row ∧
      w' = if executes then w.store node (unlinkMaterial row materialID) else w) := by
  cases call with
  | settings r =>
    cases p with
    | idle =>
      cases h
      exact Or.inl ⟨rfl, fun _ _ => not_false⟩
    | loaded row =>
      dsimp only [materialAct] at h
      split at h
      · rename_i settings hw
        cases h
        exact Or.inr (Or.inl ⟨r, row, settings, rfl, rfl, rfl, hw, rfl⟩)
      · cases h
        exact Or.inl ⟨rfl, fun _ _ => not_false⟩
    | found | deleted | clearing _ | finished => cases h
  | deleteMaterial materialID =>
    cases p with
    | idle =>
      cases h
      exact Or.inl ⟨rfl, fun _ _ => not_false⟩
    | found =>
      cases executes with
      | true =>
        cases h
        exact Or.inr (Or.inr (Or.inl ⟨materialID, rfl, rfl, rfl, rfl⟩))
      | false =>
        cases h
        exact Or.inl ⟨rfl, fun _ _ => not_false⟩
    | deleted =>
      refine Or.inr (Or.inr (Or.inr (Or.inl ⟨materialID, rfl, rfl, ?_⟩)))
      dsimp only [materialAct] at h
      split at h
      · rename_i settings hrow
        cases h
        refine ⟨rfl, fun settings' _ hrow' hlinks => ?_⟩
        obtain rfl := Option.some.inj (hrow.symm.trans hrow')
        exact if_pos hlinks
      · rename_i hnot
        cases h
        exact ⟨rfl, fun settings hexec hrow _ => absurd hrow (hnot settings hexec)⟩
    | clearing row =>
      cases h
      exact Or.inr (Or.inr (Or.inr (Or.inr ⟨materialID, row, rfl, rfl, rfl⟩)))
    | loaded _ | finished => cases h

/-- A request that keeps its place still blanks the link. -/
theorem Linkable.of_other {s : State ι MaterialDb MaterialPhase} {i : ι} {p : MaterialPhase}
    {w : MaterialDb} (h : Linkable node kind id calls s)
    (hrefers : Refers s.world node kind id → Refers w node kind id)
    (hi : ¬(calls i).WillUnlink kind id (s.phase i)) :
    Linkable node kind id calls ⟨w, Function.update s.phase i p⟩ := by
  refine h.imp hrefers ?_
  rintro ⟨j, hj⟩
  have hne : j ≠ i := by
    rintro rfl
    exact hi hj
  refine ⟨j, ?_⟩
  dsimp only
  rwa [Function.update_of_ne hne]

/-- **A statement that meets the condition** leaves no link to a material that is gone, unless the
link will be blanked. -/
theorem LinkKept.step (hid : id ≠ "") {s s' : State ι MaterialDb MaterialPhase} {event : ι × Bool}
    (hkept : LinkKept node kind id calls s) (hok : LinkSafe node kind id calls s event)
    (hstep : Processes.step (fun i => materialAct node (calls i)) s event = some s') :
    LinkKept node kind id calls s' := by
  obtain ⟨i, executes⟩ := event
  obtain ⟨p, w, hact, rfl⟩ := Processes.step_eq_some.1 hstep
  rw [LinkSafe] at hok
  dsimp only at hact hok
  intro hlink
  dsimp only at hlink ⊢
  rcases materialAct_cases hact with ⟨rfl, hnot⟩ | ⟨r, row, settings, hcall, hphase, rfl, hw, rfl⟩ |
    ⟨materialID, hcall, hphase, rfl, rfl⟩ | ⟨materialID, hcall, hphase, rfl, hload⟩ |
    ⟨materialID, row, hcall, hphase, rfl⟩
  · exact (hkept hlink).of_other (fun h => h) (hnot kind id)
  · -- a settings request stores
    rw [hcall, hphase] at hok
    rw [MaterialDb.settingsOf_store] at hlink
    refine (hok settings hw hlink).of_other refers_store.2 ?_
    rw [hcall, hphase]
    exact not_false
  · -- a material goes
    by_cases hm : materialID = id
    · refine Or.inr ⟨i, ?_⟩
      dsimp only
      rw [Function.update_self, hcall, hm]
      exact rfl
    · refine (hkept hlink).of_other (fun h => refers_deleteMaterial h hm) ?_
      rw [hcall, hphase]
      exact not_false
  · -- the settings are loaded after the material is gone
    rw [hcall, hphase] at hok
    by_cases hm : materialID = id
    · subst hm
      obtain ⟨hexec, hplain⟩ := hok rfl hlink
      cases hrow : s.world.db.storedSettings node with
      | none =>
        rw [Db.settingsOf, hrow] at hplain
        exact absurd hplain.symm hid
      | some settings =>
        rw [Db.settingsOf, hrow, Option.getD_some] at hplain
        refine Or.inr ⟨i, ?_⟩
        dsimp only
        rw [Function.update_self, hcall, hload settings hexec hrow (linksMaterial_of_link hplain)]
        refine ⟨rfl, ?_⟩
        rw [linkOf_unlinkMaterial hplain]
        exact hid.symm
    · refine (hkept hlink).of_other (fun h => h) ?_
      rw [hcall, hphase]
      exact hm
  · -- the link is blanked
    rw [hcall, hphase] at hok
    cases executes with
    | true =>
      rw [if_pos rfl] at hlink ⊢
      rw [MaterialDb.settingsOf_store] at hlink
      refine (hok hlink).of_other refers_store.2 ?_
      rw [hcall, hphase]
      rintro ⟨rfl, hne⟩
      exact hne hlink
    | false =>
      rw [if_neg Bool.false_ne_true] at hlink ⊢
      refine (hkept hlink).of_other (fun h => h) ?_
      rw [hcall, hphase]
      rintro ⟨rfl, -⟩
      exact hok rfl hlink

/-- A request that is not in progress will blank nothing. -/
theorem not_willUnlink_of_quiet {call : MaterialCall} {phase : MaterialPhase}
    (h : phase = .idle ∨ phase = .finished) : ¬call.WillUnlink kind id phase := by
  rcases h with rfl | rfl <;> cases call <;> exact not_false

/-- **No link is left to a material that is gone.** In every run whose statements meet the
condition, a link that referred to a material before refers to it when no request is in progress. -/
theorem material_links_kept {calls : ι → MaterialCall} {w : MaterialDb} {events : List (ι × Bool)}
    {t : State ι MaterialDb MaterialPhase}
    (hrun : Runs.run (Processes.step fun i => materialAct node (calls i)) ⟨w,
      fun _ => .idle⟩ events = some t)
    (hquiet : ∀ i, t.phase i = .idle ∨ t.phase i = .finished)
    (hid : id ≠ "") (hlink : linkOf (t.world.db.settingsOf node) kind = id)
    (hbefore : Refers w node kind id)
    (hok : Runs.Meets (Processes.step fun i => materialAct node (calls i))
      (LinkSafe node kind id calls) ⟨w, fun _ => .idle⟩ events) :
    Refers t.world node kind id := by
  have hstart : LinkKept node kind id calls ⟨w, fun _ => .idle⟩ := fun _ => Or.inl hbefore
  have hkept := Runs.run_invariant_of_meets (I := LinkKept node kind id calls)
    (fun s event s' hs hok hstep => hs.step hid hok hstep) hstart hok hrun
  rcases hkept hlink with hrefers | ⟨j, hj⟩
  · exact hrefers
  · exact absurd hj (not_willUnlink_of_quiet (hquiet j))

/-- The node `n1` links its DH parameters `m1`, and has a tls-auth key `m2`. -/
private def linkedMaterial : MaterialDb where
  materials := [⟨"m1", "n1", .dh⟩, ⟨"m2", "n1", .tlsAuth⟩]
  db := { Db.empty with
    nodes := [⟨"n1", "vpn"⟩]
    settings := [⟨"n1", .ofList [("panelDhMaterialId", .str "m1")], none⟩] }

/-- A delete of the key, and a save of the port. -/
private def deleteAndSave (i : Bool) : MaterialCall :=
  if i then .deleteMaterial "m2" else .settings (.post (.ofList [("port", .str "1195")]) false)

/-- The save loads before the key is deleted and stores after it. -/
private def saveAroundDelete : List (Bool × Bool) :=
  [(false, true), (true, true), (true, true), (false, true), (true, true)]

theorem material_links_kept_saveAroundDelete :
    ∃ t, Runs.run (Processes.step fun i => materialAct "n1" (deleteAndSave i))
        ⟨linkedMaterial, fun _ => .idle⟩ saveAroundDelete = some t ∧
      Refers t.world "n1" .dh "m1" := by
  obtain ⟨t, hrun, ht⟩ := (Option.any_eq_true _ _).1 (show (Runs.run
    (Processes.step fun i => materialAct "n1" (deleteAndSave i)) ⟨linkedMaterial, fun _ => .idle⟩
    saveAroundDelete).any (fun t => decide ((∀ i, t.phase i = .idle ∨ t.phase i = .finished) ∧
      linkOf (t.world.db.settingsOf "n1") .dh = "m1")) = true by decide +kernel)
  obtain ⟨hquiet, hlink⟩ := of_decide_eq_true ht
  exact ⟨t, hrun, @material_links_kept Bool _ "n1" .dh "m1" deleteAndSave linkedMaterial
    saveAroundDelete t hrun hquiet (by decide) hlink (by decide +kernel) (by decide +kernel)⟩

/-- **A link dangles**: the statement that blanks the link of a deleted material fails, and its
error is dropped. -/
theorem material_link_dangles :
    ¬∀ (node : String) (calls : ℕ → MaterialCall) (w : MaterialDb) (events : List (ℕ × Bool))
      (t : State ℕ MaterialDb MaterialPhase),
      Runs.run (Processes.step fun i => materialAct node (calls i)) ⟨w, fun _ => .idle⟩ events =
        some t →
      (∀ i, t.phase i = .idle ∨ t.phase i = .finished) →
      ∀ kind id, id ≠ "" → linkOf (t.world.db.settingsOf node) kind = id → Refers w node kind id →
        Refers t.world node kind id := by
  intro h
  have hrefers := h "n1" (fun _ => .deleteMaterial "m1") linkedMaterial
    [(0, true), (0, true), (0, true), (0, false)] _ rfl (fun i => ?_) .dh "m1" (by decide)
    (by decide +kernel) (by decide +kernel)
  · exact absurd hrefers (by decide +kernel)
  · by_cases hi : i = 0
    · subst hi
      exact Or.inr rfl
    · exact Or.inl (by simp [Function.update_of_ne hi])

end OpenvpnControl.Panel
