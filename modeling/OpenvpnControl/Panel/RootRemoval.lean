import OpenvpnControl.Library.Processes
import OpenvpnControl.Panel.LostUpdate

/-!
# Removing a root certificate beside other requests

`RemoveRootCaForPanel` detaches the root of a node in one transaction, counts in two further
statements which settings rows and certificates still link the root, and deletes it in a fourth when
both counts are zero. A count that fails is zero too, and nothing keeps other requests from linking
the root in between. This file says under which condition on the statements a root is deleted only
while nothing links it.

## Main definitions

* `RootCall`, `RootPhase`, `rootAct`: the requests, statement by statement.
* `Unused`: no settings row and no certificate links the root.
* `StatementLinksNone`: the condition on a statement.

## Main results

* `rootOutline`: what each request relies on.
* `root_deleted_only_unused`: in runs whose statements meet the condition, a root is deleted only
  while it is unused, and no stored settings link a root that was deleted.
* `linked_root_deleted`: a failed count deletes the root of another node.
-/

namespace OpenvpnControl.Panel

open Openvpn (Settings)
open Paneltasks (AgentNodeOpenvpnSettings)
open Processes (State)

/-- The database, with the roots that `RemoveRootCaForPanel` has deleted. -/
structure RootDb where
  db : Db
  removed : List String

/-- What happens to a statement. A read of several rows may break off after some of them. -/
inductive Outcome where
  | executes
  | refused
  | breaksOff (rows : ℕ)
  deriving DecidableEq

/-- A request: one on the settings of a node, the write of a certificate by a creation or an import,
or `RemoveRootCaForPanel` with the common name that confirms it. -/
inductive RootCall where
  | settings (node : String) (r : Request)
  | certificate (cert : Certificate)
  | removeRoot (nodeID confirmCommonName : String)

/-- How far a request is. -/
inductive RootPhase where
  | idle
  | loaded (row : Option Settings)
  | confirmed (prev : Settings)
  | detached (rootID : String)
  | settingsCounted (rootID : String) (settingsRefs : ℕ)
  | counted (rootID : String) (settingsRefs certRefs : ℕ)
  | finished

/-! ### The statements -/

/-- The rows a read delivers. -/
def Outcome.delivered {ρ : Type} (rows : List ρ) : Outcome → List ρ
  | executes => rows
  | refused => []
  | breaksOff n => rows.take n

/-- How many of the settings rows link the root. -/
def settingsRefs (rows : List AgentNodeOpenvpnSettings) (rootID : String) : ℕ :=
  rows.countP fun row => linkedRoot row.settings = rootID

/-- How many certificates the root has issued. -/
def certRefs (certs : List Certificate) (rootID : String) : ℕ :=
  certs.countP fun c => c.rootCaId = some rootID

/-- The row that a creation or an import writes: a new one or one of the same id. It is refused when
a unique column would have a value twice, or when its root does not exist. -/
def writeCertificate (db : Db) (cert : Certificate) : Option Db :=
  if cert.rootCaId.all fun rootID => (db.root rootID).isSome then
    (storeCerts (Rows.upsert (·.id) cert (fun _ => cert) db.certs)).map fun certs =>
      { db with certs := certs }
  else none

namespace RootDb

/-- The settings of a node are stored. -/
def store (w : RootDb) (node : String) (settings : Settings) : RootDb :=
  { w with db := w.db.upsertSettings node settings none }

/-- The transaction of `RemoveRootCaForPanel`. -/
def detach (w : RootDb) (node : String) (prev : Settings) : RootDb :=
  { w with
    db := { w.db with
      certs := Rows.deleteWhere
        (fun c => c.agentNodeId = some node ∧ c.rootCaId = some (linkedRoot prev))
        w.db.certs }.upsertSettings node (detachedSettings prev) none }

/-- The root is deleted, if it is there. -/
def delete (w : RootDb) (rootID : String) : RootDb :=
  if (w.db.root rootID).isSome then ⟨deleteRoot w.db rootID, rootID :: w.removed⟩ else w

end RootDb

/-- The next statement of a request. In `RemoveRootCaForPanel` the errors of the two counts and of
the delete are dropped; a request that is refused any other statement ends. -/
def rootAct : RootCall → RootPhase → Outcome → RootDb → Option (RootPhase × RootDb)
  | .settings node _, .idle, e, w =>
    some (if e = .executes then .loaded (w.db.storedSettings node) else .finished, w)
  | .settings node r, .loaded row, e, w =>
    match e, r.written row with
    | .executes, some settings => some (.finished, w.store node settings)
    | _, _ => some (.finished, w)
  | .certificate cert, .idle, e, w =>
    match e, writeCertificate w.db cert with
    | .executes, some db => some (.finished, { w with db := db })
    | _, _ => some (.finished, w)
  | .removeRoot nodeID _, .idle, e, w =>
    let agentNodeID := GoStrings.trimSpace nodeID
    some (if e = .executes ∧ (w.db.node agentNodeID).isSome then
      .loaded (w.db.storedSettings agentNodeID) else .finished, w)
  | .removeRoot _ confirmCommonName, .loaded row, e, w =>
    let prev := row.getD ∅
    let rootID := linkedRoot prev
    let expectedCN := GoStrings.trimSpace (((w.db.root rootID).map (·.commonName)).getD "")
    some (if e = .executes ∧ rootID ≠ "" ∧ expectedCN ≠ "" ∧ confirmCommonName = expectedCN then
      .confirmed prev else .finished, w)
  | .removeRoot nodeID _, .confirmed prev, e, w =>
    some (if e = .executes then
      (.detached (linkedRoot prev), w.detach (GoStrings.trimSpace nodeID) prev) else (.finished, w))
  | .removeRoot _ _, .detached rootID, e, w =>
    some (.settingsCounted rootID (settingsRefs (e.delivered w.db.settings) rootID), w)
  | .removeRoot _ _, .settingsCounted rootID refs, e, w =>
    some (.counted rootID refs (if e = .executes then certRefs w.db.certs rootID else 0), w)
  | .removeRoot _ _, .counted rootID refs certRefs, e, w =>
    some (.finished,
      if refs = 0 ∧ certRefs = 0 ∧ e = .executes then w.delete rootID else w)
  | _, _, _, _ => none

/-! ### The condition -/

variable {ι : Type*}

/-- No settings row links the root. -/
def NoSettingsLink (db : Db) (rootID : String) : Prop :=
  ∀ row ∈ db.settings, linkedRoot row.settings ≠ rootID

/-- No settings row and no certificate links the root. -/
def Unused (db : Db) (rootID : String) : Prop :=
  NoSettingsLink db rootID ∧ ∀ c ∈ db.certs, c.rootCaId ≠ some rootID

/-- The next statement of the request deletes the root if it is executed. -/
def RootPhase.WillDelete (rootID : String) : RootPhase → Prop
  | .counted id refs certRefs => id = rootID ∧ refs = 0 ∧ certRefs = 0
  | _ => False

/-- The request has counted no settings row that links the root, and may delete it. -/
def RootPhase.MayDelete (rootID : String) : RootPhase → Prop
  | .settingsCounted id refs => id = rootID ∧ refs = 0
  | .counted id refs certRefs => id = rootID ∧ refs = 0 ∧ certRefs = 0
  | _ => False

/-- The condition on a statement. Settings that are stored link no root that was deleted or that
another request has counted as not linked and may delete, and a certificate is written under no root
that will be deleted. And a count that breaks off or fails hides no link. -/
def StatementLinksNone (w : RootDb) (mayDelete willDelete : String → Prop) :
    RootCall → RootPhase → Outcome → Prop
  | .settings _ r, .loaded row, e => e = .executes → ∀ written ∈ r.written row,
      linkedRoot written ∉ w.removed ∧ ¬mayDelete (linkedRoot written)
  | .certificate cert, .idle, e => e = .executes → ∀ rootID ∈ cert.rootCaId, ¬willDelete rootID
  | .removeRoot _ _, .detached rootID, e =>
    settingsRefs (e.delivered w.db.settings) rootID = 0 → NoSettingsLink w.db rootID
  | .removeRoot _ _, .settingsCounted rootID refs, e =>
    refs = 0 → e = .executes ∨ ∀ c ∈ w.db.certs, c.rootCaId ≠ some rootID
  | _, _, _ => True

/-- **The condition on a statement of a run.** -/
def RootSafe (calls : ι → RootCall) (s : State ι RootDb RootPhase) (event : ι × Outcome) : Prop :=
  StatementLinksNone s.world (fun rootID => ∃ j, (s.phase j).MayDelete rootID)
    (fun rootID => ∃ j, (s.phase j).WillDelete rootID) (calls event.1) (s.phase event.1) event.2

instance decidableNoSettingsLink (db : Db) (rootID : String) :
    Decidable (NoSettingsLink db rootID) :=
  inferInstanceAs (Decidable (∀ row ∈ db.settings, linkedRoot row.settings ≠ rootID))

instance decidableWillDelete (rootID : String) :
    (phase : RootPhase) → Decidable (phase.WillDelete rootID)
  | .counted id refs certRefs => inferInstanceAs (Decidable (id = rootID ∧ refs = 0 ∧ certRefs = 0))
  | .idle | .loaded _ | .confirmed _ | .detached _ | .settingsCounted _ _ | .finished =>
    isFalse not_false

instance decidableMayDelete (rootID : String) :
    (phase : RootPhase) → Decidable (phase.MayDelete rootID)
  | .settingsCounted id refs => inferInstanceAs (Decidable (id = rootID ∧ refs = 0))
  | .counted id refs certRefs => inferInstanceAs (Decidable (id = rootID ∧ refs = 0 ∧ certRefs = 0))
  | .idle | .loaded _ | .confirmed _ | .detached _ | .finished => isFalse not_false

instance decidableStatementLinksNone (w : RootDb) (mayDelete willDelete : String → Prop)
    [DecidablePred mayDelete] [DecidablePred willDelete] :
    (call : RootCall) → (phase : RootPhase) → (e : Outcome) →
      Decidable (StatementLinksNone w mayDelete willDelete call phase e)
  | .settings _ r, .loaded row, e =>
    inferInstanceAs (Decidable (e = .executes → ∀ written ∈ r.written row,
      linkedRoot written ∉ w.removed ∧ ¬mayDelete (linkedRoot written)))
  | .certificate cert, .idle, e =>
    inferInstanceAs (Decidable (e = .executes → ∀ rootID ∈ cert.rootCaId, ¬willDelete rootID))
  | .removeRoot _ _, .detached rootID, e =>
    inferInstanceAs (Decidable
      (settingsRefs (e.delivered w.db.settings) rootID = 0 → NoSettingsLink w.db rootID))
  | .removeRoot _ _, .settingsCounted rootID refs, e =>
    inferInstanceAs (Decidable
      (refs = 0 → e = .executes ∨ ∀ c ∈ w.db.certs, c.rootCaId ≠ some rootID))
  | .removeRoot _ _, .idle, _ | .removeRoot _ _, .loaded _, _ | .removeRoot _ _, .confirmed _, _
  | .removeRoot _ _, .counted _ _ _, _ | .removeRoot _ _, .finished, _ => isTrue trivial
  | .certificate _, .loaded _, _ | .certificate _, .confirmed _, _ | .certificate _, .detached _, _
  | .certificate _, .settingsCounted _ _, _ | .certificate _, .counted _ _ _, _
  | .certificate _, .finished, _ => isTrue trivial
  | .settings _ _, .idle, _ | .settings _ _, .confirmed _, _ | .settings _ _, .detached _, _
  | .settings _ _, .settingsCounted _ _, _ | .settings _ _, .counted _ _ _, _
  | .settings _ _, .finished, _ => isTrue trivial

instance (calls : Bool → RootCall) (s : State Bool RootDb RootPhase) (event : Bool × Outcome) :
    Decidable (RootSafe calls s event) :=
  inferInstanceAs (Decidable (StatementLinksNone _ _ _ _ _ _))

/-- The statement deletes the row of the root. -/
def Deletes (s : State ι RootDb RootPhase) (event : ι × Outcome) (rootID : String) : Prop :=
  (s.phase event.1).WillDelete rootID ∧ event.2 = .executes ∧ (s.world.db.root rootID).isSome = true

/-- No stored settings link a root that was deleted. -/
def RemovedUnlinked (w : RootDb) : Prop :=
  ∀ rootID ∈ w.removed, rootID ≠ "" ∧ NoSettingsLink w.db rootID

/-- What a request relies on: the root that it detached has an id, and what it has counted as not
linked is not linked. -/
def RootAssertion : RootPhase → RootDb → Prop
  | .confirmed prev, _ => linkedRoot prev ≠ ""
  | .detached rootID, _ => rootID ≠ ""
  | .settingsCounted rootID refs, w => rootID ≠ "" ∧ (refs = 0 → NoSettingsLink w.db rootID)
  | .counted rootID refs certRefs, w =>
    rootID ≠ "" ∧ (refs = 0 → certRefs = 0 → Unused w.db rootID)
  | _, _ => True

/-! ### What the statements leave -/

variable {call : RootCall} {p p' : RootPhase} {e : Outcome} {w w' : RootDb} {rootID node : String}

/-- **What a statement can do to the tables.** -/
theorem rootAct_cases (h : rootAct call p e w = some (p', w')) :
    w' = w ∨
    (∃ node r row settings, call = .settings node r ∧ p = .loaded row ∧ e = .executes ∧
      r.written row = some settings ∧ w' = w.store node settings) ∨
    (∃ cert db, call = .certificate cert ∧ p = .idle ∧ e = .executes ∧
      writeCertificate w.db cert = some db ∧ w' = { w with db := db }) ∨
    (∃ node prev, w' = w.detach node prev) ∨
    (∃ rootID, p.WillDelete rootID ∧ e = .executes ∧ w' = w.delete rootID) := by
  cases call with
  | settings node r =>
    cases p with
    | idle =>
      cases h
      exact Or.inl rfl
    | loaded row =>
      dsimp only [rootAct] at h
      split at h
      · rename_i settings hw
        cases h
        exact Or.inr (Or.inl ⟨node, r, row, settings, rfl, rfl, rfl, hw, rfl⟩)
      · cases h
        exact Or.inl rfl
    | confirmed _ | detached _ | settingsCounted _ _ | counted _ _ _ | finished => cases h
  | certificate cert =>
    cases p with
    | idle =>
      dsimp only [rootAct] at h
      split at h
      · rename_i db hw
        cases h
        exact Or.inr (Or.inr (Or.inl ⟨cert, db, rfl, rfl, rfl, hw, rfl⟩))
      · cases h
        exact Or.inl rfl
    | loaded _ | confirmed _ | detached _ | settingsCounted _ _ | counted _ _ _ | finished =>
      cases h
  | removeRoot nodeID confirmCommonName =>
    cases p with
    | confirmed prev =>
      dsimp only [rootAct] at h
      split_ifs at h
      · cases h
        exact Or.inr (Or.inr (Or.inr (Or.inl ⟨_, _, rfl⟩)))
      · cases h
        exact Or.inl rfl
    | counted rootID refs certRefs =>
      dsimp only [rootAct] at h
      split_ifs at h with hzero
      · cases h
        exact Or.inr (Or.inr (Or.inr (Or.inr
          ⟨rootID, ⟨rfl, hzero.1, hzero.2.1⟩, hzero.2.2, rfl⟩)))
      · cases h
        exact Or.inl rfl
    | idle | loaded _ | detached _ | settingsCounted _ _ =>
      cases h
      exact Or.inl rfl
    | finished => cases h

/-- A row of the settings after an upsert is an old one or carries the new settings. -/
theorem mem_settings_upsert {db : Db} {settings : Settings} {cp : Option String}
    {row : AgentNodeOpenvpnSettings} (h : row ∈ (db.upsertSettings node settings cp).settings) :
    row ∈ db.settings ∨ row.settings = settings := by
  rcases Rows.mem_of_mem_upsert h with hrow | rfl | ⟨row₀, -, rfl⟩
  · exact Or.inl hrow
  · exact Or.inr rfl
  · exact Or.inr rfl

/-- Settings that do not link the root leave it unlinked. -/
theorem NoSettingsLink.upsert {db : Db} {settings : Settings} {cp : Option String}
    (h : NoSettingsLink db rootID) (hne : linkedRoot settings ≠ rootID) :
    NoSettingsLink (db.upsertSettings node settings cp) rootID := by
  intro row hrow
  rcases mem_settings_upsert hrow with hold | hnew
  · exact h row hold
  · rw [hnew]
    exact hne

theorem settings_writeCertificate {db db' : Db} {cert : Certificate}
    (h : writeCertificate db cert = some db') :
    db'.settings = db.settings ∧ ∀ c ∈ db'.certs, c ∈ db.certs ∨ c = cert := by
  rw [writeCertificate] at h
  split_ifs at h
  obtain ⟨certs, hcerts, rfl⟩ := Option.map_eq_some_iff.1 h
  obtain ⟨-, rfl⟩ := storeCerts_eq_some.1 hcerts
  refine ⟨rfl, fun c hc => ?_⟩
  rcases Rows.mem_of_mem_upsert hc with hold | rfl | ⟨-, -, rfl⟩
  · exact Or.inl hold
  · exact Or.inr rfl
  · exact Or.inr rfl

theorem settings_delete (w : RootDb) (rootID : String) :
    (w.delete rootID).db.settings = w.db.settings := by
  rw [RootDb.delete]
  split_ifs <;> rfl

/-- A delete of a root leaves each certificate its root or takes it away. -/
theorem rootCaId_delete {c : Certificate} {id : String} (h : c ∈ (w.delete rootID).db.certs)
    (hc : c.rootCaId = some id) : ∃ c₀ ∈ w.db.certs, c₀.rootCaId = some id := by
  rw [RootDb.delete] at h
  split_ifs at h
  · rcases Rows.mem_updateWhere.1 h with ⟨hold, -⟩ | ⟨c₀, -, -, rfl⟩
    · exact ⟨c, hold, hc⟩
    · cases hc
  · exact ⟨c, h, hc⟩

theorem mem_removed_delete {id : String} (h : id ∈ (w.delete rootID).removed) :
    id = rootID ∨ id ∈ w.removed := by
  rw [RootDb.delete] at h
  split_ifs at h
  · exact List.mem_cons.1 h
  · exact Or.inr h

/-! ### The outline -/

/-- **What a request relies on survives** every change that leaves the roots it may delete alone. -/
theorem RootAssertion.of_leaves (h : RootAssertion p w)
    (hmay : ∀ rootID, p.MayDelete rootID → rootID ≠ "" →
      NoSettingsLink w.db rootID → NoSettingsLink w'.db rootID)
    (hwill : ∀ rootID, p.WillDelete rootID → rootID ≠ "" →
      Unused w.db rootID → Unused w'.db rootID) :
    RootAssertion p w' := by
  cases p with
  | settingsCounted rootID refs =>
    exact ⟨h.1, fun hrefs => hmay rootID ⟨rfl, hrefs⟩ h.1 (h.2 hrefs)⟩
  | counted rootID refs certRefs =>
    exact ⟨h.1, fun hrefs hcerts => hwill rootID ⟨rfl, hrefs, hcerts⟩ h.1 (h.2 hrefs hcerts)⟩
  | confirmed prev => exact h
  | detached rootID => exact h
  | idle | loaded _ | finished => trivial

theorem RootPhase.WillDelete.mayDelete (h : p.WillDelete rootID) : p.MayDelete rootID := by
  cases p with
  | counted id refs certRefs => exact h
  | _ => exact h.elim

/-- The statements of a request establish what it relies on. -/
theorem RootAssertion.own {mayDelete willDelete : String → Prop} (h : RootAssertion p w)
    (hok : StatementLinksNone w mayDelete willDelete call p e)
    (hact : rootAct call p e w = some (p', w')) : RootAssertion p' w' := by
  cases call with
  | settings node r =>
    cases p with
    | idle =>
      cases hact
      split_ifs <;> trivial
    | loaded row =>
      dsimp only [rootAct] at hact
      split at hact <;> (cases hact; trivial)
    | confirmed _ | detached _ | settingsCounted _ _ | counted _ _ _ | finished => cases hact
  | certificate cert =>
    cases p with
    | idle =>
      dsimp only [rootAct] at hact
      split at hact <;> (cases hact; trivial)
    | loaded _ | confirmed _ | detached _ | settingsCounted _ _ | counted _ _ _ | finished =>
      cases hact
  | removeRoot nodeID confirmCommonName =>
    cases p with
    | idle =>
      cases hact
      split_ifs <;> trivial
    | loaded row =>
      cases hact
      split_ifs with hconfirmed
      · exact hconfirmed.2.1
      · trivial
    | confirmed prev =>
      dsimp only [rootAct] at hact
      split_ifs at hact <;> cases hact
      · exact h
      · trivial
    | detached rootID =>
      cases hact
      exact ⟨h, hok⟩
    | settingsCounted rootID refs =>
      cases hact
      refine ⟨h.1, fun hrefs hcerts => ⟨h.2 hrefs, ?_⟩⟩
      rcases hok hrefs with rfl | hnone
      · rw [if_pos rfl, certRefs, List.countP_eq_zero] at hcerts
        intro c hc hroot
        exact hcerts c hc (decide_eq_true hroot)
      · exact hnone
    | counted rootID refs certRefs =>
      cases hact
      trivial
    | finished => cases hact

variable {calls : ι → RootCall} {s t : State ι RootDb RootPhase} {i : ι}

/-- **A statement that meets the condition leaves a root unlinked** that was deleted, or that a
request may delete. -/
theorem NoSettingsLink.statement (hlink : NoSettingsLink s.world.db rootID) (hne : rootID ≠ "")
    (hroot : rootID ∈ s.world.removed ∨ ∃ j, (s.phase j).MayDelete rootID)
    (hok : RootSafe calls s (i, e)) (hact : rootAct (calls i) (s.phase i) e s.world = some (p, w)) :
    NoSettingsLink w.db rootID := by
  rcases rootAct_cases hact with rfl | ⟨node, r, row, settings, hcall, hphase, rfl, hw, rfl⟩ |
    ⟨cert, db, -, -, -, hdb, rfl⟩ | ⟨node, prev, rfl⟩ | ⟨id, -, -, rfl⟩
  · exact hlink
  · rw [RootSafe, hcall, hphase] at hok
    obtain ⟨hremoved, hmay⟩ := hok rfl settings hw
    refine hlink.upsert ?_
    rintro rfl
    exact hroot.elim hremoved hmay
  · intro row hrow
    rw [(settings_writeCertificate hdb).1] at hrow
    exact hlink row hrow
  · refine NoSettingsLink.upsert (h := ?_) ?_
    · exact hlink
    · rw [linkedRoot_detachedSettings]
      exact hne.symm
  · intro row hrow
    rw [settings_delete] at hrow
    exact hlink row hrow

/-- **A statement that meets the condition leaves a root unused** that a request will delete. -/
theorem Unused.statement (hunused : Unused s.world.db rootID) (hne : rootID ≠ "")
    (hroot : ∃ j, (s.phase j).WillDelete rootID) (hok : RootSafe calls s (i, e))
    (hact : rootAct (calls i) (s.phase i) e s.world = some (p, w)) : Unused w.db rootID := by
  have hmay : ∃ j, (s.phase j).MayDelete rootID := hroot.imp fun j hj => hj.mayDelete
  refine ⟨hunused.1.statement hne (Or.inr hmay) hok hact, fun c hc hlinked => ?_⟩
  rcases rootAct_cases hact with rfl | ⟨node, r, row, settings, -, -, -, -, rfl⟩ |
    ⟨cert, db, hcall, hphase, rfl, hdb, rfl⟩ | ⟨node, prev, rfl⟩ | ⟨id, -, -, rfl⟩
  · exact hunused.2 c hc hlinked
  · exact hunused.2 c hc hlinked
  · rcases (settings_writeCertificate hdb).2 c hc with hold | rfl
    · exact hunused.2 c hold hlinked
    · rw [RootSafe, hcall, hphase] at hok
      exact hok rfl rootID hlinked hroot
  · exact hunused.2 c (Rows.mem_deleteWhere.1 hc).1 hlinked
  · obtain ⟨c₀, hc₀, hlinked₀⟩ := rootCaId_delete hc hlinked
    exact hunused.2 c₀ hc₀ hlinked₀

/-- **The outline of the requests.** -/
theorem rootOutline (calls : ι → RootCall) :
    Processes.Outline (fun i => rootAct (calls i)) (RootSafe calls) RemovedUnlinked
      (fun _ => RootAssertion) where
  own {s i e p w} hinv hassert hok hact := by
    refine ⟨fun rootID hremoved => ?_, (hassert i).own hok hact⟩
    have hkeeps : rootID ∈ s.world.removed → rootID ≠ "" ∧ NoSettingsLink w.db rootID := fun hold =>
      ⟨(hinv rootID hold).1,
        (hinv rootID hold).2.statement (hinv rootID hold).1 (Or.inl hold) hok hact⟩
    rcases rootAct_cases hact with rfl | ⟨_, _, _, _, _, _, _, _, rfl⟩ | ⟨_, _, _, _, _, _, rfl⟩ |
      ⟨_, _, rfl⟩ | ⟨id, hwill, -, rfl⟩
    · exact hkeeps hremoved
    · exact hkeeps hremoved
    · exact hkeeps hremoved
    · exact hkeeps hremoved
    · rcases mem_removed_delete hremoved with rfl | hold
      · -- the root that is deleted has been counted as unused
        have hself := hassert i
        cases hphase : s.phase i with
        | counted id' refs certRefs =>
          rw [hphase] at hself hwill
          obtain ⟨rfl, hrefs, hcerts⟩ := hwill
          refine ⟨hself.1, fun row hrow => ?_⟩
          rw [settings_delete] at hrow
          exact (hself.2 hrefs hcerts).1 row hrow
        | _ =>
          rw [hphase] at hwill
          exact hwill.elim
      · exact hkeeps hold
  others {s i j e p w} _ hinv hassert hok hact :=
    (hassert j).of_leaves
      (fun _ hmay hne hlink => hlink.statement hne (Or.inr ⟨j, hmay⟩) hok hact)
      (fun _ hwill hne hunused => hunused.statement hne ⟨j, hwill⟩ hok hact)

variable [DecidableEq ι]

/-- **A root is deleted only while nothing links it**, and no stored settings link a root that was
deleted, in every run whose statements meet the condition. -/
theorem root_deleted_only_unused (calls : ι → RootCall) (db : Db) (events : List (ι × Outcome))
    (hok : Runs.Meets (Processes.step fun i => rootAct (calls i)) (RootSafe calls)
      ⟨⟨db, []⟩, fun _ => .idle⟩ events) :
    Runs.Meets (Processes.step fun i => rootAct (calls i))
        (fun s event => ∀ rootID, Deletes s event rootID → Unused s.world.db rootID)
        ⟨⟨db, []⟩, fun _ => .idle⟩ events ∧
      ∀ t, Runs.run (Processes.step fun i => rootAct (calls i)) ⟨⟨db, []⟩, fun _ => .idle⟩ events =
        some t → ∀ rootID ∈ t.world.removed, NoSettingsLink t.world.db rootID := by
  have hstart : Processes.Holds RemovedUnlinked (fun _ : ι => RootAssertion)
      ⟨⟨db, []⟩, fun _ => .idle⟩ := ⟨fun _ h => absurd h List.not_mem_nil, fun _ => trivial⟩
  refine ⟨(rootOutline calls).meets hstart hok fun s event hs _ rootID hdel => ?_, fun t hrun => ?_⟩
  · obtain ⟨hwill, -, -⟩ := hdel
    have hself := hs.2 event.1
    cases hphase : s.phase event.1 with
    | counted id refs certRefs =>
      rw [hphase] at hself hwill
      obtain ⟨rfl, hrefs, hcerts⟩ := hwill
      exact hself.2 hrefs hcerts
    | _ =>
      rw [hphase] at hwill
      exact hwill.elim
  · intro rootID hremoved
    exact (((rootOutline calls).run hstart hok hrun).1 rootID hremoved).2

/-- The node `n1` with a root, and the node `n2`. -/
private def ownRoot : Db :=
  { Db.empty with
    nodes := [⟨"n1", "vpn"⟩, ⟨"n2", "office"⟩]
    roots := [⟨"r1", "root", "Root", "", ""⟩]
    settings := [⟨"n1", .ofList [("panelRootCaId", .str "r1")], none⟩] }

/-- The root of the first node is removed beside a save of the port of the second one. -/
private def removeAndSave (i : Bool) : RootCall :=
  if i then .removeRoot "n1" "Root"
  else .settings "n2" (.post (.ofList [("port", .str "1195")]) false)

/-- The save loads before the transaction and stores between the two counts. -/
private def saveBetweenCounts : List (Bool × Outcome) :=
  [(true, .executes), (false, .executes), (true, .executes), (true, .executes), (true, .executes),
    (false, .executes), (true, .executes), (true, .executes)]

theorem root_deleted_only_unused_saveBetweenCounts :
    ∃ t, Runs.run (Processes.step fun i => rootAct (removeAndSave i))
        ⟨⟨ownRoot, []⟩, fun _ => .idle⟩ saveBetweenCounts = some t ∧
      "r1" ∈ t.world.removed ∧ NoSettingsLink t.world.db "r1" := by
  obtain ⟨t, hrun⟩ := Option.isSome_iff_exists.1 (show (Runs.run
    (Processes.step fun i => rootAct (removeAndSave i)) ⟨⟨ownRoot, []⟩, fun _ => .idle⟩
    saveBetweenCounts).isSome = true by decide +kernel)
  have hremoved : (Runs.run (Processes.step fun i => rootAct (removeAndSave i))
      ⟨⟨ownRoot, []⟩, fun _ => .idle⟩ saveBetweenCounts).all
        (fun t => decide ("r1" ∈ t.world.removed)) = true := by decide +kernel
  rw [hrun] at hremoved
  exact ⟨t, hrun, of_decide_eq_true hremoved,
    (root_deleted_only_unused removeAndSave ownRoot saveBetweenCounts
      (by decide +kernel)).2 t hrun "r1" (of_decide_eq_true hremoved)⟩

/-- Two nodes with one root. -/
private def sharedRoot : Db :=
  { Db.empty with
    nodes := [⟨"n1", "vpn"⟩, ⟨"n2", "office"⟩]
    roots := [⟨"r1", "root", "Root", "", ""⟩]
    settings := [⟨"n1", .ofList [("panelRootCaId", .str "r1")], none⟩,
      ⟨"n2", .ofList [("panelRootCaId", .str "r1")], none⟩] }

/-- **A linked root is deleted**: the count of the settings rows fails, which reads as none. -/
theorem linked_root_deleted :
    ¬∀ (calls : ℕ → RootCall) (db : Db) (events : List (ℕ × Outcome)),
      Runs.Meets (Processes.step fun i => rootAct (calls i))
        (fun s event => ∀ rootID, Deletes s event rootID → Unused s.world.db rootID)
        ⟨⟨db, []⟩, fun _ => .idle⟩ events ∧
      ∀ t, Runs.run (Processes.step fun i => rootAct (calls i)) ⟨⟨db, []⟩, fun _ => .idle⟩ events =
        some t → ∀ rootID ∈ t.world.removed, NoSettingsLink t.world.db rootID := by
  intro h
  obtain ⟨-, hend⟩ := h (fun _ => .removeRoot "n1" "Root") sharedRoot
    [(0, .executes), (0, .executes), (0, .executes), (0, .refused), (0, .executes), (0, .executes)]
  obtain ⟨t, hrun, ht⟩ := (Option.any_eq_true _ _).1 (show (Runs.run
    (Processes.step fun _ : ℕ => rootAct (.removeRoot "n1" "Root"))
    ⟨⟨sharedRoot, []⟩, fun _ => .idle⟩ [(0, .executes), (0, .executes), (0, .executes),
      (0, .refused), (0, .executes), (0, .executes)]).any (fun t => decide
        ("r1" ∈ t.world.removed ∧ ⟨"n2", .ofList [("panelRootCaId", .str "r1")], none⟩ ∈
          t.world.db.settings)) = true by decide +kernel)
  obtain ⟨hremoved, hrow⟩ := of_decide_eq_true ht
  exact hend t hrun "r1" hremoved _ hrow (by decide +kernel)

end OpenvpnControl.Panel
