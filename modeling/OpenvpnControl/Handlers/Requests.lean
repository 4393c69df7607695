import OpenvpnControl.Library.Refusals
import OpenvpnControl.Panel.Db

/-!
# Requests of the panel's handlers

What the handlers of the package `handlers` share: the refusals they answer, the values they read
from a JSON body, and what the database, the clock and the task queue answer to one request. A
statement of the database that fails ends a request and leaves the rows as they are, like a refusal;
only the look-ups whose error is read as "no row" are kept apart.

## Main definitions

* `Refusal`: a status and a text.
* `strAny`, `nullableID`, `reqTrim`, `resolveOrgID`: values of a body.
* `HandlerEnv`: what a request is answered.
-/

namespace OpenvpnControl.Handlers

open Panel (Db)
open Paneltasks (EnqueueEnv)
open Refusals (require fetch)

/-- An answer other than success. -/
structure Refusal where
  status : ℕ
  error : String
  deriving DecidableEq

/-- A decoded body. -/
abbrev Fields : Type := List (String × Json)

/-- What a request is answered: the time, fresh ids, `time.Parse(time.RFC3339, …)`, whether the
look-ups fail whose error reads as no row, and the answers to the enqueues of each node. -/
structure HandlerEnv where
  now : ℤ
  ksuid : List String → String
  parseTime : String → Option ℤ
  lookupFails : Bool
  taskEnv : String → EnqueueEnv

/-- Every statement is executed. -/
def HandlerEnv.quiet (now : ℤ) (ksuid : List String → String) : HandlerEnv where
  now := now
  ksuid := ksuid
  parseTime _ := none
  lookupFails := false
  taskEnv _ := Paneltasks.longerIds

/-! ### Values of a body -/

/-- `strAny`; the trimming there changes no text of a number or a boolean. -/
def strAny : Json → String
  | .str s => s
  | .num n => n.plain
  | .bool b => if b then "true" else "false"
  | _ => ""

/-- `strings.TrimSpace(strAny(body[key]))`. -/
def textField (body : Fields) (key : String) : String :=
  GoStrings.trimSpace (strAny (Json.field body key))

/-- Does the body have the key? -/
def hasField (body : Fields) (key : String) : Bool := (body.lookup key).isSome

/-- A text, or nothing when it is blank: `nullableID`, `optStr`. -/
def nullableID (v : Json) : Option String :=
  let s := GoStrings.trimSpace (strAny v)
  if s = "" then none else some s

def reqTrim (v : Json) (label : String) : Except Refusal String := do
  let s := GoStrings.trimSpace (strAny v)
  require (s ≠ "") ⟨400, "Обязательное поле: " ++ label⟩
  return s

def resolveOrgID (db : Db) (raw : Json) : Except Refusal (Option String) := do
  let orgID := nullableID raw
  require (orgID.all fun id => (db.org id).isSome) ⟨404, "Организация не найдена"⟩
  return orgID

theorem nullableID_field (body : Fields) (key : String) :
    nullableID (Json.field body key) =
      if textField body key = "" then none else some (textField body key) := rfl

theorem nullableID_ne_empty {v : Json} {id : String} (h : nullableID v = some id) : id ≠ "" := by
  simp only [nullableID] at h
  split_ifs at h with hs
  rwa [← Option.some.inj h]

theorem trimSpace_nullableID {v : Json} {id : String} (h : nullableID v = some id) :
    GoStrings.trimSpace id = id := by
  simp only [nullableID] at h
  split_ifs at h with hs
  rw [← Option.some.inj h, GoStrings.trimSpace_trimSpace]

/-! ### Snapshots -/

end OpenvpnControl.Handlers

namespace OpenvpnControl.Panel.Db

open Paneltasks (EnqueueEnv)

/-- `EnqueueSnapshotForNode` for each of the nodes. -/
def enqueueSnapshots (db : Db) (env : String → EnqueueEnv) (nodes : List String) : Db :=
  nodes.foldl (fun db nodeID => db.enqueueSnapshot (env nodeID) nodeID) db

@[simp] theorem enqueueSnapshots_nil (db : Db) (env : String → EnqueueEnv) :
    db.enqueueSnapshots env [] = db := rfl

theorem enqueueSnapshots_eq (db : Db) (env : String → EnqueueEnv) (nodes : List String) :
    ∃ tasks, db.enqueueSnapshots env nodes = { db with tasks := tasks } := by
  induction nodes generalizing db with
  | nil => exact ⟨db.tasks, rfl⟩
  | cons nodeID nodes ih =>
    obtain ⟨tasks, h⟩ := ih (db.enqueueSnapshot (env nodeID) nodeID)
    exact ⟨tasks, h⟩

@[simp] theorem certs_enqueueSnapshots (db : Db) (env : String → EnqueueEnv)
    (nodes : List String) : (db.enqueueSnapshots env nodes).certs = db.certs := by
  obtain ⟨tasks, h⟩ := db.enqueueSnapshots_eq env nodes
  rw [h]

@[simp] theorem roots_enqueueSnapshots (db : Db) (env : String → EnqueueEnv)
    (nodes : List String) : (db.enqueueSnapshots env nodes).roots = db.roots := by
  obtain ⟨tasks, h⟩ := db.enqueueSnapshots_eq env nodes
  rw [h]

@[simp] theorem settings_enqueueSnapshots (db : Db) (env : String → EnqueueEnv)
    (nodes : List String) : (db.enqueueSnapshots env nodes).settings = db.settings := by
  obtain ⟨tasks, h⟩ := db.enqueueSnapshots_eq env nodes
  rw [h]

end OpenvpnControl.Panel.Db
