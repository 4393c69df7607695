import Mathlib.Data.List.Forall2
import OpenvpnControl.Library.Json

/-!
# What the audit log keeps of a body

`sanitizeJSON` and `sanitizeValue` of `audit/audit.go`. The values of six keys are replaced, long
texts and long lists are cut, and the rest is kept. Two bodies that differ only in their secret
fields leave the same details when they agree on the secret fields that the six keys leave out.

## Main definitions

* `hiddenKeys`, `sanitizeValue`, `sanitizeJSON`: the functions.
* `secretFields`, `SameButSecrets`: the fields that are secret, and bodies that differ only there.
* `exposed`: the secret values that the log keeps.
* `KeepsSame`: values of which the log keeps the same.

## Main results

* `sanitizeValue_eq_iff`: what `sanitizeValue` keeps.
* `details_same_iff`: when the details of two bodies are the same.
* `newPassword_in_details`: two bodies whose details tell the new password.
-/

namespace OpenvpnControl.Audit

open GoStrings (bytes byteLength)

/-! ### The functions -/

def hiddenKeys : List String :=
  ["password", "passwordHash", "authToken", "keyPem", "certPem", "token"]

/-- A value that `sanitizeValue` makes. A Go string is its bytes: a cut can go through a
character. -/
inductive Details where
  | null
  | bool (b : Bool)
  | num (n : JsonNumber)
  | text (bytes : List UInt8)
  | arr (xs : List Details)
  | obj (fields : List (String × Details))

/-- What is kept of a text. -/
def sanitizeText (s : String) : List UInt8 :=
  if 400 < byteLength s then (bytes s).take 400 ++ bytes "…" else bytes s

mutual

def sanitizeValue : Json → Details
  | .null => .null
  | .bool b => .bool b
  | .num n => .num n
  | .str s => .text (sanitizeText s)
  | .arr xs => .arr (sanitizeElems 20 xs)
  | .obj fields => .obj (sanitizeFields fields)

/-- The first elements of a list. -/
def sanitizeElems : ℕ → List Json → List Details
  | _, [] => []
  | 0, _ :: _ => []
  | n + 1, x :: xs => sanitizeValue x :: sanitizeElems n xs

/-- The fields of an object. -/
def sanitizeFields : List (String × Json) → List (String × Details)
  | [] => []
  | (k, v) :: fields =>
    (k, if k ∈ hiddenKeys then .text (bytes "[redacted]") else sanitizeValue v) ::
      sanitizeFields fields

end

/-- `sanitizeJSON`, where `unmarshal` is `json.Unmarshal` into `any`. -/
def sanitizeJSON (unmarshal : List UInt8 → Option Json) (raw : List UInt8) : Details :=
  if raw = [] then .null
  else match unmarshal raw with
    | none => .null
    | some v => sanitizeValue v

/-! ### Secrets -/

/-- The fields of the panel's bodies that are secret. -/
def secretFields : List String :=
  ["password", "newPassword", "currentPassword", "token", "mfaPendingToken", "authToken", "keyPem",
    "totpCode", "recoveryCode"]

mutual

/-- Two values differ only in the values of secret fields. -/
def SameButSecrets : Json → Json → Prop
  | .arr xs, .arr ys => SameElems xs ys
  | .obj fs, .obj gs => SameFields fs gs
  | .null, .null => True
  | .bool a, .bool b => a = b
  | .num a, .num b => a = b
  | .str a, .str b => a = b
  | _, _ => False

/-- Two lists differ only in the values of secret fields. -/
def SameElems : List Json → List Json → Prop
  | [], [] => True
  | x :: xs, y :: ys => SameButSecrets x y ∧ SameElems xs ys
  | _, _ => False

/-- The fields of two objects differ only in the values of secret fields. -/
def SameFields : List (String × Json) → List (String × Json) → Prop
  | [], [] => True
  | (k, x) :: fs, (l, y) :: gs =>
    k = l ∧ (k ∉ secretFields → SameButSecrets x y) ∧ SameFields fs gs
  | _, _ => False

end

/-- The log keeps the same of two texts: they are equal, or both are cut and agree up to the cut. -/
def KeepsText (s t : String) : Prop :=
  s = t ∨ 400 < byteLength s ∧ 400 < byteLength t ∧ (bytes s).take 400 = (bytes t).take 400

mutual

/-- The log keeps the same of two values: they agree but for the values of `hiddenKeys`, the
elements of a list from the twenty-first on, and the bytes of a text from the four hundred and first
on. -/
def KeepsSame : Json → Json → Prop
  | .arr xs, .arr ys => KeepsElems 20 xs ys
  | .obj fs, .obj gs => KeepsFields fs gs
  | .null, .null => True
  | .bool a, .bool b => a = b
  | .num a, .num b => a = b
  | .str a, .str b => KeepsText a b
  | _, _ => False

/-- The log keeps the same of the first elements of two lists. -/
def KeepsElems : ℕ → List Json → List Json → Prop
  | _, [], [] => True
  | 0, _ :: _, _ => True
  | 0, _, _ :: _ => True
  | n + 1, x :: xs, y :: ys => KeepsSame x y ∧ KeepsElems n xs ys
  | _, _, _ => False

/-- The log keeps the same of the fields of two objects. -/
def KeepsFields : List (String × Json) → List (String × Json) → Prop
  | [], [] => True
  | (k, x) :: fs, (l, y) :: gs => k = l ∧ (k ∉ hiddenKeys → KeepsSame x y) ∧ KeepsFields fs gs
  | _, _ => False

end

mutual

/-- The values of the secret fields that are not hidden: neither the field nor one around it is one
of `hiddenKeys`, and no list around it is cut before it. -/
def exposed : Json → List Json
  | .arr xs => exposedElems 20 xs
  | .obj fields => exposedFields fields
  | .null | .bool _ | .num _ | .str _ => []

/-- The exposed values in the first elements of a list. -/
def exposedElems : ℕ → List Json → List Json
  | _, [] => []
  | 0, _ :: _ => []
  | n + 1, x :: xs => exposed x ++ exposedElems n xs

/-- The exposed values in the fields of an object. -/
def exposedFields : List (String × Json) → List Json
  | [] => []
  | (k, x) :: fields =>
    (if k ∈ hiddenKeys then [] else if k ∈ secretFields then [x] else exposed x) ++
      exposedFields fields

end

/-! ### What `sanitizeValue` keeps -/

theorem sanitizeText_eq_iff {s t : String} : sanitizeText s = sanitizeText t ↔ KeepsText s t := by
  have hcut (s : String) (hs : 400 < byteLength s) :
      ((bytes s).take 400 ++ bytes "…").length = 403 := by
    have hs : 400 ≤ (bytes s).length := Nat.le_of_lt hs
    rw [List.length_append, List.length_take, min_eq_left hs]
    decide +kernel
  rw [sanitizeText, sanitizeText, KeepsText]
  split_ifs with hs ht ht
  · rw [List.append_left_inj]
    exact ⟨fun h => Or.inr ⟨hs, ht, h⟩, fun h => h.elim (fun h => h ▸ rfl) fun h => h.2.2⟩
  · refine iff_of_false (fun h => ht ?_) fun h => ?_
    · have hlength := congrArg List.length h
      rw [hcut s hs] at hlength
      rw [byteLength, ← hlength]
      decide
    · rcases h with rfl | h
      · exact ht hs
      · exact ht h.2.1
  · refine iff_of_false (fun h => hs ?_) fun h => ?_
    · have hlength := congrArg List.length h
      rw [hcut t ht] at hlength
      rw [byteLength, hlength]
      decide
    · rcases h with rfl | h
      · exact hs ht
      · exact hs h.1
  · rw [GoStrings.bytes_inj]
    exact ⟨Or.inl, fun h => h.elim id fun h => absurd h.1 hs⟩

theorem sanitizeElems_eq_iff {xs : List Json}
    (ih : ∀ x ∈ xs, ∀ y, sanitizeValue x = sanitizeValue y ↔ KeepsSame x y) (n : ℕ)
    (ys : List Json) :
    sanitizeElems n xs = sanitizeElems n ys ↔ KeepsElems n xs ys := by
  induction xs generalizing n ys with
  | nil => cases n <;> cases ys <;> simp [sanitizeElems, KeepsElems]
  | cons x xs ihs =>
    obtain ⟨hx, hxs⟩ := List.forall_mem_cons.1 ih
    cases n with
    | zero => cases ys <;> simp [sanitizeElems, KeepsElems]
    | succ n =>
      cases ys with
      | nil => simp [sanitizeElems, KeepsElems]
      | cons y ys => simp [sanitizeElems, KeepsElems, hx, ihs hxs]

theorem sanitizeFields_eq_iff {fs : List (String × Json)}
    (ih : ∀ f ∈ fs, ∀ y, sanitizeValue f.2 = sanitizeValue y ↔ KeepsSame f.2 y)
    (gs : List (String × Json)) : sanitizeFields fs = sanitizeFields gs ↔ KeepsFields fs gs := by
  induction fs generalizing gs with
  | nil => cases gs <;> simp [sanitizeFields, KeepsFields]
  | cons f fs ihs =>
    obtain ⟨hf, hfs⟩ := List.forall_mem_cons.1 ih
    obtain ⟨k, x⟩ := f
    cases gs with
    | nil => simp [sanitizeFields, KeepsFields]
    | cons g gs =>
      obtain ⟨l, y⟩ := g
      simp only [sanitizeFields, KeepsFields, List.cons.injEq, Prod.mk.injEq, ihs hfs, and_assoc]
      refine and_congr_right fun hkl => and_congr_left fun _ => ?_
      subst hkl
      by_cases hk : k ∈ hiddenKeys
      · simp [hk]
      · simp [hk, hf]

/-- **What `sanitizeValue` keeps**: two values become the same when the log keeps the same of
them. -/
theorem sanitizeValue_eq_iff (v w : Json) : sanitizeValue v = sanitizeValue w ↔ KeepsSame v w := by
  induction v using Json.induction generalizing w with
  | hnull => cases w <;> simp [sanitizeValue, KeepsSame]
  | hbool b => cases w <;> simp [sanitizeValue, KeepsSame]
  | hnum n => cases w <;> simp [sanitizeValue, KeepsSame]
  | hstr s => cases w <;> simp [sanitizeValue, KeepsSame, sanitizeText_eq_iff]
  | harr xs ih => cases w <;> simp [sanitizeValue, KeepsSame, sanitizeElems_eq_iff ih]
  | hobj fields ih => cases w <;> simp [sanitizeValue, KeepsSame, sanitizeFields_eq_iff ih]

/-! ### Bodies that differ only in their secrets -/

/-- Two lists in two parts, whose first parts are of one length. -/
theorem forall₂_append_iff {α : Type*} {R : α → α → Prop} {as bs cs ds : List α}
    (h : as.length = bs.length) :
    List.Forall₂ R (as ++ cs) (bs ++ ds) ↔ List.Forall₂ R as bs ∧ List.Forall₂ R cs ds := by
  induction as generalizing bs with
  | nil =>
    obtain rfl := List.eq_nil_of_length_eq_zero h.symm
    simp
  | cons a as ih =>
    cases bs with
    | nil => cases h
    | cons b bs => simp [ih (Nat.succ.inj h), and_assoc]

/-- What is claimed of two values: as many secrets are exposed, and the log keeps the same when it
keeps the same of each of them. -/
def ExposedAlike (v w : List Json) (same : Prop) : Prop :=
  v.length = w.length ∧ (same ↔ List.Forall₂ KeepsSame v w)

theorem exposedAlike_append {as bs cs ds : List Json} {p q : Prop} (h : ExposedAlike as bs p)
    (h' : ExposedAlike cs ds q) : ExposedAlike (as ++ cs) (bs ++ ds) (p ∧ q) := by
  refine ⟨by rw [List.length_append, List.length_append, h.1, h'.1], ?_⟩
  rw [forall₂_append_iff h.1, h.2, h'.2]

theorem exposedAlike_elems {xs : List Json}
    (ih : ∀ x ∈ xs, ∀ y, SameButSecrets x y → ExposedAlike (exposed x) (exposed y) (KeepsSame x y))
    (n : ℕ) (ys : List Json) (h : SameElems xs ys) :
    ExposedAlike (exposedElems n xs) (exposedElems n ys) (KeepsElems n xs ys) := by
  induction xs generalizing n ys with
  | nil =>
    cases ys with
    | nil => cases n <;> simp [ExposedAlike, exposedElems, KeepsElems]
    | cons y ys => exact absurd h id
  | cons x xs ihs =>
    obtain ⟨hx, hxs⟩ := List.forall_mem_cons.1 ih
    cases ys with
    | nil => exact absurd h id
    | cons y ys =>
      cases n with
      | zero => simp [ExposedAlike, exposedElems, KeepsElems]
      | succ n =>
        simp only [exposedElems, KeepsElems]
        exact exposedAlike_append (hx y h.1) (ihs hxs n ys h.2)

theorem exposedAlike_fields {fs : List (String × Json)}
    (ih : ∀ f ∈ fs, ∀ y, SameButSecrets f.2 y →
      ExposedAlike (exposed f.2) (exposed y) (KeepsSame f.2 y))
    (gs : List (String × Json)) (h : SameFields fs gs) :
    ExposedAlike (exposedFields fs) (exposedFields gs) (KeepsFields fs gs) := by
  induction fs generalizing gs with
  | nil =>
    cases gs with
    | nil => simp [ExposedAlike, exposedFields, KeepsFields]
    | cons g gs => exact absurd h id
  | cons f fs ihs =>
    obtain ⟨hf, hfs⟩ := List.forall_mem_cons.1 ih
    obtain ⟨k, x⟩ := f
    cases gs with
    | nil => exact absurd h id
    | cons g gs =>
      obtain ⟨l, y⟩ := g
      obtain ⟨rfl, hxy, hrest⟩ := h
      have hfield : ExposedAlike
          (if k ∈ hiddenKeys then [] else if k ∈ secretFields then [x] else exposed x)
          (if k ∈ hiddenKeys then [] else if k ∈ secretFields then [y] else exposed y)
          (k ∉ hiddenKeys → KeepsSame x y) := by
        by_cases hk : k ∈ hiddenKeys
        · simp [ExposedAlike, hk]
        · by_cases hsecret : k ∈ secretFields
          · simp [ExposedAlike, hk, hsecret]
          · simpa [hk, hsecret] using hf y (hxy hsecret)
      have hfields := exposedAlike_append hfield (ihs hfs gs hrest)
      rw [exposedFields, exposedFields, KeepsFields]
      simpa only [true_and] using hfields

/-- **The log keeps the same of two bodies** that differ only in their secrets when it keeps the
same of the exposed ones. -/
theorem SameButSecrets.exposedAlike {v w : Json} (h : SameButSecrets v w) :
    ExposedAlike (exposed v) (exposed w) (KeepsSame v w) := by
  induction v using Json.induction generalizing w with
  | hnull | hbool | hnum => cases w <;> simp_all [SameButSecrets, ExposedAlike, exposed, KeepsSame]
  | hstr s =>
    cases w with
    | str t =>
      obtain rfl : s = t := h
      simp [ExposedAlike, exposed, KeepsSame, KeepsText]
    | _ => exact absurd h id
  | harr xs ih =>
    cases w with
    | arr ys =>
      simp only [exposed, KeepsSame]
      exact exposedAlike_elems (fun x hx y hxy => ih x hx hxy) 20 ys h
    | _ => exact absurd h id
  | hobj fields ih =>
    cases w with
    | obj gs =>
      simp only [exposed, KeepsSame]
      exact exposedAlike_fields (fun f hf y hfy => ih f hf hfy) gs h
    | _ => exact absurd h id

/-- **When the details of two bodies are the same.** For bodies that differ only in their secrets:
when the log keeps the same of the secrets that are not hidden. -/
theorem details_same_iff {unmarshal : List UInt8 → Option Json} (hempty : unmarshal [] = none)
    {raw raw' : List UInt8} {v w : Json} (hv : unmarshal raw = some v)
    (hw : unmarshal raw' = some w) (h : SameButSecrets v w) :
    sanitizeJSON unmarshal raw = sanitizeJSON unmarshal raw' ↔
      List.Forall₂ KeepsSame (exposed v) (exposed w) := by
  have hdetails {raw : List UInt8} {v : Json} (hv : unmarshal raw = some v) :
      sanitizeJSON unmarshal raw = sanitizeValue v := by
    have hne : raw ≠ [] := by
      rintro rfl
      rw [hempty] at hv
      cases hv
    rw [sanitizeJSON, if_neg hne, hv]
  rw [hdetails hv, hdetails hw, sanitizeValue_eq_iff, h.exposedAlike.2]

/-- A body with one field. -/
def bodyText (key value : String) : List UInt8 :=
  bytes ("\x7b\"" ++ key ++ "\":\"" ++ value ++ "\"\x7d")

/-- `json.Unmarshal` of two bodies with one field. -/
def readBody (key : String) (raw : List UInt8) : Option Json :=
  if raw = bodyText key "first" then some (.obj [(key, .str "first")])
  else if raw = bodyText key "other" then some (.obj [(key, .str "other")])
  else none

/-- Two bodies with another password leave the same details. -/
theorem password_hidden :
    sanitizeJSON (readBody "password") (bodyText "password" "first") =
      sanitizeJSON (readBody "password") (bodyText "password" "other") := by
  refine (@details_same_iff (readBody "password") (by decide +kernel) _ _
    (.obj [("password", .str "first")]) (.obj [("password", .str "other")]) (by decide +kernel)
    (by decide +kernel) ?_).2 ?_
  · simp [SameButSecrets, SameFields, secretFields]
  · simp [exposed, exposedFields, hiddenKeys]

/-- **Two bodies whose details tell the new password**: `ChangePassword` reads the field
`newPassword`. -/
theorem newPassword_in_details :
    ¬∀ (unmarshal : List UInt8 → Option Json) (raw raw' : List UInt8) (v w : Json),
      unmarshal [] = none → unmarshal raw = some v → unmarshal raw' = some w → SameButSecrets v w →
        sanitizeJSON unmarshal raw = sanitizeJSON unmarshal raw' := by
  intro h
  have hraw : bodyText "newPassword" "first" ≠ [] := by decide +kernel
  have hraw' : bodyText "newPassword" "other" ≠ [] := by decide +kernel
  have hfirst : readBody "newPassword" (bodyText "newPassword" "first") =
      some (.obj [("newPassword", .str "first")]) := by decide +kernel
  have hother : readBody "newPassword" (bodyText "newPassword" "other") =
      some (.obj [("newPassword", .str "other")]) := by decide +kernel
  have hsame := h (readBody "newPassword") _ _ _ _ (by decide +kernel) hfirst hother
    (by simp [SameButSecrets, SameFields, secretFields])
  rw [sanitizeJSON, sanitizeJSON, if_neg hraw, if_neg hraw', hfirst, hother] at hsame
  have hkeeps := (sanitizeValue_eq_iff _ _).1 hsame
  have hlength : ¬400 < byteLength "first" := by decide +kernel
  simp [KeepsSame, KeepsFields, KeepsText, hiddenKeys, hlength] at hkeeps

end OpenvpnControl.Audit
