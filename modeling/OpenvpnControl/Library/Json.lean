import OpenvpnControl.Library.GoMap
import OpenvpnControl.Library.GoStrings

/-!
# JSON values as Go and PostgreSQL see them

A JSON value decoded into Go's `any`, with the texts Go's `fmt.Sprint` and PostgreSQL's `->>` give
it. A number is the shortest decimal that reads back as the same `float64`; an object is its
fields in the order of their keys. A whole document whose keys are read and written is a map,
`GoMap Json`.

## Main definitions

* `JsonNumber`, `Json`: numbers and values.
* `Json.sprint`: `fmt.Sprint`.
* `Json.marshal`: `json.Marshal`.
* `Json.textOf`: the operator `->>`.
* `GoMap.get`: an entry of a decoded object.
-/

/-- The number `± mant · 10 ^ exp`, in the one way that leaves no trailing zero in `mant`. -/
structure JsonNumber where
  neg : Bool
  mant : ℕ
  exp : ℤ
  canonical : mant % 10 = 0 → mant = 0 ∧ exp = 0 ∧ neg = false
  deriving DecidableEq

namespace JsonNumber

/-- Is it zero? -/
def isZero (n : JsonNumber) : Bool := n.mant = 0

/-- Zero. -/
def zero : JsonNumber := ⟨false, 0, 0, by decide⟩

private def sign (n : JsonNumber) : String := if n.neg then "-" else ""

/-- The decimal expansion, without an exponent. -/
def plain (n : JsonNumber) : String :=
  let digits := (Nat.repr n.mant).toList
  let point := digits.length + n.exp
  n.sign ++
    if 0 ≤ n.exp then String.ofList (digits ++ List.replicate n.exp.toNat '0')
    else if 0 < point then
      String.ofList (digits.take point.toNat ++ '.' :: digits.drop point.toNat)
    else String.ofList ('0' :: '.' :: List.replicate (-point).toNat '0' ++ digits)

/-- The expansion with one digit before the point and an exponent of at least two digits. -/
def scientific (n : JsonNumber) : String :=
  let digits := (Nat.repr n.mant).toList
  let e := digits.length + n.exp - 1
  let frac := if digits.tail = [] then [] else '.' :: digits.tail
  let pad := if e.natAbs < 10 then "0" else ""
  n.sign ++ String.ofList (digits.take 1 ++ frac) ++ (if e < 0 then "e-" else "e+") ++ pad ++
    Nat.repr e.natAbs

/-- `fmt.Sprint` of a `float64`: the shortest `%g`, with an exponent below `-4` and from `6` on. -/
def sprint (n : JsonNumber) : String :=
  let e := (Nat.repr n.mant).length + n.exp - 1
  if n.mant ≠ 0 ∧ (e < -4 ∨ 6 ≤ e) then n.scientific else n.plain

/-- `json.Marshal` of a `float64`: with an exponent below `-6` and from `21` on. -/
def marshal (n : JsonNumber) : String :=
  let digits := (Nat.repr n.mant).toList
  let e := digits.length + n.exp - 1
  let frac := if digits.tail = [] then [] else '.' :: digits.tail
  if n.mant ≠ 0 ∧ (e < -6 ∨ 21 ≤ e) then
    n.sign ++ String.ofList (digits.take 1 ++ frac) ++ (if e < 0 then "e-" else "e+") ++
      Nat.repr e.natAbs
  else n.plain

end JsonNumber

/-- A JSON value. -/
inductive Json where
  | null
  | bool (b : Bool)
  | num (n : JsonNumber)
  | str (s : String)
  | arr (xs : List Json)
  | obj (fields : List (String × Json))

namespace Json

mutual

/-- Equality of values is decidable. -/
def decideEq : (a b : Json) → Decidable (a = b)
  | .null, .null => isTrue rfl
  | .bool a, .bool b =>
    if h : a = b then isTrue (h ▸ rfl) else isFalse fun e => h (Json.bool.inj e)
  | .num a, .num b =>
    if h : a = b then isTrue (h ▸ rfl) else isFalse fun e => h (Json.num.inj e)
  | .str a, .str b =>
    if h : a = b then isTrue (h ▸ rfl) else isFalse fun e => h (Json.str.inj e)
  | .arr a, .arr b =>
    match decideEqList a b with
    | isTrue h => isTrue (h ▸ rfl)
    | isFalse h => isFalse fun e => h (Json.arr.inj e)
  | .obj a, .obj b =>
    match decideEqFields a b with
    | isTrue h => isTrue (h ▸ rfl)
    | isFalse h => isFalse fun e => h (Json.obj.inj e)
  | .null, .bool _ | .null, .num _ | .null, .str _ | .null, .arr _ | .null, .obj _
  | .bool _, .null | .bool _, .num _ | .bool _, .str _ | .bool _, .arr _ | .bool _, .obj _
  | .num _, .null | .num _, .bool _ | .num _, .str _ | .num _, .arr _ | .num _, .obj _
  | .str _, .null | .str _, .bool _ | .str _, .num _ | .str _, .arr _ | .str _, .obj _
  | .arr _, .null | .arr _, .bool _ | .arr _, .num _ | .arr _, .str _ | .arr _, .obj _
  | .obj _, .null | .obj _, .bool _ | .obj _, .num _ | .obj _, .str _ | .obj _, .arr _ =>
    isFalse nofun

/-- Equality of lists of values is decidable. -/
def decideEqList : (a b : List Json) → Decidable (a = b)
  | [], [] => isTrue rfl
  | [], _ :: _ | _ :: _, [] => isFalse nofun
  | x :: xs, y :: ys =>
    match decideEq x y, decideEqList xs ys with
    | isTrue h, isTrue h' => isTrue (h ▸ h' ▸ rfl)
    | isFalse h, _ => isFalse fun e => h (List.cons.inj e).1
    | _, isFalse h => isFalse fun e => h (List.cons.inj e).2

/-- Equality of lists of fields is decidable. -/
def decideEqFields : (a b : List (String × Json)) → Decidable (a = b)
  | [], [] => isTrue rfl
  | [], _ :: _ | _ :: _, [] => isFalse nofun
  | (k, x) :: xs, (l, y) :: ys =>
    match instDecidableEqString k l, decideEq x y, decideEqFields xs ys with
    | isTrue hk, isTrue h, isTrue h' => isTrue (hk ▸ h ▸ h' ▸ rfl)
    | isFalse hk, _, _ => isFalse fun e => hk (Prod.mk.inj (List.cons.inj e).1).1
    | _, isFalse h, _ => isFalse fun e => h (Prod.mk.inj (List.cons.inj e).1).2
    | _, _, isFalse h => isFalse fun e => h (List.cons.inj e).2

end

instance : DecidableEq Json := decideEq

/-- **Induction** over the elements of lists and the values of objects. -/
theorem induction {P : Json → Prop} (hnull : P .null) (hbool : ∀ b, P (.bool b))
    (hnum : ∀ n, P (.num n)) (hstr : ∀ s, P (.str s)) (harr : ∀ xs, (∀ x ∈ xs, P x) → P (.arr xs))
    (hobj : ∀ fields, (∀ f ∈ fields, P f.2) → P (.obj fields)) : ∀ v, P v :=
  @Json.rec P (fun xs => ∀ x ∈ xs, P x) (fun fields => ∀ f ∈ fields, P f.2) (fun f => P f.2)
    hnull hbool hnum hstr harr hobj (fun _ h => absurd h List.not_mem_nil)
    (fun _ _ hx hxs => List.forall_mem_cons.2 ⟨hx, hxs⟩) (fun _ h => absurd h List.not_mem_nil)
    (fun _ _ hf hfields => List.forall_mem_cons.2 ⟨hf, hfields⟩) fun _ _ hv => hv

/-! ### Numbers and texts -/

mutual

/-- Rewrite the numbers and the texts of a value; the keys of an object stay as they are. -/
def mapLeaves (f : JsonNumber → JsonNumber) (g : String → String) : Json → Json
  | .null => .null
  | .bool b => .bool b
  | .num n => .num (f n)
  | .str s => .str (g s)
  | .arr xs => .arr (mapLeavesList f g xs)
  | .obj fields => .obj (mapLeavesFields f g fields)

/-- The elements of a list. -/
def mapLeavesList (f : JsonNumber → JsonNumber) (g : String → String) : List Json → List Json
  | [] => []
  | x :: xs => mapLeaves f g x :: mapLeavesList f g xs

/-- The fields of an object. -/
def mapLeavesFields (f : JsonNumber → JsonNumber) (g : String → String) :
    List (String × Json) → List (String × Json)
  | [] => []
  | (k, v) :: fields => (k, mapLeaves f g v) :: mapLeavesFields f g fields

end

mutual

/-- Do all numbers of a value pass a test? -/
def allNumbers (p : JsonNumber → Bool) : Json → Bool
  | .null => true
  | .bool _ => true
  | .num n => p n
  | .str _ => true
  | .arr xs => allNumbersList p xs
  | .obj fields => allNumbersFields p fields

/-- The elements of a list. -/
def allNumbersList (p : JsonNumber → Bool) : List Json → Bool
  | [] => true
  | x :: xs => allNumbers p x && allNumbersList p xs

/-- The fields of an object. -/
def allNumbersFields (p : JsonNumber → Bool) : List (String × Json) → Bool
  | [] => true
  | (_, v) :: fields => allNumbers p v && allNumbersFields p fields

end

section Leaves

variable (f f' : JsonNumber → JsonNumber) (g g' : String → String) (p : JsonNumber → Bool)

theorem mapLeavesList_eq_map (xs : List Json) : mapLeavesList f g xs = xs.map (mapLeaves f g) := by
  induction xs with
  | nil => rfl
  | cons x xs ih => rw [mapLeavesList, ih, List.map_cons]

theorem mapLeavesFields_eq_map (fields : List (String × Json)) :
    mapLeavesFields f g fields = fields.map fun e => (e.1, mapLeaves f g e.2) := by
  induction fields with
  | nil => rfl
  | cons e fields ih => rw [mapLeavesFields, ih, List.map_cons]

theorem allNumbersList_eq_all (xs : List Json) : allNumbersList p xs = xs.all (allNumbers p) := by
  induction xs with
  | nil => rfl
  | cons x xs ih => rw [allNumbersList, ih, List.all_cons]

theorem allNumbersFields_eq_all (fields : List (String × Json)) :
    allNumbersFields p fields = fields.all fun e => allNumbers p e.2 := by
  induction fields with
  | nil => rfl
  | cons e fields ih => rw [allNumbersFields, ih, List.all_cons]

/-- **Two rewritings are one.** -/
theorem mapLeaves_mapLeaves (v : Json) :
    mapLeaves f g (mapLeaves f' g' v) = mapLeaves (f ∘ f') (g ∘ g') v := by
  induction v using Json.induction with
  | hnull => rfl
  | hbool b => rfl
  | hnum n => rfl
  | hstr s => rfl
  | harr xs ih =>
    simp only [mapLeaves, mapLeavesList_eq_map, List.map_map]
    exact congrArg Json.arr (List.map_congr_left ih)
  | hobj fields ih =>
    simp only [mapLeaves, mapLeavesFields_eq_map, List.map_map]
    exact congrArg Json.obj (List.map_congr_left fun e he => congrArg (Prod.mk e.1) (ih e he))

theorem allNumbers_mapLeaves (v : Json) :
    allNumbers p (mapLeaves f g v) = allNumbers (p ∘ f) v := by
  induction v using Json.induction with
  | hnull => rfl
  | hbool b => rfl
  | hnum n => rfl
  | hstr s => rfl
  | harr xs ih =>
    simp only [mapLeaves, allNumbers, mapLeavesList_eq_map, allNumbersList_eq_all, List.all_map]
    rw [Bool.eq_iff_iff, List.all_eq_true, List.all_eq_true]
    exact forall₂_congr fun x hx => by rw [Function.comp_apply, ih x hx]
  | hobj fields ih =>
    simp only [mapLeaves, allNumbers, mapLeavesFields_eq_map, allNumbersFields_eq_all, List.all_map]
    rw [Bool.eq_iff_iff, List.all_eq_true, List.all_eq_true]
    exact forall₂_congr fun e he => by rw [Function.comp_apply, ih e he]

variable {f g}

/-- A rewriting of the numbers that cannot be seen after a rewriting of the texts changes
nothing. -/
theorem mapLeaves_eq_self {v : Json} (h : mapLeaves f g v = mapLeaves id g v) :
    mapLeaves f id v = v := by
  induction v using Json.induction with
  | hnull => rfl
  | hbool b => rfl
  | hnum n => exact h
  | hstr s => rfl
  | harr xs ih =>
    simp only [mapLeaves, mapLeavesList_eq_map, Json.arr.injEq] at h ⊢
    have hmap := List.map_congr_left (g := id) fun x hx => ih x hx (List.map_inj_left.1 h x hx)
    rw [hmap, List.map_id]
  | hobj fields ih =>
    simp only [mapLeaves, mapLeavesFields_eq_map, Json.obj.injEq] at h ⊢
    have hmap := List.map_congr_left (g := id) fun e he =>
      Prod.ext (rfl : (e.1, mapLeaves f id e.2).1 = e.1)
        (ih e he (Prod.mk.inj (List.map_inj_left.1 h e he)).2)
    rw [hmap, List.map_id]

end Leaves

/-! ### `fmt.Sprint` -/

mutual

/-- `fmt.Sprint` of a decoded value: the elements of a list in brackets, the fields of an object
after `map`, in the order of their keys. -/
def sprint : Json → String
  | .null => "<nil>"
  | .bool b => if b then "true" else "false"
  | .num n => n.sprint
  | .str s => s
  | .arr xs => "[" ++ sprintList xs ++ "]"
  | .obj fields => "map[" ++ sprintFields fields ++ "]"

/-- The elements of a list, separated by spaces. -/
def sprintList : List Json → String
  | [] => ""
  | [x] => sprint x
  | x :: y :: xs => sprint x ++ " " ++ sprintList (y :: xs)

/-- The fields of an object, separated by spaces. -/
def sprintFields : List (String × Json) → String
  | [] => ""
  | [(k, x)] => k ++ ":" ++ sprint x
  | (k, x) :: f :: fs => k ++ ":" ++ sprint x ++ " " ++ sprintFields (f :: fs)

end

@[simp] theorem sprint_str (s : String) : sprint (.str s) = s := by
  rw [sprint]

/-! ### The operator `->>` -/

private def hexDigit (n : ℕ) : Char := if n < 10 then Char.ofNat (48 + n) else Char.ofNat (87 + n)

/-- A character inside a JSON string, escaped as PostgreSQL does. -/
def escapeChar (c : Char) : List Char :=
  if c = '"' then ['\\', '"']
  else if c = '\\' then ['\\', '\\']
  else if c.toNat = 8 then ['\\', 'b']
  else if c.toNat = 12 then ['\\', 'f']
  else if c = '\n' then ['\\', 'n']
  else if c = '\r' then ['\\', 'r']
  else if c = '\t' then ['\\', 't']
  else if c.toNat < 32 then ['\\', 'u', '0', '0', hexDigit (c.toNat / 16), hexDigit (c.toNat % 16)]
  else [c]

/-- A JSON string literal. -/
def quote (s : String) : String :=
  "\"" ++ String.ofList (s.toList.flatMap escapeChar) ++ "\""

mutual

/-- The text of a `jsonb` value. -/
def jsonbText : Json → String
  | .null => "null"
  | .bool b => if b then "true" else "false"
  | .num n => n.plain
  | .str s => quote s
  | .arr xs => "[" ++ jsonbTextList xs ++ "]"
  | .obj fields => "\x7b" ++ jsonbTextFields fields ++ "\x7d"

/-- The elements of a list. -/
def jsonbTextList : List Json → String
  | [] => ""
  | [x] => jsonbText x
  | x :: y :: xs => jsonbText x ++ ", " ++ jsonbTextList (y :: xs)

/-- The fields of an object. -/
def jsonbTextFields : List (String × Json) → String
  | [] => ""
  | [(k, x)] => quote k ++ ": " ++ jsonbText x
  | (k, x) :: f :: fs => quote k ++ ": " ++ jsonbText x ++ ", " ++ jsonbTextFields (f :: fs)

end

/-- A text without control characters. -/
def Printable (s : String) : Prop := ∀ c ∈ s.toList, 32 ≤ c.toNat

instance (s : String) : Decidable (Printable s) :=
  inferInstanceAs (Decidable (∀ c ∈ s.toList, 32 ≤ c.toNat))

theorem Printable.append {s t : String} (hs : Printable s) (ht : Printable t) :
    Printable (s ++ t) := by
  intro c hc
  rw [String.toList_append, List.mem_append] at hc
  exact hc.elim (hs c) (ht c)

theorem printable_ofList {l : List Char} (h : ∀ c ∈ l, 32 ≤ c.toNat) :
    Printable (String.ofList l) := by
  rwa [Printable, String.toList_ofList]

/-- A text of the characters of numbers. -/
def Numeral (s : String) : Prop := ∀ c ∈ s.toList, c.isDigit = true ∨ c ∈ ['-', '+', '.', 'e']

instance (s : String) : Decidable (Numeral s) :=
  inferInstanceAs (Decidable (∀ c ∈ s.toList, c.isDigit = true ∨ c ∈ ['-', '+', '.', 'e']))

theorem Numeral.append {s t : String} (hs : Numeral s) (ht : Numeral t) : Numeral (s ++ t) := by
  intro c hc
  rw [String.toList_append, List.mem_append] at hc
  exact hc.elim (hs c) (ht c)

theorem Numeral.printable {s : String} (h : Numeral s) : Printable s := by
  intro c hc
  rcases h c hc with hdigit | hsymbol
  · rw [Char.isDigit, Bool.and_eq_true, decide_eq_true_eq] at hdigit
    exact le_trans (by decide) hdigit.1
  · have hall : ∀ d ∈ ['-', '+', '.', 'e'], 32 ≤ d.toNat := by decide
    exact hall c hsymbol

private theorem Numeral.ite {p : Prop} [Decidable p] {s t : String} (hs : Numeral s)
    (ht : Numeral t) :
    Numeral (if p then s else t) := by
  split_ifs
  · exact hs
  · exact ht

theorem numeral_repr (n : ℕ) : Numeral (Nat.repr n) := by
  intro c hc
  rw [Nat.toList_repr] at hc
  exact Or.inl (Nat.isDigit_of_mem_toDigits (by decide) (by decide) hc)

/-- The text of an integer. -/
theorem printable_toString (i : ℤ) : Printable (toString i) := by
  cases i with
  | ofNat n => exact (numeral_repr n).printable
  | negSucc n => exact Printable.append (by decide : Printable "-") (numeral_repr (n + 1)).printable

private theorem numeral_ofList {l : List Char}
    (h : ∀ c ∈ l, c.isDigit = true ∨ c ∈ ['-', '+', '.', 'e']) : Numeral (String.ofList l) := by
  rwa [Numeral, String.toList_ofList]

private theorem numeral_sign (n : JsonNumber) : Numeral n.sign := by
  rw [JsonNumber.sign]
  exact .ite (by decide) (by decide)

theorem numeral_plain (n : JsonNumber) : Numeral n.plain := by
  have hdigits := numeral_repr n.mant
  rw [JsonNumber.plain]
  refine (numeral_sign n).append ?_
  split_ifs
  all_goals
    refine numeral_ofList fun c hc => ?_
    simp only [List.mem_append, List.mem_cons, List.mem_replicate] at hc
  · rcases hc with hc | ⟨-, rfl⟩
    · exact hdigits c hc
    · decide
  · rcases hc with hc | rfl | hc
    · exact hdigits c (List.mem_of_mem_take hc)
    · decide
    · exact hdigits c (List.mem_of_mem_drop hc)
  · rcases hc with (rfl | rfl | ⟨-, rfl⟩) | hc
    · decide
    · decide
    · decide
    · exact hdigits c hc

/-- The digits of a number with a point after the first. -/
private theorem numeral_pointed (n : JsonNumber) :
    Numeral (String.ofList ((Nat.repr n.mant).toList.take 1 ++
      if (Nat.repr n.mant).toList.tail = [] then []
      else '.' :: (Nat.repr n.mant).toList.tail)) := by
  have hdigits := numeral_repr n.mant
  refine numeral_ofList fun c hc => ?_
  rcases List.mem_append.1 hc with hc | hc
  · exact hdigits c (List.mem_of_mem_take hc)
  · split_ifs at hc
    · cases hc
    · rcases List.mem_cons.1 hc with rfl | hc
      · decide
      · exact hdigits c (List.mem_of_mem_tail hc)

/-- The text of a number. -/
theorem numeral_sprint (n : JsonNumber) : Numeral n.sprint := by
  rw [JsonNumber.sprint]
  refine .ite ?_ (numeral_plain n)
  rw [JsonNumber.scientific]
  exact ((((numeral_sign n).append (numeral_pointed n)).append
    (.ite (by decide) (by decide))).append (.ite (by decide) (by decide))).append (numeral_repr _)

theorem printable_sprint (n : JsonNumber) : Printable n.sprint := (numeral_sprint n).printable

/-- The JSON text of a number. -/
theorem numeral_marshal (n : JsonNumber) : Numeral n.marshal := by
  rw [JsonNumber.marshal]
  exact .ite ((((numeral_sign n).append (numeral_pointed n)).append
    (.ite (by decide) (by decide))).append (numeral_repr _)) (numeral_plain n)

private theorem append_ne_empty {s t : String} (h : t ≠ "") : s ++ t ≠ "" := by
  rw [ne_eq, String.append_eq_empty_iff]
  exact fun h' => h h'.2

private theorem ite_ne_empty {p : Prop} [Decidable p] {s t : String} (hs : s ≠ "") (ht : t ≠ "") :
    (if p then s else t) ≠ "" := by
  split_ifs
  · exact hs
  · exact ht

private theorem plain_ne_empty (n : JsonNumber) : n.plain ≠ "" := by
  have hlist {l : List Char} (h : l ≠ []) : String.ofList l ≠ "" := mt GoStrings.ofList_eq_empty.1 h
  rw [JsonNumber.plain]
  refine append_ne_empty (ite_ne_empty (hlist ?_) (ite_ne_empty (hlist ?_) (hlist ?_))) <;> simp

theorem sprint_ne_empty (n : JsonNumber) : n.sprint ≠ "" := by
  rw [JsonNumber.sprint]
  refine ite_ne_empty ?_ (plain_ne_empty n)
  rw [JsonNumber.scientific]
  exact append_ne_empty Nat.repr_ne_empty

theorem marshal_ne_empty (n : JsonNumber) : n.marshal ≠ "" := by
  rw [JsonNumber.marshal]
  exact ite_ne_empty (append_ne_empty Nat.repr_ne_empty) (plain_ne_empty n)

private theorem le_hexDigit : ∀ n < 16, 32 ≤ (hexDigit n).toNat := by decide

theorem le_of_mem_escapeChar {c d : Char} (h : d ∈ escapeChar c) : 32 ≤ d.toNat := by
  rw [escapeChar] at h
  split_ifs at h with _ _ _ _ _ _ _ hlow
  rotate_left 7
  · simp only [List.mem_cons, List.not_mem_nil, or_false] at h
    rcases h with rfl | rfl | rfl | rfl | rfl | rfl
    · decide
    · decide
    · decide
    · decide
    · exact le_hexDigit _ (by omega)
    · exact le_hexDigit _ (by omega)
  · rw [List.mem_singleton.1 h]
    omega
  all_goals
    revert d
    decide

theorem printable_quote (s : String) : Printable (quote s) := by
  refine Printable.append (Printable.append (by decide) (printable_ofList fun c hc => ?_))
    (by decide)
  obtain ⟨d, -, hd⟩ := List.mem_flatMap.1 hc
  exact le_of_mem_escapeChar hd

private theorem printable_jsonbTextList :
    ∀ xs : List Json, (∀ x ∈ xs, Printable (jsonbText x)) → Printable (jsonbTextList xs)
  | [], _ => fun c hc => absurd hc List.not_mem_nil
  | [x], h => h x List.mem_cons_self
  | x :: y :: xs, h => by
    obtain ⟨hx, hxs⟩ := List.forall_mem_cons.1 h
    rw [jsonbTextList]
    exact (hx.append (by decide)).append (printable_jsonbTextList (y :: xs) hxs)

private theorem printable_jsonbTextFields :
    ∀ fields : List (String × Json), (∀ e ∈ fields, Printable (jsonbText e.2)) →
      Printable (jsonbTextFields fields)
  | [], _ => fun c hc => absurd hc List.not_mem_nil
  | [(k, x)], h => ((printable_quote k).append (by decide)).append (h (k, x) List.mem_cons_self)
  | (k, x) :: f :: fs, h => by
    obtain ⟨hx, hfs⟩ := List.forall_mem_cons.1 h
    rw [jsonbTextFields]
    exact ((((printable_quote k).append (by decide)).append hx).append
      (by decide)).append (printable_jsonbTextFields (f :: fs) hfs)

/-- **The text of a `jsonb` value has no control characters.** -/
theorem printable_jsonbText (v : Json) : Printable v.jsonbText := by
  induction v using Json.induction with
  | hnull => decide
  | hbool b => cases b <;> decide
  | hnum n => exact (numeral_plain n).printable
  | hstr s => exact printable_quote s
  | harr xs ih =>
    exact ((by decide : Printable "[").append (printable_jsonbTextList xs ih)).append
      (by decide)
  | hobj fields ih =>
    exact ((by decide : Printable "\x7b").append
      (printable_jsonbTextFields fields ih)).append (by decide)

/-! ### `json.Marshal` -/

/-- A character inside a JSON string, escaped as Go does. -/
def marshalChar (c : Char) : List Char :=
  if c = '<' ∨ c = '>' ∨ c = '&' then
    ['\\', 'u', '0', '0', hexDigit (c.toNat / 16), hexDigit (c.toNat % 16)]
  else if c.toNat = 0x2028 then ['\\', 'u', '2', '0', '2', '8']
  else if c.toNat = 0x2029 then ['\\', 'u', '2', '0', '2', '9']
  else escapeChar c

/-- A JSON string literal as Go writes it. -/
def marshalString (s : String) : String :=
  "\"" ++ String.ofList (s.toList.flatMap marshalChar) ++ "\""

mutual

/-- `json.Marshal` of a decoded value. -/
def marshal : Json → String
  | .null => "null"
  | .bool b => if b then "true" else "false"
  | .num n => n.marshal
  | .str s => marshalString s
  | .arr xs => "[" ++ marshalList xs ++ "]"
  | .obj fields => "\x7b" ++ marshalFields fields ++ "\x7d"

/-- The elements of a list. -/
def marshalList : List Json → String
  | [] => ""
  | [x] => marshal x
  | x :: y :: xs => marshal x ++ "," ++ marshalList (y :: xs)

/-- The fields of an object. -/
def marshalFields : List (String × Json) → String
  | [] => ""
  | [(k, x)] => marshalString k ++ ":" ++ marshal x
  | (k, x) :: f :: fs => marshalString k ++ ":" ++ marshal x ++ "," ++ marshalFields (f :: fs)

end

/-- The operator `->>`: a string as it is, SQL `NULL` for `null`, any other value as its text. -/
def textOf : Json → Option String
  | .null => none
  | .str s => some s
  | v => some (jsonbText v)

/-- Is the value `null`? -/
def isNull : Json → Bool
  | .null => true
  | _ => false

/-- A Go type assertion to `string` whose failure gives `""`. -/
def asString : Json → String
  | .str s => s
  | _ => ""

/-- A Go map lookup in a decoded object, where an absent key reads as `nil`. -/
def field (fields : List (String × Json)) (k : String) : Json :=
  (fields.lookup k).getD .null

@[simp] theorem asString_str (s : String) : asString (.str s) = s := rfl

@[simp] theorem asString_null : asString .null = "" := rfl

end Json

/-- `m[k]` in Go, where an absent key reads as `nil`. -/
def GoMap.get (m : GoMap Json) (k : String) : Json := (m.lookup k).getD .null

/-! ### Slices -/

/-- Go's `[]ν`, where the nil slice and the empty slice have different JSON texts. -/
inductive GoSlice (ν : Type) where
  | nil
  | of (xs : List ν)
  deriving DecidableEq, Repr

namespace GoSlice

variable {ν : Type}

/-- The elements of a slice; the nil slice has none. -/
def elems : GoSlice ν → List ν
  | nil => []
  | of xs => xs

/-- The slice that a loop of `append` leaves of the nil slice. -/
def appended : List ν → GoSlice ν
  | [] => nil
  | x :: xs => of (x :: xs)

@[simp] theorem elems_of (xs : List ν) : (of xs).elems = xs := rfl

@[simp] theorem elems_nil : (nil : GoSlice ν).elems = [] := rfl

@[simp] theorem elems_appended (xs : List ν) : (appended xs).elems = xs := by
  cases xs <;> rfl

/-- The JSON of a slice. -/
def toJson (enc : ν → Json) : GoSlice ν → Json
  | nil => .null
  | of xs => .arr (xs.map enc)

end GoSlice

namespace Json

/-- A Go type assertion to `map[string]any` whose failure gives the nil map. -/
def asFields : Json → List (String × Json)
  | .obj fields => fields
  | _ => []

/-- Is the value an object? -/
def isObj : Json → Bool
  | .obj _ => true
  | _ => false

theorem isObj_eq_true {v : Json} : v.isObj = true ↔ ∃ fields, v = .obj fields := by
  constructor
  · intro h
    cases v with
    | obj fields => exact ⟨fields, rfl⟩
    | _ => cases h
  · rintro ⟨fields, rfl⟩
    rfl

theorem asFields_of_not_isObj {v : Json} (h : v.isObj = false) : v.asFields = [] := by
  cases v with
  | obj fields => cases h
  | _ => rfl

/-- A Go type assertion to `[]any`. -/
def asSlice : Json → GoSlice Json
  | .arr xs => .of xs
  | _ => .nil

@[simp] theorem asSlice_toJson (s : GoSlice Json) : (s.toJson id).asSlice = s := by
  cases s with
  | nil => rfl
  | of xs => simp [GoSlice.toJson, asSlice]

end Json
