import OpenvpnControl.Library.GoStrings

/-!
# The text of an `INSERT` statement

PostgreSQL reads the text of a statement as tokens. In a quoted identifier every character stands
for itself, except that two quotes stand for one; other letters are keywords. This file reads texts
and puts together texts that are read back.

## Main definitions

* `Token`, `tokens`: the tokens of a text.
* `Insert`, `readInsert`: a text that is one `INSERT` of placeholders.
* `quoted`, `listed`, `insertText`: a quoted identifier, a list and a statement.

## Main results

* `scan_quoted`: a quoted identifier is read as its name, whatever characters the name has.
* `readInsert_insertText`: the statement is read as it was put together.
-/

namespace OpenvpnControl.Sql

/-- A token: an unquoted word in lower case, a quoted identifier, a placeholder, punctuation or
another character. -/
inductive Token where
  | word (w : String)
  | ident (name : String)
  | param (n : ℕ)
  | comma
  | opening
  | closing
  | other (c : Char)
  deriving DecidableEq, Repr

/-- What the characters read last may go on as. `quote` follows a quote within a quoted identifier,
which is doubled or ends it. -/
inductive Mode where
  | start
  | word (w : List Char)
  | quoted (name : List Char)
  | quote (name : List Char)
  | dollar
  | param (n : ℕ)
  deriving DecidableEq, Repr

def isSpace (c : Char) : Bool :=
  c = ' ' || c = '\t' || c = '\n' || c = '\r' || c.toNat = 11 || c.toNat = 12

def isWordStart (c : Char) : Bool := c.isAlpha || c = '_' || 128 ≤ c.toNat

def isWordPart (c : Char) : Bool := isWordStart c || c.isDigit || c = '$'

/-- The value of a digit. -/
def digit (c : Char) : ℕ := c.toNat - '0'.toNat

/-- A character that begins a token. -/
def first (c : Char) : List Token × Mode :=
  if c = '"' then ([], .quoted [])
  else if c = ',' then ([.comma], .start)
  else if c = '(' then ([.opening], .start)
  else if c = ')' then ([.closing], .start)
  else if c = '$' then ([], .dollar)
  else if isSpace c then ([], .start)
  else if isWordStart c then ([], .word [c.toLower])
  else ([.other c], .start)

/-- A character that ends the token before it. -/
def after (t : Token) (c : Char) : List Token × Mode := (t :: (first c).1, (first c).2)

def step : Mode → Char → List Token × Mode
  | .start, c => first c
  | .word w, c =>
    if isWordPart c then ([], .word (w ++ [c.toLower])) else after (.word (String.ofList w)) c
  | .quoted name, c => if c = '"' then ([], .quote name) else ([], .quoted (name ++ [c]))
  | .quote name, c => if c = '"' then ([], .quoted (name ++ [c]))
    else after (.ident (String.ofList name)) c
  | .dollar, c => if c.isDigit then ([], .param (digit c)) else after (.other '$') c
  | .param n, c => if c.isDigit then ([], .param (10 * n + digit c)) else after (.param n) c

def scan : Mode → List Char → List Token × Mode
  | m, [] => ([], m)
  | m, c :: l => ((step m c).1 ++ (scan (step m c).2 l).1, (scan (step m c).2 l).2)

/-- The token at the end of a text; a quoted identifier has to be closed. -/
def finish : Mode → Option (List Token)
  | .start => some []
  | .word w => some [.word (String.ofList w)]
  | .quoted _ => none
  | .quote name => some [.ident (String.ofList name)]
  | .dollar => some [.other '$']
  | .param n => some [.param n]

/-- The tokens of a text. -/
def tokens (s : String) : Option (List Token) :=
  (finish (scan .start s.toList).2).map ((scan .start s.toList).1 ++ ·)

/-! ### Statements -/

/-- An `INSERT` of one row of placeholders. -/
structure Insert where
  table : String
  columns : List String
  values : List ℕ
  deriving DecidableEq, Repr

/-- The items after the first one, to the closing parenthesis. -/
def readMore {α : Type} (item : Token → Option α) : List Token → Option (List α × List Token)
  | .closing :: rest => some ([], rest)
  | .comma :: t :: rest =>
    match item t, readMore item rest with
    | some a, some (as, rest) => some (a :: as, rest)
    | _, _ => none
  | _ => none

/-- A list in parentheses, which may be empty. -/
def readList {α : Type} (item : Token → Option α) : List Token → Option (List α × List Token)
  | .opening :: .closing :: rest => some ([], rest)
  | .opening :: t :: rest =>
    match item t, readMore item rest with
    | some a, some (as, rest) => some (a :: as, rest)
    | _, _ => none
  | _ => none

def Token.asIdent : Token → Option String
  | .ident name => some name
  | _ => none

def Token.asParam : Token → Option ℕ
  | .param n => some n
  | _ => none

/-- The tokens of one `INSERT` and nothing else. -/
def parseInsert : List Token → Option Insert
  | .word insert :: .word into :: .ident table :: rest =>
    match readList Token.asIdent rest with
    | some (columns, .word values :: rest) =>
      match readList Token.asParam rest with
      | some (params, []) =>
        if insert = "insert" ∧ into = "into" ∧ values = "values" then some ⟨table, columns, params⟩
        else none
      | _ => none
    | _ => none
  | _ => none

def readInsert (s : String) : Option Insert := (tokens s).bind parseInsert

/-! ### Writing -/

/-- A quoted identifier: the quotes of the name are doubled. -/
def quoted (name : String) : String := "\"" ++ GoStrings.replaceChar '"' ['"', '"'] name ++ "\""

/-- A placeholder. -/
def param (n : ℕ) : String := "$" ++ Nat.repr n

/-- The items of a list, with commas between them. -/
def listed (items : List String) : String := ", ".intercalate items

/-- The text of a statement. -/
def insertText (st : Insert) : String :=
  "INSERT INTO " ++ quoted st.table ++ " (" ++ listed (st.columns.map quoted) ++ ") VALUES (" ++
    listed (st.values.map param) ++ ")"

/-! ### Reading what is written -/

theorem scan_append (m : Mode) (l l' : List Char) :
    scan m (l ++ l') = ((scan m l).1 ++ (scan (scan m l).2 l').1, (scan (scan m l).2 l').2) := by
  induction l generalizing m with
  | nil => rfl
  | cons c l ih => simp only [List.cons_append, scan, ih, List.append_assoc]

/-- Within a quoted identifier a doubled quote is a quote of the name. -/
theorem scan_quoted (name l : List Char) :
    scan (.quoted name) (GoStrings.replaceList '"' ['"', '"'] l) = ([], .quoted (name ++ l)) := by
  induction l generalizing name with
  | nil => rw [List.append_nil]; rfl
  | cons c l ih =>
    rw [GoStrings.replaceList, List.flatMap_cons, ← GoStrings.replaceList]
    by_cases hc : c = '"'
    · rw [if_pos hc, scan_append]
      have htwo : scan (.quoted name) ['"', '"'] = ([], .quoted (name ++ ['"'])) := rfl
      rw [htwo, ih, hc, List.append_assoc, List.singleton_append, List.nil_append]
    · rw [if_neg hc, List.singleton_append, scan]
      have hone : step (.quoted name) c = ([], .quoted (name ++ [c])) := by rw [step, if_neg hc]
      rw [hone, ih, List.append_assoc, List.singleton_append, List.nil_append]

/-- The text of an item is read as a token, which the next character ends. -/
def Writes (text : String) (t : Token) : Prop :=
  ∀ c, c = ' ' ∨ c = ',' ∨ c = ')' → scan .start (text.toList ++ [c]) = after t c

/-- **A quoted identifier** is read as its name. -/
theorem writes_quoted (name : String) : Writes (quoted name) (.ident name) := by
  intro c hc
  have hlist : (quoted name).toList ++ [c] =
      '"' :: (GoStrings.replaceList '"' ['"', '"'] name.toList ++ ['"', c]) := by
    simp [quoted, GoStrings.replaceChar]
  have hopen : scan .start ('"' :: (GoStrings.replaceList '"' ['"', '"'] name.toList ++ ['"', c])) =
      scan (.quoted []) (GoStrings.replaceList '"' ['"', '"'] name.toList ++ ['"', c]) := rfl
  have hclose : scan (.quoted name.toList) ['"', c] = after (.ident name) c := by
    have hne : c ≠ '"' := by
      rintro rfl
      obtain h | h | h := hc <;> exact absurd h (by decide)
    simp only [scan, step, if_true, if_neg hne, String.ofList_toList,
      List.nil_append, List.append_nil]
  rw [hlist, hopen, scan_append, scan_quoted, List.nil_append, List.nil_append, hclose]

theorem scan_param {l : List Char} (hl : ∀ c ∈ l, c.isDigit = true) (n : ℕ) :
    scan (.param n) l = ([], .param (Nat.ofDigitChars 10 l n)) := by
  induction l generalizing n with
  | nil => rfl
  | cons c l ih =>
    rw [List.forall_mem_cons] at hl
    rw [scan, step, if_pos hl.1, ih hl.2, Nat.ofDigitChars_cons]
    rfl

/-- **A placeholder** is read as its number. -/
theorem writes_param (n : ℕ) : Writes (param n) (.param n) := by
  intro c hc
  have hdigits : ∀ d ∈ Nat.toDigits 10 n, d.isDigit = true := fun d hd =>
    Nat.isDigit_of_mem_toDigits (by decide) (by decide) hd
  have hlist : (param n).toList ++ [c] = '$' :: (Nat.toDigits 10 n ++ [c]) := by
    simp [param, Nat.toList_repr]
  have hvalue := @Nat.ofDigitChars_ten_toDigits n
  have hnil := @Nat.toDigits_ne_nil n 10
  rw [hlist]
  generalize Nat.toDigits 10 n = ds at hdigits hvalue hnil
  cases ds with
  | nil => exact absurd rfl hnil
  | cons d ds =>
    rw [List.forall_mem_cons] at hdigits
    have hdollar : scan .start ('$' :: (d :: ds ++ [c])) = scan (.param (digit d)) (ds ++ [c]) := by
      have hd : step .dollar d = ([], .param (digit d)) := by rw [step, if_pos hdigits.1]
      rw [scan, List.cons_append, scan]
      have hfirst : step .start '$' = ([], .dollar) := rfl
      rw [hfirst, hd]
      rfl
    have hd : Nat.ofDigitChars 10 ds (digit d) = n := by
      rw [Nat.ofDigitChars_cons, Nat.mul_zero, Nat.zero_add] at hvalue
      exact hvalue
    have hend : step (.param n) c = after (.param n) c := by
      rw [step, if_neg]
      obtain rfl | rfl | rfl := hc <;> decide
    rw [hdollar, scan_append, scan_param hdigits.2, hd]
    simp only [scan, hend, List.nil_append, List.append_nil]

/-- The text is read as tokens that are all complete. -/
def Scans (l : List Char) (ts : List Token) : Prop := scan .start l = (ts, .start)

theorem Scans.append {l l' : List Char} {ts ts' : List Token} (h : Scans l ts) (h' : Scans l' ts') :
    Scans (l ++ l') (ts ++ ts') := by
  rw [Scans, scan_append, h, h']

theorem Writes.scans {text : String} {t : Token} (h : Writes text t) :
    Scans (text.toList ++ [' ']) [t] ∧ Scans (text.toList ++ [',']) [t, .comma] ∧
      Scans (text.toList ++ [')']) [t, .closing] :=
  ⟨h ' ' (Or.inl rfl), h ',' (Or.inr (Or.inl rfl)), h ')' (Or.inr (Or.inr rfl))⟩

/-- The tokens after the first item of a list. -/
def moreTokens (ts : List Token) : List Token := (ts.flatMap fun t => [.comma, t]) ++ [.closing]

/-- The tokens of a list up to its closing parenthesis. -/
def listTokens : List Token → List Token
  | [] => [.closing]
  | t :: ts => t :: moreTokens ts

section Lists

variable {α : Type} {text : α → String} {token : α → Token} {item : Token → Option α}

/-- A list is read as its items. -/
theorem scans_listed (h : ∀ a, Writes (text a) (token a)) (as : List α) :
    Scans ((listed (as.map text)).toList ++ [')']) (listTokens (as.map token)) := by
  match as with
  | [] => rfl
  | a :: as =>
    induction as generalizing a with
    | nil =>
      rw [List.map_singleton, listed, String.intercalate_singleton]
      exact (h a).scans.2.2
    | cons b bs ih =>
      have hlist : (listed ((a :: b :: bs).map text)).toList ++ [')'] =
          ((text a).toList ++ [',']) ++
          ([' '] ++ ((listed ((b :: bs).map text)).toList ++ [')'])) := by
        simp [listed, String.intercalate_cons_of_ne_nil]
      have hspace : Scans [' '] [] := rfl
      rw [hlist]
      exact (h a).scans.2.1.append (hspace.append (ih b))

theorem readMore_moreTokens (h : ∀ a, item (token a) = some a) (as : List α) (rest : List Token) :
    readMore item (moreTokens (as.map token) ++ rest) = some (as, rest) := by
  induction as with
  | nil => rfl
  | cons a as ih =>
    have hlist : moreTokens ((a :: as).map token) ++ rest =
        .comma :: token a :: (moreTokens (as.map token) ++ rest) := by
      simp [moreTokens]
    rw [hlist, readMore, h a, ih]

/-- The items of a list are read back. -/
theorem readList_listTokens (h : ∀ a, item (token a) = some a) (hclosing : item .closing = none)
    (as : List α) (rest : List Token) :
    readList item (.opening :: (listTokens (as.map token) ++ rest)) = some (as, rest) := by
  cases as with
  | nil => rfl
  | cons a as =>
    have hne : token a ≠ .closing := fun heq => by
      have ha := h a
      rw [heq, hclosing] at ha
      cases ha
    rw [List.map_cons, listTokens, List.cons_append, readList, h a, readMore_moreTokens h]
    exact hne

end Lists

/-- **A statement** is read as it was put together. -/
theorem readInsert_insertText (st : Insert) : readInsert (insertText st) = some st := by
  have hlist : (insertText st).toList =
      "INSERT INTO ".toList ++ (((quoted st.table).toList ++ [' ']) ++ (['('] ++
        (((listed (st.columns.map quoted)).toList ++ [')']) ++ (" VALUES (".toList ++
          ((listed (st.values.map param)).toList ++ [')']))))) := by
    have hopen : " (".toList = [' '] ++ ['('] := by decide
    have hvalues : ") VALUES (".toList = [')'] ++ " VALUES (".toList := by decide
    have hclose : ")".toList = [')'] := by decide
    unfold insertText
    simp only [String.toList_append, hopen, hvalues, hclose, List.append_assoc]
  have hinsert : Scans "INSERT INTO ".toList [.word "insert", .word "into"] := by
    rw [Scans]
    decide
  have hopening : Scans ['('] [.opening] := rfl
  have hvalues : Scans " VALUES (".toList [.word "values", .opening] := by
    rw [Scans]
    decide
  have htokens := hinsert.append ((writes_quoted st.table).scans.1.append (hopening.append
    ((scans_listed writes_quoted st.columns).append (hvalues.append
      (scans_listed writes_param st.values)))))
  rw [← hlist, Scans] at htokens
  have hcolumns := @readList_listTokens _ Token.ident Token.asIdent (fun _ => rfl) rfl st.columns
  have hparams := @readList_listTokens _ Token.param Token.asParam (fun _ => rfl) rfl st.values []
  rw [List.append_nil] at hparams
  simp only [readInsert, tokens, htokens, finish, Option.map_some,
    Option.bind_some, List.append_nil, List.cons_append, List.nil_append, parseInsert, hcolumns,
    hparams, and_self, if_true]

end OpenvpnControl.Sql
