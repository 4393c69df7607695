import OpenvpnControl.Auth.Handler
import OpenvpnControl.Handlers.Requests

/-!
# Changing an admin

`Patch` of `handlers/admins_ext.go`, one database statement at a time: the fields of the body that
are there are checked one after the other, the names in a statement each, and are written in one
`UPDATE`.

The checks and the write are separate statements, so another request may write between them; the
handler is therefore a program of statements, and the files on sessions and passwords run it beside
others.

## Main definitions

* `emailRx`, `normalizeAdminEmail`: what an address must look like.
* `patchAdmin`: the handler.
-/

namespace OpenvpnControl.Handlers

open Auth (World Admin Handler Label Crypto Response)

/-! ### Addresses -/

/-- `\s` in a regular expression. -/
def regexpSpace (c : Char) : Bool :=
  c = '\t' || c = '\n' || c.toNat = 12 || c = '\r' || c = ' '

/-- The regular expression `emailRx`: no white space, one `@` that is not the first character, and
after it a dot that is neither the first character nor the last. -/
def emailRx (email : String) : Bool :=
  let l := email.toList
  let domain := (l.dropWhile (· ≠ '@')).drop 1
  l.all (fun c => !regexpSpace c) && l.head? ≠ some '@' && l.contains '@' && !domain.contains '@' &&
    (domain.drop 1).dropLast.contains '.'

def normalizeAdminEmail (email : String) : String :=
  GoStrings.toLower (GoStrings.trimSpace email)

/-! ### The fields of a body -/

/-- What one field of a body sets: an answer that ends the request, or a change of the row, if
any. -/
abbrev Setter : Type := Except Response (Option (Admin → Admin))

/-- `isActive`. -/
def setIsActive (body : Fields) : Option (Admin → Admin) :=
  match Json.field body "isActive" with
  | .bool b => some fun a => { a with isActive := b }
  | _ => none

/-- `password`: a blank one is ignored, and a new one ends every invitation and every reset. -/
def setPassword (crypto : Crypto) (salt : String) (body : Fields) : Setter :=
  let pw := textField body "password"
  if pw = "" then .ok none
  else match crypto.generateFromPassword salt pw with
    | none => .error (.error 500 "hash error")
    | some hash => .ok <| some fun a =>
      { a with passwordHash := hash, inviteToken := none, inviteExpiresAt := none,
               passwordResetToken := none, passwordResetExpiresAt := none }

/-- `fullName`. -/
def setFullName (body : Fields) : Setter :=
  let fn := textField body "fullName"
  if hasField body "fullName" = false then .ok none
  else if fn = "" then .error (.error 400 "ФИО обязательно")
  else .ok <| some fun a => { a with fullName := fn }

/-- `username`, with the look-up of the name. -/
def setUsername (adminID : String) (body : Fields) : Handler Setter :=
  let u := textField body "username"
  if hasField body "username" = false then pure (.ok none)
  else if u = "" then pure (.error (.error 400 "Аккаунт (логин) обязателен"))
  else do
    let other ← Request.read (fun w => .selected (w.adminNamed u)) fun w => w.adminNamed u
    if other.any (fun a => a.id ≠ adminID) then
      pure (.error (.error 409 "Администратор с таким аккаунтом уже есть"))
    else pure (.ok (some fun a => { a with username := u }))

/-- `email`, with the look-up of the address. -/
def setEmail (adminID : String) (body : Fields) : Handler Setter :=
  let emailRaw := normalizeAdminEmail (strAny (Json.field body "email"))
  if hasField body "email" = false then pure (.ok none)
  else if emailRaw = "" then pure (.error (.error 400 "Электронная почта обязательна"))
  else if emailRx emailRaw = false then
    pure (.error (.error 400 "Некорректный адрес электронной почты"))
  else do
    let other (w : World) : Option Admin :=
      w.admins.find? fun a => a.email = some emailRaw ∧ a.id ≠ adminID
    let found ← Request.read (fun w => .selected (other w)) other
    if found.isSome then pure (.error (.error 409 "Администратор с такой почтой уже есть"))
    else pure (.ok (some fun a => { a with email := some emailRaw }))

/-! ### Patch -/

/-- The names of the rows, which the database keeps unique, allow the row of `id` to become `a`. -/
def World.allows (w : World) (id : String) (a : Admin) : Bool :=
  w.admins.all fun b => b.id = id ||
    (b.username ≠ a.username && (b.email.isNone || b.email ≠ a.email))

/-- The changes of a body, in the order of its columns. -/
def applySets (sets : List (Admin → Admin)) (a : Admin) : Admin := sets.foldl (fun a f => f a) a

/-- `UPDATE "Admin" SET … WHERE id = $1 RETURNING …`. -/
def updateReturning (adminID : String) (sets : List (Admin → Admin)) : Handler Response :=
  .stmt (fun w => .updated adminID (w.admin adminID))
    (fun w => if (w.admin adminID).all (fun a => World.allows w adminID (applySets sets a))
      then w.updateAdmin adminID (applySets sets) else w)
    fun w => .done <|
      match w.admin adminID with
      | none => .error 404 "Администратор не найден"
      | some a =>
        if World.allows w adminID (applySets sets a) then .row (applySets sets a)
        else .error 500 "duplicate key value"

/-- `Patch`; no body is a body that does not decode. -/
def patchAdmin (crypto : Crypto) (adminID : String) (body : Option Fields) (salt : String) :
    Handler Response :=
  match body with
  | none => pure (.error 400 "invalid json")
  | some body =>
    match setPassword crypto salt body, setFullName body with
    | .error answer, _ => pure answer
    | _, .error answer => pure answer
    | .ok password, .ok fullName => do
      match ← setUsername adminID body with
      | .error answer => pure answer
      | .ok username =>
        match ← setEmail adminID body with
        | .error answer => pure answer
        | .ok email =>
          let sets := [setIsActive body, password, fullName, username, email].filterMap fun f => f
          if sets.isEmpty then pure (.error 400 "Нет данных для обновления")
          else updateReturning adminID sets

end OpenvpnControl.Handlers
