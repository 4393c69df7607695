import OpenvpnControl.Library.Json

/-!
# The client-specific file of a user

The package `ccd`. The stored settings are read field by field, and the file is a comment with the
name of the user, the directives of the fields, and the custom lines.

The settings are JSON that any version of the panel may have stored, so every field is read with a
default for what is absent or of another type. The file is written for OpenVPN, which reads one
directive a line.

## Main definitions

* `Settings`, `normalize`: the settings of a user.
* `renderText`: the file.
-/

namespace OpenvpnControl.Ccd

structure Settings where
  ifconfigPushLocal : String
  ifconfigPushRemote : String
  pushRoutes : String
  iroutes : String
  dnsServers : String
  customDirectives : String
  deriving DecidableEq

/-- `str` of a field. -/
def str (m : List (String × Json)) (k : String) : String :=
  GoStrings.trimSpace (Json.field m k).asString

/-- `Normalize`; a value that is no object has no field. -/
def normalize (raw : Json) : Settings where
  ifconfigPushLocal := str raw.asFields "ifconfigPushLocal"
  ifconfigPushRemote := str raw.asFields "ifconfigPushRemote"
  pushRoutes := str raw.asFields "pushRoutes"
  iroutes := str raw.asFields "iroutes"
  dnsServers := str raw.asFields "dnsServers"
  customDirectives := str raw.asFields "customDirectives"

/-- The lines of a text without white space around them, and without those that are blank. -/
def trimmedLines (text : String) : List String :=
  ((GoStrings.split text '\n').map GoStrings.trimSpace).filter (· ≠ "")

def pushLinesFromMultiline (directive text : String) : List String :=
  (trimmedLines text).map fun line => directive ++ " " ++ line

def renderText (userDisplayName : String) (settings : Json) : String :=
  let s := normalize settings
  let name := GoStrings.trimSpace userDisplayName
  let name := if name = "" then "unknown-user" else name
  let ifconfig :=
    if s.ifconfigPushLocal ≠ "" ∧ s.ifconfigPushRemote ≠ "" then
      ["ifconfig-push " ++ s.ifconfigPushLocal ++ " " ++ s.ifconfigPushRemote]
    else []
  let dns := ((GoStrings.fieldsFunc (fun c => c = ' ' || c = ',') s.dnsServers).map
    GoStrings.trimSpace).filter (· ≠ "")
  let lines := ["# ccd for user: " ++ name] ++ ifconfig ++
    pushLinesFromMultiline "push" s.pushRoutes ++ pushLinesFromMultiline "iroute" s.iroutes ++
      dns.map (fun server => "push dhcp-option DNS " ++ server) ++ trimmedLines s.customDirectives
  let text := "\n".intercalate lines
  if text = "" then "" else text ++ "\n"

end OpenvpnControl.Ccd
