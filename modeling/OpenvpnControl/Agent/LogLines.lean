import OpenvpnControl.Library.Calendar
import OpenvpnControl.Library.GoStrings
import OpenvpnControl.Library.Regexp
import OpenvpnControl.Library.Rows
import OpenvpnControl.Library.Timestamp

/-!
# The dates of log lines

The agent reports the last lines of the log, and the panel stores each line under its own date, or
under the current time when it cannot read the date. This file determines the timestamps that are
read.

## Main definitions

* `openvpnLogLineRe`, `parseOpenVpnLogLine`: a line and its row.
* `parseDateTime`, `parseRFC3339Nano`: `time.Parse` for the two layouts.
* `Stamp`: the timestamps that the expression accepts, with `text`, `time` and `isRead`.
* `persistOpenvpnLogs`, `cleanupOldOpenvpnLogs`: the table of the lines.

## Main results

* `reads_timestamp`: every accepted timestamp is the text of a `Stamp`.
* `occurredAt_eq`: the date of a row.
* `log_lines_iff`: the timestamps that are read, and the table after any run.
-/

namespace OpenvpnControl.Agent.LogLines

open Regexp (space wordChar)

/-! ### The expressions -/

/-- `\d{n}`. -/
def digits (n : ℕ) : Regexp := .rep n (.char Char.isDigit)

/-- `(?:[.,]\d+)?`. -/
def fractionRe : Regexp :=
  .opt (.all [.char fun c => c = '.' || c = ',', .plus (.char Char.isDigit)])

/-- `(?:Z|[+\-]\d{2}:?\d{2})?`. -/
def zoneRe : Regexp :=
  .opt (.alt (.lit 'Z') (.all [.char fun c => c = '+' || c = '-', digits 2,
    .opt (.lit ':'), digits 2]))

/-- `\d{2}:\d{2}:\d{2}`. -/
def clockRe : Regexp := .all [digits 2, .lit ':', digits 2, .lit ':', digits 2]

/-- The first timestamps of `openvpnLogLineRe`. -/
def isoRe : Regexp :=
  .all [digits 4, .lit '-', digits 2, .lit '-', digits 2, .char fun c => c = ' ' || c = 'T',
    clockRe, fractionRe, zoneRe]

/-- `\s+`. -/
def spaces : Regexp := .plus (.char space)

/-- The other timestamps of `openvpnLogLineRe`. -/
def ctimeRe : Regexp :=
  .all [.rep 3 (.char wordChar), spaces, .rep 3 (.char wordChar), spaces,
    .plus (.char Char.isDigit), spaces, clockRe, spaces, digits 4]

def openvpnLogLineRe : Regexp :=
  .all [.start, .group (.alt isoRe ctimeRe), spaces, .group (.star (.char (· ≠ '\n'))), .stop]

/-- A text up to the case of its letters. -/
def caseless (s : String) : List Regexp := s.toList.map fun c => .char fun x =>
    GoStrings.foldRune x = GoStrings.foldRune c

/-- `[A-Za-z0-9._-]`. -/
def nameChar (c : Char) : Bool := c.isAlphanum || c = '.' || c = '_' || c = '-'

/-- `(?i)common name[:=]\s*([A-Za-z0-9._-]+)`. -/
def commonNameRe : Regexp :=
  .all (caseless "common name" ++ [.char fun c => c = ':' || c = '=', .star (.char space),
    .group (.plus (.char fun c => nameChar (GoStrings.foldRune c)))])

/-- `\bCN=([A-Za-z0-9._-]+)`. -/
def cnRe : Regexp :=
  .all [.wordBoundary, .lit 'C', .lit 'N', .lit '=', .group (.plus (.char nameChar))]

/-- `(?i)peer info:\s*IV_CLIUSER=([^\s,]+)`. -/
def cliUserRe : Regexp :=
  .all (caseless "peer info:" ++ [.star (.char space)] ++ caseless "IV_CLIUSER=" ++
    [.group (.plus (.char fun c => !space c && c ≠ ','))])

/-- `\d{1,3}(?:\.\d{1,3}){3}`. -/
def dottedRe : Regexp :=
  .all [.between 1 2 (.char Char.isDigit),
    .rep 3 (.all [.lit '.', .between 1 2 (.char Char.isDigit)])]

/-- `\b([A-Za-z0-9._-]+)/\d{1,3}(?:\.\d{1,3}){3}:\d+\b`. -/
def peerRe : Regexp :=
  .all [.wordBoundary, .group (.plus (.char nameChar)), .lit '/', dottedRe, .lit ':',
    .plus (.char Char.isDigit), .wordBoundary]

/-- `\b(\d{1,3}(?:\.\d{1,3}){3})\b`. -/
def ipRe : Regexp := .all [.wordBoundary, .group dottedRe, .wordBoundary]

def matchGroup (re : Regexp) (s : String) : String := ((re.find s).getD []).headD ""

/-! ### Reading a date -/

/-- The number of some digits. -/
def value (l : List Char) : ℕ := l.foldl (fun n c => 10 * n + (c.toNat - 48)) 0

/-- Is a year a leap year? -/
def isLeap (year : ℕ) : Prop := year % 4 = 0 ∧ (year % 100 ≠ 0 ∨ year % 400 = 0)

instance : DecidablePred isLeap := fun _ => inferInstanceAs (Decidable (_ ∧ _))

def daysIn (month year : ℕ) : ℕ :=
  if month = 2 then if isLeap year then 29 else 28
  else if month ∈ [4, 6, 9, 11] then 30
  else 31

/-- A date and a time of a day, in UTC. -/
structure Fields where
  year : ℕ
  month : ℕ
  day : ℕ
  hour : ℕ
  minute : ℕ
  second : ℕ
  nanos : ℕ

/-- The ranges that `time.Parse` checks. -/
def Fields.Valid (f : Fields) : Prop :=
  1 ≤ f.month ∧ f.month ≤ 12 ∧ 1 ≤ f.day ∧ f.day ≤ daysIn f.month f.year ∧ f.hour < 24 ∧
    f.minute < 60 ∧ f.second < 60

instance (f : Fields) : Decidable f.Valid := inferInstanceAs (Decidable (_ ∧ _))

/-- `time.Date` in UTC, in nanoseconds since 1970; an invalid date is none. -/
def Fields.instant (f : Fields) : Option ℤ :=
  if f.Valid then
    some ((((Calendar.daysFromCivil f.year f.month f.day * 24 + f.hour) * 60 + f.minute) *
      60 + f.second) * Timestamp.second + f.nanos)
  else none

/-- `getnum`: two digits, or one where the second is not `fixed`. -/
def getnum (fixed : Bool) : List Char → Option (ℕ × List Char)
  | a :: b :: rest =>
    if a.isDigit = false then none
    else if b.isDigit then some (value [a, b], rest)
    else if fixed then none
    else some (value [a], b :: rest)
  | [a] => if a.isDigit = false ∨ fixed then none else some (value [a], [])
  | [] => none

/-- Four digits of a year. -/
def longYear : List Char → Option (ℕ × List Char)
  | a :: b :: c :: d :: rest => if [a, b, c, d].all Char.isDigit then
    some (value [a, b, c, d], rest) else none
  | _ => none

/-- A character of a layout. -/
def literal (c : Char) : List Char → Option (List Char)
  | d :: rest => if d = c then some rest else none
  | [] => none

/-- A space of a layout, which stands for any number of them. -/
def skipSpace : List Char → Option (List Char)
  | c :: rest => if c = ' ' then some (rest.dropWhile (· = ' ')) else none
  | [] => some []

/-- `parseNanoseconds`: nine digits count. -/
def parseNanoseconds (digits : List Char) : ℕ :=
  value (digits.take 9) * 10 ^ (9 - (digits.take 9).length)

/-- A fraction, where there is one. -/
def fraction : List Char → ℕ × List Char
  | sep :: d :: rest =>
    if (sep = '.' ∨ sep = ',') ∧ d.isDigit then
      (parseNanoseconds (d :: rest.takeWhile Char.isDigit), rest.dropWhile Char.isDigit)
    else (0, sep :: d :: rest)
  | l => (0, l)

/-- The date of a layout. -/
def readDate (l : List Char) : Option ((ℕ × ℕ × ℕ) × List Char) :=
  (longYear l).bind fun (year, l) => (literal '-' l).bind fun l =>
    (getnum true l).bind fun (month, l) =>
    (literal '-' l).bind fun l => (getnum true l).map fun (day, l) => ((year, month, day), l)

/-- The time of a layout. -/
def readClock (l : List Char) : Option ((ℕ × ℕ × ℕ) × List Char) :=
  (getnum false l).bind fun (hour, l) => (literal ':' l).bind fun l =>
    (getnum true l).bind fun (minute, l) =>
    (literal ':' l).bind fun l => (getnum true l).map fun (second, l) => ((hour, minute, second), l)

/-- A date, a separator, a time and a fraction. -/
def readFields (separator : List Char → Option (List Char)) (l : List Char) :
    Option (Fields × List Char) :=
  (readDate l).bind fun ((year, month, day), l) => (separator l).bind fun l =>
    (readClock l).map fun ((hour, minute, second), l) =>
      (⟨year, month, day, hour, minute, second, (fraction l).1⟩, (fraction l).2)

/-- A zone of the layout, in nanoseconds. -/
def readZone : List Char → Option (ℤ × List Char)
  | sign :: rest =>
    if sign = 'Z' then some (0, rest)
    else match rest with
      | h₁ :: h₂ :: colon :: m₁ :: m₂ :: rest =>
        if colon = ':' ∧ [h₁, h₂, m₁, m₂].all Char.isDigit ∧ value [h₁, h₂] ≤ 24 ∧
          value [m₁, m₂] ≤ 60 then
          let offset := (value [h₁, h₂] * 60 + value [m₁, m₂]) * 60 * Timestamp.second
          if sign = '+' then some (offset, rest) else if sign = '-' then
            some (-offset, rest) else none
        else none
      | _ => none
  | [] => none

/-- `time.Parse` with the layout `2006-01-02 15:04:05`. -/
def parseDateTime (l : List Char) : Option ℤ :=
  (readFields skipSpace l).bind fun (f, l) => if l = [] then f.instant else none

/-- `time.Parse` with the layout `time.RFC3339Nano`. -/
def parseRFC3339Nano (l : List Char) : Option ℤ :=
  (readFields (literal 'T') l).bind fun (f, l) => (readZone l).bind fun (offset, l) =>
    if l = [] then f.instant.map (· - offset) else none

/-! ### Rows -/

/-- `strings.Replace` of the first `old`. -/
def replaceFirst (old new : Char) : List Char → List Char
  | [] => []
  | c :: rest => if c = old then new :: rest else c :: replaceFirst old new rest

/-- `unicode.ToUpper` on the runes whose upper-case form is in ASCII. -/
def upperRune (c : Char) : Char :=
  if 'a' ≤ c ∧ c ≤ 'z' then Char.ofNat (c.toNat - 32)
  else if c.toNat = 0x131 then 'I'
  else if c.toNat = 0x17f then 'S'
  else c

structure ParsedLogLine where
  occurredAt : ℤ
  occurredRaw : Option String
  event : String
  username : Option String
  ipAddress : Option String
  rawLine : String
  deriving DecidableEq

/-- The timestamp and the event of a line, where the expression matches. -/
def splitLine (raw : String) : Option (String × String) :=
  match openvpnLogLineRe.find raw with
  | some [occurredRaw, event] => some (occurredRaw, event)
  | _ => none

/-- The date that is read from a timestamp. -/
def readTimestamp (occurredRaw : String) : Option ℤ :=
  (parseDateTime (replaceFirst ',' '.' occurredRaw.toList)).or
    (parseRFC3339Nano (replaceFirst ',' '.' occurredRaw.toList))

/-- Is an event one of the management interface? -/
def isManagement (event : String) : Bool :=
  "MANAGEMENT:".toList.isPrefixOf (event.toList.map upperRune)

/-- The first text that is not empty. -/
def firstNonEmpty (texts : List String) : Option String := texts.find? (· ≠ "")

/-- `parseOpenVpnLogLine`, at the time `now`. -/
def parseOpenVpnLogLine (now : ℤ) (line : String) : Option ParsedLogLine :=
  let raw := GoStrings.trimSpace line
  if raw = "" then none
  else
    let occurredRaw := (splitLine raw).map Prod.fst
    let event := ((splitLine raw).map Prod.snd).getD raw
    if isManagement event then none
    else
      some
        { occurredAt := (occurredRaw.bind readTimestamp).getD now
          occurredRaw := occurredRaw
          event := event
          username :=
            firstNonEmpty ([commonNameRe, cnRe, cliUserRe, peerRe].map fun re =>
              matchGroup re event)
          ipAddress := firstNonEmpty [matchGroup ipRe event]
          rawLine := raw }

/-! ### Timestamps -/

/-- Characters of a class, as many as `count` allows. -/
structure Taken (c : Char → Bool) (count : ℕ → Prop) where
  chars : List Char
  count : count chars.length
  mem : ∀ x ∈ chars, c x = true

/-- `n` digits. -/
abbrev Digits (n : ℕ) : Type := Taken Char.isDigit (· = n)

/-- Digits. -/
abbrev SomeDigits : Type := Taken Char.isDigit (0 < ·)

/-- White space. -/
abbrev Spaces : Type := Taken space (0 < ·)

/-- Three letters. -/
abbrev Letters : Type := Taken wordChar (· = 3)

/-- The number. -/
def Taken.value {c : Char → Bool} {count : ℕ → Prop} (l : Taken c count) : ℕ :=
  LogLines.value l.chars

/-- The time of a day in a timestamp. -/
structure Clock where
  hour : Digits 2
  minute : Digits 2
  second : Digits 2

def Clock.text (c : Clock) : List Char :=
  c.hour.chars ++ ':' :: (c.minute.chars ++ ':' :: c.second.chars)

/-- A fraction of a second, after a comma or a point. -/
structure Fraction where
  comma : Bool
  digits : SomeDigits

def Fraction.text (f : Fraction) : List Char := (if f.comma then ',' else '.') :: f.digits.chars

/-- A zone: UTC, or hours and minutes with or without a colon. -/
inductive Zone where
  | utc
  | offset (negative : Bool) (hours : Digits 2) (colon : Bool) (minutes : Digits 2)

def Zone.text : Zone → List Char
  | utc => ['Z']
  | offset negative hours colon minutes =>
    (if negative then '-' else '+') ::
      (hours.chars ++ ((if colon then [':'] else []) ++ minutes.chars))

/-- The offset of a zone, in nanoseconds; hours and minutes out of range are none. -/
def Zone.time : Zone → Option ℤ
  | utc => some 0
  | offset negative hours _ minutes =>
    if hours.value < 24 ∧ minutes.value < 60 then
      let offset := (hours.value * 60 + minutes.value) * 60 * Timestamp.second
      some (if negative then -offset else offset)
    else none

/-- Hours and minutes without a colon. -/
def Zone.bare : Zone → Bool
  | offset _ _ colon _ => !colon
  | utc => false

/-- A timestamp that begins with the year; `t` says that a `T` stands before the time. -/
structure Iso where
  year : Digits 4
  month : Digits 2
  day : Digits 2
  t : Bool
  clock : Clock
  fraction : Option Fraction
  zone : Option Zone

namespace Iso

def date (s : Iso) : List Char := s.year.chars ++ '-' :: (s.month.chars ++ '-' :: s.day.chars)

def separator (s : Iso) : Char := if s.t then 'T' else ' '

def fractionText (s : Iso) : List Char := (s.fraction.map Fraction.text).getD []

def zoneText (s : Iso) : List Char := (s.zone.map Zone.text).getD []

def text (s : Iso) : List Char :=
  s.date ++ s.separator :: (s.clock.text ++ (s.fractionText ++ s.zoneText))

/-- The date and the time of the day; of a fraction nine digits count. -/
def fields (s : Iso) : Fields :=
  ⟨s.year.value, s.month.value, s.day.value, s.clock.hour.value,
    s.clock.minute.value, s.clock.second.value,
    (s.fraction.map fun f => parseNanoseconds f.digits.chars).getD 0⟩

/-- The time, in UTC where no zone is given. -/
def time (s : Iso) : Option ℤ :=
  (s.fields.instant).bind fun t => ((s.zone.map Zone.time).getD (some 0)).map (t - ·)

/-- The timestamps that are read: a space and no zone, or a `T` and a zone whose hours and minutes
have a colon. -/
def isRead (s : Iso) : Bool := if s.t then s.zone.any fun zone => !zone.bare else s.zone.isNone

end Iso

/-- A timestamp that begins with the day of the week. -/
structure Ctime where
  weekday : Letters
  gap₁ : Spaces
  month : Letters
  gap₂ : Spaces
  day : SomeDigits
  gap₃ : Spaces
  clock : Clock
  gap₄ : Spaces
  year : Digits 4

/-- The place of a name in a list, up to the case of its letters. -/
def nameIndex (names : List String) (name : List Char) : Option ℕ :=
  names.findIdx? fun n => GoStrings.equalFold n (String.ofList name)

namespace Ctime

def text (s : Ctime) : List Char :=
  s.weekday.chars ++
    (s.gap₁.chars ++ (s.month.chars ++ (s.gap₂.chars ++ (s.day.chars ++ (s.gap₃.chars ++
    (s.clock.text ++ (s.gap₄.chars ++ s.year.chars)))))))

/-- The time, in UTC. -/
def time (s : Ctime) : Option ℤ :=
  (nameIndex ["Sun", "Mon", "Tue", "Wed", "Thu", "Fri", "Sat"] s.weekday.chars).bind fun _ =>
    (nameIndex ["Jan", "Feb", "Mar", "Apr", "May", "Jun", "Jul", "Aug", "Sep", "Oct", "Nov", "Dec"]
      s.month.chars).bind fun month =>
      (⟨s.year.value, month + 1, s.day.value, s.clock.hour.value, s.clock.minute.value,
        s.clock.second.value, 0⟩ :
        Fields).instant

end Ctime

/-- A timestamp that `openvpnLogLineRe` accepts. -/
inductive Stamp where
  | iso (s : Iso)
  | ctime (s : Ctime)

namespace Stamp

def text : Stamp → List Char
  | iso s => s.text
  | ctime s => s.text

/-- The date and time that a timestamp denotes, in nanoseconds since 1970; an invalid one denotes
none. -/
def time : Stamp → Option ℤ
  | iso s => s.time
  | ctime s => s.time

/-- The timestamps that are read. -/
def isRead : Stamp → Bool
  | iso s => s.isRead
  | ctime _ => false

end Stamp

/-! ### What the expression accepts -/

theorem reads_digits (n : ℕ) : Regexp.Reads (digits n) fun l => ∃ d : Digits n, l = d.chars :=
  (Regexp.Reads.rep n _).mono fun l h => ⟨⟨l, h.1, h.2⟩, rfl⟩

theorem reads_spaces : Regexp.Reads spaces fun l => ∃ s : Spaces, l = s.chars :=
  (Regexp.Reads.plus _).mono fun l h => ⟨⟨l, List.length_pos_of_ne_nil h.1, h.2⟩, rfl⟩

theorem reads_clock : Regexp.Reads clockRe fun l => ∃ c : Clock, l = c.text :=
  ((reads_digits 2).seq
    ((Regexp.Reads.lit ':').seq ((reads_digits 2).seq ((Regexp.Reads.lit ':').seq
    ((reads_digits 2).seq .empty))))).mono fun l h => by
      obtain ⟨-, -, ⟨hour, rfl⟩, ⟨-, -, rfl, ⟨-, -, ⟨minute, rfl⟩,
        ⟨-, -, rfl, ⟨-, -, ⟨second, rfl⟩, rfl, rfl⟩, rfl⟩, rfl⟩, rfl⟩, rfl⟩ := h
      exact ⟨⟨hour, minute, second⟩, by simp [Clock.text]⟩

theorem reads_fraction :
    Regexp.Reads fractionRe fun l => ∃ f : Option Fraction, l = (f.map Fraction.text).getD [] :=
  (((Regexp.Reads.char _).seq ((Regexp.Reads.plus _).seq .empty)).opt).mono fun l h => by
    obtain ⟨-, -, ⟨sep, hsep, rfl⟩, ⟨digits, -, ⟨hne, hdigits⟩, rfl, rfl⟩, rfl⟩ | rfl := h
    · refine ⟨some ⟨decide (sep = ','), ⟨_, List.length_pos_of_ne_nil hne, hdigits⟩⟩, ?_⟩
      have hchar : (if sep = ',' then ',' else '.') = sep := by
        simp only [Bool.or_eq_true, decide_eq_true_eq] at hsep
        obtain rfl | rfl := hsep
        · decide
        · decide
      simp [Fraction.text, hchar]
    · exact ⟨none, rfl⟩

theorem reads_zone : Regexp.Reads zoneRe fun l => ∃ z : Option Zone,
    l = (z.map Zone.text).getD [] :=
  (((Regexp.Reads.lit 'Z').alt
    ((Regexp.Reads.char _).seq ((reads_digits 2).seq (((Regexp.Reads.lit ':').opt).seq
    ((reads_digits 2).seq .empty))))).opt).mono fun l h => by
      obtain (rfl | ⟨-, -, ⟨sign, hsign, rfl⟩, ⟨-, -, ⟨hours, rfl⟩, ⟨colon, -, hcolon,
        ⟨-, -, ⟨minutes, rfl⟩, rfl, rfl⟩, rfl⟩, rfl⟩, rfl⟩) | rfl := h
      · exact ⟨some .utc, rfl⟩
      · refine ⟨some (.offset (decide (sign = '-')) hours (decide (colon = [':'])) minutes), ?_⟩
        have hchar : (if decide (sign = '-') = true then '-' else '+') = sign := by
          simp only [Bool.or_eq_true, decide_eq_true_eq] at hsign
          obtain rfl | rfl := hsign
          · decide
          · decide
        have hopt : (if decide (colon = [':']) = true then [':'] else []) = colon := by
          obtain rfl | rfl := hcolon
          · decide
          · decide
        simp only [Option.map_some, Option.getD_some, Zone.text, hchar, hopt]
        simp
      · exact ⟨none, rfl⟩

theorem reads_iso : Regexp.Reads isoRe fun l => ∃ s : Iso, l = s.text :=
  ((reads_digits 4).seq
    ((Regexp.Reads.lit '-').seq ((reads_digits 2).seq ((Regexp.Reads.lit '-').seq
    ((reads_digits 2).seq ((Regexp.Reads.char _).seq (reads_clock.seq (reads_fraction.seq
      (reads_zone.seq .empty))))))))).mono fun l h => by
        obtain ⟨-, -, ⟨year, rfl⟩, ⟨-, -, rfl, ⟨-, -, ⟨month, rfl⟩,
          ⟨-, -, rfl, ⟨-, -, ⟨day, rfl⟩, ⟨-, -, ⟨sep, hsep, rfl⟩, ⟨-, -, ⟨clock, rfl⟩,
            ⟨-, -, ⟨fraction, rfl⟩, ⟨-, -, ⟨zone, rfl⟩, rfl, rfl⟩, rfl⟩,
            rfl⟩, rfl⟩, rfl⟩, rfl⟩, rfl⟩,
          rfl⟩, rfl⟩ := h
        refine ⟨⟨year, month, day, decide (sep = 'T'), clock, fraction, zone⟩, ?_⟩
        have hchar : (if sep = 'T' then 'T' else ' ') = sep := by
          simp only [Bool.or_eq_true, decide_eq_true_eq] at hsep
          obtain rfl | rfl := hsep
          · decide
          · decide
        simp [Iso.text, Iso.date, Iso.separator, Iso.fractionText, Iso.zoneText, hchar]

theorem reads_letters : Regexp.Reads (.rep 3 (.char wordChar)) fun l => ∃ s : Letters,
    l = s.chars :=
  (Regexp.Reads.rep 3 _).mono fun l h => ⟨⟨l, h.1, h.2⟩, rfl⟩

theorem reads_ctime : Regexp.Reads ctimeRe fun l => ∃ s : Ctime, l = s.text :=
  (reads_letters.seq
    (reads_spaces.seq (reads_letters.seq (reads_spaces.seq ((Regexp.Reads.plus _).seq
    (reads_spaces.seq (reads_clock.seq (reads_spaces.seq ((reads_digits 4).seq .empty))))))))).mono
    fun l h => by
      obtain ⟨-, -, ⟨weekday, rfl⟩, ⟨-, -, ⟨gap₁, rfl⟩, ⟨-, -, ⟨month, rfl⟩,
        ⟨-, -, ⟨gap₂, rfl⟩, ⟨day, -, ⟨hne, hday⟩, ⟨-, -, ⟨gap₃, rfl⟩, ⟨-, -, ⟨clock, rfl⟩,
          ⟨-, -, ⟨gap₄, rfl⟩, ⟨-, -, ⟨year, rfl⟩, rfl, rfl⟩, rfl⟩, rfl⟩, rfl⟩,
        rfl⟩, rfl⟩, rfl⟩, rfl⟩, rfl⟩ := h
      exact ⟨⟨weekday, gap₁, month, gap₂, ⟨day, List.length_pos_of_ne_nil hne, hday⟩,
        gap₃, clock, gap₄, year⟩, by simp [Ctime.text]⟩

/-- **Every accepted timestamp** is the text of a `Stamp`. -/
theorem reads_timestamp : Regexp.Reads (.alt isoRe ctimeRe) fun l => ∃ s : Stamp, l = s.text :=
  (reads_iso.alt reads_ctime).mono fun l h => by
    obtain ⟨s, rfl⟩ | ⟨s, rfl⟩ := h
    · exact ⟨.iso s, rfl⟩
    · exact ⟨.ctime s, rfl⟩

/-! ### What is read of a timestamp -/

theorem longYear_append (d : Digits 4) (l : List Char) :
    longYear (d.chars ++ l) = some (d.value, l) := by
  obtain ⟨_ | ⟨a, _ | ⟨b, _ | ⟨c, _ | ⟨d, _ | ⟨e, rest⟩⟩⟩⟩⟩, hlength, hmem⟩ := d
  all_goals cases hlength
  have hall : [a, b, c, d].all Char.isDigit = true := List.all_eq_true.2 hmem
  rw [List.cons_append, List.cons_append, List.cons_append, List.cons_append,
    List.nil_append, longYear, if_pos hall]
  rfl

theorem getnum_append (fixed : Bool) (d : Digits 2) (l : List Char) :
    getnum fixed (d.chars ++ l) = some (d.value, l) := by
  obtain ⟨_ | ⟨a, _ | ⟨b, _ | ⟨c, rest⟩⟩⟩, hlength, hmem⟩ := d
  all_goals cases hlength
  have ha := hmem a List.mem_cons_self
  have hb := hmem b (List.mem_cons_of_mem a List.mem_cons_self)
  rw [List.cons_append, List.cons_append, List.nil_append, getnum,
    if_neg (by rw [ha]; decide), if_pos hb]
  rfl

theorem literal_cons (c : Char) (l : List Char) : literal c (c :: l) = some l := by
  rw [literal, if_pos rfl]

theorem readDate_append (s : Iso) (l : List Char) :
    readDate (s.date ++ l) = some ((s.year.value, s.month.value, s.day.value), l) := by
  simp only [readDate, Iso.date, List.append_assoc, List.cons_append, longYear_append,
    getnum_append, literal_cons, Option.bind_some, Option.map_some]

theorem readClock_append (c : Clock) (l : List Char) :
    readClock (c.text ++ l) = some ((c.hour.value, c.minute.value, c.second.value), l) := by
  simp only [readClock, Clock.text, List.append_assoc, List.cons_append, getnum_append,
    literal_cons, Option.bind_some, Option.map_some]

/-- A text that a fraction does not go on with. -/
def EndsFraction (l : List Char) : Prop := ∀ c ∈ l.head?, c.isDigit = false ∧ c ≠ '.' ∧ c ≠ ','

theorem endsFraction_zoneText (s : Iso) : EndsFraction s.zoneText := by
  rw [Iso.zoneText]
  intro c hc
  cases hzone : s.zone with
  | none => simp [hzone] at hc
  | some zone =>
    rw [hzone] at hc
    cases zone with
    | utc =>
      obtain rfl : 'Z' = c := by simpa [Zone.text] using hc
      decide
    | offset negative hours colon minutes =>
      cases negative with
      | false =>
        obtain rfl : '+' = c := by simpa [Zone.text] using hc
        decide
      | true =>
        obtain rfl : '-' = c := by simpa [Zone.text] using hc
        decide

theorem takeWhile_digits (d : SomeDigits) {l : List Char} (hl : EndsFraction l) :
    (d.chars ++ l).takeWhile Char.isDigit = d.chars ∧
    (d.chars ++ l).dropWhile Char.isDigit = l := by
  rw [List.takeWhile_append_of_pos d.mem, List.dropWhile_append_of_pos d.mem]
  cases l with
  | nil => simp
  | cons c l =>
    obtain ⟨hc, -⟩ := hl c rfl
    rw [List.takeWhile_cons_of_neg (by simp [hc]), List.dropWhile_cons_of_neg (by simp [hc]),
      List.append_nil]
    exact ⟨rfl, rfl⟩

/-- **What is read of a fraction.** -/
theorem fraction_append (f : Option Fraction) {l : List Char} (hl : EndsFraction l) :
    fraction ((f.map Fraction.text).getD [] ++ l) =
    ((f.map fun f => parseNanoseconds f.digits.chars).getD 0, l) := by
  cases f with
  | none =>
    rw [Option.map_none, Option.getD_none, List.nil_append, Option.map_none, Option.getD_none]
    match l, hl with
    | [], _ => rfl
    | [c], _ => rfl
    | c :: d :: l, hl =>
      obtain ⟨-, hpoint, hcomma⟩ := hl c rfl
      rw [fraction, if_neg (by simp [hpoint, hcomma])]
  | some f =>
    obtain ⟨htake, hdrop⟩ := takeWhile_digits f.digits hl
    obtain ⟨comma, ⟨_ | ⟨d, rest⟩, hcount, hmem⟩⟩ := f
    · cases hcount
    · have hd : d.isDigit = true := hmem d List.mem_cons_self
      have hsep : ((if comma then ',' else '.') = '.' ∨ (if comma then ',' else '.') = ',') ∧
          d.isDigit = true := by
        cases comma <;> simp [hd]
      simp only [List.cons_append, List.takeWhile_cons_of_pos hd, List.dropWhile_cons_of_pos hd,
        List.cons.injEq, true_and] at htake hdrop
      simp only [Option.map_some, Option.getD_some, Fraction.text, List.cons_append]
      rw [fraction, if_pos hsep, htake, hdrop]

/-- **What is read before the zone.** -/
theorem readFields_text (s : Iso) :
    readFields skipSpace s.text = (if s.t then none else some (s.fields, s.zoneText)) ∧
      readFields (literal 'T') s.text = if s.t then some (s.fields, s.zoneText) else none := by
  have hfraction := fraction_append s.fraction (endsFraction_zoneText s)
  rw [← Iso.fractionText] at hfraction
  have hclock := readClock_append s.clock (s.fractionText ++ s.zoneText)
  have hspace : (s.clock.text ++ (s.fractionText ++ s.zoneText)).dropWhile (· = ' ') =
      s.clock.text ++ (s.fractionText ++ s.zoneText) := by
    obtain ⟨⟨_ | ⟨a, hour⟩, hcount, hmem⟩, minute, second⟩ := s.clock
    · cases hcount
    · have ha := hmem a List.mem_cons_self
      have hne : a ≠ ' ' := by
        rintro rfl
        cases ha
      simp [Clock.text, hne]
  have hfields : ∀ t, s.t = t → (readFields skipSpace s.text = if t then none
      else some (s.fields, s.zoneText)) ∧
      readFields (literal 'T') s.text = if t then some (s.fields, s.zoneText) else none := by
    intro t ht
    rw [readFields, readFields, Iso.text, readDate_append, Option.bind_some,
      Option.bind_some, Iso.separator, ht]
    cases t with
    | true =>
      refine ⟨rfl, ?_⟩
      simp only [if_true, literal_cons, Option.bind_some, hclock, Option.map_some, hfraction]
      rfl
    | false =>
      refine ⟨?_, rfl⟩
      simp only [Bool.false_eq_true, if_false, skipSpace, if_true, hspace, Option.bind_some,
        hclock, Option.map_some, hfraction]
      rfl
  exact hfields s.t rfl

theorem readZone_colon {sign : Char} (hsign : sign ≠ 'Z') {hours minutes : Digits 2}
    (hrange : hours.value < 24 ∧ minutes.value < 60) :
    readZone (sign :: (hours.chars ++ ':' :: minutes.chars)) =
      if sign = '+' then some ((hours.value * 60 + minutes.value) * 60 * Timestamp.second, [])
      else if sign = '-' then
      some (-((hours.value * 60 + minutes.value) * 60 * Timestamp.second), [])
      else none := by
  obtain ⟨_ | ⟨h₁, _ | ⟨h₂, _ | ⟨h₃, hs⟩⟩⟩, hh, hhours⟩ := hours
  all_goals cases hh
  obtain ⟨_ | ⟨m₁, _ | ⟨m₂, _ | ⟨m₃, ms⟩⟩⟩, hm, hminutes⟩ := minutes
  all_goals cases hm
  have hall : [h₁, h₂, m₁, m₂].all Char.isDigit = true ∧ value [h₁, h₂] ≤
      24 ∧ value [m₁, m₂] ≤ 60 :=
    ⟨List.all_eq_true.2 (List.forall_mem_append.2 ⟨hhours, hminutes⟩), hrange.1.le, hrange.2.le⟩
  simp only [List.cons_append, List.nil_append, readZone]
  rw [if_neg hsign, if_pos ⟨trivial, hall⟩]
  rfl

theorem readZone_bare {sign : Char} (hsign : sign ≠ 'Z') (hours minutes : Digits 2) :
    readZone (sign :: (hours.chars ++ minutes.chars)) = none := by
  obtain ⟨_ | ⟨h₁, _ | ⟨h₂, _ | ⟨h₃, hs⟩⟩⟩, hh, hhours⟩ := hours
  all_goals cases hh
  obtain ⟨_ | ⟨m₁, _ | ⟨m₂, _ | ⟨m₃, ms⟩⟩⟩, hm, hminutes⟩ := minutes
  all_goals cases hm
  simp only [List.cons_append, List.nil_append, readZone]
  rw [if_neg hsign]

/-- **What is read of a zone**: nothing where the hours and minutes have no colon between them. -/
theorem readZone_text (zone : Zone) {offset : ℤ} (h : zone.time = some offset) :
    readZone zone.text = if zone.bare then none else some (offset, []) := by
  cases zone with
  | utc =>
    obtain rfl := Option.some.inj h
    rfl
  | offset negative hours colon minutes =>
    have hsign : (if negative then '-' else '+') ≠ 'Z' := by
      cases negative <;> decide
    by_cases hrange : hours.value < 24 ∧ minutes.value < 60
    · rw [Zone.time, if_pos hrange] at h
      obtain rfl := Option.some.inj h
      cases colon with
      | false => exact readZone_bare hsign hours minutes
      | true =>
        have hread := readZone_colon hsign hrange
        cases negative with
        | false => simpa [Zone.text, Zone.bare] using hread
        | true => simpa [Zone.text, Zone.bare] using hread
    · rw [Zone.time, if_neg hrange] at h
      cases h

/-- A timestamp after its comma has become a point. -/
def Iso.pointed (s : Iso) : Iso :=
  { s with fraction := s.fraction.map fun f => { f with comma := false } }

theorem replaceFirst_append {old new : Char} {a : List Char} (h : ∀ c ∈ a, c ≠ old)
    (b : List Char) :
    replaceFirst old new (a ++ b) = a ++ replaceFirst old new b := by
  induction a with
  | nil => rfl
  | cons c a ih =>
    obtain ⟨hc, ha⟩ := List.forall_mem_cons.1 h
    rw [List.cons_append, replaceFirst, if_neg hc, ih ha, List.cons_append]

theorem replaceFirst_eq_self {old new : Char} {a : List Char} (h : ∀ c ∈ a, c ≠ old) :
    replaceFirst old new a = a := by
  have happend := @replaceFirst_append old new a h []
  rwa [List.append_nil, replaceFirst, List.append_nil] at happend

theorem Taken.ne {c : Char → Bool} {count : ℕ → Prop} (l : Taken c count) {x : Char}
    (hx : c x = false) :
    ∀ y ∈ l.chars, y ≠ x := fun y hy h => by
  have hmem := l.mem y hy
  rw [h, hx] at hmem
  cases hmem

theorem date_ne_comma (s : Iso) : ∀ c ∈ s.date, c ≠ ',' := by
  have hyear := s.year.ne (x := ',') (by decide)
  have hmonth := s.month.ne (x := ',') (by decide)
  have hday := s.day.ne (x := ',') (by decide)
  rw [Iso.date]
  exact List.forall_mem_append.2 ⟨hyear, List.forall_mem_cons.2 ⟨by decide,
    List.forall_mem_append.2 ⟨hmonth, List.forall_mem_cons.2 ⟨by decide, hday⟩⟩⟩⟩

theorem clock_ne_comma (k : Clock) : ∀ c ∈ k.text, c ≠ ',' := by
  have hhour := k.hour.ne (x := ',') (by decide)
  have hminute := k.minute.ne (x := ',') (by decide)
  have hsecond := k.second.ne (x := ',') (by decide)
  rw [Clock.text]
  exact List.forall_mem_append.2 ⟨hhour, List.forall_mem_cons.2 ⟨by decide,
    List.forall_mem_append.2 ⟨hminute, List.forall_mem_cons.2 ⟨by decide, hsecond⟩⟩⟩⟩

theorem zone_ne_comma (zone : Zone) : ∀ c ∈ zone.text, c ≠ ',' := by
  cases zone with
  | utc => decide
  | offset negative hours colon minutes =>
    have hhours := hours.ne (x := ',') (by decide)
    have hminutes := minutes.ne (x := ',') (by decide)
    rw [Zone.text]
    refine List.forall_mem_cons.2 ⟨by cases negative <;> decide, List.forall_mem_append.2 ⟨hhours,
      List.forall_mem_append.2 ⟨by cases colon <;> decide, hminutes⟩⟩⟩

/-- **The comma of a timestamp** is the one before its fraction. -/
theorem replaceFirst_text (s : Iso) : replaceFirst ',' '.' s.text = s.pointed.text := by
  have hsep : s.separator ≠ ',' := by
    rw [Iso.separator]
    split_ifs <;> decide
  have hzone : ∀ c ∈ s.zoneText, c ≠ ',' := by
    rw [Iso.zoneText]
    cases s.zone with
    | none => exact nofun
    | some zone => exact zone_ne_comma zone
  have hfraction : replaceFirst ',' '.' (s.fractionText ++ s.zoneText) =
      s.pointed.fractionText ++ s.zoneText := by
    rw [Iso.fractionText, Iso.fractionText, Iso.pointed]
    cases s.fraction with
    | none => exact replaceFirst_eq_self hzone
    | some f =>
      have hdigits := List.forall_mem_append.2 ⟨f.digits.ne (x := ',') (by decide), hzone⟩
      simp only [Option.map_some, Option.getD_some, Fraction.text, List.cons_append,
        Bool.false_eq_true, if_false]
      cases f.comma with
      | false =>
        simp only [Bool.false_eq_true, if_false]
        rw [replaceFirst, if_neg (by decide), replaceFirst_eq_self hdigits]
      | true =>
        simp only [if_true]
        rw [replaceFirst, if_pos rfl]
  rw [Iso.text, replaceFirst_append (date_ne_comma s), replaceFirst, if_neg hsep,
    replaceFirst_append (clock_ne_comma s.clock), hfraction]
  rfl

theorem fields_pointed (s : Iso) : s.pointed.fields = s.fields := by
  rw [Iso.fields, Iso.fields, Iso.pointed]
  cases s.fraction <;> rfl

/-- **What is read of a timestamp that begins with the year.** -/
theorem readTimestamp_iso (s : Iso) {t : ℤ} (h : s.time = some t) :
    readTimestamp (String.ofList s.text) = if s.isRead then some t else none := by
  obtain ⟨u, hu, hzone⟩ := Option.bind_eq_some_iff.1 h
  obtain ⟨hdate, hrfc⟩ := readFields_text s.pointed
  rw [fields_pointed] at hdate hrfc
  rw [readTimestamp, String.toList_ofList, replaceFirst_text, parseDateTime, parseRFC3339Nano,
    hdate, hrfc, Iso.isRead]
  have hpointed : s.pointed.t = s.t ∧ s.pointed.zoneText = s.zoneText := ⟨rfl, rfl⟩
  rw [hpointed.1, hpointed.2, Iso.zoneText]
  cases hzoneOf : s.zone with
  | none =>
    obtain rfl : u - 0 = t := by simpa [hzoneOf] using hzone
    cases s.t <;> simp [hu, readZone]
  | some zone =>
    rw [hzoneOf] at hzone
    obtain ⟨offset, hoffset, rfl⟩ := Option.map_eq_some_iff.1 hzone
    have hread := readZone_text zone hoffset
    have hne : zone.text ≠ [] := by
      cases zone <;> exact nofun
    cases s.t with
    | false => simp [hne]
    | true => cases hbare : zone.bare <;> simp [hread, hbare, hu]

theorem isDigit_of_space {c : Char} (h : space c = true) : c.isDigit = false := by
  by_contra hdigit
  rw [Bool.not_eq_false, Char.isDigit, Bool.and_eq_true, decide_eq_true_eq,
    decide_eq_true_eq] at hdigit
  have hlow : 48 ≤ c.toNat := hdigit.1
  simp only [Regexp.space, Bool.or_eq_true, decide_eq_true_eq] at h
  rcases h with (((rfl | rfl) | rfl) | h) | rfl
  · exact absurd hlow (by decide)
  · exact absurd hlow (by decide)
  · exact absurd hlow (by decide)
  · omega
  · exact absurd hlow (by decide)

/-- The first characters of a timestamp that begins with the day of the week. -/
theorem text_ctime (s : Ctime) : ∃ a b c g rest, s.text = [a, b, c] ++ g :: rest ∧
    (∀ x ∈ [a, b, c], x ≠ ',') ∧ g ≠ ',' ∧ g.isDigit = false := by
  have hword := s.weekday.ne (x := ',') (by decide)
  have hgap := s.gap₁.ne (x := ',') (by decide)
  have hcount := s.weekday.count
  have hpos := s.gap₁.count
  have hspace := s.gap₁.mem
  rw [Ctime.text]
  generalize s.weekday.chars = weekday at hword hcount ⊢
  generalize s.gap₁.chars = gap at hgap hpos hspace ⊢
  obtain ⟨a, b, c, rfl⟩ := List.length_eq_three.1 hcount
  obtain _ | ⟨g, gap⟩ := gap
  · cases hpos
  · exact ⟨a, b, c, g, _, rfl, hword, hgap g List.mem_cons_self,
      isDigit_of_space (hspace g List.mem_cons_self)⟩

/-- **Nothing is read** of a timestamp that begins with the day of the week. -/
theorem readTimestamp_ctime (s : Ctime) : readTimestamp (String.ofList s.text) = none := by
  obtain ⟨a, b, c, g, rest, htext, hword, hcomma, hdigit⟩ := text_ctime s
  have hyear : ∀ l, longYear ([a, b, c] ++ g :: l) = none := fun l => by
    rw [List.cons_append, List.cons_append, List.cons_append, List.nil_append, longYear,
      if_neg (by simp [hdigit])]
  rw [readTimestamp, String.toList_ofList, htext, replaceFirst_append hword,
    replaceFirst, if_neg hcomma, parseDateTime, parseRFC3339Nano, readFields,
    readFields, readDate, hyear]
  rfl

/-- **What is read of a timestamp.** -/
theorem readTimestamp_text (s : Stamp) {t : ℤ} (h : s.time = some t) :
    readTimestamp (String.ofList s.text) = if s.isRead then some t else none := by
  cases s with
  | iso s => exact readTimestamp_iso s h
  | ctime s => exact readTimestamp_ctime s

/-! ### The table -/

/-- A row of `OpenvpnServerLog`. -/
structure OpenvpnServerLog where
  agentNodeId : String
  occurredAt : ℤ
  occurredRaw : Option String
  event : String
  username : Option String
  ipAddress : Option String
  rawLine : String
  fingerprint : String
  deriving DecidableEq

/-- A line that an agent reports, with the time at which it is parsed; its statement is executed or
fails. -/
structure Reported where
  line : String
  now : ℤ
  executed : Bool

section Table

variable (sha1Hex : String → String)

/-- A turn of the loop of `persistOpenvpnLogs`; a row whose fingerprint is stored is left out. -/
def persistLine (nodeID : String) (table : List OpenvpnServerLog) (reported : Reported) :
    List OpenvpnServerLog :=
  match parseOpenVpnLogLine reported.now reported.line with
  | none => table
  | some row =>
    let fingerprint := sha1Hex (nodeID ++ "|" ++ row.occurredRaw.getD "" ++ "|" ++ row.rawLine)
    if reported.executed = false ∨ fingerprint ∈ table.map (·.fingerprint) then table
    else
      table ++ [⟨nodeID, Timestamp.stamp row.occurredAt, row.occurredRaw, row.event,
        row.username, row.ipAddress, row.rawLine, fingerprint⟩]

def persistOpenvpnLogs (nodeID : String) (lines : List Reported) (table : List OpenvpnServerLog) :
    List OpenvpnServerLog :=
  lines.foldl (persistLine sha1Hex nodeID) table

/-- `cleanupOldOpenvpnLogs`, with the days of the configuration; the product of durations wraps
around. -/
def cleanupOldOpenvpnLogs (retentionDays now : ℤ) (executed : Bool)
    (table : List OpenvpnServerLog) :
    List OpenvpnServerLog :=
  let days := if retentionDays < 1 then 10 else retentionDays
  let cutoff := now - Int.bmod (days * Timestamp.day) (2 ^ 64)
  if executed then Rows.deleteWhere (fun row => row.occurredAt < Timestamp.param cutoff) table
    else table

/-- A run of one of the two. -/
inductive Op where
  | persist (nodeID : String) (lines : List Reported)
  | cleanup (retentionDays now : ℤ) (executed : Bool)

/-- The table after a run. -/
def exec (table : List OpenvpnServerLog) : Op → List OpenvpnServerLog
  | .persist nodeID lines => persistOpenvpnLogs sha1Hex nodeID lines table
  | .cleanup retentionDays now executed => cleanupOldOpenvpnLogs retentionDays now executed table

end Table

/-- The lines of a run. -/
def Op.lines : Op → List Reported
  | persist _ lines => lines
  | cleanup _ _ _ => []

/-! ### The dates of the lines -/

/-- A line whose timestamp denotes the time. -/
def LineTime (raw : String) (t : ℤ) : Prop :=
  ∃ event, ∃ s : Stamp, splitLine raw = some (String.ofList s.text, event) ∧ s.time = some t

/-- A line whose timestamp, if it denotes a time, is read, or whose event is one of the management
interface. -/
def DateRead (line : String) : Prop :=
  ∀ (s : Stamp) (event : String), splitLine (GoStrings.trimSpace line) =
    some (String.ofList s.text, event) →
    s.time.isSome = true → s.isRead = true ∨ isManagement event = true

/-- A line whose timestamp is read is one. -/
theorem dateRead_of_readTimestamp {line ts event : String}
    (hsplit : splitLine (GoStrings.trimSpace line) = some (ts, event))
    (hread : (readTimestamp ts).isSome = true) : DateRead line := by
  intro s event' hs htime
  obtain ⟨rfl, rfl⟩ := Prod.mk.inj (Option.some.inj (hsplit.symm.trans hs))
  obtain ⟨t, ht⟩ := Option.isSome_iff_exists.1 htime
  refine Or.inl ?_
  by_contra hnot
  rw [readTimestamp_text s ht, if_neg hnot] at hread
  cases hread

/-- Every row has the date of its line. -/
def Dated (table : List OpenvpnServerLog) : Prop :=
  ∀ row ∈ table, ∀ t, LineTime row.rawLine t → row.occurredAt = Timestamp.stamp t

/-- The groups of a match of `openvpnLogLineRe`. -/
theorem groups_openvpnLogLineRe {before rest : List Char} {q : Regexp.Place}
    (h : q ∈ openvpnLogLineRe.runs ⟨before, rest, []⟩) : ∃ s : Stamp, ∃ event,
    q.groups = [s.text, event] := by
  obtain ⟨m₀, hm₀, h⟩ := Regexp.mem_runs_seq.1 h
  obtain ⟨m₁, hm₁, h⟩ := Regexp.mem_runs_seq.1 h
  obtain ⟨m₂, hm₂, h⟩ := Regexp.mem_runs_seq.1 h
  obtain ⟨m₃, hm₃, h⟩ := Regexp.mem_runs_seq.1 h
  obtain ⟨m₄, hm₄, h⟩ := Regexp.mem_runs_seq.1 h
  have hstart : m₀.groups = [] := by
    rw [Regexp.runs_start] at hm₀
    split_ifs at hm₀
    · rw [List.mem_singleton.1 hm₀]
    · cases hm₀
  obtain ⟨l, ⟨s, rfl⟩, -, hstamp⟩ := Regexp.mem_runs_group reads_timestamp hm₁
  obtain ⟨-, -, -, hspaces⟩ := reads_spaces m₁ m₂ hm₂
  obtain ⟨event, -, -, hevent⟩ := Regexp.mem_runs_group (Regexp.Reads.class' _).star hm₃
  have hstop : m₄ = m₃ := by
    rw [Regexp.runs_stop] at hm₄
    split_ifs at hm₄
    · exact List.mem_singleton.1 hm₄
    · cases hm₄
  obtain rfl : q = m₄ := List.mem_singleton.1 h
  exact ⟨s, event, by rw [hstop, hevent, hspaces, hstamp, hstart]; rfl⟩

/-- The timestamp of a line is one that the expression accepts. -/
theorem exists_stamp {raw ts event : String} (h : splitLine raw = some (ts, event)) :
    ∃ s : Stamp, ts = String.ofList s.text := by
  rw [splitLine] at h
  split at h
  · rename_i occurredRaw event' hfind
    obtain ⟨rfl, rfl⟩ := Prod.mk.inj (Option.some.inj h)
    obtain ⟨q, hq, hgroups⟩ := Option.map_eq_some_iff.1 hfind
    obtain ⟨a, b, -, hruns⟩ := Regexp.exists_of_findFrom hq
    obtain ⟨s, text, hs⟩ := groups_openvpnLogLineRe hruns
    rw [hs] at hgroups
    exact ⟨s, (List.cons.inj hgroups).1.symm⟩
  · cases h

/-- **The date of a row**: the time of the timestamp when it is read, and the current time when it
is not. -/
theorem occurredAt_eq {now : ℤ} {line event : String} {s : Stamp} {t : ℤ} {row : ParsedLogLine}
    (hsplit : splitLine (GoStrings.trimSpace line) = some (String.ofList s.text, event))
    (htime : s.time = some t)
    (hrow : parseOpenVpnLogLine now line = some row) : row.occurredAt = if s.isRead then t
    else now := by
  rw [parseOpenVpnLogLine, hsplit] at hrow
  dsimp only at hrow
  split_ifs at hrow
  obtain rfl := Option.some.inj hrow
  simp only [Option.map_some, Option.bind_some, readTimestamp_text s htime]
  split_ifs <;> rfl

/-- A line with a timestamp gives a row unless its event is one of the management interface. -/
theorem isSome_parse_iff {now : ℤ} {line ts event : String}
    (hsplit : splitLine (GoStrings.trimSpace line) = some (ts, event)) :
    (parseOpenVpnLogLine now line).isSome = true ↔ isManagement event = false := by
  have hne : GoStrings.trimSpace line ≠ "" := by
    intro hempty
    have hnone : splitLine "" = none := by decide
    rw [hempty, hnone] at hsplit
    cases hsplit
  rw [parseOpenVpnLogLine, hsplit]
  simp only [if_neg hne, Option.map_some, Option.getD_some]
  cases isManagement event <;> simp

/-- **The timestamps that are read**: the date of the row is that of the line at every time. -/
theorem occurredAt_iff {line event : String} {s : Stamp} {t : ℤ}
    (hsplit : splitLine (GoStrings.trimSpace line) = some (String.ofList s.text, event))
    (htime : s.time = some t) :
    (∀ now row, parseOpenVpnLogLine now line = some row → row.occurredAt = t) ↔
      s.isRead = true ∨ isManagement event = true := by
  constructor
  · intro h
    by_contra hnot
    rw [not_or, Bool.not_eq_true, Bool.not_eq_true] at hnot
    obtain ⟨row, hrow⟩ :=
      Option.isSome_iff_exists.1 ((@isSome_parse_iff (t + 1) _ _ _ hsplit).2 hnot.2)
    have hoccurred := occurredAt_eq hsplit htime hrow
    rw [h _ row hrow, hnot.1] at hoccurred
    simp at hoccurred
  · rintro hread now row hrow
    obtain hread | hmanagement := hread
    · rw [occurredAt_eq hsplit htime hrow, hread, if_pos rfl]
    · have hsome := (@isSome_parse_iff now _ _ _ hsplit).1 (by rw [hrow, Option.isSome_some])
      rw [hmanagement] at hsome
      cases hsome

/-- The row of a line has its text. -/
theorem rawLine_eq {now : ℤ} {line : String} {row : ParsedLogLine}
    (h : parseOpenVpnLogLine now line = some row) :
    row.rawLine = GoStrings.trimSpace line := by
  rw [parseOpenVpnLogLine] at h
  dsimp only at h
  split_ifs at h
  obtain rfl := Option.some.inj h
  rfl

section Runs

variable {sha1Hex : String → String} {table : List OpenvpnServerLog}

/-- **One line** keeps the dates. -/
theorem Dated.persistLine (h : Dated table) (nodeID : String) {reported : Reported}
    (hread : DateRead reported.line) :
    Dated (persistLine sha1Hex nodeID table reported) := by
  rw [LogLines.persistLine]
  cases hrow : parseOpenVpnLogLine reported.now reported.line with
  | none => exact h
  | some row =>
    dsimp only
    split_ifs
    · exact h
    · refine List.forall_mem_append.2 ⟨h, fun row' hrow' => ?_⟩
      obtain rfl := List.mem_singleton.1 hrow'
      rintro t ⟨event, s, hsplit, htime⟩
      rw [rawLine_eq hrow] at hsplit
      exact congrArg Timestamp.stamp
        ((occurredAt_iff hsplit htime).2
          (hread s event hsplit (by rw [htime]; rfl)) reported.now row hrow)

/-- **One run** keeps the dates. -/
theorem Dated.exec (h : Dated table) {op : Op}
    (hread : ∀ reported ∈ op.lines, DateRead reported.line) :
    Dated (exec sha1Hex table op) := by
  cases op with
  | persist nodeID lines =>
    rw [LogLines.exec, persistOpenvpnLogs]
    rw [Op.lines] at hread
    induction lines generalizing table with
    | nil => exact h
    | cons reported lines ih =>
      obtain ⟨hfirst, hrest⟩ := List.forall_mem_cons.1 hread
      exact ih (h.persistLine nodeID hfirst) hrest
  | cleanup retentionDays now executed =>
    cases executed with
    | true => exact fun row hrow => h row (Rows.mem_deleteWhere.1 hrow).1
    | false => exact h

/-- **Any runs** keep the dates. -/
theorem Dated.foldl_exec (h : Dated table) {ops : List Op}
    (hread : ∀ op ∈ ops, ∀ reported ∈ op.lines, DateRead reported.line) :
    Dated (ops.foldl (LogLines.exec sha1Hex) table) := by
  induction ops generalizing table with
  | nil => exact h
  | cons op ops ih =>
    obtain ⟨hop, hops⟩ := List.forall_mem_cons.1 hread
    exact ih (h.exec hop) hops

end Runs

/-- **Log lines.** Every accepted timestamp is a `Stamp`; a line has its own date at every time
exactly when its stamp is read or it has no row; and runs over such lines leave every row with the
date of its line. -/
theorem log_lines_iff (sha1Hex : String → String) :
    (∀ line ts event, splitLine (GoStrings.trimSpace line) = some (ts, event) →
      (∃ s : Stamp, ts = String.ofList s.text) ∧
      ∀ s : Stamp, ts = String.ofList s.text → ∀ t, s.time = some t →
        ((∀ now row, parseOpenVpnLogLine now line = some row → row.occurredAt = t) ↔
          s.isRead = true ∨ isManagement event = true)) ∧
    ∀ (table : List OpenvpnServerLog) (ops : List Op), Dated table →
      (∀ op ∈ ops, ∀ reported ∈ op.lines, DateRead reported.line) →
      Dated (ops.foldl (exec sha1Hex) table) := by
  refine ⟨fun line ts event hsplit => ⟨exists_stamp hsplit, ?_⟩,
    fun table ops h hread => h.foldl_exec hread⟩
  rintro s rfl t htime
  exact occurredAt_iff hsplit htime

/-- A timestamp with a `T` and a zone is read. -/
example : DateRead "2024-09-02T10:00:00Z up" :=
  have hsplit : splitLine (GoStrings.trimSpace "2024-09-02T10:00:00Z up") =
      some ("2024-09-02T10:00:00Z", "up") := by
    decide +kernel
  dateRead_of_readTimestamp hsplit (by decide)

/-- The second of September 2024 at ten, with a `T` and without a zone. -/
def unread : Iso where
  year := ⟨['2', '0', '2', '4'], rfl, by decide⟩
  month := ⟨['0', '9'], rfl, by decide⟩
  day := ⟨['0', '2'], rfl, by decide⟩
  t := true
  clock := ⟨⟨['1', '0'], rfl, by decide⟩, ⟨['0', '0'], rfl, by decide⟩,
    ⟨['0', '0'], rfl, by decide⟩⟩
  fraction := none
  zone := none

/-- A line with this timestamp gets the time at which it is parsed. -/
theorem redated :
    ¬∀ (line event : String) (s : Stamp) (t : ℤ),
      splitLine (GoStrings.trimSpace line) = some (String.ofList s.text, event) → s.time = some t →
      ∀ now row, parseOpenVpnLogLine now line = some row → row.occurredAt = t := by
  intro h
  have hsplit : splitLine (GoStrings.trimSpace "2024-09-02T10:00:00 up") =
      some (String.ofList unread.text, "up") := by
    decide +kernel
  have htime : unread.time = some 1725271200000000000 := by decide
  have hread := (occurredAt_iff (s := .iso unread) hsplit htime).1
    (h _ _ (.iso unread) _ hsplit htime)
  exact absurd hread (by decide)

end OpenvpnControl.Agent.LogLines
