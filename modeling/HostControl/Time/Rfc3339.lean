/-
Module: HostControl.Time.Rfc3339
Purpose: Dates of the Gregorian calendar, and instants written and read as RFC 3339 texts.
Main exports: CivilDate, CivilDate.ofDays, CivilDate.toDays, Rfc3339.render, Rfc3339.zulu,
  Rfc3339.offsetZero, Rfc3339.read?
-/
import HostControl.Text.Numeral
import HostControl.Time.Instant

namespace HostControl

/-- A day of the proleptic Gregorian calendar; the year before 1 is 0. -/
structure CivilDate where
  year : Int
  month : Nat
  day : Nat
deriving DecidableEq, Repr

namespace CivilDate

/-- The date that lies the given days after 1970-01-01. Years are counted from March on, so that a
leap day is the last one of its year, in eras of 400 years. -/
def ofDays (days : Int) : CivilDate :=
  let z := days + 719468
  let era := z / 146097
  let dayOfEra := (z % 146097).toNat
  let yearOfEra := (dayOfEra - dayOfEra / 1460 + dayOfEra / 36524 - dayOfEra / 146096) / 365
  let dayOfYear := dayOfEra - (365 * yearOfEra + yearOfEra / 4 - yearOfEra / 100)
  let shifted := (5 * dayOfYear + 2) / 153
  let day := dayOfYear - (153 * shifted + 2) / 5 + 1
  let month := if shifted < 10 then shifted + 3 else shifted - 9
  let year := (yearOfEra : Int) + era * 400 + (if month ≤ 2 then 1 else 0)
  { year, month, day }

/-- The days from 1970-01-01 to the date. -/
def toDays (d : CivilDate) : Int :=
  let y := if d.month ≤ 2 then d.year - 1 else d.year
  let era := y / 400
  let yearOfEra := y % 400
  let shifted : Int := if d.month > 2 then d.month - 3 else d.month + 9
  let dayOfYear := (153 * shifted + 2) / 5 + d.day - 1
  let dayOfEra := yearOfEra * 365 + yearOfEra / 4 - yearOfEra / 100 + dayOfYear
  era * 146097 + dayOfEra - 719468

def isLeapYear (year : Int) : Bool :=
  year % 4 == 0 && (year % 100 != 0 || year % 400 == 0)

def daysInMonth (year : Int) (month : Nat) : Nat :=
  if month == 2 then (if isLeapYear year then 29 else 28)
  else if month == 4 || month == 6 || month == 9 || month == 11 then 30
  else 31

/-- Whether the calendar has such a day. -/
def exists? (d : CivilDate) : Bool :=
  1 ≤ d.month && d.month ≤ 12 && 1 ≤ d.day && d.day ≤ daysInMonth d.year d.month

end CivilDate

namespace Rfc3339

open Text

/-- Years from 0 to 9999 take four digits; all others a sign and at least four digits. -/
def renderYear (year : Int) : List Char :=
  if 0 ≤ year ∧ year ≤ 9999 then padded 4 year.toNat
  else (if year < 0 then '-' else '+') :: padded 4 year.natAbs

/-- The fraction of a second with none, three, six or nine digits: the fewest that are exact. -/
def renderFraction (nanos : Nat) : List Char :=
  if nanos == 0 then []
  else if nanos % 1000000 == 0 then '.' :: padded 3 (nanos / 1000000)
  else if nanos % 1000 == 0 then '.' :: padded 6 (nanos / 1000)
  else '.' :: padded 9 nanos

def renderDate (date : CivilDate) : List Char :=
  renderYear date.year ++ '-' :: padded 2 date.month ++ '-' :: padded 2 date.day

/-- The day of an instant in UTC. -/
def dateOf (t : Instant) : CivilDate := CivilDate.ofDays (t.seconds / 86400)

/-- The instant in UTC, followed by the given spelling of the zone. A leap second is written as
second 60. -/
def render (zone : List Char) (t : Instant) : List Char :=
  let ofDay := (t.seconds % 86400).toNat
  let leap := Span.second ≤ t.nanos
  let second := if leap then ofDay % 60 + 1 else ofDay % 60
  let nanos := if leap then t.nanos - Span.second else t.nanos
  renderDate (dateOf t) ++
    'T' :: padded 2 (ofDay / 3600) ++ ':' :: padded 2 (ofDay / 60 % 60) ++
    ':' :: padded 2 second ++ renderFraction nanos ++ zone

/-- The form with the zone letter, such as `2026-09-21T14:13:20Z`. -/
def zulu (t : Instant) : String := String.ofList (render ['Z'] t)

/-- The form with a numeric offset, such as `2026-09-21T14:13:20+00:00`. -/
def offsetZero (t : Instant) : String := String.ofList (render ['+', '0', '0', ':', '0', '0'] t)

/-! ### Reading -/

/-- A reader takes a value off the front of a text. -/
abbrev Reader (α : Type) := List Char → Option (α × List Char)

/-- Exactly `n` decimal digits. -/
def digits (n : Nat) : Reader Nat := fun cs =>
  if cs.length < n then none
  else (readNumeral? 10 (cs.take n)).map (·, cs.drop n)

/-- One given character. -/
def symbol (c : Char) : Reader Unit
  | [] => none
  | d :: rest => if d == c then some ((), rest) else none

/-- An optional fraction, in nanoseconds. It has at least one digit, and those from the tenth on do
not count. -/
def fraction : Reader Nat
  | '.' :: rest =>
    let (ds, after) := spanDigits 10 rest
    if ds.isEmpty then none
    else some (ofDigits 10 ((ds ++ List.replicate 9 0).take 9), after)
  | cs => some (0, cs)

/-- The offset of a zone, in seconds: the letter Z, or a sign, hours, a colon and minutes. The minus
sign U+2212 counts as one. An offset stays below a day. -/
def offset (cs : List Char) : Option (Int × List Char) := do
  match cs with
  | 'z' :: rest | 'Z' :: rest => some (0, rest)
  | sign :: rest =>
    guard (sign == '+' || sign == '-' || sign == '\u2212')
    let (hours, rest) ← digits 2 rest
    let ((), rest) ← symbol ':' rest
    let (minutes, rest) ← digits 2 rest
    guard (hours ≤ 23 && minutes ≤ 59)
    let value : Int := (hours * 3600 + minutes * 60 : Nat)
    some (if sign == '+' then value else -value, rest)
  | [] => none

/-- A date, a separator, a time of day and an offset, with nothing around them. The separator is a
letter T of either case or a space; second 60 names a leap second. -/
def readChars? (cs : List Char) : Option Instant := do
  let (year, cs) ← digits 4 cs
  let ((), cs) ← symbol '-' cs
  let (month, cs) ← digits 2 cs
  let ((), cs) ← symbol '-' cs
  let (day, cs) ← digits 2 cs
  let cs ← match cs with
    | 'T' :: rest | 't' :: rest | ' ' :: rest => some rest
    | _ => none
  let (hour, cs) ← digits 2 cs
  let ((), cs) ← symbol ':' cs
  let (minute, cs) ← digits 2 cs
  let ((), cs) ← symbol ':' cs
  let (second, cs) ← digits 2 cs
  let (nanos, cs) ← fraction cs
  let (offset, cs) ← offset cs
  guard cs.isEmpty
  let date : CivilDate := ⟨year, month, day⟩
  guard (date.exists? && hour ≤ 23 && minute ≤ 59 && second ≤ 60)
  let leap := second == 60
  let ofDay : Int := (hour * 3600 + minute * 60 + (if leap then 59 else second) : Nat)
  let seconds := date.toDays * 86400 + ofDay - offset
  let fraction := if leap then nanos + Span.second else nanos
  if h : fraction < 2 * Span.second then some ⟨seconds, fraction, h⟩ else none

/-- The instant that an RFC 3339 text names. -/
def read? (s : String) : Option Instant := readChars? s.toList

end Rfc3339

end HostControl
