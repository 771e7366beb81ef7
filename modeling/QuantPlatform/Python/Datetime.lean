/-
Datetimes moved by a `timedelta`, and datetimes read from text.

A `timedelta` counts microseconds and its days are bounded; a datetime it is added
to has to stay within the years 1 to 9999.

In a text the date is a calendar or a week date, with or without hyphens; one
character of any kind separates it from the time, which is written with or without
colons and may end in an offset from UTC.
-/
import QuantPlatform.Python.Numerals
import QuantPlatform.Python.Raise

namespace QuantPlatform

namespace Instant

/-- `timedelta(seconds=s)`, in microseconds. -/
def timedelta (seconds : ℚ) : Except Exn Int :=
  let micros := roundHalfEven (seconds * 1000000)
  if 999999999 < (micros / microsecondsPerDay).natAbs then .error .overflowError else .ok micros

/-- `t + timedelta(seconds=s)`. -/
def plusSeconds (t : Instant) (seconds : ℚ) : Except Exn Instant := do
  let shifted := t + (← timedelta seconds)
  if shifted < datetimeMin ∨ datetimeMax < shifted then .error .overflowError else .ok shifted

/-- `t - timedelta(seconds=s)`: the delta is negated exactly. -/
def minusSeconds (t : Instant) (seconds : ℚ) : Except Exn Instant := do
  let shifted := t - (← timedelta seconds)
  if shifted < datetimeMin ∨ datetimeMax < shifted then .error .overflowError else .ok shifted

theorem timedelta_eq_ok {seconds : ℚ} {delta : Int} (h : timedelta seconds = .ok delta) :
    delta = roundHalfEven (seconds * 1000000) := by
  unfold timedelta at h
  dsimp only at h
  split_ifs at h
  exact (Except.ok.inj h).symm

theorem plusSeconds_eq_ok {t shifted : Instant} {seconds : ℚ}
    (h : t.plusSeconds seconds = .ok shifted) :
    shifted = t + roundHalfEven (seconds * 1000000) := by
  obtain ⟨delta, hdelta, h⟩ := Raise.bind_eq_ok_iff.mp h
  dsimp only at h
  split_ifs at h
  rw [← timedelta_eq_ok hdelta]
  exact (Except.ok.inj h).symm

theorem minusSeconds_eq_ok {t shifted : Instant} {seconds : ℚ}
    (h : t.minusSeconds seconds = .ok shifted) :
    shifted = t - roundHalfEven (seconds * 1000000) := by
  obtain ⟨delta, hdelta, h⟩ := Raise.bind_eq_ok_iff.mp h
  dsimp only at h
  split_ifs at h
  rw [← timedelta_eq_ok hdelta]
  exact (Except.ok.inj h).symm

/-- Whole seconds are added exactly. -/
theorem plusSeconds_intCast_eq_ok {t shifted : Instant} {seconds : Int}
    (h : t.plusSeconds seconds = .ok shifted) : shifted = t + seconds * 1000000 := by
  have hmicros : (seconds : ℚ) * 1000000 = ((seconds * 1000000 : Int) : ℚ) := by push_cast; rfl
  rw [plusSeconds_eq_ok h, hmicros, roundHalfEven_intCast]

/-- Before a difference rounded to microseconds is before the exact one. -/
theorem lt_of_lt_minusSeconds {t now shifted : Instant} {seconds : ℚ}
    (h : t.minusSeconds seconds = .ok shifted) (hlt : now < shifted) :
    (now : ℚ) < t - seconds * 1000000 := by
  have hround := lt_roundHalfEven_add_one (seconds * 1000000)
  have hle : now + 1 ≤ t - roundHalfEven (seconds * 1000000) := minusSeconds_eq_ok h ▸ hlt
  have hcast : ((now + 1 : Int) : ℚ) ≤ ((t - roundHalfEven (seconds * 1000000) : Int) : ℚ) :=
    Int.cast_le.mpr hle
  push_cast at hcast
  linarith

end Instant

/-- A datetime as it was written: its wall time, counted as if it were UTC, and
its offset from UTC, absent in a naive one; both in microseconds. -/
structure WrittenDatetime where
  wallTime : Int
  utcoffset : Option Int
  deriving DecidableEq, Repr

namespace Isoformat

def isAsciiDigit (c : Char) : Bool := 48 ≤ c.toNat && c.toNat ≤ 57

/-- The number that a text of decimal digits writes. -/
def readDigits (text : List Char) : Option Nat :=
  if text ≠ [] ∧ text.all isAsciiDigit then
    some (text.foldl (fun n c => 10 * n + (c.toNat - 48)) 0)
  else none

/-- `count` digits and the rest. -/
def takeNumber (count : Nat) (text : List Char) : Option (Nat × List Char) :=
  if text.length < count then none
  else (readDigits (text.take count)).map fun n => (n, text.drop count)

def isLeap (year : Nat) : Bool := year % 4 == 0 && (year % 100 != 0 || year % 400 == 0)

def daysInMonth (year month : Nat) : Nat :=
  if month = 2 then (if isLeap year then 29 else 28)
  else if month = 4 ∨ month = 6 ∨ month = 9 ∨ month = 11 then 30
  else 31

/-- Days from the epoch to a date, by eras of 400 years that begin in March. -/
def daysFromCivil (year month day : Nat) : Int :=
  let marchYear : Int := if month ≤ 2 then year - 1 else year
  let marchMonth : Int := (month + 9) % 12
  let yearOfEra := marchYear % 400
  let dayOfYear := (153 * marchMonth + 2) / 5 + day - 1
  marchYear / 400 * 146097 + yearOfEra * 365 + yearOfEra / 4 - yearOfEra / 100 + dayOfYear - 719468

def dateOf (year month day : Nat) : Option Int :=
  if 1 ≤ year ∧ 1 ≤ month ∧ month ≤ 12 ∧ 1 ≤ day ∧ day ≤ daysInMonth year month then
    some (daysFromCivil year month day)
  else none

/-- A day of a week of a year: week 1 is the one with the first Thursday. -/
def weekDateOf (year week day : Nat) : Option Int :=
  let firstDay := daysFromCivil year 1 1
  -- The epoch was a Thursday; Monday is 0.
  let firstWeekday := (firstDay + 3) % 7
  let firstMonday := firstDay - firstWeekday + if 3 < firstWeekday then 7 else 0
  let long : Bool := firstWeekday == 3 || (firstWeekday == 2 && isLeap year)
  let days := firstMonday + 7 * (week - 1) + (day - 1)
  if 1 ≤ year ∧ 1 ≤ week ∧ week ≤ (if long then 53 else 52) ∧ 1 ≤ day ∧ day ≤ 7 ∧
      days ≤ daysFromCivil 9999 12 31 then some days
  else none

/-- Where the date ends. -/
def separatorPosition (text : List Char) : Nat :=
  let digitAt := fun n => (text[n]?.map isAsciiDigit).getD false
  if text.length = 7 then 7
  else if text[4]? = some (Char.ofNat 45) then
    if text[5]? = some (Char.ofNat 87) then
      if text[8]? = some (Char.ofNat 45) then (if digitAt 10 then 8 else 10) else 8
    else 10
  else if text[4]? = some (Char.ofNat 87) then
    let pos := 7 + ((text.drop 7).takeWhile isAsciiDigit).length
    if pos < 9 then pos else if pos % 2 = 0 then 8 else 7
  else 8

def hyphen (hyphenated : Bool) (text : List Char) : Option (List Char) :=
  if hyphenated then
    match text with
    | c :: rest => if c = Char.ofNat 45 then some rest else none
    | [] => none
  else some text

def parseDate (text : List Char) : Option Int := do
  let (year, rest) ← takeNumber 4 text
  let hyphenated : Bool := rest.head? == some (Char.ofNat 45)
  let rest := if hyphenated then rest.drop 1 else rest
  if rest.head? = some (Char.ofNat 87) then
    let (week, rest) ← takeNumber 2 (rest.drop 1)
    if rest = [] then weekDateOf year week 1
    else
      let (day, rest) ← takeNumber 1 (← hyphen hyphenated rest)
      if rest = [] then weekDateOf year week day else none
  else
    let (month, rest) ← takeNumber 2 rest
    let (day, rest) ← takeNumber 2 (← hyphen hyphenated rest)
    if rest = [] then dateOf year month day else none

/-- The fraction after a full stop or comma, in microseconds; more digits are dropped. -/
def parseFraction (text : List Char) : Option Nat :=
  match text with
  | [] => some 0
  | c :: digits =>
      if c = Char.ofNat 46 ∨ c = Char.ofNat 44 then
        if digits.all isAsciiDigit then
          (readDigits (digits.take 6)).map fun n => n * 10 ^ (6 - (digits.take 6).length)
        else none
      else none

/-- `HH`, `HH:MM` or `HH:MM:SS` with a fraction, or the same without colons. -/
def parseClock (text : List Char) : Option (Nat × Nat × Nat × Nat) := do
  let (hour, rest) ← takeNumber 2 text
  let colons : Bool := rest.head? == some (Char.ofNat 58)
  let next := fun rest : List Char =>
    if colons then (if rest.head? = some (Char.ofNat 58) then some (rest.drop 1) else none)
    else some rest
  if rest = [] then some (hour, 0, 0, 0)
  else
    let (minute, rest) ← takeNumber 2 (← next rest)
    if rest = [] then some (hour, minute, 0, 0)
    else
      let (second, rest) ← takeNumber 2 (← next rest)
      (parseFraction rest).map fun micros => (hour, minute, second, micros)

def microsecondsOf (clock : Nat × Nat × Nat × Nat) : Int :=
  let (hour, minute, second, micros) := clock
  ((hour * 3600 + minute * 60 + second : Nat) : Int) * 1000000 + micros

/-- An offset from UTC is less than a day. -/
def parseOffset (negative : Bool) (text : List Char) : Option Int := do
  let offset := microsecondsOf (← parseClock text)
  if offset < Instant.microsecondsPerDay then some (if negative then -offset else offset) else none

def parseTime (text : List Char) : Option (Int × Option Int) := do
  let zoneMark := fun c : Char => c = Char.ofNat 45 ∨ c = Char.ofNat 43 ∨ c = Char.ofNat 90
  let (hour, minute, second, micros) ← parseClock (text.takeWhile fun c => !decide (zoneMark c))
  let wallTime := microsecondsOf (hour, minute, second, micros)
  if 23 < hour ∨ 59 < minute ∨ 59 < second then none
  else
    match text.dropWhile fun c => !decide (zoneMark c) with
    | [] => some (wallTime, none)
    | mark :: zone =>
        if mark = Char.ofNat 90 then (if zone = [] then some (wallTime, some 0) else none)
        else (parseOffset (mark = Char.ofNat 45) zone).map fun offset => (wallTime, some offset)

end Isoformat

open Isoformat in
/-- `datetime.fromisoformat(s)`, or nothing when it raises `ValueError`. -/
def fromisoformat (s : String) : Option WrittenDatetime := do
  let text := s.toList
  if text.length < 7 then none
  else
    let position := separatorPosition text
    let days ← parseDate (text.take position)
    let midnight := days * Instant.microsecondsPerDay
    match text.drop (position + 1) with
    | [] => some ⟨midnight, none⟩
    | time =>
        let (ofDay, utcoffset) ← parseTime time
        some ⟨midnight + ofDay, utcoffset⟩

/-- The instant of an aware datetime. -/
def WrittenDatetime.instant (written : WrittenDatetime) : Option Instant :=
  written.utcoffset.map fun offset => written.wallTime - offset

example : (fromisoformat "2024-02-29T21:34:56.000001+09:00").bind WrittenDatetime.instant =
    some 1709210096000001 := by decide
example : fromisoformat "2020W537 0930Z" = fromisoformat "2021-01-03T09:30:00+00:00" := by decide
example : fromisoformat "2023-02-29" = none := by decide

end QuantPlatform
