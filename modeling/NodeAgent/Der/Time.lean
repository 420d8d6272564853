import NodeAgent.Der.Basic
import NodeAgent.Text.Natural
/-!
# Dates and times

A time is written in decimal digits, from the year down to the second, followed by a `Z`. Its year
has two digits, which stand for a year from 1950 to 2049, or four. Inside this library a time is the
number of seconds since the beginning of 1970.
-/

namespace NodeAgent.Der

/-- A day of the calendar. -/
structure Day where
  year : Nat
  month : Nat
  day : Nat
deriving DecidableEq

namespace Day

/-- The days from the first of March of year zero to the beginning of 1970. -/
def epoch : Int := 719468

/-- The days from the first of March to the first of the `n`-th month after it. -/
def monthStart (n : Nat) : Nat := (153 * n + 2) / 5

/-- The days since the beginning of 1970. Years are counted from March on, so that a leap day is
the last one of its year. -/
def number (d : Day) : Int :=
  let y := if d.month ≤ 2 then d.year - 1 else d.year
  let m := (d.month + 9) % 12
  365 * y + y / 4 - y / 100 + y / 400 + monthStart m + d.day - 1 - epoch

/-- The day of a number of days since the beginning of 1970. -/
def ofNumber (n : Int) : Day :=
  let days := (n + epoch).toNat
  let inEra := days % 146097
  let y := (inEra - inEra / 1460 + inEra / 36524 - inEra / 146096) / 365
  let inYear := inEra - (365 * y + y / 4 - y / 100)
  let m := (5 * inYear + 2) / 153
  let month := if m < 10 then m + 3 else m - 9
  ⟨400 * (days / 146097) + y + (if month ≤ 2 then 1 else 0), month, inYear - monthStart m + 1⟩

/-- Whether the calendar has the day. -/
def isValid (d : Day) : Bool :=
  1 ≤ d.month && d.month ≤ 12 && 1 ≤ d.day && ofNumber d.number = d

example : number ⟨1970, 1, 1⟩ = 0 ∧ number ⟨2000, 2, 29⟩ = 11016 := by decide

example : ofNumber 11016 = ⟨2000, 2, 29⟩ ∧ isValid ⟨2001, 2, 29⟩ = false := by decide

end Day

/-! ## Times -/

/-- Two digits as a number. -/
def twoDigits? (a b : UInt8) : Option Nat :=
  let isDigit (c : UInt8) := 48 ≤ c && c ≤ 57
  if isDigit a && isDigit b then some (10 * (a.toNat - 48) + (b.toNat - 48)) else none

/-- A number below 100 as two digits. -/
def twoDigits (n : Nat) : Bytes := [UInt8.ofNat (48 + n / 10 % 10), UInt8.ofNat (48 + n % 10)]

/-- The time in a year that digits tell. -/
def timeIn? (year : Nat) (digits : Bytes) : Option Int :=
  match digits with
  | [a, b, c, d, e, f, g, h, i, j, 0x5a] => do
    let day : Day := ⟨year, ← twoDigits? a b, ← twoDigits? c d⟩
    let hour ← twoDigits? e f
    let minute ← twoDigits? g h
    let second ← twoDigits? i j
    if day.isValid && hour < 24 && minute < 60 && second < 60 then
      some (86400 * day.number + (3600 * hour + 60 * minute + second : Nat))
    else none
  | _ => none

/-- The time of a value. -/
def time? (tag : Tag) (content : Bytes) : Option Int :=
  if tag = .shortTime then
    match content with
    | a :: b :: rest => do
      let y ← twoDigits? a b
      timeIn? (if y < 50 then 2000 + y else 1900 + y) rest
    | _ => none
  else if tag = .longTime then
    match content with
    | a :: b :: c :: d :: rest => do timeIn? (100 * (← twoDigits? a b) + (← twoDigits? c d)) rest
    | _ => none
  else none

/-- Reads a time. -/
def Reader.time : Reader Int := do
  let (tag, content) ← any
  match time? tag content with
  | some t => return t
  | none => failure

/-- A time, with a year of two digits if they are enough. -/
def time (t : Int) : Bytes :=
  let day := Day.ofNumber (t / 86400)
  let inDay := (t % 86400).toNat
  let rest :=
    [day.month, day.day, inDay / 3600, inDay / 60 % 60, inDay % 60].flatMap twoDigits ++ [0x5a]
  if 1950 ≤ day.year ∧ day.year < 2050 then write .shortTime (twoDigits (day.year % 100) ++ rest)
  else write .longTime (twoDigits (day.year / 100) ++ twoDigits (day.year % 100) ++ rest)

end NodeAgent.Der
