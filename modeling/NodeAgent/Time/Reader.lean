import NodeAgent.Text.Blank
import NodeAgent.Time.Duration
/-!
# Reading durations

A duration is written as one or more amounts, each a number and a unit, such as `1m 30s`. A number
may have a fraction, but only one that comes out exactly: in whole nanoseconds for units up to a
minute, in whole seconds for longer ones. Blanks may stand between amounts and anywhere in a number.

Reading has two halves that know nothing of each other: `split?` cuts the text into amounts, and
`Amount.addTo?` says how long one is. Numbers are bounded at every step by `bounded?`, so that a
text of any length stands for a duration that fits the clock or for none.
-/

namespace NodeAgent.Duration

/-- A number, unless it takes more than 64 bits. -/
def bounded? (n : Nat) : Option Nat := if n < Nat.pow 2 64 then some n else none

/-! ## Amounts -/

/-- A number with a unit. The fraction is one of natural numbers. -/
structure Amount where
  whole : Nat
  fraction : Option (Nat × Nat)
  unit : List Char

/-- What a unit is counted in. -/
inductive Scale where
  /-- So many nanoseconds. -/
  | nanoseconds (n : Nat)
  /-- So many seconds. A fraction must come out in whole nanoseconds if `fine`, else in whole
  seconds. -/
  | seconds (n : Nat) (fine : Bool)

/-- The scale of a unit. -/
def scale? (unit : String) : Option Scale :=
  if ["nanos", "nsec", "ns"].contains unit then some (.nanoseconds 1)
  else if ["usec", "us", "µs"].contains unit then some (.nanoseconds 1000)
  else if ["millis", "msec", "ms"].contains unit then some (.nanoseconds 1000000)
  else if ["seconds", "second", "secs", "sec", "s"].contains unit then some (.seconds 1 true)
  else if ["minutes", "minute", "min", "mins", "m"].contains unit then some (.seconds 60 true)
  else if ["hours", "hour", "hrs", "hr", "h"].contains unit then some (.seconds 3600 false)
  else if ["days", "day", "d"].contains unit then some (.seconds 86400 false)
  else if ["weeks", "week", "wk", "wks", "w"].contains unit then some (.seconds 604800 false)
  else if ["months", "month", "M"].contains unit then some (.seconds 2630016 false)
  else if ["years", "year", "yr", "yrs", "y"].contains unit then some (.seconds 31557600 false)
  else none

/-- A fraction of a scale that comes out exactly. -/
def part? (fraction : Nat × Nat) (scale : Nat) : Option Nat := do
  let n ← bounded? (fraction.1 * scale)
  if n % fraction.2 = 0 then some (n / fraction.2) else none

/-- The duration with seconds and nanoseconds added. -/
def plus? (d : Duration) (seconds nanos : Nat) : Option Duration := do
  let _ ← bounded? (d.subsecNanos + nanos)
  let total := d.nanos + (ofSeconds seconds).nanos + nanos
  let _ ← bounded? (total / 1000000000)
  return ⟨total⟩

/-- The duration with an amount added. -/
def Amount.addTo? (a : Amount) (d : Duration) : Option Duration := do
  match ← scale? (String.ofList a.unit) with
  | .nanoseconds n =>
    let d ← d.plus? 0 (← bounded? (a.whole * n))
    match a.fraction with
    | none => d
    | some f => if n = 1 then none else d.plus? 0 (← part? f n)
  | .seconds n fine =>
    let d ← d.plus? (← bounded? (a.whole * n)) 0
    match a.fraction with
    | none => d
    | some f =>
      if fine then d.plus? 0 (← part? f (n * 1000000000)) else d.plus? (← part? f n) 0

/-! ## Cutting a text into amounts -/

/-- Whether a character may be part of a unit. -/
def isUnitChar (c : Char) : Bool := c.isAlpha || c == 'µ'

/-- The number of digits, unless it is too large. -/
def number? (ds : List Char) : Option Nat :=
  ds.foldl (fun n c ↦ do bounded? ((← n) * 10 + (c.toNat - 48))) (some 0)

/-- Whether a character may be part of a number. -/
def isNumberChar (c : Char) : Bool := c.isDigit || Text.isBlank c

/-- The digits among the leading characters of a number, and what comes after it. -/
def digits (cs : List Char) : List Char × List Char :=
  ((cs.takeWhile isNumberChar).filter Char.isDigit, cs.dropWhile isNumberChar)

/-- The fraction with the given digits after its point. -/
def fraction? (ds : List Char) : Option (Nat × Nat) := do
  if ds = [] then none
  else return (← number? ds, ← bounded? (Nat.pow 10 ds.length))

/-- Cuts the text into amounts. Each starts with a digit, and each has a unit. -/
def split? : (fuel : Nat) → List Char → Option (List Amount)
  | 0, _ => none
  | fuel + 1, cs => do
    let (ds, rest) := digits cs
    let whole ← number? ds
    let (fraction, rest) ← match rest with
      | '.' :: rest =>
        let (ds, rest) := digits rest
        (fraction? ds).map fun f ↦ (some f, rest)
      | rest => some (none, rest)
    let amount : Amount := ⟨whole, fraction, rest.takeWhile isUnitChar⟩
    match rest.dropWhile isUnitChar with
    | [] => return [amount]
    | c :: rest =>
      if c.isDigit then return amount :: (← split? fuel (c :: rest))
      else if Text.isBlank c then
        match rest.dropWhile Text.isBlank with
        | [] => return [amount]
        | c :: rest => if c.isDigit then return amount :: (← split? fuel (c :: rest)) else none
      else none

/-- The duration that a text stands for. A lone zero needs no unit. -/
def ofText? (s : String) : Option Duration :=
  if s = "0" then some ⟨0⟩
  else
    match s.toList.dropWhile Text.isBlank with
    | [] => none
    | c :: cs =>
      if c.isDigit then
        (split? (cs.length + 1) (c :: cs)).bind fun as ↦
          as.foldl (fun d a ↦ d.bind a.addTo?) (some ⟨0⟩)
      else none

end NodeAgent.Duration
