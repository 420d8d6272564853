/-!
# Durations

A span of time is a whole number of nanoseconds. Messages show it in the largest of the four
units seconds, milliseconds, microseconds and nanoseconds that it reaches, with the fraction
written out exactly and its trailing zeros left off, so that `1500` nanoseconds read `1.5µs` and a
minute reads `60s`.
-/

namespace NodeAgent

/-- A span of time in nanoseconds. -/
structure Duration where
  /-- The length in nanoseconds. -/
  nanos : Nat
deriving DecidableEq, Inhabited

/-- A point of the agent's clock, in nanoseconds since the clock's origin. -/
abbrev Instant := Nat

namespace Duration

/-- A whole number of seconds. -/
def ofSeconds (n : Nat) : Duration := ⟨n * 1000000000⟩

/-- A whole number of milliseconds. -/
def ofMillis (n : Nat) : Duration := ⟨n * 1000000⟩

/-- The whole seconds of the span. -/
def wholeSeconds (d : Duration) : Nat := d.nanos / 1000000000

/-- The nanoseconds beyond the whole seconds. -/
def subsecNanos (d : Duration) : Nat := d.nanos % 1000000000

/-- `n` as exactly `width` decimal digits. -/
private def digitsOf (width n : Nat) : List Char :=
  let ds := (toString n).toList
  List.replicate (width - ds.length) '0' ++ ds

/-- The fraction `part / 10 ^ width` after its point, without trailing zeros; nothing for zero. -/
private def fraction (width part : Nat) : List Char :=
  if part = 0 then []
  else '.' :: ((digitsOf width part).reverse.dropWhile (· == '0')).reverse

/-- `n` units of `10 ^ width` nanoseconds each, to the last nanosecond. -/
private def inUnit (width n : Nat) (unit : String) : String :=
  toString (n / Nat.pow 10 width) ++ String.ofList (fraction width (n % Nat.pow 10 width)) ++ unit

/-- The span in the largest unit it reaches. -/
def text (d : Duration) : String :=
  if 1000000000 ≤ d.nanos then inUnit 9 d.nanos "s"
  else if 1000000 ≤ d.nanos then inUnit 6 d.nanos "ms"
  else if 1000 ≤ d.nanos then inUnit 3 d.nanos "µs"
  else inUnit 0 d.nanos "ns"

end Duration

end NodeAgent
