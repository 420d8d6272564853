import NodeAgent.Text.Hex
/-!
# Percent escapes

A byte may be written as `%` and two hexadecimal digits. Those who write the failures of calls
escape everything that cannot stand in a header, but not the percent sign; so a percent sign that
happens to be followed by two digits is taken for an escape by those who read.
-/

namespace NodeAgent.Text.Percent

/-- The byte of an escape at the start of bytes. -/
def escape? : List UInt8 → Option UInt8
  | 37 :: a :: b :: _ => do
    let x ← Hex.digit? a
    let y ← Hex.digit? b
    some (UInt8.ofNat (16 * x + y))
  | _ => none

/-- The bytes with every escape replaced by its byte; the first `skip` bytes belong to an escape
already replaced. -/
def unescape (skip : Nat) : List UInt8 → List UInt8
  | [] => []
  | b :: bs =>
    if 0 < skip then unescape (skip - 1) bs
    else
      match escape? (b :: bs) with
      | some c => c :: unescape 2 bs
      | none => b :: unescape 0 bs

end NodeAgent.Text.Percent
