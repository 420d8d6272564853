import NodeAgent.Server.Lifecycle
/-!
# The network of one host

The addresses a host can bind are its own: a host part and a port number, with port zero for any
free port. Two listeners cannot have the same port, unless it is zero.
-/

namespace NodeAgent.Host

/-- The number of a port, written in decimal digits, with or without a plus sign. -/
def port? (cs : List Char) : Option Nat :=
  let ds := match cs with
    | '+' :: ds => ds
    | ds => ds
  if ds ≠ [] ∧ ds.all Char.isDigit then
    let n := ds.foldl (fun n c ↦ 10 * n + (c.toNat - 48)) 0
    if n < 65536 then some n else none
  else none

/-- The port part of an address, which follows its last colon. -/
def portPart? (cs : List Char) : Option (List Char) :=
  if ':' ∈ cs then some (cs.reverse.takeWhile (· ≠ ':')).reverse else none

/-- Binds an address. -/
def bind (held : List String) (addr : String) : Except String String :=
  match portPart? addr.toList with
  | none => .error "invalid socket address"
  | some ds =>
    match port? ds with
    | none => .error "invalid port value"
    | some 0 => .ok addr
    | some _ =>
      if held.contains addr then .error "Address already in use (os error 98)" else .ok addr

end NodeAgent.Host
