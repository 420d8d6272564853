import NodeAgent.Text.Blank
/-!
# Listener addresses

A listener's address may be written with blanks around it, and `:port` means that port on every
interface. The normal form of an address is a fixed point of normalisation, so it does not matter
how often an address is normalised.
-/

namespace NodeAgent

namespace Address

/-- Why there is no listener address. -/
def emptyMessage : String := "invalid address: address is empty"

/-- The normal form of a listener address; `none` if there is nothing but blanks. -/
def correct? (addr : String) : Option String :=
  match Text.trimBlanks addr.toList with
  | [] => none
  | ':' :: rest => some (String.ofList ("0.0.0.0".toList ++ ':' :: rest))
  | cs => some (String.ofList cs)

end Address

end NodeAgent
