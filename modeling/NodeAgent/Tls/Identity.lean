import NodeAgent.Text.Armour
/-!
# Identities for secured connections

A listener proves who it is with a certificate and its key, and may ask its peers to do the same. A
node that dials trusts one authority and may carry an identity of its own. Whoever puts an identity
together finds out at once whether the texts hold blocks of the right sort; whether certificate and
key belong together is found out only when the identity is put to use.
-/

namespace NodeAgent

/-- Why an identity cannot be put together. -/
inductive IdentityError where
  /-- A file cannot be read. -/
  | unreadable (path reason : String)
  | badCertificate (what : String)
  | badKey (what : String)
deriving DecidableEq

namespace IdentityError

/-- The wording of the failure. -/
def message : IdentityError → String
  | unreadable path reason => "failed to read " ++ path ++ ": " ++ reason
  | badCertificate what => "certificate parsing error: " ++ what
  | badKey what => "key parsing error: " ++ what

end IdentityError

open Text

/-- Fails unless a text holds a certificate and nothing unreadable. -/
def checkCertificates (text : String) : Except IdentityError Unit :=
  match Armour.parseAll text with
  | .error e => .error (.badCertificate e.message)
  | .ok blocks =>
    if blocks.any (·.label == "CERTIFICATE") then .ok ()
    else .error (.badCertificate "no CERTIFICATE block found")

/-- Fails unless the first block of a text is a private key. -/
def checkKey (text : String) : Except IdentityError Unit :=
  match Armour.parse text with
  | .error e => .error (.badKey e.message)
  | .ok block =>
    if "PRIVATE KEY".toList.isSuffixOf block.label.toList then .ok ()
    else .error (.badKey ("unexpected PEM block " ++ block.label))

/-- The identity of a listener. -/
structure ServerTls where
  cert : String
  key : String
  /-- The authority that vouches for peers; without one, peers need not prove who they are. -/
  clientCa : Option String
deriving DecidableEq, Inhabited

namespace ServerTls

/-- Puts an identity together. -/
def new (cert key : String) (clientCa : Option String) : Except IdentityError ServerTls := do
  checkCertificates cert
  checkKey key
  match clientCa with
  | some ca => checkCertificates ca
  | none => pure ()
  return ⟨cert, key, clientCa⟩

/-- Whether peers have to prove who they are. -/
def isMutual (t : ServerTls) : Bool := t.clientCa.isSome

end ServerTls

/-- What a node dials with. -/
structure ClientTls where
  ca : String
  /-- The certificate and the key of the node. -/
  identity : Option (String × String) := none
  /-- The name to expect of the peer, where it is not the one that was dialled. -/
  domain : Option String := none
deriving DecidableEq, Inhabited

namespace ClientTls

/-- Trusts an authority. -/
def new (ca : String) : Except IdentityError ClientTls := do
  checkCertificates ca
  return { ca }

/-- Takes an identity along. -/
def withIdentity (t : ClientTls) (cert key : String) : Except IdentityError ClientTls := do
  checkCertificates cert
  checkKey key
  return { t with identity := some (cert, key) }

end ClientTls

end NodeAgent
