import NodeAgent.Certificate.Key
import NodeAgent.Certificate.X509
import NodeAgent.Tls.Identity
/-!
# Identities that can be put to use

An identity is put together from texts that hold blocks of the right sort, and nothing more is asked
of them then. Whoever serves with it needs more: the first certificate has to be a well-formed one
of the form with extensions, and the key has to be the one whose public part is in it. An authority
that is to vouch for peers has to be a certificate too.
-/

namespace NodeAgent

open Text

/-- The blocks of a text with one of some labels. -/
def blocksOf (labels : List String) (text : String) : List Armour :=
  ((Armour.parseAll text).toOption.getD []).filter fun b ↦ labels.contains b.label

/-- The label of certificates. -/
def certificateLabel : String := "CERTIFICATE"

/-- The label of keys in the form that says their sort. -/
def keyLabel : String := "PRIVATE KEY"

/-- The labels of keys that can be read. -/
def keyLabels : List String := [keyLabel, "EC PRIVATE KEY", "RSA PRIVATE KEY"]

/-- The first certificate in a text, if it is well formed. -/
def firstCertificate? (text : String) : Option Certificate :=
  (blocksOf [certificateLabel] text).head?.bind fun b ↦ Certificate.ofBytes? b.data

/-- The first key in a text, if it is well formed. -/
def firstKey? (text : String) : Option PrivateKey :=
  (blocksOf keyLabels text).head?.bind fun b ↦
    if b.label = keyLabel then PrivateKey.ofBytes? b.data else PrivateKey.ofPlain? b.label b.data

namespace ServerTls

/-- Whether the key is the one of the certificate. -/
def isPaired (t : ServerTls) : Bool :=
  match firstCertificate? t.cert, firstKey? t.key with
  | some c, some k => c.isThirdVersion && c.publicKey == k.publicBytes
  | _, _ => false

/-- Whether somebody can vouch for peers, if that is asked for. -/
def hasAuthority (t : ServerTls) : Bool :=
  t.clientCa.all fun ca ↦
    (blocksOf [certificateLabel] ca).any fun b ↦ (Certificate.ofBytes? b.data).isSome

/-- Whether a listener can serve with the identity. -/
def isUsable (t : ServerTls) : Bool := t.isPaired && t.hasAuthority

end ServerTls

end NodeAgent
