import NodeAgent.Certificate.Request
/-!
# An authority

Somebody has to answer requests for certificates. This authority certifies whatever it is asked to,
under a serial number and up to a time that it is told; it serves to rehearse the installation of
certificates.
-/

namespace NodeAgent.Authority

/-- The name of the authority. -/
def name : String := "CA"

/-- The key of the authority. -/
def key : PrivateKey := .new 2718281828

/-- The beginning of every certificate's life: that of the year 2020. -/
def notBefore : Int := 1577836800

/-- The certificate for a public key with its sort. -/
def certificateBytes (subject : String) (publicInfo serial : Bytes) (notAfter : Int) (drawn : Nat) :
    Bytes :=
  let signed := Der.sequence
    [Der.write (.part 0 true) (Der.natural 2), Der.natural (Bytes.toNat serial),
      CertRequest.signatureAlgorithm, CertRequest.plainName name,
      Der.sequence [Der.time notBefore, Der.time notAfter],
      CertRequest.plainName subject, publicInfo]
  Der.sequence
    [signed, CertRequest.signatureAlgorithm, Der.bits (CertRequest.signature key drawn signed)]

/-- Answers the request in a text. -/
def certify? (request : String) (serial : Bytes) (notAfter : Int) (drawn : Nat) : Option String :=
  (CertRequest.ofText? request).map fun r ↦
    Text.Armour.render ⟨"CERTIFICATE", certificateBytes r.1.subject r.2 serial notAfter drawn⟩

end NodeAgent.Authority
