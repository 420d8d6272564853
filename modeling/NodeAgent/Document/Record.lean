import NodeAgent.Document
import NodeAgent.Certificate.Index
import NodeAgent.Permission
/-!
# Kept records as documents

The certificates of the index and the instances of the permission registry.
-/

namespace NodeAgent

open Document

/-- The bytes in a field of hexadecimal digits; none if they are no digits. -/
def Document.bytesAt (d : Document) (key : String) : Bytes :=
  (Text.Hex.decode (d.textAt key)).toOption.getD []

namespace CertRecord

/-- The certificate as a document that shows every field. -/
def toDocument (r : CertRecord) : Document :=
  fields [("cert_type", text r.certType), ("issuer", text (Text.Hex.encodeLower r.issuer)),
    ("serial", text r.serialHex), ("cert_url", text r.certUrl), ("key_url", text r.keyUrl),
    ("not_after", int r.notAfter)]

/-- The certificate a document describes. -/
def ofDocument (d : Document) : CertRecord :=
  ⟨d.textAt "cert_type", d.bytesAt "issuer", d.bytesAt "serial", d.textAt "cert_url",
    d.textAt "key_url", d.intAt "not_after"⟩

end CertRecord

/-- The certificate's place as a document. -/
def CertInfo.toDocument (i : CertInfo) : Document :=
  compact [("cert_type", text i.certType), ("key_url", text i.keyUrl), ("cert_url", text i.certUrl)]

namespace InstanceIdent

/-- The instance as a document. -/
def toDocument (i : InstanceIdent) : Document :=
  compact [("service_id", text i.serviceId), ("subject_id", text i.subjectId),
    ("instance", nat i.number)]

/-- The instance a document describes. -/
def ofDocument (d : Document) : InstanceIdent :=
  ⟨d.textAt "service_id", d.textAt "subject_id", d.natAt "instance"⟩

end InstanceIdent

/-- The permissions at one server as a document, in ascending order of what they are for. -/
def ServerPermissions.toDocument (ps : ServerPermissions) : Document :=
  fields ((ps.map fun p ↦ (p.1, text p.2)).mergeSort fun a b ↦ decide (a.1 ≤ b.1))

/-- The permissions at one server that a document describes. -/
def ServerPermissions.ofDocument (d : Document) : ServerPermissions :=
  d.entries.map fun e ↦ (e.1, e.2.asText)

end NodeAgent
