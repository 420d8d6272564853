import NodeAgent.Certificate.Vault
import NodeAgent.Document.Record
/-!
# Requests for certificates as documents

A request is shown by what it asks for, and not by its bytes, which no two requests share.
-/

namespace NodeAgent

open Document

/-- What the request asks for, as a document. -/
def CertRequest.toDocument (r : CertRequest) : Document :=
  fields [("label", Document.text label), ("cn", texts [r.subject]),
    ("san", texts r.alternativeNames), ("eku", texts (r.usages.map (·.name)))]

/-- A request as a document; any other text as it is. -/
def Document.request (s : String) : Document :=
  match CertRequest.ofText? s with
  | some r => r.1.toDocument
  | none => text s

/-- The document with what its requests ask for in their place. -/
def Document.withRequests : Document → Document
  | fields es => fields (es.map fun e ↦ match e.2 with
    | text s => (e.1, if e.1 = "csr" then request s else text s)
    | d => (e.1, d))
  | d => d

/-- The result with what the requests in its value ask for in their place. -/
def Document.resultWithRequests : Document → Document
  | fields [("ok", d)] => fields [("ok", d.withRequests)]
  | d => d

/-- The certificate that was installed, as a document. -/
def AppliedCert.toDocument (a : AppliedCert) : Document :=
  fields [("cert_url", text a.certUrl), ("serial", text a.serial)]

end NodeAgent
