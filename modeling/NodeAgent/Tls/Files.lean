import NodeAgent.Certificate.Index
import NodeAgent.Disk.Basic
import NodeAgent.Server.Lifecycle
/-!
# Identities in files

A node's identity is one of its certificates, of a type of its own: the newest one counts. Its
certificate and its key are in files, and so is the authority that the node trusts, where it has
one. Without an authority the node asks no peer to prove who it is, and dials without an identity.
-/

namespace NodeAgent

/-- The type of the certificates that are a node's identity. -/
def identityCertType : String := "iam"

/-- What a node dials the main node's listeners with. -/
structure DialTls where
  publicTls : Option ClientTls := none
  protectedTls : Option ClientTls := none
deriving DecidableEq, Inhabited

/-- The files of an identity. -/
structure TlsFiles where
  cert : Path
  key : Path
  ca : Option Path
deriving DecidableEq

namespace TlsFiles

/-- The files of a certificate that is kept in files. -/
def ofCert? (info : CertInfo) (ca : Option Path) : Option TlsFiles := do
  let cert ← fileOfUrl? info.certUrl
  let key ← fileOfUrl? info.keyUrl
  return ⟨cert, key, ca⟩

/-- The files of the newest identity, if there is one in files. -/
def newest? (index : CertIndex) (ca : Option Path) : Option TlsFiles :=
  ((index.get identityCertType [] []).toOption).bind fun info ↦ ofCert? info ca

/-- The text in a file of an identity. -/
def readText (d : Disk) (p : Path) : Except IdentityError String :=
  (d.readText p).mapError fun e ↦ .unreadable p e.message

variable (files : TlsFiles) (d : Disk)

/-- The identity of a listener. One that is `mutual` has its peers prove who they are. -/
def server (mutualTls : Bool) : Except IdentityError ServerTls := do
  let cert ← readText d files.cert
  let key ← readText d files.key
  let ca ← match files.ca with
    | some p => if mutualTls then some <$> readText d p else pure none
    | none => pure none
  ServerTls.new cert key ca

/-- What to dial a listener with; a mutual one is shown an identity. -/
def client (mutualTls : Bool) : Except IdentityError (Option ClientTls) :=
  match files.ca with
  | none => .ok none
  | some p => do
    let tls ← ClientTls.new (← readText d p)
    if mutualTls then
      let cert ← readText d files.cert
      let key ← readText d files.key
      return some (← tls.withIdentity cert key)
    else return some tls

/-- The identities of both listeners; only the protected one is mutual. -/
def listeners : Except IdentityError ListenerTls := do
  let publicTls ← files.server d false
  let protectedTls ← files.server d true
  return ⟨some publicTls, some protectedTls⟩

/-- What to dial either listener with. -/
def dialling : Except IdentityError DialTls := do
  let publicTls ← files.client d false
  let protectedTls ← files.client d true
  return ⟨publicTls, protectedTls⟩

end TlsFiles

end NodeAgent
