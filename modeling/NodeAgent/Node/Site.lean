import NodeAgent.Certificate.Index
import NodeAgent.Message
/-!
# The site of a node

A node's own services (its info and status, its identity, its provisioning commands, its keys and
certificates) are what requests act on in the end, whether they come over a registration stream or
are meant for the node that was asked. They live in a world of some type `σ`: a disk, or a record
in memory. `Site σ` says what each service does to that world, and nothing else about it, so what
is shown of requests holds for every site.
-/

namespace NodeAgent

/-- Something a service does: it has a result and may change the world, also when it fails. -/
abbrev Action (σ α : Type) := σ → Except ServiceError α × σ

namespace Action

variable {σ α β : Type}

/-- Does nothing. -/
def done (a : α) : Action σ α := fun w ↦ (.ok a, w)

/-- Fails. -/
def fail (e : ServiceError) : Action σ α := fun w ↦ (.error e, w)

/-- Reads the world. -/
def read (f : σ → Except ServiceError α) : Action σ α := fun w ↦ (f w, w)

/-- Goes on with the result, unless there is none. -/
def andThen (m : Action σ α) (f : α → Action σ β) : Action σ β := fun w ↦
  match m w with
  | (.ok a, w) => f a w
  | (.error e, w) => (.error e, w)

end Action

/-- A certificate that was installed. -/
structure AppliedCert where
  certUrl : String
  /-- The serial number in upper-case hexadecimal. -/
  serial : String
deriving DecidableEq, Inhabited

/-- Who the unit is. -/
structure Identity (σ : Type) where
  systemId : σ → Except ServiceError String
  unitModel : σ → Except ServiceError String
  /-- The subjects that the unit serves. -/
  subjects : σ → Except ServiceError (List String)

/-- The services of a node. -/
structure Site (σ : Type) where
  nodeInfo : σ → Except ServiceError NodeInfo
  setStatus : NodeStatus → Action σ Unit
  /-- The identity, where the node has one configured. -/
  identity : Option (Identity σ)
  /-- The certificate types the node can create keys for. -/
  certTypes : Action σ (List String)
  startProvisioning : (password : String) → Action σ Unit
  finishProvisioning : (password : String) → Action σ Unit
  deprovision : (password : String) → Action σ Unit
  /-- Creates a key and gives the request to sign it. -/
  createKey : (certType subject password : String) → Action σ String
  applyCert : (certType cert : String) → Action σ AppliedCert
  certs : σ → CertIndex
  putCerts : CertIndex → σ → σ

namespace Request

/-- The response to the request before anything was done. -/
def emptyResponse : Request → Response
  | startProvisioning .. => .startProvisioning none
  | finishProvisioning .. => .finishProvisioning none
  | deprovision .. => .deprovision none
  | pauseNode .. => .pauseNode none
  | resumeNode .. => .resumeNode none
  | createKey node _ certType _ => .createKey node certType "" none
  | applyCert node certType _ => .applyCert node certType "" "" none
  | certTypes .. => .certTypes [] none

@[simp] theorem kind_emptyResponse (r : Request) : r.emptyResponse.kind = r.kind := by
  cases r <;> rfl

/-- The status that the request leads to. -/
def target? : Request → Option NodeStatus
  | finishProvisioning .. | resumeNode .. => some .provisioned
  | pauseNode .. => some .paused
  | deprovision .. => some .unprovisioned
  | startProvisioning .. | createKey .. | applyCert .. | certTypes .. => none

/-- The statuses in which a node carries the request out; `none` if the status does not matter. -/
def permitted? : Request → Option (List NodeStatus)
  | startProvisioning .. | finishProvisioning .. => some [.unprovisioned]
  | deprovision .. => some [.provisioned, .paused]
  | pauseNode .. => some [.provisioned]
  | resumeNode .. => some [.paused]
  | createKey .. | applyCert .. | certTypes .. => none

end Request

namespace Response

/-- The response with the failure of a result embedded, if it is one. -/
def embed {α : Type} (result : Except ServiceError α) (r : Response) : Response :=
  match result with
  | .ok _ => r
  | .error e => r.withError e.toInfo

@[simp] theorem kind_embed {α : Type} (result : Except ServiceError α) (r : Response) :
    (r.embed result).kind = r.kind := by
  cases result <;> simp [embed]

end Response

namespace Site

variable {σ : Type} (site : Site σ)

/-- What a request that concerns the node's life does besides changing the status. -/
def perform : Request → Action σ Unit
  | .startProvisioning _ password => site.startProvisioning password
  | .finishProvisioning _ password => site.finishProvisioning password
  | .deprovision _ password => site.deprovision password
  | _ => .done ()

/-- Carries out a request for certificate types, a key or a certificate. The subject of a key is
`subject`, and not what the request says. -/
def provide (subject : Except ServiceError String) (r : Request) (w : σ) : Response × σ :=
  match r with
  | .certTypes _ =>
    match site.certTypes w with
    | (.ok types, w) => (.certTypes types none, w)
    | (.error e, w) => (r.emptyResponse.withError e.toInfo, w)
  | .createKey node _ certType password =>
    match subject with
    | .error e => (r.emptyResponse.withError e.toInfo, w)
    | .ok subject =>
      match site.createKey certType subject password w with
      | (.ok csr, w) => (.createKey node certType csr none, w)
      | (.error e, w) => (r.emptyResponse.withError e.toInfo, w)
  | .applyCert node certType cert =>
    match site.applyCert certType cert w with
    | (.ok applied, w) => (.applyCert node certType applied.certUrl applied.serial none, w)
    | (.error e, w) => (r.emptyResponse.withError e.toInfo, w)
  | _ => (r.emptyResponse, w)

end Site

end NodeAgent
