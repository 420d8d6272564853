import NodeAgent.Config.Validity
import NodeAgent.Node.Files
import NodeAgent.Node.Uplink
/-!
# Deployed agents

A deployment is what a configuration makes of a disk: a server whose agent acts on the node's files,
and, on a node that is not the main one, the sessions with the main node. To provision a node, its
agent is deployed without identities: nobody then has to prove who they are.
-/

namespace NodeAgent

/-- Why an agent cannot be deployed, started or given another identity. -/
inductive DeploymentError where
  | service (e : ServiceError)
  | server (e : ServerError)
  | identity (e : IdentityError)
deriving DecidableEq

/-- What the configuration does not tell. -/
structure Surroundings where
  /-- The name of the processor's architecture. -/
  arch : String
  runner : Runner
  /-- The random numbers that keys are made of. -/
  random : Nat → Nat
  names : NameSupply

/-- An agent on a disk. -/
structure Deployment where
  server : Server NodeFiles
  /-- The sessions with the main node, if the node is another one. -/
  uplink : Option Uplink
  /-- The authority that the node trusts. -/
  ca : Option Path
  /-- Whether the identity is to follow the certificate that it is. -/
  followsCert : Bool
  /-- The subscription through which it does, while the deployment runs. -/
  subscription : Option SubscriptionId := none
  /-- Whether it was stopped. -/
  wasStopped : Bool := false

namespace Config

/-- The configuration in a file. -/
def load (d : Disk) (p : Path) : Except ConfigError Config :=
  match d.readText p with
  | .error e => .error (.read p e.message)
  | .ok text => parse text

/-- The files that say who the system is, where the configuration has them do so. -/
def identityPaths? (c : Config) : Option IdentityPaths :=
  if c.identifier.plugin = fileIdentifier then c.identifier.params else none

/-- Whether the node keeps up sessions with another one. -/
def hasUplink (c : Config) : Bool := !c.isMainNode && c.mainProtectedAddr ≠ ""

/-- The main node, as another node finds it. -/
def mainNode (c : Config) : MainNode where
  publicUrl := c.mainPublicAddr
  protectedUrl := c.mainProtectedAddr
  reconnectInterval := c.reconnectInterval

end Config

namespace NodeFiles

/-- Reads what a node keeps on a disk. -/
def load (arch : String) (c : Config) (storage : CertStorage) (d : Disk) :
    Except ServiceError NodeFiles := do
  let record ← NodeRecord.load arch c.nodeInfo d
  let identity ← c.identityPaths?.mapM fun paths ↦ IdentityFiles.load paths d
  return { vault := ⟨d, storage.load d, 0⟩, record, identity }

end NodeFiles

namespace Deployment

/-! ## Setting up -/

/-- Sets the server up. -/
def newServer (around : Surroundings) (c : Config) (provisioning : Bool) (tls : ListenerTls)
    (storage : CertStorage) (w : NodeFiles) : Except ServiceError (Server NodeFiles) := do
  let site := NodeFiles.site storage c.commands around.runner w.identity.isSome
  let permissions := if c.permissions then some {} else none
  let agent ← Agent.new site c.agentConfig around.names {} permissions w
  return { agent, publicAddr := c.publicAddr, protectedAddr := c.protectedAddr, provisioning, tls }

/-- Deploys an agent. Its identities are those of its newest certificate, if it has one. -/
def new (around : Surroundings) (c : Config) (provisioning : Bool) (d : Disk) :
    Except DeploymentError Deployment := do
  let storage : CertStorage := ⟨c.certStorage, c.certModules, around.random⟩
  let w ← (NodeFiles.load around.arch c storage d).mapError .service
  let files := if provisioning then none else TlsFiles.newest? w.vault.index c.caCert
  let tls ← match files with
    | some files => (files.listeners d).mapError .identity
    | none => pure {}
  let server ← (newServer around c provisioning tls storage w).mapError fun e ↦ .server (.service e)
  let uplink ← if c.hasUplink then do
      let tls ← match files with
        | some files => (files.dialling d).mapError .identity
        | none => pure {}
      pure (some { main := c.mainNode, tls })
    else pure none
  return { server, uplink, ca := c.caCert, followsCert := !provisioning }

/-! ## The files of a deployment -/

/-- The files of the node. -/
def files (d : Deployment) : NodeFiles := d.server.agent.world

/-- The deployment with changed files. -/
def withFiles (d : Deployment) (w : NodeFiles) : Deployment := { d with server.agent.world := w }

/-- Reads the subjects again, and announces them if they changed. -/
def reloadSubjects (d : Deployment) : Deployment :=
  match d.files.identity with
  | none => d
  | some i =>
    let (changed, _, i) := i.reload d.files.disk
    let d := d.withFiles { d.files with identity := some i }
    if changed then { d with server.agent := d.server.agent.announceSubjects i.subjects } else d

end Deployment

end NodeAgent
