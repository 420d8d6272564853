import NodeAgent.Agent.Basic
import NodeAgent.Disk.Path
/-!
# Configuration

Everything that is told to an agent before it starts: where its files are, whom it listens to, which
certificates it looks after and which commands provision it. Most of it has a default, so a
configuration can be short; what has none is what no other agent could guess.
-/

namespace NodeAgent

/-- A partition to tell about in the node's record. -/
structure PartitionConfig where
  name : String := ""
  types : List String := []
  path : String := ""
deriving DecidableEq, Inhabited

/-- Where the node's record comes from. -/
structure NodeInfoConfig where
  cpuInfoPath : Path := "/proc/cpuinfo"
  memInfoPath : Path := "/proc/meminfo"
  /-- The file that keeps the node's status; a node without it is unprovisioned. -/
  statePath : Path := ""
  /-- The file whose first line is the node's identifier. -/
  nodeIdPath : Path := ""
  nodeName : String := ""
  nodeType : String := ""
  osType : String := ""
  maxDmips : Nat := 0
  /-- The node's attributes by name, in ascending order. -/
  attrs : List (String × String) := []
  partitions : List PartitionConfig := []
deriving DecidableEq, Inhabited

/-- A type of certificate that the node can have. -/
structure CertModule where
  id : String := ""
  plugin : String := ""
  algorithm : String := "ecc"
  /-- How many certificates of the type are kept. -/
  maxItems : Nat := 1
  extendedKeyUsage : List String := []
  alternativeNames : List String := []
  disabled : Bool := false
deriving DecidableEq, Inhabited

/-- The files that say who the system is. -/
structure IdentityPaths where
  systemId : Path := ""
  unitModel : Path := ""
  subjects : Option Path := none
deriving DecidableEq, Inhabited

/-- Which source tells who the system is. -/
structure IdentifierConfig where
  /-- The name of the source; without one nobody can ask. -/
  plugin : String := ""
  params : Option IdentityPaths := none
deriving DecidableEq, Inhabited

/-- How requests for other nodes are retried. -/
structure RetryConfig where
  maxAttempts : Nat := 3
  interval : Duration := .ofSeconds 10
deriving DecidableEq, Inhabited

/-- How long requests for other nodes may take. -/
structure TimeoutConfig where
  default : Duration := .ofSeconds 60
  provisioning : Duration := .ofSeconds 300
deriving DecidableEq, Inhabited

/-- The commands that provision the node, each a program with its arguments. A command without a
program is left out. -/
structure ProvisioningCommands where
  start : List String := []
  finish : List String := []
  deprovision : List String := []
  encryptDisk : List String := []
deriving DecidableEq, Inhabited

/-- The configuration of an agent. -/
structure Config where
  nodeInfo : NodeInfoConfig := {}
  publicAddr : String := ""
  protectedAddr : String := ""
  /-- Where the main node's public listener is. -/
  mainPublicAddr : String := ""
  /-- Where the main node's protected listener is. -/
  mainProtectedAddr : String := ""
  /-- The wait before the main node is dialled again. -/
  reconnectInterval : Duration := .ofSeconds 10
  caCert : Option Path := none
  certStorage : Path := ""
  certModules : List CertModule := []
  commands : ProvisioningCommands := {}
  permissions : Bool := false
  identifier : IdentifierConfig := {}
  retry : RetryConfig := {}
  timeouts : TimeoutConfig := {}
deriving DecidableEq, Inhabited

namespace Config

/-- Whether the node hosts the registry: some attribute has the marking name, in any case. -/
def isMainNode (c : Config) : Bool :=
  c.nodeInfo.attrs.any fun a ↦ Text.sameWord a.1 mainNodeAttribute

/-- How the agent treats requests for other nodes. -/
def agentConfig (c : Config) : AgentConfig where
  retry := .new c.retry.maxAttempts c.retry.interval
  requestTimeout := c.timeouts.default
  provisioningTimeout := c.timeouts.provisioning

end Config

end NodeAgent
