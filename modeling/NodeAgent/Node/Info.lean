import NodeAgent.Node.Status
/-!
# Node info

What a node tells about itself: identity, status, processors, memory, attributes and partitions.
The main node keeps one such record for every node it knows.
-/

namespace NodeAgent

/-- Identifies a node. -/
abbrev NodeId := String

/-- One processor package. -/
structure CpuInfo where
  modelName : String := ""
  numCores : Nat := 0
  numThreads : Nat := 0
  arch : String := ""
  archFamily : String := ""
  maxDmips : Nat := 0
deriving DecidableEq, Inhabited

/-- A named property of a node. -/
structure NodeAttribute where
  name : String := ""
  value : String := ""
deriving DecidableEq, Inhabited

/-- A disk partition of a node. -/
structure PartitionInfo where
  name : String := ""
  types : List String := []
  totalSize : Nat := 0
  path : String := ""
deriving DecidableEq, Inhabited

/-- The record of one node. -/
structure NodeInfo where
  nodeId : NodeId := ""
  nodeType : String := ""
  name : String := ""
  /-- The status as it came in; `NodeInfo.status` says what it means. -/
  statusCode : StatusCode := 0
  osType : String := ""
  cpus : List CpuInfo := []
  maxDmips : Nat := 0
  totalRam : Nat := 0
  attrs : List NodeAttribute := []
  partitions : List PartitionInfo := []
deriving DecidableEq, Inhabited

/-- The attribute that marks the node hosting the registry. -/
def mainNodeAttribute : String := "MainNode"

namespace NodeInfo

/-- What the record's status code means. -/
def status (info : NodeInfo) : NodeStatus := .ofCode info.statusCode

/-- The record with another status. -/
def withStatus (info : NodeInfo) (s : NodeStatus) : NodeInfo := { info with statusCode := s.code }

@[simp] theorem status_withStatus (info : NodeInfo) (s : NodeStatus) :
    (info.withStatus s).status = s := by
  simp [status, withStatus]

/-- Whether the node hosts the registry: some attribute has the marking name, in any case. -/
def isMainNode (info : NodeInfo) : Bool :=
  info.attrs.any fun a ↦ Text.sameWord a.name mainNodeAttribute

end NodeInfo

end NodeAgent
