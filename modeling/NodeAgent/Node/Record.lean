import NodeAgent.Config.Basic
import NodeAgent.Node.Hardware
/-!
# A node's own record

The record of a node is put together once, from files and from its configuration, and only the
status in it changes. The status is kept in a file of its own, which others may rewrite at any time:
whoever asks gets what the file says now. The status the node itself knows last only serves to spare
a write that would change nothing.
-/

namespace NodeAgent

/-- A node's record with what it takes to tell its status. -/
structure NodeRecord where
  /-- The record with the status that was known last. -/
  known : NodeInfo
  /-- The file that keeps the status. -/
  statePath : Path

namespace NodeRecord

/-- The identifier of the node: the first line of a file. -/
def readNodeId (d : Disk) (p : Path) : Except ServiceError NodeId :=
  match d.readText p with
  | .error .notFound => .error (.notFound ("node ID file " ++ p))
  | .error e => .error (Hardware.fileFailure "read node ID" p e)
  | .ok text =>
    match Text.trimBlanks ((Text.lines text).headD []) with
    | [] => .error (.general ("node ID file " ++ p ++ " is empty"))
    | id => .ok (String.ofList id)

/-- The status of the node: the first line of a file. Without the file it is unprovisioned. -/
def readStatus (d : Disk) (p : Path) : Except ServiceError NodeStatus :=
  match d.readText p with
  | .error .notFound => .ok .unprovisioned
  | .error e => .error (Hardware.fileFailure "read provisioning state" p e)
  | .ok text =>
    (NodeStatus.parse (String.ofList ((Text.lines text).headD []))).mapError fun word ↦
      .general (NodeStatus.unknownMessage word)

/-- Puts the record together. -/
def load (arch : String) (c : NodeInfoConfig) (d : Disk) : Except ServiceError NodeRecord := do
  let nodeId ← readNodeId d c.nodeIdPath
  let totalRam ← Hardware.totalRam d c.memInfoPath
  let status ← readStatus d c.statePath
  let info : NodeInfo :=
    { nodeId, totalRam
      nodeType := c.nodeType, name := c.nodeName, osType := c.osType
      cpus := Hardware.cpus arch d c.cpuInfoPath, maxDmips := c.maxDmips
      attrs := c.attrs.map fun a ↦ ⟨a.1, a.2⟩
      partitions := c.partitions.map fun p ↦ ⟨p.name, p.types, 0, p.path⟩ }
  return ⟨info.withStatus status, c.statePath⟩

/-- The record with the status that the file says now. -/
def info (r : NodeRecord) (d : Disk) : Except ServiceError NodeInfo :=
  (readStatus d r.statePath).map r.known.withStatus

/-- Changes the status in the file. -/
def writeStatus (d : Disk) (p : Path) (s : NodeStatus) : Except ServiceError Unit × Disk :=
  if s = .unprovisioned then
    match d.remove p with
    | (.ok (), d) => (.ok (), d)
    | (.error .notFound, d) => (.ok (), d)
    | (.error e, d) => (.error (Hardware.fileFailure "remove provisioning state" p e), d)
  else
    match d.writeText p s.label with
    | (.ok (), d) => (.ok (), d)
    | (.error e, d) => (.error (Hardware.fileFailure "write provisioning state" p e), d)

/-- Sets the status. Nothing is done if it is the one known last. -/
def setStatus (r : NodeRecord) (s : NodeStatus) (d : Disk) :
    Except ServiceError Unit × NodeRecord × Disk :=
  if r.known.status = s then (.ok (), r, d)
  else
    match writeStatus d r.statePath s with
    | (.error e, d) => (.error e, r, d)
    | (.ok (), d) => (.ok (), { r with known := r.known.withStatus s }, d)

end NodeRecord

end NodeAgent
