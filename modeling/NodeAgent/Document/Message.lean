import NodeAgent.Document
import NodeAgent.Message
/-!
# Messages as documents

Each message has one field per value it carries, under the value's own name; the messages of a
stream are a document with a single field, named for the kind, that holds the message. Reading
takes any document and never fails, since every field has a default.
-/

namespace NodeAgent

open Document

/-! ## Node info -/

namespace CpuInfo

/-- The processor as a document. -/
def toDocument (c : CpuInfo) : Document :=
  compact [("model_name", text c.modelName), ("num_cores", nat c.numCores),
    ("num_threads", nat c.numThreads), ("arch", text c.arch), ("arch_family", text c.archFamily),
    ("max_dmips", nat c.maxDmips)]

/-- The processor a document describes. -/
def ofDocument (d : Document) : CpuInfo :=
  ⟨d.textAt "model_name", d.natAt "num_cores", d.natAt "num_threads", d.textAt "arch",
    d.textAt "arch_family", d.natAt "max_dmips"⟩

end CpuInfo

namespace NodeAttribute

/-- The attribute as a document. -/
def toDocument (a : NodeAttribute) : Document :=
  compact [("name", text a.name), ("value", text a.value)]

/-- The attribute a document describes. -/
def ofDocument (d : Document) : NodeAttribute := ⟨d.textAt "name", d.textAt "value"⟩

end NodeAttribute

namespace PartitionInfo

/-- The partition as a document. -/
def toDocument (p : PartitionInfo) : Document :=
  compact [("name", text p.name), ("types", texts p.types), ("total_size", nat p.totalSize),
    ("path", text p.path)]

/-- The partition a document describes. -/
def ofDocument (d : Document) : PartitionInfo :=
  ⟨d.textAt "name", d.textsAt "types", d.natAt "total_size", d.textAt "path"⟩

end PartitionInfo

namespace NodeInfo

/-- The record as a document. -/
def toDocument (i : NodeInfo) : Document :=
  compact [("node_id", text i.nodeId), ("node_type", text i.nodeType), ("name", text i.name),
    ("status", int i.statusCode), ("os_type", text i.osType),
    ("cpus", list (i.cpus.map CpuInfo.toDocument)), ("max_dmips", nat i.maxDmips),
    ("total_ram", nat i.totalRam), ("attrs", list (i.attrs.map NodeAttribute.toDocument)),
    ("partitions", list (i.partitions.map PartitionInfo.toDocument))]

/-- The record a document describes. -/
def ofDocument (d : Document) : NodeInfo :=
  { nodeId := d.textAt "node_id", nodeType := d.textAt "node_type", name := d.textAt "name"
    statusCode := d.intAt "status", osType := d.textAt "os_type"
    cpus := (d.itemsAt "cpus").map CpuInfo.ofDocument, maxDmips := d.natAt "max_dmips"
    totalRam := d.natAt "total_ram", attrs := (d.itemsAt "attrs").map NodeAttribute.ofDocument
    partitions := (d.itemsAt "partitions").map PartitionInfo.ofDocument }

end NodeInfo

/-! ## Failures -/

namespace ErrorInfo

/-- The failure as a document. -/
def toDocument (e : ErrorInfo) : Document :=
  compact [("aos_code", int e.aosCode), ("exit_code", int e.exitCode), ("message", text e.message)]

/-- The failure a document describes. -/
def ofDocument (d : Document) : ErrorInfo :=
  ⟨d.intAt "aos_code", d.intAt "exit_code", d.textAt "message"⟩

end ErrorInfo

namespace MessageKind

/-- Every kind of message. -/
def all : List MessageKind :=
  [nodeInfo, startProvisioning, finishProvisioning, deprovision, pauseNode, resumeNode, createKey,
    applyCert, certTypes]

/-- The kind of a name. -/
def ofName? (name : String) : Option MessageKind := all.find? (·.name == name)

end MessageKind

/-! ## Requests and responses -/

namespace Request

/-- The fields of the request. -/
def payload : Request → Document
  | startProvisioning n p | finishProvisioning n p | deprovision n p =>
    compact [("node_id", text n), ("password", text p)]
  | pauseNode n | resumeNode n | certTypes n => compact [("node_id", text n)]
  | createKey n s t p =>
    compact [("node_id", text n), ("subject", text s), ("cert_type", text t), ("password", text p)]
  | applyCert n t c => compact [("node_id", text n), ("cert_type", text t), ("cert", text c)]

/-- The request of a kind with the fields of a document; node info is no request. -/
def ofPayload? (kind : MessageKind) (d : Document) : Option Request :=
  let node := d.textAt "node_id"
  let password := d.textAt "password"
  match kind with
  | .nodeInfo => none
  | .startProvisioning => some (.startProvisioning node password)
  | .finishProvisioning => some (.finishProvisioning node password)
  | .deprovision => some (.deprovision node password)
  | .pauseNode => some (.pauseNode node)
  | .resumeNode => some (.resumeNode node)
  | .createKey => some (.createKey node (d.textAt "subject") (d.textAt "cert_type") password)
  | .applyCert => some (.applyCert node (d.textAt "cert_type") (d.textAt "cert"))
  | .certTypes => some (.certTypes node)

end Request

namespace Response

/-- The fields of the response. -/
def payload (r : Response) : Document :=
  let own : List (String × Document) := match r with
    | createKey n t c _ => [("node_id", text n), ("cert_type", text t), ("csr", text c)]
    | applyCert n t u s _ =>
      [("node_id", text n), ("cert_type", text t), ("cert_url", text u), ("serial", text s)]
    | certTypes ts _ => [("types", texts ts)]
    | _ => []
  compact (own ++ [("error", Document.option ErrorInfo.toDocument r.error)])

/-- The response of a kind with the fields of a document; node info is no response. -/
def ofPayload? (kind : MessageKind) (d : Document) : Option Response :=
  let error := (d.get? "error").map ErrorInfo.ofDocument
  match kind with
  | .nodeInfo => none
  | .startProvisioning => some (.startProvisioning error)
  | .finishProvisioning => some (.finishProvisioning error)
  | .deprovision => some (.deprovision error)
  | .pauseNode => some (.pauseNode error)
  | .resumeNode => some (.resumeNode error)
  | .createKey =>
    some (.createKey (d.textAt "node_id") (d.textAt "cert_type") (d.textAt "csr") error)
  | .applyCert =>
    some (.applyCert (d.textAt "node_id") (d.textAt "cert_type") (d.textAt "cert_url")
      (d.textAt "serial") error)
  | .certTypes => some (.certTypes (d.textsAt "types") error)

end Response

namespace NodeMessage

/-- The fields of the message. -/
def payload : NodeMessage → Document
  | info i => i.toDocument
  | response r => r.payload

/-- The message of a kind with the fields of a document. -/
def ofPayload (kind : MessageKind) (d : Document) : NodeMessage :=
  match Response.ofPayload? kind d with
  | some r => .response r
  | none => .info (.ofDocument d)

/-- The message under the name of its kind. -/
def toDocument (m : NodeMessage) : Document := fields [(m.kind.name, m.payload)]

end NodeMessage

/-! ## Frames -/

/-- The first field of a document that is named for a kind of message. -/
def Document.kindField? (d : Document) : Option (MessageKind × Document) :=
  d.entries.findSome? fun (key, v) ↦ (MessageKind.ofName? key).map fun k ↦ (k, v)

/-- The request in the field named for its kind. -/
def Request.ofDocument? (d : Document) : Option Request :=
  d.kindField?.bind fun (k, v) ↦ Request.ofPayload? k v

/-- The request under the name of its kind. -/
def Request.toDocument (r : Request) : Document := fields [(r.kind.name, r.payload)]

/-- The message in the field named for its kind. -/
def NodeMessage.ofDocument? (d : Document) : Option NodeMessage :=
  d.kindField?.map fun (k, v) ↦ NodeMessage.ofPayload k v

namespace RequestFrame

/-- The frame as a document; its identifier is always shown. -/
def toDocument (f : RequestFrame) : Document :=
  fields (("request_id", text f.id) :: (f.request.map fun r ↦ r.toDocument.entries).getD [])

/-- The frame a document describes. -/
def ofDocument (d : Document) : RequestFrame := ⟨d.textAt "request_id", Request.ofDocument? d⟩

end RequestFrame

namespace NodeFrame

/-- The frame as a document; its identifier is always shown. -/
def toDocument (f : NodeFrame) : Document :=
  fields (("request_id", text f.id) :: (f.message.map fun m ↦ m.toDocument.entries).getD [])

/-- The frame a document describes. -/
def ofDocument (d : Document) : NodeFrame := ⟨d.textAt "request_id", NodeMessage.ofDocument? d⟩

end NodeFrame

end NodeAgent
