import NodeAgent.Agent.Basic
import NodeAgent.Document.Failure
import NodeAgent.Document.Record
/-!
# Calls as documents

A call goes by the name of its service and its own, with its arguments in a document.
-/

namespace NodeAgent

open Document

/-- The instance in a field, if the field is there. -/
def Document.instanceAt? (d : Document) (key : String) : Option InstanceIdent :=
  (d.get? key).map InstanceIdent.ofDocument

namespace Rpc

/-- The kind of request that a call to administer a node is. -/
def requestKind? : String → Option MessageKind
  | "Nodes.PauseNode" => some .pauseNode
  | "Nodes.ResumeNode" => some .resumeNode
  | "Provisioning.GetCertTypes" => some .certTypes
  | "Provisioning.StartProvisioning" => some .startProvisioning
  | "Provisioning.FinishProvisioning" => some .finishProvisioning
  | "Provisioning.Deprovision" => some .deprovision
  | "Certificate.CreateKey" => some .createKey
  | "Certificate.ApplyCert" => some .applyCert
  | _ => none

/-- The call of a name with the arguments in a document. -/
def ofDocument? (name : String) (d : Document) : Option Rpc :=
  match name with
  | "Version.GetApiVersion" => some .apiVersion
  | "Public.GetNodeInfo" => some .ownInfo
  | "Public.GetCert" =>
    some (.findCert (d.textAt "cert_type") (d.bytesAt "issuer") (d.textAt "serial"))
  | "Identity.GetSystemInfo" => some .systemInfo
  | "Identity.GetSubjects" => some .subjects
  | "PublicPermissions.GetPermissions" =>
    some (.permissions (d.textAt "secret") (d.textAt "functional_server_id"))
  | "PublicNodes.GetAllNodeIds" => some .nodeIds
  | "PublicNodes.GetNodeInfo" => some (.nodeInfo (d.textAt "node_id"))
  | "Permissions.RegisterInstance" =>
    some (.registerInstance (d.instanceAt? "instance")
      ((d.entriesAt "permissions").map fun e ↦
        (e.1, .ofDocument (.fields (e.2.entriesAt "permissions")))))
  | "Permissions.UnregisterInstance" => some (.unregisterInstance (d.instanceAt? "instance"))
  | name => ((requestKind? name).bind fun k ↦ Request.ofPayload? k d).map .administer

end Rpc

/-- The answer as a document. -/
def RpcReply.toDocument : RpcReply → Document
  | version n => compact [("version", nat n)]
  | info i => i.toDocument
  | cert i => i.toDocument
  | system s m => compact [("system_id", text s), ("unit_model", text m)]
  | subjects ss => compact [("subjects", texts ss)]
  | permissions i ps =>
    fields [("instance", i.toDocument), ("permissions", fields [("permissions", ps.toDocument)])]
  | nodeIds ids => compact [("ids", texts ids)]
  | response r => r.payload
  | secret s => compact [("secret", text s)]
  | empty => fields []

/-- The topic of a subscription of a name with the arguments in a document. -/
def Topic.ofDocument? (name : String) (d : Document) : Option Topic :=
  match name with
  | "PublicNodes.SubscribeNodeChanged" => some .nodes
  | "Identity.SubscribeSubjectsChanged" => some .subjects
  | "Public.SubscribeCertChanged" => some (.certs (d.textAt "cert_type"))
  | _ => none

/-- The event as a document. -/
def Agent.Event.toDocument : Agent.Event → Document
  | info i => i.toDocument
  | subjects ss => compact [("subjects", texts ss)]
  | cert i => i.toDocument

/-- The status as a document, as the peer reads it. -/
def RpcStatus.receivedDocument (s : RpcStatus) : Document := s.received.toDocument

/-- What the peer reads of the result of a call. -/
def RpcReply.resultDocument (r : Except RpcStatus RpcReply) : Document :=
  result RpcStatus.receivedDocument RpcReply.toDocument r

end NodeAgent
