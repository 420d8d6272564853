import NodeAgent.Certificate.Index
import NodeAgent.Message
import NodeAgent.Permission
import NodeAgent.Text.Percent
import NodeAgent.Text.Utf8
/-!
# Remote procedure calls

What a peer can ask of an agent over a listener, and what it is answered. The calls are grouped
into services, and a listener offers a service as a whole or not at all. The eight calls that
administer a node are requests of a registration stream: an agent carries them out itself or sends
them on.
-/

namespace NodeAgent

/-- A group of calls that a listener offers together. -/
inductive Service where
  | version
  /-- The agent's own node and its certificates. -/
  | node
  /-- Who the unit is. -/
  | identity
  /-- What the owner of a secret may do. -/
  | permissionLookup
  /-- The nodes known to the main node, and their registration. -/
  | nodeDirectory
  | nodeControl
  | provisioning
  | certificates
  /-- Registering those who may do something. -/
  | permissionRegistry
deriving DecidableEq

/-- A call that is answered once. -/
inductive Rpc where
  | apiVersion
  | ownInfo
  | findCert (certType : String) (issuer : Bytes) (serial : String)
  | systemInfo
  | subjects
  | permissions (secret : Secret) (server : String)
  | nodeIds
  | nodeInfo (node : NodeId)
  | administer (r : Request)
  | registerInstance (instance? : Option InstanceIdent)
      (permissions : List (String × ServerPermissions))
  | unregisterInstance (instance? : Option InstanceIdent)

namespace Rpc

/-- The service the call belongs to. -/
def service : Rpc → Service
  | apiVersion => .version
  | ownInfo | findCert .. => .node
  | systemInfo | subjects => .identity
  | permissions .. => .permissionLookup
  | nodeIds | nodeInfo _ => .nodeDirectory
  | administer (.pauseNode _) | administer (.resumeNode _) => .nodeControl
  | administer (.createKey ..) | administer (.applyCert ..) => .certificates
  | administer _ => .provisioning
  | registerInstance .. | unregisterInstance _ => .permissionRegistry

end Rpc

/-- The answer to a call. -/
inductive RpcReply where
  | version (number : Nat)
  | info (info : NodeInfo)
  | cert (info : CertInfo)
  | system (systemId unitModel : String)
  | subjects (subjects : List String)
  | permissions (inst : InstanceIdent) (permissions : ServerPermissions)
  | nodeIds (ids : List NodeId)
  | response (r : Response)
  | secret (s : Secret)
  | empty

/-- What a peer can subscribe to. -/
inductive Topic where
  /-- The info of every known node. -/
  | nodes
  | subjects
  /-- The newest certificate of a type. -/
  | certs (certType : String)
deriving DecidableEq

namespace Topic

/-- The service that offers the subscription. -/
def service : Topic → Service
  | nodes => .nodeDirectory
  | subjects => .identity
  | certs _ => .node

end Topic

/-- A subscription that was opened. -/
inductive SubscriptionHandle where
  | nodes (number : Nat)
  | subjects (number : Nat)
  | certs (id : SubscriptionId)
deriving DecidableEq

/-- A status as the peer reads it: escapes in its message are replaced, wherever they come from. A
message that is no text after that is lost, and the code with it. -/
def RpcStatus.received (s : RpcStatus) : RpcStatus :=
  match Text.Utf8.decode (Text.Percent.unescape 0 (Text.Utf8.encode s.message)) with
  | .ok message => { s with message }
  | .error f => ⟨.unknown, "Error deserializing status message header: " ++ f.message⟩

end NodeAgent
