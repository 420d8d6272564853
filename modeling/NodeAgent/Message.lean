import NodeAgent.Error
/-!
# Messages of a registration stream

The main node sends *requests* down a registration stream and the node sends *responses* up, each
under the identifier of the request it answers. A node also reports its own info, unasked and
under no identifier. Every response has a place for one embedded failure, so that an
administrative action that fails is still answered.
-/

namespace NodeAgent

/-- Matches a response to the request it answers. -/
abbrev RequestId := String

/-- What the main node can ask of a node. The node named in a request is the one it is for. -/
inductive Request where
  | startProvisioning (node : NodeId) (password : String)
  | finishProvisioning (node : NodeId) (password : String)
  | deprovision (node : NodeId) (password : String)
  | pauseNode (node : NodeId)
  | resumeNode (node : NodeId)
  | createKey (node : NodeId) (subject certType password : String)
  | applyCert (node : NodeId) (certType cert : String)
  | certTypes (node : NodeId)
deriving DecidableEq, Inhabited

namespace Request

/-- The kind of the request. -/
def kind : Request → MessageKind
  | startProvisioning .. => .startProvisioning
  | finishProvisioning .. => .finishProvisioning
  | deprovision .. => .deprovision
  | pauseNode .. => .pauseNode
  | resumeNode .. => .resumeNode
  | createKey .. => .createKey
  | applyCert .. => .applyCert
  | certTypes .. => .certTypes

/-- The node the request is for. -/
def node : Request → NodeId
  | startProvisioning n _ | finishProvisioning n _ | deprovision n _ => n
  | pauseNode n | resumeNode n => n
  | createKey n _ _ _ => n
  | applyCert n _ _ => n
  | certTypes n => n

end Request

/-- A node's answer to a request. -/
inductive Response where
  | startProvisioning (error : Option ErrorInfo)
  | finishProvisioning (error : Option ErrorInfo)
  | deprovision (error : Option ErrorInfo)
  | pauseNode (error : Option ErrorInfo)
  | resumeNode (error : Option ErrorInfo)
  | createKey (node : NodeId) (certType csr : String) (error : Option ErrorInfo)
  | applyCert (node : NodeId) (certType certUrl serial : String) (error : Option ErrorInfo)
  | certTypes (types : List String) (error : Option ErrorInfo)
deriving DecidableEq, Inhabited

namespace Response

/-- The kind of request the response answers. -/
def kind : Response → MessageKind
  | startProvisioning .. => .startProvisioning
  | finishProvisioning .. => .finishProvisioning
  | deprovision .. => .deprovision
  | pauseNode .. => .pauseNode
  | resumeNode .. => .resumeNode
  | createKey .. => .createKey
  | applyCert .. => .applyCert
  | certTypes .. => .certTypes

/-- The embedded failure. -/
def error : Response → Option ErrorInfo
  | startProvisioning e | finishProvisioning e | deprovision e | pauseNode e | resumeNode e => e
  | createKey _ _ _ e => e
  | applyCert _ _ _ _ e => e
  | certTypes _ e => e

/-- The response with a failure embedded; one that was there is replaced. -/
def withError (e : ErrorInfo) : Response → Response
  | startProvisioning _ => .startProvisioning (some e)
  | finishProvisioning _ => .finishProvisioning (some e)
  | deprovision _ => .deprovision (some e)
  | pauseNode _ => .pauseNode (some e)
  | resumeNode _ => .resumeNode (some e)
  | createKey n t c _ => .createKey n t c (some e)
  | applyCert n t u s _ => .applyCert n t u s (some e)
  | certTypes ts _ => .certTypes ts (some e)

@[simp] theorem error_withError (e : ErrorInfo) (r : Response) :
    (r.withError e).error = some e := by
  cases r <;> rfl

@[simp] theorem kind_withError (e : ErrorInfo) (r : Response) :
    (r.withError e).kind = r.kind := by
  cases r <;> rfl

end Response

/-- What a node sends up a registration stream. -/
inductive NodeMessage where
  /-- The node's own info. -/
  | info (info : NodeInfo)
  /-- The answer to a request. -/
  | response (response : Response)
deriving DecidableEq, Inhabited

namespace NodeMessage

/-- The kind of the message. -/
def kind : NodeMessage → MessageKind
  | info _ => .nodeInfo
  | response r => r.kind

/-- The message as the response to a request of the given kind. -/
def expect (expected : MessageKind) : NodeMessage → Except StreamError Response
  | info _ => .error (.unexpectedResponse expected .nodeInfo)
  | response r =>
    if r.kind = expected then .ok r else .error (.unexpectedResponse expected r.kind)

end NodeMessage

/-- A frame on its way to a node. A frame without a request is possible and means nothing. -/
structure RequestFrame where
  id : RequestId := ""
  request : Option Request := none
deriving DecidableEq, Inhabited

/-- A frame on its way from a node. A frame without a message is possible and means nothing. -/
structure NodeFrame where
  id : RequestId := ""
  message : Option NodeMessage := none
deriving DecidableEq, Inhabited

end NodeAgent
