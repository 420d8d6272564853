import NodeAgent.Node.Info
import NodeAgent.Time.Duration
/-!
# Failures

Three layers fail, each in its own way. A *service* of a node (its files, its commands, its
stores) fails with a `ServiceError`. *Routing* a request to another node fails with a
`StreamError`, of which a service failure is one case. A *remote procedure call* ends with an
`RpcStatus`. Failures of an administrative action do not end the call: they travel inside the
response as an `ErrorInfo`.

The wording of every failure is one function, `message`. The status a failure becomes keeps that
wording, so nothing is lost on the way to the caller.
-/

namespace NodeAgent

/-- The failure an administrative response carries. -/
structure ErrorInfo where
  aosCode : Int := 0
  exitCode : Int := 0
  message : String := ""
deriving DecidableEq, Inhabited

namespace ErrorInfo

/-- A failure without an exit code. -/
def new (aosCode : Int) (message : String) : ErrorInfo := ⟨aosCode, 0, message⟩

end ErrorInfo

/-- The codes a remote procedure call ends with. -/
inductive RpcCode where
  | cancelled
  | invalidArgument
  | deadlineExceeded
  | notFound
  | permissionDenied
  | resourceExhausted
  | failedPrecondition
  | unimplemented
  | internal
  | unavailable
  | unknown
deriving DecidableEq, Inhabited

/-- How a remote procedure call failed. -/
structure RpcStatus where
  code : RpcCode
  message : String
deriving DecidableEq, Inhabited

namespace RpcStatus

/-- The answer of a listener that does not offer the service called. -/
def unregistered : RpcStatus := ⟨.unimplemented, ""⟩

end RpcStatus

/-- A failure of one of a node's own services. -/
inductive ServiceError where
  /-- The item asked for does not exist. -/
  | notFound (what : String)
  /-- The request is malformed. -/
  | invalidArgument (what : String)
  /-- The current state does not permit the operation. -/
  | wrongState (what : String)
  /-- A table of fixed capacity is full. -/
  | resourceExhausted (what : String)
  /-- Anything else; the exit code is that of a failed command and zero otherwise. -/
  | failed (text : String) (exitCode : Int)
deriving DecidableEq, Inhabited

namespace ServiceError

/-- A failure that is not a command's. -/
def general (text : String) : ServiceError := .failed text 0

/-- The wording of the failure. -/
def message : ServiceError → String
  | notFound what => "not found: " ++ what
  | invalidArgument what => "invalid argument: " ++ what
  | wrongState what => "wrong state: " ++ what
  | resourceExhausted what => "resource exhausted: " ++ what
  | failed text _ => text

/-- The number that names the failure inside a response. -/
def code : ServiceError → Int
  | notFound _ => 5
  | invalidArgument _ => 6
  | wrongState _ => 9
  | resourceExhausted _ => 3
  | failed _ _ => 1

/-- The exit code of the failed command, zero where no command failed. -/
def exitCode : ServiceError → Int
  | failed _ n => n
  | _ => 0

/-- The failure as a response carries it. -/
def toInfo (e : ServiceError) : ErrorInfo := ⟨e.code, e.exitCode, e.message⟩

/-- The code of a call that ends with the failure. -/
def rpcCode : ServiceError → RpcCode
  | notFound _ => .notFound
  | invalidArgument _ => .invalidArgument
  | wrongState _ => .failedPrecondition
  | resourceExhausted _ => .resourceExhausted
  | failed _ _ => .internal

/-- The status of a call that ends with the failure. -/
def toStatus (e : ServiceError) : RpcStatus := ⟨e.rpcCode, e.message⟩

end ServiceError

/-- The kinds of message that travel on a registration stream. -/
inductive MessageKind where
  | nodeInfo
  | startProvisioning
  | finishProvisioning
  | deprovision
  | pauseNode
  | resumeNode
  | createKey
  | applyCert
  | certTypes
deriving DecidableEq, Inhabited

namespace MessageKind

/-- The name of the kind in failures. -/
def name : MessageKind → String
  | nodeInfo => "node_info"
  | startProvisioning => "start_provisioning"
  | finishProvisioning => "finish_provisioning"
  | deprovision => "deprovision"
  | pauseNode => "pause_node"
  | resumeNode => "resume_node"
  | createKey => "create_key"
  | applyCert => "apply_cert"
  | certTypes => "get_cert_types"

end MessageKind

/-- A failure of routing a request to a connected node. -/
inductive StreamError where
  /-- The node has no stream at the moment. -/
  | streamNotFound
  /-- The stream was torn down while the request was on it. -/
  | streamClosed
  /-- The node took the request and did not answer in time. -/
  | timeout (after : Duration)
  /-- The agent is closed. -/
  | handlerClosed
  /-- The node's status is outside the allow-list of the listener it came to. -/
  | notAllowed (node : NodeId) (status : NodeStatus)
  /-- A stream did not open with the node's info. -/
  | missingNodeInfo
  /-- The node answered with another kind of response. -/
  | unexpectedResponse (expected actual : MessageKind)
  /-- A service failed. -/
  | service (e : ServiceError)
deriving DecidableEq, Inhabited

namespace StreamError

/-- The wording of the failure. -/
def message : StreamError → String
  | streamNotFound => "stream not found"
  | streamClosed => "stream closed"
  | timeout d => "request timed out after " ++ d.text
  | handlerClosed => "handler is closed"
  | notAllowed node status => "node " ++ node ++ " status " ++ status.label ++ " is not allowed"
  | missingNodeInfo => "first frame must carry node info"
  | unexpectedResponse expected actual =>
    "unexpected response: expected " ++ expected.name ++ ", got " ++ actual.name
  | service e => e.message

/-- Whether another attempt may help. Only a missing stream qualifies: once a frame was queued
the node may have acted on it, so every later failure is final. -/
def isRetryable : StreamError → Bool
  | streamNotFound => true
  | _ => false

/-- The code of a call that ends with the failure. -/
def rpcCode : StreamError → RpcCode
  | streamNotFound => .notFound
  | streamClosed => .unavailable
  | timeout _ => .deadlineExceeded
  | handlerClosed => .failedPrecondition
  | notAllowed _ _ => .permissionDenied
  | missingNodeInfo => .invalidArgument
  | unexpectedResponse _ _ => .cancelled
  | service e => e.rpcCode

/-- The status of a call that ends with the failure. -/
def toStatus (e : StreamError) : RpcStatus := ⟨e.rpcCode, e.message⟩

end StreamError

end NodeAgent
