import NodeAgent.Document.Message
/-!
# Failures and results as documents

A failure is a document with the name of its cause in `error` and its wording in `message`. A
result is either a failure or a document with the single field `ok`.
-/

namespace NodeAgent

open Document

/-- A failure of a cause with a wording. -/
def Document.failure (cause message : String) : Document :=
  fields [("error", text cause), ("message", text message)]

/-- A success. -/
def Document.ok (d : Document) : Document := fields [("ok", d)]

/-- A success without a value. -/
def Document.done : Document := ok null

/-- A result, its failure shown by `f` and its value by `g`. -/
def Document.result {ε α : Type} (f : ε → Document) (g : α → Document) : Except ε α → Document
  | .error e => f e
  | .ok a => ok (g a)

/-- The name of the code. -/
def RpcCode.name : RpcCode → String
  | .cancelled => "Cancelled"
  | .invalidArgument => "InvalidArgument"
  | .deadlineExceeded => "DeadlineExceeded"
  | .notFound => "NotFound"
  | .permissionDenied => "PermissionDenied"
  | .resourceExhausted => "ResourceExhausted"
  | .failedPrecondition => "FailedPrecondition"
  | .unimplemented => "Unimplemented"
  | .internal => "Internal"
  | .unavailable => "Unavailable"
  | .unknown => "Unknown"

/-- The status as a document. -/
def RpcStatus.toDocument (s : RpcStatus) : Document := failure s.code.name s.message

namespace ServiceError

/-- The name of the cause. -/
def cause : ServiceError → String
  | notFound _ => "NotFound"
  | invalidArgument _ => "InvalidArgument"
  | wrongState _ => "WrongState"
  | resourceExhausted _ => "ResourceExhausted"
  | failed _ _ => "Failed"

/-- The failure as a document; that of a command also has its exit code. -/
def toDocument (e : ServiceError) : Document :=
  match e with
  | failed _ n => (failure e.cause e.message).push "exit_code" (int n)
  | _ => failure e.cause e.message

/-- The failure a document describes, with its bare message. -/
def ofDocument (d : Document) : ServiceError :=
  let what := d.textAt "message"
  let kind := d.textAt "kind"
  if kind = "NotFound" then .notFound what
  else if kind = "InvalidArgument" then .invalidArgument what
  else if kind = "WrongState" then .wrongState what
  else if kind = "ResourceExhausted" then .resourceExhausted what
  else .failed what (d.intAt "exit_code")

end ServiceError

/-- The status that a document names by its number or its label. -/
def NodeStatus.ofDocument : Document → NodeStatus
  | .int n => .ofCode n
  | d => (NodeStatus.parse d.asText).toOption.getD .unspecified

namespace StreamError

/-- The name of the cause. -/
def cause : StreamError → String
  | streamNotFound => "StreamNotFound"
  | streamClosed => "StreamClosed"
  | timeout _ => "Timeout"
  | handlerClosed => "HandlerClosed"
  | notAllowed _ _ => "NotAllowed"
  | missingNodeInfo => "MissingNodeInfo"
  | unexpectedResponse _ _ => "UnexpectedResponse"
  | service _ => "Service"

/-- The failure as a document; one of a service holds that service's. -/
def toDocument (e : StreamError) : Document :=
  match e with
  | service s => fields [("error", text e.cause), ("service", s.toDocument)]
  | _ => failure e.cause e.message

/-- The failure a document describes. -/
def ofDocument (d : Document) : StreamError :=
  let kindAt (key : String) := (MessageKind.ofName? (d.textAt key)).getD .nodeInfo
  let kind := d.textAt "kind"
  if kind = "StreamNotFound" then .streamNotFound
  else if kind = "StreamClosed" then .streamClosed
  else if kind = "Timeout" then .timeout ⟨d.natAt "nanos"⟩
  else if kind = "HandlerClosed" then .handlerClosed
  else if kind = "NotAllowed" then
    .notAllowed (d.textAt "node_id") (.ofDocument ((d.get? "status").getD .null))
  else if kind = "MissingNodeInfo" then .missingNodeInfo
  else if kind = "UnexpectedResponse" then
    .unexpectedResponse (kindAt "expected") (kindAt "actual")
  else .service (.ofDocument ((d.get? "service").getD .null))

end StreamError

end NodeAgent
