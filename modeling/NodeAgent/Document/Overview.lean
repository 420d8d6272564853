import NodeAgent.Document.Failure
import NodeAgent.Node.Listener
import NodeAgent.Retry
/-!
# Overviews

All that there is to tell about a single value at a glance: a status, a failure, a message, a
retried request. An overview shows side by side what different peers are told of the same thing.
-/

namespace NodeAgent

open Document

namespace NodeStatus

/-- The status with the listeners that it leads to. -/
def overview (s : NodeStatus) : Document :=
  fields [("label", text s.label), ("display", text s.label), ("code", int s.code),
    ("listener", text s.listener.name),
    ("public_allowed", bool (Listener.publicSide.allowed.contains s)),
    ("protected_allowed", bool (Listener.protectedSide.allowed.contains s))]

/-- What becomes of a word that is to be a status. -/
def overviewOfWord (word : String) : Document :=
  match parse word with
  | .ok s => fields [("ok", text s.label), ("code", int s.code)]
  | .error w => failure "UnknownNodeStatus" (unknownMessage w)

end NodeStatus

/-- The failure as people, other nodes and peers are told of it. -/
def ServiceError.overview (e : ServiceError) : Document :=
  fields [("display", text e.message), ("code", int e.code), ("info", e.toInfo.toDocument),
    ("status", e.toStatus.toDocument)]

/-- The failure as people and peers are told of it, and whether to try again. -/
def StreamError.overview (e : StreamError) : Document :=
  fields [("display", text e.message), ("retryable", bool e.isRetryable),
    ("status", e.toStatus.toDocument)]

/-- The request with its kind. -/
def Request.overview (r : Request) : Document :=
  fields [("kind", text r.kind.name), ("message", r.toDocument)]

/-- The message with its kind, and with the failure it carries before and after `info` is embedded.
A message that can carry none tells whether it is from the main node. -/
def NodeMessage.overview (m : NodeMessage) (info : Option ErrorInfo) : Document :=
  let carried (r : Response) := option ErrorInfo.toDocument r.error
  let (m, e) := match m with
    | .info i => (m, fields [("main", bool i.isMainNode)])
    | .response r =>
      let after := info.elim r r.withError
      (.response after, fields [("before", carried r), ("after", carried after)])
  fields [("kind", text m.kind.name), ("message", m.toDocument), ("error", e)]

/-- The course of a retried request, in milliseconds. -/
def Retry.overview (r : Retry Document) : Document :=
  let millis (t : Instant) : Document := nat (t / 1000000)
  let result := match r.result? with
    | none => text "pending"
    | some (result, t) => (Document.result StreamError.toDocument id result).push "at_ms" (millis t)
  fields [("max_attempts", nat r.policy.maxAttempts),
    ("attempts_at_ms", list (r.starts.map millis)), ("result", result)]

end NodeAgent
