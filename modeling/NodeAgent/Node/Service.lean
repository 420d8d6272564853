import NodeAgent.Node.Site
/-!
# Serving forwarded requests

A node that is registered with the main node answers the requests that come down its stream, one at
a time. A request that concerns the node's life is carried out only in the statuses that permit it.
One that changes the status does so after its action succeeded, and the node then reports its info
ahead of the response, so that the main node knows the new status when it hears of the success.

Every request is answered by exactly one response of its own kind under its own identifier, which
comes last (`serve_frames`); a frame without a request is not answered.
-/

namespace NodeAgent

/-- The answer to one frame. -/
structure Reply where
  frames : List NodeFrame := []
  /-- The status the node changed to. -/
  newStatus : Option NodeStatus := none

namespace Site

variable {σ : Type} (site : Site σ)

/-- The failure of a request that the node's status does not permit. -/
def notPermitted (s : NodeStatus) : ServiceError :=
  .wrongState ("node status " ++ s.label ++ " does not allow this operation")

/-- Fails unless the node has one of the statuses. -/
def requireStatus (allowed : List NodeStatus) : Action σ Unit :=
  (Action.read site.nodeInfo).andThen fun info ↦
    if info.status ∈ allowed then .done () else .fail (notPermitted info.status)

/-- Carries out a request that concerns the node's life, and records the status it leads to. -/
def live (r : Request) (allowed : List NodeStatus) : Action σ (Option NodeStatus) :=
  (site.requireStatus allowed).andThen fun _ ↦
    (site.perform r).andThen fun _ ↦
      match r.target? with
      | none => .done none
      | some target => (site.setStatus target).andThen fun _ ↦ .done (some target)

/-- The subject of a key that a forwarded request asks for: the request's own, or the system's
identifier where it has none. -/
def forwardedSubject (r : Request) (w : σ) : Except ServiceError String :=
  match r with
  | .createKey _ "" _ _ =>
    match site.identity with
    | some identity => identity.systemId w
    | none => .error (.invalidArgument "subject can't be empty")
  | .createKey _ subject _ _ => .ok subject
  | _ => .ok ""

/-- Carries out a request. -/
def answer (r : Request) (w : σ) : (Response × Option NodeStatus) × σ :=
  match r.permitted? with
  | some allowed =>
    match site.live r allowed w with
    | (.ok newStatus, w) => ((r.emptyResponse, newStatus), w)
    | (.error e, w) => ((r.emptyResponse.withError e.toInfo, none), w)
  | none =>
    let (response, w) := site.provide (site.forwardedSubject r w) r w
    ((response, none), w)

/-- The report of the node's info, if it can be read. -/
def report (w : σ) : List NodeFrame :=
  match site.nodeInfo w with
  | .ok info => [⟨"", some (.info info)⟩]
  | .error _ => []

/-- Serves one frame. -/
def serve (f : RequestFrame) (w : σ) : Reply × σ :=
  match f.request with
  | none => ({}, w)
  | some r =>
    let ((response, newStatus), w) := site.answer r w
    let news := if newStatus.isSome then site.report w else []
    (⟨news ++ [⟨f.id, some (.response response)⟩], newStatus⟩, w)

end Site

end NodeAgent
