import NodeAgent.Agent.Call
/-!
# Sending requests on

A request for another node is attempted under the retry policy. An attempt looks the node's stream
up and makes a call on it; without a stream it fails, and only that failure is worth another
attempt. The response ends the request like one that was carried out here.

`settle` lets everything happen that can happen at an instant: registrations, readers, calls, and
the requests that wait for them.
-/

namespace NodeAgent.Agent

variable {σ : Type}

/-- Changes the forwarded request of a number. -/
def updateForward (a : Agent σ) (i : Nat) (f : Forward → Forward) : Agent σ :=
  { a with forwards := a.forwards.modify i f }

/-- Makes the call of a forwarded request on the stream of a registration. -/
def makeCall (a : Agent σ) (i : Nat) (f : Forward) (g : Nat) : Agent σ :=
  let k := ((a.registry.stream? g).map (·.nextCall)).getD 0
  let id := a.names.requestId a.named
  { a with
    named := a.named + 1
    registry := a.registry.updateStream g (·.open id f.request (a.timeoutOf f.request)) }
    |>.updateForward i fun f ↦ { f with call := some (g, k) }

/-- Lets a call do all that it can do now. -/
def pollCall (a : Agent σ) (place : Nat × Nat) (now : Instant) : Agent σ :=
  { a with registry := a.registry.updateStream place.1 (·.poll place.2 now) }

/-- Begins the attempt of a forwarded request: makes a call on the node's stream, or fails for want
of one. -/
def attempt (a : Agent σ) (i : Nat) (f : Forward) (now : Instant) : Agent σ :=
  match a.registry.find? f.request.node with
  | none =>
    a.updateForward i fun f ↦ { f with retry := f.retry.ended (.error .streamNotFound) now }
  | some g =>
    let k := ((a.registry.stream? g).map (·.nextCall)).getD 0
    (a.makeCall i f g).pollCall (g, k) now

/-- The response to the call of an attempt, once it returned. -/
def response? (a : Agent σ) (place : Nat × Nat) : Option (Except StreamError Response) :=
  ((a.registry.stream? place.1).bind (·.call? place.2)).bind (·.response?)

/-- Answers the peer of a forwarded request that ended. -/
def answerForward (a : Agent σ) (i : Nat) (f : Forward) (result : Except StreamError Response) :
    Agent σ :=
  match result with
  | .error e => a.updateForward i fun f ↦ { f with outcome := some (.error e.toStatus) }
  | .ok response =>
    let (response, a) := a.conclude f.request response
    a.updateForward i fun f ↦ { f with outcome := some (.ok response) }

/-- Lets a forwarded request make its next move. -/
def stepForward (a : Agent σ) (i : Nat) (f : Forward) (now : Instant) : Agent σ :=
  match f.retry.phase with
  | .ready => a.updateForward i fun f ↦ { f with retry := f.retry.start (a.hasEnded f.epoch) now }
  | .attempting =>
    match f.call with
    | none => a.attempt i f now
    | some place =>
      match a.response? place with
      | none => a
      | some r => a.updateForward i fun f ↦ { f with retry := f.retry.ended r now, call := none }
  | .waiting _ =>
    a.updateForward i fun f ↦ { f with retry := f.retry.wake (a.hasEnded f.epoch) now }
  | .finished result _ => if f.outcome.isSome then a else a.answerForward i f result

/-- Whether a forwarded request waits for something that has not happened. -/
def isStuck (a : Agent σ) (f : Forward) (now : Instant) : Bool :=
  match f.retry.phase with
  | .ready => false
  | .attempting => f.call.any fun place ↦ (a.response? place).isNone
  | .waiting till => !a.hasEnded f.epoch && decide (now < till)
  | .finished _ _ => f.outcome.isSome

/-- Lets a forwarded request make up to `moves` moves. -/
def runForward (a : Agent σ) (i : Nat) (now : Instant) : (moves : Nat) → Agent σ
  | 0 => a
  | moves + 1 =>
    match a.forwards[i]? with
    | none => a
    | some f => if a.isStuck f now then a else (a.stepForward i f now).runForward i now moves

/-- Lets a forwarded request do all that it can do now. An attempt takes at most four moves, and
answering one more. -/
def pollForward (a : Agent σ) (now : Instant) (i : Nat) : Agent σ :=
  a.runForward i now (4 * a.config.retry.limit + 2)

/-- Lets everything happen that can happen now. -/
def settle (a : Agent σ) (now : Instant) : Agent σ :=
  let a := { a with registry := a.registry.settle now }
  ((List.range a.forwards.length).foldl (fun a i ↦ a.pollForward now i) a).relay

end NodeAgent.Agent
