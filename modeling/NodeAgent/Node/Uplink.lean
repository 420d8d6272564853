import NodeAgent.Node.Listener
import NodeAgent.Node.Service
import NodeAgent.Time.Duration
import NodeAgent.Tls.Files
/-!
# Sessions with the main node

A node that is not the main one keeps up a session with it, one after another. It dials the listener
that its status calls for, reports its info in the first frame, and then serves the requests that
come down, one at a time, until the session ends.

Why a session ends decides what comes next. If the main node ended it, or could not be reached, the
next one begins after a wait. If the node got a new identity, it begins at once. And if a request
moved the node across to the other listener, the answer to that request is the last that the node
says: it ends its own half, lets the main node end the other, and then dials the other listener.

`Uplink` is the node's side of all this. The network is not part of it: each function below is
something that happened, and what the node does about it.
-/

namespace NodeAgent

/-- Where the main node is, and how often it is dialled. -/
structure MainNode where
  publicUrl : String
  protectedUrl : String
  /-- The wait before the main node is dialled again. -/
  reconnectInterval : Duration := .ofSeconds 10
  /-- How long the main node may take to end its half of a session. -/
  drainTimeout : Duration := .ofSeconds 10

namespace MainNode

/-- Where a listener is. -/
def url (m : MainNode) : Listener → String
  | .publicSide => m.publicUrl
  | .protectedSide => m.protectedUrl

end MainNode

/-- What to dial a listener with. -/
def DialTls.of (t : DialTls) : Listener → Option ClientTls
  | .publicSide => t.publicTls
  | .protectedSide => t.protectedTls

/-- How far a node is with its sessions. -/
inductive Uplink.Phase where
  /-- The next session may begin. -/
  | ready
  /-- A listener was dialled; `first` will be the first frame. -/
  | dialling (listener : Listener) (first : NodeFrame)
  /-- Requests that come down are served. -/
  | serving (listener : Listener)
  /-- The node said its last, and the main node may still end its half. -/
  | draining (till : Instant)
  /-- The next session may begin at some time. -/
  | waiting (till : Instant)
  /-- There will be no more sessions. -/
  | stopped
deriving DecidableEq

/-- A node's side of its sessions with the main node. -/
structure Uplink where
  main : MainNode
  tls : DialTls := {}
  phase : Uplink.Phase := .ready
  /-- Whether there is a newer identity than the one that was dialled with. -/
  renewed : Bool := false
  /-- Whether the session under way is to be the last. -/
  stopping : Bool := false

namespace Uplink

variable {σ : Type}

/-- The session is over and the next one begins at once, unless there is to be none. -/
def again (u : Uplink) : Uplink :=
  { u with phase := if u.stopping then .stopped else .ready }

/-- The session is over and the next one begins after a wait, unless there is to be none. -/
def later (u : Uplink) (now : Instant) : Uplink :=
  { u with
    phase := if u.stopping then .stopped else .waiting (now + u.main.reconnectInterval.nanos) }

/-! ## Beginning a session -/

/-- Ends a wait that is over. -/
def wake (u : Uplink) (now : Instant) : Uplink :=
  match u.phase with
  | .waiting till => if now < till then u else u.again
  | .draining till => if now < till then u else u.again
  | _ => u

/-- Dials the listener that the status of the node calls for. Without the node's info there is
nothing to report, and so no session. -/
def dial (site : Site σ) (w : σ) (now : Instant) (u : Uplink) : Uplink :=
  match u.phase with
  | .ready =>
    if u.stopping then { u with phase := .stopped }
    else
      match site.nodeInfo w with
      | .error _ => u.later now
      | .ok info =>
        { u with renewed := false, phase := .dialling info.status.listener ⟨"", some (.info info)⟩ }
  | _ => u

/-- The main node cannot be reached. -/
def refused (u : Uplink) (now : Instant) : Uplink :=
  match u.phase with
  | .dialling _ _ => u.later now
  | _ => u

/-- The main node was reached; the first frame goes out. A session whose identity is out of date, or
which is not wanted any more, ends there. -/
def reached (u : Uplink) : List NodeFrame × Uplink :=
  match u.phase with
  | .dialling listener first =>
    ([first], if u.stopping || u.renewed then u.again else { u with phase := .serving listener })
  | _ => ([], u)

/-! ## Serving -/

/-- Serves a frame. A request that moves the node across to the other listener is the last. -/
def receive (site : Site σ) (f : RequestFrame) (now : Instant) (u : Uplink) (w : σ) :
    List NodeFrame × Uplink × σ :=
  match u.phase with
  | .serving listener =>
    let (reply, w) := site.serve f w
    let moved := reply.newStatus.any fun s ↦ s.listener ≠ listener
    (reply.frames,
      if moved then { u with phase := .draining (now + u.main.drainTimeout.nanos) } else u, w)
  | _ => ([], u, w)

/-- Whether the node still holds its half of a session. -/
def speaks (u : Uplink) : Bool :=
  match u.phase with
  | .serving _ => true
  | _ => false

/-- The main node ended its half of the session. -/
def ended (u : Uplink) (now : Instant) : Uplink :=
  match u.phase with
  | .serving _ => u.later now
  | .draining _ => u.again
  | _ => u

/-! ## From outside -/

/-- Dials with another identity from here on. A session under way ends, and the next one begins. -/
def renew (u : Uplink) (tls : DialTls) : Uplink :=
  let u := { u with tls, renewed := true }
  if u.speaks then u.again else u

/-- Ends the sessions. One that is about to begin or to end is let do so. -/
def stop (u : Uplink) : Uplink :=
  let u := { u with stopping := true }
  match u.phase with
  | .dialling _ _ | .draining _ => u
  | _ => { u with phase := .stopped }

end Uplink

end NodeAgent
