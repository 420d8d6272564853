import NodeAgent.Node.Status
/-!
# The two listeners

The main node listens at two places. Nodes that are not provisioned yet have no certificate and
come to the public listener; provisioned and paused nodes come to the protected one. A listener
registers nodes of its own statuses only, and a node dials the listener that registers its status.
-/

namespace NodeAgent

/-- Where a peer connects. -/
inductive Listener where
  /-- Open to peers without a certificate. -/
  | publicSide
  /-- Open to peers with a certificate only. -/
  | protectedSide
deriving DecidableEq, Inhabited

namespace Listener

/-- The name of the listener. -/
def name : Listener → String
  | publicSide => "public"
  | protectedSide => "protected"

/-- The statuses of the nodes that may register at the listener. -/
def allowed : Listener → List NodeStatus
  | publicSide => [.unprovisioned]
  | protectedSide => [.provisioned, .paused]

end Listener

/-- The listener that a node of the status dials. -/
def NodeStatus.listener : NodeStatus → Listener
  | .provisioned | .paused => .protectedSide
  | .unspecified | .unprovisioned => .publicSide

end NodeAgent
