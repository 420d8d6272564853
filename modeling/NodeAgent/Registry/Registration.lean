import NodeAgent.Stream.Basic
/-!
# Registrations

A node connects by opening a registration stream and sending its info as the first frame. Until
that frame came the registration waits, for a limited time; then it is either admitted, and owns
the `Stream` over which requests reach the node, or refused. An admitted registration has a reader
that works through what the node sends until the stream is torn down, breaks or ends.
-/

namespace NodeAgent

/-- What reaches the reader of a registration. -/
inductive Arrival where
  | frame (f : NodeFrame)
  /-- The transport broke. -/
  | fault

/-- Where a registration stands. -/
inductive Admission where
  /-- The first frame has not come; there is a time limit for it. -/
  | waiting (deadline : Instant)
  | refused (e : StreamError)
  /-- The node is served over the stream; `reading` says whether its frames are still read. -/
  | admitted (stream : Stream) (reading : Bool)

/-- One registration of a node. -/
structure Registration where
  /-- The statuses that the listener it came to accepts. -/
  allowed : List NodeStatus
  /-- What arrived and was not read yet. -/
  arrived : List Arrival := []
  /-- Whether nothing will arrive any more. -/
  ended : Bool := false
  admission : Admission

namespace Registration

/-- The stream of an admitted registration. -/
def stream? (g : Registration) : Option Stream :=
  match g.admission with
  | .admitted s _ => some s
  | _ => none

/-- Whether frames of the node are still read. -/
def isReading (g : Registration) : Bool :=
  match g.admission with
  | .waiting _ => true
  | .refused _ => false
  | .admitted _ reading => reading

/-- Changes the stream of an admitted registration. -/
def mapStream (f : Stream → Stream) (g : Registration) : Registration :=
  match g.admission with
  | .admitted s reading => { g with admission := .admitted (f s) reading }
  | _ => g

/-- Refuses the registration. -/
def refuse (e : StreamError) (g : Registration) : Registration :=
  { g with admission := .refused e, arrived := [] }

/-- Stops reading. -/
def stopReading (g : Registration) : Registration :=
  match g.admission with
  | .admitted s _ => { g with admission := .admitted s false, arrived := [] }
  | _ => g

/-- The answer to the registration, once there is one. -/
def result? (g : Registration) : Option (Except StreamError Unit) :=
  match g.admission with
  | .waiting _ => none
  | .refused e => some (.error e)
  | .admitted _ _ => some (.ok ())

end Registration

end NodeAgent
