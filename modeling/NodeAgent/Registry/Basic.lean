import NodeAgent.Registry.Registration
import NodeAgent.Node.Store
/-!
# The registry of connected nodes

The registry links each connected node to the registration over which it is reached. A node that
registers again is linked to its new registration and the stream of the old one is torn down. A
node that reports a status which its listener does not accept is unlinked, and linked again when it
reports one that is accepted, if nobody else is linked for it by then.

Linking and unlinking are the only changes of the table, and each tells a *connection event*; the
events are kept in order, so the table can be compared with what was told about it. What the node
says about itself goes to the node store before the node is linked.
-/

namespace NodeAgent

/-- What is told about connections. -/
inductive ConnectionEvent where
  | connected (node : NodeId)
  | disconnected (node : NodeId)
deriving DecidableEq

/-- Somebody who waits until a node is connected. -/
structure ConnectionWait where
  node : NodeId
  deadline : Instant
  /-- How many events it has consumed. -/
  position : Nat
  /-- What it came to: the registration found, or none in time. -/
  outcome : Option (Option Nat) := none

/-- The connected nodes, and the records of all known ones. -/
structure Registry where
  /-- How long a registration may take to send its first frame. -/
  firstFrameTimeout : Duration := .ofSeconds 30
  /-- Whether registrations are refused. -/
  closed : Bool := false
  /-- Every registration ever made, first to last. -/
  registrations : List Registration := []
  /-- The registration by which each connected node is reached. -/
  links : Table NodeId Nat := {}
  /-- Everything that was told about connections. -/
  events : List ConnectionEvent := []
  store : NodeStore := {}
  waits : List ConnectionWait := []
deriving Inhabited

namespace Registry

/-! ## Registrations by number -/

/-- The registration of a number. -/
def registration? (r : Registry) (i : Nat) : Option Registration := r.registrations[i]?

/-- The stream of an admitted registration. -/
def stream? (r : Registry) (i : Nat) : Option Stream := (r.registration? i).bind (·.stream?)

/-- Changes the registration of a number. -/
def update (r : Registry) (i : Nat) (f : Registration → Registration) : Registry :=
  { r with registrations := r.registrations.modify i f }

/-- Changes the stream of an admitted registration. -/
def updateStream (r : Registry) (i : Nat) (f : Stream → Stream) : Registry :=
  r.update i (.mapStream f)

/-- The registration by which a connected node is reached. -/
def find? (r : Registry) (node : NodeId) : Option Nat := r.links.get? node

/-- The connected nodes in ascending order. -/
def connected (r : Registry) : List NodeId := r.links.keys.mergeSort fun a b ↦ decide (a ≤ b)

/-- Tells an event. -/
def tell (r : Registry) (e : ConnectionEvent) : Registry := { r with events := r.events ++ [e] }

/-! ## Links -/

/-- Links an admitted registration to its node. The stream that was linked before, if it is another
one, is torn down. -/
def link (r : Registry) (i : Nat) : Registry :=
  match r.stream? i with
  | none => r
  | some s =>
    let linked := { r with links := r.links.insert s.node i }
    let linked := match r.find? s.node with
      | some j => if j = i then linked else linked.updateStream j .close
      | none => linked
    linked.tell (.connected s.node)

/-- Unlinks a registration from its node, if it is still the one that is linked. -/
def unlink (r : Registry) (i : Nat) : Registry :=
  match r.stream? i with
  | none => r
  | some s =>
    if r.find? s.node = some i then
      { r with links := r.links.erase s.node }.tell (.disconnected s.node)
    else r

/-- Accepts registrations again. -/
def start (r : Registry) : Registry := { r with closed := false }

/-- Refuses registrations, and tears down the stream of every connected node. -/
def close (r : Registry) : Registry :=
  r.links.entries.foldl (fun r e ↦ (r.updateStream e.2 .close).tell (.disconnected e.1))
    { r with closed := true, links := {} }

/-! ## Admission -/

/-- A registration comes to a listener that accepts the given statuses, with what it already
brought. -/
def arrive (r : Registry) (allowed : List NodeStatus) (arrived : List Arrival) (ended : Bool)
    (now : Instant) : Registry :=
  let admission :=
    if r.closed then .refused .handlerClosed else .waiting (now + r.firstFrameTimeout.nanos)
  { r with registrations := r.registrations ++ [{ allowed, arrived, ended, admission }] }

/-- Admits or refuses a registration on the info it opened with: the status must be one that the
listener accepts, the record must get stored, and the registry must be open to link the node. -/
def admitWith (r : Registry) (i : Nat) (allowed : List NodeStatus) (info : NodeInfo) : Registry :=
  if info.status ∉ allowed then r.update i (.refuse (.notAllowed info.nodeId info.status))
  else
    match r.store.setInfo info with
    | (.error e, store) => { r with store }.update i (.refuse (.service e))
    | (.ok (), store) =>
      let r := { r with store }
      if r.closed then r.update i (.refuse .handlerClosed)
      else
        (r.update i fun g ↦ { g with admission := .admitted { node := info.nodeId } true }).link i

/-- Decides on a registration that waits for its first frame, if it can be decided now. -/
def review (r : Registry) (i : Nat) (now : Instant) : Registry :=
  match r.registration? i with
  | none => r
  | some g =>
    match g.admission with
    | .waiting deadline =>
      match g.arrived with
      | .frame ⟨_, some (.info info)⟩ :: rest =>
        (r.update i fun g ↦ { g with arrived := rest }).admitWith i g.allowed info
      | .frame _ :: _ => r.update i (.refuse .missingNodeInfo)
      | .fault :: _ => r.update i (.refuse .streamClosed)
      | [] =>
        if g.ended then r.update i (.refuse .streamClosed)
        else if deadline ≤ now then r.update i (.refuse (.timeout r.firstFrameTimeout))
        else r
    | _ => r

/-! ## Reading -/

/-- Takes in what a node reports about itself. A report about another node is ignored. A status
that the listener does not accept unlinks the node and is not stored. -/
def report (r : Registry) (i : Nat) (g : Registration) (s : Stream) (info : NodeInfo) : Registry :=
  if info.nodeId ≠ s.node then r
  else if info.status ∉ g.allowed then r.unlink i
  else
    match r.store.setInfo info with
    | (.error _, store) => { r with store }
    | (.ok (), store) =>
      let r := { r with store }
      if (r.find? s.node).isNone && !r.closed then r.link i else r

/-- The reader of a registration stops: the stream is torn down and the node unlinked, unless it
is linked to another registration by then. -/
def stop (r : Registry) (i : Nat) : Registry :=
  ((r.updateStream i .close).unlink i).update i .stopReading

/-- The reader of a registration takes the next of what arrived, and stops at the end of it. -/
def readNext (r : Registry) (i : Nat) (g : Registration) (s : Stream) : Registry :=
  match g.arrived with
  | [] => if g.ended then r.stop i else r
  | .fault :: _ => r.stop i
  | .frame f :: rest =>
    let r := r.update i fun g ↦ { g with arrived := rest }
    match f.message with
    | none => r
    | some (.info info) => r.report i g s info
    | some m => r.updateStream i fun s ↦ (s.deliver f.id m).2

/-- The reader of a registration takes the next of what arrived, or notices that it has to stop. -/
def readOne (r : Registry) (i : Nat) : Registry :=
  match r.registration? i with
  | none => r
  | some g =>
    match g.admission with
    | .admitted s true => if s.cancelled then r.stop i else r.readNext i g s
    | _ => r

/-- The reader of a registration takes up to `count` things. -/
def readMany (r : Registry) (i : Nat) : (count : Nat) → Registry
  | 0 => r
  | count + 1 => (r.readOne i).readMany i count

/-- The reader of a registration takes all that arrived, and stops if it has to. -/
def read (r : Registry) (i : Nat) : Registry :=
  r.readMany i (((r.registration? i).map fun g ↦ g.arrived.length + 1).getD 0)

/-- Something arrives from a node. Says whether anybody will read it. -/
def receive (r : Registry) (i : Nat) (a : Arrival) : Bool × Registry :=
  match r.registration? i with
  | none => (false, r)
  | some g =>
    if g.isReading then (true, r.update i fun g ↦ { g with arrived := g.arrived ++ [a] })
    else (false, r)

/-- Nothing will arrive from a node any more. -/
def endInbound (r : Registry) (i : Nat) : Registry := r.update i fun g ↦ { g with ended := true }

/-! ## Waiting for a connection -/

/-- How many events are kept for somebody who has not consumed them. -/
def keptEvents : Nat := 64

/-- Looks the node up, and ends the wait if it is connected. -/
def lookUp (r : Registry) (w : ConnectionWait) : ConnectionWait :=
  match r.find? w.node with
  | some i => { w with outcome := some (some i) }
  | none => w

/-- A wait for a node to be connected begins; it may be over at once. -/
def wait (r : Registry) (node : NodeId) (timeout : Duration) (now : Instant) : Registry :=
  { r with
    waits := r.waits ++ [r.lookUp ⟨node, now + timeout.nanos, r.events.length, none⟩] }

/-- A wait consumes one event. When more events were told than are kept it goes on with the oldest
kept one; it looks the node up then, and whenever the node is told to be connected. -/
def consume (r : Registry) (w : ConnectionWait) : ConnectionWait :=
  if w.outcome.isSome then w
  else if w.position + keptEvents < r.events.length then
    r.lookUp { w with position := r.events.length - keptEvents }
  else
    match r.events[w.position]? with
    | none => w
    | some e =>
      let w := { w with position := w.position + 1 }
      if e = .connected w.node then r.lookUp w else w

/-- A wait consumes up to `count` events. -/
def consumeMany (r : Registry) (w : ConnectionWait) : (count : Nat) → ConnectionWait
  | 0 => w
  | count + 1 => r.consumeMany (r.consume w) count

/-- A wait consumes all events there are, and ends without a connection when its time is up. -/
def pollWait (r : Registry) (now : Instant) (w : ConnectionWait) : ConnectionWait :=
  let w := r.consumeMany w (r.events.length - w.position + 1)
  if w.outcome.isNone && decide (w.deadline ≤ now) then { w with outcome := some none } else w

/-! ## Running -/

/-- Does something for every registration, first to last. -/
def forEach (r : Registry) (f : Registry → Nat → Registry) : Registry :=
  (List.range r.registrations.length).foldl f r

/-- Lets registrations, waits, readers and calls each do what they can do now. -/
def pass (r : Registry) (now : Instant) : Registry :=
  let r := r.forEach fun r i ↦ r.review i now
  let r := { r with waits := r.waits.map (r.pollWait now) }
  let r := r.forEach .read
  { r with registrations := r.registrations.map (.mapStream fun s ↦ s.pollAll now) }

/-- Lets everything happen that can happen now. A second pass sees to what the readers of the first
one caused for registrations before them. -/
def settle (r : Registry) (now : Instant) : Registry := (r.pass now).pass now

end Registry

end NodeAgent
