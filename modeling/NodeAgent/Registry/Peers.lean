import NodeAgent.Registry.Basic
import NodeAgent.Stream.Receiver
/-!
# Peers of a registry

The node's side of registrations, played under names. A peer sends frames until it ends its sending
side, and reads what is sent to it until it drops its receiving side; the two are independent, as
they are for a node. A registration that was refused leaves a peer that can still send, into the
void, but has nothing to read.
-/

namespace NodeAgent

/-- The node's side of one registration. -/
structure Peer where
  /-- The number of the registration. -/
  number : Nat
  /-- Whether it can still send. -/
  sends : Bool
  /-- Whether it holds its receiving side. -/
  holds : Bool := true
  /-- Whether it knows the outcome of its registration. -/
  told : Bool := false
  receiver : Receiver := {}

/-- Peers by name. -/
abbrev Peers := Table String Peer

namespace Peers

/-- The registration of a peer that was admitted and holds its receiving side. -/
def held (ps : Peers) (r : Registry) (name : String) : Option Nat :=
  (ps.get? name).bind fun p ↦
    if p.holds && (r.stream? p.number).isSome then some p.number else none

/-- The registration of a peer that can send. -/
def sender (ps : Peers) (name : String) : Option Nat :=
  (ps.get? name).bind fun p ↦ if p.sends then some p.number else none

/-- Changes a peer. -/
def update (ps : Peers) (name : String) (f : Peer → Peer) : Peers :=
  ⟨ps.entries.map fun e ↦ if e.1 = name then (e.1, f e.2) else e⟩

/-- What a peer reads next. Over a connection it is brought more than one frame at a time. -/
def receive (ps : Peers) (connected : Bool) (name : String) (r : Registry) :
    Option (Stream.Outbound × Registry × Peers) :=
  (ps.held r name).bind fun k ↦
    match r.stream? k, ps.get? name with
    | some s, some p =>
      let (o, receiver, s) := if connected then p.receiver.next s else
        let (o, s) := s.next
        (o, p.receiver, s)
      some (o, r.updateStream k fun _ ↦ s, ps.update name fun p ↦ { p with receiver })
    | _, _ => none

/-- A peer sends; whether it could. -/
def send (ps : Peers) (name : String) (a : Arrival) (r : Registry) : Option (Bool × Registry) :=
  (ps.sender name).map fun k ↦ r.receive k a

/-- A peer ends its sending side; whether it had one. -/
def endSending (ps : Peers) (name : String) (r : Registry) : Bool × Registry × Peers :=
  match ps.sender name with
  | some k => (true, r.endInbound k, ps.update name fun p ↦ { p with sends := false })
  | none => (false, r, ps)

/-- A peer drops its receiving side; whether it had one. -/
def hangUp (ps : Peers) (name : String) (r : Registry) : Bool × Registry × Peers :=
  match ps.held r name with
  | some k =>
    (true, r.updateStream k (·.hangUp), ps.update name fun p ↦ { p with holds := false })
  | none => (false, r, ps)

/-- The outcomes of registrations that their peers were not told before. -/
def outcomes (ps : Peers) (r : Registry) : List (String × Except StreamError Unit) × Peers :=
  let result? (p : Peer) := if p.told then none else (r.registration? p.number).bind (·.result?)
  (ps.entries.filterMap fun e ↦ (result? e.2).map fun x ↦ (e.1, x),
    ⟨ps.entries.map fun e ↦ (e.1, { e.2 with told := e.2.told || (result? e.2).isSome })⟩)

end Peers

end NodeAgent
