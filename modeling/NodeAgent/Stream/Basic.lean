import NodeAgent.Stream.Call
import NodeAgent.Table
/-!
# The stream of a connected node

A stream carries requests to one node and matches the node's responses to the calls that wait for
them. Calls meet in three places: the *pending table*, from request identifier to call; the bounded
*outbound channel*, with the calls that queue for a place in it, first come first served; and the
two flags that closing the stream sets.

Every function below is one operation on these, so a run of the stream is a list of them in any
order. `poll` lets one call do all it can do at an instant: that is the schedule under which the
agent runs, and one of the many that statements about streams speak of.
-/

namespace NodeAgent

/-- The stream of one connected node. -/
structure Stream where
  node : NodeId
  /-- How many frames the outbound channel holds. -/
  capacity : Nat := 64
  /-- Whether new calls are refused. -/
  closed : Bool := false
  /-- Whether waiting calls were told to give up, and the outbound side has ended. -/
  cancelled : Bool := false
  /-- Whether the outbound side is still held by somebody. -/
  receiving : Bool := true
  /-- Every call ever made, first to last. -/
  calls : List Call := []
  /-- The call that waits for each request identifier. -/
  pending : Table RequestId Nat := {}
  /-- The frames on their way to the node. -/
  channel : List RequestFrame := []
  /-- The calls that queue for a place in the channel. -/
  senders : List Nat := []

namespace Stream

/-! ## Calls by number -/

/-- The call of a number. -/
def call? (s : Stream) (i : Nat) : Option Call := s.calls[i]?

/-- Changes the call of a number. -/
def update (s : Stream) (i : Nat) (f : Call → Call) : Stream :=
  { s with calls := s.calls.modify i f }

/-- Makes a call; its number is the count of those before it. -/
def «open» (s : Stream) (id : RequestId) (request : Request) (timeout : Duration) : Stream :=
  { s with calls := s.calls ++ [{ id, request, timeout }] }

/-- The number the next call will have. -/
def nextCall (s : Stream) : Nat := s.calls.length

/-- The number of entries of the pending table. -/
def pendingCount (s : Stream) : Nat := s.pending.size

/-! ## The pending table -/

/-- Takes an entry out of the table and changes the slot of the call it belonged to. -/
def resolve (s : Stream) (id : RequestId) (f : Slot → Slot) : Stream :=
  match s.pending.get? id with
  | none => s
  | some i =>
    { s with pending := s.pending.erase id }.update i fun c ↦ { c with slot := f c.slot }

/-- Removes an entry; the call it belonged to will get no response. -/
def forget (s : Stream) (id : RequestId) : Stream := s.resolve id .drop

/-- Enters a call into the table. -/
def enter (s : Stream) (i : Nat) (id : RequestId) : Stream :=
  let s := s.forget id
  { s with pending := s.pending.insert id i }

/-- Delivers a message that came under an identifier. Says whether the table had the identifier;
whether somebody still waits for the slot makes no difference. -/
def deliver (s : Stream) (id : RequestId) (m : NodeMessage) : Bool × Stream :=
  (s.pending.contains id, s.resolve id (.fill m))

/-! ## Closing -/

/-- From here on new calls are refused. -/
def markClosed (s : Stream) : Stream := { s with closed := true }

/-- Empties the table; whoever waits for a response is told that none will come. -/
def clearPending (s : Stream) : Stream :=
  { s with
    pending := {}
    calls := s.calls.mapIdx fun i c ↦
      if i ∈ s.pending.values then { c with slot := c.slot.drop } else c }

/-- Ends the outbound side and tells waiting calls to give up. -/
def cancel (s : Stream) : Stream := { s with cancelled := true }

/-- Tears the stream down. A second time changes nothing. -/
def close (s : Stream) : Stream :=
  if s.closed then s else s.markClosed.clearPending.cancel

theorem close_of_closed {s : Stream} (h : s.closed = true) : s.close = s := by simp [close, h]

@[simp] theorem closed_close (s : Stream) : s.close.closed = true := by
  unfold close
  split <;> simp_all [cancel, clearPending, markClosed]

@[simp] theorem close_close (s : Stream) : s.close.close = s.close :=
  close_of_closed s.closed_close

/-! ## The outbound channel -/

/-- Whether a frame finds a place without queueing. -/
def hasRoom (s : Stream) : Bool := s.senders.isEmpty && s.channel.length < s.capacity

/-- Whether a call that has not got its place must give up. -/
def refusesFrames (s : Stream) : Bool := s.cancelled || !s.receiving

/-- Puts the frame of a call into the channel. From then on the call waits for its slot. -/
def enqueue (s : Stream) (i : Nat) (c : Call) : Stream :=
  { s with channel := s.channel ++ [c.frame] }.update i fun c ↦ { c with stage := .awaiting }

/-- Gives places that are free to the calls that queue longest. -/
def admitSenders (s : Stream) : Stream :=
  match s.senders with
  | [] => s
  | i :: rest =>
    match s.call? i with
    | none => { s with senders := rest }
    | some c => { s with senders := rest }.enqueue i c

/-- Takes the oldest frame out of the channel. The place goes at once to the call that queues
longest. -/
def take (s : Stream) : Option RequestFrame × Stream :=
  match s.channel with
  | [] => (none, s)
  | frame :: rest => (some frame, { s with channel := rest }.admitSenders)

/-- What the node's side of the stream yields. -/
inductive Outbound where
  | frame (f : RequestFrame)
  /-- Nothing at the moment. -/
  | empty
  | ended

/-- Takes what comes next on the node's side. It ends once the stream is torn down, whatever is
still in the channel. -/
def next (s : Stream) : Outbound × Stream :=
  if s.cancelled then (.ended, s)
  else
    match s.take with
    | (some f, s) => (.frame f, s)
    | (none, s) => (.empty, s)

/-- Drops the node's side of the stream, and the frames in the channel with it. -/
def hangUp (s : Stream) : Stream := { s with receiving := false, channel := [] }

/-! ## The course of a call -/

/-- Offers a frame: it goes into the channel, or the call queues. -/
def offer (s : Stream) (i : Nat) (c : Call) : Stream :=
  if s.hasRoom then s.enqueue i c
  else { s with senders := s.senders ++ [i] }.update i fun c ↦ { c with stage := .queued }

/-- Fails a call that has no place in the channel, if it queues for one. -/
def giveUp (s : Stream) (i : Nat) (e : StreamError) : Stream :=
  { s with senders := s.senders.filter (· ≠ i) }.update i (Call.fail e)

/-- Lets a call do its next operation, if it can. -/
def advance (s : Stream) (i : Nat) (now : Instant) : Stream :=
  match s.call? i with
  | none => s
  | some c =>
    match c.stage with
    | .opening =>
      if s.closed then s.update i fun c ↦ { c with stage := .returned (.error .streamClosed) }
      else s.update i fun c ↦ { c with stage := .entering }
    | .entering => (s.enter i c.id).update i fun c ↦ { c with stage := .rechecking }
    | .rechecking =>
      if s.closed then s.update i (Call.fail .streamClosed)
      else s.update i fun c ↦ { c with stage := .offering, deadline := now + c.timeout.nanos }
    | .offering => if s.refusesFrames then s.giveUp i .streamClosed else s.offer i c
    | .queued => if s.refusesFrames then s.giveUp i .streamClosed else s
    | .awaiting =>
      match c.slot with
      | .empty => s
      | .filled m => s.update i fun c ↦ { c with stage := .returned (.ok m) }
      | .dropped => s.update i (Call.fail .streamClosed)
    | .leaving e => (s.forget c.id).update i fun c ↦ { c with stage := .returned (.error e) }
    | .returned _ | .abandoned => s

/-- Whether a call waits for something that has not happened. -/
def isStuck (s : Stream) (c : Call) : Bool :=
  match c.stage with
  | .queued => !s.refusesFrames
  | .awaiting => c.slot = .empty
  | _ => false

/-- Fails a call whose time is up. Whatever the call waited for comes first if it happened too. -/
def expire (s : Stream) (i : Nat) (now : Instant) : Stream :=
  match s.call? i with
  | none => s
  | some c =>
    if s.isStuck c && decide (c.deadline ≤ now) then s.giveUp i (.timeout c.timeout) else s

/-- Drops a call at the point it has reached. Its entry in the table stays. -/
def abandon (s : Stream) (i : Nat) : Stream :=
  match s.call? i with
  | none => s
  | some c =>
    if c.stage.isRunning then
      { s with senders := s.senders.filter (· ≠ i) }.update i fun c ↦ { c with stage := .abandoned }
    else s

/-! ## Running -/

/-- Lets a call do up to `steps` operations. -/
def advanceBy (s : Stream) (i : Nat) (now : Instant) : (steps : Nat) → Stream
  | 0 => s
  | steps + 1 => (s.advance i now).advanceBy i now steps

/-- Lets a call do all that it can do now. No course is longer than seven operations. -/
def poll (s : Stream) (i : Nat) (now : Instant) : Stream :=
  ((s.advanceBy i now 7).expire i now).advance i now

/-- Lets every call do all that it can do now, in the order in which they were made. -/
def pollAll (s : Stream) (now : Instant) : Stream :=
  (List.range s.calls.length).foldl (fun s i ↦ s.poll i now) s

end Stream

end NodeAgent
