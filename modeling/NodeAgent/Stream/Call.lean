import NodeAgent.Message
/-!
# Calls on a stream

A call sends one request to a node and waits for the response. It passes through a fixed course of
single operations on what it shares with other calls: it looks whether the stream is open, enters
the pending table, looks again, offers its frame to the outbound channel, perhaps queues for a
place there, and waits for its slot to be filled. On any failure it leaves the table again. Other
calls, responses and the closing of the stream may come between any two of these operations, so
the stage a call has reached is part of the state.
-/

namespace NodeAgent

/-- What a call waits on. A slot is filled or dropped once and then stays as it is. -/
inductive Slot where
  | empty
  /-- The response arrived. -/
  | filled (message : NodeMessage)
  /-- Nobody will fill the slot any more. -/
  | dropped
deriving DecidableEq, Inhabited

namespace Slot

/-- Puts a response into an empty slot. -/
def fill (m : NodeMessage) : Slot → Slot
  | empty => filled m
  | s => s

/-- Gives up an empty slot. -/
def drop : Slot → Slot
  | empty => dropped
  | s => s

end Slot

/-- How far a call has come. -/
inductive CallStage where
  /-- It is about to look whether the stream is open. -/
  | opening
  /-- It is about to enter the pending table. -/
  | entering
  /-- It is about to look whether the stream is still open. -/
  | rechecking
  /-- It is about to offer its frame to the channel. -/
  | offering
  /-- It queues for a place in the channel. -/
  | queued
  /-- Its frame is in the channel and it waits for its slot. -/
  | awaiting
  /-- It failed and is about to leave the pending table. -/
  | leaving (e : StreamError)
  /-- It returned to its caller. -/
  | returned (result : Except StreamError NodeMessage)
  /-- Its caller went away and nothing of it runs any more. -/
  | abandoned

namespace CallStage

/-- Whether the call still runs. -/
def isRunning : CallStage → Bool
  | returned _ | abandoned => false
  | _ => true

end CallStage

/-- One call. -/
structure Call where
  /-- The identifier under which the response must come. -/
  id : RequestId
  request : Request
  /-- How long the call may take from its first offer on. -/
  timeout : Duration
  /-- When the time is up; set with the first offer. -/
  deadline : Instant := 0
  stage : CallStage := .opening
  slot : Slot := .empty

namespace Call

/-- The frame the call sends. -/
def frame (c : Call) : RequestFrame := ⟨c.id, some c.request⟩

/-- Fails the call; it has yet to leave the table. -/
def fail (e : StreamError) (c : Call) : Call := { c with stage := .leaving e }

/-- What the call returned. -/
def result? (c : Call) : Option (Except StreamError NodeMessage) :=
  match c.stage with
  | .returned r => some r
  | _ => none

/-- What the call returned as the response to its request. -/
def response? (c : Call) : Option (Except StreamError Response) :=
  c.result?.map fun r ↦ r.bind fun m ↦ m.expect c.request.kind

end Call

end NodeAgent
