import NodeAgent.Stream.Basic
import Mathlib.Data.List.Induction

/-!
# Runs of a stream

Callers, the reader of the node's frames, whoever takes frames for the node and whoever tears the
stream down all act on one stream, each doing one operation at a time. Nothing is known of the order
in which they come, so a *run* is any list of *moves* whatsoever, and a statement about every run is
one about every schedule. The functions by which the agent drives a stream are runs among others
(`poll_eq_uses`, `pollAll_eq_uses`, `close_eq_run`).

## Giving up and offering at once

A call that is about to offer its frame may find the stream cancelled and a free place in the
channel at the same time. `Stream.advance` gives up then. A schedule may take the other way out as
well, and `Use.insist` is that way.

## What a move does to a call

Calls only move forwards. `Call.Evolves` collects what stays true of a call from any point of a run
to any later one: what it asked for, a slot once it is no longer empty, a result once there is one,
a failure once it has happened, and that its frame goes into the channel at most once.
-/

namespace NodeAgent

/-! ## Stages of a call -/

namespace CallStage

/-- The call is in the pending table unless something resolved it, and it has not failed. -/
def isWaiting : CallStage → Bool
  | rechecking | offering | queued | awaiting => true
  | _ => false

/-- The call may have an entry in the pending table. -/
def mayBePending : CallStage → Bool
  | rechecking | offering | queued | awaiting | leaving _ | abandoned => true
  | _ => false

/-- The frame of the call has not gone into the channel, and still may. -/
def isUnsent : CallStage → Bool
  | opening | entering | rechecking | offering | queued => true
  | _ => false

/-- The call will never return a response. -/
def isLost : CallStage → Bool
  | leaving _ | returned (.error _) | abandoned => true
  | _ => false

/-- The second stage is the first or comes after it in the course of a call. -/
structure Precedes (a b : CallStage) : Prop where
  returned : ∀ r, a = .returned r → b = .returned r
  lost : a.isLost = true → b.isLost = true
  unsent : b.isUnsent = true → a.isUnsent = true
  /-- A frame that went into the channel in between had not been there. -/
  sent : b = .awaiting → a = .awaiting ∨ a.isUnsent = true

theorem Precedes.refl (a : CallStage) : Precedes a a := ⟨fun _ h ↦ h, id, id, Or.inl⟩

theorem Precedes.trans {a b c : CallStage} (hab : Precedes a b) (hbc : Precedes b c) :
    Precedes a c where
  returned r h := hbc.returned r (hab.returned r h)
  lost h := hbc.lost (hab.lost h)
  unsent h := hab.unsent (hbc.unsent h)
  sent h := by
    rcases hbc.sent h with hb | hb
    · exact hab.sent hb
    · exact Or.inr (hab.unsent hb)

theorem Precedes.isLost_eq_false {a b : CallStage} (h : a.Precedes b) (hb : b.isLost = false) :
    a.isLost = false := by
  rw [Bool.eq_false_iff]
  intro ha
  rw [h.lost ha] at hb
  cases hb

theorem Precedes.isUnsent_eq_false {a b : CallStage} (h : a.Precedes b)
    (ha : a.isUnsent = false) : b.isUnsent = false := by
  rw [Bool.eq_false_iff]
  intro hb
  rw [h.unsent hb] at ha
  cases ha

/-- A running stage precedes every failure. -/
theorem Precedes.of_isLost {a b : CallStage} (ha : a.isRunning = true) (hb : b.isLost = true) :
    Precedes a b where
  returned r h := by rw [h] at ha; simp [isRunning] at ha
  lost _ := hb
  unsent h := by cases b <;> simp_all [isLost, isUnsent]
  sent h := by rw [h] at hb; simp [isLost] at hb

theorem Precedes.of_isUnsent {a b : CallStage} (ha : a.isUnsent = true) : Precedes a b where
  returned r h := by rw [h] at ha; simp [isUnsent] at ha
  lost h := by cases a <;> simp_all [isLost, isUnsent]
  unsent _ := ha
  sent _ := Or.inr ha

end CallStage

theorem Call.result?_eq_some {c : Call} {r : Except StreamError NodeMessage} :
    c.result? = some r ↔ c.stage = .returned r := by
  unfold Call.result?
  split <;> simp_all

/-- Whether a failure is one that a call comes to by itself. -/
def StreamError.ofCall : StreamError → Bool
  | streamClosed | timeout _ => true
  | _ => false

/-- The second call is the first at a later time. -/
structure Call.Evolves (c c' : Call) : Prop where
  id : c'.id = c.id
  request : c'.request = c.request
  timeout : c'.timeout = c.timeout
  slot : c.slot ≠ .empty → c'.slot = c.slot
  stage : c.stage.Precedes c'.stage

namespace Call.Evolves

theorem refl (c : Call) : c.Evolves c := ⟨rfl, rfl, rfl, fun _ ↦ rfl, .refl _⟩

theorem trans {c d e : Call} (hcd : c.Evolves d) (hde : d.Evolves e) : c.Evolves e where
  id := hde.id.trans hcd.id
  request := hde.request.trans hcd.request
  timeout := hde.timeout.trans hcd.timeout
  slot h := by
    have hd := hcd.slot h
    rw [hde.slot (hd ▸ h), hd]
  stage := hcd.stage.trans hde.stage

theorem frame {c c' : Call} (h : c.Evolves c') : c'.frame = c.frame := by
  rw [Call.frame, Call.frame, h.id, h.request]

/-- A call whose slot is given up, if it was empty. -/
theorem of_drop (c : Call) : c.Evolves { c with slot := c.slot.drop } :=
  ⟨rfl, rfl, rfl, fun h ↦ by cases hc : c.slot <;> simp_all [Slot.drop], .refl _⟩

/-- A call whose slot is filled, if it was empty. -/
theorem of_fill (c : Call) (m : NodeMessage) : c.Evolves { c with slot := c.slot.fill m } :=
  ⟨rfl, rfl, rfl, fun h ↦ by cases hc : c.slot <;> simp_all [Slot.fill], .refl _⟩

/-- A call that came to another stage. -/
theorem of_stage {c c' : Call} (hc : c' = { c with stage := c'.stage, deadline := c'.deadline })
    (h : c.stage.Precedes c'.stage) : c.Evolves c' := by
  refine ⟨?_, ?_, ?_, fun _ ↦ ?_, h⟩ <;> rw [hc]

end Call.Evolves

namespace Stream

/-! ## Moves -/

/-- What the callers of a stream and the node's side of it do. -/
inductive Use where
  | «open» (id : RequestId) (request : Request) (timeout : Duration)
  | advance (i : Nat) (now : Instant)
  /-- A call offers its frame where it might have given up. -/
  | insist (i : Nat)
  | expire (i : Nat) (now : Instant)
  | abandon (i : Nat)
  | take
  | hangUp

/-- One operation on a stream. Tearing a stream down is three of them. -/
inductive Move where
  | use (u : Use)
  | deliver (id : RequestId) (m : NodeMessage)
  | markClosed
  | clearPending
  | cancel

/-- Offers the frame of a call that is about to, whether or not the call might give up. -/
def insist (s : Stream) (i : Nat) : Stream :=
  match s.call? i with
  | none => s
  | some c =>
    match c.stage with
    | .offering => if s.receiving then s.offer i c else s
    | _ => s

/-- The stream after somebody used it. -/
def use (s : Stream) : Use → Stream
  | .open id request timeout => s.open id request timeout
  | .advance i now => s.advance i now
  | .insist i => s.insist i
  | .expire i now => s.expire i now
  | .abandon i => s.abandon i
  | .take => s.take.2
  | .hangUp => s.hangUp

/-- The stream after a move. -/
def step (s : Stream) : Move → Stream
  | .use u => s.use u
  | .deliver id m => (s.deliver id m).2
  | .markClosed => s.markClosed
  | .clearPending => s.clearPending
  | .cancel => s.cancel

/-- The stream after a run. -/
def run (s : Stream) (moves : List Move) : Stream := moves.foldl step s

@[simp] theorem run_nil (s : Stream) : s.run [] = s := rfl

theorem run_append (s : Stream) (l l' : List Move) : s.run (l ++ l') = (s.run l).run l' :=
  List.foldl_append

theorem run_concat (s : Stream) (l : List Move) (mv : Move) :
    s.run (l ++ [mv]) = (s.run l).step mv := by
  rw [run_append]
  rfl

/-- The moves that tear a stream down. -/
def closing (s : Stream) : List Move :=
  if s.closed then [] else [.markClosed, .clearPending, .cancel]

theorem close_eq_run (s : Stream) : s.close = s.run s.closing := by
  unfold close closing
  split <;> rfl

@[simp] theorem node_close (s : Stream) : s.close.node = s.node := by
  unfold close
  split <;> rfl

theorem advanceBy_eq_uses (i : Nat) (now : Instant) (n : Nat) (s : Stream) :
    s.advanceBy i now n = (List.replicate n (.advance i now)).foldl use s := by
  induction n generalizing s with
  | zero => rfl
  | succ n ih => rw [advanceBy, ih, List.replicate_succ]; rfl

/-- The operations by which a call does all that it can do at an instant. -/
def polling (i : Nat) (now : Instant) : List Use :=
  List.replicate 7 (.advance i now) ++ [.expire i now, .advance i now]

theorem poll_eq_uses (s : Stream) (i : Nat) (now : Instant) :
    s.poll i now = (polling i now).foldl use s := by
  have hlast : ∀ t : Stream, [Use.expire i now, .advance i now].foldl use t =
      (t.expire i now).advance i now := fun _ ↦ rfl
  rw [poll, advanceBy_eq_uses, polling, List.foldl_append, hlast]

theorem pollAll_eq_uses (s : Stream) (now : Instant) :
    s.pollAll now =
      ((List.range s.calls.length).flatMap fun i ↦ polling i now).foldl use s := by
  unfold pollAll
  generalize List.range s.calls.length = l
  induction l generalizing s with
  | nil => rfl
  | cons i l ih => rw [List.foldl_cons, ih, List.flatMap_cons, List.foldl_append, poll_eq_uses]

/-! ## What a call does by itself

Four of the moves let a call act: it goes on, it offers its frame come what may, its time is up, or
its caller goes away. Whatever they do to the stream is one of the six things below, so that what
holds of all four is shown once. -/

/-- The stages that follow another without a change of the table, the channel or the queue, given
the slot of the call. -/
inductive Follows (slot : Slot) : CallStage → CallStage → Prop where
  | refused : Follows slot .opening (.returned (.error .streamClosed))
  | admitted : Follows slot .opening .entering
  | overtaken : Follows slot .rechecking (.leaving .streamClosed)
  | ready : Follows slot .rechecking .offering
  | answered {m : NodeMessage} : slot = .filled m → Follows slot .awaiting (.returned (.ok m))
  | dropped : Follows slot .awaiting (.leaving .streamClosed)

namespace Follows

variable {slot : Slot} {a b : CallStage}

theorem precedes (h : Follows slot a b) : a.Precedes b := by
  cases h with
  | refused => exact .of_isUnsent rfl
  | admitted => exact .of_isUnsent rfl
  | overtaken => exact .of_isUnsent rfl
  | ready => exact .of_isUnsent rfl
  | answered h => exact ⟨by simp, by simp [CallStage.isLost], by simp [CallStage.isUnsent], by simp⟩
  | dropped => exact .of_isLost rfl rfl

theorem ne_queued (h : Follows slot a b) : a ≠ .queued ∧ b ≠ .queued ∧ b ≠ .awaiting := by
  cases h <;> simp

theorem early (h : Follows slot a b) (hb : b = .opening ∨ b = .entering) :
    a = .opening ∨ a = .entering := by
  cases h <;> simp at hb ⊢

theorem waiting (h : Follows slot a b) (hb : b.isWaiting = true) : a.isWaiting = true := by
  cases h <;> simp [CallStage.isWaiting] at hb ⊢

theorem slot_eq {m : NodeMessage} (h : Follows slot a b) (hb : b = .returned (.ok m)) :
    slot = .filled m := by
  cases h with
  | answered hslot => rwa [← Except.ok.inj (CallStage.returned.inj hb)]
  | _ => cases hb

theorem ofCall {e : StreamError} (h : Follows slot a b)
    (hb : b = .leaving e ∨ b = .returned (.error e)) : e.ofCall = true := by
  cases h <;> simp at hb <;> rw [← hb] <;> rfl

/-- A call that may have an entry has one no longer only because its slot was filled. -/
theorem mayBePending (h : Follows slot a b) (ha : a.mayBePending = true) (hslot : slot = .empty) :
    b.mayBePending = true := by
  cases h with
  | answered hfilled => rw [hslot] at hfilled; cases hfilled
  | refused => cases ha
  | admitted => cases ha
  | _ => rfl

end Follows

/-- The call of a number does an operation. -/
inductive Acts (s : Stream) (i : Nat) : Stream → Prop where
  | idle : Acts s i s
  | move {c : Call} (f : Call → Call) : s.call? i = some c →
    f c = { c with stage := (f c).stage, deadline := (f c).deadline } →
    Follows c.slot c.stage (f c).stage → Acts s i (s.update i f)
  | enter {c : Call} : s.call? i = some c → c.stage = .entering →
    Acts s i ((s.enter i c.id).update i fun c ↦ { c with stage := .rechecking })
  | leave {c : Call} (e : StreamError) : s.call? i = some c → c.stage = .leaving e →
    Acts s i ((s.forget c.id).update i fun c ↦ { c with stage := .returned (.error e) })
  | offer {c : Call} : s.call? i = some c → c.stage = .offering → Acts s i (s.offer i c)
  | lose {c : Call} (f : Call → Call) : s.call? i = some c → c.stage.isRunning = true →
    f c = { c with stage := (f c).stage, deadline := (f c).deadline } →
    (∃ e, e.ofCall = true ∧ (f c).stage = .leaving e) ∨ (f c).stage = .abandoned →
    Acts s i ({ s with senders := s.senders.filter (· ≠ i) }.update i f)

variable {s : Stream} {i : Nat}

theorem Acts.giveUp {c : Call} {e : StreamError} (hc : s.call? i = some c)
    (hrun : c.stage.isRunning = true) (he : e.ofCall = true) : Acts s i (s.giveUp i e) :=
  .lose (Call.fail e) hc hrun rfl (Or.inl ⟨e, he, rfl⟩)

theorem acts_advance (s : Stream) (i : Nat) (now : Instant) : Acts s i (s.advance i now) := by
  unfold advance
  split
  · exact .idle
  · rename_i c hc
    split
    · rename_i hstage
      split
      · exact .move _ hc rfl (hstage ▸ .refused)
      · exact .move _ hc rfl (hstage ▸ .admitted)
    · rename_i hstage
      exact .enter hc hstage
    · rename_i hstage
      split
      · exact .move _ hc rfl (hstage ▸ .overtaken)
      · exact .move _ hc rfl (hstage ▸ .ready)
    · rename_i hstage
      split
      · exact .giveUp hc (hstage ▸ rfl) rfl
      · exact .offer hc hstage
    · rename_i hstage
      split
      · exact .giveUp hc (hstage ▸ rfl) rfl
      · exact .idle
    · rename_i hstage
      split
      · exact .idle
      · rename_i m hslot
        exact .move _ hc rfl (hstage ▸ .answered hslot)
      · exact .move _ hc rfl (hstage ▸ .dropped)
    · rename_i e hstage
      exact .leave e hc hstage
    · exact .idle
    · exact .idle

theorem acts_insist (s : Stream) (i : Nat) : Acts s i (s.insist i) := by
  unfold insist
  split
  · exact .idle
  · rename_i c hc
    split
    · rename_i hstage
      split
      · exact .offer hc hstage
      · exact .idle
    · exact .idle

theorem acts_expire (s : Stream) (i : Nat) (now : Instant) : Acts s i (s.expire i now) := by
  unfold expire
  split
  · exact .idle
  · rename_i c hc
    split
    · rename_i h
      refine .giveUp hc ?_ rfl
      have hstuck : s.isStuck c = true := (Bool.and_eq_true_iff.mp h).1
      unfold isStuck at hstuck
      split at hstuck
      · rename_i hstage
        exact hstage ▸ rfl
      · rename_i hstage
        exact hstage ▸ rfl
      · cases hstuck
    · exact .idle

theorem acts_abandon (s : Stream) (i : Nat) : Acts s i (s.abandon i) := by
  unfold abandon
  split
  · exact .idle
  · rename_i c hc
    split
    · rename_i hrun
      exact .lose _ hc hrun rfl (Or.inr rfl)
    · exact .idle

/-! ## Whose stream it is, and whether it is torn down

Only the three moves of tearing down change the flags, and nothing changes the node. -/

/-- The two streams belong to the same node and are torn down equally far. -/
structure Alike (s s' : Stream) : Prop where
  node : s'.node = s.node
  closed : s'.closed = s.closed
  cancelled : s'.cancelled = s.cancelled

namespace Alike

theorem refl (s : Stream) : Alike s s := ⟨rfl, rfl, rfl⟩

theorem resolve (s : Stream) (id : RequestId) (f : Slot → Slot) : Alike s (s.resolve id f) := by
  unfold Stream.resolve
  split <;> exact ⟨rfl, rfl, rfl⟩

theorem offer (s : Stream) (i : Nat) (c : Call) : Alike s (s.offer i c) := by
  unfold Stream.offer
  split <;> exact ⟨rfl, rfl, rfl⟩

theorem admitSenders (s : Stream) : Alike s s.admitSenders := by
  unfold Stream.admitSenders
  split
  · exact refl s
  · split <;> exact ⟨rfl, rfl, rfl⟩

theorem acts {s' : Stream} (h : Acts s i s') : Alike s s' := by
  cases h with
  | idle => exact refl s
  | move f _ _ _ => exact ⟨rfl, rfl, rfl⟩
  | @enter c _ _ =>
    obtain ⟨hnode, hclosed, hcancelled⟩ := resolve s c.id .drop
    exact ⟨hnode, hclosed, hcancelled⟩
  | @leave c e _ _ =>
    obtain ⟨hnode, hclosed, hcancelled⟩ := resolve s c.id .drop
    exact ⟨hnode, hclosed, hcancelled⟩
  | @offer c _ _ => exact offer s i c
  | lose f _ _ _ _ => exact ⟨rfl, rfl, rfl⟩

theorem use (s : Stream) (u : Use) : Alike s (s.use u) := by
  cases u with
  | «open» id r d => exact ⟨rfl, rfl, rfl⟩
  | advance i now => exact acts (acts_advance s i now)
  | insist i => exact acts (acts_insist s i)
  | expire i now => exact acts (acts_expire s i now)
  | abandon i => exact acts (acts_abandon s i)
  | take =>
    change Alike s s.take.2
    unfold Stream.take
    split
    · exact refl s
    · rename_i rest _
      obtain ⟨hnode, hclosed, hcancelled⟩ := admitSenders { s with channel := rest }
      exact ⟨hnode, hclosed, hcancelled⟩
  | hangUp => exact ⟨rfl, rfl, rfl⟩

end Alike

/-- A stream stays the stream of its node. -/
@[simp] theorem node_step (s : Stream) (mv : Move) : (s.step mv).node = s.node := by
  cases mv with
  | use u => exact (Alike.use s u).node
  | deliver id m => exact (Alike.resolve s id (.fill m)).node
  | _ => rfl

@[simp] theorem node_run (s : Stream) (moves : List Move) : (s.run moves).node = s.node := by
  induction moves using List.reverseRecOn with
  | nil => rfl
  | append_singleton moves mv ih => rw [run_concat, node_step, ih]

/-- A stream that is closed stays closed. -/
theorem closed_step (h : s.closed = true) (mv : Move) : (s.step mv).closed = true := by
  cases mv with
  | use u => exact (Alike.use s u).closed.trans h
  | deliver id m => exact (Alike.resolve s id (.fill m)).closed.trans h
  | markClosed => rfl
  | clearPending => exact h
  | cancel => exact h

theorem closed_run (h : s.closed = true) (moves : List Move) : (s.run moves).closed = true := by
  induction moves using List.reverseRecOn with
  | nil => exact h
  | append_singleton moves mv ih =>
    rw [run_concat]
    exact closed_step ih mv

end Stream

end NodeAgent
