import NodeAgent.Error
/-!
# Retried requests

A request for another node is attempted again while the node has no stream, a bounded number of
times with a fixed wait in between. Every other outcome is final. The wait ends early when the
agent closes, and a closed agent begins no attempt.

The machine below is advanced from outside: `start` begins an attempt, `ended` takes its outcome
and `wake` ends a wait. It keeps the instant at which every attempt began, so that "no attempt was
begun after the agent closed" is a statement about its state and not about its course. `runTo`
drives it through time with attempts that end at once.
-/

namespace NodeAgent

/-- How often a request is attempted, and how long it waits in between. -/
structure RetryPolicy where
  /-- The number of attempts; zero counts as one. -/
  maxAttempts : Nat := 3
  /-- The wait between two attempts. -/
  interval : Duration := .ofSeconds 10
deriving DecidableEq, Inhabited

namespace RetryPolicy

/-- The policy with at least one attempt. -/
def new (maxAttempts : Nat) (interval : Duration) : RetryPolicy := ⟨max 1 maxAttempts, interval⟩

/-- The number of attempts there are. -/
def limit (p : RetryPolicy) : Nat := max 1 p.maxAttempts

theorem one_le_limit (p : RetryPolicy) : 1 ≤ p.limit := Nat.le_max_left ..

end RetryPolicy

/-- Where a retried request stands. -/
inductive RetryPhase (α : Type) where
  /-- An attempt is about to begin. -/
  | ready
  /-- An attempt is under way. -/
  | attempting
  /-- The next attempt is due at an instant. -/
  | waiting (till : Instant)
  /-- The request ended at an instant. -/
  | finished (result : Except StreamError α) (since : Instant)

/-- A retried request. -/
structure Retry (α : Type) where
  policy : RetryPolicy
  /-- When each attempt began, first to last. -/
  starts : List Instant := []
  phase : RetryPhase α := .ready

namespace Retry

variable {α : Type}

/-- The request ended with a result. -/
def finish (r : Retry α) (result : Except StreamError α) (now : Instant) : Retry α :=
  { r with phase := .finished result now }

/-- Begins an attempt, unless the agent is closed. -/
def start (r : Retry α) (closed : Bool) (now : Instant) : Retry α :=
  match r.phase with
  | .ready =>
    if closed then r.finish (.error .handlerClosed) now
    else { r with starts := r.starts ++ [now], phase := .attempting }
  | _ => r

/-- Takes the outcome of the attempt under way. Another attempt follows only if the failure is one
that may pass and attempts are left; no wait follows the last attempt. -/
def ended (r : Retry α) (outcome : Except StreamError α) (now : Instant) : Retry α :=
  match r.phase, outcome with
  | .attempting, .ok a => r.finish (.ok a) now
  | .attempting, .error e =>
    if e.isRetryable && r.starts.length < r.policy.limit then
      { r with phase := .waiting (now + r.policy.interval.nanos) }
    else r.finish (.error e) now
  | _, _ => r

/-- Ends a wait: at once if the agent is closed, else when its time has come. -/
def wake (r : Retry α) (closed : Bool) (now : Instant) : Retry α :=
  match r.phase with
  | .waiting till =>
    if closed then r.finish (.error .handlerClosed) now
    else if till ≤ now then { r with phase := .ready }
    else r
  | _ => r

/-- The result, once there is one. -/
def result? (r : Retry α) : Option (Except StreamError α × Instant) :=
  match r.phase with
  | .finished result since => some (result, since)
  | _ => none

/-! ## Attempts that end at once -/

/-- Whether the agent is closed at an instant, given when it closes. -/
def closedAt (closes : Option Instant) (now : Instant) : Bool := closes.any (· ≤ now)

/-- The instant of the machine's next move: a wait ends when its time has come or the agent
closes, and everything else happens without delay. -/
def nextMove (r : Retry α) (closes : Option Instant) (now : Instant) : Instant :=
  match r.phase with
  | .waiting till => max now (min till (closes.getD till))
  | _ => now

/-- One move, where attempt `k` has the outcome `op k`. -/
def move (op : Nat → Except StreamError α) (closed : Bool) (now : Instant) (r : Retry α) :
    Retry α :=
  match r.phase with
  | .ready => r.start closed now
  | .attempting => r.ended (op (r.starts.length - 1)) now
  | .waiting _ => r.wake closed now
  | .finished _ _ => r

/-- The request after at most `moves` moves, none of them later than `horizon`. -/
def runTo (op : Nat → Except StreamError α) (closes : Option Instant) (horizon : Instant) :
    (moves : Nat) → Instant → Retry α → Retry α
  | 0, _, r => r
  | moves + 1, now, r =>
    match r.phase with
    | .finished _ _ => r
    | _ =>
      let now' := r.nextMove closes now
      if horizon < now' then r
      else runTo op closes horizon moves now' (r.move op (closedAt closes now') now')

/-- The request as it stands at `horizon` when it was made at instant zero. Every attempt takes at
most three moves. -/
def observe (policy : RetryPolicy) (op : Nat → Except StreamError α) (closes : Option Instant)
    (horizon : Instant) : Retry α :=
  runTo op closes horizon (3 * policy.limit) 0 { policy }

end Retry

end NodeAgent
