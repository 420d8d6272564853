import NodeAgent.Retry
import Mathlib.Data.List.Induction

/-!
# When a request is attempted again

A request that is tried again has a loop of its own, and the agent may be closed at any time around
it: before the first attempt, during a wait, at the very instant at which a wait ends, before or
after the loop has noticed that its time has come. A `Course` is the request with a clock and with
what is known of the agent, and a *run* is any list of turns that these take. An attempt takes no
time here, so nothing happens between its beginning and its outcome. Time passes only where the loop
waits (`Course.mayPass`), and no further than to the end of that wait.

How many attempts there are is a matter of the outcomes alone (`RetryPolicy.needed`): the first
outcome that is final ends the loop, and so does the last attempt that the policy allows. The
invariant `OnCourse` goes by that number. Where the loop is about to begin an attempt or waits, it
has begun fewer than are needed; it ends with the outcome of the last one that is needed, or because
the agent was closed before that.

## Main statements

* `RetryPolicy.lt_needed`: when a further attempt is needed.
* `OnCourse.run`: the invariant of every run.
* `Lapses.run`: nothing but the end follows the closing.
* `OnCourse.exists_end`: there is an end.
* `heeds_run`: what a policy makes of a request.
-/

namespace NodeAgent

variable {α : Type} {p : RetryPolicy} {op : Nat → Except StreamError α} {n : Nat}

theorem StreamError.isRetryable_iff {e : StreamError} :
    e.isRetryable = true ↔ e = .streamNotFound := by
  cases e <;> simp [StreamError.isRetryable]

namespace RetryPolicy

/-- Whether an attempt ended because the node had no stream. -/
def isMissing : Except StreamError α → Bool
  | .error .streamNotFound => true
  | _ => false

theorem isMissing_iff {o : Except StreamError α} :
    isMissing o = true ↔ o = .error .streamNotFound := by
  unfold isMissing
  split
  · exact ⟨fun _ ↦ rfl, fun _ ↦ rfl⟩
  · rename_i hne
    exact ⟨fun h ↦ (Bool.false_ne_true h).elim, fun h ↦ (hne h).elim⟩

/-- How many attempts it takes, where attempt `k` has the outcome `op k`: up to the first outcome
that is final, and no more than there may be. -/
def needed (p : RetryPolicy) (op : Nat → Except StreamError α) : Nat :=
  min p.limit ((List.range p.limit).findIdx (fun k ↦ !isMissing (op k)) + 1)

/-- **A further attempt is needed** if more are allowed and none of those made was final. -/
theorem lt_needed : n < p.needed op ↔ n < p.limit ∧ ∀ k < n, op k = .error .streamNotFound := by
  unfold needed
  rw [Nat.lt_min, Nat.lt_succ_iff]
  refine and_congr_right fun hn ↦ ⟨fun hle k hk ↦ ?_, fun hall ↦ ?_⟩
  · have hfirst := List.not_of_lt_findIdx (Nat.lt_of_lt_of_le hk hle)
    rwa [List.getElem_range, Bool.not_eq_false', isMissing_iff] at hfirst
  · refine List.le_findIdx_of_not (by rwa [List.length_range]) fun k hk ↦ ?_
    rw [List.getElem_range, isMissing_iff.2 (hall k hk)]
    rfl

theorem needed_le (p : RetryPolicy) (op : Nat → Except StreamError α) : p.needed op ≤ p.limit :=
  Nat.min_le_left ..

theorem needed_pos (p : RetryPolicy) (op : Nat → Except StreamError α) : 0 < p.needed op :=
  lt_needed.2 ⟨p.one_le_limit, fun _ h ↦ (Nat.not_lt_zero _ h).elim⟩

/-- One more attempt is needed than those that were, if that one found no stream and is not the
last one allowed. -/
theorem succ_lt_needed (hn : n < p.needed op) :
    n + 1 < p.needed op ↔ n + 1 < p.limit ∧ op n = .error .streamNotFound := by
  rw [lt_needed]
  refine and_congr_right fun _ ↦ ⟨fun h ↦ h n n.lt_succ_self, fun hop k hk ↦ ?_⟩
  rcases Nat.lt_succ_iff_lt_or_eq.1 hk with hlt | rfl
  · exact (lt_needed.1 hn).2 k hlt
  · exact hop

end RetryPolicy

namespace Retry

/-! ## Turns -/

/-- What happens to a request that is attempted again, or around it. -/
inductive Turn where
  /-- The loop goes on to its next wait or to its end, minding whether the agent is closed. -/
  | go
  /-- The time of a wait has come, and the loop notices this first. -/
  | fire
  /-- The agent is closed. -/
  | close
  /-- Time passes. -/
  | pass (till : Instant)
deriving DecidableEq

/-- A request with the time and whether the agent is closed. -/
structure Course (α : Type) where
  retry : Retry α
  now : Instant
  isClosed : Bool := false

/-- The loop goes on, where attempt `k` has the outcome `op k`. -/
def proceed (op : Nat → Except StreamError α) (closed : Bool) (now : Instant) (r : Retry α) :
    Retry α :=
  match r.phase with
  | .ready => (r.start closed now).ended (op r.starts.length) now
  | _ => r.wake closed now

namespace Course

/-- A request that is made at an instant. -/
def new (p : RetryPolicy) (began : Instant) : Course α := ⟨{ policy := p }, began, false⟩

/-- Whether time may pass up to an instant: the loop waits at least until then, and need not end
its wait before, or it has ended. -/
def mayPass (c : Course α) (till : Instant) : Bool :=
  match c.retry.phase with
  | .waiting due => !c.isClosed && decide (till ≤ due)
  | .finished _ _ => true
  | _ => false

/-- The course after a turn. Time that may not pass does not. -/
def step (op : Nat → Except StreamError α) (c : Course α) : Turn → Course α
  | .go => { c with retry := c.retry.proceed op c.isClosed c.now }
  | .fire => { c with retry := c.retry.wake false c.now }
  | .close => { c with isClosed := true }
  | .pass till => if c.now ≤ till ∧ c.mayPass till = true then { c with now := till } else c

/-- The course after a run. -/
def run (op : Nat → Except StreamError α) (c : Course α) (turns : List Turn) : Course α :=
  turns.foldl (step op) c

@[simp] theorem run_nil (c : Course α) : c.run op [] = c := rfl

theorem run_append (c : Course α) (l l' : List Turn) :
    c.run op (l ++ l') = (c.run op l).run op l' :=
  List.foldl_append

theorem run_concat (c : Course α) (l : List Turn) (t : Turn) :
    c.run op (l ++ [t]) = (c.run op l).step op t := by
  rw [run_append]
  rfl

theorem run_cons (c : Course α) (t : Turn) (l : List Turn) :
    c.run op (t :: l) = (c.step op t).run op l := rfl

end Course

/-! ## The steps of the loop -/

section Steps

variable {r : Retry α} {closed : Bool} {now till since : Instant} {o : Except StreamError α}

theorem result?_of_finished (h : r.phase = .finished o since) : r.result? = some (o, since) := by
  rw [result?, h]

theorem result?_of_waiting (h : r.phase = .waiting till) : r.result? = none := by
  rw [result?, h]

theorem result?_of_ready (h : r.phase = .ready) : r.result? = none := by
  rw [result?, h]

theorem proceed_of_finished (h : r.phase = .finished o since) : r.proceed op closed now = r := by
  simp only [proceed, wake, h]

theorem proceed_of_waiting (h : r.phase = .waiting till) :
    r.proceed op closed now = r.wake closed now := by
  simp only [proceed, h]

/-- An agent that is closed begins no attempt. -/
theorem proceed_of_closed (h : r.phase = .ready) :
    r.proceed op true now = r.finish (.error .handlerClosed) now := by
  simp [proceed, start, ended, finish, h]

/-- **An attempt.** It is followed by a wait if another one is needed, and else its outcome is the
result. -/
theorem proceed_of_ready (h : r.phase = .ready) (hn : r.starts.length < r.policy.needed op) :
    r.proceed op false now =
      { r with
        starts := r.starts ++ [now]
        phase :=
          if r.starts.length + 1 < r.policy.needed op then
            .waiting (now + r.policy.interval.nanos)
          else .finished (op r.starts.length) now } := by
  have hnext := RetryPolicy.succ_lt_needed hn
  cases hop : op r.starts.length with
  | ok a =>
    have hlast : ¬r.starts.length + 1 < r.policy.needed op := fun h' ↦ by
      have hmissing := (hnext.1 h').2
      rw [hop] at hmissing
      cases hmissing
    rw [if_neg hlast]
    simp [proceed, start, ended, finish, h, hop]
  | error e =>
    have hagain : (e.isRetryable && decide (r.starts.length + 1 < r.policy.limit)) =
        decide (r.starts.length + 1 < r.policy.needed op) := by
      rw [Bool.eq_iff_iff, Bool.and_eq_true, decide_eq_true_eq, decide_eq_true_eq, hnext, hop,
        StreamError.isRetryable_iff, Except.error.injEq, and_comm]
    simp only [proceed, h, start, Bool.false_eq_true, if_false, ended, hop, List.length_append,
      List.length_singleton, hagain, decide_eq_true_eq, finish]
    split <;> rfl

theorem wake_of_ready (h : r.phase = .ready) : r.wake closed now = r := by
  simp only [wake, h]

theorem wake_of_finished (h : r.phase = .finished o since) : r.wake closed now = r := by
  simp only [wake, h]

theorem wake_of_closed (h : r.phase = .waiting till) :
    r.wake true now = r.finish (.error .handlerClosed) now := by
  simp only [wake, h, if_true]

theorem wake_of_le (h : r.phase = .waiting till) (hle : till ≤ now) :
    r.wake false now = { r with phase := .ready } := by
  simp only [wake, h, Bool.false_eq_true, if_false, if_pos hle]

theorem wake_of_lt (h : r.phase = .waiting till) (hlt : now < till) : r.wake false now = r := by
  simp only [wake, h, Bool.false_eq_true, if_false, if_neg (Nat.not_le.2 hlt)]

end Steps

namespace Course

variable {c c' c'' : Course α} {began : Instant}

/-! ## The schedule -/

/-- Where a request that began at an instant stands, by the number of its attempts. -/
inductive Standing (p : RetryPolicy) (op : Nat → Except StreamError α) (began : Instant)
    (c : Course α) : Prop where
  | ready : c.retry.phase = .ready → c.retry.starts.length < p.needed op →
    c.now = began + c.retry.starts.length * p.interval.nanos → Standing p op began c
  | waiting {till : Instant} : c.retry.phase = .waiting till →
    c.retry.starts.length < p.needed op →
    till = began + c.retry.starts.length * p.interval.nanos → c.now ≤ till →
    Standing p op began c
  | through (k : Nat) : c.retry.phase = .finished (op k) (began + k * p.interval.nanos) →
    c.retry.starts.length = k + 1 → p.needed op = k + 1 → Standing p op began c
  | closed {since : Instant} : c.retry.phase = .finished (.error .handlerClosed) since →
    c.isClosed = true → c.retry.starts.length < p.needed op → Standing p op began c

/-- **A request on course.** Its attempts begin one wait after another, and it stands where their
number says. -/
structure OnCourse (p : RetryPolicy) (op : Nat → Except StreamError α) (began : Instant)
    (c : Course α) : Prop where
  policy : c.retry.policy = p
  starts : c.retry.starts =
    (List.range c.retry.starts.length).map fun k ↦ began + k * p.interval.nanos
  standing : Standing p op began c

theorem OnCourse.new (p : RetryPolicy) (op : Nat → Except StreamError α) (began : Instant) :
    OnCourse p op began (new p began) :=
  ⟨rfl, rfl, .ready rfl (p.needed_pos op) (by simp [Course.new])⟩

/-- A wait ends when its time has come, and early only if the agent is closed. -/
theorem OnCourse.wake {closed : Bool} (h : OnCourse p op began c)
    (hclosed : closed = true → c.isClosed = true) :
    OnCourse p op began { c with retry := c.retry.wake closed c.now } := by
  cases h.standing with
  | ready hphase => rwa [wake_of_ready hphase]
  | through k hphase => rwa [wake_of_finished hphase]
  | closed hphase => rwa [wake_of_finished hphase]
  | @waiting till hphase hfewer htill hnow =>
    cases closed with
    | true =>
      rw [wake_of_closed hphase]
      exact ⟨h.policy, h.starts, .closed rfl (hclosed rfl) hfewer⟩
    | false =>
      rcases Nat.lt_or_ge c.now till with hlt | hle
      · rwa [wake_of_lt hphase hlt]
      · rw [wake_of_le hphase hle]
        exact ⟨h.policy, h.starts, .ready rfl hfewer ((Nat.le_antisymm hnow hle).trans htill)⟩

/-- An attempt begins on schedule, and what follows it is on schedule. -/
theorem OnCourse.attempt (h : OnCourse p op began c) (hphase : c.retry.phase = .ready)
    (hfewer : c.retry.starts.length < p.needed op)
    (hnow : c.now = began + c.retry.starts.length * p.interval.nanos) :
    OnCourse p op began { c with retry := c.retry.proceed op false c.now } := by
  obtain rfl := h.policy
  have hstarts : c.retry.starts ++ [c.now] =
      (List.range (c.retry.starts ++ [c.now]).length).map
        fun k ↦ began + k * c.retry.policy.interval.nanos := by
    rw [List.length_append, List.length_singleton, List.range_succ, List.map_append, ← h.starts,
      List.map_singleton, hnow]
  have hlength : (c.retry.starts ++ [c.now]).length = c.retry.starts.length + 1 :=
    List.length_append
  rw [proceed_of_ready hphase hfewer]
  refine ⟨rfl, hstarts, ?_⟩
  rcases Nat.lt_or_ge (c.retry.starts.length + 1) (c.retry.policy.needed op) with hmore | hlast
  · refine .waiting (if_pos hmore) (hlength.symm ▸ hmore) ?_ (Nat.le_add_right _ _)
    rw [hlength, hnow, Nat.succ_mul, Nat.add_assoc]
  · refine .through c.retry.starts.length ?_ hlength (Nat.le_antisymm hlast hfewer)
    exact (if_neg (Nat.not_lt.2 hlast)).trans (by rw [hnow])

theorem OnCourse.pass {till : Instant} (h : OnCourse p op began c) (hpass : c.mayPass till = true) :
    OnCourse p op began { c with now := till } := by
  refine ⟨h.policy, h.starts, ?_⟩
  cases h.standing with
  | ready hphase =>
    simp only [mayPass, hphase] at hpass
    exact (Bool.false_ne_true hpass).elim
  | waiting hphase hfewer htill =>
    simp only [mayPass, hphase, Bool.and_eq_true, decide_eq_true_eq] at hpass
    exact .waiting hphase hfewer htill hpass.2
  | through k hphase hlength hneeded => exact .through k hphase hlength hneeded
  | closed hphase hclosed hfewer => exact .closed hphase hclosed hfewer

theorem OnCourse.go (h : OnCourse p op began c) :
    OnCourse p op began { c with retry := c.retry.proceed op c.isClosed c.now } := by
  cases h.standing with
  | ready hphase hfewer hnow =>
    rcases hclosed : c.isClosed with _ | _
    · exact hclosed ▸ h.attempt hphase hfewer hnow
    · rw [proceed_of_closed hphase]
      exact ⟨h.policy, h.starts, .closed rfl rfl hfewer⟩
  | waiting hphase =>
    rw [proceed_of_waiting hphase]
    exact h.wake id
  | through k hphase => rwa [proceed_of_finished hphase]
  | closed hphase => rwa [proceed_of_finished hphase]

/-- **Every turn keeps a request on course.** -/
theorem OnCourse.step (h : OnCourse p op began c) (t : Turn) :
    OnCourse p op began (c.step op t) := by
  cases t with
  | go => exact h.go
  | fire => exact h.wake fun hfalse ↦ (Bool.false_ne_true hfalse).elim
  | close =>
    refine ⟨h.policy, h.starts, ?_⟩
    cases h.standing with
    | ready hphase hfewer hnow => exact .ready hphase hfewer hnow
    | waiting hphase hfewer htill hnow => exact .waiting hphase hfewer htill hnow
    | through k hphase hlength hneeded => exact .through k hphase hlength hneeded
    | closed hphase _ hfewer => exact .closed hphase rfl hfewer
  | pass till =>
    unfold Course.step
    dsimp only
    split
    · exact h.pass (And.right ‹_›)
    · exact h

theorem OnCourse.run (h : OnCourse p op began c) (turns : List Turn) :
    OnCourse p op began (c.run op turns) := by
  induction turns using List.reverseRecOn with
  | nil => exact h
  | append_singleton turns t ih => exact run_concat c turns t ▸ ih.step t

theorem OnCourse.length_le (h : OnCourse p op began c) :
    c.retry.starts.length ≤ p.needed op := by
  cases h.standing with
  | ready _ hfewer => exact Nat.le_of_lt hfewer
  | waiting _ hfewer => exact Nat.le_of_lt hfewer
  | closed _ _ hfewer => exact Nat.le_of_lt hfewer
  | through k _ hlength hneeded => exact Nat.le_of_eq (hlength.trans hneeded.symm)

theorem OnCourse.eq_of_getElem? (h : OnCourse p op began c) {k : Nat} {i : Instant}
    (hk : c.retry.starts[k]? = some i) : i = began + k * p.interval.nanos := by
  rw [h.starts, List.getElem?_map, Option.map_eq_some_iff] at hk
  obtain ⟨k', hk', rfl⟩ := hk
  obtain ⟨_, rfl⟩ := List.getElem?_eq_some_iff.1 hk'
  rw [List.getElem_range]

/-- Who has no result yet has not waited longer than for the attempts that are needed. -/
theorem OnCourse.now_le (h : OnCourse p op began c) (hnone : c.retry.result? = none) :
    c.now ≤ began + (p.needed op - 1) * p.interval.nanos := by
  have hmono : c.retry.starts.length < p.needed op →
      began + c.retry.starts.length * p.interval.nanos ≤
        began + (p.needed op - 1) * p.interval.nanos :=
    fun hfewer ↦ Nat.add_le_add_left (Nat.mul_le_mul_right _ (Nat.le_sub_one_of_lt hfewer)) _
  cases h.standing with
  | ready _ hfewer hnow => exact hnow ▸ hmono hfewer
  | waiting _ hfewer htill hnow => exact Nat.le_trans hnow (htill ▸ hmono hfewer)
  | through k hphase =>
    rw [result?_of_finished hphase] at hnone
    cases hnone
  | closed hphase =>
    rw [result?_of_finished hphase] at hnone
    cases hnone

/-- When its time has come, a wait ends on schedule. -/
theorem OnCourse.due {till : Instant} (h : OnCourse p op began c)
    (hphase : c.retry.phase = .waiting till) :
    OnCourse p op began { c with retry := { c.retry with phase := .ready }, now := till } := by
  cases h.standing with
  | waiting hphase' hfewer htill =>
    obtain rfl := RetryPhase.waiting.inj (hphase.symm.trans hphase')
    exact ⟨h.policy, h.starts, .ready rfl hfewer htill⟩
  | ready hphase' => cases hphase.symm.trans hphase'
  | through k hphase' => cases hphase.symm.trans hphase'
  | closed hphase' => cases hphase.symm.trans hphase'

/-! ## After the closing -/

/-- From a time at which the agent was closed, or is being closed, to a later one. -/
structure Lapses (c c' : Course α) : Prop where
  closed : c'.isClosed = true
  starts : c'.retry.starts = c.retry.starts
  result : c'.retry.result? = c.retry.result? ∨
    c.retry.result? = none ∧ c'.retry.result? = some (.error .handlerClosed, c.now)
  now : c'.retry.result? = none → c'.now = c.now

theorem Lapses.close (op : Nat → Except StreamError α) (c : Course α) :
    Lapses c (c.step op .close) := ⟨rfl, rfl, .inl rfl, fun _ ↦ rfl⟩

theorem Lapses.refl (h : c.isClosed = true) : Lapses c c := ⟨h, rfl, .inl rfl, fun _ ↦ rfl⟩

theorem Lapses.trans (h : Lapses c c') (h' : Lapses c' c'') : Lapses c c'' := by
  refine ⟨h'.closed, h'.starts.trans h.starts, ?_, fun hnone ↦ ?_⟩
  · rcases h'.result with heq | ⟨hnone, hsome⟩
    · exact heq ▸ h.result
    · refine .inr ⟨?_, h.now hnone ▸ hsome⟩
      rcases h.result with heq | ⟨hnone', -⟩
      · exact heq ▸ hnone
      · exact hnone'
  · refine (h'.now hnone).trans (h.now ?_)
    rcases h'.result with heq | ⟨hnone', -⟩
    · exact heq ▸ hnone
    · exact hnone'

theorem Lapses.wake {closed : Bool} (h : c.isClosed = true) :
    Lapses c { c with retry := c.retry.wake closed c.now } := by
  cases hphase : c.retry.phase with
  | waiting till =>
    cases closed with
    | true =>
      rw [wake_of_closed hphase]
      exact ⟨h, rfl, .inr ⟨result?_of_waiting hphase, rfl⟩, fun _ ↦ rfl⟩
    | false =>
      rcases Nat.lt_or_ge c.now till with hlt | hle
      · rw [wake_of_lt hphase hlt]
        exact .refl h
      · rw [wake_of_le hphase hle]
        exact ⟨h, rfl, .inl (result?_of_waiting hphase).symm, fun _ ↦ rfl⟩
  | _ =>
    simp only [Retry.wake, hphase]
    exact .refl h

/-- **A closed agent begins nothing**, and what was not over by then ends as closed. -/
theorem lapses_step (h : c.isClosed = true) (t : Turn) : Lapses c (c.step op t) := by
  cases t with
  | go =>
    cases hphase : c.retry.phase with
    | ready =>
      unfold step
      dsimp only
      rw [h, proceed_of_closed hphase]
      exact ⟨rfl, rfl, .inr ⟨result?_of_ready hphase, rfl⟩, fun _ ↦ rfl⟩
    | _ =>
      have hwake : c.retry.proceed op c.isClosed c.now = c.retry.wake c.isClosed c.now := by
        simp only [proceed, hphase]
      unfold step
      exact hwake ▸ .wake h
  | fire => exact .wake h
  | close => exact .close op c
  | pass till =>
    unfold step
    dsimp only
    split
    · rename_i hpass
      refine ⟨h, rfl, .inl rfl, fun hnone ↦ ?_⟩
      have hfalse := hpass.2
      unfold mayPass at hfalse
      split at hfalse
      · rw [h] at hfalse
        exact (Bool.false_ne_true hfalse).elim
      · rename_i hphase
        rw [result?_of_finished hphase] at hnone
        cases hnone
      · exact (Bool.false_ne_true hfalse).elim
    · exact .refl h

theorem Lapses.run (h : Lapses c c') (turns : List Turn) : Lapses c (c'.run op turns) := by
  induction turns using List.reverseRecOn with
  | nil => exact h
  | append_singleton turns t ih => exact run_concat c' turns t ▸ ih.trans (lapses_step ih.closed t)

/-- The loop ends as soon as it goes on in an agent that is closed. -/
theorem OnCourse.isSome_go (h : OnCourse p op began c) (hclosed : c.isClosed = true) :
    (c.step op .go).retry.result?.isSome = true := by
  unfold Course.step
  dsimp only
  rw [hclosed]
  cases h.standing with
  | ready hphase =>
    rw [proceed_of_closed hphase]
    rfl
  | waiting hphase =>
    rw [proceed_of_waiting hphase, wake_of_closed hphase]
    rfl
  | through k hphase =>
    rw [proceed_of_finished hphase, result?_of_finished hphase]
    rfl
  | closed hphase =>
    rw [proceed_of_finished hphase, result?_of_finished hphase]
    rfl

theorem Lapses.isSome (h : Lapses c c') (hsome : c.retry.result?.isSome = true) :
    c'.retry.result?.isSome = true := by
  rcases h.result with heq | ⟨-, heq⟩
  · rw [heq, hsome]
  · rw [heq]
    rfl

/-! ## The end -/

/-- An open loop that has not ended gets to its next attempt. -/
theorem OnCourse.exists_attempt (h : OnCourse p op began c) (hopen : c.isClosed = false)
    (hnone : c.retry.result? = none) :
    ∃ rest, Turn.close ∉ rest ∧ (c.run op rest).isClosed = false ∧
      (c.run op rest).retry.starts.length = c.retry.starts.length + 1 := by
  -- from wherever the loop is about to begin an attempt
  have hready : ∀ {c' : Course α}, OnCourse p op began c' → c'.isClosed = false →
      c'.retry.phase = .ready → c'.retry.starts.length < p.needed op →
      (c'.step op .go).retry.starts.length = c'.retry.starts.length + 1 := by
    intro c' h' hopen' hphase hfewer
    obtain rfl := h'.policy
    unfold Course.step
    dsimp only
    rw [hopen', proceed_of_ready hphase hfewer]
    exact List.length_append
  cases h.standing with
  | ready hphase hfewer => exact ⟨[.go], by simp, hopen, hready h hopen hphase hfewer⟩
  | @waiting till hphase hfewer htill hnow =>
    have hpass : c.step op (.pass till) = { c with now := till } := by
      refine if_pos ⟨hnow, ?_⟩
      simp only [mayPass, hphase, hopen, Bool.not_false, Bool.true_and, decide_eq_true_eq,
        Nat.le_refl]
    have hfire : (c.step op (.pass till)).step op .fire =
        { c with now := till, retry := { c.retry with phase := .ready } } := by
      rw [hpass]
      unfold Course.step
      dsimp only
      rw [wake_of_le hphase Nat.le.refl]
    refine ⟨[.pass till, .fire, .go], by simp, ?_, ?_⟩
    · rw [run_cons, run_cons, hfire]
      exact hopen
    · rw [run_cons, run_cons, hfire]
      exact hready (h.due hphase) hopen rfl hfewer
  | through k hphase =>
    rw [result?_of_finished hphase] at hnone
    cases hnone
  | closed hphase =>
    rw [result?_of_finished hphase] at hnone
    cases hnone

/-- **The loop ends**, without being closed. -/
theorem OnCourse.exists_end (h : OnCourse p op began c) (hopen : c.isClosed = false) :
    ∃ rest, Turn.close ∉ rest ∧ (c.run op rest).retry.result?.isSome = true := by
  -- by the number of attempts that are still needed
  induction hd : p.needed op - c.retry.starts.length generalizing c with
  | zero =>
    refine ⟨[], List.not_mem_nil, ?_⟩
    have hall := Nat.le_of_sub_eq_zero hd
    cases h.standing with
    | ready _ hfewer => exact (Nat.not_lt.2 hall hfewer).elim
    | waiting _ hfewer => exact (Nat.not_lt.2 hall hfewer).elim
    | closed _ _ hfewer => exact (Nat.not_lt.2 hall hfewer).elim
    | through k hphase =>
      rw [run_nil, result?_of_finished hphase]
      rfl
  | succ d ih =>
    cases hresult : c.retry.result? with
    | some x => exact ⟨[], List.not_mem_nil, by rw [run_nil, hresult]; rfl⟩
    | none =>
      obtain ⟨first, hfirst, hopen', hlength⟩ := h.exists_attempt hopen hresult
      obtain ⟨rest, hrest, hend⟩ := ih (h.run first) hopen' (by omega)
      exact ⟨first ++ rest, by simp [hfirst, hrest], by rwa [run_append]⟩

end Course

/-! ## The policy -/

/-- **What a policy makes of a request**, seen after a run. -/
structure Heeds (p : RetryPolicy) (op : Nat → Except StreamError α) (began : Instant)
    (turns : List Turn) (c : Course α) : Prop where
  /-- Attempt `k` begins exactly `k` waits after the request was made. -/
  starts : ∀ k i, c.retry.starts[k]? = some i → i = began + k * p.interval.nanos
  /-- Only an attempt that found no stream is followed by another one. -/
  earlier : ∀ k, k + 1 < c.retry.starts.length → op k = .error .streamNotFound
  /-- There are no more attempts than allowed, and one is always allowed. -/
  limit : c.retry.starts.length ≤ max 1 p.maxAttempts
  /-- A counter of 32 bits is enough for them. -/
  counter : p.maxAttempts < UInt32.size → c.retry.starts.length < UInt32.size
  /-- Unless the agent is closed, there are as many attempts as needed, and the outcome of the last
  one is the result, at the instant of that attempt. -/
  result : Turn.close ∉ turns → ∀ o since, c.retry.result? = some (o, since) →
    c.retry.starts.length = p.needed op ∧ o = op (p.needed op - 1) ∧
      c.retry.starts.getLast? = some since
  /-- There is a result once the time for the attempts that are needed has passed. -/
  prompt : c.retry.result? = none → c.now ≤ began + (p.needed op - 1) * p.interval.nanos
  /-- There will be a result without the agent being closed. -/
  ends : Turn.close ∉ turns →
    ∃ rest, Turn.close ∉ rest ∧ (c.run op rest).retry.result?.isSome = true
  /-- After the closing no attempt begins and no time passes until the end: a result that there was
  stays, and a request that had none ends as closed. -/
  closing : ∀ before after, turns = before ++ .close :: after →
    Course.Lapses ((Course.new p began).run op before) c
  /-- A closed request has ended as soon as the loop has gone on. -/
  noticed : ∀ before after, turns = before ++ .close :: after → Turn.go ∈ after →
    c.retry.result?.isSome = true

namespace Course

variable {c : Course α} {began : Instant}

theorem isClosed_run {turns : List Turn} (h : Turn.close ∉ turns) :
    (c.run op turns).isClosed = c.isClosed := by
  induction turns generalizing c with
  | nil => rfl
  | cons t turns ih =>
    obtain ⟨ht, hturns⟩ := not_or.1 fun hmem ↦ h (List.mem_cons.2 hmem)
    refine (ih hturns).trans ?_
    cases t with
    | close => exact (ht rfl).elim
    | pass till =>
      unfold step
      dsimp only
      split <;> rfl
    | _ => rfl

theorem OnCourse.result (h : OnCourse p op began c) (hopen : c.isClosed = false)
    {o : Except StreamError α} {since : Instant} (ho : c.retry.result? = some (o, since)) :
    c.retry.starts.length = p.needed op ∧ o = op (p.needed op - 1) ∧
      c.retry.starts.getLast? = some since := by
  cases h.standing with
  | ready hphase =>
    rw [result?_of_ready hphase] at ho
    cases ho
  | waiting hphase =>
    rw [result?_of_waiting hphase] at ho
    cases ho
  | closed hphase hclosed =>
    rw [hopen] at hclosed
    cases hclosed
  | through k hphase hlength hneeded =>
    rw [result?_of_finished hphase, Option.some.injEq, Prod.mk.injEq] at ho
    obtain ⟨rfl, rfl⟩ := ho
    refine ⟨hlength.trans hneeded.symm, by rw [hneeded, Nat.add_sub_cancel], ?_⟩
    rw [h.starts, hlength, List.range_succ, List.map_append, List.map_singleton,
      List.getLast?_concat]

/-- The loop that has gone on after the closing has ended. -/
theorem OnCourse.noticed (h : OnCourse p op began c) (hclosed : c.isClosed = true)
    {turns : List Turn} (hgo : Turn.go ∈ turns) :
    (c.run op turns).retry.result?.isSome = true := by
  obtain ⟨first, rest, rfl⟩ := List.append_of_mem hgo
  have hfirst : Lapses c (c.run op first) := (Lapses.refl hclosed).run first
  rw [run_append, run_cons]
  refine Lapses.isSome ?_ ((h.run first).isSome_go hfirst.closed)
  exact (Lapses.refl (lapses_step hfirst.closed .go).closed).run rest

end Course

/-- **A request is attempted as its policy says**, over every run. -/
theorem heeds_run (p : RetryPolicy) (op : Nat → Except StreamError α) (began : Instant)
    (turns : List Turn) : Heeds p op began turns ((Course.new p began).run op turns) := by
  have h := (Course.OnCourse.new p op began).run turns
  have hle := h.length_le
  have hlimit := Nat.le_trans hle (p.needed_le op)
  refine ⟨fun k i ↦ h.eq_of_getElem?, fun k hk ↦ ?_, hlimit, fun hsmall ↦ ?_,
    fun hopen o since ↦ h.result (Course.isClosed_run hopen), h.now_le,
    fun hopen ↦ h.exists_end (Course.isClosed_run hopen), ?_, ?_⟩
  · exact (RetryPolicy.lt_needed.1 (Nat.lt_of_lt_of_le hk hle)).2 k k.lt_succ_self
  · exact Nat.lt_of_le_of_lt hlimit (Nat.max_lt.2 ⟨by decide, hsmall⟩)
  · rintro before after rfl
    rw [Course.run_append, Course.run_cons]
    exact (Course.Lapses.close op _).run after
  · rintro before after rfl hgo
    rw [Course.run_append, Course.run_cons]
    have hbefore := (Course.OnCourse.new p op began).run before
    exact (hbefore.step .close).noticed rfl hgo

end Retry

end NodeAgent
