import NodeAgent.Proofs.Agent.Epochs
import NodeAgent.Proofs.Stream.Course

/-!
# How long a forwarded request takes

Two clocks run for a request: it waits between two attempts, and its call waits for a place in the
channel and for the response. The waits add up, the time for the response does not, since an attempt
that makes a call is the last one: what is tried again are attempts that found no stream, and these
take no time.

An agent with a clock (`Timed`) does everything at the instant that the clock shows. Time passes
only while every request that is under way waits for a timer, and no further than to the first of
those (`mayPass`); nothing else is asked of those who connect, leave, read, answer or close.

## Main statements

* `Paced.step`, `Paced.pass`: a request keeps to its schedule, by the number of its attempts.
* `Timed.paced_run`: a request that begins is on schedule from then on.
* `Paced.now_le`: whoever is on schedule and under way has not taken longer than its waits and one
  response may take.
-/

namespace NodeAgent

/-! ## Calls from move to move -/

namespace Stream

variable {s s' s'' : Stream}

theorem Stands.trans (h : s.Stands s') (h' : s'.Stands s'') : s.Stands s'' :=
  fun j ↦ (h' j).trans (h j)

theorem Stands.close (s : Stream) : s.Stands s.close := by
  unfold Stream.close
  split
  · exact fun _ ↦ rfl
  · exact .clearPending s.markClosed

end Stream

namespace Registry

variable {r : Registry} {mv : Move} {p : Nat × Nat} {c c' : Call}

theorem stands_deliveries {g : Nat} {l : List Stream.Move} (hl : ∀ m ∈ l, r.Delivers mv g m)
    (s : Stream) : s.Stands (s.run l) := by
  induction l generalizing s with
  | nil => exact fun _ ↦ rfl
  | cons m l ih =>
    obtain ⟨_, _, -, -, id, q, rfl, -⟩ := hl m List.mem_cons_self
    have hfirst : s.Stands (s.step (.deliver id (.response q))) := .resolve s id _
    exact hfirst.trans (ih (fun m hm ↦ hl m (List.mem_cons_of_mem _ hm)) _)

/-- **What a move of the registry makes of a call.** It starts only if the move lets it act, at the
instant of the move, and only its caller makes it go away. -/
theorem course_step (hr : r.Consistent) (hc : r.call? p = some c)
    (hc' : (r.step mv).call? p = some c') :
    c.Course (fun now ↦ mv = .use p.1 (.advance p.2 now)) (mv = .use p.1 (.abandon p.2)) c' := by
  obtain ⟨s, hs, hcs⟩ := stream?_of_call? hc
  obtain ⟨s', hs', hcs'⟩ := stream?_of_call? hc'
  obtain ⟨s'', hs'', heff⟩ := stream_step hs mv
  rw [hs', Option.some.injEq] at hs''
  subst hs''
  have hstay : s.Stands s' → c'.standing = c.standing := by
    intro h
    have hp := h p.2
    rwa [hcs, hcs', Option.map_some, Option.map_some, Option.some.injEq] at hp
  cases heff with
  | deliver l hl => exact .stay (hstay (stands_deliveries hl s))
  | close l hl => exact .stay (hstay ((stands_deliveries hl s).trans (.close _)))
  | @use u hmv =>
    refine (Stream.courses_step (hr p.1 s hs) (.use u) p.2 c c' hcs hcs').mono ?_ ?_
    · rintro now hu
      rw [hmv, Stream.Move.use.inj hu]
    · rintro hu
      rw [hmv, Stream.Move.use.inj hu]

end Registry

/-! ## A clock -/

/-- The caller of the call went away. -/
def CallStage.isAbandoned : CallStage → Bool
  | abandoned => true
  | _ => false

theorem CallStage.of_isEarly {s : CallStage} (h : s.isEarly = true) :
    s.isHeld = false ∧ s.isOver = false := by
  cases s with
  | opening | entering | rechecking => exact ⟨rfl, rfl⟩
  | _ => cases h

theorem CallStage.of_isHeld {s : CallStage} (h : s.isHeld = true) : s.isOver = false := by
  cases s with
  | offering | queued | awaiting => rfl
  | _ => cases h

theorem CallStage.isAbandoned_of_isRunning {s : CallStage} (h : s.isRunning = true) :
    s.isAbandoned = false := by
  cases s with
  | abandoned => cases h
  | _ => rfl

theorem CallStage.of_isAbandoned {s : CallStage} (h : s.isAbandoned = true) :
    s.isEarly = false ∧ s.isHeld = false ∧ s.isOver = false := by
  cases s with
  | abandoned => exact ⟨rfl, rfl, rfl⟩
  | _ => cases h

/-- What is done with a stream, at an instant. -/
def Stream.Use.stamp (now : Instant) : Use → Use
  | .advance i _ => .advance i now
  | .expire i _ => .expire i now
  | u => u

/-- A move of the registry at an instant. -/
def Registry.Move.stamp (now : Instant) : Move → Move
  | .arrive allowed arrived ended _ => .arrive allowed arrived ended now
  | .review i _ => .review i now
  | .use i u => .use i (u.stamp now)
  | .wait node timeout _ => .wait node timeout now
  | .attend _ => .attend now
  | mv => mv

/-- The time up to which a call waits that has nothing to do before. -/
def Registry.callDue? (r : Registry) (p : Nat × Nat) : Option Instant :=
  (r.stream? p.1).bind fun s ↦ (s.call? p.2).bind fun c ↦
    if s.isStuck c then some c.deadline else none

theorem Registry.callDue?_of_call? {r : Registry} {p : Nat × Nat} {s : Stream} {c : Call}
    (hs : r.stream? p.1 = some s) (hc : s.call? p.2 = some c) :
    r.callDue? p = if s.isStuck c then some c.deadline else none := by
  rw [callDue?, hs, Option.bind_some, hc, Option.bind_some]

namespace Agent

variable {σ : Type} {a a' : Agent σ} {n : Nat} {f f' : Forward} {mv : Move σ} {now : Instant}

/-- A move at an instant. -/
def Move.stamp (now : Instant) : Move σ → Move σ
  | .goOn n _ => .goOn n now
  | .registry m => .registry (m.stamp now)
  | mv => mv

/-- The time up to which a request waits that has nothing to do before. -/
def due? (a : Agent σ) (f : Forward) : Option Instant :=
  match f.retry.phase with
  | .attempting => f.call.bind a.registry.callDue?
  | .waiting till => if a.hasEnded f.epoch then none else some till
  | _ => none

/-- Whether a request is under way: its peer was not answered, and is still there. -/
def isUnderWay (a : Agent σ) (f : Forward) : Bool :=
  f.outcome.isNone && !f.call.any fun p ↦ (a.registry.call? p).any (·.stage.isAbandoned)

/-- Whether time may pass up to an instant: what is under way has nothing to do before. -/
def mayPass (a : Agent σ) (till : Instant) : Bool :=
  a.forwards.all fun f ↦ !a.isUnderWay f || (a.due? f).any fun due ↦ decide (till ≤ due)

/-- An agent and what its clock shows. -/
structure Timed (σ : Type) where
  agent : Agent σ
  now : Instant := 0

namespace Timed

/-- The agent does a piece of work now, or time passes. -/
inductive Tick (σ : Type) where
  | act (mv : Move σ)
  | pass (till : Instant)

/-- The agent after a tick. Time that may not pass does not. -/
def step (t : Timed σ) : Tick σ → Timed σ
  | .act mv => { t with agent := t.agent.step (mv.stamp t.now) }
  | .pass till =>
    if t.now ≤ till ∧ t.agent.mayPass till = true then { t with now := till } else t

/-- The agent after a run. -/
def run (t : Timed σ) (ticks : List (Tick σ)) : Timed σ := ticks.foldl step t

@[simp] theorem run_nil (t : Timed σ) : t.run [] = t := rfl

theorem run_append (t : Timed σ) (l l' : List (Tick σ)) : t.run (l ++ l') = (t.run l).run l' :=
  List.foldl_append

theorem run_concat (t : Timed σ) (l : List (Tick σ)) (tick : Tick σ) :
    t.run (l ++ [tick]) = (t.run l).step tick := by
  rw [run_append]
  rfl

/-- What the agent does over a run with a clock is a run. -/
theorem exists_run (t : Timed σ) (ticks : List (Tick σ)) :
    ∃ moves, (t.run ticks).agent = t.agent.run moves := by
  induction ticks using List.reverseRecOn with
  | nil => exact ⟨[], rfl⟩
  | append_singleton ticks tick ih =>
    obtain ⟨moves, hmoves⟩ := ih
    rw [run_concat]
    cases tick with
    | act mv =>
      refine ⟨moves ++ [mv.stamp (t.run ticks).now], ?_⟩
      rw [Agent.run_concat, ← hmoves]
      rfl
    | pass till =>
      refine ⟨moves, Eq.trans ?_ hmoves⟩
      unfold step
      dsimp only
      split <;> rfl

end Timed

/-! ## The schedule of a request -/

/-- A call that was made at an instant is in time if it may take so long. -/
structure InTime (c : Call) (now made : Instant) (span : Nat) : Prop where
  timeout : c.timeout.nanos = span
  early : c.stage.isEarly = true → now = made
  held : c.stage.isHeld = true → c.deadline = made + span ∧ now ≤ made + span
  concluded : c.stage.isOver = true → now ≤ made + span

/-- A request that began at an instant is where it should be now, given the number of its attempts
and how long a call may take. -/
inductive OnSchedule (a : Agent σ) (now began : Instant) (span : Nat) (f : Forward) : Prop where
  | ready : f.retry.phase = .ready → f.call = none →
    now = began + f.retry.starts.length * f.retry.policy.interval.nanos →
    f.retry.starts.length < f.retry.policy.limit → OnSchedule a now began span f
  | trying (k : Nat) : f.retry.phase = .attempting → f.call = none →
    f.retry.starts.length = k + 1 → k < f.retry.policy.limit →
    now = began + k * f.retry.policy.interval.nanos → OnSchedule a now began span f
  | calling {p : Nat × Nat} {c : Call} (k : Nat) : f.retry.phase = .attempting →
    f.call = some p → a.registry.call? p = some c → f.retry.starts.length = k + 1 →
    k < f.retry.policy.limit → InTime c now (began + k * f.retry.policy.interval.nanos) span →
    OnSchedule a now began span f
  | waiting {till : Instant} : f.retry.phase = .waiting till → f.call = none →
    till = began + f.retry.starts.length * f.retry.policy.interval.nanos →
    f.retry.starts.length < f.retry.policy.limit → now ≤ till → OnSchedule a now began span f
  | finished {r : Except StreamError Response} {since : Instant} :
    f.retry.phase = .finished r since → f.call = none →
    now ≤ began + (f.retry.policy.limit - 1) * f.retry.policy.interval.nanos + span →
    OnSchedule a now began span f

/-- A request that was not answered is on schedule. -/
structure Paced (a : Agent σ) (now began : Instant) (span : Nat) (f : Forward) : Prop where
  schedule : f.outcome = none → OnSchedule a now began span f
  answered : f.outcome.isSome = true → ∃ r since, f.retry.phase = .finished r since

/-! ### Calls -/

section InTime

variable {c c' : Call} {made till : Instant} {span : Nat}

theorem InTime.of_early (hspan : c.timeout.nanos = span) (hearly : c.stage.isEarly = true)
    (hnow : now = made) : InTime c now made span := by
  obtain ⟨hheld, hover⟩ := CallStage.of_isEarly hearly
  exact ⟨hspan, fun _ ↦ hnow, fun h ↦ (Bool.false_ne_true (hheld.symm.trans h)).elim,
    fun h ↦ (Bool.false_ne_true (hover.symm.trans h)).elim⟩

theorem InTime.of_held (hspan : c.timeout.nanos = span) (hheld : c.stage.isHeld = true)
    (hdue : c.deadline = made + span ∧ now ≤ made + span) : InTime c now made span := by
  have hearly : c.stage.isEarly ≠ true := fun h ↦
    Bool.false_ne_true ((CallStage.of_isEarly h).1.symm.trans hheld)
  have hover := CallStage.of_isHeld hheld
  exact ⟨hspan, fun h ↦ (hearly h).elim, fun _ ↦ hdue,
    fun h ↦ (Bool.false_ne_true (hover.symm.trans h)).elim⟩

theorem InTime.of_over (hspan : c.timeout.nanos = span) (hover : c.stage.isOver = true)
    (hle : now ≤ made + span) : InTime c now made span := by
  have hearly : c.stage.isEarly ≠ true := fun h ↦
    Bool.false_ne_true ((CallStage.of_isEarly h).2.symm.trans hover)
  have hheld : c.stage.isHeld ≠ true := fun h ↦
    Bool.false_ne_true ((CallStage.of_isHeld h).symm.trans hover)
  exact ⟨hspan, fun h ↦ (hearly h).elim, fun h ↦ (hheld h).elim, fun _ ↦ hle⟩

/-- Nobody waits for a call that was abandoned. -/
theorem InTime.of_abandoned (hspan : c.timeout.nanos = span)
    (habandoned : c.stage.isAbandoned = true) : InTime c now made span := by
  obtain ⟨hearly, hheld, hover⟩ := CallStage.of_isAbandoned habandoned
  exact ⟨hspan, fun h ↦ (Bool.false_ne_true (hearly.symm.trans h)).elim,
    fun h ↦ (Bool.false_ne_true (hheld.symm.trans h)).elim,
    fun h ↦ (Bool.false_ne_true (hover.symm.trans h)).elim⟩

/-- A call that is still there has not taken longer than it may. -/
theorem InTime.now_le (h : InTime c now made span) (hthere : c.stage.isAbandoned = false) :
    now ≤ made + span := by
  cases hstage : c.stage with
  | opening | entering | rechecking => exact h.early (hstage ▸ rfl) ▸ Nat.le_add_right _ _
  | offering | queued | awaiting => exact (h.held (hstage ▸ rfl)).2
  | leaving e => exact h.concluded (hstage ▸ rfl)
  | returned r => exact h.concluded (hstage ▸ rfl)
  | abandoned =>
    rw [hstage] at hthere
    cases hthere

/-- A call stays in time, whatever is done now. -/
theorem InTime.step {starts : Instant → Prop} {gone : Prop} (h : InTime c now made span)
    (hcourse : c.Course starts gone c') (hstarts : ∀ t, starts t → t = now)
    (htimeout : c'.timeout = c.timeout) : InTime c' now made span := by
  have hspan := (congrArg Duration.nanos htimeout).trans h.timeout
  cases hcourse with
  | stay hsame =>
    obtain ⟨hstage, hdeadline⟩ := Prod.mk.inj hsame
    exact ⟨hspan, hstage ▸ h.early, hstage ▸ hdeadline ▸ h.held, hstage ▸ h.concluded⟩
  | approach hearly hearly' => exact .of_early hspan hearly' (h.early hearly)
  | ready t ht hstage hstage' hdeadline =>
    have hnow := h.early (hstage ▸ rfl)
    refine .of_held hspan (hstage' ▸ rfl) ⟨?_, hnow ▸ Nat.le_add_right _ _⟩
    rw [hdeadline, hstarts t ht, hnow, h.timeout]
  | hold hheld hheld' hdeadline => exact .of_held hspan hheld' (hdeadline ▸ h.held hheld)
  | conclude hrun hover =>
    exact .of_over hspan hover (h.now_le (CallStage.isAbandoned_of_isRunning hrun))
  | abandon _ _ hstage => exact .of_abandoned hspan (hstage ▸ rfl)

/-- A call that is stuck is in time up to its deadline. -/
theorem InTime.pass {s : Stream} (h : InTime c now made span) (hstuck : s.isStuck c = true)
    (hle : till ≤ c.deadline) : InTime c till made span := by
  have hheld : c.stage.isHeld = true := by
    rcases Stream.stage_of_isStuck hstuck with hstage | ⟨hstage, -⟩ <;> rw [hstage] <;> rfl
  obtain ⟨hdeadline, -⟩ := h.held hheld
  exact .of_held h.timeout hheld ⟨hdeadline, hdeadline ▸ hle⟩

end InTime

/-- What a move of the agent makes of a call. -/
theorem course_step (ha : a.registry.Consistent) (mv : Move σ) {p : Nat × Nat} {c : Call}
    (hc : a.registry.call? p = some c) :
    ∃ c', (a.step mv).registry.call? p = some c' ∧ c.Evolves c' ∧
      c.Course (fun t ↦ mv = .registry (.use p.1 (.advance p.2 t)))
        (mv = .registry (.use p.1 (.abandon p.2))) c' := by
  obtain ⟨m, hm, hmv⟩ := a.exists_registry_step mv
  obtain ⟨c', hc', hev⟩ := Registry.evolves_step ha m hc
  refine ⟨c', hm ▸ hc', hev, (Registry.course_step ha hc hc').mono (fun t ht ↦ ?_) fun hgone ↦ ?_⟩
  · rcases hmv with rfl | ⟨store, rfl⟩ | ⟨g, id, r, d, rfl⟩
    · rw [ht]
    · cases ht
    · cases ht
  · rcases hmv with rfl | ⟨store, rfl⟩ | ⟨g, id, r, d, rfl⟩
    · rw [hgone]
    · cases hgone
    · cases hgone

/-- What is done now is done at this instant. -/
theorem eq_of_stamp {g k : Nat} {t : Instant}
    (h : mv.stamp now = .registry (.use g (.advance k t))) : t = now := by
  cases mv with
  | registry m =>
    cases m with
    | use g' u =>
      cases u with
      | advance k' t' => cases h; rfl
      | _ => cases h
    | _ => cases h
  | _ => cases h

/-! ### Requests -/

theorem request_turned (a : Agent σ) (ended : Bool) (now : Instant) (f : Forward) :
    (a.turned ended now f).request = f.request := by
  unfold turned
  split
  · rfl
  · split
    · split <;> rfl
    · split <;> rfl
  · rfl
  · split <;> rfl

theorem policy_retry_ended (r : Retry Response) (outcome : Except StreamError Response)
    (now : Instant) : (r.ended outcome now).policy = r.policy := by
  unfold Retry.ended
  split
  · rfl
  · split <;> rfl
  · rfl

/-- How often a request is attempted, and how long it waits in between, stays the same. -/
theorem policy_turned (a : Agent σ) (ended : Bool) (now : Instant) (f : Forward) :
    (a.turned ended now f).retry.policy = f.retry.policy := by
  unfold turned
  split
  · unfold Retry.start
    split
    · split <;> rfl
    · rfl
  · split
    · split
      · exact policy_retry_ended _ _ _
      · rfl
    · split
      · rfl
      · exact policy_retry_ended _ _ _
  · unfold Retry.wake
    split
    · split
      · rfl
      · split <;> rfl
    · rfl
  · split <;> rfl

/-- Where the schedule of a request does not look at its call, it is the same for every agent. -/
theorem OnSchedule.mono {began : Instant} {span : Nat} (h : OnSchedule a now began span f)
    (hcalls : ∀ p c made, f.call = some p → a.registry.call? p = some c →
      InTime c now made span → ∃ c', a'.registry.call? p = some c' ∧ InTime c' now made span) :
    OnSchedule a' now began span f := by
  cases h with
  | ready hphase hcall hnow hlt => exact .ready hphase hcall hnow hlt
  | trying k hphase hcall hk hlt hnow => exact .trying k hphase hcall hk hlt hnow
  | calling k hphase hcall hc hk hlt htime =>
    obtain ⟨c', hc', htime'⟩ := hcalls _ _ _ hcall hc htime
    exact .calling k hphase hcall hc' hk hlt htime'
  | waiting hphase hcall htill hlt hle => exact .waiting hphase hcall htill hlt hle
  | finished hphase hcall hle => exact .finished hphase hcall hle

/-- Calls keep their time, whatever the agent does now. -/
theorem inTime_step (ha : a.registry.Consistent) (mv : Move σ) {p : Nat × Nat} {c : Call}
    {made : Instant} {span : Nat} (hc : a.registry.call? p = some c)
    (h : InTime c now made span) :
    ∃ c', (a.step (mv.stamp now)).registry.call? p = some c' ∧ InTime c' now made span := by
  obtain ⟨c', hc', hev, hcourse⟩ := course_step ha (mv.stamp now) hc
  exact ⟨c', hc', h.step hcourse (fun _ ht ↦ eq_of_stamp ht) hev.timeout⟩

section Going

variable {began : Instant} {span : Nat}

/-- The response to one of the attempts that there are comes in time, -/
theorem le_of_response {k limit interval : Nat} (h : k < limit)
    (hle : now ≤ began + k * interval + span) : now ≤ began + (limit - 1) * interval + span := by
  have hwaits : k * interval ≤ (limit - 1) * interval :=
    Nat.mul_le_mul_right _ (Nat.le_sub_one_of_lt h)
  exact Nat.le_trans hle (Nat.add_le_add_right (Nat.add_le_add_left hwaits began) span)

/-- and so does what comes before one of them. -/
theorem le_of_wait {k limit interval : Nat} (h : k < limit) (hle : now ≤ began + k * interval) :
    now ≤ began + (limit - 1) * interval + span :=
  le_of_response h (Nat.le_trans hle (Nat.le_add_right _ _))

/-- A request that is between two attempts goes on in time. -/
theorem OnSchedule.start {ended : Bool} (hphase : f.retry.phase = .ready) (hcall : f.call = none)
    (hnow : now = began + f.retry.starts.length * f.retry.policy.interval.nanos)
    (hlt : f.retry.starts.length < f.retry.policy.limit) :
    OnSchedule a now began span { f with retry := f.retry.start ended now } := by
  unfold Retry.start
  rw [hphase]
  dsimp only
  split
  · exact .finished rfl hcall (le_of_wait hlt (Nat.le_of_eq hnow))
  · exact .trying _ rfl hcall List.length_append hlt hnow

theorem OnSchedule.wake {till : Instant} {ended : Bool} (hphase : f.retry.phase = .waiting till)
    (hcall : f.call = none)
    (htill : till = began + f.retry.starts.length * f.retry.policy.interval.nanos)
    (hlt : f.retry.starts.length < f.retry.policy.limit) (hle : now ≤ till) :
    OnSchedule a now began span { f with retry := f.retry.wake ended now } := by
  unfold Retry.wake
  rw [hphase]
  dsimp only
  split
  · exact .finished rfl hcall (le_of_wait hlt (htill ▸ hle))
  · split
    · rename_i hdue
      exact .ready rfl hcall ((Nat.le_antisymm hle hdue).trans htill) hlt
    · exact .waiting hphase hcall htill hlt hle

/-- An attempt that found no stream took no time, and the next one is due after a wait. -/
theorem OnSchedule.notFound {k : Nat} (hphase : f.retry.phase = .attempting) (hcall : f.call = none)
    (hk : f.retry.starts.length = k + 1) (hlt : k < f.retry.policy.limit)
    (hnow : now = began + k * f.retry.policy.interval.nanos) :
    OnSchedule a now began span
      { f with retry := f.retry.ended (.error .streamNotFound) now } := by
  unfold Retry.ended
  rw [hphase]
  dsimp only
  split
  · rename_i hmore
    have hleft : f.retry.starts.length < f.retry.policy.limit :=
      of_decide_eq_true (Bool.and_eq_true_iff.mp hmore).2
    refine .waiting rfl hcall ?_ hleft (Nat.le_add_right _ _)
    dsimp only
    rw [hnow, hk, Nat.succ_mul, Nat.add_assoc]
  · exact .finished rfl hcall (le_of_wait hlt (Nat.le_of_eq hnow))

/-- Going on, a request whose node has a stream makes its call. -/
theorem step_goOn_of_find? {g : Nat} (hf : a.forwards[n]? = some f)
    (hphase : f.retry.phase = .attempting) (hcall : f.call = none)
    (hg : a.registry.find? f.request.node = some g) (now : Instant) :
    a.step (.goOn n now) = a.makeCall n f g := by
  change ((a.forwards[n]?).map fun f ↦ a.goOn n f now).getD a = _
  rw [hf, Option.map_some, Option.getD_some]
  unfold Agent.goOn
  rw [hphase, hcall, hg]

/-- What a request makes of itself keeps to the schedule. -/
theorem OnSchedule.goOn {calls : Nat → List (Nat × Nat)} (ha : Steady a calls)
    (hf : a.forwards[n]? = some f) (h : OnSchedule a now began span f)
    (hspan : (a.timeoutOf f.request).nanos = span) (hphase : ∀ r since,
      f.retry.phase ≠ .finished r since) :
    OnSchedule (a.step (.goOn n now)) now began span (a.turned (a.hasEnded f.epoch) now f) := by
  cases h with
  | ready hready hcall hnow hlt =>
    simp only [turned, hready]
    exact .start hready hcall hnow hlt
  | waiting hwaiting hcall htill hlt hle =>
    simp only [turned, hwaiting]
    exact .wake hwaiting hcall htill hlt hle
  | finished hfinished _ _ => exact absurd hfinished (hphase _ _)
  | trying k hattempting hcall hk hlt hnow =>
    cases hg : a.registry.find? f.request.node with
    | none =>
      have hturned : a.turned (a.hasEnded f.epoch) now f =
          { f with retry := f.retry.ended (.error .streamNotFound) now } := by
        simp only [turned, hattempting, hcall, hg]
      rw [hturned]
      exact .notFound hattempting hcall hk hlt hnow
    | some g =>
      -- the call is new, so its time has not begun, and it is made when the attempt begins
      obtain ⟨s, hs⟩ := ha.linked _ g hg
      have hstep := step_goOn_of_find? hf hattempting hcall hg now
      simp only [turned, hattempting, hcall, hg]
      exact .calling k hattempting rfl (hstep ▸ call?_nextPlace hs) hk hlt (.of_early hspan rfl hnow)
  | @calling p c k hattempting hcall hc hk hlt htime =>
    cases hr : a.response? p with
    | none =>
      simp only [turned, hattempting, hcall, hr]
      obtain ⟨c', hc', htime'⟩ := inTime_step ha.consistent (.goOn n now) hc htime
      exact .calling k hattempting hcall hc' hk hlt htime'
    | some r =>
      simp only [turned, hattempting, hcall, hr]
      have hreturned : c.stage.isOver = true := by
        rw [response?_of_call? hc] at hr
        obtain ⟨q, hq, -⟩ := Option.map_eq_some_iff.mp hr
        rw [Call.result?_eq_some.mp hq]
        rfl
      refine .finished (phase_ended_response ha.consistent hattempting hr now) rfl ?_
      dsimp only
      rw [policy_retry_ended]
      exact le_of_response hlt (htime.concluded hreturned)

/-- A request goes on now, whatever the instant is that it is told. -/
theorem eq_now_of_stamp {t : Instant} (h : mv.stamp now = .goOn n t) : t = now := by
  cases mv with
  | goOn n' t' => cases h; rfl
  | _ => cases h

/-- **A request keeps to its schedule**, whatever the agent does now. -/
theorem Paced.step {calls : Nat → List (Nat × Nat)} (ha : Steady a calls)
    (hf : a.forwards[n]? = some f) (h : Paced a now began span f)
    (hspan : (a.timeoutOf f.request).nanos = span) (mv : Move σ) :
    ∃ f', (a.step (mv.stamp now)).forwards[n]? = some f' ∧
      Paced (a.step (mv.stamp now)) now began span f' ∧ f'.request = f.request ∧
      f'.retry.policy = f.retry.policy := by
  by_cases hgoOn : mv.stamp now = .goOn n now
  · rw [hgoOn]
    refine ⟨_, forward_goOn hf now, ?_, request_turned a _ now f, policy_turned a _ now f⟩
    by_cases hfinished : ∃ r since, f.retry.phase = .finished r since
    · obtain ⟨r, since, hphase⟩ := hfinished
      rw [turned_of_finished hphase]
      split
      · rename_i hsome
        refine ⟨fun hnone ↦ ?_, h.answered⟩
        rw [hnone] at hsome
        cases hsome
      · refine ⟨fun hnone ↦ ?_, fun _ ↦ ⟨r, since, hphase⟩⟩
        cases hnone
    · have hrunning : ∀ r since, f.retry.phase ≠ .finished r since :=
        fun r since hphase ↦ hfinished ⟨r, since, hphase⟩
      have houtcome := outcome_turned (a := a) hrunning (a.hasEnded f.epoch) now
      refine ⟨fun hnone ↦ ?_, fun hsome ↦ ?_⟩
      · exact .goOn ha hf (h.schedule (houtcome.symm.trans hnone)) hspan hrunning
      · exact absurd (h.answered (houtcome ▸ hsome)) hfinished
  · refine ⟨f, forward_of_ne hf fun t ht ↦ hgoOn ?_, ⟨fun hnone ↦ ?_, h.answered⟩, rfl, rfl⟩
    · rw [ht, eq_now_of_stamp ht]
    · exact (h.schedule hnone).mono fun p c made _ hc htime ↦ inTime_step ha.consistent mv hc htime

/-- Time passes no further than whoever is under way waits. -/
theorem exists_due_of_mayPass {till : Instant} (hf : f ∈ a.forwards)
    (hpass : a.mayPass till = true) (hunder : a.isUnderWay f = true) :
    ∃ due, a.due? f = some due ∧ till ≤ due := by
  have hall := List.all_eq_true.mp hpass f hf
  rw [hunder, Bool.not_true, Bool.false_or] at hall
  obtain ⟨due, hdue, hle⟩ := (Option.any_eq_true _ _).mp hall
  exact ⟨due, hdue, of_decide_eq_true hle⟩

/-- **Whoever is on schedule is so when time has passed.** -/
theorem Paced.pass {till : Instant} (hf : f ∈ a.forwards) (h : Paced a now began span f)
    (hpass : a.mayPass till = true) : Paced a till began span f := by
  refine ⟨fun hnone ↦ ?_, h.answered⟩
  have hthere : f.call = none → ∃ due, a.due? f = some due ∧ till ≤ due := by
    intro hcall
    refine exists_due_of_mayPass hf hpass ?_
    rw [isUnderWay, hnone, hcall]
    rfl
  cases h.schedule hnone with
  | ready hphase hcall _ _ =>
    obtain ⟨due, hdue, -⟩ := hthere hcall
    simp only [due?, hphase] at hdue
    cases hdue
  | trying k hphase hcall _ _ _ =>
    obtain ⟨due, hdue, -⟩ := hthere hcall
    simp only [due?, hphase, hcall] at hdue
    cases hdue
  | finished hphase hcall _ =>
    obtain ⟨due, hdue, -⟩ := hthere hcall
    simp only [due?, hphase] at hdue
    cases hdue
  | waiting hphase hcall htill hlt _ =>
    obtain ⟨due, hdue, hle⟩ := hthere hcall
    simp only [due?, hphase] at hdue
    split at hdue
    · cases hdue
    · exact .waiting hphase hcall htill hlt (Option.some.inj hdue ▸ hle)
  | @calling p c k hphase hcall hc hk hlt htime =>
    -- a call without a caller says nothing of the clock; one that is waited for is stuck
    refine .calling k hphase hcall hc hk hlt ?_
    by_cases habandoned : c.stage.isAbandoned = true
    · exact .of_abandoned htime.timeout habandoned
    · have hunder : a.isUnderWay f = true := by
        rw [isUnderWay, hnone, hcall]
        simpa [hc] using habandoned
      obtain ⟨due, hdue, hle⟩ := exists_due_of_mayPass hf hpass hunder
      obtain ⟨s, hs, hcs⟩ := Registry.stream?_of_call? hc
      simp only [due?, hphase, hcall, Option.bind_some, Registry.callDue?_of_call? hs hcs] at hdue
      split at hdue
      · rename_i hstuck
        exact htime.pass hstuck (Option.some.inj hdue ▸ hle)
      · cases hdue

/-- A request is on schedule when it begins. -/
theorem paced_newForward (a a' : Agent σ) (now : Instant) (span : Nat) (r : Request) :
    Paced a' now now span (a.newForward r) := by
  refine ⟨fun _ ↦ .ready rfl rfl ?_ ?_, fun hsome ↦ by cases hsome⟩
  · exact (Nat.add_zero now).symm.trans (congrArg (now + ·) (Nat.zero_mul _).symm)
  · exact a.config.retry.one_le_limit

/-- Whoever is under way and on schedule has not taken longer than allowed. -/
theorem Paced.now_le (h : Paced a now began span f) (hunder : a.isUnderWay f = true) :
    now ≤ began + ((f.retry.policy.limit - 1) * f.retry.policy.interval.nanos + span) := by
  obtain ⟨hnone, hthere⟩ := Bool.and_eq_true_iff.mp hunder
  rw [← Nat.add_assoc]
  cases h.schedule (Option.isNone_iff_eq_none.mp hnone) with
  | ready _ _ hnow hlt => exact le_of_wait hlt (Nat.le_of_eq hnow)
  | trying k _ _ _ hlt hnow => exact le_of_wait hlt (Nat.le_of_eq hnow)
  | waiting _ _ htill hlt hle => exact le_of_wait hlt (htill ▸ hle)
  | finished _ _ hle => exact hle
  | @calling p c k _ hcall hc _ hlt htime =>
    rw [hcall, Option.any_some, hc, Option.any_some, Bool.not_eq_true'] at hthere
    exact le_of_response hlt (htime.now_le hthere)

end Going

/-! ## Runs with a clock -/

theorem timeoutOf_congr (h : a'.config = a.config) (r : Request) :
    a'.timeoutOf r = a.timeoutOf r := by
  cases r <;> simp only [timeoutOf, h]

namespace Timed

variable {t : Timed σ} {before after : List (Tick σ)} {tick : Tick σ}

theorem config_run (t : Timed σ) (ticks : List (Tick σ)) :
    (t.run ticks).agent.config = t.agent.config := by
  obtain ⟨moves, hmoves⟩ := t.exists_run ticks
  rw [hmoves]
  clear hmoves
  induction moves using List.reverseRecOn with
  | nil => rfl
  | append_singleton moves mv ih => rw [Agent.run_concat, (fixed_step _ mv).1, ih]

theorem exists_steady (ha : Steady t.agent fun _ ↦ []) (ticks : List (Tick σ)) :
    ∃ calls, Steady (t.run ticks).agent calls := by
  obtain ⟨moves, hmoves⟩ := t.exists_run ticks
  exact ⟨_, hmoves ▸ ha.run moves⟩

/-- A request that begins is on schedule from then on. -/
theorem paced_run (ha : Steady t.agent fun _ ↦ [])
    (hn : (t.run before).agent.forwards[n]? = none)
    (hmade : (t.run (before ++ [tick])).agent.forwards[n]? ≠ none) (after : List (Tick σ)) :
    ∃ f, (t.run (before ++ [tick] ++ after)).agent.forwards[n]? = some f ∧
      Paced (t.run (before ++ [tick] ++ after)).agent (t.run (before ++ [tick] ++ after)).now
        (t.run before).now (t.agent.timeoutOf f.request).nanos f ∧
      f.retry.policy = t.agent.config.retry := by
  induction after using List.reverseRecOn with
  | nil =>
    obtain ⟨f, hf⟩ := Option.ne_none_iff_exists'.mp hmade
    rw [List.append_nil]
    refine ⟨f, hf, ?_⟩
    rw [run_concat] at hf ⊢
    cases tick with
    | act mv =>
      obtain ⟨r, rfl⟩ := eq_newForward hn hf
      exact ⟨paced_newForward _ _ _ _ r, congrArg AgentConfig.retry (t.config_run before)⟩
    | pass till =>
      unfold step at hf
      dsimp only at hf
      split at hf <;> cases hn.symm.trans hf
  | append_singleton after tick' ih =>
    obtain ⟨f, hf, hpaced, hpolicy⟩ := ih
    rw [← List.append_assoc, run_concat]
    cases tick' with
    | act mv =>
      obtain ⟨calls, hsteady⟩ := exists_steady ha (before ++ [tick] ++ after)
      have hspan := congrArg Duration.nanos
        (timeoutOf_congr (t.config_run (before ++ [tick] ++ after)) f.request)
      obtain ⟨f', hf', hpaced', hrequest, hpolicy'⟩ := hpaced.step hsteady hf hspan mv
      refine ⟨f', hf', ?_, hpolicy'.trans hpolicy⟩
      rw [hrequest]
      exact hpaced'
    | pass till =>
      unfold step
      dsimp only
      split
      · rename_i hpass
        exact ⟨f, hf, hpaced.pass (List.mem_of_getElem? hf) hpass.2, hpolicy⟩
      · exact ⟨f, hf, hpaced, hpolicy⟩

end Timed

end Agent

end NodeAgent
