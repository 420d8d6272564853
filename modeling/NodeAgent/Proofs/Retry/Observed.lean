import NodeAgent.Proofs.Retry.Schedule

/-!
# A request that is observed

`Retry.observe` follows a request through time, from one instant at which something happens to the
next, with an agent that closes at a given instant or not at all. It makes one course of those that
there are: the agent closes when it was given to (`ClosesAt`), ahead of whatever else is due at that
instant, and the loop goes on whenever it can. Every attempt takes three moves of the machine, so
the moves that it has are enough (`OnCourse.follows`), and at the horizon the request has ended or
waits for something later (`StandsAt`).

## Main statements

* `exists_run_observe`: a request that is observed takes such a course.
* `heeds_policy`: it is attempted as its policy says.
-/

namespace NodeAgent

variable {α : Type} {p : RetryPolicy} {op : Nat → Except StreamError α}

namespace Retry

namespace Course

variable {c c' c'' : Course α}

/-- The agent is closed at the instant given, if at all. -/
def ClosesAt (op : Nat → Except StreamError α) (closes : Option Instant) :
    Course α → List Turn → Prop
  | _, [] => True
  | c, t :: turns => (t = .close → closes = some c.now) ∧ ClosesAt op closes (c.step op t) turns

/-- How the request stands at an instant, in an agent that closes when it was given to. -/
structure StandsAt (closes : Option Instant) (horizon : Instant) (c : Course α) : Prop where
  now : c.now = horizon
  closed : c.isClosed = closedAt closes horizon
  waits : c.retry.result? = none →
    ∃ due, c.retry.phase = .waiting due ∧ horizon < due ∧ c.isClosed = false

/-- A run in which the agent closes when it was given to leads from one to the other. -/
def Leads (op : Nat → Except StreamError α) (closes : Option Instant) (c c' : Course α) : Prop :=
  ∃ turns, ClosesAt op closes c turns ∧ c.run op turns = c'

section Observe

variable {closes : Option Instant} {horizon till since : Instant} {o : Except StreamError α}

theorem Leads.refl (c : Course α) : Leads op closes c c := ⟨[], trivial, rfl⟩

theorem ClosesAt.append {l l' : List Turn} (h : ClosesAt op closes c l)
    (h' : ClosesAt op closes (c.run op l) l') : ClosesAt op closes c (l ++ l') := by
  induction l generalizing c with
  | nil => exact h'
  | cons t l ih => exact ⟨h.1, ih h.2 h'⟩

theorem Leads.trans (h : Leads op closes c c') (h' : Leads op closes c' c'') :
    Leads op closes c c'' := by
  obtain ⟨l, hl, rfl⟩ := h
  obtain ⟨l', hl', rfl⟩ := h'
  exact ⟨l ++ l', hl.append hl', run_append c l l'⟩

theorem Leads.go (op : Nat → Except StreamError α) (closes : Option Instant) (c : Course α) :
    Leads op closes c (c.step op .go) :=
  ⟨[.go], ⟨fun h ↦ (nomatch h), trivial⟩, rfl⟩

theorem Leads.close (h : closes = some c.now) : Leads op closes c { c with isClosed := true } :=
  ⟨[.close], ⟨fun _ ↦ h, trivial⟩, rfl⟩

theorem Leads.pass (hle : c.now ≤ till) (hpass : c.mayPass till = true) :
    Leads op closes c { c with now := till } :=
  ⟨[.pass till], ⟨fun h ↦ (nomatch h), trivial⟩, if_pos ⟨hle, hpass⟩⟩

theorem mayPass_of_finished (h : c.retry.phase = .finished o since) : c.mayPass till = true := by
  rw [mayPass, h]

theorem mayPass_of_waiting {due : Instant} (h : c.retry.phase = .waiting due)
    (hopen : c.isClosed = false) (hle : till ≤ due) : c.mayPass till = true := by
  simp only [mayPass, h, hopen, Bool.not_false, Bool.true_and, decide_eq_true hle]

theorem closedAt_eq_true : closedAt closes till = true ↔ ∃ t, closes = some t ∧ t ≤ till := by
  cases closes <;> simp [closedAt]

/-- Nothing happens to a request that has ended, whenever the agent closes. -/
theorem Leads.of_finished (h : c.retry.phase = .finished o since) (hle : c.now ≤ horizon)
    (hclosed : c.isClosed = closedAt closes c.now) :
    ∃ c', Leads op closes c c' ∧ c'.retry = c.retry ∧ StandsAt closes horizon c' := by
  have hstands : ∀ {c' : Course α}, c'.retry = c.retry → c'.now = horizon →
      c'.isClosed = closedAt closes horizon → StandsAt closes horizon c' := by
    refine fun hretry hnow hclosed' ↦ ⟨hnow, hclosed', fun hnone ↦ ?_⟩
    rw [hretry, result?_of_finished h] at hnone
    cases hnone
  by_cases hsame : closedAt closes horizon = c.isClosed
  · exact ⟨_, .pass hle (mayPass_of_finished h), rfl, hstands rfl rfl hsame.symm⟩
  · -- the agent closes on the way
    have hlate : closedAt closes horizon = true := by
      rcases hnow : closedAt closes c.now with _ | _
      · rwa [hclosed, hnow, Bool.not_eq_false] at hsame
      · obtain ⟨t, ht, hlet⟩ := closedAt_eq_true.1 hnow
        exact closedAt_eq_true.2 ⟨t, ht, Nat.le_trans hlet hle⟩
    obtain ⟨t, rfl, ht⟩ := closedAt_eq_true.1 hlate
    have hbefore : c.now ≤ t := by
      refine Nat.le_of_not_le fun hlet ↦ hsame ?_
      rw [hlate, hclosed, closedAt_eq_true.2 ⟨t, rfl, hlet⟩]
    refine ⟨{ c with now := horizon, isClosed := true }, ?_, rfl, hstands rfl rfl hlate.symm⟩
    have hclose : Leads op (some t) { c with now := t } { c with now := t, isClosed := true } :=
      .close rfl
    exact ((Leads.pass hbefore (mayPass_of_finished h)).trans hclose).trans
      (.pass ht (mayPass_of_finished h))

end Observe

end Course

section RunTo

variable {closes : Option Instant} {horizon now till since : Instant} {m : Nat} {r : Retry α}
  {o : Except StreamError α}

theorem runTo_of_finished (h : r.phase = .finished o since) :
    runTo op closes horizon m now r = r := by
  cases m with
  | zero => rfl
  | succ m => simp only [runTo, h]

theorem runTo_of_unfinished (h : r.result? = none) :
    runTo op closes horizon (m + 1) now r =
      if horizon < r.nextMove closes now then r
      else runTo op closes horizon m (r.nextMove closes now)
        (r.move op (closedAt closes (r.nextMove closes now)) (r.nextMove closes now)) := by
  cases hphase : r.phase with
  | finished =>
    rw [result?_of_finished hphase] at h
    cases h
  | _ => simp only [runTo, hphase]

/-- Two moves are an attempt. -/
theorem runTo_of_ready (h : r.phase = .ready) (hle : now ≤ horizon) :
    runTo op closes horizon (m + 2) now r =
      runTo op closes horizon m now (r.proceed op (closedAt closes now) now) := by
  have hnext : r.nextMove closes now = now := by simp only [nextMove, h]
  have hmove : r.move op (closedAt closes now) now = r.start (closedAt closes now) now := by
    simp only [move, h]
  rw [runTo_of_unfinished (result?_of_ready h), hnext, if_neg (Nat.not_lt.2 hle), hmove]
  cases hclosed : closedAt closes now with
  | true =>
    have hstart : r.start true now = r.finish (.error .handlerClosed) now := by
      simp only [start, h, if_true]
    rw [proceed_of_closed h, hstart, runTo_of_finished rfl, runTo_of_finished rfl]
  | false =>
    have hstart : r.start false now =
        { r with starts := r.starts ++ [now], phase := .attempting } := by
      simp only [start, h, Bool.false_eq_true, if_false]
    rw [hstart, runTo_of_unfinished rfl]
    simp only [nextMove, if_neg (Nat.not_lt.2 hle), move, proceed, h, hstart, List.length_append,
      List.length_singleton, Nat.add_sub_cancel]

/-- One move ends a wait. -/
theorem runTo_of_waiting (h : r.phase = .waiting till) :
    runTo op closes horizon (m + 1) now r =
      if horizon < max now (min till (closes.getD till)) then r
      else runTo op closes horizon m (max now (min till (closes.getD till)))
        (r.wake (closedAt closes (max now (min till (closes.getD till))))
          (max now (min till (closes.getD till)))) := by
  have hnext : r.nextMove closes now = max now (min till (closes.getD till)) := by
    simp only [nextMove, h]
  rw [runTo_of_unfinished (result?_of_waiting h), hnext]
  simp only [move, h]

end RunTo

/-! The next instant at which something happens in a wait that ends at `till`, where the agent
closes at `t`. -/

section Next

variable {now till t next horizon : Nat}

theorem of_lt_next (hlt : horizon < max now (min till t)) (hle : now ≤ horizon) :
    horizon < till ∧ horizon < t := by
  omega

theorem next_eq_closing (hnow : now < t) (hnext : next = max now (min till t)) (hle : t ≤ next) :
    t = next ∧ t ≤ till := by
  omega

theorem next_eq_due (hle : now ≤ till) (hnow : now < t) (hnext : next = max now (min till t))
    (hlt : next < t) : till = next := by
  omega

end Next

namespace Course

variable {c : Course α} {began : Instant} {closes : Option Instant} {horizon till : Instant}

theorem OnCourse.leads {c' : Course α} (h : OnCourse p op began c) (hl : Leads op closes c c') :
    OnCourse p op began c' := by
  obtain ⟨turns, -, rfl⟩ := hl
  exact h.run turns

/-- Time passes in a wait that does not end within the horizon. -/
theorem Leads.of_waiting (hphase : c.retry.phase = .waiting till) (hopen : c.isClosed = false)
    (hle : c.now ≤ horizon) (hlt : horizon < max c.now (min till (closes.getD till))) :
    ∃ c', Leads op closes c c' ∧ c'.retry = c.retry ∧ StandsAt closes horizon c' := by
  obtain ⟨htill, hcloses⟩ := of_lt_next hlt hle
  have hstays : closedAt closes horizon = false := by
    rw [Bool.eq_false_iff, ne_eq, closedAt_eq_true]
    rintro ⟨t, rfl, ht⟩
    exact Nat.not_lt.2 ht hcloses
  exact ⟨_, .pass hle (mayPass_of_waiting hphase hopen (Nat.le_of_lt htill)), rfl, rfl,
    hopen.trans hstays.symm, fun _ ↦ ⟨till, hphase, htill, hopen⟩⟩

/-- A wait is over when its time has come or the agent closes. -/
theorem Leads.of_due {now' : Instant} (hphase : c.retry.phase = .waiting till)
    (hopen : c.isClosed = false) (hclosed : c.isClosed = closedAt closes c.now)
    (hle : c.now ≤ till) (hnow' : now' = max c.now (min till (closes.getD till))) :
    Leads op closes c
      ⟨c.retry.wake (closedAt closes now') now', now', closedAt closes now'⟩ ∧
      (closedAt closes now' = false → till = now') := by
  have hlate : ∀ t, closes = some t → c.now < t := by
    refine fun t ht ↦ Nat.lt_of_not_le fun hle' ↦ ?_
    rw [hopen, closedAt_eq_true.2 ⟨t, ht, hle'⟩] at hclosed
    cases hclosed
  cases hend : closedAt closes now' with
  | true =>
    obtain ⟨t, rfl, ht⟩ := closedAt_eq_true.1 hend
    have hlt := hlate t rfl
    obtain ⟨rfl, htill⟩ := next_eq_closing hlt hnow' ht
    have hstep : ({ c with now := t, isClosed := true } : Course α).step op .go =
        ⟨c.retry.wake true t, t, true⟩ :=
      congrArg (fun r ↦ Course.mk r t true) (proceed_of_waiting hphase)
    have hclose : Leads op (some t) { c with now := t } { c with now := t, isClosed := true } :=
      .close rfl
    refine ⟨?_, fun h ↦ (Bool.false_ne_true h.symm).elim⟩
    exact ((Leads.pass (Nat.le_of_lt hlt) (mayPass_of_waiting hphase hopen htill)).trans
      hclose).trans (hstep ▸ .go op _ _)
  | false =>
    obtain rfl : till = now' := by
      cases closes with
      | none => rw [hnow', Option.getD_none, Nat.min_self, Nat.max_eq_right hle]
      | some t =>
        refine next_eq_due hle (hlate t rfl) hnow' (Nat.lt_of_not_le fun hearly ↦ ?_)
        rw [closedAt_eq_true.2 ⟨t, rfl, hearly⟩] at hend
        cases hend
    have hstep : ({ c with now := till } : Course α).step op .go =
        ⟨c.retry.wake false till, till, false⟩ := by
      unfold Course.step
      dsimp only
      rw [hopen, proceed_of_waiting hphase]
    refine ⟨?_, fun _ ↦ rfl⟩
    exact (Leads.pass hle (mayPass_of_waiting hphase hopen Nat.le.refl)).trans (hstep ▸ .go op _ _)

/-- What the machine has become at the horizon, with some moves to make, is what a run leads to. -/
def Follows (op : Nat → Except StreamError α) (closes : Option Instant) (horizon : Instant)
    (m : Nat) (c : Course α) : Prop :=
  ∃ c', Leads op closes c c' ∧ c'.retry = runTo op closes horizon m c.now c.retry ∧
    StandsAt closes horizon c'

theorem Follows.of_finished {o : Except StreamError α} {since : Instant} (m : Nat)
    (hphase : c.retry.phase = .finished o since) (hle : c.now ≤ horizon)
    (hclosed : c.isClosed = closedAt closes c.now) : Follows op closes horizon m c := by
  obtain ⟨c', hl, hretry, hstands⟩ := Leads.of_finished hphase hle hclosed
  exact ⟨c', hl, hretry.trans (runTo_of_finished hphase).symm, hstands⟩

theorem Follows.of_ready {m : Nat} (hphase : c.retry.phase = .ready) (hle : c.now ≤ horizon)
    (hclosed : c.isClosed = closedAt closes c.now)
    (hnext : Follows op closes horizon m (c.step op .go)) :
    Follows op closes horizon (m + 2) c := by
  obtain ⟨c', hl, hretry, hstands⟩ := hnext
  refine ⟨c', (Leads.go op closes c).trans hl, hretry.trans ?_, hstands⟩
  rw [runTo_of_ready hphase hle, ← hclosed]
  rfl

theorem Follows.of_waiting {m : Nat} (hphase : c.retry.phase = .waiting till)
    (hopen : c.isClosed = false) (hclosed : c.isClosed = closedAt closes c.now)
    (hdue : c.now ≤ till) (hle : c.now ≤ horizon)
    (hnext : till ≤ horizon → closedAt closes till = false →
      Follows op closes horizon m ⟨{ c.retry with phase := .ready }, till, false⟩) :
    Follows op closes horizon (m + 1) c := by
  unfold Follows
  rw [runTo_of_waiting hphase]
  split
  · exact Leads.of_waiting hphase hopen hle ‹_›
  · rename_i hsooner
    generalize hnext' : max c.now (min till (closes.getD till)) = now' at hsooner ⊢
    obtain ⟨hl, htill⟩ : Leads op closes c _ ∧ _ :=
      Leads.of_due hphase hopen hclosed hdue hnext'.symm
    have hnow' := Nat.le_of_not_lt hsooner
    cases hend : closedAt closes now' with
    | true =>
      rw [hend, wake_of_closed hphase] at hl
      rw [wake_of_closed hphase]
      have hfinished : Follows op closes horizon m
          ⟨c.retry.finish (.error .handlerClosed) now', now', true⟩ :=
        .of_finished m rfl hnow' hend.symm
      obtain ⟨c', hl', hrest⟩ := hfinished
      exact ⟨c', hl.trans hl', hrest⟩
    | false =>
      obtain rfl := htill hend
      rw [hend, wake_of_le hphase Nat.le.refl] at hl
      rw [wake_of_le hphase Nat.le.refl]
      obtain ⟨c', hl', hrest⟩ := hnext hnow' hend
      exact ⟨c', hl.trans hl', hrest⟩

/-- From the beginning of an attempt to the horizon: three moves for each attempt are enough. -/
theorem OnCourse.follows (h : OnCourse p op began c) (hphase : c.retry.phase = .ready)
    (hle : c.now ≤ horizon) (hclosed : c.isClosed = closedAt closes c.now) {m : Nat}
    (hm : p.needed op ≤ m + c.retry.starts.length) (hfewer : c.retry.starts.length < p.needed op) :
    Follows op closes horizon (3 * m) c := by
  obtain rfl := h.policy
  induction m generalizing c with
  | zero => exact (Nat.not_lt.2 (Nat.zero_add c.retry.starts.length ▸ hm) hfewer).elim
  | succ m ih =>
    refine .of_ready (m := 3 * m + 1) hphase hle hclosed ?_
    have h' := h.go
    unfold Course.step
    dsimp only
    cases hopen : c.isClosed with
    | true =>
      rw [proceed_of_closed hphase]
      exact .of_finished _ rfl hle (hopen.symm.trans hclosed)
    | false =>
      rw [hopen] at hclosed
      rw [hopen, proceed_of_ready hphase hfewer] at h'
      rw [proceed_of_ready hphase hfewer]
      rcases Nat.lt_or_ge (c.retry.starts.length + 1) (c.retry.policy.needed op) with
        hmore | hlast
      · rw [if_pos hmore] at h' ⊢
        refine .of_waiting rfl rfl hclosed (Nat.le_add_right ..) hle fun htill hend ↦ ?_
        have hlength : (c.retry.starts ++ [c.now]).length = c.retry.starts.length + 1 :=
          List.length_append
        have hfuel : c.retry.policy.needed op ≤ m + (c.retry.starts ++ [c.now]).length := by
          rw [hlength]
          omega
        exact ih rfl htill hend.symm (h'.due rfl) hfuel (hlength ▸ hmore)
      · rw [if_neg (Nat.not_lt.2 hlast)]
        exact .of_finished _ rfl hle hclosed

end Course

/-- **A request that is observed takes such a course**, and is seen as it stands at the horizon. -/
theorem exists_run_observe (p : RetryPolicy) (op : Nat → Except StreamError α)
    (closes : Option Instant) (horizon : Instant) :
    ∃ turns, Course.ClosesAt op closes (Course.new p 0) turns ∧
      (Course.new p 0).run op turns =
        ⟨observe p op closes horizon, horizon, closedAt closes horizon⟩ ∧
      ((Course.new p 0).run op turns).StandsAt closes horizon := by
  have hbegin : Course.Leads op closes (Course.new p 0)
      { Course.new p 0 with isClosed := closedAt closes 0 } := by
    cases hclosed : closedAt closes 0 with
    | false => exact .refl _
    | true =>
      obtain ⟨t, rfl, ht⟩ := Course.closedAt_eq_true.1 hclosed
      exact .close (congrArg some (Nat.le_zero.1 ht))
  have hcourse := (Course.OnCourse.new p op 0).leads hbegin
  have hfollows : Course.Follows op closes horizon (3 * p.limit)
      { Course.new p 0 with isClosed := closedAt closes 0 } :=
    hcourse.follows rfl (Nat.zero_le _) rfl (p.needed_le op) (p.needed_pos op)
  obtain ⟨c', hl, hretry, hstands⟩ := hfollows
  obtain ⟨turns, hcloses, rfl⟩ := hbegin.trans hl
  have hretry' : ((Course.new p 0).run op turns).retry = observe p op closes horizon := hretry
  refine ⟨turns, hcloses, ?_, hstands⟩
  rw [← hretry', ← hstands.closed]
  exact congrArg (Course.mk _ · _) hstands.now

/-- **A request is attempted as its policy says**, whatever the outcomes are and whenever the agent
closes: over every run, and so when it is observed up to a horizon. -/
theorem heeds_policy (p : RetryPolicy) (op : Nat → Except StreamError α) :
    (∀ began turns, Heeds p op began turns ((Course.new p began).run op turns)) ∧
    ∀ closes horizon, ∃ turns, Course.ClosesAt op closes (Course.new p 0) turns ∧
      Heeds p op 0 turns ⟨observe p op closes horizon, horizon, closedAt closes horizon⟩ ∧
      Course.StandsAt closes horizon
        ⟨observe p op closes horizon, horizon, closedAt closes horizon⟩ := by
  refine ⟨heeds_run p op, fun closes horizon ↦ ?_⟩
  obtain ⟨turns, hcloses, hrun, hstands⟩ := exists_run_observe p op closes horizon
  exact ⟨turns, hcloses, hrun ▸ heeds_run p op 0 turns, hrun ▸ hstands⟩

/-- An agent that closes at the very instant at which a wait ends attempts nothing any more. -/
example :
    observe ⟨3, ⟨20⟩⟩ (fun _ ↦ (.error .streamNotFound : Except StreamError Unit)) (some 20) 50 =
      ⟨⟨3, ⟨20⟩⟩, [0], .finished (.error .handlerClosed) 20⟩ := rfl

end Retry

end NodeAgent
