import NodeAgent.Node.Rehearsal
import NodeAgent.Proofs.Agent.Run
import NodeAgent.Proofs.Registry.Sending
import NodeAgent.Proofs.Registry.Soundness
import Mathlib.Data.List.Perm.Subperm

/-!
# A forwarded request is sent at most once

A request that a node carries out twice can do harm, so an attempt may only be followed by another
one if nothing was sent in it. While a request waits for its next attempt its node may come back, be
replaced or leave; while its call runs the stream may be torn down at any point, before its frame
went into the channel or after.

What decides is that a call is made at most once in all. An attempt that makes a call is the last
one, since no failure of a call is worth another attempt (`Stands.returned` is final), and a call
sends its frame at most once (`Registry.SentOnce`). A request that ends for want of a stream, or
because the agent closed, has made no call.

## Main statements

* `at_most_once`: over every run, whatever the retry policy.
-/

namespace NodeAgent

/-- A call keeps the response to its request. -/
theorem Call.Evolves.response? {c c' : Call} {r : Except StreamError Response} (h : c.Evolves c')
    (hr : c.response? = some r) : c'.response? = some r := by
  obtain ⟨q, hq, hqr⟩ := Option.map_eq_some_iff.mp hr
  have hq' : c'.result? = some q :=
    Call.result?_eq_some.mpr (h.stage.returned q (Call.result?_eq_some.mp hq))
  rw [Call.response?, hq', Option.map_some, h.request, hqr]

/-- What a call succeeds with is the message that it returned. -/
theorem Call.result?_of_response? {c : Call} {response : Response}
    (h : c.response? = some (.ok response)) : c.result? = some (.ok (.response response)) := by
  obtain ⟨q, hq, hqr⟩ := Option.map_eq_some_iff.mp h
  cases q with
  | error e => cases hqr
  | ok m =>
    have hm : m.expect c.request.kind = .ok response := hqr
    unfold NodeMessage.expect at hm
    split at hm
    · cases hm
    · split at hm
      · rw [hq, Except.ok.inj hm]
      · cases hm

/-- A call fails only in ways of its own, or because the response is of another kind. -/
theorem Call.response?_error {c : Call} {e : StreamError}
    (hfailed : ∀ e, c.stage = .leaving e ∨ c.stage = .returned (.error e) → e.ofCall = true)
    (h : c.response? = some (.error e)) :
    e ≠ .streamNotFound ∧ e ≠ .handlerClosed ∧ e.isRetryable = false := by
  obtain ⟨q, hq, hqe⟩ := Option.map_eq_some_iff.mp h
  cases q with
  | error e' =>
    have he : e' = e := Except.error.inj hqe
    have hof := hfailed e' (Or.inr (Call.result?_eq_some.mp hq))
    rw [he] at hof
    cases e <;> simp_all [StreamError.ofCall, StreamError.isRetryable]
  | ok m =>
    have hm : m.expect c.request.kind = .error e := hqe
    unfold NodeMessage.expect at hm
    split at hm
    · rw [← Except.error.inj hm]
      exact ⟨StreamError.noConfusion, StreamError.noConfusion, rfl⟩
    · split at hm
      · cases hm
      · rw [← Except.error.inj hm]
        exact ⟨StreamError.noConfusion, StreamError.noConfusion, rfl⟩

namespace Agent

variable {σ : Type} {a a' : Agent σ} {n : Nat} {f f' : Forward} {mv : Move σ}

/-! ## What forwarded requests did along a run -/

/-- The call that a forwarded request waits for. -/
def calling (a : Agent σ) (n : Nat) : Option (Nat × Nat) := (a.forwards[n]?).bind (·.call)

/-- The call that a forwarded request made between two states of the agent. -/
def newCall (a a' : Agent σ) (n : Nat) : List (Nat × Nat) :=
  if (a.calling n).isNone then (a'.calling n).toList else []

/-- The calls that a forwarded request made along a run. -/
def callsOf (a : Agent σ) (n : Nat) : List (Move σ) → List (Nat × Nat)
  | [] => []
  | mv :: moves => a.newCall (a.step mv) n ++ (a.step mv).callsOf n moves

/-- The calls that sent their frames along a run. -/
def sent (a : Agent σ) : List (Move σ) → List (Nat × Nat)
  | [] => []
  | mv :: moves => a.registry.queued (a.step mv).registry ++ (a.step mv).sent moves

/-- The calls of a forwarded request that sent their frames along a run. -/
def framesOf (a : Agent σ) (n : Nat) (moves : List (Move σ)) : List (Nat × Nat) :=
  (a.sent moves).filter (· ∈ a.callsOf n moves)

theorem callsOf_append (a : Agent σ) (n : Nat) (moves moves' : List (Move σ)) :
    a.callsOf n (moves ++ moves') = a.callsOf n moves ++ (a.run moves).callsOf n moves' := by
  induction moves generalizing a with
  | nil => rfl
  | cons m moves ih => rw [List.cons_append, callsOf, ih, callsOf, List.append_assoc, run_cons]

theorem callsOf_concat (a : Agent σ) (n : Nat) (moves : List (Move σ)) (mv : Move σ) :
    a.callsOf n (moves ++ [mv]) =
      a.callsOf n moves ++ (a.run moves).newCall ((a.run moves).step mv) n := by
  rw [callsOf_append, callsOf, callsOf, List.append_nil]

theorem sent_concat (a : Agent σ) (moves : List (Move σ)) (mv : Move σ) :
    a.sent (moves ++ [mv]) =
      a.sent moves ++ (a.run moves).registry.queued ((a.run moves).step mv).registry := by
  induction moves generalizing a with
  | nil => simp [sent]
  | cons m moves ih => rw [List.cons_append, sent, ih, sent, List.append_assoc, run_cons]

theorem newCall_of_eq (h : a'.calling n = a.calling n) : a.newCall a' n = [] := by
  unfold newCall
  split
  · rename_i hnone
    rw [h, Option.isNone_iff_eq_none.mp hnone]
    rfl
  · rfl

theorem newCall_of_some {p : Nat × Nat} (h : a.calling n = some p) : a.newCall a' n = [] := by
  rw [newCall, h]
  rfl

theorem calling_of_forward (hf : a.forwards[n]? = some f) : a.calling n = f.call := by
  rw [calling, hf, Option.bind_some]

theorem calling_of_none (hn : a.forwards[n]? = none) : a.calling n = none := by
  rw [calling, hn]
  rfl

/-- A request that changes otherwise makes no call. -/
theorem newCall_of_change (hf : a.forwards[n]? = some f) (hf' : a'.forwards[n]? = some f')
    (h : Changes a f f') : a.newCall a' n = [] := by
  have hcalling := calling_of_forward hf
  have hcalling' := calling_of_forward hf'
  cases h with
  | turn _ _ _ hcall _ _ => exact newCall_of_eq (hcalling'.trans (hcall.trans hcalling.symm))
  | take _ hcall _ => exact newCall_of_some (hcalling.trans hcall)
  | answer _ => exact newCall_of_eq (hcalling'.trans hcalling.symm)

theorem newCall_of_call {p : Nat × Nat} (hf : a.forwards[n]? = some f) (hnone : f.call = none)
    (hf' : a'.forwards[n]? = some { f with call := some p }) : a.newCall a' n = [p] := by
  rw [newCall, calling_of_forward hf, hnone, calling_of_forward hf']
  rfl

/-! ## Where a forwarded request stands -/

/-- Where a forwarded request stands, given the calls it made. -/
inductive Stands (a : Agent σ) (f : Forward) : List (Nat × Nat) → Prop where
  /-- It made no call, and ended without one if it ended. -/
  | uncalled : f.call = none → (∀ r since, f.retry.phase = .finished r since →
      r = .error .streamNotFound ∨ r = .error .handlerClosed) → Stands a f []
  /-- It waits for its call. -/
  | calling {p : Nat × Nat} {c : Call} : a.registry.call? p = some c → c.request = f.request →
    f.call = some p → f.retry.phase = .attempting → Stands a f [p]
  /-- It ended with what its call returned. -/
  | returned {p : Nat × Nat} {c : Call} {r : Except StreamError Response} {since : Instant} :
    a.registry.call? p = some c → c.request = f.request → f.call = none →
    f.retry.phase = .finished r since → c.response? = some r → Stands a f [p]

/-- What every agent keeps throughout a run, given the calls that its forwarded requests made. -/
structure Steady (a : Agent σ) (calls : Nat → List (Nat × Nat)) : Prop where
  consistent : a.registry.Consistent
  linked : ∀ node g, a.registry.find? node = some g → ∃ s, a.registry.stream? g = some s
  stands : ∀ n f, a.forwards[n]? = some f → Stands a f (calls n)
  fresh : ∀ n, a.forwards[n]? = none → calls n = []

/-- Nothing that happens to calls changes where a request stands. -/
theorem Stands.mono {l : List (Nat × Nat)} (h : Stands a f l)
    (hcalls : ∀ p c, a.registry.call? p = some c →
      ∃ c', a'.registry.call? p = some c' ∧ c.Evolves c') : Stands a' f l := by
  cases h with
  | uncalled hcall hfinished => exact .uncalled hcall hfinished
  | calling hc hrequest hcall hphase =>
    obtain ⟨c', hc', hev⟩ := hcalls _ _ hc
    exact .calling hc' (hev.request.trans hrequest) hcall hphase
  | returned hc hrequest hcall hphase hr =>
    obtain ⟨c', hc', hev⟩ := hcalls _ _ hc
    exact .returned hc' (hev.request.trans hrequest) hcall hphase (hev.response? hr)

/-- The call that a request makes is at its place afterwards, and has done nothing yet. -/
theorem call?_nextPlace {g : Nat} {s : Stream} (hs : a.registry.stream? g = some s) :
    (a.makeCall n f g).registry.call? (a.nextPlace g) =
      some { id := a.names.requestId a.named, request := f.request,
             timeout := a.timeoutOf f.request } := by
  have hs' := Registry.stream?_updateStream hs
    (·.open (a.names.requestId a.named) f.request (a.timeoutOf f.request))
  have hplace : a.nextPlace g = (g, s.calls.length) := by
    rw [nextPlace, hs]
    rfl
  rw [hplace]
  refine (Registry.call?_of_stream? hs' _).trans ?_
  exact List.getElem?_concat_length ..

theorem call?_makeCall {g : Nat} {s : Stream} (hs : a.registry.stream? g = some s) :
    ∃ c, (a.makeCall n f g).registry.call? (a.nextPlace g) = some c ∧ c.request = f.request ∧
      c.id = a.names.requestId a.named :=
  ⟨_, call?_nextPlace hs, rfl, rfl⟩

/-- A request that is not waiting for a call has no call to come back to. -/
theorem Stands.turn {l : List (Nat × Nat)} (h : Stands a f l)
    (hattempting : f.retry.phase = .attempting → f.call = none)
    (hrunning : ∀ r since, f.retry.phase ≠ .finished r since) (hcall : f'.call = f.call)
    (hfinished : ∀ r since, f'.retry.phase = .finished r since →
      r = .error .streamNotFound ∨ r = .error .handlerClosed) : Stands a f' l := by
  cases h with
  | uncalled hnone _ => exact .uncalled (hcall.trans hnone) hfinished
  | calling _ _ hsome hphase =>
    rw [hattempting hphase] at hsome
    cases hsome
  | returned _ _ _ hphase _ => exact absurd hphase (hrunning _ _)

theorem response?_of_call? {p : Nat × Nat} {c : Call} (hc : a.registry.call? p = some c) :
    a.response? p = c.response? := by
  change (a.registry.call? p).bind (·.response?) = _
  rw [hc, Option.bind_some]

/-- No failure of a call is worth another attempt. -/
theorem phase_ended_response {p : Nat × Nat} {r : Except StreamError Response}
    (hconsistent : a.registry.Consistent) (hphase : f.retry.phase = .attempting)
    (hr : a.response? p = some r) (now : Instant) :
    (f.retry.ended r now).phase = .finished r now := by
  unfold Retry.ended
  rw [hphase]
  cases r with
  | ok response => rfl
  | error e =>
    obtain ⟨c, hc, hce⟩ := Option.bind_eq_some_iff.mp hr
    obtain ⟨s, hs, hcs⟩ := Registry.stream?_of_call? hc
    have hfailed := fun e ↦ (hconsistent _ s hs).failed p.2 c e hcs
    have hfinal := (Call.response?_error hfailed hce).2.2
    dsimp only
    rw [hfinal]
    rfl

/-- The response to its call ends a request. -/
theorem Stands.take {l : List (Nat × Nat)} {p : Nat × Nat} {r : Except StreamError Response}
    {now : Instant} (h : Stands a f l) (hconsistent : a.registry.Consistent)
    (hcall : f.call = some p) (hr : a.response? p = some r) :
    Stands a { f with retry := f.retry.ended r now, call := none } l := by
  cases h with
  | uncalled hnone _ =>
    rw [hcall] at hnone
    cases hnone
  | @calling q c hc hrequest hsome hphase =>
    -- the one case in which there is a call to take the response of
    obtain rfl : q = p := Option.some.inj (hsome.symm.trans hcall)
    exact .returned hc hrequest rfl (phase_ended_response hconsistent hphase hr now)
      (response?_of_call? hc ▸ hr)
  | returned _ _ hnone _ _ =>
    rw [hcall] at hnone
    cases hnone

theorem Stands.answer {l : List (Nat × Nat)} (h : Stands a f l)
    (outcome : Option (Except RpcStatus Response)) : Stands a { f with outcome } l := by
  cases h with
  | uncalled hcall hfinished => exact .uncalled hcall hfinished
  | calling hc hrequest hcall hphase => exact .calling hc hrequest hcall hphase
  | returned hc hrequest hcall hphase hr => exact .returned hc hrequest hcall hphase hr

/-- Where a request stands after a change that makes no call. -/
theorem Stands.change {l : List (Nat × Nat)} (h : Stands a f l)
    (hconsistent : a.registry.Consistent) (hchange : Changes a f f') : Stands a f' l := by
  cases hchange with
  | turn hattempting hrunning _ hcall _ hfinished =>
    exact h.turn hattempting hrunning hcall hfinished
  | take _ hcall hr => exact h.take hconsistent hcall hr
  | answer _ => exact h.answer _

/-- The calls of a request are calls for what it requests. -/
theorem Stands.own {l : List (Nat × Nat)} {p : Nat × Nat} (h : Stands a f l) (hp : p ∈ l) :
    ∃ c, a.registry.call? p = some c ∧ c.request = f.request := by
  cases h with
  | uncalled _ _ => cases hp
  | calling hc hrequest _ _ => exact ⟨_, List.mem_singleton.mp hp ▸ hc, hrequest⟩
  | returned hc hrequest _ _ _ => exact ⟨_, List.mem_singleton.mp hp ▸ hc, hrequest⟩

/-- A request that ended in a way in which no call fails has made no call. -/
theorem Stands.calls_eq_nil {l : List (Nat × Nat)} {e : StreamError} {since : Instant}
    (h : Stands a f l) (hconsistent : a.registry.Consistent)
    (hphase : f.retry.phase = .finished (.error e) since)
    (he : e = .streamNotFound ∨ e = .handlerClosed) : l = [] := by
  cases h with
  | uncalled _ _ => rfl
  | calling _ _ _ hattempting =>
    rw [hphase] at hattempting
    cases hattempting
  | @returned p c r since' hc _ _ hfinished hr =>
    rw [hphase, RetryPhase.finished.injEq] at hfinished
    obtain ⟨rfl, -⟩ := hfinished
    obtain ⟨s, hs, hcs⟩ := Registry.stream?_of_call? hc
    have hfailed := fun e ↦ (hconsistent _ s hs).failed p.2 c e hcs
    obtain ⟨hfound, hopen, -⟩ := Call.response?_error hfailed hr
    exact absurd he (not_or.mpr ⟨hfound, hopen⟩)

namespace Steady

variable {calls : Nat → List (Nat × Nat)}

theorem evolves (ha : Steady a calls) (mv : Move σ) {p : Nat × Nat} {c : Call}
    (hc : a.registry.call? p = some c) :
    ∃ c', (a.step mv).registry.call? p = some c' ∧ c.Evolves c' := by
  obtain ⟨m, hm, -⟩ := a.exists_registry_step mv
  rw [hm]
  exact Registry.evolves_step ha.consistent m hc

/-- Where a request stands after a move. -/
theorem stands_step (ha : Steady a calls) (mv : Move σ) (hf : a.forwards[n]? = some f)
    (hf' : (a.step mv).forwards[n]? = some f') :
    Stands (a.step mv) f' (calls n ++ a.newCall (a.step mv) n) := by
  have hmono : ∀ {f l}, Stands a f l → Stands (a.step mv) f l :=
    fun h ↦ h.mono fun _ _ hc ↦ ha.evolves mv hc
  have hstands := ha.stands n f hf
  obtain ⟨f'', hf'', heff⟩ := forward_step hf mv
  rw [hf', Option.some.injEq] at hf''
  subst hf''
  cases heff with
  | none =>
    rw [newCall_of_eq ((calling_of_forward hf').trans (calling_of_forward hf).symm),
      List.append_nil]
    exact hmono hstands
  | change hchange =>
    rw [newCall_of_change hf hf' hchange, List.append_nil]
    exact hmono (hstands.change ha.consistent hchange)
  | @call g hphase hnone hg ha' =>
    obtain ⟨s, hs⟩ := ha.linked _ g hg
    obtain ⟨c, hc, hrequest, -⟩ := call?_makeCall (n := n) (f := f) hs
    rw [← ha'] at hc
    rw [newCall_of_call hf hnone hf']
    -- the call is the first one: whoever made a call before waits for it or has ended
    generalize calls n = l at hstands
    cases hstands with
    | uncalled _ _ => exact .calling hc hrequest rfl hphase
    | calling _ _ hsome _ =>
      rw [hnone] at hsome
      cases hsome
    | returned _ _ _ hfinished _ =>
      rw [hphase] at hfinished
      cases hfinished

/-- **Every move keeps an agent steady.** -/
theorem step (ha : Steady a calls) (mv : Move σ) :
    Steady (a.step mv) fun n ↦ calls n ++ a.newCall (a.step mv) n := by
  obtain ⟨m, hm, -⟩ := a.exists_registry_step mv
  refine ⟨?_, ?_, fun n f' hf' ↦ ?_, fun n hn' ↦ ?_⟩
  · rw [hm]
    exact ha.consistent.step m
  · rw [hm]
    exact Registry.exists_stream_step ha.linked m
  · cases hf : a.forwards[n]? with
    | some f => exact ha.stands_step mv hf hf'
    | none =>
      -- the request came with this move
      obtain ⟨hcall, hphase, -⟩ := forward_new hf hf'
      have hnew : a.newCall (a.step mv) n = [] :=
        newCall_of_eq ((calling_of_forward hf').trans (hcall.trans (calling_of_none hf).symm))
      rw [ha.fresh n hf, hnew]
      refine .uncalled hcall fun r since h ↦ ?_
      rw [hphase] at h
      cases h
  · have hn : a.forwards[n]? = none := by
      cases hf : a.forwards[n]? with
      | none => rfl
      | some f =>
        obtain ⟨f', hf', -⟩ := forward_step hf mv
        rw [hn'] at hf'
        cases hf'
    rw [ha.fresh n hn, newCall_of_eq ((calling_of_none hn').trans (calling_of_none hn).symm)]
    rfl

/-- **A forwarded request makes at most one call**, however often it is attempted. -/
theorem length_calls_le (ha : Steady a calls) (n : Nat) : (calls n).length ≤ 1 := by
  cases hf : a.forwards[n]? with
  | none =>
    rw [ha.fresh n hf]
    exact Nat.zero_le 1
  | some f =>
    have hstands := ha.stands n f hf
    generalize calls n = l at hstands
    cases hstands with
    | uncalled _ _ => exact Nat.zero_le 1
    | calling _ _ _ _ => exact Nat.le_refl 1
    | returned _ _ _ _ _ => exact Nat.le_refl 1

/-- A request that ended with a response made one call, and that call returned it. -/
theorem exists_call_of_finished {response : Response} {since : Instant} (ha : Steady a calls)
    (hf : a.forwards[n]? = some f) (hphase : f.retry.phase = .finished (.ok response) since) :
    ∃ p c, calls n = [p] ∧ a.registry.call? p = some c ∧ c.request = f.request ∧
      c.response? = some (.ok response) := by
  have hstands := ha.stands n f hf
  generalize calls n = l at hstands ⊢
  cases hstands with
  | uncalled _ hfinished => rcases hfinished _ since hphase with hr | hr <;> cases hr
  | calling _ _ _ hattempting =>
    rw [hphase] at hattempting
    cases hattempting
  | returned hc hrequest _ hfinished hr =>
    rw [hphase, RetryPhase.finished.injEq] at hfinished
    obtain ⟨rfl, -⟩ := hfinished
    exact ⟨_, _, rfl, hc, hrequest, hr⟩

/-- A run keeps an agent steady. -/
theorem run (ha : Steady a fun _ ↦ []) (moves : List (Move σ)) :
    Steady (a.run moves) fun n ↦ a.callsOf n moves := by
  induction moves using List.reverseRecOn with
  | nil => exact ha
  | append_singleton moves mv ih =>
    have hstep := ih.step mv
    rw [run_concat]
    refine cast (congrArg (Steady _) (funext fun n ↦ ?_)) hstep
    exact (callsOf_concat a n moves mv).symm

/-- An agent without forwarded requests and registrations is steady. -/
theorem of_empty (hregistrations : a.registry.registrations = []) (hlinks : a.registry.links = {})
    (hforwards : a.forwards = []) : Steady a fun _ ↦ [] := by
  refine ⟨fun g s hs ↦ ?_, fun node g hg ↦ ?_, fun n f hf ↦ ?_, fun _ _ ↦ rfl⟩
  · rw [Registry.stream?, Registry.registration?, hregistrations] at hs
    cases hs
  · rw [Registry.find?, hlinks] at hg
    cases hg
  · rw [hforwards] at hf
    cases hf

end Steady

/-- A new agent has its names, and neither forwarded requests nor registrations. -/
theorem fields_of_new {site : Site σ} {config : AgentConfig} {names : NameSupply}
    {timeout : Duration} {store : NodeStore} {permissions : Option PermissionRegistry} {w : σ}
    (h : Agent.new site config names { firstFrameTimeout := timeout, store } permissions w =
      .ok a) :
    a.names = names ∧ a.forwards = [] ∧ a.registry.registrations = [] ∧ a.registry.links = {} := by
  unfold Agent.new at h
  split at h
  · cases h
  · split at h
    · cases h
    · have ha := Except.ok.inj h
      subst ha
      exact ⟨rfl, rfl, rfl, rfl⟩

/-- Every call sent its frame at most once along a run. -/
theorem sentOnce_run (ha : Steady a fun _ ↦ []) (moves : List (Move σ)) :
    (a.run moves).registry.SentOnce (a.sent moves) := by
  induction moves using List.reverseRecOn with
  | nil => exact ⟨List.nodup_nil, by simp [sent]⟩
  | append_singleton moves mv ih =>
    rw [run_concat, sent_concat]
    obtain ⟨m, hm, -⟩ := (a.run moves).exists_registry_step mv
    rw [hm]
    exact ih.step (ha.run moves).consistent m

/-! ## At most one frame -/

/-- What is kept of the frames of forwarded requests over a run. -/
structure AtMostOnce (a : Agent σ) (moves : List (Move σ)) : Prop where
  /-- Over all its attempts a request sends at most one frame. -/
  once : ∀ n, (a.framesOf n moves).length ≤ 1
  /-- A request that ends for want of a stream, or since the agent closed, sent none. -/
  never : ∀ n f e since, (a.run moves).forwards[n]? = some f →
    f.retry.phase = .finished (.error e) since → e = .streamNotFound ∨ e = .handlerClosed →
    a.framesOf n moves = []
  /-- What the calls of a request sent is the request. -/
  own : ∀ n f p, (a.run moves).forwards[n]? = some f → p ∈ a.callsOf n moves →
    ∃ c, (a.run moves).registry.call? p = some c ∧ c.request = f.request
  /-- Nothing but the frames that are counted comes into a channel. -/
  counted : ∀ before mv after, moves = before ++ mv :: after → ∀ g,
    let r := (a.run before).registry
    let r' := ((a.run before).step mv).registry
    ∃ rest, rest <:+ r.channel g ∧ r'.channel g =
      rest ++ (r.sentOn r' g).filterMap fun k ↦ (r'.call? (g, k)).map (·.frame)

/-- **A forwarded request is sent at most once**, whatever happens to its node, to its stream and to
the agent, and however often it is attempted. -/
theorem at_most_once {site : Site σ} {config : AgentConfig} {names : NameSupply}
    {timeout : Duration} {store : NodeStore} {permissions : Option PermissionRegistry} {w : σ}
    (h : Agent.new site config names { firstFrameTimeout := timeout, store } permissions w = .ok a)
    (moves : List (Move σ)) : AtMostOnce a moves := by
  obtain ⟨-, hforwards, hregistrations, hlinks⟩ := fields_of_new h
  have hnew : Steady a fun _ ↦ [] := .of_empty hregistrations hlinks hforwards
  have hsteady := hnew.run moves
  refine ⟨fun n ↦ ?_, fun n f e since hf hphase he ↦ ?_, fun n f p hf hp ↦ ?_, ?_⟩
  · have hnodup : (a.framesOf n moves).Nodup := (sentOnce_run hnew moves).nodup.filter _
    have hsub : a.framesOf n moves ⊆ a.callsOf n moves := by
      intro p hp
      exact of_decide_eq_true (List.mem_filter.mp hp).2
    calc (a.framesOf n moves).length
        ≤ (a.callsOf n moves).length := (List.subperm_of_subset hnodup hsub).length_le
      _ ≤ 1 := hsteady.length_calls_le n
  · have hnone := (hsteady.stands n f hf).calls_eq_nil hsteady.consistent hphase he
    refine List.filter_eq_nil_iff.mpr fun p _ ↦ ?_
    rw [hnone]
    simp
  · exact (hsteady.stands n f hf).own hp
  · intro before mv after _ g
    dsimp only
    obtain ⟨m, hm, -⟩ := (a.run before).exists_registry_step mv
    rw [hm]
    exact Registry.channel_step (hnew.run before).consistent m g

/-- Names that are tally marks. -/
def tallies : NameSupply :=
  let mark n := String.ofList (List.replicate n '|')
  ⟨mark, mark, mark⟩

/-- The world of a main node. -/
def mainWorld : Rehearsal :=
  { node := { nodeId := "main", statusCode := 2, attrs := [⟨mainNodeAttribute, ""⟩] } }

/-- The call that was made first does its next operations. -/
def callActs (count : Nat) : List (Move Rehearsal) :=
  List.replicate count (.registry (.use 0 (.advance 0 0)))

/-- A node comes, a request is sent to it, and the registry closes before the node answers. -/
def cutOff : List (Move Rehearsal) :=
  .registry (.arrive [.provisioned]
    [.frame ⟨"", some (.info { nodeId := "node", statusCode := 2 })⟩] false 0) ::
  .registry (.review 0 0) ::
  .call .protectedSide (.administer (.pauseNode "node")) ::
  .goOn 0 0 :: .goOn 0 0 ::
  (callActs 4 ++ .registry .close :: (callActs 2 ++ [.goOn 0 0]))

/-- The frame was sent by then, and it is the only one. -/
theorem at_most_once_cutOff :
    ∃ a, Agent.new (Rehearsal.site false) {} tallies
        { firstFrameTimeout := .ofSeconds 30, store := {} } none mainWorld = .ok a ∧
      AtMostOnce a cutOff ∧ a.framesOf 0 cutOff = [(0, 0)] := by
  have hrun : ∃ a, Agent.new (Rehearsal.site false) {} tallies
      { firstFrameTimeout := .ofSeconds 30, store := {} } none mainWorld = .ok a ∧
      a.framesOf 0 cutOff = [(0, 0)] := ⟨_, rfl, by decide⟩
  obtain ⟨a, hnew, hframes⟩ := hrun
  exact ⟨a, hnew, at_most_once hnew cutOff, hframes⟩

end Agent

end NodeAgent
