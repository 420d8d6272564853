import NodeAgent.Agent.Forward
import NodeAgent.Proofs.Registry.Run

/-!
# Runs of an agent

While a request is sent on, everything else goes on too: nodes come and leave, readers deliver
responses, the calls of other requests share the same streams, peers ask for this and that, and the
agent may close and open again. A *run* is any list of *moves* in which each of these does one piece
of work, so a statement about every run is one about every schedule.

## What a move does to forwarded requests

`Effect` lists it. Most moves leave them alone, but for requests that are new (`Aside`); what a
request does when it goes on is that it makes a call (`Effect.call`), or turns from one attempt to
the next, takes the response to its call, or is answered (`Changes`).

## Main statements

* `effect_step`: every move has one of these effects.
* `exists_run_settle`: what the agent does at an instant is a run.
-/

namespace NodeAgent.Agent

variable {σ : Type}

/-! ## Moves -/

/-- One piece of work. -/
inductive Move (σ : Type) where
  /-- A forwarded request goes on. -/
  | goOn (n : Nat) (now : Instant)
  | registry (m : Registry.Move)
  | call (l : Listener) (rpc : Rpc)
  | subscribe (l : Listener) (topic : Topic)
  | unsubscribe (h : SubscriptionHandle)
  | readEvents (limit : Nat) (h : SubscriptionHandle)
  | relay
  | close
  | reopen
  /-- The world changes by itself. -/
  | world (w : σ)

/-- A forwarded request does one operation. Making a call is one, and what the call does next are
others. -/
def goOn (a : Agent σ) (n : Nat) (f : Forward) (now : Instant) : Agent σ :=
  match f.retry.phase, f.call, a.registry.find? f.request.node with
  | .attempting, none, some g => a.makeCall n f g
  | _, _, _ => a.stepForward n f now

/-- The agent after a move. -/
def step (a : Agent σ) : Move σ → Agent σ
  | .goOn n now => ((a.forwards[n]?).map fun f ↦ a.goOn n f now).getD a
  | .registry m => { a with registry := a.registry.step m }
  | .call l rpc => (a.call l rpc).2
  | .subscribe l topic => (a.subscribe l topic).2
  | .unsubscribe h => a.unsubscribe h
  | .readEvents limit h => (a.readEvents limit h).2
  | .relay => a.relay
  | .close => a.close
  | .reopen => a.reopen
  | .world w => { a with world := w }

/-- The agent after a run. -/
def run (a : Agent σ) (moves : List (Move σ)) : Agent σ := moves.foldl step a

@[simp] theorem run_nil (a : Agent σ) : a.run [] = a := rfl

theorem run_cons (a : Agent σ) (mv : Move σ) (l : List (Move σ)) :
    a.run (mv :: l) = (a.step mv).run l := rfl

theorem run_append (a : Agent σ) (l l' : List (Move σ)) : a.run (l ++ l') = (a.run l).run l' :=
  List.foldl_append

theorem run_concat (a : Agent σ) (l : List (Move σ)) (mv : Move σ) :
    a.run (l ++ [mv]) = (a.run l).step mv := by
  rw [run_append]
  rfl

theorem run_map_registry (a : Agent σ) (l : List Registry.Move) :
    a.run (l.map .registry) = { a with registry := a.registry.run l } := by
  induction l generalizing a with
  | nil => rfl
  | cons m l ih => rw [List.map_cons, run_cons, ih]; rfl

/-! ## What leaves forwarded requests alone -/

/-- The request was just accepted. -/
def IsNew (f : Forward) : Prop := f.call = none ∧ f.retry.phase = .ready ∧ f.outcome = none

/-- The second agent differs from the first in nothing that forwarded requests depend on, but for
its clock of names and for new requests. -/
structure Aside (a a' : Agent σ) (new : List Forward) : Prop where
  names : a'.names = a.names
  registry : ∃ store, a'.registry = { a.registry with store }
  forwards : a'.forwards = a.forwards ++ new
  named : a.named ≤ a'.named

namespace Aside

variable {a a' a'' : Agent σ} {new new' : List Forward}

theorem refl (a : Agent σ) : Aside a a [] :=
  ⟨rfl, ⟨a.registry.store, rfl⟩, (List.append_nil _).symm, Nat.le_refl _⟩

theorem trans (h : Aside a a' new) (h' : Aside a' a'' new') : Aside a a'' (new ++ new') := by
  obtain ⟨store, hstore⟩ := h.registry
  obtain ⟨store', hstore'⟩ := h'.registry
  refine ⟨h'.names.trans h.names, ⟨store', ?_⟩, ?_, Nat.le_trans h.named h'.named⟩
  · rw [hstore', hstore]
  · rw [h'.forwards, h.forwards, List.append_assoc]

/-- What an agent does to its world, its feeds and its permissions. -/
theorem of_eq (hnames : a'.names = a.names) (hregistry : a'.registry = a.registry)
    (hforwards : a'.forwards = a.forwards) (hnamed : a.named ≤ a'.named) : Aside a a' [] :=
  ⟨hnames, ⟨a.registry.store, hregistry⟩, by rw [hforwards, List.append_nil], hnamed⟩

theorem setStatus (a : Agent σ) (node : NodeId) (s : NodeStatus) :
    Aside a (a.setStatus node s).2 [] := by
  unfold Agent.setStatus
  dsimp only
  split
  · exact of_eq rfl rfl rfl (Nat.le_refl _)
  · exact ⟨rfl, ⟨_, rfl⟩, (List.append_nil _).symm, Nat.le_refl _⟩

theorem conclude (a : Agent σ) (r : Request) (response : Response) :
    Aside a (a.conclude r response).2 [] := by
  unfold Agent.conclude
  split
  · exact refl a
  · split
    · exact refl a
    · exact setStatus a _ _

theorem carryOut (a : Agent σ) (r : Request) (subject : Except ServiceError String) :
    Aside a (a.carryOut r subject).2 [] := by
  unfold Agent.carryOut
  split
  · exact of_eq rfl rfl rfl (Nat.le_refl _)
  · generalize a.site.perform r a.world = performed
    have hworld : Aside a { a with world := performed.2 } [] := of_eq rfl rfl rfl (Nat.le_refl _)
    exact hworld.trans (conclude _ r _)

theorem relay (a : Agent σ) : Aside a a.relay [] :=
  ⟨rfl, ⟨_, rfl⟩, (List.append_nil _).symm, Nat.le_refl _⟩

theorem administer (a : Agent σ) (r : Request) :
    ∃ new, Aside a (a.administer r).2 new ∧ ∀ f ∈ new, IsNew f := by
  have hnone : ∀ {a' : Agent σ}, Aside a a' [] → ∃ new, Aside a a' new ∧ ∀ f ∈ new, IsNew f :=
    fun h ↦ ⟨[], h, by simp⟩
  have hforward : ∀ r, ∃ new, Aside a (a.forward r) new ∧ ∀ f ∈ new, IsNew f := by
    refine fun r ↦ ⟨[_], ⟨rfl, ⟨a.registry.store, rfl⟩, rfl, Nat.le_refl _⟩, fun f hf ↦ ?_⟩
    rw [List.mem_singleton.mp hf]
    exact ⟨rfl, rfl, rfl⟩
  unfold Agent.administer
  dsimp only
  split
  · split
    · exact hnone (refl a)
    · split
      · exact hnone (carryOut a _ _)
      · exact hforward _
  · split
    · exact hnone (carryOut a _ _)
    · exact hforward _

theorem respond (a : Agent σ) (rpc : Rpc) :
    ∃ new, Aside a (a.respond rpc).2 new ∧ ∀ f ∈ new, IsNew f := by
  have hnone : ∀ {a' : Agent σ}, Aside a a' [] → ∃ new, Aside a a' new ∧ ∀ f ∈ new, IsNew f :=
    fun h ↦ ⟨[], h, by simp⟩
  have hperms : ∀ (p : PermissionRegistry) (k : Nat), a.named ≤ k →
      Aside a { a with permissions := some p, named := k } [] :=
    fun p k hk ↦ of_eq rfl rfl rfl hk
  unfold Agent.respond
  split
  · exact hnone (refl a)
  · exact hnone (refl a)
  · split <;> exact hnone (refl a)
  · split <;> exact hnone (refl a)
  · split <;> exact hnone (refl a)
  · split <;> exact hnone (refl a)
  · exact hnone (refl a)
  · exact hnone (refl a)
  · exact administer a _
  · exact hnone (refl a)
  · exact hnone (refl a)
  · split
    · exact hnone (refl a)
    · exact hnone (hperms _ _ (Nat.le_succ _))
  · split
    · exact hnone (refl a)
    · exact hnone (hperms _ _ (Nat.le_refl _))

theorem call (a : Agent σ) (l : Listener) (rpc : Rpc) :
    ∃ new, Aside a (a.call l rpc).2 new ∧ ∀ f ∈ new, IsNew f := by
  unfold Agent.call
  split
  · obtain ⟨new, h, hnew⟩ := respond a rpc
    have hrelay := h.trans (relay _)
    rw [List.append_nil] at hrelay
    exact ⟨new, hrelay, hnew⟩
  · exact ⟨[], refl a, by simp⟩

theorem subscribe (a : Agent σ) (l : Listener) (topic : Topic) :
    Aside a (a.subscribe l topic).2 [] := by
  unfold Agent.subscribe
  split
  · exact refl a
  · split
    · exact of_eq rfl rfl rfl (Nat.le_refl _)
    · exact of_eq rfl rfl rfl (Nat.le_refl _)
    · split
      · exact refl a
      · exact of_eq rfl rfl rfl (Nat.le_succ _)

theorem unsubscribe (a : Agent σ) (h : SubscriptionHandle) : Aside a (a.unsubscribe h) [] := by
  cases h <;> exact of_eq rfl rfl rfl (Nat.le_refl _)

theorem readEvents (a : Agent σ) (limit : Nat) (h : SubscriptionHandle) :
    Aside a (a.readEvents limit h).2 [] := by
  cases h with
  | nodes k => exact of_eq rfl rfl rfl (Nat.le_refl _)
  | subjects k => exact of_eq rfl rfl rfl (Nat.le_refl _)
  | certs id =>
    unfold Agent.readEvents
    dsimp only
    split <;> exact of_eq rfl rfl rfl (Nat.le_refl _)

end Aside

/-! ## What a move does -/

/-- What the peer of a request that ended is told. -/
def told (a : Agent σ) (f : Forward) : Except StreamError Response → Except RpcStatus Response
  | .error e => .error e.toStatus
  | .ok response => .ok (a.conclude f.request response).1

/-- What going on makes of a forwarded request that makes no call. -/
inductive Changes (a : Agent σ) (f : Forward) : Forward → Prop where
  /-- It turns to its next attempt, or ends without one. -/
  | turn {f' : Forward} : (f.retry.phase = .attempting → f.call = none) →
    (∀ r since, f.retry.phase ≠ .finished r since) → f'.request = f.request → f'.call = f.call →
    f'.outcome = f.outcome → (∀ r since, f'.retry.phase = .finished r since →
      r = .error .streamNotFound ∨ r = .error .handlerClosed) → Changes a f f'
  /-- It takes the response to its call. -/
  | take {p : Nat × Nat} {r : Except StreamError Response} {now : Instant} :
    f.retry.phase = .attempting → f.call = some p → a.response? p = some r →
    Changes a f { f with retry := f.retry.ended r now, call := none }
  /-- Its peer is answered. -/
  | answer {result : Except StreamError Response} {since : Instant} :
    f.retry.phase = .finished result since →
    Changes a f { f with outcome := some (a.told f result) }

/-- What a move does to an agent. -/
inductive Effect (a : Agent σ) (mv : Move σ) (a' : Agent σ) : Prop where
  | aside (new : List Forward) : Aside a a' new → (∀ f ∈ new, IsNew f) → Effect a mv a'
  | registry (m : Registry.Move) : mv = .registry m →
    a' = { a with registry := a.registry.step m } → Effect a mv a'
  | change {b : Agent σ} {n : Nat} {f : Forward} (h : Forward → Forward) : Aside a b [] →
    a.forwards[n]? = some f → Changes a f (h f) → a' = b.updateForward n h → Effect a mv a'
  | call {n g : Nat} {f : Forward} : a.forwards[n]? = some f → f.retry.phase = .attempting →
    f.call = none → a.registry.find? f.request.node = some g → a' = a.makeCall n f g →
    Effect a mv a'

section GoOn

variable {a : Agent σ} {n : Nat} {f : Forward} {mv : Move σ}

theorem Effect.of_turn (hf : a.forwards[n]? = some f) (h : Forward → Forward)
    (hattempting : f.retry.phase = .attempting → f.call = none)
    (hrunning : ∀ r since, f.retry.phase ≠ .finished r since)
    (hsame : (h f).request = f.request ∧ (h f).call = f.call ∧ (h f).outcome = f.outcome)
    (hfinished : ∀ r since, (h f).retry.phase = .finished r since →
      r = .error .streamNotFound ∨ r = .error .handlerClosed) :
    Effect a mv (a.updateForward n h) :=
  .change h (.refl a) hf
    (.turn hattempting hrunning hsame.1 hsame.2.1 hsame.2.2 hfinished) rfl

theorem Effect.of_answer {result : Except StreamError Response} {since : Instant}
    (hf : a.forwards[n]? = some f) (hphase : f.retry.phase = .finished result since) :
    Effect a mv (a.answerForward n f result) := by
  have hchange := Changes.answer (a := a) hphase
  unfold answerForward
  split
  · exact .change _ (.refl a) hf hchange rfl
  · rename_i response
    exact .change _ (.conclude a f.request response) hf hchange rfl

theorem finished_of_start {r : Retry Response} {closed : Bool} {now since : Instant}
    {result : Except StreamError Response} (hphase : r.phase = .ready)
    (h : (r.start closed now).phase = .finished result since) : result = .error .handlerClosed := by
  unfold Retry.start at h
  rw [hphase] at h
  dsimp only at h
  split at h
  · exact (RetryPhase.finished.inj h).1.symm
  · cases h

theorem finished_of_wake {r : Retry Response} {closed : Bool} {now till since : Instant}
    {result : Except StreamError Response} (hphase : r.phase = .waiting till)
    (h : (r.wake closed now).phase = .finished result since) : result = .error .handlerClosed := by
  unfold Retry.wake at h
  rw [hphase] at h
  dsimp only at h
  split at h
  · exact (RetryPhase.finished.inj h).1.symm
  · split at h
    · cases h
    · rw [hphase] at h
      cases h

/-- An attempt that fails ends the request with that failure, or another one follows. -/
theorem finished_of_ended {r : Retry Response} {now since : Instant} {e : StreamError}
    {result : Except StreamError Response} (hphase : r.phase = .attempting)
    (h : (r.ended (.error e) now).phase = .finished result since) : result = .error e := by
  unfold Retry.ended at h
  rw [hphase] at h
  dsimp only at h
  split at h
  · cases h
  · exact (RetryPhase.finished.inj h).1.symm

/-- A request that goes on makes a call or changes. -/
theorem effect_goOn (hf : a.forwards[n]? = some f) (now : Instant) :
    Effect a mv (a.goOn n f now) := by
  unfold goOn
  split
  · rename_i g hphase hcall hg
    exact .call hf hphase hcall hg rfl
  · -- no call is made, so what the request does is what the agent lets it do in one go
    rename_i hnot
    unfold stepForward
    split
    · rename_i hphase
      refine .of_turn hf _ (fun h ↦ ?_) (fun _ _ h ↦ ?_) ⟨rfl, rfl, rfl⟩ fun r since h ↦ ?_
      · rw [hphase] at h
        cases h
      · rw [hphase] at h
        cases h
      · exact Or.inr (finished_of_start hphase h)
    · rename_i hphase
      split
      · rename_i hcall
        unfold attempt
        split
        · refine .of_turn hf _ (fun _ ↦ hcall) (fun _ _ h ↦ ?_) ⟨rfl, rfl, rfl⟩ fun r since h ↦ ?_
          · rw [hphase] at h
            cases h
          · exact Or.inl (finished_of_ended hphase h)
        · rename_i g hg
          exact absurd hg (hnot g hphase hcall)
      · rename_i p hcall
        split
        · exact .aside [] (.refl a) (by simp)
        · rename_i r hr
          exact .change _ (.refl a) hf (.take hphase hcall hr) rfl
    · rename_i hphase
      refine .of_turn hf _ (fun h ↦ ?_) (fun _ _ h ↦ ?_) ⟨rfl, rfl, rfl⟩ fun r since h ↦ ?_
      · rw [hphase] at h
        cases h
      · rw [hphase] at h
        cases h
      · exact Or.inr (finished_of_wake hphase h)
    · rename_i hphase
      split
      · exact .aside [] (.refl a) (by simp)
      · exact .of_answer hf hphase

end GoOn

/-- **Every move has one of the effects.** -/
theorem effect_step (a : Agent σ) (mv : Move σ) : Effect a mv (a.step mv) := by
  have hnone : ∀ {a' : Agent σ}, Aside a a' [] → Effect a mv a' := fun h ↦ .aside [] h (by simp)
  cases mv with
  | goOn n now =>
    change Effect a _ (((a.forwards[n]?).map fun f ↦ a.goOn n f now).getD a)
    cases hf : a.forwards[n]? with
    | none => exact hnone (.refl a)
    | some f => exact effect_goOn hf now
  | registry m => exact .registry m rfl rfl
  | call l rpc =>
    obtain ⟨new, h, hnew⟩ := Aside.call a l rpc
    exact .aside new h hnew
  | subscribe l topic => exact hnone (.subscribe a l topic)
  | unsubscribe h => exact hnone (.unsubscribe a h)
  | readEvents limit h => exact hnone (.readEvents a limit h)
  | relay => exact hnone (.relay a)
  | close => exact hnone (.of_eq rfl rfl rfl (Nat.le_refl _))
  | reopen => exact hnone (.of_eq rfl rfl rfl (Nat.le_refl _))
  | world w => exact hnone (.of_eq rfl rfl rfl (Nat.le_refl _))

/-! ## One forwarded request -/

/-- The place of the call that a request makes on the stream of a registration. -/
def nextPlace (a : Agent σ) (g : Nat) : Nat × Nat :=
  (g, ((a.registry.stream? g).map (·.nextCall)).getD 0)

/-- What became of a forwarded request when the agent came from one state to another. -/
inductive ForwardEffect (a a' : Agent σ) (n : Nat) (f : Forward) : Forward → Prop where
  | none : ForwardEffect a a' n f f
  | change {f' : Forward} : Changes a f f' → ForwardEffect a a' n f f'
  | call {g : Nat} : f.retry.phase = .attempting → f.call = Option.none →
    a.registry.find? f.request.node = some g → a' = a.makeCall n f g →
    ForwardEffect a a' n f { f with call := some (a.nextPlace g) }

theorem forwards_updateForward (a : Agent σ) (n : Nat) (h : Forward → Forward) (j : Nat) :
    (a.updateForward n h).forwards[j]? =
      if n = j then (a.forwards[j]?).map h else a.forwards[j]? := by
  change (a.forwards.modify n h)[j]? = _
  rw [List.getElem?_modify]
  split <;> simp

theorem forward_step {a : Agent σ} {n : Nat} {f : Forward} (hf : a.forwards[n]? = some f)
    (mv : Move σ) :
    ∃ f', (a.step mv).forwards[n]? = some f' ∧ ForwardEffect a (a.step mv) n f f' := by
  rcases effect_step a mv with ⟨new, haside, -⟩ | ⟨m, -, h⟩ | @⟨b, i, fi, u, haside, hfi, hu, h⟩ |
    @⟨i, g, fi, hfi, hphase, hcall, hg, h⟩
  · refine ⟨f, ?_, .none⟩
    rw [haside.forwards, List.getElem?_append_left (List.getElem?_eq_some_iff.mp hf).1, hf]
  · refine ⟨f, ?_, .none⟩
    rw [h]
    exact hf
  · rw [h, forwards_updateForward, haside.forwards, List.append_nil]
    by_cases hi : i = n
    · subst hi
      rw [hf, Option.some.injEq] at hfi
      subst hfi
      rw [if_pos rfl, hf]
      exact ⟨u f, rfl, .change hu⟩
    · rw [if_neg hi]
      exact ⟨f, hf, .none⟩
  · rw [h, makeCall, forwards_updateForward]
    by_cases hi : i = n
    · subst hi
      rw [hf, Option.some.injEq] at hfi
      subst hfi
      rw [if_pos rfl]
      exact ⟨_, by rw [hf]; rfl, .call hphase hcall hg rfl⟩
    · rw [if_neg hi]
      exact ⟨f, hf, .none⟩

/-- What is asked for stays the same. -/
theorem ForwardEffect.request {a a' : Agent σ} {n : Nat} {f f' : Forward}
    (h : ForwardEffect a a' n f f') : f'.request = f.request := by
  cases h with
  | none => rfl
  | change hchange =>
    cases hchange with
    | turn _ _ hrequest _ _ _ => exact hrequest
    | take _ _ _ => rfl
    | answer _ => rfl
  | call _ _ _ _ => rfl

/-- A new request has no call. -/
theorem forward_new {a : Agent σ} {n : Nat} {f : Forward} {mv : Move σ}
    (hn : a.forwards[n]? = none) (hf : (a.step mv).forwards[n]? = some f) : IsNew f := by
  rcases effect_step a mv with ⟨new, haside, hnew⟩ | ⟨m, -, h⟩ |
    @⟨b, i, fi, u, haside, hfi, hu, h⟩ | @⟨i, g, fi, hfi, hphase, hcall, hg, h⟩
  · rw [haside.forwards, List.getElem?_append_right (List.getElem?_eq_none_iff.mp hn)] at hf
    exact hnew f (List.mem_of_getElem? hf)
  · rw [h] at hf
    cases hn.symm.trans hf
  · rw [h, forwards_updateForward, haside.forwards, List.append_nil, hn] at hf
    split at hf <;> cases hf
  · rw [h, makeCall, forwards_updateForward] at hf
    change (if i = n then (a.forwards[n]?).map _ else a.forwards[n]?) = some f at hf
    rw [hn] at hf
    split at hf <;> cases hf

theorem Aside.exists_store {a b : Agent σ} {new : List Forward} (h : Aside a b new) :
    ∃ store, b.registry = a.registry.step (.store store) := h.registry

/-- A move of the agent is one of its registry: that very move, a change of the store, or the
opening of a call. -/
theorem exists_registry_step (a : Agent σ) (mv : Move σ) :
    ∃ m, (a.step mv).registry = a.registry.step m ∧ (mv = .registry m ∨
      (∃ store, m = .store store) ∨ ∃ g id r d, m = .use g (.open id r d)) := by
  rcases effect_step a mv with ⟨new, h, -⟩ | ⟨m, hmv, h⟩ | @⟨b, i, fi, u, hb, -, -, h⟩ |
    @⟨i, g, f, -, -, -, -, h⟩
  · obtain ⟨store, hstore⟩ := h.exists_store
    exact ⟨_, hstore, Or.inr (Or.inl ⟨store, rfl⟩)⟩
  · exact ⟨m, by rw [h], Or.inl hmv⟩
  · obtain ⟨store, hstore⟩ := hb.exists_store
    exact ⟨_, by rw [h]; exact hstore, Or.inr (Or.inl ⟨store, rfl⟩)⟩
  · refine ⟨.use g (.open (a.names.requestId a.named) f.request (a.timeoutOf f.request)), ?_,
      Or.inr (Or.inr ⟨g, _, _, _, rfl⟩)⟩
    rw [h]
    rfl

/-- Names are used up and never change. -/
theorem names_step (a : Agent σ) (mv : Move σ) :
    (a.step mv).names = a.names ∧ a.named ≤ (a.step mv).named := by
  rcases effect_step a mv with ⟨new, h, -⟩ | ⟨m, hmv, h⟩ | @⟨b, i, fi, u, hb, -, -, h⟩ |
    @⟨i, g, f, -, -, -, -, h⟩
  · exact ⟨h.names, h.named⟩
  · rw [h]
    exact ⟨rfl, Nat.le_refl _⟩
  · rw [h]
    exact ⟨hb.names, hb.named⟩
  · rw [h]
    exact ⟨rfl, Nat.le_succ _⟩

/-! ## The schedule of the agent -/

/-- What a request does when it goes on is a run: one operation of its own, and what its call does
then. -/
theorem exists_run_stepForward {a : Agent σ} {n : Nat} {f : Forward}
    (hf : a.forwards[n]? = some f) (now : Instant) : ∃ l, a.stepForward n f now = a.run l := by
  have hgoOn : a.step (.goOn n now) = a.goOn n f now := by
    change ((a.forwards[n]?).map fun f ↦ a.goOn n f now).getD a = _
    rw [hf]
    rfl
  by_cases hcalls : f.retry.phase = .attempting ∧ f.call = none ∧
      ∃ g, a.registry.find? f.request.node = some g
  · obtain ⟨hphase, hcall, g, hg⟩ := hcalls
    -- the agent makes the call and lets it do all that it can, which is several moves
    let k := ((a.registry.stream? g).map (·.nextCall)).getD 0
    have hmade : a.goOn n f now = a.makeCall n f g := by
      unfold goOn
      rw [hphase, hcall, hg]
    have hpolled : a.stepForward n f now = (a.makeCall n f g).pollCall (g, k) now := by
      unfold stepForward
      rw [hphase, hcall]
      dsimp only
      unfold attempt
      rw [hg]
    let uses := (Stream.polling k now).map (Registry.Move.use g)
    have hpolling : ∀ r : Registry, r.updateStream g (·.poll k now) = r.run uses := by
      intro r
      rw [← Registry.updateStream_uses]
      exact congrArg (r.updateStream g) (funext fun s ↦ s.poll_eq_uses k now)
    refine ⟨.goOn n now :: uses.map .registry, ?_⟩
    rw [run_cons, hgoOn, hmade, hpolled, run_map_registry, pollCall, hpolling]
  · refine ⟨[.goOn n now], ?_⟩
    rw [run_cons, run_nil, hgoOn]
    unfold goOn
    split
    · rename_i g hphase hcall hg
      exact absurd ⟨hphase, hcall, g, hg⟩ hcalls
    · rfl

theorem exists_run_runForward (n : Nat) (now : Instant) (moves : Nat) (a : Agent σ) :
    ∃ l, a.runForward n now moves = a.run l := by
  induction moves generalizing a with
  | zero => exact ⟨[], rfl⟩
  | succ moves ih =>
    unfold runForward
    split
    · exact ⟨[], rfl⟩
    · rename_i f hf
      split
      · exact ⟨[], rfl⟩
      · obtain ⟨l, hl⟩ := exists_run_stepForward hf now
        obtain ⟨l', hl'⟩ := ih (a.stepForward n f now)
        exact ⟨l ++ l', by rw [hl', hl, run_append]⟩

/-- **What the agent does at an instant is a run.** -/
theorem exists_run_settle (a : Agent σ) (now : Instant) : ∃ l, a.settle now = a.run l := by
  have hpolls : ∀ (ns : List Nat) (a : Agent σ),
      ∃ l, ns.foldl (fun a n ↦ a.pollForward now n) a = a.run l := by
    intro ns
    induction ns with
    | nil => exact fun a ↦ ⟨[], rfl⟩
    | cons n ns ih =>
      intro a
      obtain ⟨l, hl⟩ := exists_run_runForward n now (4 * a.config.retry.limit + 2) a
      obtain ⟨l', hl'⟩ := ih (a.pollForward now n)
      exact ⟨l ++ l', by rw [List.foldl_cons, hl', pollForward, hl, run_append]⟩
  obtain ⟨l, hl⟩ := a.registry.exists_run_settle now
  let a₁ := a.run (l.map .registry)
  obtain ⟨l', hl'⟩ := hpolls (List.range a₁.forwards.length) a₁
  refine ⟨l.map .registry ++ l' ++ [.relay], ?_⟩
  rw [run_concat, run_append]
  change _ = (a₁.run l').relay
  rw [← hl']
  have ha₁ : a₁ = { a with registry := a.registry.settle now } := by
    rw [hl]
    exact run_map_registry a l
  rw [ha₁]
  rfl

end NodeAgent.Agent
