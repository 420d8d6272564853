import NodeAgent.Proofs.Agent.Dispatch

/-!
# The end of a request

A request that leads to a status fails in one of three layers. Routing may fail: then nobody carried
the request out, as far as the agent knows, and the peer's call ends with an `RpcStatus`. The action
may fail, and the response says so. And when the action went well, the status still has to be
written, at one *keeper* after the other, which may fail as well; then the response says that.

So a status is written after an action that went well and after no other, and whatever fails but the
routing is told inside the response (`Ends`). The end is the same for a request that was carried out
here and for one that was sent on, but for the keepers: only the status of the own node is kept by
its services too.

## Main statements

* `ends_conclude`: what is written and answered once the action is done.
* `followsOutcome_run`: all of this for every agent and every request that leads to a status.
-/

namespace NodeAgent

/-- Who keeps the status of a node. -/
inductive Keeper where
  /-- The services of the own node. -/
  | site
  /-- The store of the main node, under the name of the node. -/
  | store (node : NodeId)

/-- A write of a status, and how it went. -/
structure Posting where
  keeper : Keeper
  result : Except ServiceError Unit

namespace Agent

variable {σ : Type} {a : Agent σ} {r : Request} {t : NodeStatus} {n : Nat} {f : Forward}
  {now since : Instant} {mv : Move σ} {moves : List (Move σ)}

/-- Writes a status with one keeper. -/
def post (a : Agent σ) (t : NodeStatus) : Keeper → Except ServiceError Unit × Agent σ
  | .site => ((a.site.setStatus t a.world).1, { a with world := (a.site.setStatus t a.world).2 })
  | .store node =>
    ((a.registry.store.setStatus node t).1,
      { a with registry.store := (a.registry.store.setStatus node t).2 })

/-- The second agent is the first after the writes, which are all that was done. -/
inductive Posts (t : NodeStatus) : Agent σ → List Posting → Agent σ → Prop where
  | nil (a : Agent σ) : Posts t a [] a
  | cons {a b a' : Agent σ} {keeper : Keeper} {result : Except ServiceError Unit}
    {ps : List Posting} : a.post t keeper = (result, b) → Posts t b ps a' →
    Posts t a (⟨keeper, result⟩ :: ps) a'

/-- How a request ends that is to lead to a status: `response` is what came of its action, `ps` is
what is written then and `ended` what the peer is told. -/
structure Ends (a : Agent σ) (r : Request) (t : NodeStatus) (response : Response)
    (ps : List Posting) (ended : Response) (a' : Agent σ) : Prop where
  /-- Nothing but the writes is done. -/
  posts : Posts t a ps a'
  /-- After an action that failed there are none. -/
  failed : response.error ≠ none → ps = []
  /-- For the own node the services come first, and then the store under the node's own name, unless
  the services failed. -/
  here : response.error = none → a.isHere r.node = true → (∃ e, ps = [⟨.site, .error e⟩]) ∨
    ∃ result, ps = [⟨.site, .ok ()⟩, ⟨.store a.nodeId, result⟩]
  /-- For another node it is the store alone, under the name that was given. -/
  elsewhere : response.error = none → a.isHere r.node = false →
    ∃ result, ps = [⟨.store r.node, result⟩]
  /-- The response is told as it is if no write failed, -/
  unchanged : (∀ p ∈ ps, p.result = .ok ()) → ended = response
  /-- and with the failure of the write that failed if one did. -/
  told : ∀ p ∈ ps, ∀ e, p.result = .error e → ended = response.withError e.toInfo

/-! ## Writing a status -/

/-- What setting a status of the own node writes. -/
theorem posts_setStatus_of_here {node : NodeId} (hhere : a.isHere node = true) (t : NodeStatus) :
    (∃ e, (a.setStatus node t).1 = .error e ∧
      Posts t a [⟨.site, .error e⟩] (a.setStatus node t).2) ∨
    Posts t a [⟨.site, .ok ()⟩, ⟨.store a.nodeId, (a.setStatus node t).1⟩]
      (a.setStatus node t).2 := by
  have hname : (if node = "" then a.nodeId else node) = a.nodeId := by
    rcases isHere_iff.mp hhere with rfl | rfl
    · exact if_pos rfl
    · exact ite_id _
  rw [setStatus_of_here hhere, hname]
  cases hset : a.site.setStatus t a.world with
  | mk written world =>
    have hpost : a.post t .site = (written, { a with world }) := by rw [post, hset]
    cases written with
    | error e => exact Or.inl ⟨e, rfl, .cons hpost (.nil _)⟩
    | ok _ => exact Or.inr (.cons hpost (.cons rfl (.nil _)))

/-- What setting a status of another node writes. -/
theorem posts_setStatus_of_elsewhere {node : NodeId} (hnode : a.isHere node = false)
    (t : NodeStatus) :
    Posts t a [⟨.store node, (a.setStatus node t).1⟩] (a.setStatus node t).2 := by
  have hname : (if node = "" then a.nodeId else node) = node := by
    refine if_neg ?_
    rintro rfl
    cases hnode
  have hset : a.setStatus node t = a.post t (.store node) := by
    unfold setStatus
    rw [hnode]
    dsimp only
    rw [hname]
    rfl
  rw [hset]
  exact .cons rfl (.nil _)

/-- Where only the last write can have failed, it is the one whose failure is told. -/
theorem embed_of_last (before : List Posting) (hbefore : ∀ p ∈ before, p.result = .ok ())
    (keeper : Keeper) (result : Except ServiceError Unit) (response : Response) :
    ((∀ p ∈ before ++ [⟨keeper, result⟩], p.result = .ok ()) → response.embed result = response) ∧
      ∀ p ∈ before ++ [⟨keeper, result⟩], ∀ e, p.result = .error e →
        response.embed result = response.withError e.toInfo := by
  constructor
  · intro hall
    have hresult : result = .ok () := hall _ (List.mem_append_right _ (List.mem_singleton_self _))
    rw [hresult]
    rfl
  · intro p hp e he
    rcases List.mem_append.mp hp with hearlier | hlast
    · rw [hbefore p hearlier] at he
      cases he
    · obtain rfl := List.mem_singleton.mp hlast
      have hresult : result = .error e := he
      rw [hresult]
      rfl

/-! ## After the action -/

/-- **What is written and answered once the action is done**, here or elsewhere. -/
theorem ends_conclude (htarget : r.target? = some t) (response : Response) :
    ∃ ps, Ends a r t response ps (a.conclude r response).1 (a.conclude r response).2 := by
  by_cases herror : response.error = none
  · rw [conclude_of_success htarget herror]
    cases hhere : a.isHere r.node with
    | true =>
      rcases posts_setStatus_of_here hhere t with ⟨e, hfailed, hposts⟩ | hposts
      · obtain ⟨hunchanged, htold⟩ := embed_of_last [] nofun .site (.error e) response
        rw [hfailed]
        exact ⟨_, hposts, fun h ↦ absurd herror h, fun _ _ ↦ Or.inl ⟨e, rfl⟩,
          fun _ h ↦ absurd (hhere.symm.trans h) (by decide), hunchanged, htold⟩
      · have hfirst : ∀ p ∈ [(⟨.site, .ok ()⟩ : Posting)], p.result = .ok () :=
          fun p hp ↦ List.mem_singleton.mp hp ▸ rfl
        obtain ⟨hunchanged, htold⟩ := embed_of_last _ hfirst (.store a.nodeId) _ response
        exact ⟨_, hposts, fun h ↦ absurd herror h, fun _ _ ↦ Or.inr ⟨_, rfl⟩,
          fun _ h ↦ absurd (hhere.symm.trans h) (by decide), hunchanged, htold⟩
    | false =>
      obtain ⟨hunchanged, htold⟩ := embed_of_last [] nofun (.store r.node)
        (a.setStatus r.node t).1 response
      exact ⟨_, posts_setStatus_of_elsewhere hhere t, fun h ↦ absurd herror h,
        fun _ h ↦ absurd (hhere.symm.trans h) (by decide), fun _ _ ↦ ⟨_, rfl⟩, hunchanged, htold⟩
  · rw [conclude_of_failure herror]
    exact ⟨[], .nil a, fun _ ↦ rfl, fun h ↦ absurd h herror, fun h ↦ absurd h herror,
      fun _ ↦ rfl, nofun⟩

/-- A request for the own node is answered with its end. -/
theorem ends_carryOut (htarget : r.target? = some t) (subject : Except ServiceError String) :
    ∃ ps, Ends { a with world := (a.site.perform r a.world).2 } r t
      (r.emptyResponse.embed (a.site.perform r a.world).1) ps (a.carryOut r subject).1
      (a.carryOut r subject).2 := by
  obtain ⟨allowed, hallowed⟩ := Site.exists_permitted_of_target htarget
  rw [carryOut, hallowed]
  exact ends_conclude htarget _

/-- A request that leads to a status is not for a key. -/
theorem resolve_of_target (htarget : r.target? = some t) (a : Agent σ) : a.resolve r = .ok r := by
  cases r <;> first | rfl | cases htarget

theorem exists_call_here (hmain : a.isMain = true) (htarget : r.target? = some t)
    (hhere : a.isHere r.node = true) :
    ∃ ps ended b, Ends { a with world := (a.site.perform r a.world).2 } r t
      (r.emptyResponse.embed (a.site.perform r a.world).1) ps ended b ∧
    a.call .protectedSide (.administer r) = (.answered (.ok (.response ended)), b.relay) := by
  obtain ⟨ps, hends⟩ := a.ends_carryOut htarget (.ok r.keySubject)
  refine ⟨ps, _, _, hends, ?_⟩
  rw [call_administer, if_pos hmain, administer_of_here (resolve_of_target htarget a) hhere]

/-! ## Requests that were sent on -/

/-- A call of another sort sends nothing on, and an administering one sends nothing on that is for
the own node. -/
theorem forwards_respond (a : Agent σ) (rpc : Rpc) :
    (a.respond rpc).2.forwards = a.forwards ∨
      ∃ r, a.isHere r.node = false ∧ (a.respond rpc).2.forwards = (a.forward r).forwards := by
  cases rpc with
  | administer r =>
    rw [respond, administer_eq]
    split
    · exact Or.inl rfl
    · next r' _ =>
      cases hnode : a.isHere r'.node with
      | true =>
        left
        exact (Aside.carryOut a r' (.ok r'.keySubject)).forwards.trans (List.append_nil _)
      | false => exact Or.inr ⟨r', hnode, rfl⟩
  | registerInstance inst? permissions =>
    left
    cases inst? with
    | none => rfl
    | some inst =>
      rw [respond]
      split <;> rfl
  | unregisterInstance inst? =>
    left
    cases inst? with
    | none => rfl
    | some inst =>
      rw [respond]
      split <;> rfl
  | apiVersion => exact Or.inl rfl
  | ownInfo => exact Or.inl rfl
  | nodeIds => exact Or.inl rfl
  | nodeInfo node => exact Or.inl rfl
  | findCert certType issuer serial =>
    left
    rw [respond]
    split <;> rfl
  | _ =>
    left
    rw [respond]
    split <;> rfl

theorem isHere_of_new (hn : a.forwards[n]? = none) (hf : (a.step mv).forwards[n]? = some f) :
    a.isHere f.request.node = false := by
  have hnone : ∀ {fs : List Forward}, fs = a.forwards → fs[n]? = some f →
      a.isHere f.request.node = false := by
    rintro _ rfl h
    cases hn.symm.trans h
  have haside : ∀ {a' : Agent σ}, Aside a a' [] → a'.forwards = a.forwards :=
    fun h ↦ h.forwards.trans (List.append_nil _)
  cases mv with
  | call l rpc =>
    change (a.call l rpc).2.forwards[n]? = some f at hf
    unfold Agent.call at hf
    split at hf
    · rcases a.forwards_respond rpc with hsame | ⟨r, hnode, hforward⟩
      · exact hnone hsame hf
      · change (a.respond rpc).2.forwards[n]? = some f at hf
        rw [hforward] at hf
        change (a.forwards ++ [a.newForward r])[n]? = some f at hf
        rw [List.getElem?_append_right (List.getElem?_eq_none_iff.mp hn)] at hf
        obtain rfl := List.mem_singleton.mp (List.mem_of_getElem? hf)
        exact hnode
    · exact hnone rfl hf
  | goOn m now =>
    change (((a.forwards[m]?).map fun g ↦ a.goOn m g now).getD a).forwards[n]? = _ at hf
    cases hg : a.forwards[m]? with
    | none =>
      rw [hg] at hf
      exact hnone rfl hf
    | some g =>
      obtain ⟨u, hu, -⟩ := a.exists_modify_goOn m g now
      rw [hg, Option.map_some, Option.getD_some, hu, List.getElem?_modify, hn] at hf
      cases hf
  | subscribe l topic => exact hnone (haside (.subscribe a l topic)) hf
  | unsubscribe h => exact hnone (haside (.unsubscribe a h)) hf
  | readEvents limit h => exact hnone (haside (.readEvents a limit h)) hf
  | _ => exact hnone rfl hf

/-- **Requests that were sent on are for other nodes.** -/
theorem isHere_forward (hforwards : a.forwards = []) (moves : List (Move σ))
    (hf : (a.run moves).forwards[n]? = some f) :
    (a.run moves).isHere f.request.node = false := by
  induction moves using List.reverseRecOn generalizing f with
  | nil =>
    rw [run_nil, hforwards] at hf
    cases hf
  | append_singleton moves mv ih =>
    rw [run_concat] at hf ⊢
    refine isHere_step ?_ mv
    cases hf₀ : (a.run moves).forwards[n]? with
    | none => exact isHere_of_new hf₀ hf
    | some f₀ =>
      obtain ⟨f', hf', heffect⟩ := forward_step hf₀ mv
      obtain rfl := Option.some.inj (hf.symm.trans hf')
      rw [heffect.request]
      exact ih hf₀

/-! ## When the peer is told -/

/-- A request that has not ended, or whose peer was told, writes nothing when it goes on. -/
theorem unwritten_goOn
    (h : f.outcome ≠ none ∨ ∀ result since, f.retry.phase ≠ .finished result since) (a : Agent σ)
    (n : Nat) (now : Instant) :
    (a.goOn n f now).world = a.world ∧ (a.goOn n f now).registry.store = a.registry.store := by
  unfold goOn
  split
  · exact ⟨rfl, rfl⟩
  · unfold stepForward
    split
    · exact ⟨rfl, rfl⟩
    · split
      · unfold attempt
        split <;> exact ⟨rfl, rfl⟩
      · split <;> exact ⟨rfl, rfl⟩
    · exact ⟨rfl, rfl⟩
    · next result since hphase =>
      split
      · exact ⟨rfl, rfl⟩
      · next hnone =>
        rcases h with houtcome | hrunning
        · exact absurd (Option.isSome_iff_ne_none.mpr houtcome) hnone
        · exact absurd hphase (hrunning result since)

/-- What a request does that has ended: its peer is told. -/
theorem goOn_of_finished {result : Except StreamError Response} (houtcome : f.outcome = none)
    (hphase : f.retry.phase = .finished result since) (a : Agent σ) (n : Nat) (now : Instant) :
    a.goOn n f now = a.answerForward n f result := by
  simp [goOn, stepForward, hphase, houtcome]

/-- The peer of a request for `r` was told `o` when the request went on after it had ended, and it
had been told nothing before. -/
def WasTold (a : Agent σ) (moves : List (Move σ)) (n : Nat) (r : Request)
    (o : Except RpcStatus Response) : Prop :=
  ∃ before now after f result since, moves = before ++ .goOn n now :: after ∧
    (a.run before).forwards[n]? = some f ∧ f.request = r ∧ f.outcome = none ∧
    f.retry.phase = .finished result since ∧ o = (a.run before).told f result

theorem WasTold.concat {o : Except RpcStatus Response} (h : a.WasTold moves n r o) (mv : Move σ) :
    a.WasTold (moves ++ [mv]) n r o := by
  obtain ⟨before, now, after, f, result, since, rfl, h⟩ := h
  exact ⟨before, now, after ++ [mv], f, result, since, by simp, h⟩

/-- **What a peer was told it was told in that way.** -/
theorem wasTold_run (hforwards : a.forwards = []) (moves : List (Move σ))
    (hf : (a.run moves).forwards[n]? = some f) {o : Except RpcStatus Response}
    (ho : f.outcome = some o) : a.WasTold moves n f.request o := by
  induction moves using List.reverseRecOn generalizing f with
  | nil =>
    rw [run_nil, hforwards] at hf
    cases hf
  | append_singleton moves mv ih =>
    rw [run_concat] at hf
    cases hf₀ : (a.run moves).forwards[n]? with
    | none =>
      rw [(forward_new hf₀ hf).2.2] at ho
      cases ho
    | some f₀ =>
      have hrequest : f.request = f₀.request := by
        obtain ⟨f', hf', heffect⟩ := forward_step hf₀ mv
        rw [Option.some.inj (hf.symm.trans hf'), heffect.request]
      have hearlier (hsame : f.outcome = f₀.outcome) : a.WasTold (moves ++ [mv]) n f.request o :=
        hrequest ▸ (ih hf₀ (hsame ▸ ho)).concat mv
      by_cases hgoOn : ∃ now, mv = .goOn n now
      · obtain ⟨now, rfl⟩ := hgoOn
        have hturned := Option.some.inj (hf.symm.trans (forward_goOn hf₀ now))
        by_cases hfinished : ∃ result since, f₀.retry.phase = .finished result since
        · obtain ⟨result, since, hphase⟩ := hfinished
          rw [turned_of_finished hphase] at hturned
          split at hturned
          · exact hearlier (congrArg Forward.outcome hturned)
          · next hnone =>
            have hnone : f₀.outcome = none := by simpa using hnone
            have htold : o = (a.run moves).told f₀ result := by
              rw [hturned] at ho
              exact (Option.some.inj ho).symm
            exact ⟨moves, now, [], f₀, result, since, rfl, hf₀, hrequest.symm, hnone, hphase, htold⟩
        · have hrunning := outcome_turned (a := a.run moves)
            (fun result since hphase ↦ hfinished ⟨result, since, hphase⟩)
          exact hearlier (hturned ▸ hrunning _ now)
      · have hsame := forward_of_ne hf₀ fun now hmv ↦ hgoOn ⟨now, hmv⟩
        exact hearlier (congrArg Forward.outcome (Option.some.inj (hf.symm.trans hsame)))

/-! ## What routing fails with -/

theorem ne_service_of_response? {c : Call} {e : StreamError}
    (hfailed : ∀ e, c.stage = .leaving e ∨ c.stage = .returned (.error e) → e.ofCall = true)
    (h : c.response? = some (.error e)) (failure : ServiceError) : e ≠ .service failure := by
  rintro rfl
  obtain ⟨q, hq, hqe⟩ := Option.map_eq_some_iff.mp h
  cases q with
  | error e =>
    obtain rfl : e = .service failure := Except.error.inj hqe
    cases hfailed _ (Or.inr (Call.result?_eq_some.mp hq))
  | ok m =>
    have hm : m.expect c.request.kind = .error (.service failure) := hqe
    unfold NodeMessage.expect at hm
    split at hm
    · cases hm
    · split at hm <;> cases hm

/-- **No failure of a service ends a request that was sent on**: it would be in the response. -/
theorem ne_service_of_finished {calls : Nat → List (Nat × Nat)} (ha : Steady a calls)
    (hf : a.forwards[n]? = some f) {e : StreamError}
    (hphase : f.retry.phase = .finished (.error e) since) (failure : ServiceError) :
    e ≠ .service failure := by
  have hstands := ha.stands n f hf
  generalize calls n = made at hstands
  cases hstands with
  | uncalled _ hfinished =>
    rcases hfinished _ _ hphase with he | he <;> rw [Except.error.inj he] <;> exact nofun
  | calling _ _ _ hattempting =>
    rw [hphase] at hattempting
    cases hattempting
  | returned hc _ _ hfinished hr =>
    rw [hphase, RetryPhase.finished.injEq] at hfinished
    obtain ⟨rfl, -⟩ := hfinished
    obtain ⟨s, hs, hcs⟩ := Registry.stream?_of_call? hc
    exact ne_service_of_response? (fun e ↦ (ha.consistent _ s hs).failed _ _ e hcs) hr failure

/-! ## Every request -/

/-- How an agent ends the requests that lead to a status. -/
structure EndsAll (a : Agent σ) : Prop where
  /-- A request for the own node is answered with its end, and never with a failure of the call. -/
  here : a.isMain = true → ∀ r t, r.target? = some t → r.node = "" ∨ r.node = a.nodeId →
    ∃ ps ended b, Ends { a with world := (a.site.perform r a.world).2 } r t
      (r.emptyResponse.embed (a.site.perform r a.world).1) ps ended b ∧
    a.call .protectedSide (.administer r) = (.answered (.ok (.response ended)), b.relay)
  /-- A request for another node is sent on, and nothing is written. -/
  elsewhere : a.isMain = true → ∀ r t, r.target? = some t → r.node ≠ "" → r.node ≠ a.nodeId →
    a.call .protectedSide (.administer r) = (.forwarded a.forwards.length, (a.forward r).relay)
  /-- Only such requests are sent on. -/
  remote : ∀ (n : Nat) f, a.forwards[n]? = some f → f.request.node ≠ "" ∧ f.request.node ≠ a.nodeId
  /-- Nothing is written while a request that was sent on is on its way, nor once its peer was
  told. -/
  unwritten : ∀ (n : Nat) f now, a.forwards[n]? = some f →
    f.outcome ≠ none ∨ (∀ result since, f.retry.phase ≠ .finished result since) →
    (a.step (.goOn n now)).world = a.world ∧
      (a.step (.goOn n now)).registry.store = a.registry.store
  /-- If it was not routed the peer's call ends with the status of that failure, and nothing is
  written. The failure is never one of a service. -/
  unrouted : ∀ (n : Nat) f e since now, a.forwards[n]? = some f → f.outcome = none →
    f.retry.phase = .finished (.error e) since →
    (∀ failure, e ≠ .service failure) ∧
    a.step (.goOn n now) = a.updateForward n fun f ↦ { f with outcome := some (.error e.toStatus) }
  /-- If it was, the peer is told its end. -/
  routed : ∀ (n : Nat) f t response since now, a.forwards[n]? = some f → f.outcome = none →
    f.retry.phase = .finished (.ok response) since → f.request.target? = some t →
    ∃ ps ended b, Ends a f.request t response ps ended b ∧
      a.step (.goOn n now) = b.updateForward n fun f ↦ { f with outcome := some (.ok ended) }

/-- An agent ended the requests of a run that lead to a status like that. -/
structure FollowsOutcome (a : Agent σ) (moves : List (Move σ)) : Prop
    extends EndsAll (a.run moves) where
  /-- Whatever a peer was told it was told when its request had ended, and only once. -/
  told : ∀ (n : Nat) f o, (a.run moves).forwards[n]? = some f → f.outcome = some o →
    a.WasTold moves n f.request o
  /-- Whose call ended with a status was told of a failure of routing. -/
  routing : ∀ (n : Nat) f s, (a.run moves).forwards[n]? = some f → f.outcome = some (.error s) →
    ∃ e : StreamError, s = e.toStatus ∧ ∀ failure, e ≠ .service failure

theorem step_goOn_of_forward (hf : a.forwards[n]? = some f) (now : Instant) :
    a.step (.goOn n now) = a.goOn n f now := by
  change ((a.forwards[n]?).map fun f ↦ a.goOn n f now).getD a = _
  rw [hf]
  rfl

theorem endsAll {calls : Nat → List (Nat × Nat)} (ha : Steady a calls)
    (hremote : ∀ (n : Nat) f, a.forwards[n]? = some f → a.isHere f.request.node = false) :
    a.EndsAll where
  here := by
    intro hmain r t htarget hname
    exact exists_call_here hmain htarget (isHere_iff.mpr hname)
  elsewhere := by
    intro hmain r t htarget hne hown
    have hhere : a.isHere r.node = false := by
      rw [Bool.eq_false_iff, ne_eq, isHere_iff]
      exact fun hname ↦ hname.elim hne hown
    rw [call_administer, if_pos hmain, administer_of_elsewhere (resolve_of_target htarget a) hhere]
  remote := by
    intro n f hf
    rw [← not_or, ← isHere_iff, hremote n f hf]
    exact Bool.false_ne_true
  unwritten := by
    intro n f now hf h
    rw [step_goOn_of_forward hf]
    exact unwritten_goOn h a n now
  unrouted := by
    intro n f e since now hf houtcome hphase
    refine ⟨ne_service_of_finished ha hf hphase, ?_⟩
    rw [step_goOn_of_forward hf, goOn_of_finished houtcome hphase]
    rfl
  routed := by
    intro n f t response since now hf houtcome hphase htarget
    obtain ⟨ps, hends⟩ := a.ends_conclude htarget response
    refine ⟨ps, _, _, hends, ?_⟩
    rw [step_goOn_of_forward hf, goOn_of_finished houtcome hphase]
    rfl

/-- **A status follows the outcome of the action that leads to it**, in every run. -/
theorem followsOutcome_run {site : Site σ} {config : AgentConfig} {names : NameSupply}
    {timeout : Duration} {store : NodeStore} {permissions : Option PermissionRegistry} {w : σ}
    (h : Agent.new site config names { firstFrameTimeout := timeout, store } permissions w = .ok a)
    (moves : List (Move σ)) : a.FollowsOutcome moves := by
  obtain ⟨-, hforwards, hregistrations, hlinks⟩ := fields_of_new h
  have hsteady := fun moves ↦ (Steady.of_empty hregistrations hlinks hforwards).run moves
  refine ⟨endsAll (hsteady moves) fun n f hf ↦ isHere_forward hforwards moves hf,
    fun n f o hf ho ↦ wasTold_run hforwards moves hf ho, fun n f s hf hs ↦ ?_⟩
  obtain ⟨before, now, after, f₀, result, since, -, hf₀, -, -, hphase, htold⟩ :=
    wasTold_run hforwards moves hf hs
  cases result with
  | ok response => cases htold
  | error e =>
    exact ⟨e, Except.error.inj htold, ne_service_of_finished (hsteady before) hf₀ hphase⟩

/-- A node that nobody knows is to pause, and one attempt is all there is. -/
def strayed : List (Move Rehearsal) :=
  .call .protectedSide (.administer (.pauseNode "absent")) :: List.replicate 3 (.goOn 0 0)

/-- That the node is not there ends the call, and the own node can still be paused. -/
theorem followsOutcome_strayed :
    ∃ a, Agent.new (Rehearsal.site false) { retry := ⟨1, .ofSeconds 10⟩ } tallies
        { firstFrameTimeout := .ofSeconds 30, store := {} } none mainWorld = .ok a ∧
      a.FollowsOutcome strayed ∧
      (a.run strayed).forwards.map (·.outcome.isSome) = [true] ∧
      a.WasTold strayed 0 (.pauseNode "absent") (.error StreamError.streamNotFound.toStatus) ∧
      ((a.run strayed).call .protectedSide (.administer (.pauseNode "main"))).2.world.node.status =
        .paused := by
  have hrun : ∃ a, Agent.new (Rehearsal.site false) { retry := ⟨1, .ofSeconds 10⟩ } tallies
      { firstFrameTimeout := .ofSeconds 30, store := {} } none mainWorld = .ok a ∧
      (a.run strayed).forwards.map (·.outcome.isSome) = [true] ∧
      (∃ f, (a.run strayed).forwards[0]? = some f ∧ f.request = .pauseNode "absent" ∧
        f.outcome = some (.error StreamError.streamNotFound.toStatus)) ∧
      ((a.run strayed).call .protectedSide (.administer (.pauseNode "main"))).2.world.node.status =
        .paused := ⟨_, rfl, rfl, ⟨_, rfl, rfl, rfl⟩, rfl⟩
  obtain ⟨a, hnew, htold, ⟨f, hf, hrequest, houtcome⟩, hpaused⟩ := hrun
  have hfollows := followsOutcome_run hnew strayed
  exact ⟨a, hnew, hfollows, htold, hrequest ▸ hfollows.told 0 f _ hf houtcome, hpaused⟩

end Agent

end NodeAgent
