import NodeAgent.Proofs.Agent.Epochs
import NodeAgent.Proofs.Agent.Lifecycle
import NodeAgent.Proofs.Agent.Recording
import NodeAgent.Proofs.Node.Serving
import NodeAgent.Proofs.Registry.Lasting

/-!
# Here or elsewhere

A request that administers a node is carried out by the agent that was asked, or it is sent on, and
never both. What decides is the name in the request alone: no name and the agent's own name mean the
agent's own node, even if a stream registered under that name, and every other name means the stream
that is registered for it at the time of an attempt. Before that, and for all nodes alike, a request
for a key gets its subject (`resolve`).

To say that the node's own services are not asked for anything, the agent is given the log of its
site (`logged`): what a move asks of them is what the log says after it (`deeds`).

## Main statements

* `administer_of_unresolved`, `administer_of_here`, `administer_of_elsewhere`: the three ways.
* `carryOut_logged`: a request that is carried out asks the own services for what it says.
* `goesTo`: a request for another node leaves them alone for good, and its calls are made on the
  stream that is registered for its node.
* `dispatches_run`: all of this for every agent and every request.
-/

namespace NodeAgent

/-- The subject that a request names, if it is for a key. -/
def Request.keySubject : Request → String
  | .createKey _ subject _ _ => subject
  | _ => ""

namespace Agent

variable {σ : Type} {a a' : Agent σ} {r r' : Request} {n : Nat} {f f' : Forward}
  {moves : List (Move σ)}

/-! ## The three ways -/

theorem isHere_iff {node : NodeId} : a.isHere node = true ↔ node = "" ∨ node = a.nodeId := by
  rw [isHere, Bool.or_eq_true, beq_iff_eq, beq_iff_eq]

/-- The request with the subject of its key settled, if it asks for one. -/
def resolve (a : Agent σ) : Request → Except ServiceError Request
  | .createKey node subject certType password =>
    (a.subjectOf subject).map fun subject ↦ .createKey node subject certType password
  | r => .ok r

theorem resolve_createKey (a : Agent σ) (node : NodeId) (subject certType password : String) :
    a.resolve (.createKey node subject certType password) =
      (a.subjectOf subject).map fun subject ↦ .createKey node subject certType password := rfl

/-- The subject settled is all that is different. -/
theorem node_resolve (h : a.resolve r = .ok r') : r'.node = r.node ∧ r'.kind = r.kind := by
  cases r with
  | createKey node subject certType password =>
    rw [resolve_createKey] at h
    cases hsubject : a.subjectOf subject with
    | error e =>
      rw [hsubject] at h
      cases h
    | ok subject' =>
      rw [hsubject] at h
      rw [← Except.ok.inj h]
      exact ⟨rfl, rfl⟩
  | _ => rw [← Except.ok.inj h]; exact ⟨rfl, rfl⟩

/-- Only a request for a key that names no subject can be left without one. -/
theorem exists_of_unresolved {e : ServiceError} (h : a.resolve r = .error e) :
    ∃ node certType password, r = .createKey node "" certType password := by
  cases r with
  | createKey node subject certType password =>
    by_cases hsubject : subject = ""
    · exact ⟨node, certType, password, hsubject ▸ rfl⟩
    · rw [resolve_createKey, subjectOf, if_pos hsubject] at h
      cases h
  | _ => cases h

/-- **Here or elsewhere**: what is done with a request, once its subject is settled. -/
theorem administer_eq (a : Agent σ) (r : Request) :
    a.administer r =
      match a.resolve r with
      | .error e => (.answered (.ok (.response (r.emptyResponse.withError e.toInfo))), a)
      | .ok r' =>
        if a.isHere r'.node then
          (.answered (.ok (.response (a.carryOut r' (.ok r'.keySubject)).1)),
            (a.carryOut r' (.ok r'.keySubject)).2)
        else (.forwarded a.forwards.length, a.forward r') := by
  cases r with
  | createKey node subject certType password =>
    rw [resolve_createKey]
    unfold administer
    dsimp only
    cases a.subjectOf subject <;> rfl
  | _ => rfl

/-- Without a subject for its key a request is answered with that, and that is all. -/
theorem administer_of_unresolved {e : ServiceError} (h : a.resolve r = .error e) :
    a.administer r = (.answered (.ok (.response (r.emptyResponse.withError e.toInfo))), a) := by
  rw [administer_eq, h]

/-- A request for the own node is carried out. -/
theorem administer_of_here (h : a.resolve r = .ok r') (hhere : a.isHere r.node = true) :
    a.administer r =
      (.answered (.ok (.response (a.carryOut r' (.ok r'.keySubject)).1)),
        (a.carryOut r' (.ok r'.keySubject)).2) := by
  rw [administer_eq, h]
  dsimp only
  rw [(node_resolve h).1, if_pos hhere]

/-- A request for another node is sent on. -/
theorem administer_of_elsewhere (h : a.resolve r = .ok r') (hhere : a.isHere r.node = false) :
    a.administer r = (.forwarded a.forwards.length, a.forward r') := by
  rw [administer_eq, h]
  dsimp only
  rw [(node_resolve h).1, hhere]
  rfl

theorem offers_administer (a : Agent σ) (r : Request) :
    a.offers .protectedSide (Rpc.administer r).service = a.isMain := by
  cases r <;> exact Bool.true_and _

/-- What changed is handed on after a request, if requests are offered at all. -/
theorem call_administer (a : Agent σ) (r : Request) :
    a.call .protectedSide (.administer r) =
      if a.isMain then ((a.administer r).1, (a.administer r).2.relay)
      else (.answered (.error .unregistered), a) := by
  unfold call
  rw [offers_administer]
  rfl

theorem kind_conclude (a : Agent σ) (r : Request) (response : Response) :
    (a.conclude r response).1.kind = response.kind := by
  obtain ⟨recorded, h⟩ := a.conclude_eq_embed r response
  rw [h, Response.kind_embed]

theorem kind_carryOut (a : Agent σ) (r : Request) (subject : Except ServiceError String) :
    (a.carryOut r subject).1.kind = r.kind := by
  unfold carryOut
  split
  · exact Site.kind_provide subject r a.world
  · refine (kind_conclude _ r _).trans ?_
    rw [Response.kind_embed, Request.kind_emptyResponse]

/-! ## The own services -/

/-- The agent with a log of what its site is asked to do from now on. -/
def logged (a : Agent σ) : Agent (σ × List Deed) :=
  { site := a.site.logged, config := a.config, names := a.names, nodeId := a.nodeId
    isMain := a.isMain, world := (a.world, []), registry := a.registry
    permissions := a.permissions, epoch := a.epoch, closed := a.closed, nodeFeed := a.nodeFeed
    subjectsFeed := a.subjectsFeed, certFeeds := a.certFeeds, forwards := a.forwards
    named := a.named }

/-- What the site is asked to do in a move. -/
def deeds (a : Agent σ) (mv : Move (σ × List Deed)) : List Deed := (a.logged.step mv).world.2

theorem subjectOf_logged (a : Agent σ) (subject : String) :
    a.logged.subjectOf subject = a.subjectOf subject := by
  have hidentity : a.logged.site.identity = a.site.identity.map fun i ↦
      { systemId := fun w ↦ i.systemId w.1
        unitModel := fun w ↦ i.unitModel w.1
        subjects := fun w ↦ i.subjects w.1 } := rfl
  unfold subjectOf
  rw [hidentity]
  cases a.site.identity <;> rfl

theorem resolve_logged (a : Agent σ) (r : Request) : a.logged.resolve r = a.resolve r := by
  cases r with
  | createKey => rw [resolve_createKey, resolve_createKey, subjectOf_logged]
  | _ => rfl

/-- Handing on what changed asks the site for nothing. -/
theorem log_relay {x : Agent (σ × List Deed)} {site : Site σ} (h : x.site = site.logged) :
    x.relay.world.2 = x.world.2 := by
  have hworld : ∃ index, x.relay.world = x.site.putCerts index x.world := ⟨_, rfl⟩
  obtain ⟨index, hworld⟩ := hworld
  rw [hworld, h]
  rfl

/-- The status of the own node is set with the site first, and then in the store. -/
theorem setStatus_of_here {node : NodeId} (hhere : a.isHere node = true) (t : NodeStatus) :
    a.setStatus node t =
      match a.site.setStatus t a.world with
      | (.error e, world) => (.error e, { a with world })
      | (.ok (), world) =>
        ((a.registry.store.setStatus (if node = "" then a.nodeId else node) t).1,
          { a with
            world
            registry.store :=
              (a.registry.store.setStatus (if node = "" then a.nodeId else node) t).2 }) := by
  unfold setStatus
  rw [if_pos hhere]
  rcases a.site.setStatus t a.world with ⟨_ | _, _⟩ <;> rfl

/-- With a log the status of the own node is set with the same result. -/
theorem setStatus_logged (a : Agent σ) {node : NodeId} (hhere : a.isHere node = true)
    (t : NodeStatus) (w : σ) (log : List Deed) :
    (setStatus { a.logged with world := (w, log) } node t).1 =
        (setStatus { a with world := w } node t).1 ∧
      (setStatus { a.logged with world := (w, log) } node t).2.world.2 =
        log ++ [.write t (a.site.setStatus t w).1.isOk] := by
  have hset : a.logged.site.setStatus t (w, log) = ((a.site.setStatus t w).1,
      (a.site.setStatus t w).2, log ++ [.write t (a.site.setStatus t w).1.isOk]) := rfl
  rw [setStatus_of_here (a := { a.logged with world := (w, log) }) hhere,
    setStatus_of_here (a := { a with world := w }) hhere]
  dsimp only
  rw [hset]
  rcases a.site.setStatus t w with ⟨_ | _, _⟩ <;> exact ⟨rfl, rfl⟩

/-- With a log a request is concluded as without, and only a status is set after its action. -/
theorem conclude_logged (a : Agent σ) (hhere : a.isHere r.node = true)
    (result : Except ServiceError Unit) (w : σ) :
    let response := r.emptyResponse.embed result
    (conclude { a.logged with world := (w, r.deeds result.isOk) } r response).1 =
        (conclude { a with world := w } r response).1 ∧
      r.Does (conclude { a.logged with world := (w, r.deeds result.isOk) } r
        response).2.world.2 := by
  intro response
  cases result with
  | error e =>
    have herror : response.error ≠ none := by
      change (r.emptyResponse.withError e.toInfo).error ≠ none
      rw [Response.error_withError]
      exact Option.some_ne_none _
    rw [conclude_of_failure herror, conclude_of_failure herror]
    exact ⟨rfl, .failed⟩
  | ok _ =>
    cases htarget : r.target? with
    | none =>
      rw [conclude_of_no_target htarget, conclude_of_no_target htarget]
      exact ⟨rfl, .done htarget⟩
    | some t =>
      have hempty : response.error = none := by cases r <;> rfl
      obtain ⟨hanswer, hdeeds⟩ := a.setStatus_logged hhere t w (r.deeds true)
      rw [conclude_of_success htarget hempty, conclude_of_success htarget hempty]
      exact ⟨congrArg (Response.embed · response) hanswer,
        (congrArg r.Does hdeeds).mpr (.wrote _ htarget)⟩

/-- **A request for the own node asks its services for what it says**, and the log changes nothing
about the response. -/
theorem carryOut_logged (a : Agent σ) (hhere : a.isHere r.node = true) (subject : String) :
    (a.logged.carryOut r (.ok subject)).1 = (a.carryOut r (.ok subject)).1 ∧
      r.Does (a.logged.carryOut r (.ok subject)).2.world.2 := by
  unfold carryOut
  cases hallowed : r.permitted? with
  | none =>
    obtain ⟨ds, hprovide, hds⟩ := a.site.exists_provide_logged (.ok subject) r a.world
    have hlogged : a.logged.site.provide (.ok subject) r a.logged.world =
        ((a.site.provide (.ok subject) r a.world).1,
          (a.site.provide (.ok subject) r a.world).2, ds) := hprovide []
    dsimp only
    rw [hlogged]
    refine ⟨rfl, ?_⟩
    rcases hds with ⟨succeeded, rfl⟩ | ⟨-, ⟨e, he⟩ | hsome⟩
    · exact .of_unpermitted hallowed succeeded
    · cases he
    · exact absurd hallowed hsome
  | some allowed =>
    have hlogged : a.logged.site.perform r a.logged.world = ((a.site.perform r a.world).1,
        (a.site.perform r a.world).2, r.deeds (a.site.perform r a.world).1.isOk) :=
      a.site.perform_logged hallowed a.world []
    dsimp only
    rw [hlogged]
    exact a.conclude_logged hhere _ _

/-- What the site is asked to do for a request is what it is asked to do before the agent hands on
what changed. -/
theorem deeds_administer (hmain : a.isMain = true) (r : Request) :
    a.deeds (.call .protectedSide (.administer r)) = (a.logged.administer r).2.world.2 := by
  have hmain' : a.logged.isMain = true := hmain
  change (a.logged.call .protectedSide (.administer r)).2.world.2 = _
  rw [call_administer, if_pos hmain']
  exact log_relay (Accepts.administer a.logged r).1.site

theorem deeds_of_unresolved {e : ServiceError} (hmain : a.isMain = true)
    (h : a.resolve r = .error e) : a.deeds (.call .protectedSide (.administer r)) = [] := by
  rw [deeds_administer hmain, administer_of_unresolved ((resolve_logged a r).trans h)]
  rfl

theorem deeds_of_here (hmain : a.isMain = true) (h : a.resolve r = .ok r')
    (hhere : a.isHere r.node = true) :
    r'.Does (a.deeds (.call .protectedSide (.administer r))) := by
  rw [deeds_administer hmain, administer_of_here ((resolve_logged a r).trans h) hhere]
  exact (a.carryOut_logged ((congrArg a.isHere (node_resolve h).1).trans hhere) _).2

theorem deeds_of_elsewhere (hmain : a.isMain = true) (h : a.resolve r = .ok r')
    (hhere : a.isHere r.node = false) : a.deeds (.call .protectedSide (.administer r)) = [] := by
  rw [deeds_administer hmain, administer_of_elsewhere ((resolve_logged a r).trans h) hhere]
  rfl

/-- Whether a status can be set does not depend on who is registered. -/
theorem setStatus_registry (a : Agent σ) {registry : Registry}
    (hstore : registry.store = a.registry.store) (node : NodeId) (t : NodeStatus) :
    (setStatus { a with registry } node t).1 = (a.setStatus node t).1 := by
  have hhere : isHere { a with registry } node = a.isHere node := rfl
  unfold setStatus
  dsimp only
  rw [hhere, hstore]
  split <;> rfl

/-- What is answered for the own node does not depend on who is registered. -/
theorem carryOut_registry (a : Agent σ) (r : Request) (subject : Except ServiceError String)
    {registry : Registry} (hstore : registry.store = a.registry.store) :
    (carryOut { a with registry } r subject).1 = (a.carryOut r subject).1 := by
  unfold carryOut
  split
  · rfl
  · dsimp only
    generalize a.site.perform r a.world = performed
    have hset := fun t ↦ setStatus_registry { a with world := performed.2 } hstore r.node t
    unfold conclude
    split
    · rfl
    · split
      · rfl
      · exact congrArg (Response.embed · _) (hset _)

/-! ## Somewhere else -/

/-- An agent does not change the node it is of. -/
theorem isHere_step {node : NodeId} (hnode : a.isHere node = false) (mv : Move σ) :
    (a.step mv).isHere node = false := by
  suffices hsame : (a.step mv).nodeId = a.nodeId by rwa [isHere, hsame]
  cases mv with
  | goOn n now =>
    change (((a.forwards[n]?).map fun f ↦ a.goOn n f now).getD a).nodeId = _
    cases hf : a.forwards[n]? with
    | none => rfl
    | some f => exact (status?_goOn hnode hf now).1
  | call l rpc => exact (Spares.call hnode l rpc).nodeId
  | subscribe l topic => exact (Spares.subscribe a l topic node).nodeId
  | unsubscribe h => exact (Spares.unsubscribe a h node).nodeId
  | readEvents limit h => exact (Spares.readEvents a limit h node).nodeId
  | _ => rfl

theorem isHere_run {node : NodeId} (hnode : a.isHere node = false) (moves : List (Move σ)) :
    (a.run moves).isHere node = false := by
  induction moves using List.reverseRecOn with
  | nil => exact hnode
  | append_singleton moves mv ih =>
    rw [run_concat]
    exact isHere_step ih mv

/-- What a request asks for stays the same for good. -/
theorem request_run (hf : a.forwards[n]? = some f) (moves : List (Move σ)) :
    ∃ f', (a.run moves).forwards[n]? = some f' ∧ f'.request = f.request := by
  induction moves using List.reverseRecOn with
  | nil => exact ⟨f, hf, rfl⟩
  | append_singleton moves mv ih =>
    obtain ⟨f', hf', h⟩ := ih
    obtain ⟨f'', hf'', heff⟩ := forward_step hf' mv
    rw [run_concat]
    exact ⟨f'', hf'', heff.request.trans h⟩

/-- **A request for another node leaves the own services alone**, whatever it does when it goes
on. -/
theorem world_goOn (hnode : a.isHere f.request.node = false) (n : Nat) (now : Instant) :
    (a.goOn n f now).world = a.world := by
  have hset : ∀ t, (a.setStatus f.request.node t).2.world = a.world := by
    intro t
    unfold setStatus
    rw [hnode]
    rfl
  have hconclude : ∀ response, (a.conclude f.request response).2.world = a.world := by
    intro response
    unfold conclude
    split
    · rfl
    · split
      · rfl
      · exact hset _
  unfold goOn
  split
  · rfl
  · unfold stepForward attempt answerForward
    split
    · rfl
    · split
      · split <;> rfl
      · split <;> rfl
    · rfl
    · split
      · rfl
      · split
        · rfl
        · exact hconclude _

theorem deeds_goOn (hf : a.forwards[n]? = some f) (hnode : a.isHere f.request.node = false)
    (now : Instant) : a.deeds (.goOn n now) = [] := by
  change (((a.forwards[n]?).map fun f ↦ a.logged.goOn n f now).getD a.logged).world.2 = []
  rw [hf, Option.map_some, Option.getD_some, world_goOn (a := a.logged) hnode]
  rfl

/-! ## On which stream -/

/-- A call is made on the stream that is registered for the node of the request. -/
theorem find?_of_mem_newCall {p : Nat × Nat} {mv : Move σ} (h : p ∈ a.newCall (a.step mv) n) :
    ∃ f, a.forwards[n]? = some f ∧ a.registry.find? f.request.node = some p.1 := by
  have hnone : ∀ {l : List (Nat × Nat)}, l = [] → p ∉ l := fun hl ↦ hl ▸ List.not_mem_nil
  cases hf : a.forwards[n]? with
  | none =>
    -- a request that is new has no call
    refine absurd h (hnone (newCall_of_eq ?_))
    rw [calling_of_none hf]
    cases hf' : (a.step mv).forwards[n]? with
    | none => exact calling_of_none hf'
    | some f' => exact (calling_of_forward hf').trans (forward_new hf hf').1
  | some f =>
    obtain ⟨f', hf', heff⟩ := forward_step hf mv
    cases heff with
    | none =>
      have hsame := (calling_of_forward hf').trans (calling_of_forward hf).symm
      exact absurd h (hnone (newCall_of_eq hsame))
    | change hchange => exact absurd h (hnone (newCall_of_change hf hf' hchange))
    | call _ hcall hg _ =>
      rw [newCall_of_call hf hcall hf', List.mem_singleton] at h
      exact ⟨f, rfl, h ▸ hg⟩

/-- **The calls of a request are made on the stream that is registered for its node** at the
time. -/
theorem find?_of_mem_callsOf {p : Nat × Nat} (h : p ∈ a.callsOf n moves) :
    ∃ before mv after f, moves = before ++ mv :: after ∧ (a.run before).forwards[n]? = some f ∧
      (a.run before).registry.find? f.request.node = some p.1 := by
  induction moves generalizing a with
  | nil => cases h
  | cons mv moves ih =>
    rcases List.mem_append.mp h with hnew | hlater
    · obtain ⟨f, hf, hg⟩ := find?_of_mem_newCall hnew
      exact ⟨[], mv, moves, f, rfl, hf, hg⟩
    · obtain ⟨before, mv', after, f, rfl, hf, hg⟩ := ih hlater
      exact ⟨mv :: before, mv', after, f, rfl, hf, hg⟩

/-- A run of an agent keeps its registry regular. -/
theorem exists_regular_run (hregistrations : a.registry.registrations = [])
    (hlinks : a.registry.links = {}) (moves : List (Move σ)) :
    ∃ reports, (a.run moves).registry.Regular reports := by
  induction moves using List.reverseRecOn with
  | nil => exact ⟨[], .of_empty hregistrations hlinks⟩
  | append_singleton moves mv ih =>
    obtain ⟨reports, hregular⟩ := ih
    obtain ⟨m, hm, -⟩ := (a.run moves).exists_registry_step mv
    rw [run_concat, hm]
    exact ⟨_, hregular.step m⟩

/-! ## Every request -/

/-- The request of a number is on its way to another node, and what that takes. -/
structure GoesTo (a : Agent σ) (n : Nat) (r : Request) (moves : List (Move σ)) : Prop where
  /-- It asks for the same thing throughout. -/
  request : ∃ f, (a.run moves).forwards[n]? = some f ∧ f.request = r
  /-- The own services are asked for nothing when it goes on. -/
  idle : ∀ now, (a.run moves).deeds (.goOn n now) = []
  /-- Its calls are made on the open stream that is registered for its node at the time, -/
  linked : ∀ p ∈ a.callsOf n moves, ∃ before mv after s, moves = before ++ mv :: after ∧
    (a.run before).registry.find? r.node = some p.1 ∧
    (a.run before).registry.stream? p.1 = some s ∧ s.node = r.node ∧ s.closed = false
  /-- and what they send is the request. -/
  carried : ∀ p ∈ a.callsOf n moves, ∃ c, (a.run moves).registry.call? p = some c ∧
    c.frame = ⟨c.id, some r⟩

/-- What an agent does when it is asked to administer a node. -/
structure Dispatches (a : Agent σ) (r : Request) : Prop where
  /-- Nodes are administered by the main node only. -/
  unoffered : a.isMain = false →
    a.call .protectedSide (.administer r) = (.answered (.error .unregistered), a)
  /-- A request for a key that names no subject, where there is none to be found, is answered with
  that and nothing is done, wherever it was to go. -/
  unresolved : a.isMain = true → ∀ e, a.resolve r = .error e →
    (∃ node certType password, r = .createKey node "" certType password) ∧
    a.call .protectedSide (.administer r) =
      (.answered (.ok (.response (r.emptyResponse.withError e.toInfo))), a.relay) ∧
    a.deeds (.call .protectedSide (.administer r)) = []
  /-- A request without a name or with the agent's own is carried out. It is answered at once and
  as it would be with any other nodes registered, nothing is sent to anybody, then or later, and the
  own services are asked for what it says. -/
  here : a.isMain = true → ∀ r', a.resolve r = .ok r' → r.node = "" ∨ r.node = a.nodeId →
    (∃ response, response.kind = r.kind ∧ ∀ registry, registry.store = a.registry.store →
      (call { a with registry } .protectedSide (.administer r)).1 =
        .answered (.ok (.response response))) ∧
    (∃ store, (a.call .protectedSide (.administer r)).2.registry = { a.registry with store }) ∧
    (a.call .protectedSide (.administer r)).2.forwards = a.forwards ∧
    r'.Does (a.deeds (.call .protectedSide (.administer r)))
  /-- A request for any other node is sent on, and the own services are asked for nothing, then or
  later. -/
  elsewhere : a.isMain = true → ∀ r', a.resolve r = .ok r' → r.node ≠ "" → r.node ≠ a.nodeId →
    a.call .protectedSide (.administer r) =
      (.forwarded a.forwards.length, (a.forward r').relay) ∧
    a.deeds (.call .protectedSide (.administer r)) = [] ∧
    ∀ later, (a.forward r').relay.GoesTo a.forwards.length r' later

/-- A request for another node stays on its way to that node. -/
theorem goesTo (hregistrations : a.registry.registrations = []) (hlinks : a.registry.links = {})
    (hforwards : a.forwards = []) (hf : (a.run moves).forwards[n]? = some f)
    (hnode : (a.run moves).isHere f.request.node = false) (later : List (Move σ)) :
    (a.run moves).GoesTo n f.request later := by
  have hsteady := (Steady.of_empty hregistrations hlinks hforwards).run (moves ++ later)
  obtain ⟨f', hf', hrequest⟩ := request_run hf later
  have hnode' : ((a.run moves).run later).isHere f'.request.node = false :=
    hrequest ▸ isHere_run hnode later
  refine ⟨⟨f', hf', hrequest⟩, deeds_goOn hf' hnode', fun p hp ↦ ?_, fun p hp ↦ ?_⟩
  · obtain ⟨before, mv, after, f₁, hlater, hf₁, hg⟩ := find?_of_mem_callsOf hp
    obtain ⟨f₂, hf₂, hsame⟩ := request_run hf before
    obtain rfl : f₁ = f₂ := Option.some.inj (hf₁.symm.trans hf₂)
    rw [hsame] at hg
    obtain ⟨reports, hregular⟩ := exists_regular_run hregistrations hlinks (moves ++ before)
    rw [run_append] at hregular
    obtain ⟨s, hs, hopen⟩ := hregular.exists_open_of_linked hg
    exact ⟨before, mv, after, s, hlater, hg, hs, hopen⟩
  · have hmem : p ∈ a.callsOf n (moves ++ later) := by
      rw [callsOf_append]
      exact List.mem_append_right _ hp
    rw [run_append] at hsteady
    obtain ⟨c, hc, hcarried⟩ := (hsteady.stands n f' hf').own hmem
    exact ⟨c, hc, by rw [Call.frame, hcarried, hrequest]⟩

/-- **Every agent dispatches every request**, whatever was registered and sent on before. -/
theorem dispatches_run {site : Site σ} {config : AgentConfig} {names : NameSupply}
    {timeout : Duration} {store : NodeStore} {permissions : Option PermissionRegistry} {w : σ}
    (h : Agent.new site config names { firstFrameTimeout := timeout, store } permissions w = .ok a)
    (moves : List (Move σ)) (r : Request) : (a.run moves).Dispatches r := by
  obtain ⟨-, hforwards, hregistrations, hlinks⟩ := fields_of_new h
  have hcall : ∀ {p a'}, (a.run moves).isMain = true → (a.run moves).administer r = (p, a') →
      (a.run moves).call .protectedSide (.administer r) = (p, a'.relay) := by
    intro p a' hmain hadminister
    rw [call_administer, if_pos hmain, hadminister]
  refine ⟨fun hmain ↦ ?_, fun hmain e hresolve ↦ ?_, fun hmain r' hresolve hname ↦ ?_,
    fun hmain r' hresolve hne hown ↦ ?_⟩
  · rw [call_administer, hmain]
    rfl
  · exact ⟨exists_of_unresolved hresolve, hcall hmain (administer_of_unresolved hresolve),
      deeds_of_unresolved hmain hresolve⟩
  · have hhere := isHere_iff.mpr hname
    have hcalled := hcall hmain (administer_of_here hresolve hhere)
    have haside := Aside.carryOut (a.run moves) r' (.ok r'.keySubject)
    refine ⟨⟨((a.run moves).carryOut r' (.ok r'.keySubject)).1, ?_, fun registry hstore ↦ ?_⟩, ?_,
      ?_, deeds_of_here hmain hresolve hhere⟩
    · rw [kind_carryOut, (node_resolve hresolve).2]
    · have hresolve' : resolve { a.run moves with registry } r = .ok r' := by
        cases r <;> exact hresolve
      rw [call_administer, if_pos hmain, administer_of_here hresolve' hhere,
        carryOut_registry _ _ _ hstore]
    · rw [hcalled]
      exact (haside.trans (.relay _)).registry
    · rw [hcalled]
      exact (haside.trans (.relay _)).forwards.trans (List.append_nil _)
  · have hhere : (a.run moves).isHere r.node = false := by
      rw [Bool.eq_false_iff, ne_eq, isHere_iff]
      exact fun hname ↦ hname.elim hne hown
    have hcalled := hcall hmain (administer_of_elsewhere hresolve hhere)
    refine ⟨hcalled, deeds_of_elsewhere hmain hresolve hhere, fun later ↦ ?_⟩
    have hstep : a.run (moves ++ [.call .protectedSide (.administer r)]) =
        ((a.run moves).forward r').relay := by
      rw [run_concat]
      exact congrArg Prod.snd hcalled
    have hf : ((a.run moves).forward r').relay.forwards[(a.run moves).forwards.length]? =
        some ((a.run moves).newForward r') := List.getElem?_concat_length ..
    have hnode : ((a.run moves).forward r').relay.isHere r'.node = false :=
      (congrArg (a.run moves).isHere (node_resolve hresolve).1).trans hhere
    rw [← hstep] at hf hnode ⊢
    exact goesTo hregistrations hlinks hforwards hf hnode later

/-- Two nodes come, and the first one calls itself by the name of the main node. -/
def pretence : List (Move Rehearsal) :=
  [.registry (.arrive [.provisioned]
      [.frame ⟨"", some (.info { nodeId := "main", statusCode := 2 })⟩] false 0),
    .registry (.review 0 0),
    .registry (.arrive [.provisioned]
      [.frame ⟨"", some (.info { nodeId := "node", statusCode := 2 })⟩] false 0),
    .registry (.review 1 0)]

/-- The first one is registered and yet not called; a request for the other one is a call of it. -/
theorem dispatches_pretence :
    ∃ a, Agent.new (Rehearsal.site false) {} tallies
        { firstFrameTimeout := .ofSeconds 30, store := {} } none mainWorld = .ok a ∧
      (∀ r, (a.run pretence).Dispatches r) ∧
      (a.run pretence).isMain = true ∧ (a.run pretence).registry.find? "main" = some 0 ∧
      (a.run pretence).deeds (.call .protectedSide (.administer (.pauseNode "main"))) =
        [.write .paused true] ∧
      (a.run pretence).callsOf 0
        [.call .protectedSide (.administer (.pauseNode "node")), .goOn 0 0, .goOn 0 0] =
          [(1, 0)] := by
  have hrun : ∃ a, Agent.new (Rehearsal.site false) {} tallies
      { firstFrameTimeout := .ofSeconds 30, store := {} } none mainWorld = .ok a ∧
      (a.run pretence).isMain = true ∧ (a.run pretence).registry.find? "main" = some 0 ∧
      (a.run pretence).deeds (.call .protectedSide (.administer (.pauseNode "main"))) =
        [.write .paused true] ∧
      (a.run pretence).callsOf 0
        [.call .protectedSide (.administer (.pauseNode "node")), .goOn 0 0, .goOn 0 0] =
          [(1, 0)] := ⟨_, rfl, rfl, rfl, rfl, rfl⟩
  obtain ⟨a, hnew, hrest⟩ := hrun
  exact ⟨a, hnew, dispatches_run hnew pretence, hrest⟩

end Agent

end NodeAgent
