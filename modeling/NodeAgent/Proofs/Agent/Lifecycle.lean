import NodeAgent.Proofs.Agent.Forwarding
import NodeAgent.Proofs.Node.Service

/-!
# Requests that concern a node's life

Starting and finishing to provision a node, taking that back, pausing and resuming concern the
node's life. A node that is asked over its stream looks at its status first and refuses what the
status does not permit. An agent that is asked for its own node does not look at the status.

What both do when they act is one and the same thing, the *effect* of the request (`Site.effect`):
the action, and then the status it leads to. So they agree wherever the node does not refuse, and
only there: the node's side is `answer_of_permits` and `answer_of_not_permits`, the agent's own is
`administer_here`.

## Main statements

* `administer_here`: what an agent does with a request for its own node, whatever the status.
* `faithful_run`: what the peer of a forwarded request is told is the response it ended with, with
  a failure to record the status embedded if there was one.
-/

namespace NodeAgent

/-! ## Who a request is for -/

namespace Request

/-- The same request, for another node. -/
def readdress (node : NodeId) : Request → Request
  | startProvisioning _ password => .startProvisioning node password
  | finishProvisioning _ password => .finishProvisioning node password
  | deprovision _ password => .deprovision node password
  | pauseNode _ => .pauseNode node
  | resumeNode _ => .resumeNode node
  | createKey _ subject certType password => .createKey node subject certType password
  | applyCert _ certType cert => .applyCert node certType cert
  | certTypes _ => .certTypes node

variable {r : Request} {node : NodeId} {allowed : List NodeStatus}

@[simp] theorem node_readdress : (r.readdress node).node = node := by cases r <;> rfl

@[simp] theorem permitted?_readdress : (r.readdress node).permitted? = r.permitted? := by
  cases r <;> rfl

/-- The response to a request that concerns the node's life does not tell whose. -/
theorem emptyResponse_readdress (h : r.permitted? = some allowed) :
    (r.readdress node).emptyResponse = r.emptyResponse := by
  cases r <;> first | rfl | cases h

end Request

/-! ## The effect of a request -/

namespace Site

variable {σ : Type} {site : Site σ} {r : Request} {w : σ} {node : NodeId}
  {allowed : List NodeStatus}

/-- What is done for a request that concerns the node's life. -/
def effect (site : Site σ) (r : Request) : Action σ Unit :=
  (site.perform r).andThen fun _ ↦
    match r.target? with
    | none => .done ()
    | some target => site.setStatus target

/-- The node can tell its status, and the status permits the request. -/
def Permits (site : Site σ) (r : Request) (w : σ) : Prop :=
  ∃ allowed info, r.permitted? = some allowed ∧ site.nodeInfo w = .ok info ∧ info.status ∈ allowed

@[simp] theorem effect_readdress : site.effect (r.readdress node) = site.effect r := by
  cases r <;> rfl

/-- **A node that does not refuse a request does what it asks for.** -/
theorem answer_of_permits (h : site.Permits r w) :
    (site.answer r w).1.1 = r.emptyResponse.embed (site.effect r w).1 ∧
      (site.answer r w).2 = (site.effect r w).2 := by
  obtain ⟨allowed, info, hallowed, hinfo, hmem⟩ := h
  have hrequired : site.requireStatus allowed w = (.ok (), w) := by
    rw [requireStatus_of_ok hinfo, if_pos hmem]
  unfold answer
  rw [hallowed]
  dsimp only
  rw [live, Action.andThen_ok hrequired, effect]
  obtain ⟨⟨performed, w₁⟩, hperformed⟩ : ∃ p, site.perform r w = p := ⟨_, rfl⟩
  cases performed with
  | error e =>
    rw [Action.andThen_error hperformed, Action.andThen_error hperformed]
    exact ⟨rfl, rfl⟩
  | ok _ =>
    rw [Action.andThen_ok hperformed, Action.andThen_ok hperformed]
    cases htarget : r.target? with
    | none => exact ⟨rfl, rfl⟩
    | some target =>
      dsimp only
      obtain ⟨⟨written, w₂⟩, hwritten⟩ : ∃ p, site.setStatus target w₁ = p := ⟨_, rfl⟩
      cases written with
      | error e =>
        rw [Action.andThen_error hwritten, hwritten]
        exact ⟨rfl, rfl⟩
      | ok _ =>
        rw [Action.andThen_ok hwritten, hwritten]
        exact ⟨rfl, rfl⟩

/-- **A node that refuses a request does nothing**, and says which status is in the way if it can
tell. -/
theorem answer_of_not_permits (hallowed : r.permitted? = some allowed) (h : ¬site.Permits r w) :
    ∃ e : ServiceError, site.answer r w = ((r.emptyResponse.withError e.toInfo, none), w) ∧
      ∀ info, site.nodeInfo w = .ok info → e = notPermitted info.status := by
  have hrefused : ∀ e, site.requireStatus allowed w = (.error e, w) →
      site.answer r w = ((r.emptyResponse.withError e.toInfo, none), w) := by
    intro e he
    unfold answer
    rw [hallowed]
    dsimp only
    rw [live, Action.andThen_error he]
  cases hinfo : site.nodeInfo w with
  | error e => exact ⟨e, hrefused e (requireStatus_of_error hinfo), fun info h ↦ nomatch h⟩
  | ok info =>
    have hmem : info.status ∉ allowed := fun hmem ↦ h ⟨allowed, info, hallowed, hinfo, hmem⟩
    refine ⟨notPermitted info.status, hrefused _ ?_, fun info' h ↦ ?_⟩
    · rw [requireStatus_of_ok hinfo, if_neg hmem]
    · rw [Except.ok.inj h]

end Site

namespace Agent

variable {σ : Type} {a a' : Agent σ} {r : Request} {node : NodeId} {allowed : List NodeStatus}

/-! ## Requests for the own node -/

/-- The store works and has the record of the agent's own node, so the status of that node can
always be recorded. -/
structure KeepsOwn (a : Agent σ) : Prop where
  running : a.registry.store.outage = none
  recorded : ∃ info, a.registry.store.nodes.get? a.nodeId = some info

/-- What carrying out a request changes is the world and the store. -/
structure CarriesOn (a a' : Agent σ) : Prop where
  site : a'.site = a.site
  nodeId : a'.nodeId = a.nodeId
  own : a'.KeepsOwn

/-- Setting a status the store has a record for works. -/
theorem setStatus_of_keepsOwn (h : a.KeepsOwn) (s : NodeStatus) :
    (a.registry.store.setStatus a.nodeId s).1 = .ok () ∧
      (a.registry.store.setStatus a.nodeId s).2.outage = none ∧
      ∃ info, (a.registry.store.setStatus a.nodeId s).2.nodes.get? a.nodeId = some info := by
  obtain ⟨info, hinfo⟩ := h.recorded
  rw [NodeStore.setStatus, NodeStore.guarded, h.running, hinfo]
  dsimp only
  split
  · exact ⟨rfl, h.running, info, hinfo⟩
  · refine ⟨rfl, rfl, info.withStatus s, ?_⟩
    change (a.registry.store.nodes.insert a.nodeId (info.withStatus s)).get? a.nodeId = _
    rw [Table.get?_insert, if_pos rfl]

/-- Recording a status of the own node does to its site what setting the status there does. -/
theorem setStatus_here (h : a.KeepsOwn) (hnode : a.isHere node = true) (s : NodeStatus) :
    (a.setStatus node s).1 = (a.site.setStatus s a.world).1 ∧
      (a.setStatus node s).2.world = (a.site.setStatus s a.world).2 ∧
      CarriesOn a (a.setStatus node s).2 := by
  have hname : (if node = "" then a.nodeId else node) = a.nodeId := by
    rw [isHere, Bool.or_eq_true, beq_iff_eq, beq_iff_eq] at hnode
    rcases hnode with rfl | rfl
    · exact if_pos rfl
    · exact ite_id _
  obtain ⟨hwritten, hrunning, hrecorded⟩ := setStatus_of_keepsOwn h s
  unfold setStatus
  rw [hnode, if_pos rfl]
  cases hset : a.site.setStatus s a.world with
  | mk written w =>
    cases written with
    | error e => exact ⟨rfl, rfl, rfl, rfl, h.running, h.recorded⟩
    | ok _ =>
      dsimp only
      rw [hname]
      exact ⟨hwritten, rfl, rfl, rfl, hrunning, hrecorded⟩

theorem conclude_of_no_target (h : r.target? = none) (response : Response) :
    a.conclude r response = (response, a) := by
  rw [conclude, h]

theorem conclude_of_failure {response : Response} (h : response.error ≠ none) :
    a.conclude r response = (response, a) := by
  unfold conclude
  split
  · rfl
  · rw [if_pos (Option.isSome_iff_ne_none.mpr h)]

theorem conclude_of_success {target : NodeStatus} {response : Response}
    (htarget : r.target? = some target) (h : response.error = none) :
    a.conclude r response =
      (response.embed (a.setStatus r.node target).1, (a.setStatus r.node target).2) := by
  rw [conclude, htarget, h]
  rfl

theorem carryOut_here (h : a.KeepsOwn) (hallowed : r.permitted? = some allowed)
    (hnode : a.isHere r.node = true) (subject : Except ServiceError String) :
    (a.carryOut r subject).1 = r.emptyResponse.embed (a.site.effect r a.world).1 ∧
      (a.carryOut r subject).2.world = (a.site.effect r a.world).2 ∧
      CarriesOn a (a.carryOut r subject).2 := by
  have hempty : r.emptyResponse.error = none := by cases r <;> rfl
  unfold carryOut
  rw [hallowed]
  dsimp only
  cases hperformed : a.site.perform r a.world with
  | mk performed w =>
    have hthere : KeepsOwn { a with world := w } := ⟨h.running, h.recorded⟩
    have hstill : CarriesOn a { a with world := w } := ⟨rfl, rfl, hthere⟩
    cases performed with
    | error e =>
      have herror : (r.emptyResponse.withError e.toInfo).error ≠ none := by
        rw [Response.error_withError]
        exact Option.some_ne_none _
      rw [Site.effect, Action.andThen_error hperformed, Response.embed, conclude_of_failure herror]
      exact ⟨rfl, rfl, hstill⟩
    | ok _ =>
      rw [Site.effect, Action.andThen_ok hperformed, Response.embed]
      cases htarget : r.target? with
      | none =>
        rw [conclude_of_no_target htarget]
        exact ⟨rfl, rfl, hstill⟩
      | some target =>
        -- the status is recorded with the site first, and the store takes what the site took
        obtain ⟨hwritten, hworld, hon⟩ := setStatus_here hthere hnode target
        rw [conclude_of_success htarget hempty, hwritten]
        exact ⟨rfl, hworld, hon.site, hon.nodeId, hon.own⟩

/-- **An agent does what is asked of its own node, whatever the status of the node.** -/
theorem administer_here (h : a.KeepsOwn) (hallowed : r.permitted? = some allowed)
    (hnode : a.isHere r.node = true) :
    (a.administer r).1 =
        .answered (.ok (.response (r.emptyResponse.embed (a.site.effect r a.world).1))) ∧
      (a.administer r).2.world = (a.site.effect r a.world).2 ∧
      CarriesOn a (a.administer r).2 := by
  have hcarried : a.administer r =
      (.answered (.ok (.response (a.carryOut r (.ok "")).1)), (a.carryOut r (.ok "")).2) := by
    unfold administer
    dsimp only
    split
    · cases hallowed
    · rw [if_pos hnode]
  obtain ⟨hresponse, hworld, hon⟩ := carryOut_here h hallowed hnode (.ok "")
  rw [hcarried, hresponse]
  exact ⟨rfl, hworld, hon⟩

/-- What another node is asked to do, an agent does for its own. -/
theorem administer_readdress (h : a.KeepsOwn) (hallowed : r.permitted? = some allowed)
    (hown : a.isHere node = true) :
    (a.administer (r.readdress node)).1 =
        .answered (.ok (.response (r.emptyResponse.embed (a.site.effect r a.world).1))) ∧
      (a.administer (r.readdress node)).2.world = (a.site.effect r a.world).2 ∧
      CarriesOn a (a.administer (r.readdress node)).2 := by
  have hthere := administer_here (r := r.readdress node) h
    (by rw [Request.permitted?_readdress, hallowed]) (by rw [Request.node_readdress, hown])
  rwa [Request.emptyResponse_readdress hallowed, Site.effect_readdress] at hthere

/-- Requests that are made one after another. -/
def administerAll (a : Agent σ) : List Request → List Progress × Agent σ
  | [] => ([], a)
  | r :: rs =>
    let (p, a) := a.administer r
    let (ps, a) := a.administerAll rs
    (p :: ps, a)

theorem administerAll_cons (a : Agent σ) (r : Request) (rs : List Request) :
    a.administerAll (r :: rs) = ((a.administer r).1 :: ((a.administer r).2.administerAll rs).1,
      ((a.administer r).2.administerAll rs).2) := rfl

/-- A new agent has the record of its own node in a store that works. -/
theorem keepsOwn_of_new {site : Site σ} {config : AgentConfig} {names : NameSupply}
    {registry : Registry} {permissions : Option PermissionRegistry} {w : σ}
    (h : Agent.new site config names registry permissions w = .ok a) :
    a.site = site ∧ a.world = w ∧ a.KeepsOwn := by
  unfold Agent.new at h
  split at h
  · cases h
  · rename_i info hinfo
    split at h
    · cases h
    · rename_i store hset
      obtain rfl := Except.ok.inj h
      have hok : (registry.store.setInfo info).1 = .ok () := by rw [hset]
      have hrecord := NodeStore.get?_setInfo_self hok
      rw [hset] at hrecord
      refine ⟨rfl, rfl, ?_, info, hrecord⟩
      -- a store that is out takes nothing, the agent's own record included
      have hrunning : registry.store.outage = none := by
        cases hout : registry.store.outage with
        | none => rfl
        | some e =>
          rw [NodeStore.setInfo, NodeStore.guarded, hout] at hok
          cases hok
      have hsame : (registry.store.setInfo info).2.outage = none := by
        rw [NodeStore.setInfo, NodeStore.guarded, hrunning]
        dsimp only
        split
        · exact hrunning
        · split <;> rfl
      rw [hset] at hsame
      exact hsame

/-! ## What the peer of a forwarded request is told -/

/-- The peer was told the response that the request ended with, with a failure to record the status
embedded if there was one. -/
def Faithful (f : Forward) : Prop :=
  ∀ told, f.outcome = some (.ok told) → ∃ response since,
    f.retry.phase = .finished (.ok response) since ∧
      ∃ recorded : Except ServiceError Unit, told = response.embed recorded

theorem conclude_eq_embed (a : Agent σ) (r : Request) (response : Response) :
    ∃ recorded : Except ServiceError Unit, (a.conclude r response).1 = response.embed recorded := by
  unfold conclude
  split
  · exact ⟨.ok (), rfl⟩
  · split
    · exact ⟨.ok (), rfl⟩
    · exact ⟨_, rfl⟩

variable {f f' : Forward}

theorem Faithful.change (h : Faithful f) (hchange : Changes a f f') : Faithful f' := by
  intro told htold
  cases hchange with
  | turn _ hrunning _ _ houtcome _ =>
    rw [houtcome] at htold
    obtain ⟨response, since, hphase, -⟩ := h told htold
    exact absurd hphase (hrunning _ since)
  | take hphase _ _ =>
    obtain ⟨response, since, hfinished, -⟩ := h told htold
    rw [hphase] at hfinished
    cases hfinished
  | @answer result since hphase =>
    have hanswer : a.told f result = .ok told := Option.some.inj htold
    cases result with
    | error e => cases hanswer
    | ok response =>
      obtain ⟨recorded, hrecorded⟩ := a.conclude_eq_embed f.request response
      exact ⟨response, since, hphase, recorded, by rw [← Except.ok.inj hanswer, hrecorded]⟩

theorem faithful_step (h : ∀ (n : Nat) f, a.forwards[n]? = some f → Faithful f) (mv : Move σ) :
    ∀ (n : Nat) f, (a.step mv).forwards[n]? = some f → Faithful f := by
  intro n f' hf'
  cases hf : a.forwards[n]? with
  | none =>
    intro told htold
    rw [(forward_new hf hf').2.2] at htold
    cases htold
  | some f =>
    obtain ⟨f'', hf'', heffect⟩ := forward_step hf mv
    rw [hf', Option.some.injEq] at hf''
    subst hf''
    cases heffect with
    | none => exact h n f' hf
    | change hchange => exact (h n f hf).change hchange
    | call _ _ _ _ => exact h n f hf

/-- **What peers are told along a run is what their requests ended with.** -/
theorem faithful_run (hforwards : a.forwards = []) (moves : List (Move σ)) :
    ∀ (n : Nat) f, (a.run moves).forwards[n]? = some f → Faithful f := by
  induction moves using List.reverseRecOn with
  | nil =>
    intro n f hf
    rw [run_nil, hforwards] at hf
    cases hf
  | append_singleton moves mv ih =>
    rw [run_concat]
    exact faithful_step ih mv

end Agent

end NodeAgent
