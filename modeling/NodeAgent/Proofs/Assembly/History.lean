import NodeAgent.Proofs.Agent.Lifecycle
import NodeAgent.Proofs.Assembly.Agreement

/-!
# Requests served and requests carried out here

A node that serves forwarded requests one at a time goes through the same worlds as an agent that
is given the same requests for its own node, and both answer the same, as long as each request comes
in a status that permits it. Where one does not they part: the node refuses it and does nothing,
whereas the agent does what is asked.

The executions of a run follow each other (`Linked`), so the requests can be made once more of an
agent of the node's own that starts in the same world (`replay`). The site of the node is any, and
its world may hold a log of what was done, so equal worlds also mean the same calls of its services.

## Main statements

* `likeness`: forwarded requests and requests carried out here, over every run.
* `unlike_when_unprovisioned`: an unprovisioned node refuses to resume, and an agent resumes its own
  node nonetheless.
-/

namespace NodeAgent

/-- The response that an execution gave. -/
def Execution.response? {τ : Type} (e : Execution τ) : Option Response :=
  e.reply.frames.getLast?.bind fun x ↦
    match x.message with
    | some (.response response) => some response
    | _ => none

/-- The request that was executed, and the response. -/
def Execution.exchange? {τ : Type} (e : Execution τ) : Option (Request × Response) :=
  e.frame.request.bind fun r ↦ e.response?.map fun response ↦ (r, response)

namespace Assembly

variable {σ τ : Type} {s : Assembly σ τ} {site : Site τ} {e : Execution τ} {r : Request}
  {response : Response} {w w' : τ}

/-- The requests that the node executed, first to last, each with its response. -/
def history (s : Assembly σ τ) : List (Request × Response) :=
  s.executed.filterMap Execution.exchange?

/-! ## Executions follow each other -/

/-- Each execution begins in the world in which the one before it ended. -/
def Linked : τ → List (Execution τ) → τ → Prop
  | w, [], w' => w' = w
  | w, e :: es, w' => e.before = w ∧ Linked e.after es w'

theorem Linked.concat {es : List (Execution τ)} (h : Linked w es e.before) :
    Linked w (es ++ [e]) e.after := by
  induction es generalizing w with
  | nil => exact ⟨h, rfl⟩
  | cons d es ih => exact ⟨h.1, ih h.2⟩

/-- The agent of the main node makes its own moves and no others. -/
theorem exists_main_step (s : Assembly σ τ) (mv : Move σ τ) :
    ∃ ms, (s.step mv).main = s.main.run ms := by
  have hnone : ∃ ms, s.main = s.main.run ms := ⟨[], rfl⟩
  cases mv with
  | main m =>
    change ∃ ms, (if m.isOwn then s.act m else s).main = s.main.run ms
    split
    · exact ⟨[m], rfl⟩
    · exact hnone
  | fetch k =>
    change ∃ ms, (s.fetch k).main = s.main.run ms
    unfold fetch
    split
    · exact hnone
    · split
      · exact ⟨[.registry (.use k .take)], rfl⟩
      · exact hnone
  | serve k =>
    change ∃ ms, (s.serve k).main = s.main.run ms
    unfold serve
    split <;> exact hnone
  | pass k =>
    change ∃ ms, (s.pass k).main = s.main.run ms
    unfold pass
    split
    · exact hnone
    · split
      · exact hnone
      · rename_i x rest _
        exact ⟨[.registry (.receive k (.frame x))], rfl⟩
  | report k info => exact hnone
  | sever k => exact hnone
  | outside w => exact hnone

/-- Along a run of an assembly, the agent of the main node makes a run. -/
theorem exists_main_run (s : Assembly σ τ) (moves : List (Move σ τ)) :
    ∃ ms, (s.run moves).main = s.main.run ms := by
  induction moves using List.reverseRecOn with
  | nil => exact ⟨[], rfl⟩
  | append_singleton moves mv ih =>
    obtain ⟨ms, hms⟩ := ih
    obtain ⟨ms', hms'⟩ := (s.run moves).exists_main_step mv
    exact ⟨ms ++ ms', by rw [run_concat, hms', hms, Agent.run_append]⟩

/-- The world of the node changes when it serves a frame, and when it changes by itself. -/
theorem executed_step (s : Assembly σ τ) {mv : Move σ τ} (hself : ∀ w, mv ≠ .outside w) :
    ((s.step mv).executed = s.executed ∧ (s.step mv).world = s.world) ∨
      ∃ e, e.before = s.world ∧ (s.step mv).executed = s.executed ++ [e] ∧
        (s.step mv).world = e.after := by
  cases mv with
  | main m =>
    refine Or.inl ?_
    change (if m.isOwn then s.act m else s).executed = s.executed ∧
      (if m.isOwn then s.act m else s).world = s.world
    split <;> exact ⟨rfl, rfl⟩
  | report k info => exact Or.inl ⟨rfl, rfl⟩
  | fetch k =>
    refine Or.inl ?_
    change (s.fetch k).executed = s.executed ∧ (s.fetch k).world = s.world
    unfold fetch
    split
    · exact ⟨rfl, rfl⟩
    · split <;> exact ⟨rfl, rfl⟩
  | serve k =>
    change ((s.serve k).executed = s.executed ∧ (s.serve k).world = s.world) ∨
      ∃ e, e.before = s.world ∧ (s.serve k).executed = s.executed ++ [e] ∧
        (s.serve k).world = e.after
    unfold serve
    split
    · exact Or.inl ⟨rfl, rfl⟩
    · rename_i f rest _
      exact Or.inr ⟨s.execution k f, rfl, rfl, rfl⟩
  | pass k =>
    refine Or.inl ?_
    change (s.pass k).executed = s.executed ∧ (s.pass k).world = s.world
    unfold pass
    split
    · exact ⟨rfl, rfl⟩
    · split <;> exact ⟨rfl, rfl⟩
  | sever k => exact Or.inl ⟨rfl, rfl⟩
  | outside w => exact absurd rfl (hself w)

/-- The executions of a run follow each other if the node does not change by itself. -/
theorem linked_run (s : Assembly σ τ) (hfirst : s.executed = []) (moves : List (Move σ τ))
    (hself : ∀ w, Move.outside w ∉ moves) :
    Linked s.world (s.run moves).executed (s.run moves).world := by
  induction moves using List.reverseRecOn with
  | nil =>
    change Linked s.world s.executed s.world
    rw [hfirst]
    rfl
  | append_singleton moves mv ih =>
    have hlinked := ih fun w hw ↦ hself w (List.mem_append_left _ hw)
    have hmv : ∀ w, mv ≠ .outside w := by
      rintro w rfl
      exact hself w (by simp)
    rw [run_concat]
    rcases (s.run moves).executed_step hmv with
      ⟨hexecuted, hworld⟩ | ⟨e, hbefore, hexecuted, hworld⟩
    · rw [hexecuted, hworld]
      exact hlinked
    · rw [hexecuted, hworld]
      rw [← hbefore] at hlinked
      exact hlinked.concat

/-! ## What an execution gave -/

theorem response?_of_served (hrequest : e.frame.request = some r)
    (hserved : site.serve e.frame e.before = (e.reply, e.after)) :
    e.response? = some (site.answer r e.before).1.1 ∧ e.after = (site.answer r e.before).2 := by
  obtain ⟨news, hframes, -⟩ := site.serve_frames hrequest e.before
  have hworld := site.world_serve hrequest e.before
  rw [hserved] at hframes hworld
  refine ⟨?_, hworld⟩
  rw [Execution.response?, hframes, List.getLast?_concat]
  rfl

theorem exchange?_of_served (hrequest : e.frame.request = some r)
    (hserved : site.serve e.frame e.before = (e.reply, e.after)) :
    e.exchange? = some (r, (site.answer r e.before).1.1) := by
  rw [Execution.exchange?, hrequest, (response?_of_served hrequest hserved).1]
  rfl

/-- A frame without a request is not answered, and nothing is done. -/
theorem exchange?_of_empty (hrequest : e.frame.request = none)
    (hserved : site.serve e.frame e.before = (e.reply, e.after)) :
    e.exchange? = none ∧ e.after = e.before := by
  rw [Site.serve, hrequest] at hserved
  rw [Execution.exchange?, hrequest]
  exact ⟨rfl, (Prod.mk.inj hserved).2.symm⟩

/-- **Permitted requests can be replayed.** An agent that carries out for its own node what a node
executed answers the same and comes into the same world. -/
theorem replay {own : NodeId} (es : List (Execution τ)) {b : Agent τ} (hb : b.KeepsOwn)
    (hsite : b.site = site) (hown : b.isHere own = true) (hlinked : Linked b.world es w')
    (hserved : ∀ e ∈ es, site.serve e.frame e.before = (e.reply, e.after))
    (hpermits : ∀ e ∈ es, ∀ r, e.frame.request = some r → site.Permits r e.before) :
    ∃ b', b.administerAll ((es.filterMap Execution.exchange?).map (·.1.readdress own)) =
        ((es.filterMap Execution.exchange?).map fun p ↦ .answered (.ok (.response p.2)), b') ∧
      b'.world = w' ∧ b.CarriesOn b' := by
  induction es generalizing b with
  | nil => exact ⟨b, rfl, hlinked.symm, rfl, rfl, hb⟩
  | cons e es ih =>
    obtain ⟨hbefore, hafter⟩ := hlinked
    have hfirst := hserved e List.mem_cons_self
    have hserved' := fun d hd ↦ hserved d (List.mem_cons_of_mem e hd)
    have hpermits' := fun d hd ↦ hpermits d (List.mem_cons_of_mem e hd)
    cases hrequest : e.frame.request with
    | none =>
      obtain ⟨hnone, hsame⟩ := exchange?_of_empty hrequest hfirst
      rw [List.filterMap_cons_none hnone]
      rw [hsame, hbefore] at hafter
      exact ih hb hsite hown hafter hserved' hpermits'
    | some r =>
      have hpermit := hpermits e List.mem_cons_self r hrequest
      obtain ⟨hanswer, hworld⟩ := Site.answer_of_permits hpermit
      obtain ⟨allowed, -, hallowed, -⟩ := hpermit
      obtain ⟨htold, hchanged, hon⟩ := Agent.administer_readdress hb hallowed hown
      rw [hsite, ← hbefore] at htold hchanged
      -- from here on the agent is in the world in which the execution ended
      have hnext : Linked (b.administer (r.readdress own)).2.world es w' := by
        rw [hchanged, ← hworld, ← (response?_of_served hrequest hfirst).2]
        exact hafter
      obtain ⟨b', hall, hend, hon'⟩ := ih hon.own (hon.site.trans hsite)
        (by rw [Agent.isHere, hon.nodeId]; exact hown) hnext hserved' hpermits'
      refine ⟨b', ?_, hend, hon'.site.trans hon.site, hon'.nodeId.trans hon.nodeId, hon'.own⟩
      rw [List.filterMap_cons_some (exchange?_of_served hrequest hfirst), List.map_cons,
        List.map_cons, Agent.administerAll_cons, hall, htold, hanswer]

/-! ## Likeness -/

/-- A response that a forwarded request ended with is that of an execution of the request. -/
theorem Coherent.exists_exchange {n : Nat} {f : Forward} {since : Instant} (h : s.Coherent)
    (hf : s.main.forwards[n]? = some f) (hphase : f.retry.phase = .finished (.ok response) since) :
    (f.request, response) ∈ s.history := by
  obtain ⟨p, c, -, hc, hrequest, hr⟩ := h.steady.exists_call_of_finished hf hphase
  rcases h.returned_of_call hc hr with ⟨e, he, hframe, hresponse⟩ | ⟨e, herror, -⟩
  · have hasked : e.frame.request = some f.request := by rw [hframe, Call.frame, hrequest]
    have hexchange := exchange?_of_served hasked (h.genuine e he)
    rw [Except.ok.inj hresponse, hrequest]
    exact List.mem_filterMap.mpr ⟨e, he, hexchange⟩
  · cases herror

/-- How forwarded requests compare with requests that are carried out here, when the node started in
the world `w`. -/
structure Likeness (s : Assembly σ τ) (site : Site τ) (w : τ) : Prop where
  /-- What the peer of a forwarded request is told is the response of an execution of the request,
  with the failure embedded if the main node could not record the status. -/
  told : ∀ (n : Nat) f told, s.main.forwards[n]? = some f → f.outcome = some (.ok told) →
    ∃ response, (f.request, response) ∈ s.history ∧
      ∃ recorded : Except ServiceError Unit, told = response.embed recorded
  /-- The node refuses what its status does not permit, and then nothing is done. -/
  refused : ∀ e ∈ s.executed, ∀ r allowed, e.frame.request = some r →
    r.permitted? = some allowed → ¬site.Permits r e.before →
    e.after = e.before ∧ ∃ failure : ServiceError,
      e.response? = some (r.emptyResponse.withError failure.toInfo) ∧
        ∀ info, site.nodeInfo e.before = .ok info → failure = Site.notPermitted info.status
  /-- As long as every request is permitted, an agent of the node's own that is given the same
  requests answers the same and is in the same world. Whatever it is asked next, it does. -/
  here : ∀ (config : AgentConfig) (names : NameSupply) (registry : Registry)
      (permissions : Option PermissionRegistry) (b : Agent τ) (own : NodeId),
    Agent.new site config names registry permissions w = .ok b → b.isHere own = true →
    (∀ e ∈ s.executed, ∀ r, e.frame.request = some r → site.Permits r e.before) →
    ∃ b', b.administerAll (s.history.map (·.1.readdress own)) =
        (s.history.map fun p ↦ .answered (.ok (.response p.2)), b') ∧
      b'.world = s.world ∧ ∀ r allowed, r.permitted? = some allowed →
        (b'.administer (r.readdress own)).1 = .answered
          (.ok (.response (r.emptyResponse.embed (site.effect r s.world).1))) ∧
        (b'.administer (r.readdress own)).2.world = (site.effect r s.world).2

/-- **Forwarded requests and requests carried out here are alike while they are permitted.** What
the main node hears is what the node did; the node does nothing that its status does not permit; and
an agent that is given the same requests for its own node does the same, but does not look at the
status. -/
theorem likeness {a : Agent σ} {main : Site σ} {config : AgentConfig} {names : NameSupply}
    {timeout : Duration} {store : NodeStore} {permissions : Option PermissionRegistry} {v : σ}
    (hnew : Agent.new main config names { firstFrameTimeout := timeout, store } permissions v =
      .ok a)
    (hnames : Function.Injective names.requestId) (site : Site τ) (w : τ)
    (moves : List (Move σ τ)) (hself : ∀ w, Move.outside w ∉ moves) :
    Likeness (run { main := a, site, world := w } moves) site w := by
  obtain ⟨hkept, hforwards, hregistrations, hlinks⟩ := Agent.fields_of_new hnew
  have hstart : Coherent ({ main := a, site, world := w } : Assembly σ τ) :=
    .of_new (.of_empty hregistrations hlinks hforwards) (.of_registrations hregistrations)
      hregistrations
  have h := hstart.run (by rw [hkept]; exact hnames) moves
  have hsame := (Coherent.names_run { main := a, site, world := w } moves).2
  have hserved := h.genuine
  rw [hsame] at hserved
  refine ⟨fun n f told hf htold ↦ ?_, fun e he r allowed hrequest hallowed hnot ↦ ?_,
    fun _ _ _ _ b own hb hown hpermits ↦ ?_⟩
  · obtain ⟨ms, hms⟩ := exists_main_run { main := a, site, world := w } moves
    have hfaithful := Agent.faithful_run hforwards ms
    rw [← hms] at hfaithful
    obtain ⟨response, since, hphase, hrecorded⟩ := hfaithful n f hf told htold
    exact ⟨response, h.exists_exchange hf hphase, hrecorded⟩
  · obtain ⟨failure, hanswer, hwhich⟩ := Site.answer_of_not_permits hallowed hnot
    obtain ⟨hresponse, hafter⟩ := response?_of_served hrequest (hserved e he)
    rw [hanswer] at hresponse hafter
    exact ⟨hafter, failure, hresponse, hwhich⟩
  · obtain ⟨hsite, hworld, hkeeps⟩ := Agent.keepsOwn_of_new hb
    have hlinked := linked_run { main := a, site, world := w } rfl moves hself
    obtain ⟨b', hall, hend, hon⟩ :=
      replay _ hkeeps hsite hown (by rw [hworld]; exact hlinked) hserved hpermits
    refine ⟨b', hall, hend, fun r allowed hallowed ↦ ?_⟩
    obtain ⟨htold, hchanged, -⟩ := Agent.administer_readdress hon.own hallowed
      (by rw [Agent.isHere, hon.nodeId]; exact hown)
    rw [hon.site, hsite, hend] at htold hchanged
    exact ⟨htold, hchanged⟩

/-- A node in service is paused over its stream, and an agent that is asked to pause its own node
does the same. -/
theorem likeness_pausing :
    ∃ a, Agent.new (Rehearsal.site false) {} Agent.tallies
        { firstFrameTimeout := .ofSeconds 30, store := {} } none Agent.mainWorld = .ok a ∧
      Function.Injective Agent.tallies.requestId ∧
      (∀ w, (Move.outside w : Move Rehearsal Rehearsal) ∉ pausing) ∧
      let s := run { main := a, site := Rehearsal.site false, world := nodeWorld } pausing
      Likeness s (Rehearsal.site false) nodeWorld ∧
        s.history = [(.pauseNode "node", .pauseNode none)] := by
  have hrun : ∃ a, Agent.new (Rehearsal.site false) {} Agent.tallies
      { firstFrameTimeout := .ofSeconds 30, store := {} } none Agent.mainWorld = .ok a ∧
      (run { main := a, site := Rehearsal.site false, world := nodeWorld } pausing).history =
        [(.pauseNode "node", .pauseNode none)] := ⟨_, rfl, rfl⟩
  obtain ⟨a, hnew, hhistory⟩ := hrun
  have hnames := Agent.tallies_injective
  have hself : ∀ w, (Move.outside w : Move Rehearsal Rehearsal) ∉ pausing := by
    intro w
    simp [pausing, Agent.callActs]
  have hlike := likeness hnew hnames (Rehearsal.site false) nodeWorld pausing hself
  exact ⟨a, hnew, hnames, hself, hlike, hhistory⟩

/-- The world of a node that was never provisioned. -/
def freshWorld : Rehearsal := { node := { nodeId := "node", statusCode := 1 } }

/-- A node comes that was never provisioned, and is asked to resume. -/
def resuming : List (Move Rehearsal Rehearsal) :=
  .main (.registry (.arrive [.unprovisioned] [] false 0)) ::
  .report 0 freshWorld.node :: .pass 0 :: .main (.registry (.review 0 0)) ::
  .main (.call .protectedSide (.administer (.resumeNode "node"))) ::
  .main (.goOn 0 0) :: .main (.goOn 0 0) ::
  ((Agent.callActs 4).map .main ++ .fetch 0 :: .serve 0 :: .pass 0 ::
    .main (.registry (.read 0 0)) ::
    ((Agent.callActs 1).map .main ++ [.main (.goOn 0 0), .main (.goOn 0 0)]))

/-- **Forwarded requests and requests carried out here are not always alike.** A node that was never
provisioned refuses to resume. An agent that is asked to resume its own node does so, and then the
node is in service without having been provisioned. -/
theorem unlike_when_unprovisioned :
    ∃ a b, Agent.new (Rehearsal.site false) {} Agent.tallies
        { firstFrameTimeout := .ofSeconds 30, store := {} } none Agent.mainWorld = .ok a ∧
      Agent.new (Rehearsal.site false) {} Agent.tallies
        { firstFrameTimeout := .ofSeconds 30, store := {} } none freshWorld = .ok b ∧
      (let s := run { main := a, site := Rehearsal.site false, world := freshWorld } resuming
      s.main.forwards[0]?.map (·.outcome) = some (some
          (.ok (.resumeNode (some (Site.notPermitted .unprovisioned).toInfo)))) ∧
        s.world.node.status = .unprovisioned ∧ s.world.log = []) ∧
      (b.administer (.resumeNode "")).1 = .answered (.ok (.response (.resumeNode none))) ∧
      (b.administer (.resumeNode "")).2.world.node.status = .provisioned :=
  ⟨_, _, rfl, rfl, ⟨rfl, rfl, rfl⟩, rfl, rfl⟩

end Assembly

end NodeAgent
