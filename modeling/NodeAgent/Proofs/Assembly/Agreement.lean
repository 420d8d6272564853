import NodeAgent.Proofs.Assembly.Requests

/-!
# What the main node hears is what the node did

Requests to a node share one session, and the node's reports go up between its responses. Sessions
break while requests, executions and responses are under way, and the node comes back over another
one. Still, a forwarded request that ends with a response was executed by the node, once, and the
response is the one that this execution gave.

The invariant (`Coherent`) follows a request through its stations. A call is executed at most once
(`Accounted`), and what the node says goes back to an execution (`reported`, `traced`), so a
response that reaches a call is the answer to the frame of that call.

## Main statements

* `Coherent.step`: every move keeps an assembly coherent.
* `agreement`: what a forwarded request ends with, over every run.
-/

namespace NodeAgent.Assembly

variable {σ τ : Type} {s : Assembly σ τ} {m : Agent.Move σ} {k j : Nat}

/-- What an assembly keeps throughout a run. -/
structure Coherent (s : Assembly σ τ) : Prop extends Accounted s where
  /-- What the main node read, or is to read, the node said. -/
  traced : s.main.registry.Traced s.Said
  /-- What goes up the node said. -/
  reported : ∀ k, ∀ x ∈ (s.session k).up, s.Said k x

namespace Coherent

/-- An assembly is coherent at its start. -/
theorem of_new {a : Agent σ} {site : Site τ} {world : τ} (hsteady : a.Steady fun _ ↦ [])
    (hnumbered : a.Numbered) (hregistrations : a.registry.registrations = []) :
    Coherent { main := a, site, world } := by
  have hnone : ∀ i, a.registry.registration? i = none := by
    intro i
    rw [Registry.registration?, hregistrations]
    rfl
  refine ⟨.of_new hsteady hnumbered hregistrations, ⟨fun i g x hg ↦ ?_, fun p c m hc ↦ ?_⟩, by simp⟩
  · rw [hnone i] at hg
    cases hg
  · rw [Registry.call?, Registry.stream?, hnone p.1] at hc
    cases hc

/-! ## What the main node does -/

/-- What the main node reads is traced back, if what the move brings in is. -/
theorem traced_act (h : s.Coherent)
    (hbrings : ∀ q i x, m = .registry q → Registry.Brings q i (.frame x) → s.Said i x) :
    (s.act m).main.registry.Traced s.Said := by
  obtain ⟨q, hq, hwhich⟩ := s.main.exists_registry_step m
  have hsaid : ∀ i x, Registry.Brings q i (.frame x) → s.Said i x := by
    intro i x hx
    rcases hwhich with hm | ⟨store, rfl⟩ | ⟨g, id, r, d, rfl⟩
    · exact hbrings q i x hm hx
    · rcases hx with hx | ⟨_, _, _, _, hx, -⟩ <;> cases hx
    · rcases hx with hx | ⟨_, _, _, _, hx, -⟩ <;> cases hx
  have htraced := h.traced.step h.steady.consistent hsaid
  rw [← hq] at htraced
  exact htraced

/-- A move of the main node that makes no call of its own, and brings only what the node said. -/
theorem act (h : s.Coherent) (hnames : Function.Injective s.main.names.requestId)
    (hopen : ∀ g id r d, m ≠ .registry (.use g (.open id r d)))
    (hbrings : ∀ q i x, m = .registry q → Registry.Brings q i (.frame x) → s.Said i x) :
    (s.act m).Coherent where
  toAccounted := h.toAccounted.act hnames hopen
  traced := h.traced_act hbrings
  reported := h.reported

/-- A move of its own brings the main node no frame. -/
theorem not_brings_of_isOwn {q : Registry.Move} {i : Nat} {x : NodeFrame}
    (hown : (Agent.Move.registry q : Agent.Move σ).isOwn = true) :
    ¬Registry.Brings q i (.frame x) := by
  rintro (rfl | ⟨allowed, arrived, ended, now, rfl, hx⟩)
  · cases hown
  · rw [List.isEmpty_iff.mp hown] at hx
    cases hx

theorem act_own (h : s.Coherent) (hnames : Function.Injective s.main.names.requestId)
    (hown : m.isOwn = true) : (s.act m).Coherent := by
  refine h.act hnames (fun g id r d hm ↦ ?_) fun q i x hm hx ↦ ?_
  · rw [hm] at hown
    cases hown
  · rw [hm] at hown
    exact absurd hx (not_brings_of_isOwn hown)

/-! ## What sessions carry -/

/-- A change of a session that takes nothing down and has nothing go up but what the node said. -/
theorem update (h : s.Coherent) {f : Session → Session} (hdown : ∀ p, (f p).down = p.down)
    (hup : ∀ x ∈ (f (s.session k)).up, s.Said k x) : (s.update k f).Coherent := by
  refine ⟨h.toAccounted.update hdown, h.traced, fun j x hx ↦ ?_⟩
  rcases up_update hx with hx | ⟨rfl, hx⟩
  · exact h.reported j x hx
  · exact hup x hx

theorem fetch (h : s.Coherent) (hnames : Function.Injective s.main.names.requestId) (k : Nat) :
    (s.fetch k).Coherent := by
  have haccounted := h.toAccounted.fetch hnames k
  unfold Assembly.fetch
  split
  · exact h
  · rename_i hcarried
    split
    · rename_i hnext
      rw [Assembly.fetch, if_neg hcarried, hnext] at haccounted
      have hact : (s.act (.registry (.use k .take))).Coherent := by
        refine h.act hnames (fun _ _ _ _ hm ↦ ?_) fun q i x hm hx ↦ ?_
        · cases hm
        · obtain rfl := Agent.Move.registry.inj hm
          rcases hx with hx | ⟨_, _, _, _, hx, -⟩ <;> cases hx
      refine ⟨haccounted, hact.traced, fun j x hx ↦ ?_⟩
      rcases up_update hx with hx | ⟨rfl, hx⟩
      · exact h.reported j x hx
      · exact h.reported j x hx
    · exact h

theorem pass (h : s.Coherent) (hnames : Function.Injective s.main.names.requestId) (k : Nat) :
    (s.pass k).Coherent := by
  unfold Assembly.pass
  split
  · exact h
  · split
    · exact h
    · rename_i x rest hup
      have hact : (s.act (.registry (.receive k (.frame x)))).Coherent := by
        refine h.act hnames (fun _ _ _ _ hm ↦ ?_) fun q i y hm hy ↦ ?_
        · cases hm
        · obtain rfl := Agent.Move.registry.inj hm
          rcases hy with hy | ⟨_, _, _, _, hy, -⟩
          · obtain ⟨rfl, hframe⟩ := Registry.Move.receive.inj hy
            obtain rfl := Arrival.frame.inj hframe
            exact h.reported k x (by rw [hup]; exact List.mem_cons_self)
          · cases hy
      refine hact.update (fun _ ↦ rfl) fun y hy ↦ ?_
      exact h.reported k y (by rw [hup]; exact List.mem_cons_of_mem x hy)

/-! ## What the node does -/

theorem said_mono {s' : Assembly σ τ} {x : NodeFrame} (hsub : s.executed ⊆ s'.executed)
    (h : s.Said k x) : s'.Said k x := by
  rcases h with hinfo | ⟨e, he, hsession, hx⟩
  · exact Or.inl hinfo
  · exact Or.inr ⟨e, hsub he, hsession, hx⟩

theorem serve (h : s.Coherent) (k : Nat) : (s.serve k).Coherent := by
  have haccounted := h.toAccounted.serve k
  unfold Assembly.serve at haccounted ⊢
  split at haccounted
  · exact h
  · rename_i f rest hdown
    dsimp only at haccounted ⊢
    let say := fun p : Session ↦
      { p with down := rest, up := p.up ++ (s.execution k f).reply.frames }
    have hsub : s.executed ⊆ s.executed ++ [s.execution k f] := List.subset_append_left _ _
    refine ⟨haccounted, h.traced.mono fun i x hx ↦ said_mono hsub hx, fun j x hx ↦ ?_⟩
    change x ∈ ((s.update k say).session j).up at hx
    rcases up_update hx with hx | ⟨rfl, hx⟩
    · exact said_mono hsub (h.reported j x hx)
    · rcases List.mem_append.mp hx with hx | hx
      · exact said_mono hsub (h.reported j x hx)
      · exact Or.inr ⟨s.execution j f, by simp, rfl, hx⟩

theorem report (h : s.Coherent) (k : Nat) (info : NodeInfo) :
    (s.update k fun p ↦ { p with up := p.up ++ [⟨"", some (.info info)⟩] }).Coherent := by
  refine h.update (fun _ ↦ rfl) fun x hx ↦ ?_
  rcases List.mem_append.mp hx with hx | hx
  · exact h.reported k x hx
  · rw [List.mem_singleton.mp hx]
    exact Or.inl ⟨info, rfl⟩

/-- **Every move keeps an assembly coherent.** -/
theorem step (h : s.Coherent) (hnames : Function.Injective s.main.names.requestId)
    (mv : Move σ τ) : (s.step mv).Coherent := by
  cases mv with
  | main m =>
    change (if m.isOwn then s.act m else s).Coherent
    split
    · rename_i hown
      exact h.act_own hnames hown
    · exact h
  | report k info => exact h.report k info
  | fetch k => exact h.fetch hnames k
  | serve k => exact h.serve k
  | pass k => exact h.pass hnames k
  | sever k =>
    let cut := fun p : Session ↦ { p with severed := true }
    exact h.update (f := cut) (fun _ ↦ rfl) fun x hx ↦ h.reported k x hx
  | outside w => exact ⟨⟨h.steady, h.numbered, h.genuine, h.tracked⟩, h.traced, h.reported⟩

/-- The names of the main node and the services of the node stay what they are. -/
theorem names_step (s : Assembly σ τ) (mv : Move σ τ) :
    (s.step mv).main.names = s.main.names ∧ (s.step mv).site = s.site := by
  have hact : ∀ m, (s.act m).main.names = s.main.names := fun m ↦ (s.main.names_step m).1
  cases mv with
  | main m =>
    change (if m.isOwn then s.act m else s).main.names = _ ∧
      (if m.isOwn then s.act m else s).site = _
    split
    · exact ⟨hact m, rfl⟩
    · exact ⟨rfl, rfl⟩
  | fetch k =>
    change (s.fetch k).main.names = _ ∧ (s.fetch k).site = _
    unfold Assembly.fetch
    split
    · exact ⟨rfl, rfl⟩
    · split
      · exact ⟨hact _, rfl⟩
      · exact ⟨rfl, rfl⟩
  | serve k =>
    change (s.serve k).main.names = _ ∧ (s.serve k).site = _
    unfold Assembly.serve
    split <;> exact ⟨rfl, rfl⟩
  | pass k =>
    change (s.pass k).main.names = _ ∧ (s.pass k).site = _
    unfold Assembly.pass
    split
    · exact ⟨rfl, rfl⟩
    · split
      · exact ⟨rfl, rfl⟩
      · exact ⟨hact _, rfl⟩
  | _ => exact ⟨rfl, rfl⟩

theorem names_run (s : Assembly σ τ) (moves : List (Move σ τ)) :
    (s.run moves).main.names = s.main.names ∧ (s.run moves).site = s.site := by
  induction moves using List.reverseRecOn with
  | nil => exact ⟨rfl, rfl⟩
  | append_singleton moves mv ih =>
    obtain ⟨hnames, hsite⟩ := names_step (s.run moves) mv
    rw [run_concat, hnames, hsite]
    exact ih

/-- A run keeps an assembly coherent. -/
theorem run (h : s.Coherent) (hnames : Function.Injective s.main.names.requestId)
    (moves : List (Move σ τ)) : (s.run moves).Coherent := by
  induction moves using List.reverseRecOn with
  | nil => exact h
  | append_singleton moves mv ih =>
    rw [run_concat]
    exact ih.step (by rw [(names_run s moves).1]; exact hnames) mv

/-! ## Executions and the calls they answer -/

variable {p : Nat × Nat} {c : Call} {e : Execution τ}

/-- **A response that a call was given is the answer of an execution of its frame.** -/
theorem exists_execution (h : s.Coherent) {response : Response}
    (hc : s.main.registry.call? p = some c) (hslot : c.slot = .filled (.response response)) :
    ∃ e ∈ s.executed, e.frame = c.frame ∧ response = (s.site.answer c.request e.before).1.1 := by
  obtain ⟨response', hresponse, hsaid⟩ := h.traced.filled p c _ hc hslot
  rcases hsaid with ⟨info, hinfo⟩ | ⟨e, he, -, hx⟩
  · cases hinfo
  · have hx' : (⟨c.id, some (.response response)⟩ : NodeFrame) ∈
        (s.site.serve e.frame e.before).1.frames := by
      rw [h.genuine e he]
      exact hx
    obtain ⟨request, hrequest, hid, hanswer⟩ := Site.answer_of_mem_serve hx' rfl
    -- the identifier is that of the call, so what was executed is what the call asked for
    have hframe := (h.frame_of_id hc he hid.symm).2
    rw [hframe] at hrequest
    obtain rfl : c.request = request := Option.some.inj hrequest
    exact ⟨e, he, hframe, hanswer⟩

/-- **A call returns the answer of an execution of its frame**, or fails in a way of its own. -/
theorem returned_of_call (h : s.Coherent) {r : Except StreamError Response}
    (hc : s.main.registry.call? p = some c) (hr : c.response? = some r) :
    (∃ e ∈ s.executed, e.frame = c.frame ∧ r = .ok (s.site.answer c.request e.before).1.1) ∨
      ∃ e, r = .error e ∧ e.ofCall = true := by
  obtain ⟨t, ht, hct⟩ := Registry.stream?_of_call? hc
  have hconsistent := h.steady.consistent _ t ht
  obtain ⟨q, hq, hqr⟩ := Option.map_eq_some_iff.mp hr
  have hstage := Call.result?_eq_some.mp hq
  cases q with
  | error e =>
    exact Or.inr ⟨e, hqr.symm, hconsistent.failed _ c e hct (Or.inr hstage)⟩
  | ok m =>
    have hslot := hconsistent.answered _ c m hct hstage
    obtain ⟨response, rfl, -⟩ := h.traced.filled p c m hc hslot
    obtain ⟨e, he, hframe, hanswer⟩ := h.exists_execution hc hslot
    have hkind : response.kind = c.request.kind := by
      rw [hanswer]
      exact s.site.kind_answer _ _
    refine Or.inl ⟨e, he, hframe, ?_⟩
    rw [← hqr, ← hanswer]
    change NodeMessage.expect c.request.kind (.response response) = _
    rw [NodeMessage.expect, if_pos hkind]

end Coherent

/-! ## Agreement -/

/-- The node executed the request, and the response is the one that it gave. If the request leads to
a status, the node has it after an execution without a failure, and keeps the one it had after an
execution with one. -/
structure Carries (site : Site τ) (status : τ → NodeStatus) (request : Request)
    (response : Response) (e : Execution τ) : Prop where
  asked : e.frame.request = some request
  served : site.serve e.frame e.before = (e.reply, e.after)
  answered : e.reply.frames.getLast? = some ⟨e.frame.id, some (.response response)⟩
  succeeded : ∀ t, request.target? = some t → response.error = none → status e.after = t
  failed : ∀ t, request.target? = some t → response.error ≠ none →
    status e.after = status e.before

theorem Carries.of_answer {site : Site τ} {status : τ → NodeStatus} {request : Request}
    {e : Execution τ} (hsite : site.KeepsStatus status) (hrequest : e.frame.request = some request)
    (hserved : site.serve e.frame e.before = (e.reply, e.after)) :
    Carries site status request (site.answer request e.before).1.1 e := by
  have hafter : e.after = (site.answer request e.before).2 := by
    rw [← site.world_serve hrequest, hserved]
  refine ⟨hrequest, hserved, ?_, fun t ht hnone ↦ ?_, fun t ht hsome ↦ ?_⟩
  · obtain ⟨news, hframes, -⟩ := site.serve_frames hrequest e.before
    rw [hserved] at hframes
    rw [hframes, List.getLast?_concat]
  · rw [hafter]
    exact (Site.status_answer hsite ht e.before).1 hnone
  · rw [hafter]
    exact (Site.status_answer hsite ht e.before).2 hsome

/-- **What the main node hears is what the node did.** A forwarded request that ends with a response
was executed by the node, exactly once, and the response is that of the execution. It is never of
another kind than the request. -/
theorem agreement {a : Agent σ} {main : Site σ} {config : AgentConfig} {names : NameSupply}
    {timeout : Duration} {store : NodeStore} {permissions : Option PermissionRegistry} {w : σ}
    {site : Site τ} {status : τ → NodeStatus}
    (hnew : Agent.new main config names { firstFrameTimeout := timeout, store } permissions w =
      .ok a)
    (hnames : Function.Injective names.requestId) (hsite : site.KeepsStatus status) (world : τ)
    (moves : List (Move σ τ)) :
    let s := run { main := a, site, world } moves
    ∀ n f result since, s.main.forwards[n]? = some f → f.retry.phase = .finished result since →
      (∀ response, result = .ok response →
        ∃ e, s.executionsOf n = [e] ∧ Carries site status f.request response e) ∧
      ∀ expected actual, result ≠ .error (.unexpectedResponse expected actual) := by
  intro s n f result since hf hphase
  obtain ⟨hkept, hforwards, hregistrations, hlinks⟩ := Agent.fields_of_new hnew
  have hstart : Coherent ({ main := a, site, world } : Assembly σ τ) :=
    .of_new (.of_empty hregistrations hlinks hforwards) (.of_registrations hregistrations)
      hregistrations
  have h : s.Coherent := hstart.run (by rw [hkept]; exact hnames) moves
  have hsame : s.site = site := (Coherent.names_run _ moves).2
  have hstands := h.steady.stands n f hf
  generalize hcalls : s.calls n = calls at hstands
  cases hstands with
  | uncalled _ hfinished =>
    -- without a call there is no response of any kind
    rcases hfinished result since hphase with rfl | rfl
    · exact ⟨by simp, by simp⟩
    · exact ⟨by simp, by simp⟩
  | calling _ _ _ hattempting =>
    rw [hphase] at hattempting
    cases hattempting
  | @returned p c r _ hc hrequest _ hfinished hr =>
    rw [hphase, RetryPhase.finished.injEq] at hfinished
    obtain ⟨rfl, -⟩ := hfinished
    -- it ended with what its one call returned
    rcases h.returned_of_call hc hr with ⟨e, he, hframe, rfl⟩ | ⟨e, rfl, hof⟩
    · refine ⟨fun response hresponse ↦ ⟨e, ?_, ?_⟩, by simp⟩
      · have hexecutions : s.executionsOf n = s.executed.filter (·.frame.id = c.id) := by
          rw [executionsOf, hcalls]
          simp [hc]
        rw [hexecutions]
        exact h.executions_eq hc he (by rw [hframe]; rfl)
      · obtain rfl := Except.ok.inj hresponse
        rw [hrequest, hsame]
        refine .of_answer hsite ?_ ?_
        · rw [hframe, Call.frame, hrequest]
        · rw [← hsame]
          exact h.genuine e he
    · refine ⟨by simp, fun expected actual heq ↦ ?_⟩
      rw [Except.error.inj heq] at hof
      cases hof

/-- The world of a node in service. -/
def nodeWorld : Rehearsal := { node := { nodeId := "node", statusCode := 2 } }

/-- A node comes and is asked to pause, and its report goes up ahead of its response. -/
def pausing : List (Move Rehearsal Rehearsal) :=
  .main (.registry (.arrive [.provisioned, .paused] [] false 0)) ::
  .report 0 nodeWorld.node :: .pass 0 :: .main (.registry (.review 0 0)) ::
  .main (.call .protectedSide (.administer (.pauseNode "node"))) ::
  .main (.goOn 0 0) :: .main (.goOn 0 0) ::
  ((Agent.callActs 4).map .main ++ .fetch 0 :: .serve 0 :: .pass 0 :: .pass 0 ::
    .main (.registry (.read 0 0)) :: .main (.registry (.read 0 0)) ::
    ((Agent.callActs 1).map .main ++ [.main (.goOn 0 0)]))

/-- The request to pause ends well, so the node executed it once and is paused then. -/
theorem agreement_pausing :
    ∃ a, Agent.new (Rehearsal.site false) {} Agent.tallies
        { firstFrameTimeout := .ofSeconds 30, store := {} } none Agent.mainWorld = .ok a ∧
      Function.Injective Agent.tallies.requestId ∧
      (Rehearsal.site false).KeepsStatus (fun w ↦ w.node.status) ∧
      let s := run { main := a, site := Rehearsal.site false, world := nodeWorld } pausing
      ∃ f, s.main.forwards[0]? = some f ∧
        f.retry.phase = .finished (.ok (.pauseNode none)) 0 ∧
        ∃ e, s.executionsOf 0 = [e] ∧
          Carries (Rehearsal.site false) (fun w ↦ w.node.status) f.request (.pauseNode none) e := by
  have hrun : ∃ a, Agent.new (Rehearsal.site false) {} Agent.tallies
      { firstFrameTimeout := .ofSeconds 30, store := {} } none Agent.mainWorld = .ok a ∧
      let s := run { main := a, site := Rehearsal.site false, world := nodeWorld } pausing
      ∃ f, s.main.forwards[0]? = some f ∧ f.retry.phase = .finished (.ok (.pauseNode none)) 0 :=
    ⟨_, rfl, _, rfl, rfl⟩
  obtain ⟨a, hnew, f, hf, hphase⟩ := hrun
  have hnames := Agent.tallies_injective
  have hsite := Rehearsal.keepsStatus false
  refine ⟨a, hnew, hnames, hsite, f, hf, hphase, ?_⟩
  exact (agreement hnew hnames hsite nodeWorld pausing 0 f _ 0 hf hphase).1 _ rfl

end NodeAgent.Assembly
