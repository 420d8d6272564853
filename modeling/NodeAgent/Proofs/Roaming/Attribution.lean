import NodeAgent.Proofs.Agent.Recording
import NodeAgent.Proofs.Registry.Answers
import NodeAgent.Proofs.Roaming.Migration

/-!
# Who speaks for a node

Whoever comes to the main node may call itself what it likes, so an info of a node need not be its
own. As long as nobody else speaks for it (`respects`), every info that the main node takes in of
the node the node said over a session of its own, and requests for it go over these sessions only
(`Attributed`).

While it is asked for no other status than paused and provisioned, a node stays with one listener
and everything that it says is accepted. And what a request records has been reported before: the
node reports a new status ahead of its answer, and both come over one session, so whoever has the
answer has taken in the report.

## Main statements

* `Attributed.step`: every move in which nobody else speaks for the node keeps it.
* `Attributed.accepts_of_intake`: what is taken in of the node is accepted.
* `Attributed.exists_report`: what a request records was reported before.
-/

namespace NodeAgent

/-- Whether a frame is an info of a node. -/
def NodeFrame.names (x : NodeFrame) (node : NodeId) : Bool :=
  match x.message with
  | some (.info info) => decide (info.nodeId = node)
  | _ => false

theorem NodeFrame.names_of_info {x : NodeFrame} {info : NodeInfo}
    (h : x.message = some (.info info)) (node : NodeId) :
    x.names node = decide (info.nodeId = node) := by
  rw [names, h]

/-- A request to pause or to resume leads to a status of the listener on which it is permitted. -/
theorem Request.target_mem_allowed {r : Request} {node : NodeId} {before t : NodeStatus}
    {allowed : List NodeStatus} (h : r = .pauseNode node ∨ r = .resumeNode node)
    (ht : r.target? = some t) (hpermitted : r.permitted? = some allowed)
    (hbefore : before ∈ allowed) : t ∈ before.listener.allowed := by
  rcases h with rfl | rfl
  · cases ht
    cases hpermitted
    rw [List.mem_singleton.mp hbefore]
    decide
  · cases ht
    cases hpermitted
    rw [List.mem_singleton.mp hbefore]
    decide

namespace Registry

variable {r : Registry} {mv : Move} {node : NodeId} {k : Nat} {info : NodeInfo}

/-- A registration has nothing to do with a node: what it brought is not of the node, and its stream
is not the node's. -/
structure Strange (r : Registry) (node : NodeId) (k : Nat) : Prop where
  brought : ∀ g, r.registration? k = some g → ∀ x, .frame x ∈ g.arrived → x.names node = false
  stream : ∀ t, r.stream? k = some t → t.node ≠ node

/-- It stays so as long as nothing of the node is brought. -/
theorem Strange.step (h : r.Strange node k)
    (hbrings : ∀ x, Brings mv k (.frame x) → x.names node = false) :
    (r.step mv).Strange node k := by
  refine ⟨fun g hg x hx ↦ ?_, fun t ht ↦ ?_⟩
  · rcases arrived_step hg hx with ⟨g₀, hg₀, hx⟩ | hx
    · exact h.brought g₀ hg₀ x hx
    · exact hbrings x hx
  · cases ht₀ : r.stream? k with
    | none =>
      -- the stream was admitted on an info that had been brought
      obtain ⟨g, deadline, now, id, info, rest, -, hg, -, harrived, rfl⟩ :=
        accepts_of_stream_new ht₀ ht
      have hstrange := h.brought g hg ⟨id, some (.info info)⟩
        (by rw [harrived]; exact List.mem_cons_self)
      simpa [NodeFrame.names] using hstrange
    | some t₀ =>
      obtain ⟨l, hl⟩ := stream?_step ht₀ mv
      rw [ht, Option.some.injEq] at hl
      rw [hl, Stream.node_run]
      exact h.stream t₀ ht₀

theorem Strange.nodeId_ne (h : r.Strange node k) (hin : (k, info) ∈ r.intake mv) :
    info.nodeId ≠ node := by
  obtain ⟨g, x, hg, -, hx, hinfo⟩ := exists_unread_of_intake hin
  obtain ⟨a, ha, hax⟩ := List.mem_filterMap.mp hx
  cases a with
  | fault => cases hax
  | frame y =>
    obtain rfl := Option.some.inj hax
    simpa [NodeFrame.names_of_info hinfo] using h.brought g hg y ha

end Registry

namespace Roaming

variable {σ τ : Type} {s : Roaming σ τ} {node : NodeId} {status : τ → NodeStatus}
  {sound : τ → Prop} {reports : List (Nat × NodeInfo)} {k i n : Nat} {l : Listener}
  {q : Registry.Move} {mv : Move σ}

/-! ## Runs in which nobody else speaks for the node -/

/-- Whether a move leaves it to the node to speak for itself: nobody else brings an info of it, and
its record is not changed from outside. -/
def respects (s : Roaming σ τ) (node : NodeId) : Move σ → Bool
  | .main (.registry (.arrive _ arrived _ _)) =>
    (arrived.filterMap Arrival.frame?).all fun x ↦ !x.names node
  | .main (.registry (.receive _ (.frame x))) => !x.names node
  | .main (.registry (.store store)) =>
    decide (store.status? node = s.main.registry.store.status? node)
  | _ => true

/-- Whether all moves of a run leave it to the node to speak for itself. -/
def isFair (s : Roaming σ τ) (node : NodeId) : List (Move σ) → Bool
  | [] => true
  | mv :: moves => s.respects node mv && (s.step mv).isFair node moves

theorem isFair_concat (s : Roaming σ τ) (node : NodeId) (moves : List (Move σ)) (mv : Move σ) :
    s.isFair node (moves ++ [mv]) = (s.isFair node moves && (s.run moves).respects node mv) := by
  induction moves generalizing s with
  | nil => simp [isFair, run]
  | cons mv' moves ih =>
    rw [List.cons_append, isFair, ih, isFair, Bool.and_assoc]
    rfl

theorem names_of_brings {x : NodeFrame} (h : s.respects node (.main (.registry q)) = true)
    (hx : Registry.Brings q k (.frame x)) : x.names node = false := by
  rcases hx with rfl | ⟨allowed, arrived, ended, now, rfl, hx⟩
  · simpa [respects] using h
  · have hall := List.all_eq_true.mp h x (List.mem_filterMap.mpr ⟨.frame x, hx, rfl⟩)
    simpa using hall

/-- What a move brings over a registration that is not one of the node's is not of the node. -/
theorem exists_registry_step_of_respects (hconduct : Conduct s node status sound)
    (h : s.respects node mv = true) :
    ∃ q, (s.step mv).main.registry = s.main.registry.step q ∧
      ∀ k x, s.said k = [] → Registry.Brings q k (.frame x) → x.names node = false := by
  have hnothing : ∀ {q : Registry.Move}, (∀ k a, q ≠ .receive k a) →
      (∀ allowed arrived ended now, q ≠ .arrive allowed arrived ended now) →
      ∀ k x, s.said k = [] → Registry.Brings q k (.frame x) → x.names node = false := by
    rintro q hreceive harrive k x - (hx | ⟨_, _, _, _, hx, -⟩)
    · exact absurd hx (hreceive _ _)
    · exact absurd hx (harrive _ _ _ _)
  have hmain := s.mainStep mv
  generalize (s.step mv).main = a at hmain ⊢
  cases hmain with
  | @own m _ =>
    obtain ⟨q, hq, rfl | ⟨store, rfl⟩ | ⟨g, id, request, timeout, rfl⟩⟩ :=
      s.main.exists_registry_step m
    · exact ⟨q, hq, fun k x _ ↦ names_of_brings h⟩
    · exact ⟨_, hq, hnothing nofun nofun⟩
    · exact ⟨_, hq, hnothing nofun nofun⟩
  | rests _ => exact ⟨.store s.main.registry.store, rfl, hnothing nofun nofun⟩
  | @carried _ q _ hq =>
    refine ⟨q, rfl, fun k x hk hx ↦ ?_⟩
    cases hq with
    | begins l now =>
      rcases hx with hx | ⟨_, _, _, _, hx, hmem⟩
      · cases hx
      · obtain ⟨-, rfl, -⟩ := Registry.Move.arrive.inj hx
        cases hmem
    | down j => exact hnothing (q := .use j .take) nofun nofun k x hk hx
    | up hup =>
      rcases hx with hx | ⟨_, _, _, _, hx, -⟩
      · -- what goes up over a session the node said
        obtain ⟨rfl, -⟩ := Registry.Move.receive.inj hx
        rw [(hconduct.silent _ hk).2] at hup
        cases hup
      · cases hx

/-- Requests that were accepted stay what they are. -/
theorem forwards_step (mv : Move σ) {f : Forward} (hf : s.main.forwards[n]? = some f) :
    ∃ f', (s.step mv).main.forwards[n]? = some f' ∧ f'.request = f.request := by
  rcases s.main_step mv with h | ⟨m, h, -⟩
  · exact ⟨f, h ▸ hf, rfl⟩
  · obtain ⟨f', hf', heff⟩ := Agent.forward_step hf m
    exact ⟨f', h ▸ hf', heff.request⟩

/-! ## What belongs to the node -/

/-- What has to do with the node is over sessions of its own, and what it is asked for are forwarded
requests. -/
structure Attributed (s : Roaming σ τ) (node : NodeId) : Prop where
  strange : ∀ k, s.said k = [] → s.main.registry.Strange node k
  own : ∀ p c, s.main.registry.call? p = some c →
    ∃ t, s.main.registry.stream? p.1 = some t ∧ t.node = c.request.node
  asked : ∀ p c, s.main.registry.call? p = some c → ∃ f ∈ s.main.forwards, f.request = c.request

/-- The node is asked for no other status than paused and provisioned. -/
def IsCalm (s : Roaming σ τ) (node : NodeId) : Prop :=
  ∀ f ∈ s.main.forwards, f.request.node = node → f.request.target?.isSome = true →
    f.request = .pauseNode node ∨ f.request = .resumeNode node

theorem IsCalm.of_step (h : (s.step mv).IsCalm node) : s.IsCalm node := by
  intro f hf hnode htarget
  obtain ⟨n, hn⟩ := List.mem_iff_getElem?.mp hf
  obtain ⟨f', hf', hrequest⟩ := forwards_step mv hn
  rw [← hrequest] at hnode htarget ⊢
  exact h f' (List.mem_of_getElem? hf') hnode htarget

namespace Attributed

theorem of_new (hregistrations : s.main.registry.registrations = []) : s.Attributed node := by
  have hnone : ∀ k, s.main.registry.registration? k = none := fun k ↦ by
    rw [Registry.registration?, hregistrations]
    rfl
  have hstream : ∀ k, s.main.registry.stream? k = none := fun k ↦ by
    rw [Registry.stream?, hnone]
    rfl
  have hcall : ∀ p, s.main.registry.call? p = none := fun p ↦ by
    rw [Registry.call?, hstream]
    rfl
  refine ⟨fun k _ ↦ ⟨fun g hg ↦ ?_, fun t ht ↦ ?_⟩, fun p c hc ↦ ?_, fun p c hc ↦ ?_⟩
  · cases (hnone k).symm.trans hg
  · cases (hstream k).symm.trans ht
  · cases (hcall p).symm.trans hc
  · cases (hcall p).symm.trans hc

/-- **Every move in which nobody else speaks for the node keeps it.** -/
theorem step (h : s.Attributed node) (hs : Followed s node status sound reports)
    (hmv : s.respects node mv = true) : (s.step mv).Attributed node := by
  obtain ⟨q, hq, hbrings⟩ := exists_registry_step_of_respects hs.conduct hmv
  -- where a call is from: it was there before, or it was made over a link
  have horigin : ∀ p c, (s.step mv).main.registry.call? p = some c →
      (∃ t, s.main.registry.stream? p.1 = some t ∧ t.node = c.request.node) ∧
        ∃ f ∈ s.main.forwards, f.request = c.request := by
    intro p c hc
    cases hd : s.main.registry.call? p with
    | none =>
      obtain ⟨hlinked, hasked⟩ := link_of_call_new hd hc
      obtain ⟨t, ht, hown, -⟩ := hs.regular.exists_open_of_linked hlinked
      exact ⟨⟨t, ht, hown⟩, hasked⟩
    | some d =>
      rw [hq] at hc
      obtain ⟨c', hc', hev⟩ := Registry.evolves_step hs.accounted.steady.consistent q hd
      obtain rfl := Option.some.inj (hc.symm.trans hc')
      rw [hev.request]
      exact ⟨h.own p d hd, h.asked p d hd⟩
  refine ⟨fun k hk ↦ ?_, fun p c hc ↦ ?_, fun p c hc ↦ ?_⟩
  · have hsilent : s.said k = [] := List.prefix_nil.mp (hk ▸ s.said_step mv k)
    rw [hq]
    exact (h.strange k hsilent).step fun x ↦ hbrings k x hsilent
  · obtain ⟨⟨t, ht, hown⟩, -⟩ := horigin p c hc
    obtain ⟨moves, hmoves⟩ := Registry.stream?_step ht q
    rw [hq]
    exact ⟨_, hmoves, (t.node_run moves).trans hown⟩
  · obtain ⟨-, f, hf, hrequest⟩ := horigin p c hc
    obtain ⟨n, hn⟩ := List.mem_iff_getElem?.mp hf
    obtain ⟨f', hf', hsame⟩ := forwards_step mv hn
    exact ⟨f', List.mem_of_getElem? hf', hsame.trans hrequest⟩

/-- A request for the node is made over a session of the node. -/
theorem said_of_call {c : Call} (h : s.Attributed node)
    (hc : s.main.registry.call? (k, i) = some c) (hnode : c.request.node = node) :
    s.said k ≠ [] := by
  intro hk
  obtain ⟨t, ht, hown⟩ := h.own _ c hc
  exact (h.strange k hk).stream t ht (hown.trans hnode)

/-- What the node executed was forwarded to it. -/
theorem exists_forward_of_executed (h : s.Attributed node)
    (hs : Followed s node status sound reports) {e : Execution τ} (he : e ∈ s.executed) :
    ∃ f ∈ s.main.forwards, f.request.node = node ∧ e.frame.request = some f.request := by
  obtain ⟨i, c, hc, hframe⟩ := hs.accounted.exists_call_of_executed he
  obtain ⟨t, ht, hown⟩ := h.own _ c hc
  obtain ⟨g, read, hheard, -⟩ := hs.heard _ (hs.conduct.said_of_executed he)
  obtain ⟨f, hf, hrequest⟩ := h.asked _ c hc
  refine ⟨f, hf, ?_, ?_⟩
  · rw [hrequest, ← hown]
    exact hheard.own t ht
  · rw [hrequest, ← hframe]
    rfl

/-! ## What is accepted -/

/-- **All that a calm node says is accepted.** -/
theorem mem_allowed_of_said (h : s.Attributed node) (hs : Followed s node status sound reports)
    (hcalm : s.IsCalm node) (hspoken : Spoken s node k l) {x : NodeFrame} (hx : x ∈ s.said k)
    {info : NodeInfo} (hinfo : x.message = some (.info info)) : info.status ∈ l.allowed := by
  obtain ⟨first, -, hfirst, -, hwords⟩ := hspoken.words
  rw [hwords] at hx
  rcases List.mem_cons.mp hx with rfl | hx
  · rw [← NodeMessage.info.inj (Option.some.inj hinfo)]
    exact hfirst
  · obtain ⟨e, he, hx⟩ := List.mem_flatMap.mp hx
    obtain ⟨he, hsession⟩ := List.mem_filter.mp he
    obtain ⟨r, hchange⟩ := hs.conduct.change_of_info hs.accounted hs.reliable he hx hinfo
    obtain ⟨allowed, hpermitted, hbefore⟩ := hchange.permitted
    obtain ⟨f, hf, hnode, hrequest⟩ := h.exists_forward_of_executed hs he
    obtain rfl : r = f.request := Option.some.inj (hchange.request.symm.trans hrequest)
    -- the listener is the one that the status before called for
    obtain ⟨g, hg, hallowed⟩ := hs.conduct.placed e he
    obtain ⟨g', hg', hgate⟩ := hspoken.gate
    rw [of_decide_eq_true hsession] at hg
    obtain rfl := Option.some.inj (hg.symm.trans hg')
    rw [← hgate, hallowed]
    have hasked := hcalm f hf hnode (by rw [hchange.target]; rfl)
    exact Request.target_mem_allowed hasked hchange.target hpermitted hbefore

/-- **What the main node takes in of a calm node** the node said, and it is accepted. -/
theorem accepts_of_intake (h : s.Attributed node) (hs : Followed s node status sound reports)
    (hcalm : s.IsCalm node) {info : NodeInfo} (hin : (k, info) ∈ s.main.registry.intake q)
    (hnode : info.nodeId = node) :
    s.main.registry.accepts (k, info) = true ∧ ∃ x ∈ s.said k, x.message = some (.info info) := by
  have hk : s.said k ≠ [] := fun hk ↦ (h.strange k hk).nodeId_ne hin hnode
  obtain ⟨l, hspoken⟩ := hs.conduct.spoken k hk
  obtain ⟨g, read, hgate, hheard, -⟩ := hs.heard_over hspoken
  have hg := hheard.registration
  obtain ⟨x, hx, hinfo, hsplit⟩ := hheard.exists_ahead_of_intake hin
  have hsaid : x ∈ s.said k := by
    rw [hsplit]
    exact List.mem_append_right _ (List.mem_append_left _ hx)
  refine ⟨?_, x, hsaid, hinfo⟩
  have hstream : g.stream?.all (·.node = info.nodeId) = true := by
    cases ht : g.stream? with
    | none => rfl
    | some t =>
      have hstream : s.main.registry.stream? k = some t := by
        rw [Registry.stream?, hg, Option.bind_some, ht]
      rw [Option.all_some, hheard.own t hstream, hnode]
      exact decide_eq_true rfl
  rw [Registry.accepts, hg, Option.any_some, Registration.accepts, hstream, Bool.true_and, hgate]
  exact decide_eq_true (h.mem_allowed_of_said hs hcalm hspoken hsaid hinfo)

end Attributed

/-! ## What is recorded was reported -/

/-- The answer that a call was given, in what the node said: the execution that it is from. -/
theorem Followed.exists_execution_of_read (hs : Followed s node status sound reports) {c : Call}
    {response : Response} (hc : s.main.registry.call? (k, i) = some c)
    {front back : List NodeFrame}
    (hsaid : s.said k = front ++ ⟨c.id, some (.response response)⟩ :: back) :
    ∃ e ∈ s.executed, e.session = k ∧ e.frame = c.frame ∧
      response = (s.site.answer c.request e.before).1.1 ∧
        ∃ ahead behind, e.reply.frames =
          ahead ++ ⟨c.id, some (.response response)⟩ :: behind ∧ ahead ⊆ front := by
  obtain ⟨l, hspoken⟩ := hs.conduct.spoken k (by rw [hsaid]; simp)
  obtain ⟨first, -, -, -, hwords⟩ := hspoken.words
  rw [hsaid] at hwords
  cases front with
  | nil => cases (NodeFrame.mk.inj (List.cons.inj hwords).1).2
  | cons x front =>
    obtain ⟨-, hanswers⟩ := List.cons.inj hwords
    obtain ⟨es, e, es', ahead, behind, hover, hframes, rfl, -⟩ :=
      Conduct.exists_of_flatMap_eq hanswers.symm
    obtain ⟨he, hsession⟩ : e ∈ s.executed ∧ e.session = k := by
      have hmem : e ∈ s.over k := hover ▸ by simp
      exact ⟨List.mem_of_mem_filter hmem, of_decide_eq_true (List.mem_filter.mp hmem).2⟩
    have hmem : (⟨c.id, some (.response response)⟩ : NodeFrame) ∈
        (s.site.serve e.frame e.before).1.frames := by
      rw [hs.accounted.reply_eq he, hframes]
      simp
    obtain ⟨r, hr, hid, hanswer⟩ := Site.answer_of_mem_serve hmem rfl
    have hframe := (hs.accounted.frame_of_id hc he hid.symm).2
    rw [hframe] at hr
    obtain rfl : c.request = r := Option.some.inj hr
    refine ⟨e, he, hsession, hframe, hanswer, ahead, behind, hframes, fun y hy ↦ ?_⟩
    exact List.mem_cons_of_mem x (List.mem_append_right _ hy)

/-- **What a request records was reported before**: the node executed the request, reported the new
status, and the main node has taken in that report. -/
theorem Attributed.exists_report (h : s.Attributed node) (hs : Followed s node status sound reports)
    {f : Forward} {t : NodeStatus} (hf : s.main.forwards[n]? = some f)
    (hnode : f.request.node = node) (ht : f.recording? = some t) :
    ∃ e ∈ s.executionsOf n, ∃ info : NodeInfo, info.nodeId = node ∧ info.status = t ∧
      ⟨"", some (.info info)⟩ ∈ e.reply.frames ∧ (e.session, info) ∈ reports := by
  obtain ⟨-, response, since, hphase, hnone, htarget⟩ := Agent.recording?_eq_some.mp ht
  obtain ⟨p, c, hcalls, hc, hrequest, hr⟩ := hs.accounted.steady.exists_call_of_finished hf hphase
  obtain ⟨g, read, hheard, hreported⟩ := hs.heard p.1 (h.said_of_call hc (hrequest ▸ hnode))
  -- what the call returned it was given, and what it was given was read
  obtain ⟨stream, hstream, hcs⟩ := Registry.stream?_of_call? hc
  have hslot := (hs.accounted.steady.consistent _ stream hstream).answered p.2 c _ hcs
    (Call.result?_eq_some.mp (Call.result?_of_response? hr))
  obtain ⟨front, back, hread⟩ := List.append_of_mem (hheard.filled p.2 c _ hc hslot).1
  obtain ⟨rest, hsaid⟩ := hheard.soFar
  rw [hread, List.append_assoc, List.cons_append] at hsaid
  obtain ⟨e, he, hsession, hframe, hanswer, ahead, behind, hframes, hsub⟩ :=
    hs.exists_execution_of_read hc hsaid.symm
  have hnew : e.reply.newStatus = some t := by
    rw [← hs.accounted.reply_eq he, hframe, Site.serve]
    exact Site.newStatus_answer hs.reliable.toKeepsStatus (hrequest ▸ htarget)
      (hanswer ▸ hnone)
  obtain ⟨info, _, hstatus, hchange⟩ :=
    hs.conduct.exists_change hs.accounted hs.reliable he hnew
  -- the report is ahead of the response, so it was read as well
  have hahead : (⟨"", some (.info info)⟩ : NodeFrame) ∈ ahead := by
    have hall := hframes.symm.trans hchange.frames
    cases ahead with
    | nil => cases (NodeFrame.mk.inj (List.cons.inj hall).1).2
    | cons y ahead =>
      rw [(List.cons.inj hall).1]
      exact List.mem_cons_self
  refine ⟨e, List.mem_filter.mpr ⟨he, ?_⟩, info, hchange.own, hstatus, ?_, ?_⟩
  · rw [hcalls, hframe]
    simp [hc, Call.frame]
  · rw [hframes]
    exact List.mem_append_left _ hahead
  · rw [hsession]
    refine hreported ⟨"", some (.info info)⟩ ?_ info rfl
    rw [hread]
    exact List.mem_append_left _ (hsub hahead)

end Roaming

end NodeAgent
