import NodeAgent.Proofs.Node.Service

/-!
# A node that keeps its status

A node's status decides on which listener it registers, so what it says about its status while it
serves requests matters to more than the request at hand. If its info can be read at all times and
nothing but the setting of a status changes it (`Reliable`), a request either leaves the status as
it was and is answered by a response alone, or leads to its target and is answered by a report of
the new status and then an empty response.

Not every world of a site need be one that the node can come to, so `Reliable` speaks of the worlds
in a set that no service leaves.

## Main statements

* `Reliable.serve_of_newStatus`, `Reliable.serve_of_none`: the two ways of answering a request.
-/

namespace NodeAgent

namespace Site

variable {σ : Type} {site : Site σ} {node : NodeId} {status : σ → NodeStatus} {sound : σ → Prop}
  {f : RequestFrame} {r : Request} {w : σ} {t : NodeStatus}

/-- The info of the node can be read in every sound world and says the status that was set last, and
no service leaves the sound worlds. -/
structure Reliable (site : Site σ) (node : NodeId) (status : σ → NodeStatus) (sound : σ → Prop) :
    Prop extends KeepsStatus site status where
  info : ∀ w, sound w → ∃ info, site.nodeInfo w = .ok info ∧ info.nodeId = node
  provided : ∀ subject r w, status (site.provide subject r w).2 = status w
  sound_set : ∀ t w, sound w → sound (site.setStatus t w).2
  sound_perform : ∀ r w, sound w → sound (site.perform r w).2
  sound_provide : ∀ subject r w, sound w → sound (site.provide subject r w).2

/-- What comes of carrying out a request that concerns the node's life. -/
inductive Lives (site : Site σ) (status : σ → NodeStatus) (sound : σ → Prop) (r : Request)
    (allowed : List NodeStatus) (w : σ) : Except ServiceError (Option NodeStatus) × σ → Prop where
  | failed {e : ServiceError} {w' : σ} : status w' = status w → sound w' →
    Lives site status sound r allowed w (.error e, w')
  | done {w' : σ} : r.target? = none → status w' = status w → sound w' →
    Lives site status sound r allowed w (.ok none, w')
  | changed {t : NodeStatus} {w' : σ} : r.target? = some t → status w ∈ allowed → status w' = t →
    sound w' → Lives site status sound r allowed w (.ok (some t), w')

namespace Reliable

/-- What the info of the node says. -/
theorem exists_info (h : site.Reliable node status sound) (hw : sound w) :
    ∃ info, site.nodeInfo w = .ok info ∧ info.nodeId = node ∧ info.status = status w := by
  obtain ⟨info, hinfo, hnode⟩ := h.info w hw
  exact ⟨info, hinfo, hnode, h.read w info hinfo⟩

theorem lives (h : site.Reliable node status sound) (hw : sound w) (r : Request)
    (allowed : List NodeStatus) : Lives site status sound r allowed w (site.live r allowed w) := by
  obtain ⟨info, hinfo, -, hreads⟩ := h.exists_info hw
  have hread : Action.read site.nodeInfo w = (.ok info, w) := by rw [Action.read, hinfo]
  unfold live requireStatus
  by_cases hallowed : info.status ∈ allowed
  · have hrequired : ((Action.read site.nodeInfo).andThen fun info ↦
        if info.status ∈ allowed then Action.done () else .fail (notPermitted info.status)) w =
          (.ok (), w) := by
      rw [Action.andThen_ok hread, if_pos hallowed]
      rfl
    rw [Action.andThen_ok hrequired]
    obtain ⟨⟨performed, w₁⟩, hperformed⟩ : ∃ p, site.perform r w = p := ⟨_, rfl⟩
    have hkept := h.performed r w
    have hsound := h.sound_perform r w hw
    rw [hperformed] at hkept hsound
    cases performed with
    | error e =>
      rw [Action.andThen_error hperformed]
      exact .failed hkept hsound
    | ok _ =>
      rw [Action.andThen_ok hperformed]
      cases ht : r.target? with
      | none => exact .done ht hkept hsound
      | some t =>
        dsimp only
        obtain ⟨⟨written, w₂⟩, hwritten⟩ : ∃ p, site.setStatus t w₁ = p := ⟨_, rfl⟩
        have hsound₂ := h.sound_set t w₁ hsound
        rw [hwritten] at hsound₂
        cases written with
        | error e =>
          rw [Action.andThen_error hwritten]
          exact .failed ((h.failed t w₁ e w₂ hwritten).trans hkept) hsound₂
        | ok _ =>
          rw [Action.andThen_ok hwritten]
          exact .changed ht (hreads ▸ hallowed) (h.set t w₁ w₂ hwritten) hsound₂
  · have hrequired : ((Action.read site.nodeInfo).andThen fun info ↦
        if info.status ∈ allowed then Action.done () else .fail (notPermitted info.status)) w =
          (.error (notPermitted info.status), w) := by
      rw [Action.andThen_ok hread, if_neg hallowed]
      rfl
    rw [Action.andThen_error hrequired]
    exact .failed rfl hw

/-- What comes of a request: the status is as it was, or it is the target of the request, which was
permitted. -/
theorem answer (h : site.Reliable node status sound) (hw : sound w) (r : Request) :
    sound (site.answer r w).2 ∧
      (((site.answer r w).1.2 = none ∧ status (site.answer r w).2 = status w) ∨
        ∃ t allowed, (site.answer r w).1 = (r.emptyResponse, some t) ∧ r.target? = some t ∧
          r.permitted? = some allowed ∧ status w ∈ allowed ∧
          status (site.answer r w).2 = t) := by
  unfold Site.answer
  cases hpermitted : r.permitted? with
  | none => exact ⟨h.sound_provide _ r w hw, Or.inl ⟨rfl, h.provided _ r w⟩⟩
  | some allowed =>
    dsimp only
    have hlives := h.lives hw r allowed
    generalize site.live r allowed w = lived at hlives ⊢
    cases hlives with
    | failed hkept hsound => exact ⟨hsound, Or.inl ⟨rfl, hkept⟩⟩
    | done _ hkept hsound => exact ⟨hsound, Or.inl ⟨rfl, hkept⟩⟩
    | changed ht hallowed hstatus hsound =>
      exact ⟨hsound, Or.inr ⟨_, allowed, rfl, ht, rfl, hallowed, hstatus⟩⟩

theorem sound_serve (h : site.Reliable node status sound) (hw : sound w) (f : RequestFrame) :
    sound (site.serve f w).2 := by
  cases hr : f.request with
  | none =>
    rw [serve, hr]
    exact hw
  | some r =>
    rw [site.world_serve hr]
    exact (h.answer hw r).1

/-- **A frame that changes the status** is answered by a report of the new status and then an empty
response. -/
theorem serve_of_newStatus (h : site.Reliable node status sound) (hw : sound w)
    (hnew : (site.serve f w).1.newStatus = some t) :
    ∃ r allowed info, f.request = some r ∧ r.target? = some t ∧ r.permitted? = some allowed ∧
      status w ∈ allowed ∧ status (site.serve f w).2 = t ∧ info.nodeId = node ∧
      info.status = t ∧ (site.serve f w).1.frames =
        [⟨"", some (.info info)⟩, ⟨f.id, some (.response r.emptyResponse)⟩] := by
  cases hr : f.request with
  | none =>
    rw [serve, hr] at hnew
    cases hnew
  | some r =>
    have hserve : site.serve f w = (⟨(if (site.answer r w).1.2.isSome
        then site.report (site.answer r w).2 else []) ++
          [⟨f.id, some (.response (site.answer r w).1.1)⟩], (site.answer r w).1.2⟩,
        (site.answer r w).2) := by
      rw [serve, hr]
    rw [hserve] at hnew ⊢
    obtain ⟨hsound, ⟨hnone, -⟩ | ⟨t', allowed, hanswer, ht, hpermitted, hallowed, hstatus⟩⟩ :=
      h.answer hw r
    · rw [hnone] at hnew
      cases hnew
    · obtain rfl : t' = t := by
        rw [hanswer] at hnew
        exact Option.some.inj hnew
      obtain ⟨info, hinfo, hnode, hreads⟩ := h.exists_info hsound
      refine ⟨r, allowed, info, rfl, ht, hpermitted, hallowed, hstatus, hnode,
        hreads.trans hstatus, ?_⟩
      rw [hanswer]
      simp [report, hinfo]

/-- **A frame that does not change the status** is answered by at most a response. -/
theorem serve_of_none (h : site.Reliable node status sound) (hw : sound w)
    (hnew : (site.serve f w).1.newStatus = none) :
    status (site.serve f w).2 = status w ∧
      ∀ x ∈ (site.serve f w).1.frames, ∃ response, x = ⟨f.id, some (.response response)⟩ := by
  cases hr : f.request with
  | none =>
    rw [serve, hr]
    exact ⟨rfl, by simp⟩
  | some r =>
    have hnone : (site.answer r w).1.2 = none := by
      rw [serve, hr] at hnew
      exact hnew
    refine ⟨?_, fun x hx ↦ ?_⟩
    · rw [site.world_serve hr]
      obtain ⟨-, ⟨-, hkept⟩ | ⟨t, _, hanswer, -⟩⟩ := h.answer hw r
      · exact hkept
      · rw [hanswer] at hnone
        cases hnone
    · rw [serve, hr] at hx
      dsimp only at hx
      rw [hnone] at hx
      exact ⟨_, List.mem_singleton.mp hx⟩

end Reliable

end Site

/-- The worlds of a rehearsed site in which the node of a name can be read. -/
def Rehearsal.IsReadable (node : NodeId) (w : Rehearsal) : Prop :=
  w.failing.get? .getNodeInfo = none ∧ w.node.nodeId = node

/-- A rehearsed site is reliable as long as its info can be read. -/
theorem Rehearsal.reliable (hasIdentity : Bool) (node : NodeId) :
    (Rehearsal.site hasIdentity).Reliable node (fun w ↦ w.node.status)
      (Rehearsal.IsReadable node) := by
  have hprovide : ∀ subject r w,
      ((Rehearsal.site hasIdentity).provide subject r w).2.node = w.node ∧
        ((Rehearsal.site hasIdentity).provide subject r w).2.failing = w.failing := by
    intro subject r w
    -- what is provided is logged, and that is all
    have hscripted : ∀ {α : Type} {f args} {a : Rehearsal → α} {result : Except ServiceError α}
        {w' : Rehearsal}, Rehearsal.scripted f args a w = (result, w') →
          w'.node = w.node ∧ w'.failing = w.failing := by
      intro α f args a result w' h
      rw [← (Prod.mk.inj h).2]
      exact ⟨rfl, rfl⟩
    unfold Site.provide
    split
    · split <;> exact hscripted ‹_›
    · split
      · exact ⟨rfl, rfl⟩
      · split <;> exact hscripted ‹_›
    · split <;> exact hscripted ‹_›
    · exact ⟨rfl, rfl⟩
  refine { Rehearsal.keepsStatus hasIdentity with
    info := fun w hw ↦ ⟨w.node, ?_, hw.2⟩
    provided := fun subject r w ↦ congrArg NodeInfo.status (hprovide subject r w).1
    sound_set := fun t w hw ↦ ?_
    sound_perform := fun r w hw ↦ ?_
    sound_provide := fun subject r w hw ↦ ?_ }
  · change Rehearsal.guarded .getNodeInfo (·.node) w = _
    rw [Rehearsal.guarded, hw.1]
  · change Rehearsal.IsReadable node (Rehearsal.setStatus t w).2
    unfold Rehearsal.setStatus Action.andThen
    split
    · rename_i hscripted
      rw [← (Prod.mk.inj hscripted).2]
      exact hw
    · rename_i hscripted
      rw [← (Prod.mk.inj hscripted).2]
      exact hw
  · cases r <;> exact hw
  · rw [Rehearsal.IsReadable, (hprovide subject r w).1, (hprovide subject r w).2]
    exact hw

end NodeAgent
