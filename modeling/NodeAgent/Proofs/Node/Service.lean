import NodeAgent.Node.Rehearsal
import NodeAgent.Node.Service

/-!
# What a node answers

A request is answered by one response, of its own kind and under its own identifier, and it comes
after whatever else the node says. What the response says about the node's status is true: a request
that leads to a status and is answered without a failure has led to it, and one that is answered
with a failure has left the status as it was.

The second part needs the node's services to keep to their roles (`KeepsStatus`): only the setting
of a status changes it, and a setting that fails does not.

## Main statements

* `serve_frames`: what serving a request says.
* `status_answer`: what the response says about the status.
-/

namespace NodeAgent

namespace Action

variable {σ α β : Type} {m : Action σ α} {w w' : σ}

theorem andThen_ok {a : α} (h : m w = (.ok a, w')) (f : α → Action σ β) :
    m.andThen f w = f a w' := by
  unfold andThen
  rw [h]

theorem andThen_error {e : ServiceError} (h : m w = (.error e, w')) (f : α → Action σ β) :
    m.andThen f w = (.error e, w') := by
  unfold andThen
  rw [h]

end Action

namespace Site

variable {σ : Type} {site : Site σ} {status : σ → NodeStatus} {f : RequestFrame} {r : Request}
  {w : σ} {t : NodeStatus} {allowed : List NodeStatus}

/-- The services of a node keep to their roles towards its status: it is read as it was last set, a
setting that fails changes nothing, and provisioning leaves it alone. -/
structure KeepsStatus (site : Site σ) (status : σ → NodeStatus) : Prop where
  read : ∀ w info, site.nodeInfo w = .ok info → info.status = status w
  set : ∀ t w w', site.setStatus t w = (.ok (), w') → status w' = t
  failed : ∀ t w e w', site.setStatus t w = (.error e, w') → status w' = status w
  performed : ∀ r w, status (site.perform r w).2 = status w

/-! ## One response of the right kind -/

theorem kind_provide (subject : Except ServiceError String) (r : Request) (w : σ) :
    (site.provide subject r w).1.kind = r.kind := by
  have hfailed : ∀ (r : Request) (e : ErrorInfo), (r.emptyResponse.withError e).kind = r.kind := by
    intro r e
    rw [Response.kind_withError, Request.kind_emptyResponse]
  unfold provide
  split
  · split
    · rfl
    · exact hfailed (.certTypes _) _
  · split
    · exact hfailed (.createKey _ _ _ _) _
    · split
      · rfl
      · exact hfailed (.createKey _ _ _ _) _
  · split
    · rfl
    · exact hfailed (.applyCert _ _ _) _
  · exact r.kind_emptyResponse

theorem kind_answer (site : Site σ) (r : Request) (w : σ) :
    (site.answer r w).1.1.kind = r.kind := by
  unfold answer
  split
  · split <;> simp
  · exact kind_provide _ r w

/-- **Serving a request says one response**, last and under the identifier of the request, and
before it at most what the node reports about itself. -/
theorem serve_frames (site : Site σ) (hr : f.request = some r) (w : σ) :
    ∃ news, (site.serve f w).1.frames =
        news ++ [⟨f.id, some (.response (site.answer r w).1.1)⟩] ∧
      ∀ x ∈ news, ∃ info, x.message = some (.info info) := by
  unfold serve
  rw [hr]
  refine ⟨_, rfl, fun x hx ↦ ?_⟩
  split at hx
  · unfold report at hx
    split at hx
    · rename_i info _
      rw [List.mem_singleton.mp hx]
      exact ⟨info, rfl⟩
    · cases hx
  · cases hx

/-- A response among what serving a frame says is the answer to the request in it. -/
theorem answer_of_mem_serve {x : NodeFrame} {response : Response}
    (hx : x ∈ (site.serve f w).1.frames) (hm : x.message = some (.response response)) :
    ∃ r, f.request = some r ∧ x.id = f.id ∧ response = (site.answer r w).1.1 := by
  cases hr : f.request with
  | none =>
    rw [serve, hr] at hx
    cases hx
  | some r =>
    obtain ⟨news, hframes, hnews⟩ := site.serve_frames hr w
    rw [hframes] at hx
    rcases List.mem_append.mp hx with hx | hx
    · obtain ⟨info, hinfo⟩ := hnews x hx
      rw [hm] at hinfo
      cases hinfo
    · obtain rfl := List.mem_singleton.mp hx
      exact ⟨r, rfl, rfl, (NodeMessage.response.inj (Option.some.inj hm)).symm⟩

theorem world_serve (site : Site σ) (hr : f.request = some r) (w : σ) :
    (site.serve f w).2 = (site.answer r w).2 := by
  unfold serve
  rw [hr]

/-! ## What the response says about the status -/

theorem exists_permitted_of_target (h : r.target? = some t) :
    ∃ allowed, r.permitted? = some allowed := by
  cases r <;> first | exact ⟨_, rfl⟩ | cases h

theorem requireStatus_of_ok {info : NodeInfo} (h : site.nodeInfo w = .ok info) :
    site.requireStatus allowed w =
      if info.status ∈ allowed then (.ok (), w) else (.error (notPermitted info.status), w) := by
  have hread : Action.read site.nodeInfo w = (.ok info, w) := by rw [Action.read, h]
  rw [requireStatus, Action.andThen_ok hread]
  split <;> rfl

theorem requireStatus_of_error {e : ServiceError} (h : site.nodeInfo w = .error e) :
    site.requireStatus allowed w = (.error e, w) := by
  have hread : Action.read site.nodeInfo w = (.error e, w) := by rw [Action.read, h]
  rw [requireStatus, Action.andThen_error hread]

/-- Looking at the status changes nothing. -/
theorem exists_requireStatus (site : Site σ) (allowed : List NodeStatus) (w : σ) :
    ∃ result, site.requireStatus allowed w = (result, w) := by
  cases hinfo : site.nodeInfo w with
  | error e => exact ⟨.error e, requireStatus_of_error hinfo⟩
  | ok info =>
    rw [requireStatus_of_ok hinfo]
    split
    · exact ⟨.ok (), rfl⟩
    · exact ⟨_, rfl⟩

/-- A request that leads to a status succeeds in it, or fails without a change. -/
theorem status_live (h : site.KeepsStatus status) (ht : r.target? = some t)
    (allowed : List NodeStatus) (w : σ) :
    (∃ w', site.live r allowed w = (.ok (some t), w') ∧ status w' = t) ∨
      ∃ e w', site.live r allowed w = (.error e, w') ∧ status w' = status w := by
  unfold live
  obtain ⟨required, hrequired⟩ := site.exists_requireStatus allowed w
  cases required with
  | error e => exact Or.inr ⟨e, w, Action.andThen_error hrequired _, rfl⟩
  | ok _ =>
    rw [Action.andThen_ok hrequired]
    obtain ⟨⟨performed, w₁⟩, hperformed⟩ : ∃ p, site.perform r w = p := ⟨_, rfl⟩
    have hkept : status w₁ = status w := by
      have hstatus := h.performed r w
      rwa [hperformed] at hstatus
    cases performed with
    | error e => exact Or.inr ⟨e, w₁, Action.andThen_error hperformed _, hkept⟩
    | ok _ =>
      rw [Action.andThen_ok hperformed, ht]
      dsimp only
      obtain ⟨⟨written, w₂⟩, hwritten⟩ : ∃ p, site.setStatus t w₁ = p := ⟨_, rfl⟩
      cases written with
      | error e =>
        have hstatus := (h.failed t w₁ e w₂ hwritten).trans hkept
        exact Or.inr ⟨e, w₂, Action.andThen_error hwritten _, hstatus⟩
      | ok _ => exact Or.inl ⟨w₂, Action.andThen_ok hwritten _, h.set t w₁ w₂ hwritten⟩

/-- **The response tells the truth about the status**: without a failure the node has the status
that the request leads to, and with one it has the status that it had. -/
theorem status_answer (h : site.KeepsStatus status) (ht : r.target? = some t) (w : σ) :
    ((site.answer r w).1.1.error = none → status (site.answer r w).2 = t) ∧
      ((site.answer r w).1.1.error ≠ none → status (site.answer r w).2 = status w) := by
  obtain ⟨allowed, hallowed⟩ := exists_permitted_of_target ht
  have hempty : r.emptyResponse.error = none := by cases r <;> rfl
  unfold answer
  rw [hallowed]
  dsimp only
  rcases status_live h ht allowed w with ⟨w', hlive, hstatus⟩ | ⟨e, w', hlive, hstatus⟩
  · rw [hlive]
    exact ⟨fun _ ↦ hstatus, fun hne ↦ absurd hempty hne⟩
  · rw [hlive]
    refine ⟨fun hnone ↦ ?_, fun _ ↦ hstatus⟩
    rw [Response.error_withError] at hnone
    cases hnone

/-- A request that leads to a status and is answered without a failure changed the status. -/
theorem newStatus_answer (h : site.KeepsStatus status) (ht : r.target? = some t)
    (hnone : (site.answer r w).1.1.error = none) : (site.answer r w).1.2 = some t := by
  obtain ⟨allowed, hallowed⟩ := exists_permitted_of_target ht
  unfold answer at hnone ⊢
  rw [hallowed] at hnone ⊢
  dsimp only at hnone ⊢
  rcases status_live h ht allowed w with ⟨w', hlive, -⟩ | ⟨e, w', hlive, -⟩
  · rw [hlive]
  · rw [hlive, Response.error_withError] at hnone
    cases hnone

end Site

/-- The services of a rehearsed site keep to their roles. -/
theorem Rehearsal.keepsStatus (hasIdentity : Bool) :
    (Rehearsal.site hasIdentity).KeepsStatus fun w ↦ w.node.status := by
  refine ⟨fun w info h ↦ ?_, fun t w w' h ↦ ?_, fun t w e w' h ↦ ?_, fun r w ↦ ?_⟩
  · change Rehearsal.guarded .getNodeInfo (·.node) w = .ok info at h
    unfold Rehearsal.guarded at h
    split at h
    · cases h
    · cases h
      rfl
  · change Rehearsal.setStatus t w = (.ok (), w') at h
    unfold Rehearsal.setStatus Action.andThen at h
    split at h
    · rw [← (Prod.mk.inj h).2]
      exact NodeInfo.status_withStatus _ t
    · cases (Prod.mk.inj h).1
  · change Rehearsal.setStatus t w = (.error e, w') at h
    unfold Rehearsal.setStatus Action.andThen at h
    split at h
    · cases (Prod.mk.inj h).1
    · rename_i hscripted
      rw [← (Prod.mk.inj h).2, ← (Prod.mk.inj hscripted).2]
      rfl
  · cases r <;> rfl

end NodeAgent
