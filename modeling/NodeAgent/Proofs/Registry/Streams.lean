import NodeAgent.Proofs.Registry.Intake

/-!
# What a move of the registry does to a stream

A stream comes into being when its registration is admitted and is never replaced by another one
under the same number. From then on it is torn down, used, or delivered responses that its own
registration brought, and nothing else happens to it, whatever move the registry makes.

## Main statements

* `stream_step`, `accepts_of_stream_new`: what a move makes of a stream, and where a new one comes
  from.
* `forall_stream_step`: what holds of new streams and outlasts their moves holds of all streams.
-/

namespace NodeAgent.Registry

variable {r : Registry} {j : Nat} {mv : Move}

/-- The delivery of a response that a registration brought and that a move makes its reader take. -/
def Delivers (r : Registry) (mv : Move) (j : Nat) (m : Stream.Move) : Prop :=
  ∃ late g, mv = .read j late ∧ r.registration? j = some g ∧ IsDeliveryFrom g.arrived m

/-- What a move of the registry made of the stream of a registration. -/
inductive StreamEffect (r : Registry) (mv : Move) (j : Nat) (s : Stream) : Stream → Prop where
  | deliver (l : List Stream.Move) : (∀ m ∈ l, r.Delivers mv j m) → StreamEffect r mv j s (s.run l)
  | close (l : List Stream.Move) : (∀ m ∈ l, r.Delivers mv j m) →
    StreamEffect r mv j s (s.run l).close
  | use {u : Stream.Use} : mv = .use j u → StreamEffect r mv j s (s.use u)

theorem StreamEffect.none (s : Stream) : StreamEffect r mv j s s := .deliver [] (by simp)

theorem stream_step {s : Stream} (hs : r.stream? j = some s) (mv : Move) :
    ∃ s', (r.step mv).stream? j = some s' ∧ StreamEffect r mv j s s' := by
  obtain ⟨g, reading, hg, hadmission⟩ := registration?_of_stream? hs
  obtain ⟨g', hg', heff⟩ := effect_step r mv hg
  have hmap : ∀ f : Stream → Stream, (g.mapStream f).admission = .admitted (f s) reading := by
    intro f
    rw [Registration.mapStream, hadmission]
  cases heff with
  | none => exact ⟨s, stream?_of_admitted hg' hadmission, .none s⟩
  | close _ => exact ⟨s.close, stream?_of_admitted hg' (hmap _), .close [] (by simp)⟩
  | refuse e _ hwaiting =>
    rw [hadmission] at hwaiting
    cases hwaiting
  | accept _ hwaiting _ =>
    rw [hadmission] at hwaiting
    cases hwaiting
  | take _ _ _ _ => exact ⟨s, stream?_of_admitted hg' hadmission, .none s⟩
  | @deliver _ late id m rest hmv hreading _ harrived =>
    rw [hadmission, Admission.admitted.injEq] at hreading
    obtain ⟨rfl, rfl⟩ := hreading
    refine ⟨_, stream?_of_admitted hg' rfl, .deliver [.deliver id (.response m)] fun m' hm' ↦ ?_⟩
    obtain rfl := List.mem_singleton.mp hm'
    exact ⟨late, g, hmv, hg, id, m, rfl, by rw [harrived]; exact List.mem_cons_self⟩
  | @stop _ late l hmv hreading _ hl =>
    rw [hadmission, Admission.admitted.injEq] at hreading
    obtain ⟨rfl, rfl⟩ := hreading
    exact ⟨_, stream?_of_admitted hg' rfl, .close l fun m hm ↦
      ⟨late, g, hmv, hg, hl.isDeliveryFrom hm⟩⟩
  | receive a _ _ => exact ⟨s, stream?_of_admitted hg' hadmission, .none s⟩
  | endInbound _ => exact ⟨s, stream?_of_admitted hg' hadmission, .none s⟩
  | use hmv => exact ⟨_, stream?_of_admitted hg' (hmap _), .use hmv⟩

/-- A stream comes into being when its registration is admitted on the info it opened with. -/
theorem accepts_of_stream_new {s' : Stream} (h : r.stream? j = none)
    (hs' : (r.step mv).stream? j = some s') : ∃ g deadline now id info rest,
      mv = .review j now ∧ r.registration? j = some g ∧ g.admission = .waiting deadline ∧
        g.arrived = .frame ⟨id, some (.info info)⟩ :: rest ∧ s' = { node := info.nodeId } := by
  cases hg : r.registration? j with
  | none =>
    obtain ⟨g', reading, hg', hadmission⟩ := registration?_of_stream? hs'
    obtain ⟨-, -, -, hnone⟩ := registration?_new r mv hg hg'
    rw [Registration.stream?, hadmission] at hnone
    cases hnone
  | some g =>
    have hstream : g.stream? = none := by
      rw [stream?, hg] at h
      exact h
    -- every effect but an admission needs a stream or leaves the registration without one
    have hmap := mapStream_of_none hstream
    obtain ⟨g', hg', heff⟩ := effect_step r mv hg
    have hs'' : g'.stream? = some s' := by
      rw [stream?, hg'] at hs'
      exact hs'
    have hnone : g'.stream? ≠ none := by
      rw [hs'']
      exact Option.some_ne_none s'
    have hadmitted : ∀ {s reading}, g.admission ≠ .admitted s reading := by
      intro s reading hadmission
      rw [Registration.stream?, hadmission] at hstream
      cases hstream
    cases heff with
    | none => exact absurd hstream hnone
    | close _ =>
      rw [hmap] at hnone
      exact absurd hstream hnone
    | refuse e _ _ => exact absurd rfl hnone
    | @accept deadline now id info rest hmv hwaiting harrived =>
      exact ⟨g, deadline, now, id, info, rest, hmv, rfl, hwaiting, harrived,
        (Option.some.inj hs'').symm⟩
    | take _ hreading _ _ => exact absurd hreading hadmitted
    | deliver _ hreading _ _ => exact absurd hreading hadmitted
    | stop _ hreading _ _ => exact absurd hreading hadmitted
    | receive a _ _ => exact absurd hstream hnone
    | endInbound _ => exact absurd hstream hnone
    | use _ =>
      rw [hmap] at hnone
      exact absurd hstream hnone

/-- A new stream is one without calls. -/
theorem stream_new {s' : Stream} (h : r.stream? j = none) (hs' : (r.step mv).stream? j = some s') :
    ∃ node, s' = { node } := by
  obtain ⟨_, _, _, _, info, _, _, _, _, _, hnew⟩ := accepts_of_stream_new h hs'
  exact ⟨info.nodeId, hnew⟩

/-- What holds of a stream without calls and outlasts its use, deliveries and tearing down holds of
every stream throughout. -/
theorem forall_stream_step {p : Stream → Prop} (hnew : ∀ node, p { node })
    (hdeliver : ∀ s id m, p s → p (s.step (.deliver id m))) (hclose : ∀ s, p s → p s.close)
    (huse : ∀ s u, p s → p (s.use u)) (h : ∀ j s, r.stream? j = some s → p s) (mv : Move) :
    ∀ j s, (r.step mv).stream? j = some s → p s := by
  have hrun : ∀ (l : List Stream.Move) (j : Nat), (∀ m ∈ l, r.Delivers mv j m) → ∀ s, p s →
      p (s.run l) := by
    intro l j
    induction l with
    | nil => exact fun _ _ hs ↦ hs
    | cons m l ih =>
      intro hl s hs
      obtain ⟨_, _, -, -, id, q, rfl, -⟩ := hl m List.mem_cons_self
      exact ih (fun m hm ↦ hl m (List.mem_cons_of_mem _ hm)) _ (hdeliver s id _ hs)
  intro j s' hs'
  cases hs : r.stream? j with
  | none =>
    obtain ⟨node, rfl⟩ := stream_new hs hs'
    exact hnew node
  | some s =>
    obtain ⟨s'', hs'', heff⟩ := stream_step hs mv
    rw [hs', Option.some.injEq] at hs''
    subst hs''
    cases heff with
    | deliver l hl => exact hrun l j hl _ (h j _ hs)
    | close l hl => exact hclose _ (hrun l j hl _ (h j _ hs))
    | use _ => exact huse _ _ (h j _ hs)

end NodeAgent.Registry
