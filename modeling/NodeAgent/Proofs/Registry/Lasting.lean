import NodeAgent.Proofs.Registry.Sending
import NodeAgent.Proofs.Registry.Soundness
import NodeAgent.Proofs.Stream.Teardown

/-!
# What lasts

A registration keeps the statuses it was accepted under, and its stream goes on as a run of its own:
it stays one of the same node, and once it is closed it stays closed. `Regular` collects the
invariants of the registry that later arguments start from, so that they need not know how each is
kept.

## Main statements

* `stream?_run`: a stream is there for good, and a run of the registry is a run of it.
* `Regular.run`: every run of a new registry ends in a regular one.
-/

namespace NodeAgent.Registry

variable {r : Registry} {j : Nat} {g g' : Registration} {mv : Move} {s : Stream}

/-! ## Registrations and streams -/

/-- A registration keeps the statuses that its listener accepts. -/
theorem allowed_step (hg : r.registration? j = some g)
    (hg' : (r.step mv).registration? j = some g') : g'.allowed = g.allowed := by
  obtain ⟨g₁, hg₁, heff⟩ := effect_step r mv hg
  rw [hg', Option.some.injEq] at hg₁
  subst hg₁
  have hmap : ∀ f, (g.mapStream f).allowed = g.allowed := by
    intro f
    unfold Registration.mapStream
    split <;> rfl
  cases heff with
  | close _ => exact hmap _
  | use _ => exact hmap _
  | _ => rfl

/-- A move of the registry is a run of each stream. -/
theorem stream?_step (hs : r.stream? j = some s) (mv : Move) :
    ∃ l, (r.step mv).stream? j = some (s.run l) := by
  obtain ⟨s', hs', heff⟩ := stream_step hs mv
  obtain ⟨l, rfl, -⟩ := heff.exists_run
  exact ⟨l, hs'⟩

/-- **A stream is there for good**, and a run of the registry is a run of it. -/
theorem stream?_run (hs : r.stream? j = some s) (moves : List Move) :
    ∃ l, (r.run moves).stream? j = some (s.run l) := by
  induction moves using List.reverseRecOn with
  | nil => exact ⟨[], hs⟩
  | append_singleton moves mv ih =>
    obtain ⟨l, hl⟩ := ih
    obtain ⟨l', hl'⟩ := stream?_step hl mv
    refine ⟨l ++ l', ?_⟩
    rw [run_concat, Stream.run_append]
    exact hl'

/-! ## Regular registries -/

/-- What holds of a registry between its moves, whatever they were. -/
structure Regular (r : Registry) (reports : List (Nat × NodeInfo)) : Prop where
  sound : r.Sound reports
  whole : ∀ j s, r.stream? j = some s → s.Whole
  keys : r.links.keys.Nodup

namespace Regular

variable {reports : List (Nat × NodeInfo)}

/-- A registry that nobody came to yet. -/
theorem of_empty (hregistrations : r.registrations = []) (hlinks : r.links = {}) :
    Regular r [] := by
  refine ⟨⟨fun node i h ↦ ?_, fun _ ↦ by rw [hlinks]⟩, fun j s hs ↦ ?_, ?_⟩
  · rw [find?, hlinks] at h
    cases h
  · rw [stream?, registration?, hregistrations] at hs
    cases hs
  · rw [hlinks]
    exact List.nodup_nil

/-- A new registry, whatever its store holds. -/
theorem of_new (timeout : Duration) (store : NodeStore) :
    Regular { firstFrameTimeout := timeout, store } [] := of_empty rfl rfl

theorem step (hr : r.Regular reports) (mv : Move) :
    (r.step mv).Regular (reports ++ r.intake mv) :=
  ⟨hr.sound.step (fun j s hs ↦ (hr.whole j s hs).cancelled) mv,
    forall_stream_step .of_new (fun _ id m h ↦ h.deliver id m) (fun _ h ↦ h.close)
      (fun _ u h ↦ h.use u) hr.whole mv,
    keys_step hr.keys mv⟩

/-- **A registry is regular throughout every run.** -/
theorem run (hr : r.Regular reports) (moves : List Move) :
    (r.run moves).Regular (reports ++ r.reports moves) := by
  induction moves using List.reverseRecOn with
  | nil =>
    rw [Registry.reports, List.append_nil]
    exact hr
  | append_singleton moves mv ih =>
    rw [run_concat, reports_concat, ← List.append_assoc]
    exact ih.step mv

/-- Whoever is linked for a node has an open stream of it. -/
theorem exists_open_of_linked {node : NodeId} (hr : r.Regular reports)
    (h : r.find? node = some j) : ∃ s, r.stream? j = some s ∧ s.node = node ∧ s.closed = false := by
  obtain ⟨g, s, hg, hadmission, hnode, hclosed, -⟩ := hr.sound.linked node j h
  exact ⟨s, stream?_of_admitted hg hadmission, hnode, hclosed⟩

end Regular

end NodeAgent.Registry
