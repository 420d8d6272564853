import NodeAgent.Proofs.Assembly.Run

/-!
# Requests on their way to the node

The frames of a session, from the served ones to those that wait in the channel, are frames of
different calls, so a call is executed at most once; and since identifiers do not repeat, whatever
was executed under the identifier of a call is the frame of that call. None of this depends on what
the node says, or on what else comes to the main node.

## Main statements

* `Accounted.frame_of_id`, `Accounted.executions_eq`: the executions of the frame of a call.
-/

namespace NodeAgent.Assembly

variable {σ τ : Type} {s : Assembly σ τ} {m : Agent.Move σ} {k j : Nat}

/-- What an assembly keeps about requests throughout a run. -/
structure Accounted (s : Assembly σ τ) : Prop where
  steady : s.main.Steady s.calls
  numbered : s.main.Numbered
  /-- What is recorded as executed was. -/
  genuine : ∀ e ∈ s.executed, s.site.serve e.frame e.before = (e.reply, e.after)
  /-- The frames of a session are of different calls, wherever they are by now. -/
  tracked : ∀ k, s.main.registry.Tracked k (s.taken k ++ s.main.registry.channel k)

namespace Accounted

/-- Requests are accounted for at the start. -/
theorem of_new {a : Agent σ} {site : Site τ} {world : τ} (hsteady : a.Steady fun _ ↦ [])
    (hnumbered : a.Numbered) (hregistrations : a.registry.registrations = []) :
    Accounted { main := a, site, world } := by
  refine ⟨hsteady, hnumbered, by simp, fun k ↦ ?_⟩
  have hempty : a.registry.channel k = [] := by
    rw [Registry.channel, Registry.stream?, Registry.registration?, hregistrations]
    rfl
  rw [hempty]
  exact ⟨List.nodup_nil, by simp [taken, served]⟩

/-- Whatever the main node does, its frames are told apart. -/
theorem tracked_act (h : s.Accounted) (m : Agent.Move σ) (k : Nat) :
    (s.act m).main.registry.Tracked k (s.taken k ++ (s.act m).main.registry.channel k) := by
  obtain ⟨q, hq, -⟩ := s.main.exists_registry_step m
  obtain ⟨rest, hrest, hfills⟩ := Registry.fills_step h.steady.consistent q k
  have hsub : (s.taken k ++ rest).Sublist (s.taken k ++ s.main.registry.channel k) :=
    (List.Sublist.refl _).append hrest.sublist
  have htracked := (h.tracked k).fills h.steady.consistent h.numbered.distinct hsub hfills
  rw [← hq] at htracked
  exact htracked

/-- A move of the main node that makes no call of its own. -/
theorem act (h : s.Accounted) (hnames : Function.Injective s.main.names.requestId)
    (hopen : ∀ g id r d, m ≠ .registry (.use g (.open id r d))) : (s.act m).Accounted where
  steady := h.steady.step m
  numbered := h.numbered.step hnames h.steady.consistent m hopen
  genuine := h.genuine
  tracked := h.tracked_act m

/-- A change of a session that takes nothing down. -/
theorem update (h : s.Accounted) {f : Session → Session} (hdown : ∀ p, (f p).down = p.down) :
    (s.update k f).Accounted := by
  refine ⟨h.steady, h.numbered, h.genuine, fun j ↦ ?_⟩
  rw [taken_update hdown]
  exact h.tracked j

theorem fetch (h : s.Accounted) (hnames : Function.Injective s.main.names.requestId) (k : Nat) :
    (s.fetch k).Accounted := by
  unfold Assembly.fetch
  split
  · exact h
  · split
    · rename_i f _ hnext
      obtain ⟨t, ht, hframe⟩ := Option.map_eq_some_iff.mp hnext
      have hchannel : s.main.registry.channel k = f :: (s.main.registry.channel k).tail := by
        rw [Registry.channel_of_stream? ht]
        exact channel_of_next hframe
      have hact : (s.act (.registry (.use k .take))).Accounted := by
        refine h.act hnames fun _ _ _ _ hm ↦ ?_
        cases hm
      refine ⟨hact.steady, hact.numbered, hact.genuine, fun j ↦ ?_⟩
      by_cases hj : j = k
      · subst hj
        rw [taken, session_update_self, ← List.append_assoc]
        have hsub : (s.taken j ++ [f] ++ (s.main.registry.channel j).tail).Sublist
            (s.taken j ++ s.main.registry.channel j) := by
          rw [List.append_assoc, List.singleton_append, ← hchannel]
        exact (h.tracked j).fills h.steady.consistent h.numbered.distinct hsub
          (Registry.fills_take h.steady.consistent ht)
      · rw [taken, session_update_of_ne hj]
        exact hact.tracked j
    · exact h

theorem serve (h : s.Accounted) (k : Nat) : (s.serve k).Accounted := by
  have htaken := s.taken_serve k
  unfold Assembly.serve at htaken ⊢
  split at htaken
  · exact h
  · rename_i f rest hdown
    dsimp only at htaken ⊢
    refine ⟨h.steady, h.numbered, fun e he ↦ ?_, fun j ↦ ?_⟩
    · rcases List.mem_append.mp he with he | he
      · exact h.genuine e he
      · rw [List.mem_singleton.mp he]
        rfl
    · rw [htaken j]
      exact h.tracked j

theorem pass (h : s.Accounted) (hnames : Function.Injective s.main.names.requestId) (k : Nat) :
    (s.pass k).Accounted := by
  unfold Assembly.pass
  split
  · exact h
  · split
    · exact h
    · rename_i x rest hup
      have hact : (s.act (.registry (.receive k (.frame x)))).Accounted := by
        refine h.act hnames fun _ _ _ _ hm ↦ ?_
        cases hm
      exact hact.update fun _ ↦ rfl

/-! ## Executions and calls -/

variable {p : Nat × Nat} {c : Call} {e : Execution τ}

theorem reply_eq (h : s.Accounted) (he : e ∈ s.executed) :
    (s.site.serve e.frame e.before).1 = e.reply := by
  rw [h.genuine e he]

/-- What the node executed some call sent over the session. -/
theorem exists_call_of_executed (h : s.Accounted) (he : e ∈ s.executed) :
    ∃ i c, s.main.registry.call? (e.session, i) = some c ∧ c.frame = e.frame := by
  have htaken : e.frame ∈ s.taken e.session ++ s.main.registry.channel e.session := by
    refine List.mem_append_left _ (List.mem_append_left _ (List.mem_map_of_mem ?_))
    exact List.mem_filter.mpr ⟨he, decide_eq_true rfl⟩
  obtain ⟨i, c, hc, hframe, -⟩ := (h.tracked e.session).sent _ htaken
  exact ⟨i, c, hc, hframe⟩

/-- What the node executed under the identifier of a call is the frame of that call. -/
theorem frame_of_id (h : s.Accounted) (hc : s.main.registry.call? p = some c)
    (he : e ∈ s.executed) (hid : e.frame.id = c.id) : e.session = p.1 ∧ e.frame = c.frame := by
  -- the frame was sent by some call, and its identifier says by which
  obtain ⟨i, d, hd, hframe⟩ := h.exists_call_of_executed he
  have hdid : d.id = c.id := by rw [← hid, ← hframe]; rfl
  obtain rfl := h.numbered.distinct _ _ _ _ hd hc hdid
  rw [hd, Option.some.injEq] at hc
  exact ⟨rfl, by rw [← hframe, hc]⟩

/-- **A call is executed at most once**, so one execution of it is the only one. -/
theorem executions_eq (h : s.Accounted) (hc : s.main.registry.call? p = some c)
    (he : e ∈ s.executed) (hid : e.frame.id = c.id) :
    s.executed.filter (·.frame.id = c.id) = [e] := by
  have hsame : s.executed.filter (·.frame.id = c.id) =
      (s.executed.filter (·.session = p.1)).filter (·.frame.id = c.id) := by
    rw [List.filter_filter]
    refine List.filter_congr fun e he ↦ ?_
    by_cases hid : e.frame.id = c.id
    · simp [hid, (h.frame_of_id hc he hid).1]
    · simp [hid]
  -- over the session of the call no frame was served twice
  have hserved : (s.served p.1).Nodup := (h.tracked p.1).nodup.of_append_left.of_append_left
  have hnodup : ((s.executed.filter (·.frame.id = c.id)).map (·.frame)).Nodup := by
    rw [hsame]
    exact hserved.sublist (List.filter_sublist.map _)
  have hmem : e ∈ s.executed.filter (·.frame.id = c.id) :=
    List.mem_filter.mpr ⟨he, decide_eq_true hid⟩
  refine List.perm_singleton.mp
    ((List.perm_ext_iff_of_nodup hnodup.of_map (List.nodup_singleton e)).mpr fun x ↦ ?_)
  rw [List.mem_singleton]
  constructor
  · intro hx
    obtain ⟨hin, hxid⟩ := List.mem_filter.mp hx
    refine List.inj_on_of_nodup_map hnodup hx hmem ?_
    rw [(h.frame_of_id hc hin (of_decide_eq_true hxid)).2, (h.frame_of_id hc he hid).2]
  · rintro rfl
    exact hmem

end Accounted

end NodeAgent.Assembly
