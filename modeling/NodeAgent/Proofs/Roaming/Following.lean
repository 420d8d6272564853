import NodeAgent.Proofs.Assembly.Agreement
import NodeAgent.Proofs.Registry.Hearing
import NodeAgent.Proofs.Roaming.Conduct

/-!
# What the main node hears of the node

What the node says over a session it says in an order that matters: its info first, then answers,
and at the end perhaps a status of the other listener with the response that goes with it. Sessions
and registrations keep that order, so what the main node has read of a session is always the
beginning of what the node said over it (`Followed`).

## Main statements

* `Followed.run`: this holds throughout every run.
-/

namespace NodeAgent.Roaming

variable {σ τ : Type} {s s' : Roaming σ τ} {node : NodeId} {status : τ → NodeStatus}
  {sound : τ → Prop} {k j : Nat} {l : Listener}

/-! ## What a move does -/

/-- What a move does to the registry of the main node, to what the node said and to what is yet to
be carried up, and what is taken in with it. -/
inductive Effect (s s' : Roaming σ τ) (reports : List (Nat × NodeInfo)) : Prop where
  /-- The main node does something, or reads on. -/
  | main (q : Registry.Move) : reports = s.main.registry.intake q →
    s'.main.registry = s.main.registry.step q → s'.said = s.said →
    (∀ k, s.said k ≠ [] → (s.session k).up = q.brought k ++ (s'.session k).up) →
    Effect s s' reports
  /-- A session begins, and the node says its first. -/
  | begins (l : Listener) (now : Instant) (frames : List NodeFrame) : reports = [] →
    s'.main.registry = s.main.registry.step (.arrive l.allowed [] false now) →
    s'.said = addTo s.said s.main.registry.registrations.length frames →
    (∀ k, (s'.session k).up = addTo (fun k ↦ (s.session k).up)
      s.main.registry.registrations.length frames k) → Effect s s' reports
  /-- The node answers. -/
  | answers (l : Listener) (frames : List NodeFrame) : reports = [] →
    s.uplink.phase = .serving l → s'.main.registry = s.main.registry →
    s'.said = addTo s.said s.current frames →
    (∀ k, (s'.session k).up = addTo (fun k ↦ (s.session k).up) s.current frames k) →
    Effect s s' reports

/-- A change of a session that has nothing go up or out. -/
theorem up_update {a : Assembly σ τ} {f : Session → Session} (hf : ∀ p, (f p).up = p.up)
    (k j : Nat) : ((a.update k f).session j).up = (a.session j).up := by
  by_cases hj : j = k
  · subst hj
    rw [Assembly.session_update_self, hf]
  · rw [Assembly.session_update_of_ne hj]

/-- A move that leaves the main node and its sessions as they are. -/
theorem Effect.of_same (hmain : s'.main = s.main) (hsaid : s'.said = s.said)
    (hup : ∀ k, (s'.session k).up = (s.session k).up) : Effect s s' [] := by
  refine .main (.store s.main.registry.store) rfl (by rw [hmain]; rfl) hsaid fun k _ ↦ ?_
  rw [hup k]
  rfl

theorem effect_reach (s : Roaming σ τ) (now : Instant) : Effect s (s.reach now) [] := by
  unfold reach
  split
  · rename_i l first hphase
    refine .begins l now s.uplink.reached.1 rfl rfl rfl fun k ↦ ?_
    by_cases hk : k = s.main.registry.registrations.length
    · subst hk
      rw [addTo_self]
      exact up_commence s l now _ _
    · rw [addTo_of_ne _ hk]
      exact congrArg Session.up (session_commence_of_ne s l now _ _ hk)
  · exact .of_same rfl rfl fun _ ↦ rfl

theorem effect_fetch (s : Roaming σ τ) (k : Nat) :
    Effect s { s with toAssembly := s.toAssembly.fetch k } [] := by
  unfold Assembly.fetch
  split
  · exact .of_same rfl rfl fun _ ↦ rfl
  · split
    · rename_i f _ _
      let bring := fun p : Session ↦ { p with down := p.down ++ [f] }
      exact .main (.use k .take) rfl rfl rfl fun j _ ↦
        (up_update (f := bring) (fun _ ↦ rfl) k j).symm
    · exact .of_same rfl rfl fun _ ↦ rfl

theorem effect_pass (s : Roaming σ τ) (k : Nat) :
    Effect s { s with toAssembly := s.toAssembly.pass k } [] := by
  unfold Assembly.pass
  split
  · exact .of_same rfl rfl fun _ ↦ rfl
  · split
    · exact .of_same rfl rfl fun _ ↦ rfl
    · rename_i x rest hup
      refine .main (.receive k (.frame x)) rfl rfl rfl fun j _ ↦ ?_
      by_cases hj : j = k
      · subst hj
        rw [Assembly.session_update_self, hup, Registry.Move.brought_receive_self]
        rfl
      · rw [Assembly.session_update_of_ne hj, Registry.Move.brought_receive_of_ne (Ne.symm hj)]
        rfl

/-- **Every move has one of the effects.** -/
theorem effect_step (s : Roaming σ τ) (mv : Move σ) : Effect s (s.step mv) (s.intake mv) := by
  cases mv with
  | main m =>
    change Effect s (if s.permits m then { s with toAssembly := s.act m } else s) _
    split
    · rename_i hpermits
      obtain ⟨q, hq, hintake, hnone⟩ := exists_registry_of_permits hpermits
      refine .main q hintake hq rfl fun k hk ↦ ?_
      rw [hnone k hk]
      rfl
    · rename_i hrefused
      have hintake : s.intake (.main m) = [] := by
        cases m with
        | registry q => exact if_neg hrefused
        | _ => rfl
      rw [hintake]
      exact .of_same rfl rfl fun _ ↦ rfl
  | reached now => exact s.effect_reach now
  | fetch k => exact s.effect_fetch k
  | serve now =>
    change Effect s (s.serve now) []
    rcases s.executes_serve now with hsame | ⟨l, e, hexecutes⟩
    · rw [hsame]
      exact .of_same rfl rfl fun _ ↦ rfl
    · exact .answers l e.reply.frames rfl hexecutes.phase (congrArg Agent.registry hexecutes.main)
        hexecutes.said hexecutes.up
  | pass k => exact s.effect_pass k
  | sever k =>
    let cut := fun p : Session ↦ { p with severed := true }
    exact .of_same rfl rfl fun j ↦ up_update (f := cut) (fun _ ↦ rfl) k j
  | _ => exact .of_same rfl rfl fun _ ↦ rfl

/-- What sessions have the main node do. -/
inductive Carries (s : Roaming σ τ) : Registry.Move → Prop where
  | begins (l : Listener) (now : Instant) : Carries s (.arrive l.allowed [] false now)
  | down (k : Nat) : Carries s (.use k .take)
  | up {k : Nat} {x : NodeFrame} {rest : List NodeFrame} : (s.session k).up = x :: rest →
    Carries s (.receive k (.frame x))

/-- What the main node does in a move. -/
inductive MainStep (s : Roaming σ τ) : Move σ → Agent σ → Prop where
  /-- It does something by itself, or another node does something at it. -/
  | own {m : Agent.Move σ} : s.permits m = true → MainStep s (.main m) (s.main.step m)
  | rests {mv : Move σ} : (∀ m, mv = .main m → s.permits m = false) → MainStep s mv s.main
  /-- A session brings something or takes something away. -/
  | carried {mv : Move σ} {q : Registry.Move} : (∀ m, mv ≠ .main m) → s.Carries q →
    MainStep s mv (s.main.step (.registry q))

/-- **What the main node does in a move** is a move of its own, or what sessions have it do. -/
theorem mainStep (s : Roaming σ τ) (mv : Move σ) : s.MainStep mv (s.step mv).main := by
  cases mv with
  | main m =>
    change s.MainStep _ (if s.permits m then { s with toAssembly := s.act m } else s).main
    split
    · rename_i hpermits
      exact .own hpermits
    · rename_i hrefused
      refine .rests fun m' hm ↦ ?_
      obtain rfl := Move.main.inj hm
      exact Bool.eq_false_iff.mpr hrefused
  | reached now =>
    change s.MainStep _ (s.reach now).main
    unfold reach
    split
    · rename_i l first _
      exact .carried (fun _ h ↦ by cases h) (.begins l now)
    · exact .rests fun _ h ↦ by cases h
  | fetch k =>
    change s.MainStep _ (s.toAssembly.fetch k).main
    unfold Assembly.fetch
    split
    · exact .rests fun _ h ↦ by cases h
    · split
      · exact .carried (fun _ h ↦ by cases h) (.down k)
      · exact .rests fun _ h ↦ by cases h
  | serve now =>
    change s.MainStep _ (s.serve now).main
    rcases s.executes_serve now with hsame | ⟨l, e, hexecutes⟩
    · rw [hsame]
      exact .rests fun _ h ↦ by cases h
    · rw [hexecutes.main]
      exact .rests fun _ h ↦ by cases h
  | pass k =>
    change s.MainStep _ (s.toAssembly.pass k).main
    unfold Assembly.pass
    split
    · exact .rests fun _ h ↦ by cases h
    · split
      · exact .rests fun _ h ↦ by cases h
      · rename_i x rest hup
        exact .carried (fun _ h ↦ by cases h) (.up hup)
  | _ => exact .rests fun _ h ↦ by cases h

/-- The main node rests, or makes a move that is no call of its own. -/
theorem main_step (s : Roaming σ τ) (mv : Move σ) : (s.step mv).main = s.main ∨
    ∃ m, (s.step mv).main = s.main.step m ∧ ∀ g id r d, m ≠ .registry (.use g (.open id r d)) := by
  have h := s.mainStep mv
  generalize (s.step mv).main = a at h ⊢
  cases h with
  | own hpermits => exact Or.inr ⟨_, rfl, not_open_of_permits hpermits⟩
  | rests _ => exact Or.inl rfl
  | carried _ hq =>
    refine Or.inr ⟨_, rfl, fun g id r d heq ↦ ?_⟩
    obtain rfl := Agent.Move.registry.inj heq
    cases hq

/-- The names of the main node stay what they are. -/
theorem names_step (s : Roaming σ τ) (mv : Move σ) :
    (s.step mv).main.names = s.main.names := by
  rcases s.main_step mv with h | ⟨m, h, -⟩
  · rw [h]
  · rw [h]
    exact (s.main.names_step m).1

/-- The services of the node stay what they are. -/
theorem site_step (s : Roaming σ τ) (mv : Move σ) : (s.step mv).site = s.site := by
  cases mv with
  | main m =>
    change (if s.permits m then { s with toAssembly := s.act m } else s).site = _
    split <;> rfl
  | reached now =>
    change (s.reach now).site = _
    unfold reach
    split <;> rfl
  | fetch k => exact (Assembly.Coherent.names_step s.toAssembly (.fetch k)).2
  | serve now =>
    change (s.serve now).site = _
    unfold Roaming.serve
    split
    · exact (Assembly.Coherent.names_step s.toAssembly (.serve s.current)).2
    · rfl
  | pass k => exact (Assembly.Coherent.names_step s.toAssembly (.pass k)).2
  | _ => rfl

theorem accounted_step (h : s.Accounted) (hnames : Function.Injective s.main.names.requestId)
    (mv : Move σ) : (s.step mv).Accounted := by
  cases mv with
  | main m =>
    change (if s.permits m then { s with toAssembly := s.act m } else s).Accounted
    split
    · rename_i hpermits
      exact h.act hnames (not_open_of_permits hpermits)
    · exact h
  | reached now =>
    change (s.reach now).Accounted
    unfold reach
    split
    · rename_i l first _
      let say := fun p : Session ↦ { p with up := p.up ++ s.uplink.reached.1 }
      have hact : (s.act (.registry (.arrive l.allowed [] false now))).Accounted := by
        refine h.act hnames fun _ _ _ _ hm ↦ ?_
        cases hm
      exact hact.update (f := say) fun _ ↦ rfl
    · exact h
  | fetch k => exact h.fetch hnames k
  | serve now =>
    change (s.serve now).Accounted
    unfold Roaming.serve
    split
    · exact Assembly.Accounted.serve h s.current
    · exact h
  | pass k => exact h.pass hnames k
  | sever k =>
    let cut := fun p : Session ↦ { p with severed := true }
    exact Assembly.Accounted.update (f := cut) h fun _ ↦ rfl
  | _ => exact h

/-! ## What is kept throughout -/

/-- Every info among the frames is one that the registration reported. -/
def AreReported (reports : List (Nat × NodeInfo)) (k : Nat) (frames : List NodeFrame) : Prop :=
  ∀ x ∈ frames, ∀ info, x.message = some (.info info) → (k, info) ∈ reports

theorem AreReported.append {reports reports' : List (Nat × NodeInfo)} {k : Nat}
    {frames frames' : List NodeFrame} (h : AreReported reports k frames)
    (h' : AreReported reports' k frames') :
    AreReported (reports ++ reports') k (frames ++ frames') := by
  intro x hx info hinfo
  rcases List.mem_append.mp hx with hx | hx
  · exact List.mem_append_left _ (h x hx info hinfo)
  · exact List.mem_append_right _ (h' x hx info hinfo)

/-- What a main node and a node that keeps its status keep throughout a run: the requests are
accounted for, the node behaves, the registry is regular, and what was read of a session is the
beginning of what the node said. -/
structure Followed (s : Roaming σ τ) (node : NodeId) (status : τ → NodeStatus) (sound : τ → Prop)
    (reports : List (Nat × NodeInfo)) : Prop where
  names : Function.Injective s.main.names.requestId
  reliable : s.site.Reliable node status sound
  accounted : s.Accounted
  conduct : Conduct s node status sound
  regular : s.main.registry.Regular reports
  heard : ∀ k, s.said k ≠ [] →
    ∃ g read, s.main.registry.Heard node k g (s.said k) (s.session k).up read ∧
      AreReported reports k read

namespace Followed

variable {reports : List (Nat × NodeInfo)}

/-- What was heard over a session that the node spoke over. -/
theorem heard_over (h : Followed s node status sound reports) (hspoken : Spoken s node k l) :
    ∃ g read, g.allowed = l.allowed ∧
      s.main.registry.Heard node k g (s.said k) (s.session k).up read ∧
        AreReported reports k read := by
  obtain ⟨first, -, -, -, hwords⟩ := hspoken.words
  obtain ⟨g, read, hheard, hreported⟩ := h.heard k (by rw [hwords]; exact List.cons_ne_nil _ _)
  obtain ⟨g', hg', hallowed⟩ := hspoken.gate
  obtain rfl := Option.some.inj (hheard.registration.symm.trans hg')
  exact ⟨g, read, hallowed, hheard, hreported⟩

/-- The node is forthright over its sessions. -/
theorem forthright (h : Followed s node status sound reports) (hspoken : Spoken s node k l) :
    Registry.Forthright (s.said k) node l.allowed := by
  obtain ⟨first, hnode, hfirst, -, hwords⟩ := hspoken.words
  refine ⟨⟨first, _, hwords, hfirst⟩, fun x hx info hinfo ↦ ?_, fun before x after info hsplit hinfo
    hbad y hy info' ↦ ?_⟩
  · obtain ⟨before, after, hsplit⟩ := List.append_of_mem hx
    cases before with
    | nil =>
      rw [hwords] at hsplit
      obtain rfl := (List.cons.inj hsplit).1
      rw [← NodeMessage.info.inj (Option.some.inj hinfo)]
      exact hnode
    | cons y before =>
      exact (h.conduct.later_info h.accounted h.reliable hspoken hsplit
        (List.cons_ne_nil y before) hinfo).1
  · cases before with
    | nil =>
      rw [hwords] at hsplit
      obtain rfl := (List.cons.inj hsplit).1
      rw [← NodeMessage.info.inj (Option.some.inj hinfo)] at hbad
      exact absurd hfirst hbad
    | cons z before =>
      rcases (h.conduct.later_info h.accounted h.reliable hspoken hsplit
        (List.cons_ne_nil z before) hinfo).2 with hgood | ⟨r, e, -, rfl⟩
      · exact absurd hgood hbad
      · obtain rfl := List.mem_singleton.mp hy
        exact fun hinfo' ↦ by cases hinfo'

/-- The registry makes a move that brings what goes up next. -/
theorem heard_step (h : Followed s node status sound reports) {q : Registry.Move}
    {up : List NodeFrame} (hk : s.said k ≠ []) (hup : (s.session k).up = q.brought k ++ up) :
    ∃ g read, (s.main.registry.step q).Heard node k g (s.said k) up read ∧
      AreReported (reports ++ s.main.registry.intake q) k read := by
  obtain ⟨l, hspoken⟩ := h.conduct.spoken k hk
  obtain ⟨g, read, hallowed, hheard, hreported⟩ := h.heard_over hspoken
  obtain ⟨g', taken, hnext, htaken⟩ := hheard.step h.accounted.steady.consistent h.regular.sound
    (hallowed ▸ h.forthright hspoken) hup
  exact ⟨g', read ++ taken, hnext, hreported.append htaken⟩

/-- **Every move keeps it.** -/
theorem step (h : Followed s node status sound reports) (mv : Move σ) :
    Followed (s.step mv) node status sound (reports ++ s.intake mv) := by
  have hnames := s.names_step mv
  have hsite := s.site_step mv
  have haccounted := accounted_step h.accounted h.names mv
  have hconduct := h.conduct.step h.reliable mv
  have hsame : ∀ {k}, (s.step mv).said k = s.said k → (s.step mv).said k ≠ [] → s.said k ≠ [] :=
    fun heq hk hnil ↦ hk (heq.trans hnil)
  obtain ⟨hregular, hheard⟩ : (s.step mv).main.registry.Regular (reports ++ s.intake mv) ∧
      ∀ k, (s.step mv).said k ≠ [] → ∃ g read, (s.step mv).main.registry.Heard node k g
        ((s.step mv).said k) ((s.step mv).session k).up read ∧
          AreReported (reports ++ s.intake mv) k read := by
    rcases s.effect_step mv with ⟨q, hintake, hq, hsaid, hup⟩ |
      ⟨l, now, frames, hintake, hq, hsaid, hup⟩ |
      ⟨l, frames, hintake, hphase, hregistry, hsaid, hup⟩ <;> rw [hintake]
    · refine ⟨hq ▸ h.regular.step q, fun k hk ↦ ?_⟩
      have hk' := hsame (congrFun hsaid k) hk
      rw [hsaid, hq]
      exact h.heard_step hk' (hup k hk')
    · refine ⟨hq ▸ h.regular.step (.arrive l.allowed [] false now), fun k hk ↦ ?_⟩
      by_cases hnew : k = s.main.registry.registrations.length
      · subst hnew
        have hfresh := h.conduct.fresh _ (Nat.le_refl s.main.registry.registrations.length)
        rw [hsaid, addTo_self, hup, addTo_self, hfresh, (h.conduct.silent _ hfresh).2, hq]
        obtain ⟨g, hheard⟩ := Registry.Heard.of_arrive s.main.registry l.allowed now node frames
        exact ⟨g, [], hheard, by simp [AreReported]⟩
      · have hk' := hsame ((congrFun hsaid k).trans (addTo_of_ne _ hnew _)) hk
        rw [hsaid, addTo_of_ne _ hnew, hup, addTo_of_ne _ hnew, hq]
        exact h.heard_step hk' rfl
    · rw [List.append_nil]
      refine ⟨hregistry ▸ h.regular, fun k hk ↦ ?_⟩
      by_cases hnow : k = s.current
      · subst hnow
        obtain ⟨g, read, hheard, hreported⟩ :=
          h.heard s.current (h.conduct.serving l hphase).2.1
        rw [hsaid, addTo_self, hup, addTo_self, hregistry]
        exact ⟨g, read, hheard.say frames, hreported⟩
      · have hk' := hsame ((congrFun hsaid k).trans (addTo_of_ne _ hnow _)) hk
        rw [hsaid, addTo_of_ne _ hnow, hup, addTo_of_ne _ hnow, hregistry]
        exact h.heard k hk'
  exact ⟨hnames ▸ h.names, hsite ▸ h.reliable, haccounted, hconduct, hregular, hheard⟩

/-- **What is kept is kept throughout every run.** -/
theorem run (h : Followed s node status sound reports) (moves : List (Move σ)) :
    Followed (s.run moves) node status sound (reports ++ s.reports moves) := by
  induction moves using List.reverseRecOn with
  | nil =>
    rw [Roaming.reports, List.append_nil]
    exact h
  | append_singleton moves mv ih =>
    rw [run_concat, reports_concat, ← List.append_assoc]
    exact ih.step mv

end Followed

end NodeAgent.Roaming
