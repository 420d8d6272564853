import NodeAgent.Proofs.History
import NodeAgent.Proofs.Node.Reliable
import NodeAgent.Proofs.Roaming.Run

/-!
# What the node says over its sessions

Over a session the node says its info and then the answers to what it executed, in order, and
nothing else (`Spoken.words`). The info that it opens with has a status of the listener that it
dialled. As long as it serves the session the status stays one of that listener, since the first
request that leads elsewhere is the last one that is served (`Spoken.crossing`).

The status a node opens with is read before it dials, and it is still the status when the session
begins: nothing but serving changes it, and the node serves over no other session meanwhile.

## Main statements

* `Conduct.step`: every move keeps the conduct of the node.
* `Conduct.change_of_info`: an info among the answers is the report of a change of the status.
* `Conduct.later_info`: an info after the first is accepted, or it and the response to the request
  that it is owed to are the last that the node says over the session.
-/

namespace NodeAgent

/-- The statuses that a listener accepts are those for which a node dials it. -/
theorem NodeStatus.mem_allowed_iff {t : NodeStatus} {l : Listener} (h : t ≠ .unspecified) :
    t ∈ l.allowed ↔ t.listener = l := by
  cases t <;> cases l <;> simp_all [NodeStatus.listener, Listener.allowed]

theorem Request.target_ne_unspecified {r : Request} {t : NodeStatus} (h : r.target? = some t) :
    t ≠ .unspecified := by
  rintro rfl
  cases r <;> cases h

/-! ## The uplink between its sessions -/

namespace Uplink

variable {u : Uplink} {now : Instant}

/-- The node neither dials nor serves. -/
def IsIdle (u : Uplink) : Prop :=
  (∀ l, u.phase ≠ .serving l) ∧ ∀ l first, u.phase ≠ .dialling l first

theorem isIdle_again (u : Uplink) : u.again.IsIdle := by
  unfold again IsIdle
  split <;> simp

theorem isIdle_later (u : Uplink) (now : Instant) : (u.later now).IsIdle := by
  unfold later IsIdle
  split <;> simp

theorem refused_phase (u : Uplink) (now : Instant) :
    (u.refused now).phase = u.phase ∨ (u.refused now).IsIdle := by
  unfold refused
  split
  · exact Or.inr (u.isIdle_later now)
  · exact Or.inl rfl

theorem ended_phase (u : Uplink) (now : Instant) :
    (u.ended now).phase = u.phase ∨ (u.ended now).IsIdle := by
  unfold ended
  split
  · exact Or.inr (u.isIdle_later now)
  · exact Or.inr u.isIdle_again
  · exact Or.inl rfl

theorem wake_phase (u : Uplink) (now : Instant) :
    (u.wake now).phase = u.phase ∨ (u.wake now).IsIdle := by
  unfold wake
  split
  · split
    · exact Or.inl rfl
    · exact Or.inr u.isIdle_again
  · split
    · exact Or.inl rfl
    · exact Or.inr u.isIdle_again
  · exact Or.inl rfl

theorem renew_phase (u : Uplink) (tls : DialTls) :
    (u.renew tls).phase = u.phase ∨ (u.renew tls).IsIdle := by
  unfold renew
  dsimp only
  split
  · exact Or.inr (isIdle_again _)
  · exact Or.inl rfl

theorem stop_phase (u : Uplink) : u.stop.phase = u.phase ∨ u.stop.IsIdle := by
  unfold stop
  dsimp only
  split
  · exact Or.inl rfl
  · exact Or.inl rfl
  · exact Or.inr ⟨by simp, by simp⟩

/-- Dialling begins with the status that the node has. -/
theorem dial_phase {σ : Type} (u : Uplink) (site : Site σ) (w : σ) (now : Instant) :
    (u.dial site w now).phase = u.phase ∨ (u.dial site w now).IsIdle ∨
      ∃ info, site.nodeInfo w = .ok info ∧
        (u.dial site w now).phase = .dialling info.status.listener ⟨"", some (.info info)⟩ := by
  unfold dial
  split
  · split
    · exact Or.inr (Or.inl ⟨by simp, by simp⟩)
    · split
      · exact Or.inr (Or.inl (u.isIdle_later now))
      · rename_i info hinfo
        exact Or.inr (Or.inr ⟨info, hinfo, rfl⟩)
  · exact Or.inl rfl

theorem reached_phase {l : Listener} {first : NodeFrame} (h : u.phase = .dialling l first) :
    u.reached.1 = [first] ∧ (u.reached.2.IsIdle ∨ u.reached.2.phase = .serving l) := by
  unfold reached
  rw [h]
  dsimp only
  split
  · exact ⟨rfl, Or.inl u.isIdle_again⟩
  · exact ⟨rfl, Or.inr rfl⟩

end Uplink

/-- Whether an execution moved the node across from a listener. -/
def Execution.crosses {τ : Type} (e : Execution τ) (l : Listener) : Bool :=
  e.reply.newStatus.any fun t ↦ t.listener ≠ l

/-- What the node executed over a session. -/
def Assembly.over {σ τ : Type} (s : Assembly σ τ) (k : Nat) : List (Execution τ) :=
  s.executed.filter (·.session = k)

namespace Roaming

variable {σ τ : Type} {s s' : Roaming σ τ} {node : NodeId} {status : τ → NodeStatus}
  {sound : τ → Prop} {k j : Nat} {l : Listener}

/-! ## Serving a frame -/

/-- The node executed a frame of the session that it serves, and said the answer. -/
structure Executes (s s' : Roaming σ τ) (l : Listener) (e : Execution τ) : Prop where
  phase : s.uplink.phase = .serving l
  session : e.session = s.current
  before : e.before = s.world
  served : s.site.serve e.frame s.world = (e.reply, e.after)
  main : s'.main = s.main
  current : s'.current = s.current
  said : s'.said = addTo s.said s.current e.reply.frames
  executed : s'.executed = s.executed ++ [e]
  world : s'.world = e.after
  up : ∀ k, (s'.session k).up = addTo (fun k ↦ (s.session k).up) s.current e.reply.frames k
  /-- It goes on serving unless the request moved it across. -/
  uplink : (s'.uplink.phase = .serving l ∧ e.crosses l = false) ∨
    (s'.uplink.IsIdle ∧ e.crosses l = true)

theorem executes_serve (s : Roaming σ τ) (now : Instant) :
    s.serve now = s ∨ ∃ l e, Executes s (s.serve now) l e := by
  by_cases hserves : ∃ l f rest, s.uplink.phase = .serving l ∧
      (s.session s.current).down = f :: rest
  · obtain ⟨l, f, rest, hphase, hdown⟩ := hserves
    have huplink : ((s.uplinkAfter l (s.execution s.current f) now).phase = .serving l ∧
        (s.execution s.current f).crosses l = false) ∨
        ((s.uplinkAfter l (s.execution s.current f) now).IsIdle ∧
          (s.execution s.current f).crosses l = true) := by
      unfold uplinkAfter Execution.crosses
      split
      · rename_i hcrosses
        exact Or.inr ⟨⟨by simp, by simp⟩, hcrosses⟩
      · rename_i hstays
        exact Or.inl ⟨hphase, Bool.eq_false_iff.mpr hstays⟩
    refine Or.inr ⟨l, s.execution s.current f, ?_⟩
    rw [serve_of_serving hphase hdown, Assembly.serve_of_down hdown]
    refine ⟨hphase, rfl, rfl, rfl, rfl, rfl, rfl, rfl, rfl, fun k ↦ ?_, huplink⟩
    by_cases hk : k = s.current
    · subst hk
      rw [addTo_self]
      exact congrArg Session.up (if_pos rfl)
    · rw [addTo_of_ne _ hk]
      exact congrArg Session.up (if_neg hk)
  · refine Or.inl ?_
    unfold Roaming.serve
    split
    · rename_i l f rest hphase hdown
      exact absurd ⟨l, f, rest, hphase, hdown⟩ hserves
    · rfl

namespace Executes

variable {e : Execution τ}

theorem over_self (h : Executes s s' l e) : s'.over s.current = s.over s.current ++ [e] := by
  rw [Assembly.over, h.executed, List.filter_append, List.filter_singleton]
  simp [Assembly.over, h.session]

theorem over_of_ne (h : Executes s s' l e) (hk : k ≠ s.current) : s'.over k = s.over k := by
  rw [Assembly.over, h.executed, List.filter_append, List.filter_singleton]
  simp [Assembly.over, h.session, Ne.symm hk]

theorem serving (h : Executes s s' l e) {l' : Listener} (hl' : s'.uplink.phase = .serving l') :
    l' = l ∧ e.crosses l = false := by
  rcases h.uplink with ⟨hsame, hstays⟩ | ⟨hidle, -⟩
  · rw [hsame] at hl'
    exact ⟨(Uplink.Phase.serving.inj hl').symm, hstays⟩
  · exact absurd hl' (hidle.1 l')

/-- The status is as it was, or the one that the request leads to, and then it is one of the
listener unless the node moved across. -/
theorem status_after (h : Executes s s' l e) (hsite : s.site.Reliable node status sound)
    (hworld : sound s.world) (hlistener : (status s.world).listener = l)
    (hspecified : status s.world ≠ .unspecified) :
    status e.after ≠ .unspecified ∧ (e.crosses l = false → (status e.after).listener = l) := by
  have hreply : e.reply = (s.site.serve e.frame s.world).1 := by rw [h.served]
  have hafter : e.after = (s.site.serve e.frame s.world).2 := by rw [h.served]
  unfold Execution.crosses
  cases hnew : e.reply.newStatus with
  | none =>
    rw [hreply] at hnew
    rw [hafter, (hsite.serve_of_none hworld hnew).1]
    exact ⟨hspecified, fun _ ↦ hlistener⟩
  | some t =>
    rw [hreply] at hnew
    obtain ⟨r, -, -, -, ht, -, -, hreaches, -⟩ := hsite.serve_of_newStatus hworld hnew
    rw [hafter, hreaches]
    exact ⟨Request.target_ne_unspecified ht, fun hstays ↦ by simpa using hstays⟩

end Executes

/-! ## What was said -/

/-- What the node has said over a session with a listener. -/
structure Spoken (s : Roaming σ τ) (node : NodeId) (k : Nat) (l : Listener) : Prop where
  /-- The session came to the listener. -/
  gate : ∃ g, s.main.registry.registration? k = some g ∧ g.allowed = l.allowed
  /-- The node said its info, and then the answers to what it executed. -/
  words : ∃ first : NodeInfo, first.nodeId = node ∧ first.status ∈ l.allowed ∧
    first.status.listener = l ∧
    s.said k = ⟨"", some (.info first)⟩ :: (s.over k).flatMap (·.reply.frames)
  /-- What moved the node across was the last that it executed, and the session is served no
  more. -/
  crossing : ∀ before e after, s.over k = before ++ e :: after → e.crosses l = true →
    after = [] ∧ ∀ l', ¬(s.uplink.phase = .serving l' ∧ s.current = k)

theorem Spoken.mono (h : Spoken s node k l)
    (hgate : ∀ g, s.main.registry.registration? k = some g →
      ∃ g', s'.main.registry.registration? k = some g' ∧ g'.allowed = g.allowed)
    (hsaid : s'.said k = s.said k) (hover : s'.over k = s.over k)
    (hserving : ∀ l', s'.uplink.phase = .serving l' → s'.current = k →
      s.uplink.phase = .serving l' ∧ s.current = k) : Spoken s' node k l := by
  obtain ⟨g, hg, hallowed⟩ := h.gate
  obtain ⟨g', hg', hsame⟩ := hgate g hg
  obtain ⟨first, hnode, hfirst, hlistener, hwords⟩ := h.words
  refine ⟨⟨g', hg', hsame.trans hallowed⟩, ⟨first, hnode, hfirst, hlistener, ?_⟩, ?_⟩
  · rw [hsaid, hover]
    exact hwords
  · intro before e after hsplit hcrosses
    rw [hover] at hsplit
    obtain ⟨hlast, hgone⟩ := h.crossing before e after hsplit hcrosses
    exact ⟨hlast, fun l' hserves ↦ hgone l' (hserving l' hserves.1 hserves.2)⟩

/-- The answer to what is executed comes after all that was said. -/
theorem Spoken.execute {e : Execution τ} (h : Spoken s node s.current l)
    (hexecutes : Executes s s' l e) : Spoken s' node s.current l := by
  obtain ⟨first, hnode, hfirst, hlistener, hwords⟩ := h.words
  refine ⟨hexecutes.main ▸ h.gate, ⟨first, hnode, hfirst, hlistener, ?_⟩, ?_⟩
  · rw [hexecutes.said, addTo_self, hwords, hexecutes.over_self, List.flatMap_append,
      List.flatMap_singleton]
    rfl
  · intro before e' after hsplit hcrosses
    rw [hexecutes.over_self] at hsplit
    rcases History.eq_or_of_concat hsplit with ⟨-, rfl, rfl⟩ | ⟨after', hsplit', -⟩
    · refine ⟨rfl, fun l' hserves ↦ ?_⟩
      rw [(hexecutes.serving hserves.1).2] at hcrosses
      cases hcrosses
    · -- the session would not have been served any more
      exact absurd ⟨hexecutes.phase, rfl⟩ ((h.crossing before e' after' hsplit' hcrosses).2 l)

/-- What is executed over one session makes no difference to another. -/
theorem Spoken.execute_of_ne {e : Execution τ} {l' : Listener} (h : Spoken s node k l')
    (hexecutes : Executes s s' l e) (hk : k ≠ s.current) : Spoken s' node k l' := by
  refine h.mono (fun g hg ↦ ⟨g, hexecutes.main ▸ hg, rfl⟩) ?_ (hexecutes.over_of_ne hk)
    fun l'' _ hnow ↦ ?_
  · rw [hexecutes.said, addTo_of_ne _ hk]
  · exact absurd (hexecutes.current.symm.trans hnow).symm hk

/-- What a node that keeps its status has said and is about to say. -/
structure Conduct (s : Roaming σ τ) (node : NodeId) (status : τ → NodeStatus) (sound : τ → Prop) :
    Prop where
  world : sound s.world
  specified : status s.world ≠ .unspecified
  executed : ∀ e ∈ s.executed, sound e.before
  /-- What was executed came over a session with the listener that the status called for. -/
  placed : ∀ e ∈ s.executed, ∃ g, s.main.registry.registration? e.session = some g ∧
    g.allowed = (status e.before).listener.allowed
  /-- Where the node has said nothing it has executed nothing either. -/
  silent : ∀ k, s.said k = [] → s.over k = [] ∧ (s.session k).up = []
  fresh : ∀ k, s.main.registry.registrations.length ≤ k → s.said k = []
  dialling : ∀ l first, s.uplink.phase = .dialling l first →
    (status s.world).listener = l ∧ ∃ info, first = ⟨"", some (.info info)⟩ ∧
      info.nodeId = node ∧ info.status = status s.world
  serving : ∀ l, s.uplink.phase = .serving l →
    (status s.world).listener = l ∧ s.said s.current ≠ [] ∧ Spoken s node s.current l
  spoken : ∀ k, s.said k ≠ [] → ∃ l, Spoken s node k l

namespace Conduct

/-- Registrations are there for good, with what their listeners accept. -/
theorem exists_gate {r r' : Registry} {q : Registry.Move} (h : r' = r.step q) :
    ∀ k g, r.registration? k = some g →
      ∃ g', r'.registration? k = some g' ∧ g'.allowed = g.allowed := by
  subst h
  intro k g hg
  obtain ⟨g', hg', -⟩ := r.effect_step q hg
  exact ⟨g', hg', Registry.allowed_step hg hg'⟩

theorem placed_step (h : Conduct s node status sound) {r' : Registry} {q : Registry.Move}
    (hr' : r' = s.main.registry.step q) (e : Execution τ) (he : e ∈ s.executed) :
    ∃ g, r'.registration? e.session = some g ∧
      g.allowed = (status e.before).listener.allowed := by
  obtain ⟨g, hg, hallowed⟩ := h.placed e he
  obtain ⟨g', hg', hsame⟩ := exists_gate hr' _ g hg
  exact ⟨g', hg', hsame.trans hallowed⟩

theorem length_le_step (r : Registry) (q : Registry.Move) :
    r.registrations.length ≤ (r.step q).registrations.length := by
  rcases r.length_step q with h | ⟨allowed, arrived, ended, now, rfl⟩
  · exact Nat.le_of_eq h.symm
  · have hlength : (r.arrive allowed arrived ended now).registrations.length =
        r.registrations.length + 1 := List.length_append
    exact hlength ▸ Nat.le_succ _

/-- What the main node does, and what sessions carry, makes no difference to what the node says. -/
theorem of_main (h : Conduct s node status sound) {a : Assembly σ τ} {q : Registry.Move}
    (hregistry : a.main.registry = s.main.registry.step q) (hworld : a.world = s.world)
    (hexecuted : a.executed = s.executed)
    (hup : ∀ k, (s.session k).up = [] → (a.session k).up = []) :
    Conduct { s with toAssembly := a } node status sound := by
  have hover : ∀ k, a.over k = s.over k := fun k ↦ by rw [Assembly.over, hexecuted]; rfl
  have hspoken : ∀ {k l}, Spoken s node k l → Spoken { s with toAssembly := a } node k l :=
    fun hk ↦ hk.mono (exists_gate hregistry _) rfl (hover _) fun _ hserving hk ↦ ⟨hserving, hk⟩
  refine
    { world := hworld ▸ h.world
      specified := hworld ▸ h.specified
      executed := hexecuted ▸ h.executed
      placed := fun e he ↦ h.placed_step hregistry e (hexecuted ▸ he)
      silent := fun k hk ↦ ⟨(hover k).trans (h.silent k hk).1, hup k (h.silent k hk).2⟩
      fresh := fun k hk ↦ h.fresh k (Nat.le_trans (length_le_step _ q) (hregistry ▸ hk))
      dialling := fun l first hl ↦ hworld ▸ h.dialling l first hl
      serving := fun l hl ↦ ?_
      spoken := fun k hk ↦ ?_ }
  · obtain ⟨hlistener, hours, hk⟩ := h.serving l hl
    exact ⟨hworld ▸ hlistener, hours, hspoken hk⟩
  · obtain ⟨l, hl⟩ := h.spoken k hk
    exact ⟨l, hspoken hl⟩

/-- Between its sessions the node says nothing. -/
theorem of_uplink (h : Conduct s node status sound) {u : Uplink}
    (hserving : ∀ l, u.phase = .serving l → s.uplink.phase = .serving l)
    (hdialling : ∀ l first, u.phase = .dialling l first →
      (status s.world).listener = l ∧ ∃ info, first = ⟨"", some (.info info)⟩ ∧
        info.nodeId = node ∧ info.status = status s.world) :
    Conduct { s with uplink := u } node status sound := by
  have hspoken : ∀ {k l}, Spoken s node k l → Spoken { s with uplink := u } node k l :=
    fun hk ↦ hk.mono (fun g hg ↦ ⟨g, hg, rfl⟩) rfl rfl fun l' hl' hcurrent ↦
      ⟨hserving l' hl', hcurrent⟩
  refine
    { h with
      dialling := hdialling
      serving := fun l hl ↦ ?_
      spoken := fun k hk ↦ ?_ }
  · obtain ⟨hlistener, hours, hk⟩ := h.serving l (hserving l hl)
    exact ⟨hlistener, hours, hspoken hk⟩
  · obtain ⟨l, hl⟩ := h.spoken k hk
    exact ⟨l, hspoken hl⟩

/-- An uplink that goes on as before, or is idle. -/
theorem of_phase (h : Conduct s node status sound) {u : Uplink}
    (hu : u.phase = s.uplink.phase ∨ u.IsIdle) :
    Conduct { s with uplink := u } node status sound := by
  rcases hu with hsame | hidle
  · refine h.of_uplink (fun l hl ↦ hsame ▸ hl) fun l first hl ↦ ?_
    rw [hsame] at hl
    exact h.dialling l first hl
  · exact h.of_uplink (fun l hl ↦ absurd hl (hidle.1 l)) fun l first hl ↦
      absurd hl (hidle.2 l first)

theorem dial (h : Conduct s node status sound) (hsite : s.site.Reliable node status sound)
    (now : Instant) :
    Conduct { s with uplink := s.uplink.dial s.site s.world now } node status sound := by
  rcases s.uplink.dial_phase s.site s.world now with hsame | hidle |
    ⟨info, hinfo, hphase⟩
  · exact h.of_phase (Or.inl hsame)
  · exact h.of_phase (Or.inr hidle)
  · obtain ⟨info', hinfo', hnode, hstatus⟩ := hsite.exists_info h.world
    obtain rfl : info = info' := Except.ok.inj (hinfo.symm.trans hinfo')
    refine h.of_uplink (fun l hl ↦ ?_) fun l first hl ↦ ?_
    · rw [hphase] at hl
      cases hl
    · rw [hphase, Uplink.Phase.dialling.injEq] at hl
      obtain ⟨rfl, rfl⟩ := hl
      exact ⟨by rw [hstatus], info, rfl, hnode, hstatus⟩

/-- A session begins with the info of the node, on the listener that its status calls for. -/
theorem commence (h : Conduct s node status sound) {info : NodeInfo} {u : Uplink}
    (hlistener : (status s.world).listener = l) (hnode : info.nodeId = node)
    (hstatus : info.status = status s.world) (hu : u.IsIdle ∨ u.phase = .serving l)
    (now : Instant) :
    Conduct (s.commence l now [⟨"", some (.info info)⟩] u) node status sound := by
  have hfresh := h.fresh _ (Nat.le_refl s.main.registry.registrations.length)
  have hgate := registration?_commence s l now [⟨"", some (.info info)⟩] u
  obtain ⟨hover, hup⟩ := h.silent _ hfresh
  generalize hk₀ : s.main.registry.registrations.length = k₀ at hfresh hgate hover hup
  generalize hs' : s.commence l now [⟨"", some (.info info)⟩] u = s' at hgate
  have hregistry : s'.main.registry =
      s.main.registry.step (.arrive l.allowed [] false now) := by rw [← hs']; rfl
  have hsaid : s'.said = addTo s.said k₀ [⟨"", some (.info info)⟩] := by rw [← hs', ← hk₀]; rfl
  have huplink : s'.uplink = u := by rw [← hs']; rfl
  have hcurrent : s'.current = k₀ := by rw [← hs', ← hk₀]; rfl
  have hworld : s'.world = s.world := by rw [← hs']; rfl
  have hexecuted : s'.executed = s.executed := by rw [← hs']; rfl
  have hsameOver : ∀ k, s'.over k = s.over k := fun k ↦ by rw [Assembly.over, hexecuted]; rfl
  have hsession : ∀ k, k ≠ k₀ → s'.session k = s.session k := by
    rw [← hs', ← hk₀]
    exact fun k hk ↦ s.session_commence_of_ne l now _ u hk
  have hlisten : ∀ l', u.phase = .serving l' → l' = l := by
    rcases hu with hidle | hserves
    · exact fun l' hl' ↦ absurd hl' (hidle.1 l')
    · intro l' hl'
      rw [hserves] at hl'
      exact (Uplink.Phase.serving.inj hl').symm
  have hnew : Spoken s' node k₀ l := by
    refine ⟨⟨_, hgate, rfl⟩, ⟨info, hnode, ?_, ?_, ?_⟩, fun before e after hsplit ↦ ?_⟩
    · rw [hstatus, NodeStatus.mem_allowed_iff h.specified, hlistener]
    · rw [hstatus, hlistener]
    · rw [hsaid, addTo_self, hfresh, hsameOver, hover]
      rfl
    · rw [hsameOver, hover] at hsplit
      simp at hsplit
  have hold : ∀ {k l}, k ≠ k₀ → Spoken s node k l → Spoken s' node k l := by
    intro k l hk hspoken
    refine hspoken.mono (exists_gate hregistry k) ?_ (hsameOver k) fun l' _ hnow ↦ ?_
    · rw [hsaid, addTo_of_ne _ hk]
    · exact absurd (hcurrent.symm.trans hnow).symm hk
  refine
    { world := hworld ▸ h.world
      specified := hworld ▸ h.specified
      executed := hexecuted ▸ h.executed
      placed := fun e he ↦ h.placed_step hregistry e (hexecuted ▸ he)
      silent := fun k hk ↦ ?_
      fresh := fun k hk ↦ ?_
      dialling := fun l' first hl' ↦ ?_
      serving := fun l' hl' ↦ ?_
      spoken := fun k hk ↦ ?_ }
  · have hne : k ≠ k₀ := by
      rintro rfl
      rw [hsaid, addTo_self] at hk
      simp at hk
    rw [hsaid, addTo_of_ne _ hne] at hk
    rw [hsameOver, hsession k hne]
    exact h.silent k hk
  · have hlength : s'.main.registry.registrations.length = k₀ + 1 := by
      rw [hregistry, ← hk₀]
      exact List.length_append
    rw [hlength] at hk
    rw [hsaid, addTo_of_ne _ (Nat.ne_of_gt hk)]
    exact h.fresh k (hk₀ ▸ Nat.le_of_succ_le hk)
  · rw [huplink] at hl'
    rcases hu with hidle | hserves
    · exact absurd hl' (hidle.2 l' first)
    · rw [hserves] at hl'
      cases hl'
  · rw [huplink] at hl'
    obtain rfl := hlisten l' hl'
    rw [hworld, hcurrent]
    refine ⟨hlistener, ?_, hnew⟩
    rw [hsaid, addTo_self]
    simp
  · by_cases hne : k = k₀
    · subst hne
      exact ⟨l, hnew⟩
    · rw [hsaid, addTo_of_ne _ hne] at hk
      obtain ⟨l', hl'⟩ := h.spoken k hk
      exact ⟨l', hold hne hl'⟩

theorem reach (h : Conduct s node status sound) (now : Instant) :
    Conduct (s.reach now) node status sound := by
  unfold Roaming.reach
  split
  · rename_i l first hphase
    obtain ⟨hlistener, info, rfl, hnode, hstatus⟩ := h.dialling l first hphase
    obtain ⟨hframes, hu⟩ := Uplink.reached_phase hphase
    generalize s.uplink.reached = reached at hframes hu ⊢
    obtain ⟨frames, u⟩ := reached
    obtain rfl : frames = _ := hframes
    exact h.commence hlistener hnode hstatus hu now
  · exact h

/-- The node serves a frame: it says the answer, and goes on only if its status stays one of the
listener. -/
theorem execute {e : Execution τ} (h : Conduct s node status sound)
    (hsite : s.site.Reliable node status sound) (hexecutes : Executes s s' l e) :
    Conduct s' node status sound := by
  obtain ⟨hlistener, hours, hspoken⟩ := h.serving l hexecutes.phase
  obtain ⟨hspecified, hstays⟩ := hexecutes.status_after hsite h.world hlistener h.specified
  -- what was not said before is said over the session under way
  have hsilent : ∀ {k}, s'.said k = [] → k ≠ s.current ∧ s.said k = [] := by
    intro k hk
    have hne : k ≠ s.current := by
      rintro rfl
      rw [hexecutes.said, addTo_self] at hk
      exact hours (List.append_eq_nil_iff.mp hk).1
    rw [hexecutes.said, addTo_of_ne _ hne] at hk
    exact ⟨hne, hk⟩
  refine
    { world := ?_
      specified := hexecutes.world ▸ hspecified
      executed := fun e' he' ↦ ?_
      placed := fun e' he' ↦ ?_
      silent := fun k hk ↦ ?_
      fresh := fun k hk ↦ ?_
      dialling := fun l' first hl' ↦ ?_
      serving := fun l' hl' ↦ ?_
      spoken := fun k hk ↦ ?_ }
  · have hafter := hsite.sound_serve h.world e.frame
    rw [hexecutes.served] at hafter
    rw [hexecutes.world]
    exact hafter
  · rw [hexecutes.executed] at he'
    rcases List.mem_append.mp he' with hold | hnew
    · exact h.executed e' hold
    · rw [List.mem_singleton.mp hnew, hexecutes.before]
      exact h.world
  · rw [hexecutes.executed] at he'
    rw [hexecutes.main]
    rcases List.mem_append.mp he' with hold | hnew
    · exact h.placed e' hold
    · rw [List.mem_singleton.mp hnew, hexecutes.session, hexecutes.before, hlistener]
      exact hspoken.gate
  · obtain ⟨hne, hk⟩ := hsilent hk
    rw [hexecutes.over_of_ne hne, hexecutes.up, addTo_of_ne _ hne]
    exact h.silent k hk
  · rw [hexecutes.main] at hk
    have hne : k ≠ s.current := by
      rintro rfl
      exact hours (h.fresh _ hk)
    rw [hexecutes.said, addTo_of_ne _ hne]
    exact h.fresh k hk
  · rcases hexecutes.uplink with ⟨hsame, -⟩ | ⟨hidle, -⟩
    · rw [hsame] at hl'
      cases hl'
    · exact absurd hl' (hidle.2 l' first)
  · obtain ⟨rfl, hstay⟩ := hexecutes.serving hl'
    rw [hexecutes.world, hexecutes.current]
    exact ⟨hstays hstay, fun hnil ↦ (hsilent hnil).1 rfl, hspoken.execute hexecutes⟩
  · by_cases hne : k = s.current
    · exact ⟨l, hne ▸ hspoken.execute hexecutes⟩
    · rw [hexecutes.said, addTo_of_ne _ hne] at hk
      obtain ⟨l', hl'⟩ := h.spoken k hk
      exact ⟨l', hl'.execute_of_ne hexecutes hne⟩

theorem serve (h : Conduct s node status sound) (hsite : s.site.Reliable node status sound)
    (now : Instant) : Conduct (s.serve now) node status sound := by
  rcases s.executes_serve now with hsame | ⟨l, e, hexecutes⟩
  · rw [hsame]
    exact h
  · exact h.execute hsite hexecutes

/-- What a session carries up is not what the node says. -/
theorem up_update_nil {a : Assembly σ τ} {f : Session → Session}
    (hf : ∀ p, p.up = [] → (f p).up = []) (k : Nat) (h : (a.session k).up = []) :
    ((a.update j f).session k).up = [] := by
  by_cases hk : k = j
  · subst hk
    rw [Assembly.session_update_self]
    exact hf _ h
  · rw [Assembly.session_update_of_ne hk]
    exact h

/-- A session carries the next frame down. -/
theorem fetch (h : Conduct s node status sound) (k : Nat) :
    Conduct { s with toAssembly := s.toAssembly.fetch k } node status sound := by
  unfold Assembly.fetch
  split
  · exact h
  · split
    · rename_i f _ _
      let bring := fun p : Session ↦ { p with down := p.down ++ [f] }
      exact h.of_main (q := .use k .take) rfl rfl rfl (up_update_nil (f := bring) fun _ hp ↦ hp)
    · exact h

/-- A session carries the next frame up. -/
theorem pass (h : Conduct s node status sound) (k : Nat) :
    Conduct { s with toAssembly := s.toAssembly.pass k } node status sound := by
  unfold Assembly.pass
  split
  · exact h
  · split
    · exact h
    · rename_i x rest hup
      refine h.of_main (q := .receive k (.frame x)) rfl rfl rfl fun j hj ↦ ?_
      by_cases hjk : j = k
      · subst hjk
        rw [hup] at hj
        cases hj
      · rw [Assembly.session_update_of_ne hjk]
        exact hj

/-- **Every move keeps the conduct of the node.** -/
theorem step (h : Conduct s node status sound) (hsite : s.site.Reliable node status sound)
    (mv : Move σ) : Conduct (s.step mv) node status sound := by
  cases mv with
  | main m =>
    change Conduct (if s.permits m then { s with toAssembly := s.act m } else s) _ _ _
    split
    · obtain ⟨q, hq, -⟩ := s.main.exists_registry_step m
      exact h.of_main hq rfl rfl fun _ hk ↦ hk
    · exact h
  | dial now => exact h.dial hsite now
  | refused now => exact h.of_phase (s.uplink.refused_phase now)
  | reached now => exact h.reach now
  | fetch k => exact h.fetch k
  | serve now => exact h.serve hsite now
  | pass k => exact h.pass k
  | sever k =>
    let cut := fun p : Session ↦ { p with severed := true }
    exact h.of_main (q := .store s.main.registry.store) rfl rfl rfl
      (up_update_nil (f := cut) fun _ hp ↦ hp)
  | ended now => exact h.of_phase (s.uplink.ended_phase now)
  | wake now => exact h.of_phase (s.uplink.wake_phase now)
  | renew tls => exact h.of_phase (s.uplink.renew_phase tls)
  | stop => exact h.of_phase s.uplink.stop_phase

/-! ## The end of a session -/

/-- Where an element stands in a list that is put together from others. -/
theorem exists_of_flatMap_eq {α β : Type} {f : α → List β} {xs : List α} {before after : List β}
    {y : β} (h : xs.flatMap f = before ++ y :: after) :
    ∃ xs₁ x xs₂ front back, xs = xs₁ ++ x :: xs₂ ∧ f x = front ++ y :: back ∧
      before = xs₁.flatMap f ++ front ∧ after = back ++ xs₂.flatMap f := by
  induction xs generalizing before with
  | nil => simp at h
  | cons x xs ih =>
    rw [List.flatMap_cons] at h
    rcases History.eq_append_cons_or h with ⟨back, hx, hafter⟩ | ⟨before', hbefore, hrest⟩
    · exact ⟨[], x, xs, before, back, rfl, hx, by simp, hafter⟩
    · obtain ⟨xs₁, x', xs₂, front, back, rfl, hx', rfl, hafter⟩ := ih hrest
      exact ⟨x :: xs₁, x', xs₂, front, back, rfl, hx', by rw [hbefore]; simp, hafter⟩

end Conduct

/-- The last that the node executed over a session moved it to a status of the other listener. -/
structure Crossing (s : Roaming σ τ) (k : Nat) (l : Listener) (before : List NodeFrame)
    (t : NodeStatus) (r : Request) (e : Execution τ) : Prop where
  request : e.frame.request = some r
  target : r.target? = some t
  served : s.site.serve e.frame e.before = (e.reply, e.after)
  elsewhere : t.listener ≠ l
  /-- What the node said before opened the session, or answered what was executed before. -/
  last : ∃ first es, s.over k = es ++ [e] ∧
    before = ⟨"", some (.info first)⟩ :: es.flatMap (·.reply.frames)

/-- Where the node executed something it said something. -/
theorem Conduct.said_of_executed {e : Execution τ} (h : Conduct s node status sound)
    (he : e ∈ s.executed) : s.said e.session ≠ [] := by
  intro hk
  have hover := (h.silent _ hk).1
  exact List.filter_eq_nil_iff.mp hover e he (decide_eq_true rfl)

/-- A report of a change of the status, with what it is owed to. -/
structure Change (node : NodeId) (status : τ → NodeStatus) (e : Execution τ) (info : NodeInfo)
    (r : Request) : Prop where
  own : info.nodeId = node
  request : e.frame.request = some r
  target : r.target? = some info.status
  permitted : ∃ allowed, r.permitted? = some allowed ∧ status e.before ∈ allowed
  newStatus : e.reply.newStatus = some info.status
  frames : e.reply.frames =
    [⟨"", some (.info info)⟩, ⟨e.frame.id, some (.response r.emptyResponse)⟩]

/-- What changes the status is answered by a report of the change. -/
theorem Conduct.exists_change {e : Execution τ} {t : NodeStatus}
    (h : Conduct s node status sound) (haccounted : s.Accounted)
    (hsite : s.site.Reliable node status sound) (he : e ∈ s.executed)
    (hnew : e.reply.newStatus = some t) :
    ∃ info r, info.status = t ∧ Change node status e info r := by
  have hreply := haccounted.reply_eq he
  obtain ⟨r, allowed, info, hr, ht, hpermitted, hbefore, -, hnode, hstatus, hframes⟩ :=
    hsite.serve_of_newStatus (h.executed e he) (hreply ▸ hnew)
  subst hstatus
  exact ⟨info, r, rfl, hnode, hr, ht, ⟨allowed, hpermitted, hbefore⟩, hnew, hreply ▸ hframes⟩

/-- **An info among the answers of the node** is the report of a change. -/
theorem Conduct.change_of_info {e : Execution τ} {x : NodeFrame} {info : NodeInfo}
    (h : Conduct s node status sound) (haccounted : s.Accounted)
    (hsite : s.site.Reliable node status sound) (he : e ∈ s.executed)
    (hx : x ∈ e.reply.frames) (hinfo : x.message = some (.info info)) :
    ∃ r, Change node status e info r := by
  cases hnew : e.reply.newStatus with
  | none =>
    have hreply := haccounted.reply_eq he
    obtain ⟨-, hresponses⟩ := hsite.serve_of_none (h.executed e he) (hreply ▸ hnew)
    obtain ⟨response, rfl⟩ := hresponses x (hreply ▸ hx)
    cases hinfo
  | some t =>
    obtain ⟨info', r, -, hchange⟩ := h.exists_change haccounted hsite he hnew
    rw [hchange.frames] at hx
    rcases List.mem_cons.mp hx with rfl | hx
    · rw [← NodeMessage.info.inj (Option.some.inj hinfo)]
      exact ⟨r, hchange⟩
    · rw [List.mem_singleton.mp hx] at hinfo
      cases hinfo

/-- **An info after the first is accepted**, or it and the response to the request that it is owed
to are the last that the node says over the session. -/
theorem Conduct.later_info (h : Conduct s node status sound) (haccounted : s.Accounted)
    (hsite : s.site.Reliable node status sound) (hspoken : Spoken s node k l)
    {before after : List NodeFrame} {x : NodeFrame} {info : NodeInfo}
    (hsaid : s.said k = before ++ x :: after) (hbefore : before ≠ [])
    (hinfo : x.message = some (.info info)) :
    info.nodeId = node ∧ (info.status ∈ l.allowed ∨
      ∃ r e, Crossing s k l before info.status r e ∧
        after = [⟨e.frame.id, some (.response r.emptyResponse)⟩]) := by
  obtain ⟨first, -, -, -, hwords⟩ := hspoken.words
  obtain ⟨y, before, rfl⟩ := List.exists_cons_of_ne_nil hbefore
  rw [hsaid, List.cons_append] at hwords
  obtain ⟨rfl, hanswers⟩ := List.cons.inj hwords
  obtain ⟨es, e, es', front, back, hover, hframes, rfl, rfl⟩ :=
    exists_of_flatMap_eq hanswers.symm
  have he : e ∈ s.executed := List.mem_of_mem_filter (hover ▸ by simp : e ∈ s.over k)
  obtain ⟨r, hchange⟩ := h.change_of_info haccounted hsite he (by rw [hframes]; simp) hinfo
  have hanswer := hframes.symm.trans hchange.frames
  -- the info goes ahead of the response
  obtain ⟨rfl, rfl⟩ : front = [] ∧ back = [⟨e.frame.id, some (.response r.emptyResponse)⟩] := by
    rcases front with _ | ⟨y, _ | ⟨z, front⟩⟩
    · exact ⟨rfl, (List.cons.inj hanswer).2⟩
    · obtain ⟨rfl, -⟩ := List.cons.inj (List.cons.inj hanswer).2
      cases hinfo
    · simp at hanswer
  refine ⟨hchange.own, ?_⟩
  have ht := hchange.target
  by_cases hstays : info.status.listener = l
  · exact Or.inl ((NodeStatus.mem_allowed_iff (Request.target_ne_unspecified ht)).mpr hstays)
  · have hcrosses : e.crosses l = true := by
      rw [Execution.crosses, hchange.newStatus]
      simpa using hstays
    obtain ⟨rfl, -⟩ := hspoken.crossing es e es' hover hcrosses
    have hserved := haccounted.genuine e he
    refine Or.inr ⟨r, e, ⟨hchange.request, ht, hserved, hstays, first, es, hover, ?_⟩, ?_⟩
    · rw [List.append_nil]
    · rw [List.flatMap_nil, List.append_nil]

end Roaming

end NodeAgent
