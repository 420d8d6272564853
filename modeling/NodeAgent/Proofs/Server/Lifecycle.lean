import NodeAgent.Proofs.Agent.Closing
import NodeAgent.Proofs.Server.Serving

/-!
# The life of a server

A server is started and stopped and given other identities, and its agent is used in between. Four
things of it can be closed: the agent, its two feeds and the registry. They are opened and closed
together, so the server is either open or closed as a whole, and it is open whenever it runs. It is
not the other way round: a server that could not serve is open and does not run.

The identities that the listeners were set up with are those that are stored, as long as the server
runs. So other identities are either served with at once or by the next start.

That a server keeps its addresses when it serves anew depends on the networks. An address that was
given has to be one that is given again to whoever asks for it (`Rebinds`). This is so of an address
with a host and a port, which is what a bound listener has, even if it was bound to any free port.

## Main statements

* `effect_step`: what a move makes of a server.
* `Sound.step`: a server stays open or closed as a whole, and open while it runs.
* `isClosed_run_iff`: when a server is closed.
* `lifecycle_run`: the life of a server, over every run.
-/

namespace NodeAgent

namespace Server

variable {σ : Type}

/-! ## Runs -/

/-- A move of an agent that neither closes nor opens anything. -/
def IsUse : Agent.Move σ → Prop
  | .close | .reopen | .registry .close | .registry .start => False
  | _ => True

/-- What happens to a server. -/
inductive Move (σ : Type) where
  | start (net : Network)
  | stop
  | reloadTls (net : Network) (tls : ListenerTls)
  | use (mv : Agent.Move σ) (h : IsUse mv)

/-- The server after a move. -/
def step (s : Server σ) : Move σ → Server σ
  | .start net => (s.start net).2
  | .stop => s.stop
  | .reloadTls net tls => (s.reloadTls net tls).2
  | .use mv _ => { s with agent := s.agent.step mv }

/-- The server after a run. -/
def run (s : Server σ) (moves : List (Move σ)) : Server σ := moves.foldl step s

variable {s s' : Server σ} {net : Network} {tls : ListenerTls} {addr p q : String}
  {held : List String} {mv : Move σ}

@[simp] theorem run_nil (s : Server σ) : s.run [] = s := rfl

theorem run_concat (s : Server σ) (moves : List (Move σ)) (mv : Move σ) :
    s.run (moves ++ [mv]) = (s.run moves).step mv := by
  rw [run, List.foldl_append]
  rfl

/-- The network that a move is made with. -/
def Move.network? : Move σ → Option Network
  | .start net | .reloadTls net _ => some net
  | .stop | .use .. => none

/-- The identities that a move brings. -/
def Move.identities? : Move σ → Option ListenerTls
  | .reloadTls _ tls => some tls
  | .start _ | .stop | .use .. => none

/-- The networks of a run. -/
def networks (moves : List (Move σ)) : List Network := moves.filterMap Move.network?

/-- The identities that were brought last. -/
def latest (s : Server σ) (moves : List (Move σ)) : ListenerTls :=
  (moves.filterMap Move.identities?).getLastD s.tls

/-! ## Statements -/

/-- The agent and the registry are closed. -/
structure IsClosed (s : Server σ) : Prop where
  agent : s.agent.closed = true
  nodeFeed : s.agent.nodeFeed.closed = true
  subjectsFeed : s.agent.subjectsFeed.closed = true
  registry : s.agent.registry.closed = true

/-- One of the networks gave the address. -/
def Gave (nets : List Network) (addr : String) : Prop :=
  ∃ net ∈ nets, ∃ held asked, net.bind held asked = .ok addr

/-- An address that was given is complete: it is in normal form, and a network that is asked for it
gives no other. -/
structure Rebinds (nets : List Network) : Prop where
  normal : ∀ addr, Gave nets addr → Address.correct? addr = some addr
  same : ∀ net ∈ nets, ∀ held addr addr', Gave nets addr → net.bind held addr = .ok addr' →
    addr' = addr

/-- The life of a server over a run. -/
structure Lives (s : Server σ) (moves : List (Move σ)) : Prop where
  /-- A server that runs is open. -/
  running : (s.run moves).running ≠ none → (s.run moves).IsOpen
  /-- The agent and the registry are open together and closed together, -/
  together : (s.run moves).IsOpen ∨ (s.run moves).IsClosed
  /-- and closed exactly from a stop up to the next start, whatever comes of that. -/
  closed_iff : (s.run moves).IsClosed ↔
    ∃ before after, moves = before ++ .stop :: after ∧ ∀ net, .start net ∉ after
  /-- A server that is closed has no addresses. -/
  off : (s.run moves).IsClosed → (s.run moves).running = none
  /-- A server that runs is not started, and nothing is different then. -/
  again : (s.run moves).running ≠ none → ∀ net,
    (s.run moves).start net = (.error .alreadyStarted, s.run moves)
  /-- A server that does not run keeps other identities, and nothing else is different then. -/
  laidUp : (s.run moves).running = none → ∀ net tls,
    (s.run moves).reloadTls net tls = (.ok (), { s.run moves with tls })
  /-- The identities are those that were brought last, -/
  stored : (s.run moves).tls = s.latest moves
  /-- and a server that runs serves with them, if it is not in provisioning. -/
  served : (s.run moves).running ≠ none →
    (s.run moves).served = if s.provisioning then {} else s.latest moves
  /-- Whoever starts the server without a failure makes it run. -/
  begins : ∀ net, ((s.run moves).start net).1 = .ok () →
    ((s.run moves).start net).2.running ≠ none
  /-- A server that ran and was given other identities without a failure runs on the same
  addresses, and serves with those identities, if it is not in provisioning. -/
  renewed : ∀ before net tls after p q, moves = before ++ .reloadTls net tls :: after →
    (s.run before).running = some (p, q) → ((s.run before).reloadTls net tls).1 = .ok () →
    ((s.run before).step (.reloadTls net tls)).running = some (p, q) ∧
      ((s.run before).step (.reloadTls net tls)).served = if s.provisioning then {} else tls

/-! ## What a move does -/

/-- What a move makes of a server. -/
inductive Effect (s : Server σ) : Move σ → Server σ → Prop
  /-- A server that runs is not started. -/
  | again {net : Network} (hrunning : s.running ≠ none) : Effect s (.start net) s
  | started {net : Network} (hstopped : s.running = none) :
    Effect s (.start net) (s.serve net s.publicAddr s.protectedAddr).2
  | stopped : Effect s .stop s.stop
  /-- The identities are for the next start. -/
  | laidUp {net : Network} {tls : ListenerTls} (hstopped : s.running = none) :
    Effect s (.reloadTls net tls) { s with tls }
  | renewed {net : Network} {tls : ListenerTls} {p q : String}
    (hrunning : s.running = some (p, q)) :
    Effect s (.reloadTls net tls) ((s.shut tls).serve net p q).2
  | used {mv : Agent.Move σ} (huse : IsUse mv) :
    Effect s (.use mv huse) { s with agent := s.agent.step mv }

theorem effect_step (s : Server σ) (mv : Move σ) : Effect s mv (s.step mv) := by
  cases mv with
  | start net =>
    rw [step]
    by_cases hrunning : s.running = none
    · rw [start_of_stopped hrunning]
      exact .started hrunning
    · rw [start_of_running hrunning]
      exact .again hrunning
  | stop => exact .stopped
  | reloadTls net tls =>
    rw [step]
    rcases hrunning : s.running with - | ⟨p, q⟩
    · rw [reloadTls_of_stopped hrunning]
      exact .laidUp hrunning
    · rw [reloadTls_eq_serve hrunning]
      exact .renewed hrunning
  | use mv huse => exact .used huse

/-! ## Open and closed -/

/-- A server is as open as another one. -/
structure AsOpen (s s' : Server σ) : Prop where
  agent : s'.agent.closed = s.agent.closed
  nodeFeed : s'.agent.nodeFeed.closed = s.agent.nodeFeed.closed
  subjectsFeed : s'.agent.subjectsFeed.closed = s.agent.subjectsFeed.closed
  registry : s'.agent.registry.closed = s.agent.registry.closed

theorem AsOpen.isOpen (h : AsOpen s s') (hopen : s.IsOpen) : s'.IsOpen :=
  ⟨h.agent.trans hopen.agent, h.nodeFeed.trans hopen.nodeFeed,
    h.subjectsFeed.trans hopen.subjectsFeed, h.registry.trans hopen.registry⟩

theorem AsOpen.isClosed_iff (h : AsOpen s s') : s'.IsClosed ↔ s.IsClosed := by
  constructor
  · intro hclosed
    exact ⟨h.agent.symm.trans hclosed.agent, h.nodeFeed.symm.trans hclosed.nodeFeed,
      h.subjectsFeed.symm.trans hclosed.subjectsFeed, h.registry.symm.trans hclosed.registry⟩
  · intro hclosed
    exact ⟨h.agent.trans hclosed.agent, h.nodeFeed.trans hclosed.nodeFeed,
      h.subjectsFeed.trans hclosed.subjectsFeed, h.registry.trans hclosed.registry⟩

/-- Using the agent opens and closes nothing. -/
theorem asOpen_use (s : Server σ) {mv : Agent.Move σ} (h : IsUse mv) :
    AsOpen s { s with agent := s.agent.step mv } := by
  have hserves : Agent.Serves s.agent (s.agent.step mv) := by
    refine s.agent.serves_happen (m := .move mv) ?_ ?_
    · rintro ⟨⟩
      exact h
    · rintro ⟨⟩
      exact h
  obtain ⟨m, hm, hmove⟩ := s.agent.exists_registry_step mv
  have hregistry : (s.agent.step mv).registry.closed = s.agent.registry.closed := by
    rw [hm]
    apply Registry.closed_step_of_ne
    · rintro rfl
      simp only [reduceCtorEq, exists_false, or_false] at hmove
      subst hmove
      exact h
    · rintro rfl
      simp only [reduceCtorEq, exists_false, or_false] at hmove
      subst hmove
      exact h
  exact ⟨hserves.closed, hserves.nodes.closed, hserves.subjects.closed, hregistry⟩

theorem isClosed_stop (s : Server σ) : s.stop.IsClosed :=
  ⟨rfl, rfl, rfl, s.agent.registry.closed_close⟩

theorem IsOpen.not_isClosed (h : s.IsOpen) : ¬s.IsClosed := by
  intro hclosed
  have heq := h.agent.symm.trans hclosed.agent
  cases heq

/-- A server is open or closed as a whole, it is open if it runs, and then it serves with what it
stores. -/
structure Sound (s : Server σ) : Prop where
  together : s.IsOpen ∨ s.IsClosed
  running : s.running ≠ none → s.IsOpen
  served : s.running ≠ none → s.served = s.serving

/-- As long as it does not run, only the first of this matters. -/
theorem sound_of_stopped (h : s.running = none) (htogether : s.IsOpen ∨ s.IsClosed) : s.Sound :=
  ⟨htogether, fun hne ↦ absurd h hne, fun hne ↦ absurd h hne⟩

theorem sound_serve (h : s.running = none) (net : Network) (p q : String) :
    (s.serve net p q).2.Sound := by
  have hopen := s.isOpen_serve net p q
  rcases s.serve_cases net p q with ⟨e, he⟩ | ⟨p', q', -, -, -, hok⟩
  · rw [he] at hopen ⊢
    exact sound_of_stopped h (Or.inl hopen)
  · rw [hok] at hopen ⊢
    exact ⟨Or.inl hopen, fun _ ↦ hopen, fun _ ↦ rfl⟩

/-- **A server stays open or closed as a whole**, and open while it runs. -/
theorem Sound.step (h : s.Sound) (mv : Move σ) : (s.step mv).Sound := by
  have heffect := s.effect_step mv
  generalize s.step mv = s' at heffect ⊢
  cases heffect with
  | again => exact h
  | started hstopped => exact sound_serve hstopped _ _ _
  | stopped => exact sound_of_stopped rfl (Or.inr (isClosed_stop s))
  | @laidUp net tls hstopped =>
    have hsame : AsOpen s { s with tls } := ⟨rfl, rfl, rfl, rfl⟩
    exact sound_of_stopped hstopped (h.together.imp hsame.isOpen hsame.isClosed_iff.mpr)
  | renewed => exact sound_serve rfl _ _ _
  | used huse =>
    have hsame := s.asOpen_use huse
    constructor
    · exact h.together.imp hsame.isOpen hsame.isClosed_iff.mpr
    · intro hrunning
      exact hsame.isOpen (h.running hrunning)
    · intro hrunning
      exact h.served hrunning

theorem Sound.run (h : s.Sound) (moves : List (Move σ)) : (s.run moves).Sound := by
  induction moves using List.reverseRecOn with
  | nil => exact h
  | append_singleton moves mv ih =>
    rw [run_concat]
    exact ih.step mv

/-! ## When a server is closed -/

/-- A server that was to be started is open. -/
theorem isOpen_start (h : s.Sound) (net : Network) : (s.step (.start net)).IsOpen := by
  have heffect := s.effect_step (.start net)
  generalize s.step (.start net) = s' at heffect ⊢
  cases heffect with
  | again hrunning => exact h.running hrunning
  | started => exact s.isOpen_serve _ _ _

/-- Other moves than a start and a stop do not change whether a server is closed. -/
theorem isClosed_step_iff (h : s.Sound) (hstop : mv ≠ .stop) (hstart : ∀ net, mv ≠ .start net) :
    (s.step mv).IsClosed ↔ s.IsClosed := by
  have heffect := s.effect_step mv
  generalize s.step mv = s' at heffect ⊢
  cases heffect with
  | again | started => exact absurd rfl (hstart _)
  | stopped => exact absurd rfl hstop
  | laidUp => exact AsOpen.isClosed_iff ⟨rfl, rfl, rfl, rfl⟩
  | @renewed net tls p q hrunning =>
    have hbefore : s.IsOpen := h.running (by simp [hrunning])
    exact iff_of_false ((s.shut tls).isOpen_serve net p q).not_isClosed hbefore.not_isClosed
  | used huse => exact (s.asOpen_use huse).isClosed_iff

/-- **A server is closed from each stop up to the next start.** -/
theorem isClosed_run_iff (h : s.Sound) (hopen : s.IsOpen) (moves : List (Move σ)) :
    (s.run moves).IsClosed ↔
      ∃ before after, moves = before ++ .stop :: after ∧ ∀ net, .start net ∉ after := by
  induction moves using List.reverseRecOn with
  | nil => simp [hopen.not_isClosed]
  | append_singleton moves mv ih =>
    rw [run_concat]
    by_cases hstop : mv = .stop
    · subst hstop
      exact iff_of_true (isClosed_stop _) ⟨moves, [], rfl, fun _ ↦ List.not_mem_nil⟩
    by_cases hstart : ∃ net, mv = .start net
    · obtain ⟨net, rfl⟩ := hstart
      refine iff_of_false (isOpen_start (h.run moves) net).not_isClosed ?_
      rintro ⟨before, after, hmoves, hafter⟩
      rcases History.eq_or_of_concat hmoves with ⟨-, hmv, -⟩ | ⟨after', -, rfl⟩
      · simp at hmv
      · exact hafter net (by simp)
    · have hothers : ∀ net, mv ≠ .start net := fun net hmv ↦ hstart ⟨net, hmv⟩
      rw [isClosed_step_iff (h.run moves) hstop hothers, ih]
      constructor
      · rintro ⟨before, after, rfl, hafter⟩
        refine ⟨before, after ++ [mv], by simp, fun net hmem ↦ ?_⟩
        rcases List.mem_append.mp hmem with hmem | hmem
        · exact hafter net hmem
        · exact hothers net (List.mem_singleton.mp hmem).symm
      · rintro ⟨before, after, hmoves, hafter⟩
        rcases History.eq_or_of_concat hmoves with ⟨-, hmv, -⟩ | ⟨after', hmoves', rfl⟩
        · exact absurd hmv.symm hstop
        · exact ⟨before, after', hmoves', fun net hmem ↦
            hafter net (List.mem_append_left _ hmem)⟩

/-! ## Identities -/

theorem settings_serve (s : Server σ) (net : Network) (p q : String) :
    (s.serve net p q).2.provisioning = s.provisioning ∧ (s.serve net p q).2.tls = s.tls := by
  rcases s.serve_cases net p q with ⟨e, he⟩ | ⟨p', q', -, -, -, hok⟩
  · rw [he]
    exact ⟨rfl, rfl⟩
  · rw [hok]
    exact ⟨rfl, rfl⟩

/-- A move changes the identities if it brings some. -/
theorem settings_step (s : Server σ) (mv : Move σ) :
    (s.step mv).provisioning = s.provisioning ∧
      (s.step mv).tls = mv.identities?.getD s.tls := by
  have heffect := s.effect_step mv
  generalize s.step mv = s' at heffect ⊢
  cases heffect with
  | again | stopped | laidUp | used => exact ⟨rfl, rfl⟩
  | started => exact s.settings_serve _ _ _
  | renewed => exact (s.shut _).settings_serve _ _ _

theorem latest_concat (s : Server σ) (moves : List (Move σ)) (mv : Move σ) :
    s.latest (moves ++ [mv]) = mv.identities?.getD (s.latest moves) := by
  rw [latest, List.filterMap_append]
  rcases hmv : mv.identities? with - | tls <;> simp [hmv, latest]

theorem settings_run (s : Server σ) (moves : List (Move σ)) :
    (s.run moves).provisioning = s.provisioning ∧ (s.run moves).tls = s.latest moves := by
  induction moves using List.reverseRecOn with
  | nil => exact ⟨rfl, rfl⟩
  | append_singleton moves mv ih =>
    obtain ⟨hprovisioning, htls⟩ := (s.run moves).settings_step mv
    rw [run_concat, latest_concat]
    exact ⟨hprovisioning.trans ih.1, by rw [htls, ih.2]⟩

/-! ## Addresses -/

variable {nets : List Network}

theorem bind_eq_ok {addr' : String} (h : Server.bind net held addr = .ok addr') :
    ∃ asked, Address.correct? addr = some asked ∧ net.bind held asked = .ok addr' := by
  rw [Server.bind] at h
  rcases hasked : Address.correct? addr with - | asked
  · simp [hasked] at h
  · rcases hbind : net.bind held asked with e | bound
    · simp [hasked, hbind] at h
    · simp only [hasked, hbind, Except.ok.injEq] at h
      exact ⟨asked, rfl, h ▸ hbind⟩

/-- What is bound was given. -/
theorem gave_of_bind (hnet : net ∈ nets) {addr' : String}
    (h : Server.bind net held addr = .ok addr') : Gave nets addr' := by
  obtain ⟨asked, -, hbind⟩ := bind_eq_ok h
  exact ⟨net, hnet, held, asked, hbind⟩

/-- What was given is bound as it is. -/
theorem bind_of_gave (hnets : Rebinds nets) (hnet : net ∈ nets) (hgave : Gave nets addr)
    {addr' : String} (h : Server.bind net held addr = .ok addr') : addr' = addr := by
  obtain ⟨asked, hasked, hbind⟩ := bind_eq_ok h
  rw [hnets.normal addr hgave] at hasked
  rw [← Option.some.inj hasked] at hbind
  exact hnets.same net hnet held addr addr' hgave hbind

/-- The addresses of a server were given. -/
def HasGiven (nets : List Network) (s : Server σ) : Prop :=
  ∀ p q, s.running = some (p, q) → Gave nets p ∧ Gave nets q

theorem hasGiven_of_stopped (h : s.running = none) : HasGiven nets s := by
  intro p q hrunning
  rw [h] at hrunning
  cases hrunning

theorem hasGiven_serve (h : s.running = none) (hnet : net ∈ nets) (p q : String) :
    HasGiven nets (s.serve net p q).2 := by
  rcases s.serve_cases net p q with ⟨e, he⟩ | ⟨p', q', hp, hq, -, hok⟩
  · rw [he]
    exact hasGiven_of_stopped h
  · rw [hok]
    intro p'' q'' hrunning
    obtain ⟨rfl, rfl⟩ := Prod.mk.inj (Option.some.inj hrunning)
    exact ⟨gave_of_bind hnet hp, gave_of_bind hnet hq⟩

theorem HasGiven.step (h : HasGiven nets s) (mv : Move σ)
    (hnets : ∀ net, mv.network? = some net → net ∈ nets) : HasGiven nets (s.step mv) := by
  have heffect := s.effect_step mv
  generalize s.step mv = s' at heffect ⊢
  cases heffect with
  | again | laidUp | used => exact h
  | started hstopped => exact hasGiven_serve hstopped (hnets _ rfl) _ _
  | stopped => exact hasGiven_of_stopped rfl
  | renewed => exact hasGiven_serve rfl (hnets _ rfl) _ _

theorem HasGiven.run (h : HasGiven nets s) (moves : List (Move σ))
    (hnets : ∀ net ∈ networks moves, net ∈ nets) : HasGiven nets (s.run moves) := by
  induction moves using List.reverseRecOn with
  | nil => exact h
  | append_singleton moves mv ih =>
    rw [run_concat]
    apply (ih fun net hnet ↦ hnets net ?_).step mv
    · intro net hnet
      refine hnets net (List.mem_filterMap.mpr ⟨mv, ?_, hnet⟩)
      exact List.mem_append_right _ (List.mem_singleton_self mv)
    · rw [networks, List.filterMap_append]
      exact List.mem_append_left _ hnet

/-- **A server that serves anew keeps its addresses**, if that succeeds. -/
theorem running_reloadTls (hnets : Rebinds nets) (hnet : net ∈ nets) (hgiven : HasGiven nets s)
    (hrunning : s.running = some (p, q)) (hok : (s.reloadTls net tls).1 = .ok ()) :
    (s.step (.reloadTls net tls)).running = some (p, q) := by
  obtain ⟨hp, hq⟩ := hgiven p q hrunning
  rw [reloadTls_eq_serve hrunning] at hok
  rw [Server.step, reloadTls_eq_serve hrunning]
  rcases (s.shut tls).serve_cases net p q with ⟨e, he⟩ | ⟨p', q', hp', hq', -, hserve⟩
  · rw [he] at hok
    cases hok
  · rw [hserve, ← bind_of_gave hnets hnet hp hp', ← bind_of_gave hnets hnet hq hq']

/-! ## Over every run -/

/-- **The life of a server.** However it is started, stopped, given other identities and used, it is
open while it runs, closed from each stop up to the next start, and serves with the identities that
came last. -/
theorem lifecycle_run (hopen : s.IsOpen) (hrunning : s.running = none) (moves : List (Move σ))
    (hnets : Rebinds (networks moves)) : Lives s moves := by
  have hsound₀ : s.Sound := sound_of_stopped hrunning (Or.inl hopen)
  have hsound := hsound₀.run moves
  obtain ⟨hprovisioning, htls⟩ := s.settings_run moves
  constructor
  · exact hsound.running
  · exact hsound.together
  · exact isClosed_run_iff hsound₀ hopen moves
  · intro hclosed
    by_contra hne
    exact (hsound.running hne).not_isClosed hclosed
  · exact fun hne net ↦ start_of_running hne net
  · exact fun hstopped net tls ↦ reloadTls_of_stopped hstopped
  · exact htls
  · intro hne
    rw [hsound.served hne, serving, hprovisioning, htls]
  · intro net hok
    by_cases hstopped : (s.run moves).running = none
    · rw [start_of_stopped hstopped] at hok ⊢
      rcases (s.run moves).serve_cases net _ _ with ⟨e, he⟩ | ⟨p', q', -, -, -, hserve⟩
      · rw [he] at hok
        cases hok
      · rw [hserve]
        exact Option.some_ne_none _
    · rw [start_of_running hstopped] at hok
      cases hok
  · rintro before net tls after p q rfl hbefore hok
    have hnet : net ∈ networks (before ++ .reloadTls net tls :: after) :=
      List.mem_filterMap.mpr ⟨.reloadTls net tls, by simp, rfl⟩
    have hgiven : HasGiven (networks (before ++ .reloadTls net tls :: after)) (s.run before) := by
      refine (hasGiven_of_stopped hrunning).run before fun net' hnet' ↦ ?_
      rw [networks, List.filterMap_append]
      exact List.mem_append_left _ hnet'
    have hkept := running_reloadTls hnets hnet hgiven hbefore hok
    have hserves := ((hsound₀.run before).step (.reloadTls net tls)).served (by simp [hkept])
    obtain ⟨hsame, hnew⟩ := (s.run before).settings_step (.reloadTls net tls)
    rw [hserves, serving, hsame, hnew, (s.settings_run before).1]
    exact ⟨hkept, rfl⟩

/-- A host with two free ports, that gives one of them to whoever leaves the choice to it. -/
def twoPorts : Network where
  bind held addr :=
    if addr = "0.0.0.0:0" then
      .ok (if "0.0.0.0:40001" ∈ held then "0.0.0.0:40002" else "0.0.0.0:40001")
    else if addr = "0.0.0.0:40001" ∨ addr = "0.0.0.0:40002" then
      if addr ∈ held then .error "Address already in use (os error 98)" else .ok addr
    else .error "invalid socket address"
  accepts _ := true

/-- A host where every port is taken. -/
def crowded : Network where
  bind _ _ := .error "Address already in use (os error 98)"
  accepts _ := true

theorem of_bind_twoPorts {addr' : String} (h : twoPorts.bind held addr = .ok addr') :
    (addr' = "0.0.0.0:40001" ∨ addr' = "0.0.0.0:40002") ∧ (addr = "0.0.0.0:0" ∨ addr' = addr) := by
  simp only [twoPorts] at h
  split at h
  case isTrue hany =>
    refine ⟨?_, Or.inl hany⟩
    split at h <;> simp_all
  case isFalse =>
    split at h
    case isTrue haddr =>
      split at h
      · cases h
      · obtain rfl := Except.ok.inj h
        exact ⟨haddr, Or.inr rfl⟩
    case isFalse => cases h

theorem rebinds_twoPorts (h : ∀ net ∈ nets, net = twoPorts ∨ net = crowded) : Rebinds nets := by
  have hgave : ∀ addr, Gave nets addr → addr = "0.0.0.0:40001" ∨ addr = "0.0.0.0:40002" := by
    rintro addr ⟨net, hnet, held, asked, hbind⟩
    rcases h net hnet with rfl | rfl
    · exact (of_bind_twoPorts hbind).1
    · cases hbind
  constructor
  · intro addr haddr
    rcases hgave addr haddr with rfl | rfl <;> rfl
  · intro net hnet held addr addr' haddr hbind
    rcases h net hnet with rfl | rfl
    · apply (of_bind_twoPorts hbind).2.resolve_left
      rcases hgave addr haddr with rfl | rfl <;> decide
    · cases hbind

/-- Identities that go by a name. -/
def named (name : String) : ListenerTls := ⟨some ⟨name, name, none⟩, some ⟨name, name, some "ca"⟩⟩

/-- A server is started twice and given other identities. It is stopped, given others again, and
started where that is not possible and then where it is. -/
def service : List (Move Rehearsal) :=
  [.start twoPorts, .start twoPorts, .use (.subscribe .publicSide .nodes) trivial,
    .reloadTls twoPorts (named "first"), .stop, .reloadTls twoPorts (named "second"),
    .start crowded, .start twoPorts]

/-- In the end it serves with the identities that it was given while it did not run. -/
theorem lifecycle_service :
    ∃ a, Agent.new (Rehearsal.site true) {} Agent.tallies {} none Agent.mainWorld = .ok a ∧
      let s : Server Rehearsal :=
        { agent := a, publicAddr := ":0", protectedAddr := ":0", provisioning := false }
      s.IsOpen ∧ s.running = none ∧ Rebinds (networks service) ∧ Lives s service ∧
        (s.run service).running = some ("0.0.0.0:40001", "0.0.0.0:40002") ∧
        (s.run service).served = named "second" := by
  have hrun : ∃ a, Agent.new (Rehearsal.site true) {} Agent.tallies {} none Agent.mainWorld =
      .ok a ∧
      let s : Server Rehearsal :=
        { agent := a, publicAddr := ":0", protectedAddr := ":0", provisioning := false }
      s.IsOpen ∧ (s.run service).running = some ("0.0.0.0:40001", "0.0.0.0:40002") ∧
        (s.run service).served = named "second" :=
    ⟨_, rfl, ⟨rfl, rfl, rfl, rfl⟩, rfl, rfl⟩
  obtain ⟨a, hnew, hopen, haddrs, hserved⟩ := hrun
  have hnets : Rebinds (networks service) := by
    have hlist : networks service =
        [twoPorts, twoPorts, twoPorts, twoPorts, crowded, twoPorts] := rfl
    rw [hlist]
    apply rebinds_twoPorts
    simp
  exact ⟨a, hnew, hopen, rfl, hnets, lifecycle_run hopen rfl service hnets, haddrs, hserved⟩

end Server

end NodeAgent
