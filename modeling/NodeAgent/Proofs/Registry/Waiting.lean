import NodeAgent.Proofs.Registry.Events

/-!
# Waiting for a connection

Whoever waits for a node subscribes to the events, and then looks whether the node is connected. As
long as it is not, it listens, and looks again when it hears that the node was connected. Only the
last few events are kept; if it was too slow for them it goes on with the oldest one kept, and looks
as well. Others act on the registry between any two of these operations.

A wait could be in vain if a node came to be connected and the event that says so were never heard:
told before the subscription, skipped with others that were lost, or consumed before the look that
it should have led to. What rules this out is one invariant (`Alert`): while somebody listens for a
node that is connected, the event that says so is among those that it has not consumed.

## Main statements

* `wait_eq`, `consume_eq`, `run_polling`: without others in between, the operations are those of the
  registry.
* `find?_pollWait`: the registry leaves a wait open only if its node is not connected.
* `attentive_run`: whoever has consumed every event and still listens waits for a node that is not
  connected; who returns a registration found it under the node; who returns none is out of time.
-/

namespace NodeAgent

/-- Where somebody who waits for a connection stands. -/
inductive WaitStage where
  /-- It has subscribed to the events, and is about to look for the first time. -/
  | subscribed (timeout : Duration)
  /-- It waits for an event, or for its deadline. -/
  | listening
  /-- It was roused by an event, or by the loss of some, and is about to look again. -/
  | roused

/-- Somebody who waits for a connection, between two operations. -/
structure Waiter where
  wait : ConnectionWait
  stage : WaitStage

/-- Somebody who waits for a connection to a registry on which others act. -/
structure Watch where
  registry : Registry
  waiter : Waiter

/-! ## Operations -/

namespace Waiter

/-- It consumes the next event, if it listens and there is one. -/
def hear (w : Waiter) (r : Registry) : Waiter :=
  match w.stage, w.wait.outcome with
  | .listening, none =>
    if w.wait.position + Registry.keptEvents < r.events.length then
      ⟨{ w.wait with position := r.events.length - Registry.keptEvents }, .roused⟩
    else
      match r.events[w.wait.position]? with
      | none => w
      | some e =>
        ⟨{ w.wait with position := w.wait.position + 1 },
          if e = .connected w.wait.node then .roused else .listening⟩
  | _, _ => w

/-- When its time is up if it looks now: the time counts from the first look. -/
def dueAt (w : Waiter) (now : Instant) : Instant :=
  match w.stage with
  | .subscribed timeout => now + timeout.nanos
  | .listening | .roused => w.wait.deadline

/-- It looks the node up, if it is about to. -/
def look (w : Waiter) (r : Registry) (now : Instant) : Waiter :=
  match w.stage with
  | .listening => w
  | .subscribed _ | .roused =>
    ⟨r.lookUp { w.wait with deadline := w.dueAt now }, .listening⟩

/-- It returns without a connection, if it listens and its time is up. -/
def expire (w : Waiter) (now : Instant) : Waiter :=
  match w.stage, w.wait.outcome with
  | .listening, none =>
    if w.wait.deadline ≤ now then { w with wait.outcome := some none } else w
  | _, _ => w

end Waiter

/-- Somebody subscribes to the events, to wait for a node. -/
def Registry.subscribe (r : Registry) (node : NodeId) (timeout : Duration) : Watch :=
  ⟨r, ⟨⟨node, 0, r.events.length, none⟩, .subscribed timeout⟩⟩

namespace Watch

/-- One operation. Others may be amid a move of theirs, which links or unlinks registrations one
after another. -/
inductive Turn where
  /-- Others do something with the registry. -/
  | others (mv : Registry.Move)
  /-- Others link a registration. -/
  | link (i : Nat)
  /-- Others unlink a registration. -/
  | unlink (i : Nat)
  | look (now : Instant)
  | hear
  | expire (now : Instant)

/-- A watch after an operation. -/
def step (c : Watch) : Turn → Watch
  | .others mv => { c with registry := c.registry.step mv }
  | .link i => { c with registry := c.registry.link i }
  | .unlink i => { c with registry := c.registry.unlink i }
  | .look now => { c with waiter := c.waiter.look c.registry now }
  | .hear => { c with waiter := c.waiter.hear c.registry }
  | .expire now => { c with waiter := c.waiter.expire now }

/-- A watch after a run. -/
def run (c : Watch) (turns : List Turn) : Watch := turns.foldl step c

variable {c c' : Watch} {t : Turn} {turns : List Turn} {r : Registry} {w : ConnectionWait}
  {node : NodeId} {timeout : Duration} {began now : Instant} {i : Nat}

theorem run_append (c : Watch) (l l' : List Turn) : c.run (l ++ l') = (c.run l).run l' :=
  List.foldl_append

theorem run_concat (c : Watch) (l : List Turn) (t : Turn) :
    c.run (l ++ [t]) = (c.run l).step t := by
  rw [run_append]
  rfl

/-! ## Without others in between -/

/-- The registry lets a wait begin with a subscription and a look at once. -/
theorem wait_eq (r : Registry) (node : NodeId) (timeout : Duration) (now : Instant) :
    r.wait node timeout now =
      { r with waits := r.waits ++ [((r.subscribe node timeout).step (.look now)).waiter.wait] } :=
  rfl

/-- The registry lets a wait look at once when it is roused. -/
theorem consume_eq (r : Registry) (w : ConnectionWait) (now : Instant) :
    (run ⟨r, ⟨w, .listening⟩⟩ [.hear, .look now]) = ⟨r, ⟨r.consume w, .listening⟩⟩ := by
  unfold Registry.consume
  cases houtcome : w.outcome with
  | some x => simp [run, step, Waiter.hear, Waiter.look, houtcome]
  | none =>
    by_cases hlost : w.position + Registry.keptEvents < r.events.length
    · simp [run, step, Waiter.hear, Waiter.look, Waiter.dueAt, houtcome, hlost]
    · cases hevent : r.events[w.position]? with
      | none => simp [run, step, Waiter.hear, Waiter.look, houtcome, hlost, hevent]
      | some e =>
        by_cases hconnected : e = .connected w.node <;>
          simp [run, step, Waiter.hear, Waiter.look, Waiter.dueAt, houtcome, hlost, hevent,
            hconnected]

/-- The operations with which a wait consumes up to `count` events and minds its deadline. -/
def polling (count : Nat) (now : Instant) : List Turn :=
  (List.replicate count [.hear, .look now]).flatten ++ [.expire now]

/-- The registry lets a wait consume all events there are and then mind its deadline. -/
theorem run_polling (r : Registry) (w : ConnectionWait) (now : Instant) :
    run ⟨r, ⟨w, .listening⟩⟩ (polling (r.events.length - w.position + 1) now) =
      ⟨r, ⟨r.pollWait now w, .listening⟩⟩ := by
  have hconsume : ∀ (count : Nat) (w : ConnectionWait),
      run ⟨r, ⟨w, .listening⟩⟩ (List.replicate count [.hear, .look now]).flatten =
        ⟨r, ⟨r.consumeMany w count, .listening⟩⟩ := by
    intro count
    induction count with
    | zero => exact fun _ ↦ rfl
    | succ count ih =>
      intro w
      rw [List.replicate_succ, List.flatten_cons, run_append, consume_eq, ih]
      rfl
  rw [polling, run_concat, hconsume, Registry.pollWait]
  generalize r.consumeMany w (r.events.length - w.position + 1) = w'
  cases houtcome : w'.outcome with
  | some x => simp [step, Waiter.expire, houtcome]
  | none =>
    by_cases hlate : w'.deadline ≤ now <;> simp [step, Waiter.expire, houtcome, hlate]

/-! ## What an operation does -/

/-- What an operation of its own makes of somebody who waits. -/
inductive Acts (r : Registry) (w : Waiter) (t : Turn) : Waiter → Prop where
  | stay : Acts r w t w
  | find {now : Instant} {i : Nat} : t = .look now → w.stage ≠ .listening →
    r.find? w.wait.node = some i →
    Acts r w t ⟨{ w.wait with deadline := w.dueAt now, outcome := some (some i) }, .listening⟩
  | miss {now : Instant} : t = .look now → w.stage ≠ .listening → r.find? w.wait.node = none →
    Acts r w t ⟨{ w.wait with deadline := w.dueAt now }, .listening⟩
  /-- It heard that the node was connected, or that it missed something. -/
  | rouse {position : Nat} : w.stage = .listening → w.wait.outcome = none →
    position ≤ r.events.length → Acts r w t ⟨{ w.wait with position }, .roused⟩
  /-- It heard something else. -/
  | pass {e : ConnectionEvent} : w.stage = .listening → w.wait.outcome = none →
    r.events[w.wait.position]? = some e → e ≠ .connected w.wait.node →
    Acts r w t ⟨{ w.wait with position := w.wait.position + 1 }, .listening⟩
  | expire {now : Instant} : t = .expire now → w.stage = .listening → w.wait.outcome = none →
    w.wait.deadline ≤ now → Acts r w t { w with wait.outcome := some none }

theorem acts_look (r : Registry) (w : Waiter) (now : Instant) :
    Acts r w (.look now) (w.look r now) := by
  have hlook : w.stage ≠ .listening → Acts r w (.look now)
      ⟨r.lookUp { w.wait with deadline := w.dueAt now }, .listening⟩ := by
    intro hstage
    unfold Registry.lookUp
    split
    · rename_i i hfound
      exact .find rfl hstage hfound
    · rename_i hmissed
      exact .miss rfl hstage hmissed
  unfold Waiter.look
  split
  · exact .stay
  · rename_i hstage
    exact hlook (by rw [hstage]; exact nofun)
  · rename_i hstage
    exact hlook (by rw [hstage]; exact nofun)

theorem acts_hear (r : Registry) (w : Waiter) : Acts r w .hear (w.hear r) := by
  unfold Waiter.hear
  split
  · rename_i hstage houtcome
    split
    · exact .rouse hstage houtcome (Nat.sub_le _ _)
    · split
      · exact .stay
      · rename_i e hevent
        split
        · exact .rouse hstage houtcome (List.getElem?_eq_some_iff.mp hevent).1
        · rename_i hother
          exact .pass hstage houtcome hevent hother
  · exact .stay

theorem acts_expire (r : Registry) (w : Waiter) (now : Instant) :
    Acts r w (.expire now) (w.expire now) := by
  unfold Waiter.expire
  split
  · rename_i hstage houtcome
    split
    · rename_i hlate
      exact .expire rfl hstage houtcome hlate
    · exact .stay
  · exact .stay

/-- What an operation makes of a watch. -/
inductive Effect (c : Watch) (t : Turn) : Watch → Prop where
  | others {r : Registry} : c.registry.Announces r → Effect c t { c with registry := r }
  | acts {w : Waiter} : Acts c.registry c.waiter t w → Effect c t { c with waiter := w }

theorem effect_step (h : c.step t = c') : Effect c t c' := by
  subst h
  cases t with
  | others mv => exact .others (c.registry.announces_step mv)
  | link i => exact .others (c.registry.tells_link i).announces
  | unlink i => exact .others (c.registry.tells_unlink i).announces
  | look now => exact .acts (acts_look _ _ _)
  | hear => exact .acts (acts_hear _ _)
  | expire now => exact .acts (acts_expire _ _ _)

theorem node_step (h : c.step t = c') : c'.waiter.wait.node = c.waiter.wait.node := by
  cases effect_step h with
  | others => rfl
  | acts hacts => cases hacts <;> rfl

theorem node_run (c : Watch) (turns : List Turn) :
    (c.run turns).waiter.wait.node = c.waiter.wait.node := by
  induction turns using List.reverseRecOn with
  | nil => rfl
  | append_singleton turns t ih => exact (node_step (run_concat c turns t).symm).trans ih

/-! ## Nothing is missed -/

/-- While somebody listens for a node that is connected, the event that says so is still to be
heard. -/
structure Alert (c : Watch) : Prop where
  within : c.waiter.wait.position ≤ c.registry.events.length
  unheard : c.waiter.stage = .listening → c.waiter.wait.outcome = none →
    c.registry.IsLinked c.waiter.wait.node →
      .connected c.waiter.wait.node ∈ c.registry.events.drop c.waiter.wait.position
  /-- Whoever has returned does not look any more. -/
  settled : c.waiter.wait.outcome ≠ none → c.waiter.stage = .listening

namespace Alert

theorem subscribe (r : Registry) (node : NodeId) (timeout : Duration) :
    Alert (r.subscribe node timeout) :=
  ⟨Nat.le_refl _, nofun, fun h ↦ absurd rfl h⟩

/-- What others do is told behind what is still to be heard. -/
theorem others (h : c.Alert) (hr : c.registry.Announces r) : Alert { c with registry := r } := by
  obtain ⟨told, hevents, hnew⟩ := hr
  refine ⟨?_, fun hstage houtcome hlinked ↦ ?_, h.settled⟩
  · change _ ≤ r.events.length
    rw [hevents, List.length_append]
    exact Nat.le_add_right_of_le h.within
  · change _ ∈ r.events.drop _
    rw [hevents, List.drop_append_of_le_length h.within]
    by_cases hbefore : c.registry.IsLinked c.waiter.wait.node
    · exact List.mem_append_left _ (h.unheard hstage houtcome hbefore)
    · exact List.mem_append_right _ (hnew _ hbefore hlinked)

theorem acts (h : c.Alert) {w : Waiter} (hacts : Acts c.registry c.waiter t w) :
    Alert { c with waiter := w } := by
  cases hacts with
  | stay => exact h
  | find _ _ _ => exact ⟨h.within, nofun, fun _ ↦ rfl⟩
  | miss _ _ hmissed => exact ⟨h.within, fun _ _ hlinked ↦ absurd hmissed hlinked, fun _ ↦ rfl⟩
  | rouse _ houtcome hposition => exact ⟨hposition, nofun, fun hreturned ↦ absurd houtcome hreturned⟩
  | @pass e hstage houtcome hevent hother =>
    obtain ⟨hlt, rfl⟩ := List.getElem?_eq_some_iff.mp hevent
    refine ⟨hlt, fun _ _ hlinked ↦ ?_, fun _ ↦ rfl⟩
    -- the event that was consumed is not the one that is waited for
    have hunheard := h.unheard hstage houtcome hlinked
    rw [List.drop_eq_getElem_cons hlt] at hunheard
    exact (List.mem_cons.mp hunheard).resolve_left (Ne.symm hother)
  | expire _ hstage _ _ => exact ⟨h.within, nofun, fun _ ↦ hstage⟩

theorem step (h : c.Alert) (t : Turn) : (c.step t).Alert := by
  generalize hstep : c.step t = c'
  cases effect_step hstep with
  | others hr => exact h.others hr
  | acts hacts => exact h.acts hacts

theorem run (h : c.Alert) (turns : List Turn) : (c.run turns).Alert := by
  induction turns using List.reverseRecOn with
  | nil => exact h
  | append_singleton turns t ih =>
    rw [run_concat]
    exact ih.step t

/-- Whoever has consumed every event and still listens waits for a node that is not connected. -/
theorem not_linked (h : c.Alert) (hstage : c.waiter.stage = .listening)
    (houtcome : c.waiter.wait.outcome = none)
    (hread : c.registry.events.length ≤ c.waiter.wait.position) :
    c.registry.find? c.waiter.wait.node = none := by
  by_contra hlinked
  have hunheard := h.unheard hstage houtcome hlinked
  rw [List.drop_eq_nil_of_le hread] at hunheard
  cases hunheard

end Alert

/-- A wait that goes on consumed an event, unless there was none. -/
theorem position_consume (h : (r.consume w).outcome = none) :
    min r.events.length (w.position + 1) ≤ (r.consume w).position := by
  have hlookUp : ∀ w : ConnectionWait, (r.lookUp w).position = w.position := by
    intro w
    unfold Registry.lookUp
    split <;> rfl
  unfold Registry.consume at h ⊢
  split
  · rename_i hreturned
    rw [if_pos hreturned] at h
    rw [h] at hreturned
    cases hreturned
  · split
    · rename_i hlost
      rw [hlookUp]
      dsimp only
      omega
    · split
      · rename_i hnone
        exact Nat.le_trans (Nat.min_le_left _ _) (List.getElem?_eq_none_iff.mp hnone)
      · dsimp only
        split
        · rw [hlookUp]
          exact Nat.min_le_right _ _
        · exact Nat.min_le_right _ _

theorem consumeMany_of_isSome (h : w.outcome ≠ none) (count : Nat) : r.consumeMany w count = w := by
  induction count with
  | zero => rfl
  | succ count ih =>
    rw [Registry.consumeMany, Registry.consume, if_pos (Option.isSome_iff_ne_none.mpr h), ih]

/-- A wait that goes on although it was let consume as many events as there are has consumed all. -/
theorem position_consumeMany {count : Nat} (h : (r.consumeMany w count).outcome = none) :
    min r.events.length (w.position + count) ≤ (r.consumeMany w count).position := by
  induction count generalizing w with
  | zero => exact Nat.min_le_right _ _
  | succ count ih =>
    have hconsume : (r.consume w).outcome = none := by
      by_contra hreturned
      rw [Registry.consumeMany, consumeMany_of_isSome hreturned] at h
      exact hreturned h
    have hfirst := position_consume hconsume
    have hrest := ih h
    rw [Registry.consumeMany]
    omega

/-- The registry leaves a wait open only if its node is not connected. -/
theorem find?_pollWait (h : Alert ⟨r, ⟨w, .listening⟩⟩) (hopen : (r.pollWait now w).outcome = none) :
    r.find? w.node = none := by
  have hpolled := run_polling r w now
  have halert := h.run (polling (r.events.length - w.position + 1) now)
  have hnode := node_run ⟨r, ⟨w, .listening⟩⟩ (polling (r.events.length - w.position + 1) now)
  rw [hpolled] at halert hnode
  change (r.pollWait now w).node = w.node at hnode
  rw [← hnode]
  refine halert.not_linked rfl hopen ?_
  change _ ≤ (r.pollWait now w).position
  unfold Registry.pollWait at hopen ⊢
  dsimp only at hopen ⊢
  split at hopen
  · cases hopen
  · rename_i hlate
    rw [if_neg hlate]
    have := position_consumeMany hopen
    omega

/-! ## What is returned -/

/-- Whoever returns has just found the node connected, or is out of time. -/
theorem returned_step {x : Option Nat} (h : c.step t = c') (hwaits : c.waiter.wait.outcome = none)
    (hreturned : c'.waiter.wait.outcome = some x) :
    (∃ i now, x = some i ∧ t = .look now ∧ c.registry.find? c.waiter.wait.node = some i) ∨
      ∃ now, x = none ∧ t = .expire now ∧ c.waiter.stage = .listening ∧
        c.waiter.wait.deadline ≤ now := by
  cases effect_step h with
  | others => cases hwaits.symm.trans hreturned
  | acts hacts =>
    cases hacts with
    | @find now i ht _ hfound =>
      exact Or.inl ⟨i, now, (Option.some.inj hreturned).symm, ht, hfound⟩
    | @expire now ht hstage _ hlate =>
      exact Or.inr ⟨now, (Option.some.inj hreturned).symm, ht, hstage, hlate⟩
    | _ => cases hwaits.symm.trans hreturned

/-- Whoever has returned stays so. -/
theorem Alert.outcome_step {x : Option Nat} (h : c.Alert) (hx : c.waiter.wait.outcome = some x) :
    (c.step t).waiter.wait.outcome = some x := by
  have hstage := h.settled (hx ▸ Option.some_ne_none x)
  generalize hstep : c.step t = c'
  cases effect_step hstep with
  | others => exact hx
  | acts hacts =>
    cases hacts with
    | find _ hlooks _ => exact absurd hstage hlooks
    | expire _ _ hwaits _ => cases hwaits.symm.trans hx
    | _ => exact hx

/-- Somebody who waits until then returns at a turn of a run. -/
def ReturnsAt (c : Watch) (turns before : List Turn) (t : Turn) (x : Option Nat) : Prop :=
  (∃ after, turns = before ++ t :: after) ∧ (c.run before).waiter.wait.outcome = none ∧
    (c.run (before ++ [t])).waiter.wait.outcome = some x

theorem returned_run {x : Option Nat} (h : c.Alert) (hwaits : c.waiter.wait.outcome = none)
    (hreturned : (c.run turns).waiter.wait.outcome = some x) :
    ∃ before t, c.ReturnsAt turns before t x := by
  induction turns using List.reverseRecOn with
  | nil => cases hwaits.symm.trans hreturned
  | append_singleton turns t ih =>
    cases hbefore : (c.run turns).waiter.wait.outcome with
    | none => exact ⟨turns, t, ⟨[], rfl⟩, hbefore, hreturned⟩
    | some y =>
      rw [run_concat, (h.run turns).outcome_step hbefore] at hreturned
      obtain rfl : y = x := Option.some.inj hreturned
      obtain ⟨before, t', ⟨after, rfl⟩, hat⟩ := ih hbefore
      exact ⟨before, t', ⟨after ++ [t], List.append_assoc _ _ _⟩, hat⟩

/-- The time of somebody who waits counts from an instant, if it has looked. -/
def Timed (began : Instant → Prop) (timeout : Duration) (w : Waiter) : Prop :=
  w.stage = .subscribed timeout ∨ (∀ timeout', w.stage ≠ .subscribed timeout') ∧
    ∃ instant, began instant ∧ w.wait.deadline = instant + timeout.nanos

namespace Timed

variable {began began' : Instant → Prop} {w w' : Waiter}

theorem mono (h : Timed began timeout w) (hmono : ∀ instant, began instant → began' instant) :
    Timed began' timeout w := by
  obtain hstage | ⟨hstage, instant, hbegan, hdue⟩ := h
  · exact Or.inl hstage
  · exact Or.inr ⟨hstage, instant, hmono instant hbegan, hdue⟩

theorem of_listening (h : Timed began timeout w) (hstage : w.stage = .listening) :
    ∃ instant, began instant ∧ w.wait.deadline = instant + timeout.nanos := by
  obtain hnew | ⟨-, hdue⟩ := h
  · rw [hstage] at hnew
    cases hnew
  · exact hdue

/-- Only the first look sets the deadline. -/
theorem dueAt (h : Timed began timeout w) (hfirst : w.stage = .subscribed timeout → began now) :
    ∃ instant, began instant ∧ w.dueAt now = instant + timeout.nanos := by
  obtain hnew | ⟨hlooked, instant, hbegan, hdue⟩ := h
  · refine ⟨now, hfirst hnew, ?_⟩
    unfold Waiter.dueAt
    rw [hnew]
  · refine ⟨instant, hbegan, ?_⟩
    unfold Waiter.dueAt
    split
    · rename_i timeout' hnew
      exact absurd hnew (hlooked timeout')
    · exact hdue
    · exact hdue

theorem acts (h : Timed began timeout w) (hacts : Acts r w t w')
    (hfirst : ∀ now, t = .look now → w.stage = .subscribed timeout → began now) :
    Timed began timeout w' := by
  cases hacts with
  | stay => exact h
  | find ht _ _ => exact Or.inr ⟨nofun, h.dueAt (hfirst _ ht)⟩
  | miss ht _ _ => exact Or.inr ⟨nofun, h.dueAt (hfirst _ ht)⟩
  | rouse hstage _ _ => exact Or.inr ⟨nofun, h.of_listening hstage⟩
  | pass hstage _ _ _ => exact Or.inr ⟨nofun, h.of_listening hstage⟩
  | expire _ hstage _ _ =>
    refine Or.inr ⟨fun timeout' hnew ↦ ?_, h.of_listening hstage⟩
    cases hstage.symm.trans hnew

end Timed

/-- The first look of a run was taken at an instant. -/
def BeganAt (c : Watch) (timeout : Duration) (turns : List Turn) (began : Instant) : Prop :=
  ∃ first middle, turns = first ++ .look began :: middle ∧
    (c.run first).waiter.stage = .subscribed timeout

theorem BeganAt.concat (h : c.BeganAt timeout turns began) (t : Turn) :
    c.BeganAt timeout (turns ++ [t]) began := by
  obtain ⟨first, middle, rfl, hstage⟩ := h
  exact ⟨first, middle ++ [t], List.append_assoc _ _ _, hstage⟩

theorem timed_run (h : c.waiter.stage = .subscribed timeout) (turns : List Turn) :
    Timed (c.BeganAt timeout turns) timeout (c.run turns).waiter := by
  induction turns using List.reverseRecOn with
  | nil => exact Or.inl h
  | append_singleton turns t ih =>
    have hlast := ih.mono fun _ hbegan ↦ BeganAt.concat hbegan t
    rw [run_concat]
    generalize hstep : (c.run turns).step t = c'
    cases effect_step hstep with
    | others => exact hlast
    | acts hacts =>
      refine hlast.acts hacts ?_
      rintro now rfl hnew
      exact ⟨turns, [], rfl, hnew⟩

/-- Somebody who subscribed to wait for a node waits and returns rightly. -/
structure Attentive (r : Registry) (node : NodeId) (timeout : Duration) (turns : List Turn) :
    Prop where
  /-- Whoever has consumed every event and still waits waits for a node that is not connected. -/
  waits : ∀ c, (r.subscribe node timeout).run turns = c → c.waiter.stage = .listening →
    c.waiter.wait.outcome = none → c.registry.events.length ≤ c.waiter.wait.position →
      c.registry.find? node = none
  /-- Whoever returned a registration had looked the node up and found it. -/
  finds : ∀ i, ((r.subscribe node timeout).run turns).waiter.wait.outcome = some (some i) →
    ∃ before now, (r.subscribe node timeout).ReturnsAt turns before (.look now) (some i) ∧
      ((r.subscribe node timeout).run before).registry.find? node = some i
  /-- Whoever returned without one did so when the time was up that counts from its first look. -/
  expires : ((r.subscribe node timeout).run turns).waiter.wait.outcome = some none →
    ∃ before now began, (r.subscribe node timeout).ReturnsAt turns before (.expire now) none ∧
      (r.subscribe node timeout).BeganAt timeout before began ∧ began + timeout.nanos ≤ now

/-- **A wait misses no connection**, whatever others do to the registry meanwhile. -/
theorem attentive_run (r : Registry) (node : NodeId) (timeout : Duration) (turns : List Turn) :
    Attentive r node timeout turns := by
  have hnode : ∀ turns, ((r.subscribe node timeout).run turns).waiter.wait.node = node :=
    node_run (r.subscribe node timeout)
  have halert := Alert.subscribe r node timeout
  constructor
  · rintro c rfl hstage houtcome hread
    have hfree := (halert.run turns).not_linked hstage houtcome hread
    rw [hnode turns] at hfree
    exact hfree
  · intro i hi
    obtain ⟨before, t, hat⟩ := returned_run halert rfl hi
    have hstep := returned_step (run_concat _ before t).symm hat.2.1 hat.2.2
    obtain ⟨j, now, hj, rfl, hfound⟩ | ⟨_, hj, -⟩ := hstep
    · obtain rfl : i = j := Option.some.inj hj
      rw [hnode before] at hfound
      exact ⟨before, now, hat, hfound⟩
    · cases hj
  · intro hi
    obtain ⟨before, t, hat⟩ := returned_run halert rfl hi
    have hstep := returned_step (run_concat _ before t).symm hat.2.1 hat.2.2
    obtain ⟨j, _, hj, -⟩ | ⟨now, -, rfl, hstage, hlate⟩ := hstep
    · cases hj
    · obtain ⟨began, hbegan, hdue⟩ := (timed_run rfl before).of_listening hstage
      exact ⟨before, now, began, hat, hbegan, hdue ▸ hlate⟩

end Watch

end NodeAgent
