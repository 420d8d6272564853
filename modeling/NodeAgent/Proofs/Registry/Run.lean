import NodeAgent.Registry.Basic
import NodeAgent.Proofs.Stream.Run

/-!
# Runs of the registry

Listeners, readers, callers and whoever closes the registry act on it in any order, each doing one
piece of work between two points at which it may have to wait. A *run* is any list of such moves.
Nodes may bring anything, and the store may change or fail between any two moves.

## Late readers

A reader that takes frames and watches for the tearing down of its stream at the same time may take
a few more before it notices. `Move.read` says how many, and a reader that is not late at all is the
one that the registry lets act (`readOne_eq_readSome`).

## Main statements

* `exists_run_settle`: what the registry does at an instant is a run.
-/

namespace NodeAgent.Registry

/-! ## Moves -/

/-- One piece of work. -/
inductive Move where
  /-- A registration comes to a listener. -/
  | arrive (allowed : List NodeStatus) (arrived : List Arrival) (ended : Bool) (now : Instant)
  | review (i : Nat) (now : Instant)
  /-- A reader takes something, or notices that it has to stop. If its stream was torn down it may
  take up to `late` things before it notices. -/
  | read (i late : Nat)
  | receive (i : Nat) (a : Arrival)
  | endInbound (i : Nat)
  /-- A caller or the node does something with a stream. -/
  | use (i : Nat) (u : Stream.Use)
  | start
  | close
  | wait (node : NodeId) (timeout : Duration) (now : Instant)
  /-- A wait consumes an event. -/
  | consume (k : Nat)
  /-- Every wait consumes all events, and ends if its time is up. -/
  | attend (now : Instant)
  /-- The store changes, or goes out, or is back. -/
  | store (s : NodeStore)

/-- A reader takes up to `count` things and stops. -/
def readLate (r : Registry) (i : Nat) (count : Nat) : Registry :=
  match r.registration? i with
  | none => r
  | some g =>
    match g.admission with
    | .admitted s true =>
      match count with
      | 0 => r.stop i
      | count + 1 => (r.readNext i g s).readLate i count
    | _ => r

/-- A reader acts, and is `late` to notice that its stream was torn down. -/
def readSome (r : Registry) (i late : Nat) : Registry :=
  match r.registration? i with
  | none => r
  | some g =>
    match g.admission with
    | .admitted s true => if s.cancelled then r.readLate i late else r.readNext i g s
    | _ => r

/-- The registry after a move. -/
def step (r : Registry) : Move → Registry
  | .arrive allowed arrived ended now => r.arrive allowed arrived ended now
  | .review i now => r.review i now
  | .read i late => r.readSome i late
  | .receive i a => (r.receive i a).2
  | .endInbound i => r.endInbound i
  | .use i u => r.updateStream i (·.use u)
  | .start => r.start
  | .close => r.close
  | .wait node timeout now => r.wait node timeout now
  | .consume k => { r with waits := r.waits.modify k r.consume }
  | .attend now => { r with waits := r.waits.map (r.pollWait now) }
  | .store s => { r with store := s }

/-- The registry after a run. -/
def run (r : Registry) (moves : List Move) : Registry := moves.foldl step r

@[simp] theorem run_nil (r : Registry) : r.run [] = r := rfl

theorem run_cons (r : Registry) (mv : Move) (l : List Move) :
    r.run (mv :: l) = (r.step mv).run l := rfl

theorem run_append (r : Registry) (l l' : List Move) : r.run (l ++ l') = (r.run l).run l' :=
  List.foldl_append

theorem run_concat (r : Registry) (l : List Move) (mv : Move) :
    r.run (l ++ [mv]) = (r.run l).step mv := by
  rw [run_append]
  rfl

/-! ## Registrations after each operation -/

variable {r r' : Registry} {i j : Nat} {g g' : Registration} {mv : Move}

theorem registration?_update (r : Registry) (i : Nat) (f : Registration → Registration) (j : Nat) :
    (r.update i f).registration? j =
      if i = j then (r.registration? j).map f else r.registration? j := by
  rw [registration?, update, List.getElem?_modify]
  split <;> simp [registration?]

theorem registration?_update_of_eq (hg : r.registration? i = some g)
    (f : Registration → Registration) : (r.update i f).registration? i = some (f g) := by
  rw [registration?_update, if_pos rfl, hg, Option.map_some]

theorem registration?_update_of_ne (h : i ≠ j) (f : Registration → Registration) :
    (r.update i f).registration? j = r.registration? j := by
  rw [registration?_update, if_neg h]

theorem registration?_unlink (r : Registry) (i j : Nat) :
    (r.unlink i).registration? j = r.registration? j := by
  unfold unlink
  split
  · rfl
  · split <;> rfl

/-- Linking a registration leaves it as it is. -/
theorem registration?_link_self (r : Registry) (i : Nat) :
    (r.link i).registration? i = r.registration? i := by
  unfold link
  split
  · rfl
  · dsimp only
    split
    · split
      · rfl
      · rename_i hne
        exact registration?_update_of_ne hne _
    · rfl

theorem find?_link {s : Stream} (hs : r.stream? i = some s) (node : NodeId) :
    (r.link i).find? node = if s.node = node then some i else r.find? node := by
  have hinsert : ((r.links.insert s.node i).get? node) =
      if s.node = node then some i else r.find? node := Table.get?_insert _ _ _ _
  unfold link
  rw [hs]
  dsimp only
  split
  · split <;> exact hinsert
  · exact hinsert

theorem find?_unlink {s : Stream} (hs : r.stream? i = some s) (node : NodeId) :
    (r.unlink i).find? node =
      if s.node = node ∧ r.find? node = some i then none else r.find? node := by
  unfold unlink
  rw [hs]
  dsimp only
  by_cases hlinked : r.find? s.node = some i
  · rw [if_pos hlinked]
    have herase : (r.links.erase s.node).get? node =
        if s.node = node then none else r.links.get? node := Table.get?_erase _ _ _
    refine herase.trans ?_
    by_cases hnode : s.node = node
    · rw [if_pos hnode, if_pos ⟨hnode, hnode ▸ hlinked⟩]
    · rw [if_neg hnode, if_neg fun h ↦ hnode h.1]
      rfl
  · rw [if_neg hlinked, if_neg]
    rintro ⟨rfl, h⟩
    exact hlinked h

/-- The first registration became the second by having its stream torn down, if at all. -/
def Closes (g g' : Registration) : Prop := g' = g ∨ g' = g.mapStream .close

theorem mapStream_close_close (g : Registration) :
    (g.mapStream .close).mapStream .close = g.mapStream .close := by
  cases h : g.admission <;> simp [Registration.mapStream, h]

theorem Closes.mapStream (h : Closes g g') : Closes g (g'.mapStream .close) := by
  rcases h with rfl | rfl
  · exact Or.inr rfl
  · exact Or.inr (mapStream_close_close g)

/-- Linking a registration leaves every other one as it is, except one that is replaced. -/
theorem closes_link (r : Registry) (i : Nat) (hg : r.registration? j = some g) :
    ∃ g', (r.link i).registration? j = some g' ∧ (g' = g ∨ g' = g.mapStream .close ∧
      ∃ node, r.find? node = some j ∧ (r.link i).find? node ≠ some j) := by
  cases hs : r.stream? i with
  | none =>
    refine ⟨g, ?_, Or.inl rfl⟩
    unfold link
    rw [hs]
    exact hg
  | some s =>
    have hfind := find?_link hs s.node
    rw [if_pos rfl] at hfind
    by_cases hreplaced : r.find? s.node = some j ∧ j ≠ i
    · obtain ⟨hj, hne⟩ := hreplaced
      refine ⟨g.mapStream .close, ?_, Or.inr ⟨rfl, s.node, hj, ?_⟩⟩
      · unfold link
        rw [hs]
        dsimp only
        rw [hj]
        dsimp only
        rw [if_neg hne]
        exact registration?_update_of_eq hg _
      · rw [hfind, ne_eq, Option.some.injEq]
        exact hne.symm
    · refine ⟨g, ?_, Or.inl rfl⟩
      unfold link
      rw [hs]
      dsimp only
      split
      · rename_i k hk
        split
        · exact hg
        · rename_i hki
          refine (registration?_update_of_ne ?_ _).trans hg
          rintro rfl
          exact hreplaced ⟨hk, hki⟩
      · exact hg

theorem closes_close (r : Registry) (hg : r.registration? j = some g) :
    ∃ g', r.close.registration? j = some g' ∧ Closes g g' := by
  unfold close
  -- the streams are torn down one entry after another, from any registry with `g` at `j`
  generalize hr : ({ r with closed := true, links := {} } : Registry) = r₀
  have hg₀ : ∃ g', r₀.registration? j = some g' ∧ Closes g g' :=
    ⟨g, by rw [← hr]; exact hg, Or.inl rfl⟩
  clear hr
  induction r.links.entries generalizing r₀ with
  | nil => exact hg₀
  | cons e es ih =>
    refine ih _ ?_
    obtain ⟨g', hg', h⟩ := hg₀
    by_cases he : e.2 = j
    · subst he
      exact ⟨_, registration?_update_of_eq hg' _, h.mapStream⟩
    · exact ⟨g', (registration?_update_of_ne he _).trans hg', h⟩

theorem stream?_congr (h : r'.registration? j = r.registration? j) :
    r'.stream? j = r.stream? j := congrArg (Option.bind · Registration.stream?) h

theorem stream?_of_admitted {s : Stream} {reading : Bool} (hg : r.registration? i = some g)
    (h : g.admission = .admitted s reading) : r.stream? i = some s := by
  rw [stream?, hg, Option.bind_some, Registration.stream?, h]

theorem registration?_of_stream? {s : Stream} (hs : r.stream? j = some s) :
    ∃ g reading, r.registration? j = some g ∧ g.admission = .admitted s reading := by
  obtain ⟨g, hg, hstream⟩ := Option.bind_eq_some_iff.mp hs
  unfold Registration.stream? at hstream
  split at hstream
  · rename_i s' reading h
    cases hstream
    exact ⟨g, reading, hg, h⟩
  · cases hstream

theorem stream?_updateStream {s : Stream} (hs : r.stream? i = some s) (f : Stream → Stream) :
    (r.updateStream i f).stream? i = some (f s) := by
  obtain ⟨g, reading, hg, h⟩ := registration?_of_stream? hs
  have hadmission : (g.mapStream f).admission = .admitted (f s) reading := by
    rw [Registration.mapStream, h]
  exact stream?_of_admitted (registration?_update_of_eq hg _) hadmission

/-- Linking a registration tears down the stream of the one that it replaces. -/
theorem stream?_link_replaced {s t : Stream} (hs : r.stream? i = some s)
    (hj : r.find? s.node = some j) (hne : j ≠ i) (ht : r.stream? j = some t) :
    (r.link i).stream? j = some t.close := by
  unfold link
  rw [hs]
  dsimp only
  rw [hj]
  dsimp only
  rw [if_neg hne]
  exact stream?_updateStream (r := { r with links := r.links.insert s.node i }) ht .close

/-- Linking a registration leaves one alone that is not linked for the same node. -/
theorem registration?_link_of_unlinked {s : Stream} (hs : r.stream? i = some s)
    (h : r.find? s.node ≠ some j) : (r.link i).registration? j = r.registration? j := by
  unfold link
  rw [hs]
  dsimp only
  split
  · rename_i k hk
    split
    · rfl
    · refine registration?_update_of_ne ?_ _
      rintro rfl
      exact h hk
  · rfl

/-! ## Readers that are late, and one that is not -/

section Late

variable {s : Stream}

theorem readLate_zero (hg : r.registration? i = some g)
    (hreading : g.admission = .admitted s true) : r.readLate i 0 = r.stop i := by
  rw [readLate, hg]
  dsimp only
  rw [hreading]

theorem readLate_succ (hg : r.registration? i = some g) (hreading : g.admission = .admitted s true)
    (count : Nat) : r.readLate i (count + 1) = (r.readNext i g s).readLate i count := by
  rw [readLate, hg]
  dsimp only
  rw [hreading]

theorem readLate_stopped (hg : r.registration? i = some g)
    (hstopped : g.admission = .admitted s false) (count : Nat) : r.readLate i count = r := by
  unfold readLate
  rw [hg]
  dsimp only
  rw [hstopped]

theorem readSome_of_open (hg : r.registration? i = some g)
    (hreading : g.admission = .admitted s true) (hopen : s.cancelled = false) (late : Nat) :
    r.readSome i late = r.readNext i g s := by
  unfold readSome
  rw [hg]
  dsimp only
  rw [hreading]
  dsimp only
  rw [hopen]
  rfl

theorem readSome_of_cancelled (hg : r.registration? i = some g)
    (hreading : g.admission = .admitted s true) (hcancelled : s.cancelled = true) (late : Nat) :
    r.readSome i late = r.readLate i late := by
  unfold readSome
  rw [hg]
  dsimp only
  rw [hreading]
  dsimp only
  rw [if_pos hcancelled]

theorem readSome_of_stopped (hg : r.registration? i = some g)
    (hstopped : g.admission = .admitted s false) (late : Nat) : r.readSome i late = r := by
  unfold readSome
  rw [hg]
  dsimp only
  rw [hstopped]

/-- A reader that is not late is the one that `readOne` lets act. -/
theorem readOne_eq_readSome (r : Registry) (i : Nat) : r.readOne i = r.readSome i 0 := by
  unfold readOne readSome
  cases hg : r.registration? i with
  | none => rfl
  | some g =>
    dsimp only
    cases hreading : g.admission with
    | admitted s reading =>
      cases reading with
      | true =>
        dsimp only
        rw [readLate_zero hg hreading]
      | false => rfl
    | waiting deadline => rfl
    | refused e => rfl

end Late

/-! ## The schedule of the agent

`settle` lets registrations, waits, readers and calls take turns in a fixed order. That is a run. -/

theorem exists_run_foldl {α : Type} {f : Registry → α → Registry}
    (hf : ∀ r a, ∃ l, f r a = r.run l) (as : List α) (r : Registry) :
    ∃ l, as.foldl f r = r.run l := by
  induction as generalizing r with
  | nil => exact ⟨[], rfl⟩
  | cons a as ih =>
    obtain ⟨l, hl⟩ := hf r a
    obtain ⟨l', hl'⟩ := ih (f r a)
    exact ⟨l ++ l', by rw [List.foldl_cons, hl', hl, run_append]⟩

theorem exists_run_readMany (i count : Nat) (r : Registry) :
    ∃ l, r.readMany i count = r.run l := by
  induction count generalizing r with
  | zero => exact ⟨[], rfl⟩
  | succ count ih =>
    obtain ⟨l, hl⟩ := ih (r.readOne i)
    refine ⟨.read i 0 :: l, ?_⟩
    rw [readMany, hl, readOne_eq_readSome]
    rfl

theorem mapStream_mapStream (f f' : Stream → Stream) (g : Registration) :
    (g.mapStream f).mapStream f' = g.mapStream fun s ↦ f' (f s) := by
  cases h : g.admission <;> simp [Registration.mapStream, h]

theorem mapStream_id (g : Registration) : g.mapStream (fun s ↦ s) = g := by
  obtain ⟨allowed, arrived, ended, admission⟩ := g
  cases admission <;> rfl

theorem updateStream_updateStream (r : Registry) (i : Nat) (f f' : Stream → Stream) :
    (r.updateStream i f).updateStream i f' = r.updateStream i fun s ↦ f' (f s) := by
  unfold updateStream update
  rw [List.modify_modify_eq]
  congr 2
  funext g
  exact mapStream_mapStream f f' g

/-- The uses of a stream are moves of the registry. -/
theorem updateStream_uses (r : Registry) (i : Nat) (us : List Stream.Use) :
    r.updateStream i (fun s ↦ us.foldl Stream.use s) = r.run (us.map (.use i)) := by
  induction us generalizing r with
  | nil =>
    have hid : Registration.mapStream (fun s ↦ s) = id := funext mapStream_id
    change r.updateStream i (fun s ↦ s) = r
    rw [updateStream, update, hid, List.modify_id]
  | cons u us ih =>
    rw [List.map_cons]
    exact (updateStream_updateStream r i (·.use u) _).symm.trans (ih _)

theorem updateStream_congr {s : Stream} (hs : r.stream? i = some s) {f f' : Stream → Stream}
    (h : f s = f' s) : r.updateStream i f = r.updateStream i f' := by
  obtain ⟨g, reading, hg, hadmission⟩ := registration?_of_stream? hs
  have hmap : g.mapStream f = g.mapStream f' := by
    simp only [Registration.mapStream, hadmission, h]
  have hregistrations : r.registrations.modify i (.mapStream f) =
      r.registrations.modify i (.mapStream f') := by
    refine List.ext_getElem? fun j ↦ ?_
    rw [List.getElem?_modify, List.getElem?_modify]
    by_cases hij : i = j
    · subst hij
      rw [show r.registrations[i]? = some g from hg]
      simp [hmap]
    · simp [hij]
  rw [updateStream, update, hregistrations]
  rfl

theorem mapStream_of_none (h : g.stream? = none) (f : Stream → Stream) : g.mapStream f = g := by
  cases hadmission : g.admission <;> simp_all [Registration.stream?, Registration.mapStream]

theorem updateStream_of_none (h : r.stream? i = none) (f : Stream → Stream) :
    r.updateStream i f = r := by
  have hregistrations : r.registrations.modify i (.mapStream f) = r.registrations := by
    refine List.ext_getElem? fun j ↦ ?_
    rw [List.getElem?_modify]
    by_cases hij : i = j
    · subst hij
      cases hg : r.registrations[i]? with
      | none => rfl
      | some g =>
        have hnone : g.stream? = none := by
          rw [stream?, show r.registration? i = some g from hg] at h
          exact h
        simp [mapStream_of_none hnone]
    · simp [hij]
  rw [updateStream, update, hregistrations]

theorem exists_run_pollAll (now : Instant) (r : Registry) (i : Nat) :
    ∃ l, r.updateStream i (·.pollAll now) = r.run l := by
  cases hs : r.stream? i with
  | none => exact ⟨[], updateStream_of_none hs _⟩
  | some s =>
    let us := (List.range s.calls.length).flatMap fun k ↦ Stream.polling k now
    have hsame : r.updateStream i (·.pollAll now) =
        r.updateStream i (fun t ↦ us.foldl Stream.use t) :=
      updateStream_congr hs (s.pollAll_eq_uses now)
    exact ⟨us.map (.use i), hsame.trans (updateStream_uses r i us)⟩

private theorem foldl_modify_range {α : Type} (f : α → α) (l : List α) :
    (List.range l.length).foldl (fun l i ↦ l.modify i f) l = l.map f := by
  have hget : ∀ n j, ((List.range n).foldl (fun l i ↦ l.modify i f) l)[j]? =
      if j < n then l[j]?.map f else l[j]? := by
    intro n j
    induction n with
    | zero => simp
    | succ n ih =>
      rw [List.range_succ, List.foldl_append, List.foldl_cons, List.foldl_nil,
        List.getElem?_modify, ih]
      by_cases hj : n = j
      · subst hj
        simp
      · have hiff : j < n + 1 ↔ j < n := by omega
        simp [hj, hiff]
  refine List.ext_getElem? fun j ↦ ?_
  rw [hget, List.getElem?_map]
  split
  · rfl
  · rename_i hj
    rw [List.getElem?_eq_none (by omega)]
    rfl

/-- Doing something to one registration after another does it to all of them. -/
theorem foldl_update_eq_map (f : Registration → Registration) (r : Registry) :
    (List.range r.registrations.length).foldl (fun r i ↦ r.update i f) r =
      { r with registrations := r.registrations.map f } := by
  have hfold : ∀ (is : List Nat) (r : Registry), is.foldl (fun r i ↦ r.update i f) r =
      { r with registrations := is.foldl (fun l i ↦ l.modify i f) r.registrations } := by
    intro is
    induction is with
    | nil => exact fun _ ↦ rfl
    | cons i is ih => exact fun r ↦ ih (r.update i f)
  rw [hfold, foldl_modify_range]

/-- **What the agent does at an instant is a run.** -/
theorem exists_run_settle (r : Registry) (now : Instant) : ∃ l, r.settle now = r.run l := by
  have hpass : ∀ r : Registry, ∃ l, r.pass now = r.run l := by
    intro r
    obtain ⟨l₁, h₁⟩ := exists_run_foldl (f := fun r i ↦ r.review i now)
      (fun r i ↦ ⟨[.review i now], rfl⟩) (List.range r.registrations.length) r
    -- each phase starts from the registry that the phase before left
    let r₁ := (r.run l₁).step (.attend now)
    obtain ⟨l₂, h₂⟩ := exists_run_foldl (f := read) (fun r i ↦ exists_run_readMany i _ r)
      (List.range r₁.registrations.length) r₁
    let r₂ := r₁.run l₂
    obtain ⟨l₃, h₃⟩ := exists_run_foldl (exists_run_pollAll now)
      (List.range r₂.registrations.length) r₂
    refine ⟨l₁ ++ .attend now :: l₂ ++ l₃, ?_⟩
    have hpolls : r₂.run l₃ = { r₂ with
        registrations := r₂.registrations.map (.mapStream fun s ↦ s.pollAll now) } :=
      h₃.symm.trans (foldl_update_eq_map _ r₂)
    rw [run_append, run_append]
    change _ = r₂.run l₃
    rw [hpolls]
    unfold pass forEach
    rw [h₁]
    change _ = { r₁.run l₂ with
        registrations := (r₁.run l₂).registrations.map (.mapStream fun s ↦ s.pollAll now) }
    rw [← h₂]
    rfl
  obtain ⟨l, hl⟩ := hpass r
  obtain ⟨l', hl'⟩ := hpass (r.pass now)
  exact ⟨l ++ l', by rw [settle, hl', hl, run_append]⟩

end NodeAgent.Registry
