import NodeAgent.Proofs.Registry.Effect

/-!
# What a move takes in

Nodes report on themselves, and what they report may end up in the store. `intake` lists the infos
that a move takes from what a registration brought, and `Takes` says what becomes of them: some go
to the store, in order, and those have statuses that the listener accepts. Nothing else reaches the
store in such a move, which neither closes the registry nor makes a registration nor gives a node a
second entry.

## Main statements

* `takes_review`, `takes_readSome`: the two moves that take anything take it in this way.
* `registration?_new`: a new registration comes to a listener and has no stream.
-/

namespace NodeAgent.Registry

variable {r r' : Registry} {i j : Nat} {g g' : Registration} {mv : Move}

/-! ## The infos that a reader takes -/

/-- The infos among up to `count` things that a reader takes. -/
def heard : (count : Nat) → List Arrival → List NodeInfo
  | count + 1, .frame f :: rest =>
    match f.message with
    | some (.info info) => info :: heard count rest
    | _ => heard count rest
  | _, _ => []

@[simp] theorem heard_nil (count : Nat) : heard count [] = [] := by
  cases count <;> rfl

theorem heard_of_info {f : NodeFrame} {info : NodeInfo} (h : f.message = some (.info info))
    (count : Nat) (rest : List Arrival) :
    heard (count + 1) (.frame f :: rest) = info :: heard count rest := by
  rw [heard, h]

theorem heard_of_not_info {f : NodeFrame} (h : ∀ info, f.message ≠ some (.info info))
    (count : Nat) (rest : List Arrival) :
    heard (count + 1) (.frame f :: rest) = heard count rest := by
  rw [heard]
  split
  · rename_i info hinfo
    exact absurd hinfo (h info)
  · rfl

theorem heard_succ (count : Nat) (f : NodeFrame) (rest : List Arrival) :
    heard (count + 1) (.frame f :: rest) = heard 1 (.frame f :: rest) ++ heard count rest := by
  by_cases h : ∃ info, f.message = some (.info info)
  · obtain ⟨info, hinfo⟩ := h
    have hheard : heard 1 (.frame f :: rest) = [info] := heard_of_info hinfo 0 rest
    rw [heard_of_info hinfo, hheard]
    rfl
  · have hnone : ∀ info, f.message ≠ some (.info info) := fun info hinfo ↦ h ⟨info, hinfo⟩
    have hheard : heard 1 (.frame f :: rest) = [] := heard_of_not_info hnone 0 rest
    rw [heard_of_not_info hnone, hheard, List.nil_append]

theorem message_of_heard {f : NodeFrame} {info : NodeInfo} {rest : List Arrival}
    (h : info ∈ heard 1 (.frame f :: rest)) : f.message = some (.info info) := by
  by_cases hinfo : ∃ info, f.message = some (.info info)
  · obtain ⟨info', hinfo⟩ := hinfo
    have hheard : heard 1 (.frame f :: rest) = [info'] := heard_of_info hinfo 0 rest
    rw [hheard, List.mem_singleton] at h
    rw [hinfo, h]
  · have hheard : heard 1 (.frame f :: rest) = [] :=
      heard_of_not_info (fun info h ↦ hinfo ⟨info, h⟩) 0 rest
    rw [hheard] at h
    cases h

theorem heard_one_sublist (count : Nat) (arrived : List Arrival) :
    (heard 1 arrived).Sublist (heard (count + 1) arrived) := by
  match arrived with
  | [] => exact .refl _
  | .fault :: _ => exact .refl _
  | .frame f :: rest =>
    rw [heard_succ count]
    exact List.sublist_append_left _ _

/-! ## The infos that a move takes -/

/-- The infos that a move takes from what a registration brought, with its number. -/
def intake (r : Registry) : Move → List (Nat × NodeInfo)
  | .review i _ =>
    match r.registration? i with
    | none => []
    | some g =>
      match g.admission with
      | .waiting _ => (heard 1 g.arrived).map fun info ↦ (i, info)
      | _ => []
  | .read i late =>
    match r.registration? i with
    | none => []
    | some g =>
      match g.admission with
      | .admitted s true =>
        (heard (if s.cancelled then late else 1) g.arrived).map fun info ↦ (i, info)
      | _ => []
  | _ => []

theorem intake_review {deadline now : Instant} (hg : r.registration? i = some g)
    (hwaiting : g.admission = .waiting deadline) :
    r.intake (.review i now) = (heard 1 g.arrived).map fun info ↦ (i, info) := by
  simp only [intake, hg, hwaiting]

theorem intake_read {s : Stream} {late : Nat} (hg : r.registration? i = some g)
    (hreading : g.admission = .admitted s true) : r.intake (.read i late) =
      (heard (if s.cancelled then late else 1) g.arrived).map fun info ↦ (i, info) := by
  simp only [intake, hg, hreading]

/-- Whoever reports waits to be admitted or is read, and what it reports is what it brought. -/
theorem heard_of_mem_intake {info : NodeInfo} (h : (i, info) ∈ r.intake mv) :
    ∃ g, r.registration? i = some g ∧
      ((∃ deadline now, mv = .review i now ∧ g.admission = .waiting deadline ∧
        info ∈ heard 1 g.arrived) ∨
      ∃ s late, mv = .read i late ∧ g.admission = .admitted s true ∧
        info ∈ heard (if s.cancelled then late else 1) g.arrived) := by
  cases mv with
  | review k now =>
    unfold intake at h
    dsimp only at h
    split at h
    · cases h
    · rename_i g hg
      split at h
      · rename_i deadline hwaiting
        obtain ⟨info', hheard, heq⟩ := List.mem_map.mp h
        obtain ⟨rfl, rfl⟩ := Prod.mk.inj heq
        exact ⟨g, hg, Or.inl ⟨deadline, now, rfl, hwaiting, hheard⟩⟩
      · cases h
  | read k late =>
    unfold intake at h
    dsimp only at h
    split at h
    · cases h
    · rename_i g hg
      split at h
      · rename_i s hreading
        obtain ⟨info', hheard, heq⟩ := List.mem_map.mp h
        obtain ⟨rfl, rfl⟩ := Prod.mk.inj heq
        exact ⟨g, hg, Or.inr ⟨s, late, rfl, hreading, hheard⟩⟩
      · cases h
  | _ => cases h

/-! ## The store takes what it may -/

/-- Nothing changes but registrations, links and events, and the store takes some of the infos, all
with accepted statuses. -/
structure Takes (r r' : Registry) (allowed : List NodeStatus) (infos : List NodeInfo) : Prop where
  count : r'.registrations.length = r.registrations.length
  closed : r'.closed = r.closed
  /-- No node comes to have two entries. -/
  keys : r.links.keys.Nodup → r'.links.keys.Nodup
  store : ∃ taken : List NodeInfo, taken.Sublist infos ∧ (∀ info ∈ taken, info.status ∈ allowed) ∧
    r'.store = taken.foldl (fun store info ↦ (store.setInfo info).2) r.store

namespace Takes

variable {allowed : List NodeStatus} {infos infos' : List NodeInfo} {info : NodeInfo}

theorem refl (r : Registry) (allowed : List NodeStatus) : Takes r r allowed [] :=
  ⟨rfl, rfl, id, [], .refl _, by simp, rfl⟩

theorem trans {r'' : Registry} (h : Takes r r' allowed infos) (h' : Takes r' r'' allowed infos') :
    Takes r r'' allowed (infos ++ infos') := by
  obtain ⟨taken, hsub, hallowed, hstore⟩ := h.store
  obtain ⟨taken', hsub', hallowed', hstore'⟩ := h'.store
  refine ⟨h'.count.trans h.count, h'.closed.trans h.closed, h'.keys ∘ h.keys, taken ++ taken',
    hsub.append hsub', fun info hmem ↦ ?_, ?_⟩
  · rcases List.mem_append.mp hmem with hmem | hmem
    · exact hallowed info hmem
    · exact hallowed' info hmem
  · rw [List.foldl_append, ← hstore, hstore']

theorem mono (h : Takes r r' allowed infos) (hsub : infos.Sublist infos') :
    Takes r r' allowed infos' := by
  obtain ⟨taken, hsub', htaken⟩ := h.store
  exact ⟨h.count, h.closed, h.keys, taken, hsub'.trans hsub, htaken⟩

theorem update (r : Registry) (i : Nat) (f : Registration → Registration)
    (allowed : List NodeStatus) : Takes r (r.update i f) allowed [] :=
  ⟨List.length_modify _ _ _, rfl, id, [], .refl _, by simp, rfl⟩

theorem link (r : Registry) (i : Nat) (allowed : List NodeStatus) :
    Takes r (r.link i) allowed [] := by
  unfold Registry.link
  split
  · exact refl r allowed
  · rename_i s _
    have hkeys : r.links.keys.Nodup → (r.links.insert s.node i).keys.Nodup :=
      fun h ↦ Table.nodup_keys_insert h _ _
    dsimp only
    split
    · split
      · exact ⟨rfl, rfl, hkeys, [], .refl _, by simp, rfl⟩
      · exact ⟨List.length_modify _ _ _, rfl, hkeys, [], .refl _, by simp, rfl⟩
    · exact ⟨rfl, rfl, hkeys, [], .refl _, by simp, rfl⟩

theorem unlink (r : Registry) (i : Nat) (allowed : List NodeStatus) :
    Takes r (r.unlink i) allowed [] := by
  unfold Registry.unlink
  split
  · exact refl r allowed
  · split
    · exact ⟨rfl, rfl, fun h ↦ Table.nodup_keys_erase h _, [], .refl _, by simp, rfl⟩
    · exact refl r allowed

theorem stop (r : Registry) (i : Nat) (allowed : List NodeStatus) :
    Takes r (r.stop i) allowed [] :=
  ((update r i _ allowed).trans (unlink _ i allowed)).trans (update _ i _ allowed)

/-- The store takes an info with an accepted status. -/
theorem setInfo {result : Except ServiceError Unit} {store : NodeStore}
    (hallowed : info.status ∈ allowed) (hset : r.store.setInfo info = (result, store)) :
    Takes r { r with store } allowed [info] := by
  refine ⟨rfl, rfl, id, [info], .refl _, by simpa using hallowed, ?_⟩
  rw [List.foldl_cons, List.foldl_nil, hset]

theorem admitWith (r : Registry) (i : Nat) (allowed : List NodeStatus) (info : NodeInfo) :
    Takes r (r.admitWith i allowed info) allowed [info] := by
  unfold Registry.admitWith
  split
  · exact (update r i _ allowed).mono (List.nil_sublist _)
  · rename_i hallowed
    rw [not_not] at hallowed
    split
    · rename_i hset
      exact (setInfo hallowed hset).trans (update _ i _ allowed)
    · rename_i hset
      dsimp only
      split
      · exact (setInfo hallowed hset).trans (update _ i _ allowed)
      · exact (setInfo hallowed hset).trans ((update _ i _ allowed).trans (link _ i allowed))

theorem report (r : Registry) (i : Nat) (g : Registration) (s : Stream) (info : NodeInfo) :
    Takes r (r.report i g s info) g.allowed [info] := by
  unfold Registry.report
  split
  · exact (refl r g.allowed).mono (List.nil_sublist _)
  · split
    · exact (unlink r i g.allowed).mono (List.nil_sublist _)
    · rename_i hallowed
      rw [not_not] at hallowed
      split
      · rename_i hset
        exact setInfo hallowed hset
      · rename_i hset
        dsimp only
        split
        · exact (setInfo hallowed hset).trans (link _ i g.allowed)
        · exact setInfo hallowed hset

theorem readNext (r : Registry) (i : Nat) (g : Registration) (s : Stream) :
    Takes r (r.readNext i g s) g.allowed (heard 1 g.arrived) := by
  unfold Registry.readNext
  split
  · split
    · exact (stop r i g.allowed).mono (List.nil_sublist _)
    · exact (refl r g.allowed).mono (List.nil_sublist _)
  · exact (stop r i g.allowed).mono (List.nil_sublist _)
  · rename_i f rest harrived
    dsimp only
    split
    · exact (update r i _ g.allowed).mono (List.nil_sublist _)
    · rename_i info hinfo
      have hheard : heard 1 (.frame f :: rest) = [info] := heard_of_info hinfo 0 rest
      rw [harrived, hheard]
      exact (update r i _ g.allowed).trans (report _ i g s info)
    · exact ((update r i _ g.allowed).trans (update _ i _ g.allowed)).mono (List.nil_sublist _)

theorem readLate {s : Stream} (hg : r.registration? i = some g)
    (hreading : g.admission = .admitted s true) (count : Nat) :
    Takes r (r.readLate i count) g.allowed (heard count g.arrived) := by
  induction count generalizing r g s with
  | zero =>
    rw [readLate_zero hg hreading]
    exact (stop r i g.allowed).mono (List.nil_sublist _)
  | succ count ih =>
    -- what was heard first comes first, and the rest is heard from the registration as it is then
    have hnext := readNext r i g s
    obtain ⟨g', hg', hreads⟩ := readsNext hg hreading
    rw [readLate_succ hg hreading]
    generalize r.readNext i g s = r' at *
    cases hreads with
    | idle hempty =>
      have hlate := ih hg' hreading
      rw [hempty, heard_nil] at hnext hlate ⊢
      exact hnext.trans hlate
    | take harrived =>
      have hlate := ih hg' hreading
      rw [harrived] at hnext ⊢
      rw [heard_succ]
      exact hnext.trans hlate
    | deliver harrived =>
      have hlate := ih hg' rfl
      rw [harrived] at hnext ⊢
      rw [heard_succ]
      exact hnext.trans hlate
    | stop _ _ =>
      rw [readLate_stopped hg' rfl]
      exact hnext.mono (heard_one_sublist count g.arrived)

end Takes

/-- Nothing changes but registrations, links and events, and the store takes what registrations
report. -/
theorem takes_review (r : Registry) (i : Nat) (now : Instant) :
    ∃ allowed infos, Takes r (r.review i now) allowed infos ∧
      ∀ info ∈ infos, ∃ g, r.registration? i = some g ∧ g.allowed = allowed ∧
        (i, info) ∈ r.intake (.review i now) := by
  have hrefuse : ∀ e, ∃ allowed infos, Takes r (r.update i (.refuse e)) allowed infos ∧
      ∀ info ∈ infos, ∃ g, r.registration? i = some g ∧ g.allowed = allowed ∧
        (i, info) ∈ r.intake (.review i now) :=
    fun e ↦ ⟨[], [], .update r i _ [], by simp⟩
  unfold review
  split
  · exact ⟨[], [], .refl r [], by simp⟩
  · rename_i g hg
    split
    · rename_i deadline hwaiting
      split
      · rename_i id info rest harrived
        have htakes := (Takes.update r i (fun g ↦ { g with arrived := rest }) g.allowed).trans
          (.admitWith _ i g.allowed info)
        refine ⟨g.allowed, [info], htakes, fun info' hinfo ↦ ?_⟩
        obtain rfl := List.mem_singleton.mp hinfo
        refine ⟨g, hg, rfl, ?_⟩
        rw [intake_review hg hwaiting, harrived]
        exact List.mem_cons_self
      · exact hrefuse _
      · exact hrefuse _
      · split
        · exact hrefuse _
        · split
          · exact hrefuse _
          · exact ⟨[], [], .refl r [], by simp⟩
    · exact ⟨[], [], .refl r [], by simp⟩

theorem takes_readSome (r : Registry) (i late : Nat) :
    ∃ allowed infos, Takes r (r.readSome i late) allowed infos ∧
      ∀ info ∈ infos, ∃ g, r.registration? i = some g ∧ g.allowed = allowed ∧
        (i, info) ∈ r.intake (.read i late) := by
  unfold readSome
  split
  · exact ⟨[], [], .refl r [], by simp⟩
  · rename_i g hg
    split
    · rename_i s hreading
      have hmem : ∀ info ∈ heard (if s.cancelled then late else 1) g.arrived,
          ∃ g', some g = some g' ∧ g'.allowed = g.allowed ∧
            (i, info) ∈ r.intake (.read i late) := by
        intro info hinfo
        refine ⟨g, rfl, rfl, ?_⟩
        rw [intake_read hg hreading]
        exact List.mem_map_of_mem hinfo
      split
      · rename_i hcancelled
        rw [if_pos hcancelled] at hmem
        rw [hg]
        exact ⟨g.allowed, _, .readLate hg hreading late, hmem⟩
      · rename_i hopen
        rw [if_neg hopen] at hmem
        rw [hg]
        exact ⟨g.allowed, _, .readNext r i g s, hmem⟩
    · exact ⟨[], [], .refl r [], by simp⟩

theorem takes_close (r : Registry) : Takes { r with closed := true } r.close [] [] := by
  have hfold : ∀ (es : List (NodeId × Nat)) (r₀ : Registry), Takes r₀ (es.foldl (fun r e ↦
      (r.updateStream e.2 .close).tell (.disconnected e.1)) r₀) [] [] := by
    intro es
    induction es with
    | nil => exact fun r₀ ↦ .refl r₀ []
    | cons e es ih =>
      intro r₀
      have hfirst : Takes r₀ ((r₀.updateStream e.2 .close).tell (.disconnected e.1)) [] [] :=
        ⟨List.length_modify _ _ _, rfl, id, [], .refl _, by simp, rfl⟩
      exact hfirst.trans (ih _)
  have h := hfold r.links.entries { r with closed := true, links := {} }
  exact ⟨h.count, h.closed, fun _ ↦ h.keys List.nodup_nil, h.store⟩

theorem links_close (r : Registry) : r.close.links = {} := by
  have hfold : ∀ (es : List (NodeId × Nat)) (r₀ : Registry), (es.foldl (fun r e ↦
      (r.updateStream e.2 .close).tell (.disconnected e.1)) r₀).links = r₀.links := by
    intro es
    induction es with
    | nil => exact fun _ ↦ rfl
    | cons e es ih => exact fun r₀ ↦ ih _
  exact hfold r.links.entries _

theorem takes_receive (r : Registry) (i : Nat) (a : Arrival) :
    Takes r (r.receive i a).2 [] [] := by
  unfold receive
  split
  · exact .refl r []
  · split
    · exact .update r i _ []
    · exact .refl r []

/-- No node ever has two entries. -/
theorem keys_step (h : r.links.keys.Nodup) (mv : Move) : (r.step mv).links.keys.Nodup := by
  cases mv with
  | review i now =>
    obtain ⟨_, _, htakes, _⟩ := takes_review r i now
    exact htakes.keys h
  | read i late =>
    obtain ⟨_, _, htakes, _⟩ := takes_readSome r i late
    exact htakes.keys h
  | receive i a => exact (takes_receive r i a).keys h
  | close => exact (takes_close r).keys h
  | _ => exact h

/-! ## Registrations are numbered as they come -/

/-- No move but an arrival changes how many registrations there are. -/
theorem length_step (r : Registry) (mv : Move) :
    (r.step mv).registrations.length = r.registrations.length ∨
      ∃ allowed arrived ended now, mv = .arrive allowed arrived ended now := by
  cases mv with
  | arrive allowed arrived ended now => exact Or.inr ⟨allowed, arrived, ended, now, rfl⟩
  | review i now =>
    obtain ⟨_, _, h, _⟩ := takes_review r i now
    exact Or.inl h.count
  | read i late =>
    obtain ⟨_, _, h, _⟩ := takes_readSome r i late
    exact Or.inl h.count
  | receive i a => exact Or.inl (takes_receive r i a).count
  | endInbound i => exact Or.inl (Takes.update r i _ []).count
  | use i u => exact Or.inl (Takes.update r i _ []).count
  | close => exact Or.inl (takes_close r).count
  | _ => exact Or.inl rfl

/-- A new registration comes to a listener. It has no stream. -/
theorem registration?_new (r : Registry) (mv : Move) (h : r.registration? j = none)
    (hg : (r.step mv).registration? j = some g) :
    ∃ ended now, mv = .arrive g.allowed g.arrived ended now ∧ g.stream? = none := by
  have hlt : j < (r.step mv).registrations.length := (List.getElem?_eq_some_iff.mp hg).1
  have hge : r.registrations.length ≤ j := List.getElem?_eq_none_iff.mp h
  rcases length_step r mv with hlength | ⟨allowed, arrived, ended, now, rfl⟩
  · omega
  · have hj : j = r.registrations.length := by
      have hlength : (r.arrive allowed arrived ended now).registrations.length =
          r.registrations.length + 1 := List.length_append
      change j < (r.arrive allowed arrived ended now).registrations.length at hlt
      omega
    subst hj
    have hlast : (r.arrive allowed arrived ended now).registration? r.registrations.length =
        some ⟨allowed, arrived, ended, if r.closed then .refused .handlerClosed else
          .waiting (now + r.firstFrameTimeout.nanos)⟩ := by
      rw [registration?, arrive, List.getElem?_concat_length]
    rw [show r.step (.arrive allowed arrived ended now) = r.arrive allowed arrived ended now from
      rfl, hlast, Option.some.injEq] at hg
    subst hg
    refine ⟨ended, now, rfl, ?_⟩
    unfold Registration.stream?
    dsimp only
    split_ifs <;> rfl

end NodeAgent.Registry
