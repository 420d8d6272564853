import NodeAgent.Proofs.Registry.Gate
import NodeAgent.Proofs.Registry.Lasting

/-!
# Which streams are torn down, and which are not

A node that registers again is reached by its new stream, and the registry tears down the one that
was linked before. Closing the registry tears down every stream that is linked. Both find the
streams through the entries, and a stream can be open without an entry: when a node reports a status
that its listener does not accept, it is unlinked and its stream stays as it is. Such a stream is
*stray*.

What holds of all other streams is shown here. A stream that was linked, or had been torn down
before, is *severed*: its outbound side has ended, whoever waited on it fails, and nothing that its
reader still takes makes the node reachable over it again.

A reader that notices late may still take what had arrived by then, so it may store what its node
had reported. It leaves all entries as they are even then, and afterwards it takes nothing at all.

## Main statements

* `anchored_run`: an open stream is linked, or its node reported a status that is not accepted.
* `exclusive_run`: a node has at most one open stream that is not stray, and a registration that is
  admitted severs every earlier stream of its node that is not.
* `severed_close`: closing the registry severs every stream that is not stray.
-/

namespace NodeAgent.Registry

variable {r r' : Registry} {i j : Nat} {g : Registration} {s t : Stream} {mv : Move}
  {node : NodeId} {reports : List (Nat × NodeInfo)}

/-! ## Tearing down what is linked -/

/-- Closing the registry tears down what the entries lead to, and no other stream. -/
theorem stream?_close (hs : r.stream? j = some s) :
    r.close.stream? j = some (if j ∈ r.links.values then s.close else s) := by
  have hfold : ∀ (es : List (NodeId × Nat)) (r₀ : Registry) (t : Stream), r₀.stream? j = some t →
      (es.foldl (fun r e ↦ (r.updateStream e.2 .close).tell (.disconnected e.1)) r₀).stream? j =
        some (if j ∈ es.map (·.2) then t.close else t) := by
    intro es
    induction es with
    | nil => exact fun r₀ t ht ↦ ht
    | cons e es ih =>
      intro r₀ t ht
      rw [List.foldl_cons, List.map_cons]
      by_cases he : e.2 = j
      · -- once torn down, a stream stays as it is
        have ht' : ((r₀.updateStream e.2 .close).tell (.disconnected e.1)).stream? j =
            some t.close := he ▸ stream?_updateStream (he ▸ ht) .close
        rw [ih _ _ ht', Stream.close_close, ite_self, if_pos (he ▸ List.mem_cons_self)]
      · have ht' : ((r₀.updateStream e.2 .close).tell (.disconnected e.1)).stream? j = some t :=
          (stream?_congr (registration?_update_of_ne he _)).trans ht
        rw [ih _ _ ht']
        simp only [List.mem_cons, Ne.symm he, false_or]
  exact hfold r.links.entries _ s hs

theorem stream?_close_of_linked (hr : r.Regular reports) (hs : r.stream? j = some s)
    (h : r.find? node = some j) : r.close.stream? j = some s.close := by
  rw [stream?_close hs, if_pos ((Table.mem_values_iff hr.keys).mpr ⟨node, h⟩)]

/-- An entry leads to a stream of its own node, so one without an entry of its own has none. -/
theorem stream?_close_of_unlinked (hr : r.Regular reports) (hs : r.stream? j = some s)
    (h : r.find? s.node ≠ some j) : r.close.stream? j = some s := by
  rw [stream?_close hs, if_neg]
  intro hmem
  obtain ⟨node, hlinked⟩ := (Table.mem_values_iff hr.keys).mp hmem
  obtain ⟨t, ht, rfl, -⟩ := hr.exists_open_of_linked hlinked
  obtain rfl := Option.some.inj (hs.symm.trans ht)
  exact h hlinked

/-- Whoever loses its entry because another registration is linked has its stream torn down. -/
theorem closed_of_link (ht : r.stream? i = some t) (hs : r.stream? j = some s)
    (h : r.find? node = some j) (hgone : (r.link i).find? node ≠ some j) :
    (r.link i).stream? j = some s.close := by
  rw [find?_link ht] at hgone
  split at hgone
  · rename_i hnode
    subst hnode
    exact stream?_link_replaced ht h (fun hji ↦ hgone (congrArg some hji.symm)) hs
  · exact absurd h hgone

theorem closed_of_review {now : Instant} (hs : r.stream? j = some s) (h : r.find? node = some j)
    (hgone : (r.review i now).find? node ≠ some j) :
    (r.review i now).stream? j = some s.close := by
  generalize hr' : r.review i now = r' at hgone ⊢
  have hlinks : ∀ r₁ : Registry, r₁.links = r.links → r₁ ≠ r' := by
    rintro r₁ hsame rfl
    exact hgone ((congrArg (·.get? node) hsame).trans h)
  -- the entries are the same in all cases but one
  unfold review at hr'
  split at hr'
  · exact absurd hr' (hlinks _ rfl)
  · rename_i gi hi
    split at hr'
    · rename_i hwaiting
      split at hr'
      · rename_i info rest _
        unfold admitWith at hr'
        split at hr'
        · exact absurd hr' (hlinks _ rfl)
        · split at hr'
          · exact absurd hr' (hlinks _ rfl)
          · rename_i store _
            dsimp only at hr'
            split at hr'
            · exact absurd hr' (hlinks _ rfl)
            · obtain ⟨gj, _, hj, hadmission⟩ := registration?_of_stream? hs
              have hne : i ≠ j := by
                rintro rfl
                obtain rfl := Option.some.inj (hi.symm.trans hj)
                rw [hwaiting] at hadmission
                cases hadmission
              have hadmitted := registration?_admitted hi rest info store
              subst hr'
              refine closed_of_link (stream?_of_admitted hadmitted rfl) ?_ h hgone
              refine stream?_of_admitted ?_ hadmission
              rw [registration?_update_of_ne hne]
              exact (registration?_update_of_ne hne _).trans hj
      · exact absurd hr' (hlinks _ rfl)
      · exact absurd hr' (hlinks _ rfl)
      · split at hr'
        · exact absurd hr' (hlinks _ rfl)
        · split at hr'
          · exact absurd hr' (hlinks _ rfl)
          · exact absurd hr' (hlinks _ rfl)
    · exact absurd hr' (hlinks _ rfl)

/-! ## How an entry is lost -/

/-- The node of a registration reported a status that its listener does not accept. -/
def Reported (r : Registry) (reports : List (Nat × NodeInfo)) (j : Nat) (s : Stream) : Prop :=
  ∃ g info, r.registration? j = some g ∧ (j, info) ∈ reports ∧ info.nodeId = s.node ∧
    info.status ∉ g.allowed

/-- The own reader takes an entry away by stopping, or for a status that is not accepted. -/
theorem closed_or_reported_of_readNext {late : Nat} (hg : r.registration? j = some g)
    (hreading : g.admission = .admitted s true) (hopen : s.cancelled = false)
    (h : r.find? s.node = some j) (hgone : (r.readNext j g s).find? s.node ≠ some j) :
    (∃ s', (r.readNext j g s).stream? j = some s' ∧ s'.closed = true) ∨
      r.Reported (r.intake (.read j late)) j s := by
  have hstop : ∃ s', (r.stop j).stream? j = some s' ∧ s'.closed = true :=
    ⟨s.close, stream?_of_admitted (registration?_stop hg hreading) rfl, s.closed_close⟩
  have hin : r.intake (.read j late) = _ := intake_read hg hreading
  rw [hopen] at hin
  unfold readNext at hgone ⊢
  split at hgone
  · split at hgone
    · rename_i hended
      rw [if_pos hended]
      exact Or.inl hstop
    · exact absurd h hgone
  · exact Or.inl hstop
  · rename_i f rest harrived
    dsimp only at hgone ⊢
    split at hgone
    · exact absurd h hgone
    · rename_i info hinfo
      have htaken := registration?_update_of_eq hg fun g ↦ { g with arrived := rest }
      have hs := stream?_of_admitted (s := s) htaken hreading
      unfold report at hgone
      split at hgone
      · exact absurd h hgone
      · rename_i hown
        split at hgone
        · rename_i hallowed
          refine Or.inr ⟨g, info, hg, ?_, not_not.mp hown, hallowed⟩
          have hheard : heard 1 g.arrived = [info] := by
            rw [harrived]
            exact heard_of_info hinfo 0 rest
          rw [hin, if_neg Bool.false_ne_true, hheard]
          exact List.mem_cons_self
        · split at hgone
          · exact absurd h hgone
          · rename_i store _
            dsimp only at hgone
            split at hgone
            · -- it is linked anew
              refine absurd ?_ hgone
              exact (find?_link (r := { r.update j _ with store }) hs s.node).trans (if_pos rfl)
            · exact absurd h hgone
    · exact absurd h hgone

/-- **Whoever loses its entry** has its stream torn down, unless its node reported a status that is
not accepted. -/
theorem closed_or_reported_step (hr : r.Regular reports) (hs : r.stream? j = some s)
    (h : r.find? s.node = some j) (hgone : (r.step mv).find? s.node ≠ some j) :
    (∃ s', (r.step mv).stream? j = some s' ∧ s'.closed = true) ∨
      r.Reported (r.intake mv) j s := by
  cases mv with
  | review i now => exact Or.inl ⟨_, closed_of_review hs h hgone, s.closed_close⟩
  | read i late =>
    by_cases hij : j = i
    · subst hij
      obtain ⟨g, s₁, hg, hreading, -, -, hopen, -⟩ := hr.sound.linked _ _ h
      obtain rfl := Option.some.inj (hs.symm.trans (stream?_of_admitted hg hreading))
      have hnext : r.step (.read j late) = r.readNext j g s :=
        readSome_of_open hg hreading hopen late
      rw [hnext] at hgone ⊢
      exact closed_or_reported_of_readNext hg hreading hopen h hgone
    · exact absurd ((gated_others hij).mpr h) hgone
  | receive i a =>
    refine absurd ?_ hgone
    change (r.receive i a).2.find? s.node = some j
    unfold receive
    split
    · exact h
    · split <;> exact h
  | close => exact Or.inl ⟨_, stream?_close_of_linked hr hs h, s.closed_close⟩
  | _ => exact absurd h hgone

/-! ## Open streams that are not linked -/

/-- Every open stream is linked, or its node reported a status that is not accepted. -/
def Anchored (r : Registry) (reports : List (Nat × NodeInfo)) : Prop :=
  ∀ j s, r.stream? j = some s → s.closed = false →
    r.find? s.node = some j ∨ r.Reported reports j s

/-- A report is not forgotten. -/
theorem Reported.step {reports' : List (Nat × NodeInfo)} (h : r.Reported reports j s) (mv : Move)
    (l : List Stream.Move) (hsub : reports ⊆ reports') :
    (r.step mv).Reported reports' j (s.run l) := by
  obtain ⟨g, info, hg, hin, hnode, hallowed⟩ := h
  obtain ⟨g', hg', -⟩ := effect_step r mv hg
  refine ⟨g', info, hg', hsub hin, hnode.trans (s.node_run l).symm, ?_⟩
  rw [allowed_step hg hg']
  exact hallowed

theorem Anchored.step (ha : r.Anchored reports) (hr : r.Regular reports) (mv : Move) :
    (r.step mv).Anchored (reports ++ r.intake mv) := by
  intro j s' hs' hopen'
  cases hs : r.stream? j with
  | none =>
    obtain ⟨info, rfl, htakes⟩ := takesOver_of_stream_new hs hs'
    exact Or.inl htakes.entry
  | some s =>
    obtain ⟨l, hl⟩ := stream?_step hs mv
    obtain rfl := Option.some.inj (hs'.symm.trans hl)
    have hopen : s.closed = false := by
      rw [Bool.eq_false_iff]
      intro hclosed
      rw [Stream.closed_run hclosed l] at hopen'
      cases hopen'
    rcases ha j s hs hopen with hlinked | hreported
    · by_cases hkept : (r.step mv).find? s.node = some j
      · exact Or.inl ((s.node_run l).symm ▸ hkept)
      · rcases closed_or_reported_step hr hs hlinked hkept with ⟨t, ht, hclosed⟩ | hreported
        · obtain rfl := Option.some.inj (ht.symm.trans hl)
          rw [hclosed] at hopen'
          cases hopen'
        · exact Or.inr (hreported.step mv l (List.subset_append_right _ _))
    · exact Or.inr (hreported.step mv l (List.subset_append_left _ _))

/-- **An open stream is linked**, throughout every run, unless its node reported a status over it
that is not accepted. -/
theorem anchored_run (timeout : Duration) (store : NodeStore) (moves : List Move) :
    let r : Registry := { firstFrameTimeout := timeout, store }
    (r.run moves).Anchored (r.reports moves) := by
  intro r
  induction moves using List.reverseRecOn with
  | nil =>
    intro j s hs
    cases hs
  | append_singleton moves mv ih =>
    rw [run_concat, reports_concat]
    exact ih.step ((Regular.of_new timeout store).run moves) mv

/-- The stream of a registration is open, but its node is not reached by it, having reported a
status over it that is not accepted. -/
structure Stray (r : Registry) (reports : List (Nat × NodeInfo)) (j : Nat) (s : Stream) :
    Prop where
  isOpen : s.closed = false
  unlinked : r.find? s.node ≠ some j
  reported : r.Reported reports j s

/-! ## Severed streams -/

/-- Nothing comes of the stream of a registration any more, whatever happens. -/
structure Severed (r : Registry) (j : Nat) : Prop where
  /-- The outbound side has ended. -/
  ended : ∀ moves, ∃ s, (r.run moves).stream? j = some s ∧ s.closed = true ∧ s.next = (.ended, s)
  unlinked : ∀ moves node, (r.run moves).find? node ≠ some j
  /-- What the reader takes changes no entry, even if it is late. -/
  entries : ∀ moves late node,
    ((r.run moves).step (.read j late)).find? node = (r.run moves).find? node
  /-- What the reader takes is not stored, if it is not late. -/
  store : ∀ moves, ((r.run moves).step (.read j 0)).store = (r.run moves).store
  /-- Once the reader noticed it takes nothing. -/
  unread : ∀ moves late moves' late',
    let r' := ((r.run moves).step (.read j late)).run moves'
    r'.step (.read j late') = r'

/-- A call on the stream of a registration fails, whatever happens. -/
def CallFails (r : Registry) (j k : Nat) : Prop :=
  ∀ moves s, (r.run moves).stream? j = some s → s.Fails k

/-- The reader of the registration has stopped. -/
def Stopped (r : Registry) (j : Nat) : Prop :=
  ∃ g s, r.registration? j = some g ∧ g.admission = .admitted s false

theorem Stopped.step (h : r.Stopped j) (mv : Move) : (r.step mv).Stopped j := by
  obtain ⟨g, s, hg, hstopped⟩ := h
  obtain ⟨g', hg', heff⟩ := effect_step r mv hg
  have hmap : ∀ f, (g.mapStream f).admission = .admitted (f s) false := by
    intro f
    rw [Registration.mapStream, hstopped]
  have hreading : ∀ {t}, g.admission ≠ .admitted t true := by
    intro t h
    rw [hstopped] at h
    cases h
  have hwaiting : ∀ {deadline}, g.admission ≠ .waiting deadline := by
    intro deadline h
    rw [hstopped] at h
    cases h
  cases heff with
  | none => exact ⟨g, s, hg', hstopped⟩
  | close _ => exact ⟨_, _, hg', hmap _⟩
  | refuse e _ h => exact absurd h hwaiting
  | accept _ h _ => exact absurd h hwaiting
  | take _ h _ _ => exact absurd h hreading
  | deliver _ h _ _ => exact absurd h hreading
  | stop _ h _ _ => exact absurd h hreading
  | receive a _ _ => exact ⟨_, s, hg', hstopped⟩
  | endInbound _ => exact ⟨_, s, hg', hstopped⟩
  | use _ => exact ⟨_, _, hg', hmap _⟩

theorem Stopped.run (h : r.Stopped j) (moves : List Move) : (r.run moves).Stopped j := by
  induction moves using List.reverseRecOn with
  | nil => exact h
  | append_singleton moves mv ih =>
    rw [run_concat]
    exact ih.step mv

theorem Stopped.readSome (h : r.Stopped j) (late : Nat) : r.readSome j late = r := by
  obtain ⟨g, s, hg, hstopped⟩ := h
  exact readSome_of_stopped hg hstopped late

section Torn

variable (hr : r.Regular reports) (hs : r.stream? j = some s) (hclosed : s.closed = true)
include hr hs hclosed

/-- A reader of a stream that is torn down stops. -/
theorem stopped_readSome (late : Nat) : (r.readSome j late).Stopped j := by
  have hcancelled := (hr.whole j s hs).cancelled.trans hclosed
  obtain ⟨g, reading, hg, hadmission⟩ := registration?_of_stream? hs
  cases reading with
  | false =>
    rw [readSome_of_stopped hg hadmission]
    exact ⟨g, s, hg, hadmission⟩
  | true =>
    obtain ⟨-, -, l, -, hlast⟩ := readsLate hg hadmission late
    rw [readSome_of_cancelled hg hadmission hcancelled]
    exact ⟨_, (s.run l).close, hlast, rfl⟩

theorem unlinked_of_closed (node : NodeId) : r.find? node ≠ some j := by
  intro h
  obtain ⟨t, ht, -, hopen⟩ := hr.exists_open_of_linked h
  obtain rfl := Option.some.inj (hs.symm.trans ht)
  rw [hclosed] at hopen
  cases hopen

/-- A reader of a stream that is torn down leaves all entries alone, its own included. -/
theorem find?_readSome_of_closed (late : Nat) (node : NodeId) :
    (r.readSome j late).find? node = r.find? node := by
  have hr' := hr.step (.read j late)
  obtain ⟨l, hl⟩ := stream?_step hs (.read j late)
  refine Option.ext fun k ↦ ?_
  by_cases hk : k = j
  · subst hk
    have hbefore := unlinked_of_closed hr hs hclosed node
    have hafter := unlinked_of_closed hr' hl (Stream.closed_run hclosed l) node
    exact ⟨fun h ↦ absurd h hafter, fun h ↦ absurd h hbefore⟩
  · exact gated_others hk

theorem store_readSome_of_closed : (r.readSome j 0).store = r.store := by
  have hcancelled := (hr.whole j s hs).cancelled.trans hclosed
  obtain ⟨g, reading, hg, hadmission⟩ := registration?_of_stream? hs
  cases reading with
  | false => rw [readSome_of_stopped hg hadmission]
  | true =>
    rw [readSome_of_cancelled hg hadmission hcancelled, readLate_zero hg hadmission]
    exact (Takes.stop r j []).store_eq

/-- **A stream that is torn down is severed.** -/
theorem severed_of_closed : r.Severed j := by
  -- the stream is torn down after every run, and the registry is regular
  have hlater : ∀ moves, (r.run moves).Regular (reports ++ r.reports moves) ∧
      ∃ s', (r.run moves).stream? j = some s' ∧ s'.closed = true := by
    intro moves
    obtain ⟨l, hl⟩ := stream?_run hs moves
    exact ⟨hr.run moves, _, hl, Stream.closed_run hclosed l⟩
  refine ⟨fun moves ↦ ?_, fun moves node ↦ ?_, fun moves late node ↦ ?_, fun moves ↦ ?_,
    fun moves late moves' late' ↦ ?_⟩
  · obtain ⟨hr', s', hs', hclosed'⟩ := hlater moves
    refine ⟨s', hs', hclosed', ?_⟩
    rw [Stream.next, if_pos ((hr'.whole j s' hs').cancelled.trans hclosed')]
  · obtain ⟨hr', s', hs', hclosed'⟩ := hlater moves
    exact unlinked_of_closed hr' hs' hclosed' node
  · obtain ⟨hr', s', hs', hclosed'⟩ := hlater moves
    exact find?_readSome_of_closed hr' hs' hclosed' late node
  · obtain ⟨hr', s', hs', hclosed'⟩ := hlater moves
    exact store_readSome_of_closed hr' hs' hclosed'
  · obtain ⟨hr', s', hs', hclosed'⟩ := hlater moves
    exact ((stopped_readSome hr' hs' hclosed' late).run moves').readSome late'

end Torn

/-- What becomes of a stream when its node registers again, or when the registry is closed: a stray
one is left as it is, and any other is severed, so that whoever waits on it fails. -/
def Parts (r r' : Registry) (reports : List (Nat × NodeInfo)) (j : Nat) (s : Stream) : Prop :=
  r.Stray reports j s ∧ r'.stream? j = some s ∨
    r'.Severed j ∧ ∀ k id, s.Waits k id → r'.CallFails j k

theorem parts_step (mv : Move) (hr : r.Regular reports) (ha : r.Anchored reports)
    (hs : r.stream? j = some s)
    (hlinked : r.find? s.node = some j → (r.step mv).stream? j = some s.close)
    (hunlinked : r.find? s.node ≠ some j → (r.step mv).stream? j = some s) :
    r.Parts (r.step mv) reports j s := by
  -- a stream that was torn down before is as if it were torn down now
  have htorn : ∀ {s'}, (r.step mv).stream? j = some s' → s' = s.close →
      r.Parts (r.step mv) reports j s := by
    rintro _ hs' rfl
    have hsevered := severed_of_closed (hr.step mv) hs' s.closed_close
    refine Or.inr ⟨hsevered, fun k id hwaits moves t ht ↦ ?_⟩
    obtain ⟨l, hl⟩ := stream?_run hs' moves
    obtain rfl := Option.some.inj (ht.symm.trans hl)
    exact ((hr.whole j s hs).fails_close hwaits).run l
  by_cases hfind : r.find? s.node = some j
  · exact htorn (hlinked hfind) rfl
  · cases hopen : s.closed with
    | true => exact htorn (hunlinked hfind) (Stream.close_of_closed hopen).symm
    | false => exact Or.inl ⟨⟨hopen, hfind, (ha j s hs hopen).resolve_left hfind⟩, hunlinked hfind⟩

/-! ## Registering again -/

/-- A node has one open stream, but for stray ones. -/
structure Exclusive (r : Registry) (reports : List (Nat × NodeInfo)) : Prop where
  single : ∀ i j s t, r.stream? i = some s → r.stream? j = some t → s.node = t.node →
    s.closed = false → t.closed = false → i = j ∨ r.Stray reports i s ∨ r.Stray reports j t
  /-- A registration that is admitted severs every earlier stream of its node that is not stray. -/
  severs : ∀ mv i s, r.stream? i = none → (r.step mv).stream? i = some s →
    (r.step mv).find? s.node = some i ∧
      ∀ j t, r.stream? j = some t → t.node = s.node → r.Parts (r.step mv) reports j t

/-- **A node has one open stream**, throughout every run and but for stray ones. -/
theorem exclusive_run (timeout : Duration) (store : NodeStore) (moves : List Move) :
    let r : Registry := { firstFrameTimeout := timeout, store }
    (r.run moves).Exclusive (r.reports moves) := by
  intro r
  have hr := (Regular.of_new timeout store).run moves
  have ha := anchored_run timeout store moves
  refine ⟨fun i j s t hs ht hnode hopen hopen' ↦ ?_, fun mv i s hnone hs ↦ ?_⟩
  · by_cases hi : (r.run moves).find? s.node = some i
    · by_cases hj : (r.run moves).find? t.node = some j
      · rw [hnode, hj, Option.some.injEq] at hi
        exact Or.inl hi.symm
      · exact Or.inr (Or.inr ⟨hopen', hj, (ha j t ht hopen').resolve_left hj⟩)
    · exact Or.inr (Or.inl ⟨hopen, hi, (ha i s hs hopen).resolve_left hi⟩)
  · obtain ⟨info, rfl, htakes⟩ := takesOver_of_stream_new hnone hs
    refine ⟨htakes.entry, fun j t ht hnode ↦ ?_⟩
    have hne : j ≠ i := by
      rintro rfl
      rw [hnone] at ht
      cases ht
    have hnode' : t.node = info.nodeId := hnode
    refine parts_step mv hr ha ht (fun h ↦ ?_) fun h ↦ ?_ <;> rw [hnode'] at h
    · exact htakes.replaced j t h hne ht
    · exact (stream?_congr (htakes.others j hne h)).trans ht

/-- A stray stream survives a second registration of its node. The call on it is not failed, and
what it reports afterwards goes over the record that the second registration left. -/
theorem two_open_streams :
    let info (status : Nat) : Arrival :=
      .frame ⟨"", some (.info { nodeId := "node", statusCode := status })⟩
    let new : Registry := { firstFrameTimeout := .ofSeconds 30, store := {} }
    let r := new.run [.arrive [.unprovisioned] [info 1] false 0, .review 0 0,
      .use 0 (.open "call" (.pauseNode "node") (.ofSeconds 1)), .use 0 (.advance 0 0),
      .use 0 (.advance 0 0), .use 0 (.advance 0 0), .use 0 (.advance 0 0),
      .receive 0 (info 2), .read 0 0, .arrive [.provisioned, .paused] [info 2] false 0]
    let r' := r.run [.review 1 0]
    let r'' := r'.run [.receive 0 (info 1), .read 0 0]
    r.stream? 1 = none ∧ r'.result? 1 = some (.ok ()) ∧ r'.find? "node" = some 1 ∧
      ((r'.stream? 0).map fun s ↦ (s.node, s.closed, s.pendingCount)) = some ("node", false, 1) ∧
      ((r'.stream? 1).map fun s ↦ (s.node, s.closed)) = some ("node", false) ∧
      (r'.store.nodes.get? "node").map (·.status) = some .provisioned ∧
      (r''.store.nodes.get? "node").map (·.status) = some .unprovisioned :=
  ⟨rfl, rfl, rfl, rfl, rfl, rfl, rfl⟩

/-! ## Closing the registry -/

/-- **Closing the registry severs every stream** but for stray ones, and leaves no entry. -/
theorem severed_close (timeout : Duration) (store : NodeStore) (moves : List Move) :
    let r : Registry := { firstFrameTimeout := timeout, store }
    (r.run moves).close.links.entries = [] ∧ ∀ j s, (r.run moves).stream? j = some s →
      (r.run moves).Parts (r.run moves).close (r.reports moves) j s := by
  intro r
  have hr := (Regular.of_new timeout store).run moves
  have ha := anchored_run timeout store moves
  refine ⟨by rw [links_close], fun j s hs ↦ ?_⟩
  exact parts_step .close hr ha hs (stream?_close_of_linked hr hs)
    (stream?_close_of_unlinked hr hs)

/-- A stray stream survives the closing of the registry. The call on it is not failed, and once the
registry is started again a report on it links the node. -/
theorem left_open_by_close :
    let info (status : Nat) : Arrival :=
      .frame ⟨"", some (.info { nodeId := "node", statusCode := status })⟩
    let new : Registry := { firstFrameTimeout := .ofSeconds 30, store := {} }
    let r := new.run [.arrive [.unprovisioned] [info 1] false 0, .review 0 0,
      .use 0 (.open "call" (.pauseNode "node") (.ofSeconds 1)), .use 0 (.advance 0 0),
      .use 0 (.advance 0 0), .use 0 (.advance 0 0), .use 0 (.advance 0 0),
      .receive 0 (info 2), .read 0 0]
    let r' := r.close.run [.start, .receive 0 (info 1), .read 0 0]
    ((r.close.stream? 0).map fun s ↦ (s.closed, s.cancelled, s.pendingCount)) =
        some (false, false, 1) ∧
      r.close.find? "node" = none ∧ r'.find? "node" = some 0 :=
  ⟨rfl, rfl, rfl⟩

end NodeAgent.Registry
