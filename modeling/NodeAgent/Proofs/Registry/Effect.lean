import NodeAgent.Proofs.Registry.Run

/-!
# What a move does to a registration

A move concerns one registration and may tear down the streams of others. `Effect` lists the ten
things that can happen to a registration in one move, with what led to them, and `effect_step` says
that nothing else can. Whatever holds of a registration throughout a run follows from this list.

## Main statements

* `effect_step`: every registration is after a move what one of the effects made of it.
-/

namespace NodeAgent.Registry

variable {r r' : Registry} {i j : Nat} {g g' : Registration} {mv : Move}

/-- The move delivers a response that is among what arrived. -/
def IsDeliveryFrom (arrived : List Arrival) (mv : Stream.Move) : Prop :=
  ∃ id m, mv = .deliver id (.response m) ∧ .frame ⟨id, some (.response m)⟩ ∈ arrived

/-- The moves deliver responses that are among the first `late` frames of what arrived. -/
def AreDeliveriesFrom (arrived : List Arrival) (late : Nat) (moves : List Stream.Move) : Prop :=
  ∃ (taken : List NodeFrame) (rest : List Arrival), arrived = taken.map .frame ++ rest ∧
    taken.length ≤ late ∧ ∀ mv ∈ moves, IsDeliveryFrom (taken.map .frame) mv

namespace AreDeliveriesFrom

variable {arrived : List Arrival} {late : Nat} {moves : List Stream.Move}

theorem nil (arrived : List Arrival) (late : Nat) : AreDeliveriesFrom arrived late [] :=
  ⟨[], arrived, rfl, Nat.zero_le _, by simp⟩

theorem isDeliveryFrom (h : AreDeliveriesFrom arrived late moves) {mv : Stream.Move}
    (hmv : mv ∈ moves) : IsDeliveryFrom arrived mv := by
  obtain ⟨taken, rest, rfl, -, hmoves⟩ := h
  obtain ⟨id, m, rfl, hmem⟩ := hmoves mv hmv
  exact ⟨id, m, rfl, List.mem_append_left _ hmem⟩

/-- One more may be taken, and nothing of it delivered. -/
theorem take (h : AreDeliveriesFrom arrived late moves) (f : NodeFrame) :
    AreDeliveriesFrom (.frame f :: arrived) (late + 1) moves := by
  obtain ⟨taken, rest, rfl, hlength, hmoves⟩ := h
  refine ⟨f :: taken, rest, rfl, Nat.succ_le_succ hlength, fun mv hmv ↦ ?_⟩
  obtain ⟨id, m, rfl, hmem⟩ := hmoves mv hmv
  exact ⟨id, m, rfl, List.mem_cons_of_mem _ hmem⟩

theorem deliver (h : AreDeliveriesFrom arrived late moves) (id : RequestId) (m : Response) :
    AreDeliveriesFrom (.frame ⟨id, some (.response m)⟩ :: arrived) (late + 1)
      (.deliver id (.response m) :: moves) := by
  obtain ⟨taken, rest, rfl, hlength, hmoves⟩ := h
  refine ⟨⟨id, some (.response m)⟩ :: taken, rest, rfl, Nat.succ_le_succ hlength,
    fun mv hmv ↦ ?_⟩
  rcases List.mem_cons.mp hmv with rfl | hmv
  · exact ⟨id, m, rfl, List.mem_cons_self⟩
  · obtain ⟨id', m', rfl, hmem⟩ := hmoves mv hmv
    exact ⟨id', m', rfl, List.mem_cons_of_mem _ hmem⟩

end AreDeliveriesFrom

/-! ## What a reader leaves alone

A reader links its registration only if no other is linked for the node, so it tears down no stream
but its own, even when it is late. -/

/-- The two registries differ in one registration and in whether it is linked for its node. -/
structure Spares (r r' : Registry) (i : Nat) (node : NodeId) : Prop where
  registrations : ∀ j, j ≠ i → r'.registration? j = r.registration? j
  links : ∀ node' j, j ≠ i ∨ node' ≠ node → (r'.find? node' = some j ↔ r.find? node' = some j)

namespace Spares

variable {node : NodeId} {s : Stream}

theorem refl (r : Registry) (i : Nat) (node : NodeId) : Spares r r i node :=
  ⟨fun _ _ ↦ rfl, fun _ _ _ ↦ Iff.rfl⟩

theorem trans {r'' : Registry} (h : Spares r r' i node) (h' : Spares r' r'' i node) :
    Spares r r'' i node :=
  ⟨fun j hj ↦ (h'.registrations j hj).trans (h.registrations j hj),
    fun node' j hj ↦ (h'.links node' j hj).trans (h.links node' j hj)⟩

theorem update (r : Registry) (i : Nat) (f : Registration → Registration) (node : NodeId) :
    Spares r (r.update i f) i node :=
  ⟨fun _ hj ↦ registration?_update_of_ne hj.symm f, fun _ _ _ ↦ Iff.rfl⟩

theorem unlink (hs : r.stream? i = some s) : Spares r (r.unlink i) i s.node := by
  refine ⟨fun j _ ↦ registration?_unlink r i j, fun node' j hj ↦ ?_⟩
  rw [find?_unlink hs]
  split
  · rename_i h
    obtain ⟨rfl, hi⟩ := h
    have hne : i ≠ j := fun h ↦ hj.elim (· h.symm) (· rfl)
    rw [hi]
    simp [hne]
  · exact Iff.rfl

theorem link (hs : r.stream? i = some s) (hfree : r.find? s.node = none) :
    Spares r (r.link i) i s.node := by
  refine ⟨fun j hj ↦ ?_, fun node' j hj ↦ ?_⟩
  · unfold Registry.link
    rw [hs]
    dsimp only
    rw [hfree]
    rfl
  · rw [find?_link hs]
    split
    · rename_i h
      subst h
      have hne : i ≠ j := fun h ↦ hj.elim (· h.symm) (· rfl)
      simp [hfree, hne]
    · exact Iff.rfl

theorem stop (hs : r.stream? i = some s) : Spares r (r.stop i) i s.node := by
  have hunlink := unlink (stream?_updateStream hs .close)
  rw [Stream.node_close] at hunlink
  exact ((update r i _ s.node).trans hunlink).trans (update _ i _ s.node)

theorem report (hs : r.stream? i = some s) (g : Registration) (info : NodeInfo) :
    Spares r (r.report i g s info) i s.node := by
  unfold Registry.report
  split
  · exact refl r i s.node
  · split
    · exact unlink hs
    · split
      · exact ⟨fun _ _ ↦ rfl, fun _ _ _ ↦ Iff.rfl⟩
      · rename_i store _
        have hstore : Spares r { r with store } i s.node := ⟨fun _ _ ↦ rfl, fun _ _ _ ↦ Iff.rfl⟩
        dsimp only
        split
        · rename_i hfree
          have hnone : r.find? s.node = none :=
            Option.isNone_iff_eq_none.mp (Bool.and_eq_true_iff.mp hfree).1
          exact hstore.trans (link (r := { r with store }) hs hnone)
        · exact hstore

end Spares

section Reading

variable {s : Stream}

theorem Spares.readNext (hg : r.registration? i = some g)
    (hreading : g.admission = .admitted s true) : Spares r (r.readNext i g s) i s.node := by
  have hs := stream?_of_admitted hg hreading
  unfold Registry.readNext
  split
  · split
    · exact .stop hs
    · exact .refl r i s.node
  · exact .stop hs
  · rename_i f rest _
    have htake := Spares.update r i (fun g ↦ { g with arrived := rest }) s.node
    have hs' := stream?_of_admitted (s := s)
      (registration?_update_of_eq hg fun g ↦ { g with arrived := rest }) hreading
    dsimp only
    split
    · exact htake
    · exact htake.trans (.report hs' g _)
    · exact htake.trans (.update _ i _ s.node)

/-- A reader that stops does not stay linked. -/
theorem find?_stop (hs : r.stream? i = some s) : (r.stop i).find? s.node ≠ some i := by
  have hfind : (r.stop i).find? s.node = ((r.updateStream i .close).unlink i).find? s.node := rfl
  rw [hfind, find?_unlink (stream?_updateStream hs .close), Stream.node_close]
  intro h
  split at h
  · cases h
  · rename_i hne
    exact hne ⟨rfl, h⟩

theorem registration?_stop (hg : r.registration? i = some g)
    (hreading : g.admission = .admitted s true) : (r.stop i).registration? i =
      some { g with arrived := [], admission := .admitted s.close false } := by
  have hstopped : (g.mapStream Stream.close).stopReading =
      { g with arrived := [], admission := .admitted s.close false } := by
    simp [Registration.mapStream, Registration.stopReading, hreading]
  rw [← hstopped]
  exact registration?_update_of_eq ((registration?_unlink _ _ _).trans
    (registration?_update_of_eq hg _)) _

/-- A report leaves the registration that made it as it is. -/
theorem registration?_report (r : Registry) (i : Nat) (g : Registration) (s : Stream)
    (info : NodeInfo) : (r.report i g s info).registration? i = r.registration? i := by
  unfold report
  split
  · rfl
  · split
    · exact registration?_unlink r i i
    · split
      · rfl
      · dsimp only
        split
        · exact registration?_link_self _ i
        · rfl

/-- What a reader makes of its own registration when it takes the next of what arrived. -/
inductive ReadsNext (r' : Registry) (i : Nat) (g : Registration) (s : Stream) :
    Registration → Prop where
  | idle : g.arrived = [] → ReadsNext r' i g s g
  | take {f : NodeFrame} {rest : List Arrival} : g.arrived = .frame f :: rest →
    ReadsNext r' i g s { g with arrived := rest }
  | deliver {id : RequestId} {m : Response} {rest : List Arrival} :
    g.arrived = .frame ⟨id, some (.response m)⟩ :: rest →
    ReadsNext r' i g s
      { g with arrived := rest, admission := .admitted (s.deliver id (.response m)).2 true }
  | stop : (∀ f rest, g.arrived ≠ .frame f :: rest) → r'.find? s.node ≠ some i →
    ReadsNext r' i g s { g with arrived := [], admission := .admitted s.close false }

theorem readsNext (hg : r.registration? i = some g) (hreading : g.admission = .admitted s true) :
    ∃ g', (r.readNext i g s).registration? i = some g' ∧ ReadsNext (r.readNext i g s) i g s g' := by
  have hs := stream?_of_admitted hg hreading
  have hstop : (∀ f rest, g.arrived ≠ .frame f :: rest) →
      ∃ g', (r.stop i).registration? i = some g' ∧ ReadsNext (r.stop i) i g s g' :=
    fun hnone ↦ ⟨_, registration?_stop hg hreading, .stop hnone (find?_stop hs)⟩
  unfold readNext
  split
  · rename_i hempty
    split
    · exact hstop (by simp [hempty])
    · exact ⟨g, hg, .idle hempty⟩
  · rename_i hfault
    exact hstop (by simp [hfault])
  · rename_i f rest harrived
    have htaken := registration?_update_of_eq hg fun g ↦ { g with arrived := rest }
    dsimp only
    split
    · exact ⟨_, htaken, .take harrived⟩
    · exact ⟨_, (registration?_report _ i g s _).trans htaken, .take harrived⟩
    · rename_i m hreport hm
      obtain ⟨response, rfl⟩ : ∃ response, m = .response response := by
        cases m with
        | info info => exact absurd rfl (hreport info)
        | response response => exact ⟨response, rfl⟩
      have hdelivered : Registration.mapStream (fun s ↦ (s.deliver f.id (.response response)).2)
          { g with arrived := rest } =
          { g with
            arrived := rest
            admission := .admitted (s.deliver f.id (.response response)).2 true } := by
        simp [Registration.mapStream, hreading]
      refine ⟨_, registration?_update_of_eq htaken _, ?_⟩
      rw [hdelivered]
      refine .deliver ?_
      rw [harrived, ← hm]

/-- A late reader stops in the end. What it delivered before was the first of what arrived. -/
theorem readsLate (hg : r.registration? i = some g) (hreading : g.admission = .admitted s true)
    (count : Nat) : Spares r (r.readLate i count) i s.node ∧
      (r.readLate i count).find? s.node ≠ some i ∧
      ∃ l : List Stream.Move, AreDeliveriesFrom g.arrived count l ∧
        (r.readLate i count).registration? i =
          some { g with arrived := [], admission := .admitted (s.run l).close false } := by
  induction count generalizing r g s with
  | zero =>
    have hs := stream?_of_admitted hg hreading
    rw [readLate_zero hg hreading]
    exact ⟨.stop hs, find?_stop hs, [], .nil _ _, registration?_stop hg hreading⟩
  | succ count ih =>
    have hspares := Spares.readNext hg hreading
    obtain ⟨g', hg', hreads⟩ := readsNext hg hreading
    rw [readLate_succ hg hreading]
    generalize r.readNext i g s = r' at *
    cases hreads with
    | idle hempty =>
      -- nothing was there to take, and the reader is where it was
      obtain ⟨hspares', hfind, l, hl, hlast⟩ := ih hg' hreading
      refine ⟨hspares.trans hspares', hfind, l, ?_, hlast⟩
      obtain ⟨taken, rest, hsplit, hlength, hmoves⟩ := hl
      exact ⟨taken, rest, hsplit, Nat.le_succ_of_le hlength, hmoves⟩
    | @take f rest harrived =>
      obtain ⟨hspares', hfind, l, hl, hlast⟩ := ih hg' hreading
      exact ⟨hspares.trans hspares', hfind, l, harrived ▸ hl.take f, hlast⟩
    | @deliver id m rest harrived =>
      obtain ⟨hspares', hfind, l, hl, hlast⟩ := ih hg' rfl
      have hnode : (s.deliver id (.response m)).2.node = s.node :=
        (Stream.Alike.resolve s id _).node
      rw [hnode] at hspares' hfind
      exact ⟨hspares.trans hspares', hfind, .deliver id (.response m) :: l,
        harrived ▸ hl.deliver id m, hlast⟩
    | stop _ hfind =>
      rw [readLate_stopped hg' rfl]
      exact ⟨hspares, hfind, [], .nil _ _, hg'⟩

end Reading

/-! ## Effects -/

/-- What became of a registration when a move took the registry from one state to another. -/
inductive Effect (r r' : Registry) (mv : Move) (j : Nat) (g : Registration) :
    Registration → Prop where
  | none : Effect r r' mv j g g
  /-- The stream is torn down, since the registration was replaced or the registry closed. -/
  | close : (mv = .close ∨ ∃ node, r.find? node = some j ∧ r'.find? node ≠ some j) →
    Effect r r' mv j g (g.mapStream .close)
  | refuse {deadline now : Instant} (e : StreamError) : mv = .review j now →
    g.admission = .waiting deadline → Effect r r' mv j g (g.refuse e)
  | accept {deadline now : Instant} {id : RequestId} {info : NodeInfo} {rest : List Arrival} :
    mv = .review j now → g.admission = .waiting deadline →
    g.arrived = .frame ⟨id, some (.info info)⟩ :: rest →
    Effect r r' mv j g
      { g with arrived := rest, admission := .admitted { node := info.nodeId } true }
  /-- A frame is taken from what arrived and makes no difference to the stream. -/
  | take {s : Stream} {late : Nat} {f : NodeFrame} {rest : List Arrival} : mv = .read j late →
    g.admission = .admitted s true → s.cancelled = false → g.arrived = .frame f :: rest →
    Effect r r' mv j g { g with arrived := rest }
  /-- A response is taken from what arrived and delivered. -/
  | deliver {s : Stream} {late : Nat} {id : RequestId} {m : Response} {rest : List Arrival} :
    mv = .read j late → g.admission = .admitted s true → s.cancelled = false →
    g.arrived = .frame ⟨id, some (.response m)⟩ :: rest →
    Effect r r' mv j g
      { g with arrived := rest, admission := .admitted (s.deliver id (.response m)).2 true }
  /-- The reader stops, and the registration is not linked any more. Late responses may have been
  delivered before. -/
  | stop {s : Stream} {late : Nat} {l : List Stream.Move} : mv = .read j late →
    g.admission = .admitted s true → r'.find? s.node ≠ some j →
    AreDeliveriesFrom g.arrived (if s.cancelled then late else 0) l →
    Effect r r' mv j g { g with arrived := [], admission := .admitted (s.run l).close false }
  | receive (a : Arrival) : mv = .receive j a → g.isReading = true →
    Effect r r' mv j g { g with arrived := g.arrived ++ [a] }
  | endInbound : mv = .endInbound j → Effect r r' mv j g { g with ended := true }
  | use {u : Stream.Use} : mv = .use j u → Effect r r' mv j g (g.mapStream (·.use u))

theorem Effect.of_replaced (h : g' = g ∨ g' = g.mapStream .close ∧
    ∃ node, r.find? node = some j ∧ r'.find? node ≠ some j) : Effect r r' mv j g g' := by
  rcases h with rfl | ⟨rfl, h⟩
  · exact .none
  · exact .close (Or.inr h)

/-- A move that changes one registration has an effect on that one only. -/
theorem effect_update (hg : r.registration? j = some g) {f : Registration → Registration}
    (h : i = j → Effect r r' mv j g (f g)) :
    ∃ g', (r.update i f).registration? j = some g' ∧ Effect r r' mv j g g' := by
  by_cases hij : i = j
  · subst hij
    exact ⟨f g, registration?_update_of_eq hg f, h rfl⟩
  · exact ⟨g, (registration?_update_of_ne hij f).trans hg, .none⟩

theorem effect_admitWith {now deadline : Instant} {id : RequestId} {info : NodeInfo}
    {rest : List Arrival} {gi : Registration} (hi : r.registration? i = some gi)
    (hwaiting : gi.admission = .waiting deadline)
    (harrived : gi.arrived = .frame ⟨id, some (.info info)⟩ :: rest)
    (hr' : r' = (r.update i fun g ↦ { g with arrived := rest }).admitWith i gi.allowed info)
    (hg : r.registration? j = some g) :
    ∃ g', r'.registration? j = some g' ∧ Effect r r' (.review i now) j g g' := by
  have hself : i = j → gi = g := by
    rintro rfl
    exact Option.some.inj (hi.symm.trans hg)
  -- a refusal forgets what arrived, so it does not matter that a frame was taken before
  have hrefuse : ∀ (r₀ : Registry) (e : StreamError), r₀.registrations = r.registrations →
      ∃ g', ((r₀.update i fun g ↦ { g with arrived := rest }).update i
        (.refuse e)).registration? j = some g' ∧ Effect r r' (.review i now) j g g' := by
    intro r₀ e hr₀
    have hg' : r₀.registration? j = some g := by rw [registration?, hr₀]; exact hg
    by_cases hij : i = j
    · subst hij
      obtain rfl := hself rfl
      exact ⟨_, registration?_update_of_eq (registration?_update_of_eq hg' _) _,
        .refuse e rfl hwaiting⟩
    · refine ⟨g, ?_, .none⟩
      rw [registration?_update_of_ne hij, registration?_update_of_ne hij, hg']
  unfold admitWith at hr'
  split at hr'
  · rw [hr'] at hrefuse ⊢
    exact hrefuse r _ rfl
  · split at hr'
    · rename_i e store _
      rw [hr'] at hrefuse ⊢
      exact hrefuse { r with store } _ rfl
    · rename_i store _
      dsimp only at hr'
      split at hr'
      · rw [hr'] at hrefuse ⊢
        exact hrefuse { r with store } _ rfl
      · rw [hr']
        by_cases hij : i = j
        · subst hij
          obtain rfl := hself rfl
          rw [registration?_link_self]
          exact ⟨_, registration?_update_of_eq (registration?_update_of_eq hg _) _,
            .accept rfl hwaiting harrived⟩
        · have hother : (({ r with store }.update i fun g ↦ { g with arrived := rest }).update i
              fun g ↦ { g with admission := .admitted { node := info.nodeId } true }).registration?
                j = some g := by
            rw [registration?_update_of_ne hij, registration?_update_of_ne hij]
            exact hg
          obtain ⟨g', hg', hreplaced⟩ := closes_link _ i hother
          exact ⟨g', hg', .of_replaced hreplaced⟩

theorem effect_review (hg : r.registration? j = some g) (now : Instant) :
    ∃ g', (r.review i now).registration? j = some g' ∧
      Effect r (r.review i now) (.review i now) j g g' := by
  have hidle : ∀ r', ∃ g', r.registration? j = some g' ∧ Effect r r' (.review i now) j g g' :=
    fun _ ↦ ⟨g, hg, .none⟩
  unfold review
  split
  · exact hidle r
  · rename_i gi hi
    have hself : i = j → gi = g := by
      rintro rfl
      exact Option.some.inj (hi.symm.trans hg)
    split
    · rename_i deadline hwaiting
      have hrefuse : ∀ e, ∃ g', (r.update i (.refuse e)).registration? j = some g' ∧
          Effect r (r.update i (.refuse e)) (.review i now) j g g' := by
        intro e
        refine effect_update hg fun hij ↦ ?_
        subst hij
        exact .refuse e rfl (hself rfl ▸ hwaiting)
      split
      · rename_i harrived
        exact effect_admitWith hi hwaiting harrived rfl hg
      · exact hrefuse _
      · exact hrefuse _
      · split
        · exact hrefuse _
        · split
          · exact hrefuse _
          · exact hidle r
    · exact hidle r

theorem effect_readSome {late : Nat} (hg : r.registration? j = some g) :
    ∃ g', (r.readSome i late).registration? j = some g' ∧
      Effect r (r.readSome i late) (.read i late) j g g' := by
  unfold readSome
  split
  · exact ⟨g, hg, .none⟩
  · rename_i gi hi
    split
    · rename_i s hreading
      by_cases hij : i = j
      · subst hij
        obtain rfl : gi = g := Option.some.inj (hi.symm.trans hg)
        split
        · rename_i hcancelled
          obtain ⟨-, hfind, l, hl, hlast⟩ := readsLate hg hreading late
          refine ⟨_, hlast, .stop rfl hreading hfind ?_⟩
          rw [if_pos hcancelled]
          exact hl
        · rename_i hopen
          obtain ⟨g', hg', hreads⟩ := readsNext hg hreading
          refine ⟨g', hg', ?_⟩
          cases hreads with
          | idle _ => exact .none
          | take harrived => exact .take rfl hreading (Bool.eq_false_iff.mpr hopen) harrived
          | deliver harrived =>
            exact .deliver rfl hreading (Bool.eq_false_iff.mpr hopen) harrived
          | stop _ hfind => exact Effect.stop rfl hreading hfind (.nil _ _)
      · -- the reader is another registration's, and spares this one
        refine ⟨g, ?_, .none⟩
        split
        · exact ((readsLate hi hreading late).1.registrations j (Ne.symm hij)).trans hg
        · exact ((Spares.readNext hi hreading).registrations j (Ne.symm hij)).trans hg
    · exact ⟨g, hg, .none⟩

/-- **Nothing else happens to a registration in one move.** -/
theorem effect_step (r : Registry) (mv : Move) (hg : r.registration? j = some g) :
    ∃ g', (r.step mv).registration? j = some g' ∧ Effect r (r.step mv) mv j g g' := by
  have hidle : ∀ r', ∃ g', r.registration? j = some g' ∧ Effect r r' mv j g g' :=
    fun _ ↦ ⟨g, hg, .none⟩
  cases mv with
  | arrive allowed arrived ended now =>
    refine ⟨g, ?_, .none⟩
    exact (List.getElem?_append_left (List.getElem?_eq_some_iff.mp hg).1).trans hg
  | review i now => exact effect_review hg now
  | read i late => exact effect_readSome hg
  | receive i a =>
    change ∃ g', (r.receive i a).2.registration? j = some g' ∧ _
    unfold receive
    split
    · exact hidle _
    · rename_i gi hi
      split
      · rename_i hreading
        refine effect_update hg fun hij ↦ ?_
        subst hij
        obtain rfl := Option.some.inj (hi.symm.trans hg)
        exact .receive a rfl hreading
      · exact hidle _
  | endInbound i =>
    refine effect_update hg fun hij ↦ ?_
    subst hij
    exact .endInbound rfl
  | use i u =>
    refine effect_update hg fun hij ↦ ?_
    subst hij
    exact .use rfl
  | start => exact hidle _
  | close =>
    obtain ⟨g', hg', rfl | rfl⟩ := closes_close r hg
    · exact ⟨g', hg', .none⟩
    · exact ⟨_, hg', .close (Or.inl rfl)⟩
  | wait node timeout now => exact hidle _
  | consume k => exact hidle _
  | attend now => exact hidle _
  | store s => exact hidle _

end NodeAgent.Registry
