import NodeAgent.Permission
import NodeAgent.Proofs.History
import Mathlib.Data.List.Induction
import Mathlib.Data.List.Nodup

/-!
# Secrets and the registrations they were issued for

The registry keeps its entries under the instances and is asked by secret, so whoever presents a
secret is told about the first entry that has it. That this is the entry the secret was issued for is
nothing that an entry could tell: it depends on every call there has been.

What a call issued is a *grant*, and it *stands* until its instance is unregistered. Both are told by
the history alone, from its places (`Issued`, `Stands`). The entries are the grants that stand
(`get?_eq_some_iff_stands`), whatever the secrets are; only that no two of them have one secret takes
secrets that do not repeat (`NeverRepeats.stands_inj`).

## Main statements

* `get?_step_eq_some_iff`: what a call makes of the entries.
* `get?_eq_some_iff_stands`: after every history the entries are the grants that stand.
* `honours_run`: what the registry answers after a history in which no secret was issued twice.
-/

namespace NodeAgent.PermissionRegistry

variable {r : PermissionRegistry} {inst : InstanceIdent} {kept : PermissionEntry}

/-! ## Histories -/

/-- A call of the registry. A registration has with it the secret that it issues if it issues one. -/
inductive Move where
  | register (fresh : Secret) (inst : InstanceIdent)
      (permissions : List (String × ServerPermissions))
  | unregister (inst : InstanceIdent)
  | lookup (secret : Secret) (server : String)

/-- The answer to a call that succeeded. -/
inductive Answer where
  | secret (s : Secret)
  | done
  | found (inst : InstanceIdent) (permissions : ServerPermissions)

/-- Makes a call. -/
def perform (r : PermissionRegistry) : Move → Except ServiceError Answer × PermissionRegistry
  | .register fresh inst permissions =>
    let (answer, r) := r.register fresh inst permissions
    (answer.map .secret, r)
  | .unregister inst =>
    let (answer, r) := r.unregister inst
    (answer.map fun _ ↦ .done, r)
  | .lookup secret server => ((r.lookup secret server).map fun p ↦ .found p.1 p.2, r)

/-- The registry after a call. -/
def step (r : PermissionRegistry) (mv : Move) : PermissionRegistry := (r.perform mv).2

/-- The registry after a history. -/
def run (r : PermissionRegistry) (moves : List Move) : PermissionRegistry := moves.foldl step r

@[simp] theorem run_nil (r : PermissionRegistry) : r.run [] = r := rfl

theorem run_concat (r : PermissionRegistry) (moves : List Move) (mv : Move) :
    r.run (moves ++ [mv]) = (r.run moves).step mv := by
  rw [run, List.foldl_append]
  rfl

/-- A registration: a secret that was issued, for which instance and with which permissions. -/
structure Grant where
  secret : Secret
  inst : InstanceIdent
  permissions : List (String × ServerPermissions)

/-- The call that asks for a grant. -/
def Grant.call (g : Grant) : Move := .register g.secret g.inst g.permissions

/-- What is kept of a grant. -/
def Grant.entry (g : Grant) : PermissionEntry := ⟨g.secret, g.permissions⟩

/-- The call that asks for the grant issues its secret: the instance is not registered, and the
answer is the secret that came with the call. -/
structure Issues (r : PermissionRegistry) (g : Grant) : Prop where
  unknown : r.entries.get? g.inst = none
  answer : (r.register g.secret g.inst g.permissions).1 = .ok g.secret

/-- A history in which the call after `before` issued the grant. -/
structure Issued (r : PermissionRegistry) (moves before after : List Move) (g : Grant) : Prop where
  moves_eq : moves = before ++ g.call :: after
  issues : (r.run before).Issues g

/-- The grant was issued, and its instance was not unregistered since. -/
def Stands (r : PermissionRegistry) (moves : List Move) (g : Grant) : Prop :=
  ∃ before after, r.Issued moves before after g ∧ .unregister g.inst ∉ after

/-- No secret was issued twice. -/
def NeverRepeats (r : PermissionRegistry) (moves : List Move) : Prop :=
  ∀ before after g before' after' g', r.Issued moves before after g →
    r.Issued moves before' after' g' → g.secret = g'.secret → before = before'

variable {moves before after : List Move} {mv : Move} {g g' : Grant}

theorem Issued.concat (h : r.Issued moves before after g) (mv : Move) :
    r.Issued (moves ++ [mv]) before (after ++ [mv]) g where
  moves_eq := by rw [h.moves_eq, List.append_assoc, List.cons_append]
  issues := h.issues

theorem not_stands_nil : ¬r.Stands [] g := by
  rintro ⟨before, after, h, -⟩
  exact List.append_ne_nil_of_right_ne_nil _ (List.cons_ne_nil _ _) h.moves_eq.symm

/-- A grant stands if the last call issued it, or it stood before and the last call did not end
it. -/
theorem stands_concat : r.Stands (moves ++ [mv]) g ↔
    mv = g.call ∧ (r.run moves).Issues g ∨ r.Stands moves g ∧ mv ≠ .unregister g.inst := by
  constructor
  · rintro ⟨before, after, ⟨hsplit, hissues⟩, hafter⟩
    rcases History.eq_or_of_concat hsplit with ⟨rfl, hmv, -⟩ | ⟨after', rfl, rfl⟩
    · exact Or.inl ⟨hmv.symm, hissues⟩
    · rw [List.mem_append, List.mem_singleton, not_or] at hafter
      exact Or.inr ⟨⟨before, after', ⟨rfl, hissues⟩, hafter.1⟩, Ne.symm hafter.2⟩
  · rintro (⟨rfl, hissues⟩ | ⟨⟨before, after, h, hafter⟩, hmv⟩)
    · exact ⟨moves, [], ⟨rfl, hissues⟩, List.not_mem_nil⟩
    · refine ⟨before, after ++ [mv], h.concat mv, ?_⟩
      rw [List.mem_append, List.mem_singleton, not_or]
      exact ⟨hafter, hmv.symm⟩

/-! ## What a call does -/

theorem register_of_known (h : r.entries.get? inst = some kept) (fresh : Secret)
    (permissions : List (String × ServerPermissions)) :
    r.register fresh inst permissions = (.ok kept.secret, r) := by
  rw [register, h]

theorem register_of_unknown (h : r.entries.get? inst = none) (fresh : Secret)
    (permissions : List (String × ServerPermissions)) :
    r.register fresh inst permissions =
      if r.entries.size < r.capacity then
        (.ok fresh, { r with entries := r.entries.insert inst ⟨fresh, permissions⟩ })
      else (.error (.resourceExhausted "max registered instances reached"), r) := by
  rw [register, h]
  by_cases hroom : r.entries.size < r.capacity
  · rw [if_pos hroom]
    exact if_neg (Nat.not_le.mpr hroom)
  · rw [if_neg hroom]
    exact if_pos (Nat.not_lt.mp hroom)

theorem unregister_of_known (h : r.entries.get? inst = some kept) :
    r.unregister inst = (.ok (), { r with entries := r.entries.erase inst }) := by
  rw [unregister, Table.contains, h]
  rfl

theorem unregister_of_unknown (h : r.entries.get? inst = none) :
    r.unregister inst = (.error (.notFound ("instance " ++ inst.serviceId)), r) := by
  rw [unregister, Table.contains, h]
  rfl

theorem Grant.call_injective : Function.Injective Grant.call := by
  rintro ⟨secret, inst, permissions⟩ ⟨secret', inst', permissions'⟩ h
  obtain ⟨rfl, rfl, rfl⟩ := Move.register.inj h
  rfl

/-- A secret is issued exactly if the instance is new and there is room for it. -/
theorem issues_iff :
    r.Issues g ↔ r.entries.get? g.inst = none ∧ r.entries.size < r.capacity := by
  constructor
  · rintro ⟨hunknown, hanswer⟩
    refine ⟨hunknown, Classical.byContradiction fun hfull ↦ ?_⟩
    rw [register_of_unknown hunknown, if_neg hfull] at hanswer
    cases hanswer
  · rintro ⟨hunknown, hroom⟩
    exact ⟨hunknown, by rw [register_of_unknown hunknown, if_pos hroom]⟩

/-- The ways a call can go: a registration issues a secret, a registration is forgotten, or nothing
changes. -/
inductive Effect (r : PermissionRegistry) (mv : Move) : PermissionRegistry → Prop where
  | issue (g : Grant) : mv = g.call → r.Issues g →
    Effect r mv { r with entries := r.entries.insert g.inst g.entry }
  | forget {inst : InstanceIdent} {kept : PermissionEntry} : mv = .unregister inst →
    r.entries.get? inst = some kept →
    Effect r mv { r with entries := r.entries.erase inst }
  | none : (∀ g, mv = g.call → ¬r.Issues g) →
    (∀ inst, mv = .unregister inst → r.entries.get? inst = Option.none) → Effect r mv r

/-- **There are no other ways.** -/
theorem effect_step (r : PermissionRegistry) (mv : Move) : Effect r mv (r.step mv) := by
  cases mv with
  | register fresh inst permissions =>
    change Effect r (Grant.call ⟨fresh, inst, permissions⟩) (r.register fresh inst permissions).2
    by_cases hissues : r.Issues ⟨fresh, inst, permissions⟩
    · obtain ⟨hunknown, hroom⟩ := issues_iff.mp hissues
      rw [register_of_unknown hunknown, if_pos hroom]
      exact .issue ⟨fresh, inst, permissions⟩ rfl hissues
    · have hsame : (r.register fresh inst permissions).2 = r := by
        cases hget : r.entries.get? inst with
        | some kept => rw [register_of_known hget]
        | none =>
          rw [register_of_unknown hget, if_neg fun hroom ↦ hissues (issues_iff.mpr ⟨hget, hroom⟩)]
      rw [hsame]
      refine .none (fun g hg ↦ ?_) nofun
      rwa [← Grant.call_injective hg]
  | unregister inst =>
    change Effect r _ (r.unregister inst).2
    cases hget : r.entries.get? inst with
    | some kept =>
      rw [unregister_of_known hget]
      exact .forget rfl hget
    | none =>
      rw [unregister_of_unknown hget]
      refine .none nofun fun inst' h ↦ ?_
      rwa [← Move.unregister.inj h]
  | lookup secret server => exact .none nofun nofun

/-- A call that fails changes nothing. -/
theorem step_of_failure {e : ServiceError} (h : (r.perform mv).1 = .error e) : r.step mv = r := by
  cases mv with
  | register fresh inst permissions =>
    change (r.register fresh inst permissions).1.map Answer.secret = .error e at h
    change (r.register fresh inst permissions).2 = r
    cases hget : r.entries.get? inst with
    | some kept => rw [register_of_known hget]
    | none =>
      rw [register_of_unknown hget] at h ⊢
      split at h
      · cases h
      · next hfull => rw [if_neg hfull]
  | unregister inst =>
    change (r.unregister inst).1.map (fun _ ↦ Answer.done) = .error e at h
    change (r.unregister inst).2 = r
    cases hget : r.entries.get? inst with
    | some kept =>
      rw [unregister_of_known hget] at h
      cases h
    | none => rw [unregister_of_unknown hget]
  | lookup secret server => rfl

/-! ## The entries are the grants that stand -/

/-- An entry is that of a grant which the call issued, or it was there and the call did not end
it. -/
theorem get?_step_eq_some_iff : (r.step mv).entries.get? g.inst = some g.entry ↔
    mv = g.call ∧ r.Issues g ∨
      r.entries.get? g.inst = some g.entry ∧ mv ≠ .unregister g.inst := by
  generalize hnext : r.step mv = next
  have heffect : Effect r mv next := hnext ▸ effect_step r mv
  cases heffect with
  | issue g' hmv hissues =>
    subst hmv
    have hunknown := hissues.unknown
    rw [Table.get?_insert]
    by_cases hinst : g'.inst = g.inst
    · rw [if_pos hinst, Option.some.injEq]
      constructor
      · intro hentry
        obtain ⟨hsecret, hpermissions⟩ := PermissionEntry.mk.inj hentry
        obtain rfl : g' = g := by
          cases g
          cases g'
          congr
        exact Or.inl ⟨rfl, hissues⟩
      · rintro (⟨hcall, -⟩ | ⟨hkept, -⟩)
        · rw [Grant.call_injective hcall]
        · rw [← hinst, hunknown] at hkept
          cases hkept
    · rw [if_neg hinst]
      constructor
      · exact fun hkept ↦ Or.inr ⟨hkept, nofun⟩
      · rintro (⟨hcall, -⟩ | ⟨hkept, -⟩)
        · exact absurd (congrArg Grant.inst (Grant.call_injective hcall)) hinst
        · exact hkept
  | @forget inst _ hmv _ =>
    subst hmv
    rw [Table.get?_erase]
    by_cases hinst : inst = g.inst
    · rw [if_pos hinst, hinst]
      exact ⟨nofun, fun h ↦ h.elim (fun hcall ↦ nomatch hcall.1) fun h ↦ absurd rfl h.2⟩
    · rw [if_neg hinst]
      refine ⟨fun hkept ↦ Or.inr ⟨hkept, fun h ↦ hinst (Move.unregister.inj h)⟩, ?_⟩
      exact fun h ↦ h.elim (fun hcall ↦ nomatch hcall.1) And.left
  | none hissue hforget =>
    constructor
    · refine fun hkept ↦ Or.inr ⟨hkept, fun hmv ↦ ?_⟩
      rw [hforget _ hmv] at hkept
      cases hkept
    · rintro (⟨hcall, hissues⟩ | ⟨hkept, -⟩)
      · exact absurd hissues (hissue g hcall)
      · exact hkept

variable {capacity : Nat}

/-- **After every history the entries are the grants that stand.** -/
theorem get?_eq_some_iff_stands :
    (run { capacity } moves).entries.get? g.inst = some g.entry ↔ Stands { capacity } moves g := by
  induction moves using List.reverseRecOn with
  | nil => exact ⟨nofun, fun h ↦ absurd h not_stands_nil⟩
  | append_singleton moves mv ih => rw [run_concat, get?_step_eq_some_iff, stands_concat, ih]

/-- What a history leaves as it is: there is at most one entry for each instance, there are no more
entries than fit, and as many fit as at the start. -/
structure Sound (r : PermissionRegistry) (capacity : Nat) : Prop where
  keys_nodup : r.entries.keys.Nodup
  size_le : r.entries.size ≤ capacity
  capacity_eq : r.capacity = capacity

theorem Sound.step (h : r.Sound capacity) (mv : Move) : (r.step mv).Sound capacity := by
  generalize hnext : r.step mv = next
  have heffect : Effect r mv next := hnext ▸ effect_step r mv
  cases heffect with
  | issue g hmv hissues =>
    have hroom : r.entries.size < capacity := h.capacity_eq ▸ (issues_iff.mp hissues).2
    exact ⟨Table.nodup_keys_insert h.keys_nodup _ _,
      Nat.le_trans (Table.size_insert_le _ _ _) hroom, h.capacity_eq⟩
  | forget hmv hkept =>
    exact ⟨Table.nodup_keys_erase h.keys_nodup _, Nat.le_trans (List.length_filter_le _ _) h.size_le,
      h.capacity_eq⟩
  | none _ _ => exact h

theorem sound_of_moves (capacity : Nat) (moves : List Move) :
    (run { capacity } moves).Sound capacity := by
  induction moves using List.reverseRecOn with
  | nil => exact ⟨List.nodup_nil, Nat.zero_le _, rfl⟩
  | append_singleton moves mv ih =>
    rw [run_concat]
    exact ih.step mv

/-- The entries as the grants that they are of. -/
def grants (r : PermissionRegistry) : List Grant :=
  r.entries.entries.map fun e ↦ ⟨e.2.secret, e.1, e.2.permissions⟩

theorem mem_grants_iff : g ∈ r.grants ↔ (g.inst, g.entry) ∈ r.entries.entries := by
  constructor
  · intro h
    obtain ⟨e, he, rfl⟩ := List.mem_map.mp h
    exact he
  · exact fun h ↦ List.mem_map.mpr ⟨_, h, rfl⟩

theorem mem_grants_iff_stands : g ∈ (run { capacity } moves).grants ↔ Stands { capacity } moves g := by
  rw [mem_grants_iff, ← get?_eq_some_iff_stands]
  exact ⟨Table.find_of_mem (sound_of_moves capacity moves).keys_nodup, Table.mem_of_find⟩

theorem nodup_grants (h : r.entries.keys.Nodup) : r.grants.Nodup := by
  refine List.Nodup.of_map (f := Grant.inst) ?_
  rwa [grants, List.map_map]

/-! ## Secrets -/

/-- The secret that would be issued by a call. -/
def Move.secret? : Move → Option Secret
  | .register fresh _ _ => some fresh
  | _ => none

/-- Where every registration comes with a secret of its own, none is issued twice. -/
theorem neverRepeats_of_nodup (h : (moves.filterMap Move.secret?).Nodup) :
    r.NeverRepeats moves := by
  have hnotLater : ∀ {before more after : List Move} {g g' : Grant},
      moves = before ++ g.call :: (more ++ g'.call :: after) → g.secret ≠ g'.secret := by
    rintro before more after g g' rfl hsecret
    rw [List.filterMap_append] at h
    have hcons := h.of_append_right
    rw [List.filterMap_cons_some (f := Move.secret?) (a := g.call) rfl, List.nodup_cons] at hcons
    refine hcons.1 (List.mem_filterMap.mpr ⟨g'.call, ?_, congrArg some hsecret.symm⟩)
    exact List.mem_append_right _ List.mem_cons_self
  intro before after g before' after' g' hg hg' hsecret
  rcases List.append_eq_append_iff.mp (hg.moves_eq.symm.trans hg'.moves_eq) with
    ⟨_ | ⟨c, more⟩, rfl, hrest⟩ | ⟨_ | ⟨c, more⟩, rfl, hrest⟩
  · exact (List.append_nil _).symm
  · obtain ⟨rfl, rfl⟩ := List.cons.inj hrest
    exact absurd hsecret (hnotLater hg.moves_eq)
  · exact List.append_nil _
  · obtain ⟨rfl, rfl⟩ := List.cons.inj hrest
    exact absurd hsecret.symm (hnotLater hg'.moves_eq)

/-- Two grants that were issued with one secret are one grant, issued once. -/
theorem NeverRepeats.eq_of_secret_eq (h : r.NeverRepeats moves) {before' after' : List Move}
    (hg : r.Issued moves before after g) (hg' : r.Issued moves before' after' g')
    (hsecret : g.secret = g'.secret) : g = g' ∧ after = after' := by
  obtain rfl := h _ _ _ _ _ _ hg hg' hsecret
  obtain ⟨hcall, hafter⟩ :=
    List.cons.inj (List.append_cancel_left (hg.moves_eq.symm.trans hg'.moves_eq))
  exact ⟨Grant.call_injective hcall, hafter⟩

/-- No two grants that stand have one secret. -/
theorem NeverRepeats.stands_inj (h : r.NeverRepeats moves) (hg : r.Stands moves g)
    (hg' : r.Stands moves g') (hsecret : g.secret = g'.secret) : g = g' := by
  obtain ⟨_, _, hissued, -⟩ := hg
  obtain ⟨_, _, hissued', -⟩ := hg'
  exact (h.eq_of_secret_eq hissued hissued' hsecret).1

/-- A grant whose instance was unregistered does not stand, nor does another with its secret. -/
theorem NeverRepeats.not_stands_of_unregister (h : r.NeverRepeats moves)
    (hg : r.Issued moves before after g) (hafter : .unregister g.inst ∈ after)
    (hg' : r.Stands moves g') : g'.secret ≠ g.secret := by
  intro hsecret
  obtain ⟨_, after', hissued', hstands⟩ := hg'
  obtain ⟨rfl, rfl⟩ := h.eq_of_secret_eq hissued' hg hsecret
  exact hstands hafter

/-! ## Looking a secret up -/

/-- A secret that no grant has is not found. -/
theorem lookup_of_forall_ne {secret : Secret} (h : ∀ g ∈ r.grants, g.secret ≠ secret)
    (server : String) : r.lookup secret server = .error (.notFound "secret") := by
  have hnone : (r.entries.entries.find? fun e ↦ e.2.secret = secret) = none := by
    refine List.find?_eq_none.mpr fun e he ↦ ?_
    simpa using h ⟨e.2.secret, e.1, e.2.permissions⟩ (List.mem_map_of_mem he)
  rw [lookup, hnone]

/-- A secret that one grant has is found with what was granted. -/
theorem lookup_of_mem (hg : g ∈ r.grants)
    (honly : ∀ g' ∈ r.grants, g'.secret = g.secret → g' = g) (server : String) :
    r.lookup g.secret server =
      match g.permissions.lookup server with
      | none => .error (.notFound ("functional server " ++ server))
      | some permissions => .ok (g.inst, permissions) := by
  cases hfind : r.entries.entries.find? fun e ↦ e.2.secret = g.secret with
  | none =>
    have hne := List.find?_eq_none.mp hfind _ (mem_grants_iff.mp hg)
    exact absurd (decide_eq_true rfl) hne
  | some e =>
    have hsecret : e.2.secret = g.secret := by simpa using List.find?_some hfind
    have hsame : (⟨e.2.secret, e.1, e.2.permissions⟩ : Grant) = g :=
      honly _ (List.mem_map_of_mem (List.mem_of_find?_eq_some hfind)) hsecret
    rw [lookup, hfind]
    exact hsame ▸ rfl

/-- What the registry answers after a history. -/
structure Honours (capacity : Nat) (moves : List Move) : Prop where
  /-- A secret resolves exactly while its grant stands, to the instance it was issued for and what
  was granted at the server. -/
  resolves : ∀ {secret server inst permissions},
    (run { capacity } moves).lookup secret server = .ok (inst, permissions) ↔
      ∃ g, Stands { capacity } moves g ∧ g.secret = secret ∧ g.inst = inst ∧
        g.permissions.lookup server = some permissions
  /-- At a server that was not named it does not. -/
  unnamed : ∀ {g server}, Stands { capacity } moves g → g.permissions.lookup server = none →
    (run { capacity } moves).lookup g.secret server =
      .error (.notFound ("functional server " ++ server))
  /-- A secret that was never issued, or whose grant ended, is not found. -/
  unresolved : ∀ {secret}, (∀ g, Stands { capacity } moves g → g.secret ≠ secret) → ∀ server,
    (run { capacity } moves).lookup secret server = .error (.notFound "secret")
  /-- Once its instance was unregistered a grant's secret stays dead, whatever was registered
  since. -/
  dead : ∀ {g before after}, Issued { capacity } moves before after g →
    .unregister g.inst ∈ after → ∀ server,
    (run { capacity } moves).lookup g.secret server = .error (.notFound "secret")
  /-- An instance that is registered gets its secret again, and nothing changes. -/
  again : ∀ {g}, Stands { capacity } moves g → ∀ fresh permissions,
    (run { capacity } moves).register fresh g.inst permissions =
      (.ok g.secret, run { capacity } moves)
  /-- The grants that stand can be counted, and there are never more than fit. An instance that is
  not registered gets the fresh secret if there is room for one more, and else is refused. -/
  counted : ∃ standing : List Grant, standing.Nodup ∧
    (∀ g, g ∈ standing ↔ Stands { capacity } moves g) ∧ standing.length ≤ capacity ∧
    ∀ inst, (∀ g, Stands { capacity } moves g → g.inst ≠ inst) → ∀ fresh permissions,
      ((run { capacity } moves).register fresh inst permissions).1 =
        if standing.length < capacity then .ok fresh
        else .error (.resourceExhausted "max registered instances reached")
  /-- An instance that is registered can be unregistered. -/
  known : ∀ {g}, Stands { capacity } moves g →
    ((run { capacity } moves).unregister g.inst).1 = .ok ()
  /-- Any other cannot. -/
  unknown : ∀ {inst}, (∀ g, Stands { capacity } moves g → g.inst ≠ inst) →
    ((run { capacity } moves).unregister inst).1 =
      .error (.notFound ("instance " ++ inst.serviceId))
  /-- An instance has one grant, and no other instance has its secret. -/
  distinct : ∀ {g g'}, Stands { capacity } moves g → Stands { capacity } moves g' →
    (g.inst = g'.inst ↔ g.secret = g'.secret)
  /-- A call that fails changes nothing. -/
  failing : ∀ {mv e}, ((run { capacity } moves).perform mv).1 = .error e →
    (run { capacity } moves).step mv = run { capacity } moves

theorem get?_eq_none_iff : (run { capacity } moves).entries.get? inst = none ↔
    ∀ g, Stands { capacity } moves g → g.inst ≠ inst := by
  rw [Option.eq_none_iff_forall_ne_some]
  constructor
  · rintro h g hg rfl
    exact h _ (get?_eq_some_iff_stands.mpr hg)
  · exact fun h kept hkept ↦
      h ⟨kept.secret, inst, kept.permissions⟩ (get?_eq_some_iff_stands.mp hkept) rfl

/-- **Whatever the registry was asked, it honours the grants that stand and no others**, as long as
no secret was issued twice. -/
theorem honours_run (capacity : Nat) (moves : List Move)
    (h : NeverRepeats { capacity } moves) : Honours capacity moves := by
  have hsound := sound_of_moves capacity moves
  have hfound {g : Grant} (hg : Stands { capacity } moves g) (server : String) :=
    lookup_of_mem (mem_grants_iff_stands.mpr hg)
      (fun g' hg' ↦ h.stands_inj (mem_grants_iff_stands.mp hg') hg) server
  have hlost {secret : Secret} (hnone : ∀ g, Stands { capacity } moves g → g.secret ≠ secret) :=
    lookup_of_forall_ne fun g hg ↦ hnone g (mem_grants_iff_stands.mp hg)
  exact {
    resolves := by
      intro secret server inst permissions
      constructor
      · intro hanswer
        by_cases hex : ∃ g, Stands { capacity } moves g ∧ g.secret = secret
        · obtain ⟨g, hg, rfl⟩ := hex
          rw [hfound hg] at hanswer
          split at hanswer
          · cases hanswer
          · next hserver =>
            obtain ⟨rfl, rfl⟩ := Prod.mk.inj (Except.ok.inj hanswer)
            exact ⟨g, hg, rfl, rfl, hserver⟩
        · rw [hlost fun g hg hsecret ↦ hex ⟨g, hg, hsecret⟩] at hanswer
          cases hanswer
      · rintro ⟨g, hg, rfl, rfl, hserver⟩
        rw [hfound hg, hserver]
    unnamed := fun hg hserver ↦ by rw [hfound hg, hserver]
    unresolved := hlost
    dead := fun hg hafter ↦ hlost fun g' hg' ↦ h.not_stands_of_unregister hg hafter hg'
    again := fun hg fresh permissions ↦
      register_of_known (get?_eq_some_iff_stands.mpr hg) fresh permissions
    counted := by
      refine ⟨(run { capacity } moves).grants, nodup_grants hsound.keys_nodup,
        fun g ↦ mem_grants_iff_stands, ?_, fun inst hnone fresh permissions ↦ ?_⟩
      · rw [grants, List.length_map]
        exact hsound.size_le
      · rw [register_of_unknown (get?_eq_none_iff.mpr hnone), grants, List.length_map,
          hsound.capacity_eq]
        exact apply_ite Prod.fst _ _ _
    known := fun hg ↦ by rw [unregister_of_known (get?_eq_some_iff_stands.mpr hg)]
    unknown := fun hnone ↦ by rw [unregister_of_unknown (get?_eq_none_iff.mpr hnone)]
    distinct := by
      intro g g' hg hg'
      constructor
      · intro hinst
        have hkept := get?_eq_some_iff_stands.mpr hg
        rw [hinst, get?_eq_some_iff_stands.mpr hg'] at hkept
        exact (PermissionEntry.mk.inj (Option.some.inj hkept)).1.symm
      · exact fun hsecret ↦ congrArg Grant.inst (h.stands_inj hg hg' hsecret)
    failing := step_of_failure }

/-- Two instances fill a registry. One of them asks again and keeps its secret, a third is refused,
and then the first leaves and comes back. -/
def reissue : List Move :=
  [.register "first" ⟨"logger", "", 0⟩ [("um", [("journal", "rw")])],
    .register "second" ⟨"logger", "", 1⟩ [],
    .register "unused" ⟨"logger", "", 0⟩ [("um", [])],
    .register "refused" ⟨"player", "", 0⟩ [],
    .unregister ⟨"logger", "", 0⟩,
    .register "third" ⟨"logger", "", 0⟩ [("um", [("journal", "r")])]]

/-- The secret that was given up stays dead, and the instance has another. -/
theorem honours_reissue : NeverRepeats ⟨2, {}⟩ reissue ∧
    (run ⟨2, {}⟩ reissue).lookup "first" "um" = .error (.notFound "secret") ∧
    (run ⟨2, {}⟩ reissue).lookup "third" "um" = .ok (⟨"logger", "", 0⟩, [("journal", "r")]) := by
  have hsecrets : NeverRepeats ⟨2, {}⟩ reissue := neverRepeats_of_nodup (by decide)
  have honours := honours_run 2 reissue hsecrets
  have hfirst : Issued ⟨2, {}⟩ reissue [] (reissue.drop 1)
      ⟨"first", ⟨"logger", "", 0⟩, [("um", [("journal", "rw")])]⟩ := ⟨rfl, rfl, rfl⟩
  have hthird : Issued ⟨2, {}⟩ reissue (reissue.take 5) []
      ⟨"third", ⟨"logger", "", 0⟩, [("um", [("journal", "r")])]⟩ := ⟨rfl, rfl, rfl⟩
  refine ⟨hsecrets, honours.dead hfirst (by simp [reissue]) "um", honours.resolves.mpr ?_⟩
  exact ⟨_, ⟨_, _, hthird, List.not_mem_nil⟩, rfl, rfl, rfl⟩

end NodeAgent.PermissionRegistry
