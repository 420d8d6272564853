import NodeAgent.Config.Validity
import NodeAgent.Proofs.Text.Blank
import NodeAgent.Server.Lifecycle
import Mathlib.Data.List.Nodup

/-!
# What a configuration is checked for

A check goes through a configuration step by step and stops at the first thing that is wrong, and
the names of the certificate types are compared with those seen before. What it takes to get through
to the end says nothing of steps (`IsAcceptable`): in particular the types are named apart from each
other, whatever their order.

The listener addresses are brought into normal form on the way, and once more when a server binds
them. The second time makes no difference, since a normal form has no blanks at its ends and names a
host.

## Main statements

* `Address.correct?_eq_some_iff`: the normal form of an address.
* `checkModules_eq_ok_iff`: which lists of certificate types pass.
* `validates`: which configurations are valid, and what becomes of them.
-/

namespace NodeAgent

/-! ## Addresses -/

namespace Address

variable {addr addr' : String}

/-- The second address is the first one without the blanks around it, on every interface if it
begins with a colon. -/
def Spells (addr addr' : String) : Prop :=
  ∃ rest, Text.Trims addr.toList rest ∧ rest ≠ [] ∧
    addr'.toList = if rest.head? = some ':' then "0.0.0.0".toList ++ rest else rest

/-- **The normal form of an address.** -/
theorem correct?_eq_some_iff : correct? addr = some addr' ↔ Spells addr addr' := by
  have hrest : ∀ rest, Text.Trims addr.toList rest ↔ Text.trimBlanks addr.toList = rest :=
    fun rest ↦ Text.trimBlanks_eq_iff.symm
  have htext : ∀ cs, some (String.ofList cs) = some addr' ↔ addr'.toList = cs := fun cs ↦ by
    rw [Option.some.injEq, ← String.toList_inj, String.toList_ofList, eq_comm]
  simp only [Spells, hrest, exists_eq_left']
  unfold correct?
  split
  · rename_i hnil
    simp [hnil]
  · rename_i rest hcolon
    rw [hcolon, htext, List.head?_cons, if_pos rfl]
    exact ⟨fun h ↦ ⟨List.cons_ne_nil _ _, h⟩, And.right⟩
  · rename_i hnil hcolon
    have hhead : ¬(Text.trimBlanks addr.toList).head? = some ':' := by
      intro hhead
      obtain ⟨rest, hrest⟩ := List.head?_eq_some_iff.mp hhead
      exact hcolon rest hrest
    rw [htext, if_neg hhead]
    exact ⟨fun h ↦ ⟨hnil, h⟩, And.right⟩

/-- An address has a normal form if not all of it is blank. -/
theorem exists_correct?_iff :
    (∃ addr', correct? addr = some addr') ↔ ∃ c ∈ addr.toList, Text.isBlank c = false := by
  have hblank : (∃ c ∈ addr.toList, Text.isBlank c = false) ↔ Text.trimBlanks addr.toList ≠ [] := by
    rw [Ne, Text.trimBlanks_eq_nil_iff]
    simp
  rw [hblank]
  unfold correct?
  split <;> simp_all

/-- An address has no blanks at its ends, and names a host. -/
structure IsNormal (addr : String) : Prop where
  nonempty : addr ≠ ""
  trimmed : Text.IsTrimmed addr.toList
  hosted : addr.toList.head? ≠ some ':'

/-- A normal form is normal. -/
theorem isNormal_of_correct? (h : correct? addr = some addr') : IsNormal addr' := by
  obtain ⟨rest, ⟨-, -, -, -, -, htrimmed⟩, hne, haddr⟩ := correct?_eq_some_iff.mp h
  have hempty : addr'.toList ≠ [] → addr' ≠ "" := fun h haddr ↦ h (by rw [haddr]; rfl)
  by_cases hcolon : rest.head? = some ':'
  · rw [if_pos hcolon] at haddr
    refine ⟨hempty (by rw [haddr]; exact List.append_ne_nil_of_right_ne_nil _ hne), ?_, ?_⟩
    · rw [haddr]
      refine ⟨fun c hc ↦ ?_, fun c hc ↦ htrimmed.last c ?_⟩
      · obtain rfl : '0' = c := Option.some.inj hc
        rfl
      · rwa [List.getLast?_append_of_ne_nil _ hne] at hc
    · rw [haddr]
      exact fun hhead ↦ absurd (Option.some.inj hhead) (by decide)
  · rw [if_neg hcolon] at haddr
    exact ⟨hempty (haddr ▸ hne), haddr ▸ htrimmed, haddr ▸ hcolon⟩

/-- A normal address is its own normal form. -/
theorem correct?_of_isNormal (h : IsNormal addr) : correct? addr = some addr := by
  refine correct?_eq_some_iff.mpr ⟨addr.toList,
    ⟨[], [], by simp, nofun, nofun, h.trimmed⟩, fun hnil ↦ ?_, (if_neg h.hosted).symm⟩
  exact h.nonempty (String.toList_inj.mp hnil)

/-- A normal address is bound as it is. -/
theorem bind_of_isNormal (h : IsNormal addr) (net : Network) (held : List String) :
    Server.bind net held addr = (net.bind held addr).mapError (ServerError.bind addr) := by
  rw [Server.bind, correct?_of_isNormal h]
  dsimp only
  cases net.bind held addr <;> rfl

end Address

namespace Config

variable {c c' : Config} {i : IdentifierConfig} {ms : List CertModule}

/-! ## Certificate types -/

/-- **Certificate types pass** if they are named, and apart from each other and from those seen. -/
theorem checkModules_eq_ok_iff (seen : List String) :
    checkModules seen ms = .ok () ↔
      (∀ m ∈ ms, m.id ≠ "") ∧ (ms.map (·.id)).Nodup ∧ ∀ m ∈ ms, m.id ∉ seen := by
  induction ms generalizing seen with
  | nil => simp [checkModules]
  | cons m ms ih =>
    rw [checkModules]
    by_cases hunnamed : m.id = ""
    · rw [if_pos hunnamed]
      refine iff_of_false nofun fun h ↦ h.1 m List.mem_cons_self hunnamed
    rw [if_neg hunnamed]
    by_cases hseen : m.id ∈ seen
    · rw [if_pos (List.contains_iff_mem.mpr hseen)]
      exact iff_of_false nofun fun h ↦ h.2.2 m List.mem_cons_self hseen
    rw [if_neg (fun h ↦ hseen (List.contains_iff_mem.mp h)), ih, List.map_cons, List.nodup_cons,
      List.forall_mem_cons, List.forall_mem_cons]
    -- the name of the first one is among those seen by the others
    have hapart : (∀ m' ∈ ms, m'.id ∉ m.id :: seen) ↔
        m.id ∉ ms.map (·.id) ∧ ∀ m' ∈ ms, m'.id ∉ seen := by
      simp only [List.mem_cons, not_or, List.mem_map, not_exists, not_and]
      exact ⟨fun h ↦ ⟨fun m' hm' ↦ (h m' hm').1, fun m' hm' ↦ (h m' hm').2⟩,
        fun h m' hm' ↦ ⟨h.1 m' hm', h.2 m' hm'⟩⟩
    rw [hapart]
    tauto

/-- The identity source is none, or the one there is with its parameters. -/
theorem checkIdentifier_eq_ok_iff : checkIdentifier i = .ok () ↔
    i.plugin = "" ∨ i.plugin = fileIdentifier ∧ i.params.isSome = true := by
  unfold checkIdentifier
  by_cases hnone : i.plugin = ""
  · simp [hnone]
  by_cases hfile : i.plugin = fileIdentifier
  · cases i.params <;> simp [hfile]
  · simp [hnone, hfile]

/-! ## Configurations -/

theorem normalAddress_eq_ok_iff {key addr addr' : String} :
    normalAddress key addr = .ok addr' ↔ Address.correct? addr = some addr' := by
  unfold normalAddress
  cases Address.correct? addr <;> simp

/-- Steps in a row succeed if each of them does. -/
theorem bind_eq_ok_iff {ε α β : Type} {x : Except ε α} {f : α → Except ε β} {b : β} :
    x >>= f = .ok b ↔ ∃ a, x = .ok a ∧ f a = .ok b := by
  cases x with
  | error e => exact iff_of_false nofun fun ⟨_, h, _⟩ ↦ nomatch h
  | ok a => exact ⟨fun h ↦ ⟨a, rfl, h⟩, fun ⟨_, h, hf⟩ ↦ Except.ok.inj h ▸ hf⟩

/-- The steps of validation, all of which have to succeed. -/
theorem validate_eq_ok_iff : c.validate = .ok c' ↔
    ∃ p q, Address.correct? c.publicAddr = some p ∧ Address.correct? c.protectedAddr = some q ∧
      checkIdentifier c.identifier = .ok () ∧ checkModules [] c.certModules = .ok () ∧
      c.retry.maxAttempts ≠ 0 ∧ { c with publicAddr := p, protectedAddr := q } = c' := by
  have hattempts : ∀ p q, (do
      if c.retry.maxAttempts = 0 then throw .noAttempts
      return { c with publicAddr := p, protectedAddr := q } : Except ConfigError Config) = .ok c' ↔
        c.retry.maxAttempts ≠ 0 ∧ { c with publicAddr := p, protectedAddr := q } = c' := by
    intro p q
    by_cases hzero : c.retry.maxAttempts = 0
    · rw [if_pos hzero]
      exact iff_of_false nofun fun h ↦ h.1 hzero
    · rw [if_neg hzero]
      exact ⟨fun h ↦ ⟨hzero, Except.ok.inj h⟩, fun h ↦ congrArg Except.ok h.2⟩
  unfold validate
  simp only [bind_eq_ok_iff (x := normalAddress _ _), normalAddress_eq_ok_iff,
    bind_eq_ok_iff (x := checkIdentifier _), bind_eq_ok_iff (x := checkModules _ _), hattempts]
  constructor
  · rintro ⟨p, hp, q, hq, ⟨⟩, hidentifier, ⟨⟩, hmodules, h⟩
    exact ⟨p, q, hp, hq, hidentifier, hmodules, h⟩
  · rintro ⟨p, q, hp, hq, hidentifier, hmodules, h⟩
    exact ⟨p, hp, q, hq, (), hidentifier, (), hmodules, h⟩

/-- What it takes for a configuration to be valid. -/
structure IsAcceptable (c : Config) : Prop where
  publicAddr : ∃ ch ∈ c.publicAddr.toList, Text.isBlank ch = false
  protectedAddr : ∃ ch ∈ c.protectedAddr.toList, Text.isBlank ch = false
  identifier : c.identifier.plugin = "" ∨
    c.identifier.plugin = fileIdentifier ∧ c.identifier.params.isSome = true
  named : ∀ m ∈ c.certModules, m.id ≠ ""
  apart : (c.certModules.map (·.id)).Nodup
  attempts : 1 ≤ c.retry.maxAttempts

/-- What becomes of a listener address: its normal form, which is normal and which the server binds
as it is. -/
structure Normalizes (addr addr' : String) : Prop where
  spells : Address.Spells addr addr'
  isNormal : Address.IsNormal addr'
  fixed : Address.correct? addr' = some addr'
  bound : ∀ net held,
    Server.bind net held addr' = (net.bind held addr').mapError (ServerError.bind addr')

theorem normalizes_of_correct? {addr addr' : String} (h : Address.correct? addr = some addr') :
    Normalizes addr addr' where
  spells := Address.correct?_eq_some_iff.mp h
  isNormal := Address.isNormal_of_correct? h
  fixed := Address.correct?_of_isNormal (Address.isNormal_of_correct? h)
  bound := Address.bind_of_isNormal (Address.isNormal_of_correct? h)

/-- **Which configurations are valid, and what becomes of them**: nothing changes but the two
listener addresses, and these are normal. -/
theorem validates (c : Config) :
    ((∃ c', c.validate = .ok c') ↔ c.IsAcceptable) ∧
      ∀ c', c.validate = .ok c' →
        c' = { c with publicAddr := c'.publicAddr, protectedAddr := c'.protectedAddr } ∧
          Normalizes c.publicAddr c'.publicAddr ∧ Normalizes c.protectedAddr c'.protectedAddr := by
  refine ⟨⟨?_, fun h ↦ ?_⟩, fun c' h ↦ ?_⟩
  · rintro ⟨c', h⟩
    obtain ⟨p, q, hp, hq, hidentifier, hmodules, hattempts, -⟩ := validate_eq_ok_iff.mp h
    obtain ⟨hnamed, hapart, -⟩ := (checkModules_eq_ok_iff []).mp hmodules
    exact ⟨Address.exists_correct?_iff.mp ⟨p, hp⟩, Address.exists_correct?_iff.mp ⟨q, hq⟩,
      checkIdentifier_eq_ok_iff.mp hidentifier, hnamed, hapart,
      Nat.one_le_iff_ne_zero.mpr hattempts⟩
  · obtain ⟨p, hp⟩ := Address.exists_correct?_iff.mpr h.publicAddr
    obtain ⟨q, hq⟩ := Address.exists_correct?_iff.mpr h.protectedAddr
    exact ⟨_, validate_eq_ok_iff.mpr ⟨p, q, hp, hq, checkIdentifier_eq_ok_iff.mpr h.identifier,
      (checkModules_eq_ok_iff []).mpr ⟨h.named, h.apart, fun _ _ ↦ List.not_mem_nil⟩,
      Nat.one_le_iff_ne_zero.mp h.attempts, rfl⟩⟩
  · obtain ⟨p, q, hp, hq, -, -, -, rfl⟩ := validate_eq_ok_iff.mp h
    exact ⟨rfl, normalizes_of_correct? hp, normalizes_of_correct? hq⟩

/-- A configuration that leaves the hosts of its listeners out. -/
def hostless : Config where
  publicAddr := " :8090\n"
  protectedAddr := "localhost:8089 "
  identifier := ⟨fileIdentifier, some {}⟩
  certModules := [{ id := "iam" }, { id := "offline", disabled := true }]

/-- The configuration is valid, and its listeners are those of every interface and of one host. -/
theorem validates_hostless :
    (∃ c', hostless.validate = .ok c') ∧
      hostless.validate =
        .ok { hostless with publicAddr := "0.0.0.0:8090", protectedAddr := "localhost:8089" } ∧
      Normalizes hostless.publicAddr "0.0.0.0:8090" := by
  have hvalid : hostless.validate =
      .ok { hostless with publicAddr := "0.0.0.0:8090", protectedAddr := "localhost:8089" } := rfl
  exact ⟨⟨_, hvalid⟩, hvalid, ((validates hostless).2 _ hvalid).2.1⟩

end Config

end NodeAgent
