import NodeAgent.Proofs.Certificate.Steps
import NodeAgent.Proofs.Config.Validity
import NodeAgent.Provisioning.Basic

/-!
# The types that are offered and those that are known

A node offers the types of its configuration one after the other and leaves out those that are
disabled. Keys and certificates look a type up by its name, and of several with one name the last
one counts. These are different readings of one list: a name that stands there twice, once disabled,
would be offered and not known. A valid configuration has no name twice, and then they agree.

That a type is known is told by what an operation does *not* answer: whatever else may be wrong with
a subject, a disk or a certificate, it is never that something is missing (`IsKnown`).

## Main statements

* `moduleOf_eq_ok_iff`: which module a type has if no name stands there twice.
* `offers_validate`: the types offered are those for which keys and certificates are taken.
-/

namespace NodeAgent

/-! ## Answers -/

/-- The answer is not that something is missing. -/
def IsKnown {α : Type} (r : Except ServiceError α) : Prop := ∀ what, r ≠ .error (.notFound what)

section IsKnown

variable {σ α β : Type}

theorem isKnown_ok (a : α) : IsKnown (.ok a) := nofun

theorem isKnown_failed (text : String) (exitCode : Int) :
    IsKnown (α := α) (.error (.failed text exitCode)) := nofun

theorem isKnown_invalidArgument (what : String) :
    IsKnown (α := α) (.error (.invalidArgument what)) := nofun

theorem isKnown_wrongState (what : String) : IsKnown (α := α) (.error (.wrongState what)) := nofun

theorem IsKnown.error {e : ServiceError} (h : IsKnown (α := α) (.error e)) :
    IsKnown (α := β) (.error e) :=
  fun what he ↦ h what (congrArg Except.error (Except.error.inj he))

theorem IsKnown.bind {r : Except ServiceError α} {f : α → Except ServiceError β} (h : IsKnown r)
    (hf : ∀ a, IsKnown (f a)) : IsKnown (r >>= f) := by
  cases r with
  | error e => exact h.error
  | ok a => exact hf a

theorem IsKnown.andThen {m : Action σ α} {f : α → Action σ β} {w : σ} (h : IsKnown (m w).1)
    (hf : ∀ a w', IsKnown (f a w').1) : IsKnown (m.andThen f w).1 := by
  rw [Action.andThen]
  split
  · exact hf _ _
  · rename_i e w' hm
    rw [hm] at h
    exact h.error

theorem isKnown_forM {f : α → Except ServiceError Unit} (h : ∀ a, IsKnown (f a)) (l : List α) :
    IsKnown (l.forM f) := by
  induction l with
  | nil => exact isKnown_ok ()
  | cons a l ih => exact (h a).bind fun _ ↦ ih

end IsKnown

/-! ## Types of a list of modules -/

theorem mem_offeredTypes {ms : List CertModule} {t : String} :
    t ∈ offeredTypes ms ↔ ∃ m ∈ ms, m.id = t ∧ m.disabled = false := by
  rw [offeredTypes, List.mem_map]
  simp only [List.mem_filter, Bool.not_eq_true', and_assoc, and_comm (a := _ = false)]

theorem offeredTypes_sublist (ms : List CertModule) :
    (offeredTypes ms).Sublist (ms.map (·.id)) := List.filter_sublist.map _

namespace CertStorage

variable {s : CertStorage} {t text subject : String} {v : Vault} {m : CertModule}

/-- **The module of a type**, if no name stands in the list twice. -/
theorem moduleOf_eq_ok_iff (h : (s.modules.map (·.id)).Nodup) :
    s.moduleOf t = .ok m ↔ m ∈ s.modules ∧ m.id = t ∧ m.disabled = false := by
  refine ⟨mem_of_moduleOf, ?_⟩
  rintro ⟨hm, hid, henabled⟩
  have hfind : s.modules.reverse.find? (·.id = t) = some m := by
    cases hfound : s.modules.reverse.find? (·.id = t) with
    | none =>
      exact absurd (decide_eq_true hid) (List.find?_eq_none.mp hfound m (List.mem_reverse.mpr hm))
    | some m' =>
      have hm' := List.mem_reverse.mp (List.mem_of_find?_eq_some hfound)
      have hid' : m'.id = t := by simpa using List.find?_some hfound
      rw [List.inj_on_of_nodup_map h hm' hm (hid'.trans hid.symm)]
  rw [moduleOf, hfind]
  dsimp only
  rw [henabled, if_neg Bool.false_ne_true]

/-- A type that has no module is answered to be missing. -/
theorem moduleOf_cases (s : CertStorage) (t : String) :
    (∃ m, s.moduleOf t = .ok m) ∨ s.moduleOf t = .error (.notFound ("cert type " ++ t)) := by
  unfold moduleOf
  split
  · split
    · exact Or.inr rfl
    · exact Or.inl ⟨_, rfl⟩
  · exact Or.inr rfl

/-! ## Answers to those who know a type -/

theorem isKnown_onDisk (what : String) (p : Path) (f : Disk → Except FileError Unit × Disk)
    (v : Vault) : IsKnown (onDisk what p f v).1 := by
  rw [onDisk]
  dsimp only
  cases (f v.disk).1 with
  | ok => exact isKnown_ok ()
  | error e => exact isKnown_failed _ _

theorem isKnown_requestFor (m : CertModule) (subject : String) :
    IsKnown (requestFor m subject) := by
  have halgorithm : IsKnown (checkAlgorithm m) := by
    unfold checkAlgorithm
    dsimp only
    split
    · exact isKnown_ok ()
    · exact isKnown_invalidArgument _
  have hname : ∀ n, IsKnown (checkName n) := by
    intro n
    unfold checkName
    split
    · exact isKnown_ok ()
    · exact isKnown_invalidArgument _
  have hrest : IsKnown (do
      checkAlgorithm m
      m.alternativeNames.forM checkName
      return ⟨subject, m.alternativeNames, m.extendedKeyUsage.filterMap KeyUsage.ofName?⟩ :
        Except ServiceError CertRequest) :=
    halgorithm.bind fun _ ↦ (isKnown_forM hname _).bind fun _ ↦ isKnown_ok _
  unfold requestFor
  split
  · exact isKnown_invalidArgument _
  · exact hrest

theorem isKnown_pendingKey (s : CertStorage) (t : String) (d : Disk) :
    IsKnown (s.pendingKey t d) := by
  unfold pendingKey
  split
  · exact isKnown_wrongState _
  · exact isKnown_failed _ _
  · cases PrivateKey.ofText _ with
    | ok key => exact isKnown_ok key
    | error reason => exact isKnown_failed _ _

theorem isKnown_certFor (key : PrivateKey) (text : String) : IsKnown (certFor key text) := by
  unfold certFor
  split
  · exact isKnown_invalidArgument _
  · split
    · exact isKnown_ok _
    · exact isKnown_invalidArgument _

theorem isKnown_createKey (h : s.moduleOf t = .ok m) (subject : String) (v : Vault) :
    IsKnown (s.createKey t subject v).1 := by
  unfold createKey
  rw [h]
  have hrequest := isKnown_requestFor m subject
  dsimp only [Except.bind]
  cases hr : requestFor m subject with
  | error e =>
    rw [hr] at hrequest
    exact hrequest.error
  | ok request =>
    exact (isKnown_onDisk _ _ _ _).andThen fun _ _ ↦
      (isKnown_onDisk _ _ _ _).andThen fun _ _ ↦ isKnown_ok _

theorem isKnown_applyCert (h : s.moduleOf t = .ok m) (text : String) (v : Vault) :
    IsKnown (s.applyCert t text v).1 := by
  have hchecks : IsKnown (do
      let m ← s.moduleOf t
      let key ← s.pendingKey t v.disk
      let c ← certFor key text
      return (m, c) : Except ServiceError (CertModule × Certificate)) := by
    rw [h]
    exact (isKnown_pendingKey s t v.disk).bind fun key ↦
      (isKnown_certFor key text).bind fun c ↦ isKnown_ok (m, c)
  unfold applyCert
  split
  · rename_i e he
    rw [he] at hchecks
    exact hchecks.error
  · exact (isKnown_onDisk _ _ _ _).andThen fun _ _ ↦
      (isKnown_onDisk _ _ _ _).andThen fun _ _ ↦ isKnown_ok _

/-- Who does not know a type does nothing. -/
theorem refused_of_moduleOf {e : ServiceError} (h : s.moduleOf t = .error e) (subject text : String)
    (v : Vault) :
    s.createKey t subject v = (.error e, v) ∧ s.applyCert t text v = (.error e, v) := by
  constructor
  · unfold createKey
    rw [h]
    rfl
  · unfold applyCert
    rw [h]
    rfl

/-- Whether a type is known is told by any answer that passes on that it is missing, and that is
otherwise never that something is. -/
theorem exists_moduleOf_iff {α : Type} {r : Except ServiceError α}
    (hknown : ∀ m, s.moduleOf t = .ok m → IsKnown r)
    (hrefused : ∀ e, s.moduleOf t = .error e → r = .error e) :
    (∃ m, s.moduleOf t = .ok m) ↔ r ≠ .error (.notFound ("cert type " ++ t)) := by
  constructor
  · rintro ⟨m, hm⟩
    exact hknown m hm _
  · intro hanswer
    exact (s.moduleOf_cases t).resolve_right fun hmissing ↦ hanswer (hrefused _ hmissing)

/-! ## What is offered is known -/

/-- How a list of modules offers a type, and how keys and certificates of the type are taken. -/
structure Offers (modules : List CertModule) (s : CertStorage) (t : String) : Prop where
  /-- Keys are made for the types that are offered, whatever else may keep from it, -/
  createKey : ∀ subject v, t ∈ offeredTypes modules ↔
    (s.createKey t subject v).1 ≠ .error (.notFound ("cert type " ++ t))
  /-- and certificates are applied for them. -/
  applyCert : ∀ text v, t ∈ offeredTypes modules ↔
    (s.applyCert t text v).1 ≠ .error (.notFound ("cert type " ++ t))
  /-- For a type that is not offered nothing is done. -/
  refused : t ∉ offeredTypes modules → ∀ subject text v,
    (s.createKey t subject v).2 = v ∧ (s.applyCert t text v).2 = v
  /-- The types that are offered are those of modules that are not disabled, -/
  enabled : t ∈ offeredTypes modules ↔ ∃ m ∈ modules, m.id = t ∧ m.disabled = false
  /-- each of them once, -/
  once : t ∈ offeredTypes modules → (offeredTypes modules).count t = 1
  /-- and in the order of the modules, no two of which have one name. -/
  ordered : (offeredTypes modules).Sublist (modules.map (·.id)) ∧ (modules.map (·.id)).Nodup

/-- **The types that a valid configuration offers are those it knows.** -/
theorem offers_validate {c c' : Config} (h : c.validate = .ok c') (path : Path)
    (random : Nat → Nat) (t : String) :
    Offers c'.certModules ⟨path, c'.certModules, random⟩ t := by
  obtain ⟨p, q, -, -, -, hmodules, -, rfl⟩ := Config.validate_eq_ok_iff.mp h
  obtain ⟨-, hapart, -⟩ := (Config.checkModules_eq_ok_iff []).mp hmodules
  generalize hs : (⟨path, c.certModules, random⟩ : CertStorage) = s
  have hms : c.certModules = s.modules := by rw [← hs]
  dsimp only
  rw [hms] at hapart ⊢
  have hoffered : t ∈ offeredTypes s.modules ↔ ∃ m, s.moduleOf t = .ok m := by
    rw [mem_offeredTypes]
    exact exists_congr fun m ↦ (moduleOf_eq_ok_iff hapart).symm
  exact {
    createKey := fun subject v ↦ hoffered.trans <|
      exists_moduleOf_iff (fun m hm ↦ isKnown_createKey hm subject v) fun e he ↦
        congrArg Prod.fst (refused_of_moduleOf he subject "" v).1
    applyCert := fun text v ↦ hoffered.trans <|
      exists_moduleOf_iff (fun m hm ↦ isKnown_applyCert hm text v) fun e he ↦
        congrArg Prod.fst (refused_of_moduleOf he "" text v).2
    refused := fun ht subject text v ↦ by
      have hmissing := (s.moduleOf_cases t).resolve_left (mt hoffered.mpr ht)
      obtain ⟨hcreate, happly⟩ := refused_of_moduleOf hmissing subject text v
      rw [hcreate, happly]
      exact ⟨rfl, rfl⟩
    enabled := mem_offeredTypes
    once := fun ht ↦ List.count_eq_one_of_mem ((offeredTypes_sublist _).nodup hapart) ht
    ordered := ⟨offeredTypes_sublist _, hapart⟩ }

/-- Of two types one is disabled. Keys are made for the other one only. -/
theorem offers_validate_disabled :
    Config.hostless.validate = .ok { Config.hostless with
      publicAddr := "0.0.0.0:8090"
      protectedAddr := "localhost:8089" } ∧
      offeredTypes Config.hostless.certModules = ["iam"] ∧
      ∀ v, let s : CertStorage := ⟨"certs", Config.hostless.certModules, id⟩
        (s.createKey "iam" "node" v).1 ≠ .error (.notFound "cert type iam") ∧
          (s.createKey "offline" "node" v).2 = v := by
  have hvalid : Config.hostless.validate = .ok { Config.hostless with
      publicAddr := "0.0.0.0:8090"
      protectedAddr := "localhost:8089" } := rfl
  have hoffered : offeredTypes Config.hostless.certModules = ["iam"] := rfl
  refine ⟨hvalid, hoffered, fun v ↦ ⟨?_, ?_⟩⟩
  · exact ((offers_validate hvalid "certs" id "iam").createKey "node" v).mp
      (hoffered ▸ List.mem_singleton_self _)
  · exact ((offers_validate hvalid "certs" id "offline").refused (by simp [hoffered]) "node" "" v).1

end CertStorage

end NodeAgent
