import NodeAgent.Agent.Call
import NodeAgent.Proofs.Certificate.Loading
import NodeAgent.Proofs.Text.Hex

/-!
# What an index holds after its additions

An index that was empty holds, of each type, the last few of the records that were added. To say
which, forget the index: `latest` lists the records of a type in the order in which they were added,
without those whose serial number was added again later. However the limit changed from one addition
to the next, what is held is an end of that list (`held_suffix_latest`), since an addition appends
to both and then takes from the front of what is held. So what has to go is older than what stays.

A lookup does not have to know any of this. The serial numbers that are held are distinct, so a
record is found by its own, also by a peer that has it as a text.

## Main statements

* `latest_concat`, `held_suffix_latest`: one more addition, and what is held after all of them.
* `effect_add`: what one more addition does to the index.
* `catalogue_fill`: all of this and the lookups, for every sequence of additions.
-/

namespace NodeAgent

namespace CertRecord

variable {r : CertRecord}

/-- The spellings of the serial number in hexadecimal: as it is reported, up to the case of
letters. -/
def Spelling (r : CertRecord) (text : String) : Prop := text.toUpper = r.serialHex

theorem spelling_serialHex (r : CertRecord) : r.Spelling r.serialHex :=
  Text.Hex.toUpper_encodeUpper r.serial

theorem spelling_toLower (r : CertRecord) : r.Spelling r.serialHex.toLower :=
  Text.Hex.toUpper_toLower_encodeUpper r.serial

end CertRecord

/-- A record that is added, and how many of its type may remain. -/
structure Addition where
  record : CertRecord
  maxItems : Nat

namespace CertIndex

variable {x y : CertIndex} {adds : List Addition} {a : Addition} {t : String}
  {issuer serial : Bytes} {rs evicted : List CertRecord} {r : CertRecord}

/-! ## Additions -/

/-- The index after additions to one that was empty. -/
def fill (adds : List Addition) : CertIndex :=
  adds.foldl (fun x a ↦ (x.add a.record a.maxItems).2) {}

@[simp] theorem fill_nil : fill [] = {} := rfl

@[simp] theorem fill_concat (adds : List Addition) (a : Addition) :
    fill (adds ++ [a]) = ((fill adds).add a.record a.maxItems).2 := by
  rw [fill, List.foldl_append, List.foldl_cons, List.foldl_nil, fill]

/-- Whether the serial number of a record is added again. -/
def IsRenewed (r : CertRecord) (adds : List Addition) : Prop :=
  ∃ a ∈ adds, a.record.certType = r.certType ∧ a.record.serial = r.serial

instance (r : CertRecord) (adds : List Addition) : Decidable (IsRenewed r adds) :=
  inferInstanceAs (Decidable (∃ a ∈ adds, _))

/-- The records of a type in the order in which they were added, without those whose serial number
was added again. -/
def latest (t : String) : List Addition → List CertRecord
  | [] => []
  | a :: adds =>
    if a.record.certType = t ∧ ¬IsRenewed a.record adds then a.record :: latest t adds
    else latest t adds

theorem isRenewed_concat :
    IsRenewed r (adds ++ [a]) ↔
      IsRenewed r adds ∨ a.record.certType = r.certType ∧ a.record.serial = r.serial := by
  simp only [IsRenewed, List.mem_append, List.mem_singleton, or_and_right, exists_or,
    exists_eq_left]

/-- **One more addition** takes the record of its serial number out of the list and goes to its
end. -/
theorem latest_concat (adds : List Addition) (ht : a.record.certType = t) :
    latest t (adds ++ [a]) =
      (latest t adds).filter (fun r ↦ r.serial ≠ a.record.serial) ++ [a.record] := by
  induction adds with
  | nil => simp [latest, ht, IsRenewed]
  | cons b adds ih =>
    rw [List.cons_append, latest, latest, ih]
    simp only [isRenewed_concat, ht]
    by_cases hb : b.record.certType = t ∧ ¬IsRenewed b.record adds
    · rw [if_pos hb]
      by_cases hserial : b.record.serial = a.record.serial
      · rw [if_neg fun h ↦ h.2 (Or.inr ⟨hb.1.symm, hserial.symm⟩),
          List.filter_cons_of_neg (by simpa using hserial)]
      · rw [if_pos ⟨hb.1, fun h ↦ h.elim hb.2 fun h ↦ hserial h.2.symm⟩,
          List.filter_cons_of_pos (by simpa using hserial), List.cons_append]
    · rw [if_neg hb, if_neg fun h ↦ hb ⟨h.1, fun hold ↦ h.2 (Or.inl hold)⟩]

theorem latest_concat_of_ne (adds : List Addition) (ht : a.record.certType ≠ t) :
    latest t (adds ++ [a]) = latest t adds := by
  induction adds with
  | nil => simp [latest, ht]
  | cons b adds ih =>
    rw [List.cons_append, latest, latest, ih]
    by_cases hb : b.record.certType = t
    · have hrenewed : IsRenewed b.record (adds ++ [a]) ↔ IsRenewed b.record adds := by
        rw [isRenewed_concat, hb, or_iff_left fun h ↦ ht h.1]
      simp only [hrenewed]
    · rw [if_neg fun h ↦ hb h.1, if_neg fun h ↦ hb h.1]

/-- What is listed was added. -/
theorem exists_of_mem_latest (h : r ∈ latest t adds) :
    r.certType = t ∧ ∃ a ∈ adds, a.record = r := by
  induction adds with
  | nil => cases h
  | cons a adds ih =>
    rw [latest] at h
    split at h
    case isTrue ha =>
      rcases List.mem_cons.mp h with rfl | h
      · exact ⟨ha.1, a, List.mem_cons_self, rfl⟩
      · obtain ⟨ht, b, hb, hr⟩ := ih h
        exact ⟨ht, b, List.mem_cons_of_mem _ hb, hr⟩
    case isFalse =>
      obtain ⟨ht, b, hb, hr⟩ := ih h
      exact ⟨ht, b, List.mem_cons_of_mem _ hb, hr⟩

/-- The serial numbers that are listed are distinct. -/
theorem nodup_latest (t : String) (adds : List Addition) :
    ((latest t adds).map (·.serial)).Nodup := by
  induction adds with
  | nil => exact List.nodup_nil
  | cons a adds ih =>
    rw [latest]
    split
    case isTrue ha =>
      rw [List.map_cons, List.nodup_cons]
      refine ⟨fun hmem ↦ ha.2 ?_, ih⟩
      obtain ⟨r, hr, hserial⟩ := List.mem_map.mp hmem
      obtain ⟨ht, b, hb, rfl⟩ := exists_of_mem_latest hr
      exact ⟨b, hb, ht.trans ha.1.symm, hserial⟩
    case isFalse => exact ih

/-! ## What is held -/

theorem held_add (x : CertIndex) (r : CertRecord) (maxItems : Nat) :
    (x.add r maxItems).2.held r.certType = (added (x.held r.certType) r maxItems).2 := by
  rw [held, add, Table.get?_insert, if_pos rfl]
  rfl

theorem get?_add_of_ne (x : CertIndex) (maxItems : Nat) (h : t ≠ r.certType) :
    (x.add r maxItems).2.certs.get? t = x.certs.get? t := by
  rw [add, Table.get?_insert, if_neg h.symm]

theorem held_add_of_ne (x : CertIndex) (maxItems : Nat) (h : t ≠ r.certType) :
    (x.add r maxItems).2.held t = x.held t := by
  rw [held, get?_add_of_ne x maxItems h, held]

/-- What has to go and what is held of the type after an addition. -/
theorem added_of_add {maxItems : Nat} (h : x.add r maxItems = (evicted, y)) :
    added (x.held r.certType) r maxItems = (evicted, y.held r.certType) := by
  have hheld := held_add x r maxItems
  have hevicted : (added (x.held r.certType) r maxItems).1 = evicted := congrArg Prod.fst h
  rw [h] at hheld
  exact Prod.ext hevicted hheld.symm

/-- If what is held is an end of what was added, so is what goes and what stays after one more
addition. -/
theorem append_suffix_latest {kept : List CertRecord} {maxItems : Nat}
    (hheld : rs <:+ latest a.record.certType adds)
    (h : added rs a.record maxItems = (evicted, kept)) :
    evicted ++ kept <:+ latest a.record.certType (adds ++ [a]) := by
  obtain ⟨older, hold⟩ := hheld
  rw [latest_concat adds rfl, ← hold, List.filter_append, List.append_assoc, append_of_added h]
  exact List.suffix_append _ _

/-- **What is held of a type** is an end of what was added of it. -/
theorem held_suffix_latest (t : String) (adds : List Addition) :
    (fill adds).held t <:+ latest t adds := by
  induction adds using List.reverseRecOn with
  | nil => exact List.suffix_rfl
  | append_singleton adds a ih =>
    rw [fill_concat]
    by_cases ht : a.record.certType = t
    · subst ht
      have hadded := added_of_add (Prod.eta ((fill adds).add a.record a.maxItems))
      exact (List.suffix_append _ _).trans (append_suffix_latest ih hadded)
    · rw [held_add_of_ne _ _ (Ne.symm ht), latest_concat_of_ne adds ht]
      exact ih

theorem nodup_held (t : String) (adds : List Addition) :
    (((fill adds).held t).map (·.serial)).Nodup :=
  ((held_suffix_latest t adds).sublist.map _).nodup (nodup_latest t adds)

theorem certType_of_mem_held (h : r ∈ (fill adds).held t) : r.certType = t :=
  (exists_of_mem_latest ((held_suffix_latest t adds).mem h)).1

/-- A type has records, if only none, once one was added. -/
theorem get?_fill_eq_none_iff :
    (fill adds).certs.get? t = none ↔ ∀ a ∈ adds, a.record.certType ≠ t := by
  induction adds using List.reverseRecOn with
  | nil => exact ⟨fun _ _ ha ↦ absurd ha List.not_mem_nil, fun _ ↦ rfl⟩
  | append_singleton adds a ih =>
    rw [fill_concat, List.forall_mem_append, List.forall_mem_singleton, ← ih]
    by_cases ht : a.record.certType = t
    · rw [add, Table.get?_insert, if_pos ht]
      exact ⟨nofun, fun h ↦ absurd ht h.2⟩
    · rw [get?_add_of_ne _ _ (Ne.symm ht), and_iff_left ht]

/-- What was added last of a type is held as its newest, whatever was added of other types. -/
theorem getLast?_fill {before after : List Addition}
    (h : ∀ b ∈ after, b.record.certType ≠ a.record.certType) :
    ((fill (before ++ a :: after)).held a.record.certType).getLast? = some a.record := by
  induction after using List.reverseRecOn with
  | nil =>
    rw [fill_concat, held_add]
    exact getLast?_of_added rfl
  | append_singleton after b ih =>
    rw [← List.cons_append, ← List.append_assoc, fill_concat,
      held_add_of_ne _ _ (h b (List.mem_append_right _ List.mem_cons_self)).symm]
    exact ih fun c hc ↦ h c (List.mem_append_left _ hc)

/-! ## One more addition -/

/-- What one more addition does to an index that was filled: `evicted` is what has to go, and `y`
the index after it. -/
structure Effect (adds : List Addition) (a : Addition) (evicted : List CertRecord)
    (y : CertIndex) : Prop where
  /-- The new record is the newest of its type. -/
  newest : (y.held a.record.certType).getLast? = some a.record
  /-- What goes and then what stays is what was held, in its order and without a record of the same
  serial number, and the new record. -/
  parts : evicted ++ y.held a.record.certType =
    ((fill adds).held a.record.certType).filter (fun r ↦ r.serial ≠ a.record.serial) ++ [a.record]
  /-- Both are in the order in which they were added, and what goes was added before what stays. -/
  aged : evicted ++ y.held a.record.certType <:+ latest a.record.certType (adds ++ [a])
  /-- No more remain than may remain. -/
  bounded : (y.held a.record.certType).length ≤ max 1 a.maxItems
  /-- Nothing goes unless as many remain as may. -/
  needed : evicted ≠ [] → (y.held a.record.certType).length = max 1 a.maxItems
  /-- Other types are left alone. -/
  others : ∀ t, t ≠ a.record.certType → y.certs.get? t = (fill adds).certs.get? t

theorem length_of_evicted {held kept : List CertRecord} {maxItems : Nat}
    (h : added held r maxItems = (evicted, kept)) (hevicted : evicted ≠ []) :
    kept.length = max 1 maxItems := by
  rw [added, List.splitAt_eq] at h
  obtain ⟨rfl, rfl⟩ := Prod.mk.inj h
  have hpos := List.length_pos_iff.mpr hevicted
  rw [List.length_take] at hpos
  rw [List.length_drop]
  omega

/-- **One more addition.** -/
theorem effect_add (adds : List Addition) (a : Addition)
    (h : (fill adds).add a.record a.maxItems = (evicted, y)) : Effect adds a evicted y := by
  have hadded := added_of_add h
  exact
    { newest := getLast?_of_added hadded
      parts := append_of_added hadded
      aged := append_suffix_latest (held_suffix_latest _ adds) hadded
      bounded := length_of_added hadded
      needed := length_of_evicted hadded
      others := fun t ht ↦ by
        have hother := get?_add_of_ne (fill adds) a.maxItems ht
        rwa [h] at hother }

/-! ## Lookups -/

/-- A record is found by its serial number. -/
theorem found?_of_mem (hdistinct : (rs.map (·.serial)).Nodup) (hr : r ∈ rs)
    (hserial : r.serial ≠ []) (hissuer : issuer = [] ∨ r.issuer = issuer) :
    found? rs issuer r.serial = some r := by
  rw [found?, if_neg hserial]
  cases hfound : rs.reverse.find? _ with
  | none =>
    have hr' := List.find?_eq_none.mp hfound r (List.mem_reverse.mpr hr)
    exact absurd (decide_eq_true ⟨rfl, hissuer⟩) hr'
  | some x =>
    have hx := List.mem_reverse.mp (List.mem_of_find?_eq_some hfound)
    have hsome := List.find?_some hfound
    rw [List.inj_on_of_nodup_map hdistinct hx hr (of_decide_eq_true hsome).1]

theorem found?_eq_none (hserial : serial ≠ [])
    (h : ∀ r ∈ rs, r.serial = serial → ¬(issuer = [] ∨ r.issuer = issuer)) :
    found? rs issuer serial = none := by
  rw [found?, if_neg hserial, List.find?_eq_none]
  intro r hr hfound
  obtain ⟨hsame, hissuer⟩ := of_decide_eq_true hfound
  exact h r (List.mem_reverse.mp hr) hsame hissuer

/-- What a lookup says that finds nothing. -/
theorem get_eq_of_missing (h : found? (x.held t) issuer serial = none) :
    x.get t issuer serial = .error (.notFound
      ((if x.certs.get? t = none then "cert type " else "certificate of type ") ++ t)) := by
  rw [found?, held] at h
  rw [get]
  cases hcerts : x.certs.get? t with
  | none => rfl
  | some rs =>
    rw [hcerts, Option.getD_some] at h
    dsimp only
    rw [h]
    rfl

/-- What there is to know about an index that was filled by additions. -/
structure Catalogue (adds : List Addition) : Prop where
  /-- The serial numbers of a type are pairwise distinct. -/
  distinct : ∀ t, (((fill adds).held t).map (·.serial)).Nodup
  /-- One more addition has the effect that it should have. -/
  effect : ∀ a evicted y,
    (fill adds).add a.record a.maxItems = (evicted, y) → Effect adds a evicted y
  /-- A lookup without a serial number finds the record of the type that was added last. -/
  newest : ∀ before a after issuer, adds = before ++ a :: after →
    (∀ b ∈ after, b.record.certType ≠ a.record.certType) →
      (fill adds).get a.record.certType issuer [] = .ok a.record.info
  /-- A lookup in a type of which nothing was added finds nothing. -/
  empty : ∀ t issuer serial, (∀ a ∈ adds, a.record.certType ≠ t) →
    (fill adds).get t issuer serial = .error (.notFound ("cert type " ++ t))
  /-- A lookup by serial number finds the record that is held if no issuer is given, or its own. -/
  found : ∀ t issuer, ∀ r ∈ (fill adds).held t, r.serial ≠ [] →
    (issuer = [] ∨ r.issuer = issuer) → (fill adds).get t issuer r.serial = .ok r.info
  /-- It finds nothing otherwise. -/
  missing : ∀ t issuer serial, serial ≠ [] →
    (∀ r ∈ (fill adds).held t, r.serial = serial → ¬(issuer = [] ∨ r.issuer = issuer)) →
      (∃ a ∈ adds, a.record.certType = t) →
        (fill adds).get t issuer serial = .error (.notFound ("certificate of type " ++ t))
  /-- The serial number as it is reported is a spelling of it, also in lower case. -/
  spelled : ∀ r : CertRecord, r.Spelling r.serialHex ∧ r.Spelling r.serialHex.toLower
  /-- An agent that has the index answers a peer with the record that asks for any spelling of its
  serial number. -/
  told : ∀ {σ : Type} (agent : Agent σ), (agent.site.certs agent.world).certs = (fill adds).certs →
    ∀ l t issuer text, ∀ r ∈ (fill adds).held t, r.serial ≠ [] →
      (issuer = [] ∨ r.issuer = issuer) → r.Spelling text →
        (agent.call l (.findCert t issuer text)).1 = .answered (.ok (.cert r.info))

/-- A lookup depends on nothing but the records. -/
theorem get_congr (h : x.certs = y.certs) : x.get t issuer serial = y.get t issuer serial := by
  rw [get, get, h]

/-- **An index after any additions.** -/
theorem catalogue_fill (adds : List Addition) : Catalogue adds := by
  have hfound : ∀ t issuer, ∀ r ∈ (fill adds).held t, r.serial ≠ [] →
      (issuer = [] ∨ r.issuer = issuer) → (fill adds).get t issuer r.serial = .ok r.info :=
    fun t issuer r hr hserial hissuer ↦
      get_of_found (found?_of_mem (nodup_held t adds) hr hserial hissuer)
  refine
    { distinct := fun t ↦ nodup_held t adds
      effect := fun a evicted y h ↦ effect_add adds a h
      newest := ?_
      empty := ?_
      found := hfound
      missing := ?_
      spelled := fun r ↦ ⟨r.spelling_serialHex, r.spelling_toLower⟩
      told := ?_ }
  · rintro before a after issuer rfl hlast
    exact get_newest issuer (getLast?_fill hlast)
  · intro t issuer serial hnone
    rw [get, get?_fill_eq_none_iff.mpr hnone]
  · rintro t issuer serial hserial hnone ⟨a, ha, rfl⟩
    rw [get_eq_of_missing (found?_eq_none hserial hnone),
      if_neg fun h ↦ get?_fill_eq_none_iff.mp h a ha rfl]
  · intro σ agent hcerts l t issuer text r hr hserial hissuer htext
    have hget : (agent.site.certs agent.world).get t issuer r.serial = .ok r.info :=
      (get_congr hcerts).trans (hfound t issuer r hr hserial hissuer)
    have hoffers : agent.offers l (Rpc.findCert t issuer text).service = true := rfl
    rw [Agent.call, if_pos hoffers, Agent.respond, Text.Hex.decode_of_toUpper htext]
    dsimp only
    rw [hget, ← certType_of_mem_held hr]
    rfl

end CertIndex

end NodeAgent
