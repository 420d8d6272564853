import NodeAgent.Proofs.Certificate.Run

/-!
# Loading the index

An index is made anew from the certificates in the directories of their types. A directory lists its
files in an order of its own, and the records are sorted by the time at which they expire, so of
those that expire at the same time the order is that of the directory (`loadIn`).

If the files are in step with records, these records are loaded, in another order. That makes no
difference for a lookup by serial number, which finds the one record there is. A lookup of the newest
finds one that expires last, and which of them it is depends on the directory.

## Main statements

* `getLast?_sortBy_concat`: an element that is last in order and in the list stays last.
* `found?_congr`: lookups by serial number do not depend on the order of the records.
* `load_eq`: the index is loaded from the files in ascending order of their names.
* `mem_recordsFrom`, `getLast?_recordsFrom`: what is loaded of a type, and what as its newest.
-/

namespace NodeAgent

/-! ## Sorting -/

section Sorting

variable {α : Type} {key : α → Int} {l : List α} {x z : α}

theorem le_trans_key {a b c : α} (hab : decide (key a ≤ key b) = true)
    (hbc : decide (key b ≤ key c) = true) : decide (key a ≤ key c) = true :=
  decide_eq_true (Int.le_trans (of_decide_eq_true hab) (of_decide_eq_true hbc))

theorem le_total_key (key : α → Int) (a b : α) :
    (decide (key a ≤ key b) || decide (key b ≤ key a)) = true := by
  simpa using Int.le_total (key a) (key b)

theorem pairwise_sortBy (key : α → Int) (l : List α) :
    (l.mergeSort fun a b ↦ key a ≤ key b).Pairwise fun a b ↦ key a ≤ key b := by
  exact (List.pairwise_mergeSort (fun _ _ _ ↦ le_trans_key) (le_total_key key) l).imp
    of_decide_eq_true

/-- Elements that are equal in order stay in their order. -/
theorem filter_sortBy (key : α → Int) (l : List α) (k : Int) :
    (l.mergeSort fun a b ↦ key a ≤ key b).filter (key · = k) = l.filter (key · = k) := by
  have hpairwise : (l.filter (key · = k)).Pairwise fun a b ↦ decide (key a ≤ key b) = true := by
    refine List.pairwise_of_forall_mem_list fun a ha b hb ↦ decide_eq_true (Int.le_of_eq ?_)
    rw [of_decide_eq_true (List.mem_filter.mp ha).2, of_decide_eq_true (List.mem_filter.mp hb).2]
  have hsub : (l.filter (key · = k)).Sublist (l.mergeSort fun a b ↦ key a ≤ key b) :=
    List.sublist_mergeSort (fun _ _ _ ↦ le_trans_key) (le_total_key key) hpairwise
      List.filter_sublist
  have hfilter := hsub.filter (key · = k)
  rw [List.filter_filter] at hfilter
  simp only [Bool.and_self] at hfilter
  exact (hfilter.eq_of_length ((List.mergeSort_perm l _).filter _).length_eq.symm).symm

/-- **The last element of a sorted list** is the last one of those that are last in order. -/
theorem getLast?_sortBy (h : (l.mergeSort fun a b ↦ key a ≤ key b).getLast? = some z) :
    z ∈ l ∧ (∀ y ∈ l, key y ≤ key z) ∧ (l.filter (key · = key z)).getLast? = some z := by
  obtain ⟨first, hfirst⟩ := List.getLast?_eq_some_iff.mp h
  have hsorted := pairwise_sortBy key l
  rw [hfirst, List.pairwise_append] at hsorted
  have hmem : ∀ y, y ∈ l ↔ y ∈ first ∨ y = z := fun y ↦ by
    have hperm := (List.mergeSort_perm l fun a b ↦ key a ≤ key b).mem_iff (a := y)
    rw [← hperm, hfirst, List.mem_append, List.mem_singleton]
  refine ⟨(hmem z).mpr (Or.inr rfl), fun y hy ↦ ?_, ?_⟩
  · rcases (hmem y).mp hy with hy | rfl
    · exact hsorted.2.2 y hy z (List.mem_singleton_self z)
    · exact Int.le_refl _
  · rw [← filter_sortBy, hfirst, List.filter_append]
    simp

/-- An element that is last in order and in the list stays last. -/
theorem getLast?_sortBy_concat (h : ∀ y ∈ l, key y ≤ key x) :
    ((l ++ [x]).mergeSort fun a b ↦ key a ≤ key b).getLast? = some x := by
  cases hlast : ((l ++ [x]).mergeSort fun a b ↦ key a ≤ key b).getLast? with
  | none =>
    have hlength := (List.mergeSort_perm (l ++ [x]) fun a b ↦ key a ≤ key b).length_eq
    rw [List.getLast?_eq_none_iff.mp hlast] at hlength
    simp at hlength
  | some z =>
    obtain ⟨hz, hmax, hfilter⟩ := getLast?_sortBy hlast
    have hx : key x ≤ key z := hmax x (List.mem_append_right _ (List.mem_singleton_self x))
    have hkey : key x = key z := by
      rcases List.mem_append.mp hz with hz | hz
      · exact Int.le_antisymm hx (h z hz)
      · rw [List.mem_singleton.mp hz]
    rw [List.filter_append, List.filter_cons_of_pos (by simpa using hkey), List.filter_nil,
      List.getLast?_concat] at hfilter
    exact hfilter.symm

end Sorting

namespace CertIndex

variable {x y : CertIndex} {t : String} {issuer serial : Bytes} {rs rs' : List CertRecord}
  {r : CertRecord}

/-! ## Lookups -/

/-- Two lookups tell the same: about one certificate, or that there is none. -/
inductive SameAnswer : Except ServiceError CertInfo → Except ServiceError CertInfo → Prop where
  | found (info : CertInfo) : SameAnswer (.ok info) (.ok info)
  | notFound (what what' : String) : SameAnswer (.error (.notFound what)) (.error (.notFound what'))

theorem SameAnswer.info_eq {info info' : CertInfo} (h : SameAnswer (.ok info) (.ok info')) :
    info = info' := by
  cases h
  rfl

/-- The records of a type. -/
def held (x : CertIndex) (t : String) : List CertRecord := (x.certs.get? t).getD []

/-- The record that is looked up. -/
def found? (rs : List CertRecord) (issuer serial : Bytes) : Option CertRecord :=
  if serial = [] then rs.getLast?
  else rs.reverse.find? fun r ↦ r.serial = serial ∧ (issuer = [] ∨ r.issuer = issuer)

theorem get_of_found (h : found? (x.held t) issuer serial = some r) :
    x.get t issuer serial = .ok r.info := by
  unfold found? held at h
  unfold get
  cases hcerts : x.certs.get? t with
  | none =>
    rw [hcerts] at h
    split at h <;> cases h
  | some l =>
    rw [hcerts, Option.getD_some] at h
    dsimp only
    rw [h]

/-- Without a serial number the newest certificate is looked up. -/
theorem get_newest (issuer : Bytes) (h : (x.held t).getLast? = some r) :
    x.get t issuer [] = .ok r.info :=
  get_of_found ((if_pos rfl).trans h)

theorem get_of_missing (h : found? (x.held t) issuer serial = none) :
    ∃ what, x.get t issuer serial = .error (.notFound what) := by
  unfold found? held at h
  unfold get
  cases hcerts : x.certs.get? t with
  | none => exact ⟨_, rfl⟩
  | some l =>
    rw [hcerts, Option.getD_some] at h
    dsimp only
    rw [h]
    exact ⟨_, rfl⟩

/-- Lookups of the same record tell the same. -/
theorem sameAnswer_of_found
    (h : found? (x.held t) issuer serial = found? (y.held t) issuer serial) :
    SameAnswer (x.get t issuer serial) (y.get t issuer serial) := by
  cases hx : found? (x.held t) issuer serial with
  | none =>
    obtain ⟨what, hget⟩ := get_of_missing hx
    obtain ⟨what', hget'⟩ := get_of_missing (h.symm.trans hx)
    rw [hget, hget']
    exact .notFound what what'
  | some r =>
    rw [get_of_found hx, get_of_found (h.symm.trans hx)]
    exact .found r.info

/-- A record that is looked up by its serial number is the same in whichever order they are held. -/
theorem found?_congr (hserial : serial ≠ []) (hmem : ∀ r, r ∈ rs ↔ r ∈ rs')
    (hdistinct : ∀ r ∈ rs, ∀ r' ∈ rs, r.serial = r'.serial → r = r') :
    found? rs issuer serial = found? rs' issuer serial := by
  -- what one of the lookups finds, the other finds too
  have hfound : ∀ l l' : List CertRecord, (∀ r, r ∈ l → r ∈ l') →
      (∀ r ∈ l', ∀ r' ∈ l', r.serial = r'.serial → r = r') → ∀ r,
      found? l issuer serial = some r → found? l' issuer serial = some r := by
    intro l l' hsub hdistinct r hr
    unfold found? at hr ⊢
    rw [if_neg hserial] at hr ⊢
    have hsome := List.find?_some hr
    have hmem := hsub r (List.mem_reverse.mp (List.mem_of_find?_eq_some hr))
    cases hr' : l'.reverse.find? fun r ↦ r.serial = serial ∧ (issuer = [] ∨ r.issuer = issuer) with
    | none => exact absurd hsome (List.find?_eq_none.mp hr' r (List.mem_reverse.mpr hmem))
    | some r' =>
      have hsome' := List.find?_some hr'
      simp only [decide_eq_true_eq] at hsome hsome'
      refine congrArg some (hdistinct r' ?_ r hmem (hsome'.1.trans hsome.1.symm))
      exact List.mem_reverse.mp (List.mem_of_find?_eq_some hr')
  have hdistinct' : ∀ r ∈ rs', ∀ r' ∈ rs', r.serial = r'.serial → r = r' := fun r hr r' hr' ↦
    hdistinct r ((hmem r).mpr hr) r' ((hmem r').mpr hr')
  refine Option.ext fun r ↦ ⟨hfound rs rs' (fun r ↦ (hmem r).mp) hdistinct' r, ?_⟩
  exact hfound rs' rs (fun r ↦ (hmem r).mpr) hdistinct r

end CertIndex

namespace CertStorage

variable {s : CertStorage} {c : Contents} {t n : String} {d : Disk} {v : Vault} {m : CertModule}
  {r : CertRecord} {names : List String} {waits : Prop}
  {order : String → List String → List String}

/-! ## Loading -/

/-- The records of the certificates of a type that are among files with names, in the order in
which they expire. -/
def recordsFrom (s : CertStorage) (t : String) (d : Disk) (names : List String) :
    List CertRecord :=
  let paths := (names.map (s.directory t).join).filter fun p ↦
    certSuffix.toList.isSuffixOf p.toList
  (paths.filterMap (s.recordAt? t d)).mergeSort fun a b ↦ a.notAfter ≤ b.notAfter

/-- The records that are loaded for a module from a disk that lists the files of a directory in
some order. There are none, not even no records, if there is no such directory. -/
def loaded? (s : CertStorage) (order : String → List String → List String) (d : Disk)
    (m : CertModule) : Option (List CertRecord) :=
  (d.list (s.directory m.id)).toOption.map fun names ↦ s.recordsFrom m.id d (order m.id names)

/-- The index of what is installed on such a disk. -/
def loadIn (s : CertStorage) (order : String → List String → List String) (d : Disk) :
    CertIndex where
  certs := s.modules.foldl (fun certs m ↦
    match s.loaded? order d m with
    | none => certs
    | some records => certs.insert m.id records) {}

/-- The index is made of the files in ascending order of their names. -/
theorem load_eq (s : CertStorage) (d : Disk) : s.load d = s.loadIn (fun _ names ↦ names) d := by
  have hrecords : ∀ m, s.recordsIn? m.id d = s.loaded? (fun _ names ↦ names) d m := by
    intro m
    unfold recordsIn? loaded?
    cases d.list (s.directory m.id) <;> rfl
  have hinsert : ∀ (certs : Table String (List CertRecord)) (m : CertModule),
      (match s.recordsIn? m.id d with
        | none => certs
        | some records => certs.insert m.id records) =
      (match s.loaded? (fun _ names ↦ names) d m with
        | none => certs
        | some records => certs.insert m.id records) := fun certs m ↦ by rw [hrecords]
  have hcerts : (s.load d).certs = (s.loadIn (fun _ names ↦ names) d).certs :=
    List.foldl_ext _ _ _ fun certs m _ ↦ hinsert certs m
  exact congrArg (fun certs ↦ { certs : CertIndex }) hcerts

/-- A disk lists all files of a directory, in whatever order. -/
def IsListing (order : String → List String → List String) : Prop :=
  ∀ t names, (order t names).Perm names

theorem get?_foldl_insert {f : CertModule → Option (List CertRecord)} {ms : List CertModule}
    (hms : (ms.map (·.id)).Nodup) (certs : Table String (List CertRecord)) (t : String) :
    (ms.foldl (fun certs m ↦
      match f m with
      | none => certs
      | some records => certs.insert m.id records) certs).get? t =
        ((ms.find? (·.id = t)).bind f).or (certs.get? t) := by
  induction ms generalizing certs with
  | nil => rfl
  | cons m ms ih =>
    rw [List.map_cons, List.nodup_cons] at hms
    rw [List.foldl_cons, ih hms.2]
    by_cases hid : m.id = t
    · have hnone : ms.find? (·.id = t) = none := by
        rw [List.find?_eq_none]
        intro m' hm' hid'
        refine hms.1 (List.mem_map.mpr ⟨m', hm', ?_⟩)
        exact (of_decide_eq_true hid').trans hid.symm
      have hfirst : (m :: ms).find? (·.id = t) = some m := List.find?_cons_of_pos (by simpa)
      rw [hnone, hfirst]
      cases hf : f m with
      | none => simp [hf]
      | some records => simp [hf, Table.get?_insert, hid]
    · have hrest : (m :: ms).find? (·.id = t) = ms.find? (·.id = t) :=
        List.find?_cons_of_neg (by simpa)
      rw [hrest]
      cases hf : f m with
      | none => rfl
      | some records => simp [Table.get?_insert, hid]

/-- What is loaded of a type is what its own directory holds. -/
theorem held_loadIn (hs : s.WellNamed) (hm : m ∈ s.modules) :
    (s.loadIn order d).held m.id = (s.loaded? order d m).getD [] := by
  have hfind : s.modules.find? (·.id = m.id) = some m := by
    cases hfind : s.modules.find? (·.id = m.id) with
    | none => exact absurd (decide_eq_true rfl) (List.find?_eq_none.mp hfind m hm)
    | some m' =>
      refine congrArg some (hs.eq_of_id hm (List.mem_of_find?_eq_some hfind) ?_)
      simpa using List.find?_some hfind
  rw [CertIndex.held, loadIn, get?_foldl_insert hs.distinct, hfind, Option.bind_some]
  cases s.loaded? order d m <;> rfl

theorem held_loadIn_of_ne (hs : s.WellNamed) (ht : ∀ m ∈ s.modules, m.id ≠ t) :
    (s.loadIn order d).held t = [] := by
  have hfind : s.modules.find? (·.id = t) = none := by
    rw [List.find?_eq_none]
    exact fun m hm hid ↦ ht m hm (of_decide_eq_true hid)
  rw [CertIndex.held, loadIn, get?_foldl_insert hs.distinct, hfind]
  rfl

/-! ## What is loaded -/

/-- What is seen from a path ends as it did. -/
theorem exists_join (p : Path) (n : String) : ∃ x, p.join n = x ++ n := by
  unfold Path.join
  split
  · exact ⟨"", String.empty_append.symm⟩
  · split
    · exact ⟨p, rfl⟩
    · exact ⟨p ++ "/", rfl⟩

/-- The ending tells which paths are those of certificates. -/
theorem isSuffixOf_join (p : Path) (a : String) :
    certSuffix.toList.isSuffixOf (p.join (a ++ certSuffix)).toList = true ∧
      certSuffix.toList.isSuffixOf (p.join (a ++ keySuffix)).toList = false := by
  constructor
  · obtain ⟨x, hx⟩ := exists_join p (a ++ certSuffix)
    rw [hx, List.isSuffixOf_iff_suffix, String.toList_append, String.toList_append,
      ← List.append_assoc]
    exact List.suffix_append _ _
  · obtain ⟨x, hx⟩ := exists_join p (a ++ keySuffix)
    rw [← Bool.not_eq_true, hx, List.isSuffixOf_iff_suffix]
    rintro ⟨y, hy⟩
    refine certSuffix_ne_keySuffix (String.ofList y) (x ++ a) (String.toList_inj.mp ?_)
    rw [String.toList_append, String.toList_ofList, hy, String.append_assoc]

/-- The certificate of a record is read as that record. -/
theorem recordAt?_certPath {rs : List CertRecord} (hd : d.Stores s.path.location c)
    (ht : Path.IsName t) (hstep : s.InStep c t rs waits) (hr : r ∈ rs) :
    s.recordAt? t d (s.certPath t r.serialHex) = some r := by
  obtain ⟨certText, keyText, hcert, -, cert, key, htext, -, -, hrecord⟩ := hstep.paired r hr
  have hread := (hd.readText_eq_ok_iff (location_certPath s ht r.serial)).mpr hcert
  change d.readText (s.certPath t r.serialHex) = .ok certText at hread
  unfold recordAt?
  rw [hread]
  dsimp only
  rw [htext]
  exact congrArg some hrecord.symm

/-- **What is loaded is what is held**, in whichever order the files of a directory are listed. -/
theorem mem_recordsFrom {rs : List CertRecord} (hd : d.Stores s.path.location c)
    (ht : Path.IsName t) (hstep : s.InStep c t rs waits)
    (hnames : ∀ n, n ∈ names ↔ c t n ≠ none) : r ∈ s.recordsFrom t d names ↔ r ∈ rs := by
  have hmem : r ∈ s.recordsFrom t d names ↔ ∃ n ∈ names,
      certSuffix.toList.isSuffixOf ((s.directory t).join n).toList = true ∧
        s.recordAt? t d ((s.directory t).join n) = some r := by
    simp only [recordsFrom, List.mem_mergeSort, List.mem_filterMap, List.mem_filter, List.mem_map]
    constructor
    · rintro ⟨p, ⟨⟨n, hn, rfl⟩, hsuffix⟩, hr⟩
      exact ⟨n, hn, hsuffix, hr⟩
    · rintro ⟨n, hn, hsuffix, hr⟩
      exact ⟨_, ⟨⟨n, hn, rfl⟩, hsuffix⟩, hr⟩
  rw [hmem]
  constructor
  · rintro ⟨n, hn, hsuffix, hr⟩
    rcases (hstep.files n).mp ((hnames n).mp hn) with ⟨rfl, -⟩ | ⟨r', hr', rfl | rfl⟩
    · rw [pendingFile, (isSuffixOf_join _ _).2] at hsuffix
      cases hsuffix
    · have hrecord := recordAt?_certPath hd ht hstep hr'
      rw [Option.some.inj (hr.symm.trans hrecord)]
      exact hr'
    · rw [keyFile, (isSuffixOf_join _ _).2] at hsuffix
      cases hsuffix
  · intro hr
    refine ⟨certFile r.serial, ?_, (isSuffixOf_join _ _).1, recordAt?_certPath hd ht hstep hr⟩
    exact (hnames _).mpr ((hstep.files _).mpr (Or.inr ⟨r, hr, Or.inl rfl⟩))

/-- Of the records that expire last, that one is loaded as the newest whose certificate is listed
last. -/
theorem getLast?_recordsFrom {rs : List CertRecord} (hd : d.Stores s.path.location c)
    (ht : Path.IsName t) (hstep : s.InStep c t rs waits)
    (hnames : ∀ n, n ∈ names ++ [certFile r.serial] ↔ c t n ≠ none) (hr : r ∈ rs)
    (hlast : ∀ x ∈ rs, x.notAfter ≤ r.notAfter) :
    (s.recordsFrom t d (names ++ [certFile r.serial])).getLast? = some r := by
  have hmem : ∀ x, x ∈ s.recordsFrom t d (names ++ [certFile r.serial]) ↔ x ∈ rs := fun x ↦
    mem_recordsFrom hd ht hstep hnames
  have hpath : certSuffix.toList.isSuffixOf ((s.directory t).join (certFile r.serial)).toList =
      true := (isSuffixOf_join _ _).1
  have hrecord : s.recordAt? t d ((s.directory t).join (certFile r.serial)) = some r :=
    recordAt?_certPath hd ht hstep hr
  obtain ⟨l, hl⟩ : ∃ l, s.recordsFrom t d (names ++ [certFile r.serial]) =
      (l ++ [r]).mergeSort fun a b ↦ a.notAfter ≤ b.notAfter := by
    refine ⟨((names.map (s.directory t).join).filter fun p ↦
      certSuffix.toList.isSuffixOf p.toList).filterMap (s.recordAt? t d), ?_⟩
    simp only [recordsFrom, List.map_append, List.map_singleton, List.filter_append,
      List.filter_cons, hpath, if_true, List.filter_nil, List.filterMap_append,
      List.filterMap_cons_some hrecord, List.filterMap_nil]
  rw [hl] at hmem ⊢
  refine getLast?_sortBy_concat fun x hx ↦ hlast x ((hmem x).mp ?_)
  exact List.mem_mergeSort.mpr (List.mem_append_left _ hx)

end CertStorage

end NodeAgent
