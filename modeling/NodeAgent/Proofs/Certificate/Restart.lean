import NodeAgent.Proofs.Certificate.Loading

/-!
# Restarts

After a restart the index is made anew from the disk. The certificates in it are those that were in
it before, but they were in the order in which they had been applied, and now they are in the order
in which they expire.

Who asks for a certificate by its serial number does not notice. Who asks for the newest one got the
one that was applied last before the restart, and gets one that expires last after it. If that is
another one, a certificate that was replaced is back in use.

## Main statements

* `Sound.mem_held_loadIn`: the records that are loaded are those that were held.
* `restarted_run`: lookups by serial number are answered as before; all lookups are, however files
  are listed, exactly if the certificate of each type that was applied last expires after all others.
* `restart_brings_back`: a restart after which another certificate is the newest.
-/

namespace NodeAgent.CertStorage

variable {s : CertStorage} {c : Contents} {t : String} {d : Disk} {v : Vault} {r : CertRecord}
  {names : List String} {order : String → List String → List String}

/-! ## Before and after -/

section Restart

variable {waits : String → Prop}

theorem pairwise_held_loadIn (hs : s.WellNamed) (order : String → List String → List String)
    (d : Disk) (t : String) :
    ((s.loadIn order d).held t).Pairwise fun a b ↦ a.notAfter ≤ b.notAfter := by
  by_cases ht : ∃ m ∈ s.modules, m.id = t
  · obtain ⟨m, hm, rfl⟩ := ht
    rw [held_loadIn hs hm, loaded?]
    cases (d.list (s.directory m.id)).toOption with
    | none => exact List.Pairwise.nil
    | some names => exact pairwise_sortBy _ _
  · rw [held_loadIn_of_ne hs fun m hm hid ↦ ht ⟨m, hm, hid⟩]
    exact List.Pairwise.nil

/-- The names of the files of a type, as they are listed. -/
theorem mem_order_iff (hd : d.Stores s.path.location c) (ht : Path.IsName t)
    (horder : IsListing order) (hlist : (d.list (s.directory t)).toOption = some names) (n : String) :
    n ∈ order t names ↔ c t n ≠ none := by
  have hfile := hd.mem_list (n := n) (location_directory s ht)
  rw [hlist] at hfile
  exact (horder t names).mem_iff.trans hfile

/-- **The records that are loaded are those that were held.** -/
theorem Sound.mem_held_loadIn (hs : s.WellNamed) (h : s.Sound v waits) (horder : IsListing order) :
    r ∈ (s.loadIn order v.disk).held t ↔ r ∈ v.held t := by
  obtain ⟨c, hd, hstep⟩ := h
  by_cases hmodule : ∃ m ∈ s.modules, m.id = t
  · obtain ⟨m, hm, rfl⟩ := hmodule
    have ht := hs.plain m hm
    rw [held_loadIn hs hm, loaded?]
    cases hlist : (v.disk.list (s.directory m.id)).toOption with
    | none =>
      refine iff_of_false List.not_mem_nil fun hr ↦ ?_
      have hfile := ((hstep m.id).files (certFile r.serial)).mpr (Or.inr ⟨r, hr, Or.inl rfl⟩)
      rw [← hd.mem_list (location_directory s ht), hlist] at hfile
      cases hfile
    | some names => exact mem_recordsFrom hd ht (hstep m.id) (mem_order_iff hd ht horder hlist)
  · rw [held_loadIn_of_ne hs fun m hm hid ↦ hmodule ⟨m, hm, hid⟩]
    refine iff_of_false List.not_mem_nil fun hr ↦ ?_
    obtain ⟨m, hm, hid, -⟩ := (hstep t).enabled (List.ne_nil_of_mem hr)
    exact hmodule ⟨m, hm, hid⟩

/-- What a lookup tells of two records is not the same. -/
theorem Sound.eq_of_info (hs : s.WellNamed) (h : s.Sound v waits) {r' : CertRecord}
    (hr : r ∈ v.held t) (hr' : r' ∈ v.held t) (hinfo : r.info = r'.info) : r = r' := by
  obtain ⟨c, hd, hstep⟩ := h
  obtain ⟨m, hm, rfl, -⟩ := (hstep t).enabled (List.ne_nil_of_mem hr)
  have hat : ∀ x ∈ v.held m.id, (fileOfUrl? x.certUrl).bind (s.recordAt? m.id v.disk) = some x := by
    intro x hx
    obtain ⟨_, _, -, -, hpair⟩ := (hstep m.id).paired x hx
    rw [hpair.locates.certUrl, fileOfUrl?_urlOfFile]
    exact recordAt?_certPath hd (hs.plain m hm) (hstep m.id) hx
  have hurl : r.certUrl = r'.certUrl := congrArg CertInfo.certUrl hinfo
  have hread := hat r hr
  rw [hurl, hat r' hr'] at hread
  exact (Option.some.inj hread).symm

/-- What becomes of lookups when the index is made anew from the disk. -/
structure Restarted (s : CertStorage) (v : Vault) : Prop where
  /-- Lookups by serial number are answered as before. -/
  named : ∀ order, IsListing order → ∀ t issuer serial, serial ≠ [] →
    CertIndex.SameAnswer (v.index.get t issuer serial)
      ((s.loadIn order v.disk).get t issuer serial)
  /-- If there is no certificate of a type, there still is none. -/
  missing : ∀ order, IsListing order → ∀ t issuer serial, v.held t = [] →
    CertIndex.SameAnswer (v.index.get t issuer serial)
      ((s.loadIn order v.disk).get t issuer serial)
  /-- The newest of a type was the one applied last, and is one of those that expire last. -/
  newest : ∀ order, IsListing order → ∀ t issuer r, (v.held t).getLast? = some r →
    v.index.get t issuer [] = .ok r.info ∧ ∃ r' ∈ v.held t,
      (∀ x ∈ v.held t, x.notAfter ≤ r'.notAfter) ∧
        (s.loadIn order v.disk).get t issuer [] = .ok r'.info
  /-- Everything is answered as before, however files are listed, exactly if the certificate of each
  type that was applied last expires after all others. -/
  same_iff : (∀ order, IsListing order → ∀ t issuer serial,
    CertIndex.SameAnswer (v.index.get t issuer serial)
      ((s.loadIn order v.disk).get t issuer serial)) ↔
    ∀ t r, (v.held t).getLast? = some r → ∀ x ∈ v.held t, x ≠ r → x.notAfter < r.notAfter

/-- A listing in which one file of a directory comes last. -/
def listingLast (t n : String) : String → List String → List String := fun t' names ↦
  if t' = t ∧ n ∈ names then names.erase n ++ [n] else names

theorem isListing_listingLast (t n : String) : IsListing (listingLast t n) := by
  intro t' names
  unfold listingLast
  split
  · rename_i h
    exact (List.perm_append_singleton n _).trans (List.perm_cons_erase h.2).symm
  · exact List.Perm.refl names

/-- A record that expires last is the newest that is loaded, if its certificate is listed last. -/
theorem Sound.getLast?_listingLast (hs : s.WellNamed) (h : s.Sound v waits) (hr : r ∈ v.held t)
    (hlast : ∀ x ∈ v.held t, x.notAfter ≤ r.notAfter) :
    ((s.loadIn (listingLast t (certFile r.serial)) v.disk).held t).getLast? = some r := by
  obtain ⟨c, hd, hstep⟩ := h
  obtain ⟨m, hm, rfl, -⟩ := (hstep t).enabled (List.ne_nil_of_mem hr)
  have ht := hs.plain m hm
  have hfile : c m.id (certFile r.serial) ≠ none :=
    ((hstep m.id).files _).mpr (Or.inr ⟨r, hr, Or.inl rfl⟩)
  rw [held_loadIn hs hm, loaded?]
  cases hlist : (v.disk.list (s.directory m.id)).toOption with
  | none =>
    rw [← hd.mem_list (location_directory s ht), hlist] at hfile
    cases hfile
  | some names =>
    have hmem := mem_order_iff hd ht (isListing_listingLast m.id (certFile r.serial)) hlist
    have hlisted : certFile r.serial ∈ names :=
      (isListing_listingLast m.id (certFile r.serial) m.id names).mem_iff.mp
        ((hmem _).mpr hfile)
    have heq : listingLast m.id (certFile r.serial) m.id names =
        names.erase (certFile r.serial) ++ [certFile r.serial] := if_pos ⟨rfl, hlisted⟩
    rw [heq] at hmem
    rw [Option.map_some, Option.getD_some, heq]
    exact getLast?_recordsFrom hd ht (hstep m.id) hmem hr hlast

theorem Sound.distinct (h : s.Sound v waits) (t : String) :
    ∀ r ∈ v.held t, ∀ r' ∈ v.held t, r.serial = r'.serial → r = r' := by
  obtain ⟨c, -, hstep⟩ := h
  exact fun r hr r' hr' ↦ List.inj_on_of_nodup_map (hstep t).distinct hr hr'

/-- What is loaded as the newest is one of the records that expire last. -/
theorem Sound.exists_newest (hs : s.WellNamed) (h : s.Sound v waits) (horder : IsListing order)
    (hr : r ∈ v.held t) : ∃ z ∈ v.held t, (∀ x ∈ v.held t, x.notAfter ≤ z.notAfter) ∧
      ((s.loadIn order v.disk).held t).getLast? = some z := by
  have hmem : ∀ x, x ∈ (s.loadIn order v.disk).held t ↔ x ∈ v.held t := fun x ↦
    h.mem_held_loadIn hs horder
  cases hlast : ((s.loadIn order v.disk).held t).getLast? with
  | none =>
    have hnil := (hmem r).mpr hr
    rw [List.getLast?_eq_none_iff.mp hlast] at hnil
    cases hnil
  | some z =>
    refine ⟨z, (hmem z).mp (List.mem_of_getLast? hlast), fun x hx ↦ ?_, rfl⟩
    have hsorted := pairwise_held_loadIn hs order v.disk t
    obtain ⟨first, hfirst⟩ := List.getLast?_eq_some_iff.mp hlast
    have hx' := (hmem x).mpr hx
    rw [hfirst] at hsorted hx'
    rcases List.mem_append.mp hx' with hx' | hx'
    · exact (List.pairwise_append.mp hsorted).2.2 x hx' z (List.mem_singleton_self z)
    · obtain rfl := List.mem_singleton.mp hx'
      exact Int.le_refl _

/-- Lookups by serial number are answered as before. -/
theorem Sound.sameAnswer_of_named (hs : s.WellNamed) (h : s.Sound v waits)
    (horder : IsListing order) (t : String) (issuer : Bytes) {serial : Bytes} (hserial : serial ≠ []) :
    CertIndex.SameAnswer (v.index.get t issuer serial)
      ((s.loadIn order v.disk).get t issuer serial) := by
  have hmem : ∀ r, r ∈ v.index.held t ↔ r ∈ (s.loadIn order v.disk).held t := fun r ↦
    (h.mem_held_loadIn hs horder).symm
  exact CertIndex.sameAnswer_of_found (CertIndex.found?_congr hserial hmem (h.distinct t))

/-- If there is no certificate of a type, there still is none. -/
theorem Sound.sameAnswer_of_missing (hs : s.WellNamed) (h : s.Sound v waits)
    (horder : IsListing order) (issuer serial : Bytes) (hnone : v.held t = []) :
    CertIndex.SameAnswer (v.index.get t issuer serial)
      ((s.loadIn order v.disk).get t issuer serial) := by
  have hloaded : (s.loadIn order v.disk).held t = [] := by
    refine List.eq_nil_iff_forall_not_mem.mpr fun r hr ↦ ?_
    have hheld := (h.mem_held_loadIn hs horder).mp hr
    rw [hnone] at hheld
    cases hheld
  refine CertIndex.sameAnswer_of_found ?_
  change CertIndex.found? (v.held t) issuer serial = _
  rw [hnone, hloaded]

/-- If nothing else is looked up than before, the certificate of a type that was applied last expires
after all others: one that does not would be the newest if it were listed last. -/
theorem Sound.late_of_sameAnswer (hs : s.WellNamed) (h : s.Sound v waits)
    (hsame : ∀ order, IsListing order → CertIndex.SameAnswer (v.index.get t [] [])
      ((s.loadIn order v.disk).get t [] []))
    (hr : (v.held t).getLast? = some r) : ∀ x ∈ v.held t, x ≠ r → x.notAfter < r.notAfter := by
  intro x hx hne
  by_contra hearly
  have horder := isListing_listingLast t (certFile x.serial)
  obtain ⟨z, hz, hmax, hlast⟩ := h.exists_newest hs horder hx
  have hanswer := hsame _ horder
  rw [CertIndex.get_newest [] hr, CertIndex.get_newest [] hlast] at hanswer
  obtain rfl : z = r := (h.eq_of_info hs (List.mem_of_getLast? hr) hz hanswer.info_eq).symm
  have hxlast := h.getLast?_listingLast hs hx fun y hy ↦
    Int.le_trans (hmax y hy) (Int.not_lt.mp hearly)
  exact hne (Option.some.inj (hxlast.symm.trans hlast))

/-- If the certificate of a type that was applied last expires after all others, it still is the
newest. -/
theorem Sound.sameAnswer_of_late (hs : s.WellNamed) (h : s.Sound v waits) (horder : IsListing order)
    (issuer : Bytes) (hr : (v.held t).getLast? = some r)
    (hlate : ∀ x ∈ v.held t, x ≠ r → x.notAfter < r.notAfter) :
    CertIndex.SameAnswer (v.index.get t issuer []) ((s.loadIn order v.disk).get t issuer []) := by
  have hheld := List.mem_of_getLast? hr
  obtain ⟨z, hz, hmax, hlast⟩ := h.exists_newest hs horder hheld
  have hzr : z = r := by
    by_contra hne
    exact absurd (hmax r hheld) (Int.not_le.mpr (hlate z hz hne))
  rw [CertIndex.get_newest issuer hr, CertIndex.get_newest issuer hlast, hzr]
  exact .found r.info

theorem Sound.restarted (hs : s.WellNamed) (h : s.Sound v waits) : s.Restarted v where
  named order horder t issuer _ hserial := h.sameAnswer_of_named hs horder t issuer hserial
  missing order horder t issuer serial hnone := h.sameAnswer_of_missing hs horder issuer serial hnone
  newest order horder t issuer r hr := by
    obtain ⟨z, hz, hmax, hlast⟩ := h.exists_newest hs horder (List.mem_of_getLast? hr)
    exact ⟨CertIndex.get_newest issuer hr, z, hz, hmax, CertIndex.get_newest issuer hlast⟩
  same_iff := by
    constructor
    · intro hsame t r hr
      exact h.late_of_sameAnswer hs (fun order horder ↦ hsame order horder t [] []) hr
    · intro hlate order horder t issuer serial
      by_cases hserial : serial = []
      · subst hserial
        cases hr : (v.held t).getLast? with
        | none =>
          exact h.sameAnswer_of_missing hs horder issuer [] (List.getLast?_eq_none_iff.mp hr)
        | some r => exact h.sameAnswer_of_late hs horder issuer hr (hlate t r hr)
      · exact h.sameAnswer_of_named hs horder t issuer hserial

end Restart

/-! ## Runs and restarts -/

/-- **A restart may change which certificate is the newest**, and changes nothing else that is
looked up. -/
theorem restarted_run (hs : s.WellNamed) (hdisk : v.disk.Vacant s.path)
    (hindex : ∀ t, v.held t = []) (moves : List Move) : s.Restarted (s.run v moves) :=
  ((sound_of_vacant hdisk hindex).run hs moves).restarted hs

theorem restarted_run_shortening : twoItems.WellNamed ∧ Disk.Vacant {} twoItems.path ∧
    (∀ t, Vault.held { disk := {} } t = []) ∧
      twoItems.Restarted (twoItems.run { disk := {} } shortening) :=
  ⟨wellNamed_twoItems, Disk.vacant_new _, fun _ ↦ rfl,
    restarted_run wellNamed_twoItems (Disk.vacant_new _) (fun _ ↦ rfl) shortening⟩

/-- **A restart brings back the certificate before the newest**, if that one expires later. -/
theorem restart_brings_back : twoItems.Succeeds { disk := {} } shortening ∧
    (twoItems.run { disk := {} } shortening).index.get "iam" [] [] =
      .ok ⟨"iam", "file:///certs/iam/02.key.pem", "file:///certs/iam/02.cert.pem"⟩ ∧
    (twoItems.load (twoItems.run { disk := {} } shortening).disk).get "iam" [] [] =
      .ok ⟨"iam", "file:///certs/iam/01.key.pem", "file:///certs/iam/01.cert.pem"⟩ := by
  obtain ⟨hsucceeds, hheld⟩ := succeeds_shortening
  have hrestarted := (sound_twoItems.run wellNamed_twoItems shortening).restarted wellNamed_twoItems
  have hlast : ((twoItems.run { disk := {} } shortening).held "iam").getLast? =
      some (plainRecord 2 3600) := by
    rw [hheld]
    rfl
  obtain ⟨hlive, r, hr, hmax, hloaded⟩ := hrestarted.newest (fun _ names ↦ names)
    (fun _ names ↦ List.Perm.refl names) "iam" [] _ hlast
  rw [hheld] at hr hmax
  -- the second certificate expires before the first one
  have hfirst : r = plainRecord 1 7200 := by
    rcases List.mem_cons.mp hr with rfl | hr
    · rfl
    · rw [List.mem_singleton.mp hr] at hmax
      have hlate := hmax (plainRecord 1 7200) List.mem_cons_self
      change (7200 : Int) ≤ 3600 at hlate
      omega
  have hinfo : (plainRecord 2 3600).info =
      ⟨"iam", "file:///certs/iam/02.key.pem", "file:///certs/iam/02.cert.pem"⟩ := by
    decide +kernel
  have hinfo' : (plainRecord 1 7200).info =
      ⟨"iam", "file:///certs/iam/01.key.pem", "file:///certs/iam/01.cert.pem"⟩ := by
    decide +kernel
  rw [hfirst, hinfo'] at hloaded
  rw [hinfo] at hlive
  rw [load_eq]
  exact ⟨hsucceeds, hlive, hloaded⟩

end NodeAgent.CertStorage
