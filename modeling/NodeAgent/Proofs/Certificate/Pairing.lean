import NodeAgent.Proofs.Certificate.Layout
import Mathlib.Data.List.Nodup

/-!
# Certificates, their keys, and the index

What is installed of a type is known in two places: the directory of the type holds the files, and
the index the records. `InStep` says that they agree. A new key changes nothing but the key that
waits. A new certificate does three things one after the other: its text is written, the key that
waited gets its name, and the records that the index drops lose their files. In between the two
places do not agree, so it takes all three to bring them in step again.

What keeps one from undoing another is that files have different names. The new certificate may
replace one of the same serial number, but then that one is not among the records that are dropped;
and no record that stays shares a file with one that goes.

## Main statements

* `turnover_of_added`, `getLast?_of_added`: what is dropped and what stays, and that the new record
  stays.
* `InStep.waiting`, `InStep.installed`: what a new key and a new certificate leave behind.
* `stores_removeFiles`: the files of the records that are dropped are removed.
-/

namespace NodeAgent

/-! ## What the index keeps -/

namespace CertIndex

variable {held evicted kept : List CertRecord} {r : CertRecord} {maxItems : Nat}

/-- What is dropped and what stays is what was there, without a record of the serial number, and
the new record. -/
theorem append_of_added (h : added held r maxItems = (evicted, kept)) :
    evicted ++ kept = held.filter (fun x ↦ x.serial ≠ r.serial) ++ [r] := by
  rw [added, List.splitAt_eq] at h
  obtain ⟨rfl, rfl⟩ := Prod.mk.inj h
  exact List.take_append_drop _ _

theorem length_of_added (h : added held r maxItems = (evicted, kept)) :
    kept.length ≤ max 1 maxItems := by
  rw [added, List.splitAt_eq] at h
  obtain ⟨-, rfl⟩ := Prod.mk.inj h
  rw [List.length_drop]
  omega

/-- **The new record stays**, and is the newest. -/
theorem getLast?_of_added (h : added held r maxItems = (evicted, kept)) :
    kept.getLast? = some r := by
  rw [added, List.splitAt_eq] at h
  obtain ⟨-, rfl⟩ := Prod.mk.inj h
  rw [List.getLast?_drop, if_neg, List.getLast?_concat]
  rw [List.length_append, List.length_singleton]
  omega

/-- What becomes of the records when one is added: those of other serial numbers go or stay. -/
structure Turnover (held : List CertRecord) (r : CertRecord) (evicted kept : List CertRecord) :
    Prop where
  new : r ∈ kept
  of_kept : ∀ x ∈ kept, x = r ∨ x ∈ held ∧ x.serial ≠ r.serial
  of_evicted : ∀ x ∈ evicted, x ∈ held
  of_held : ∀ x ∈ held, x.serial ≠ r.serial → x ∈ evicted ∨ x ∈ kept
  apart : ∀ x ∈ evicted, ∀ y ∈ kept, x.serial ≠ y.serial
  distinct : (kept.map (·.serial)).Nodup

theorem turnover_of_added (hdistinct : (held.map (·.serial)).Nodup)
    (h : added held r maxItems = (evicted, kept)) : Turnover held r evicted kept := by
  have hall := append_of_added h
  have hnew : r ∈ kept := List.mem_of_getLast? (getLast?_of_added h)
  have hmem : ∀ x, x ∈ evicted ∨ x ∈ kept ↔ x ∈ held ∧ x.serial ≠ r.serial ∨ x = r := by
    intro x
    rw [← List.mem_append, hall, List.mem_append, List.mem_filter, List.mem_singleton,
      decide_eq_true_eq]
  have hnodup : ((evicted ++ kept).map (·.serial)).Nodup := by
    rw [hall, List.map_append, List.map_singleton, List.nodup_append]
    refine ⟨(List.filter_sublist.map _).nodup hdistinct, List.nodup_singleton _, ?_⟩
    intro a ha b hb
    obtain ⟨x, hx, rfl⟩ := List.mem_map.mp ha
    rw [List.mem_singleton.mp hb]
    exact of_decide_eq_true (List.mem_filter.mp hx).2
  rw [List.map_append, List.nodup_append] at hnodup
  have hapart : ∀ x ∈ evicted, ∀ y ∈ kept, x.serial ≠ y.serial := fun x hx y hy ↦
    hnodup.2.2 _ (List.mem_map_of_mem hx) _ (List.mem_map_of_mem hy)
  exact
    { new := hnew
      of_kept := fun x hx ↦ ((hmem x).mp (Or.inr hx)).symm
      of_evicted := fun x hx ↦ by
        rcases (hmem x).mp (Or.inl hx) with hold | rfl
        · exact hold.1
        · exact absurd rfl (hapart x hx x hnew)
      of_held := fun x hx hne ↦ (hmem x).mpr (Or.inl ⟨hx, hne⟩)
      apart := hapart
      distinct := hnodup.2.1 }

end CertIndex

namespace CertStorage

variable {s : CertStorage} {c c' : Contents} {t t' n : String} {root : Location} {d : Disk}
  {held evicted kept : List CertRecord} {r : CertRecord} {waits waits' : Prop}

/-! ## Files that are removed -/

/-- The contents without the files of a record. -/
def discard (t : String) (c : Contents) (r : CertRecord) : Contents :=
  (c.put t (certFile r.serial) none).put t (keyFile r.serial) none

/-- Whether a name is that of a file of a record. -/
def Names (r : CertRecord) (n : String) : Prop := n = certFile r.serial ∨ n = keyFile r.serial

theorem Names.serial_eq {r' : CertRecord} (h : Names r n) (h' : Names r' n) :
    r.serial = r'.serial := by
  rcases h with rfl | rfl <;> rcases h' with heq | heq
  · exact certFile_injective heq
  · exact absurd heq certFile_ne_keyFile
  · exact absurd heq.symm certFile_ne_keyFile
  · exact keyFile_injective heq

theorem Names.of_serial {r' : CertRecord} (h : Names r n) (hserial : r.serial = r'.serial) :
    Names r' n := by
  rw [Names, ← hserial]
  exact h

theorem Names.ne_pendingFile (h : Names r n) : n ≠ pendingFile := by
  rcases h with rfl | rfl
  · exact certFile_ne_pendingFile
  · exact keyFile_ne_pendingFile

theorem discard_of_names (h : Names r n) : discard t c r t n = none := by
  rw [discard]
  rcases h with rfl | rfl
  · rw [Contents.put_of_ne certFile_ne_keyFile, Contents.put_self]
  · rw [Contents.put_self]

theorem discard_of_not_names (h : ¬Names r n) : discard t c r t n = c t n := by
  rw [discard, Contents.put_of_ne fun heq ↦ h (Or.inr heq),
    Contents.put_of_ne fun heq ↦ h (Or.inl heq)]

theorem discard_of_ne (h : t' ≠ t) : discard t c r t' n = c t' n := by
  rw [discard, Contents.put_of_ne_directory h, Contents.put_of_ne_directory h]

theorem foldl_discard_of_not_names (h : ∀ r ∈ evicted, ¬Names r n) :
    evicted.foldl (discard t) c t n = c t n := by
  induction evicted generalizing c with
  | nil => rfl
  | cons r evicted ih =>
    rw [List.foldl_cons, ih fun r' hr' ↦ h r' (List.mem_cons_of_mem _ hr'),
      discard_of_not_names (h r List.mem_cons_self)]

theorem foldl_discard_of_none (h : c t n = none) : evicted.foldl (discard t) c t n = none := by
  induction evicted generalizing c with
  | nil => exact h
  | cons r evicted ih =>
    refine ih ?_
    by_cases hnames : Names r n
    · exact discard_of_names hnames
    · rw [discard_of_not_names hnames, h]

theorem foldl_discard_of_names (hr : r ∈ evicted) (h : Names r n) :
    evicted.foldl (discard t) c t n = none := by
  obtain ⟨before, after, rfl⟩ := List.append_of_mem hr
  rw [List.foldl_append, List.foldl_cons]
  exact foldl_discard_of_none (discard_of_names h)

theorem foldl_discard_of_ne (h : t' ≠ t) : evicted.foldl (discard t) c t' n = c t' n := by
  induction evicted generalizing c with
  | nil => rfl
  | cons r evicted ih => rw [List.foldl_cons, ih, discard_of_ne h]

/-- **The files of the records that are dropped are removed.** -/
theorem stores_removeFiles (ht : Path.IsName t) (hd : d.Stores s.path.location c)
    (hlocates : ∀ r ∈ evicted, s.Locates t r) :
    (evicted.foldl removeFiles d).Stores s.path.location (evicted.foldl (discard t) c) := by
  induction evicted generalizing d c with
  | nil => exact hd
  | cons r evicted ih =>
    rw [List.foldl_cons, List.foldl_cons]
    refine ih ?_ fun r' hr' ↦ hlocates r' (List.mem_cons_of_mem _ hr')
    rw [removeFiles_eq (hlocates r List.mem_cons_self)]
    exact (hd.remove (location_certPath s ht r.serial)).remove (location_keyPath s ht r.serial)

/-! ## The directory and the index in step -/

/-- A record is that of a certificate with a text, and another text is the key for it. -/
def IsPair (s : CertStorage) (t : String) (r : CertRecord) (certText keyText : String) : Prop :=
  ∃ cert key, Certificate.ofText certText = .ok cert ∧ PrivateKey.ofText keyText = .ok key ∧
    cert.publicKey = key.publicBytes ∧ r = s.recordOf t cert (s.certPath t r.serialHex)

theorem IsPair.locates {certText keyText : String} (h : s.IsPair t r certText keyText) :
    s.Locates t r := by
  obtain ⟨cert, -, -, -, -, hr⟩ := h
  have hserial : r.serialHex = Text.Hex.encodeUpper cert.serial := by rw [hr]; rfl
  rw [hserial] at hr
  rw [hr]
  exact locates_recordOf s t cert

theorem IsPair.certType_eq {certText keyText : String} (h : s.IsPair t r certText keyText) :
    r.certType = t := by
  obtain ⟨cert, -, -, -, -, hr⟩ := h
  rw [hr]
  rfl

/-- The files in the directory of a type are those of the records of the type and the key that
waits. -/
structure InStep (s : CertStorage) (c : Contents) (t : String) (held : List CertRecord)
    (waits : Prop) : Prop where
  files : ∀ n, c t n ≠ none ↔ n = pendingFile ∧ waits ∨ ∃ r ∈ held, Names r n
  paired : ∀ r ∈ held, ∃ certText keyText, c.text? t (certFile r.serial) = some certText ∧
    c.text? t (keyFile r.serial) = some keyText ∧ s.IsPair t r certText keyText
  distinct : (held.map (·.serial)).Nodup
  bounded : ∀ m ∈ s.modules, m.id = t → held.length ≤ max 1 m.maxItems
  /-- Only of types that are configured and enabled there are records. -/
  enabled : held ≠ [] → ∃ m ∈ s.modules, m.id = t ∧ m.disabled = false

namespace InStep

theorem empty (s : CertStorage) (t : String) : s.InStep (fun _ _ ↦ none) t [] False where
  files n := by simp
  paired r hr := by cases hr
  distinct := List.nodup_nil
  bounded m _ _ := Nat.zero_le _
  enabled h := absurd rfl h

/-- What happens in other directories does not matter. -/
theorem congr (h : s.InStep c t held waits) (hc : ∀ n, c' t n = c t n) (hwaits : waits' ↔ waits) :
    s.InStep c' t held waits' where
  files n := by rw [hc, h.files, hwaits]
  paired r hr := by
    obtain ⟨certText, keyText, hcert, hkey, hpair⟩ := h.paired r hr
    exact ⟨certText, keyText, (Contents.text?_congr (hc _)).trans hcert,
      (Contents.text?_congr (hc _)).trans hkey, hpair⟩
  distinct := h.distinct
  bounded := h.bounded
  enabled := h.enabled

/-- **A new key waits**, and nothing else changes. -/
theorem waiting (h : s.InStep c t held waits) (key : List UInt8) :
    s.InStep (c.put t pendingFile (some key)) t held True where
  files n := by
    by_cases hn : n = pendingFile
    · rw [hn, Contents.put_self]
      simp
    · rw [Contents.put_of_ne hn, h.files]
      simp [hn]
  paired r hr := by
    obtain ⟨certText, keyText, hcert, hkey, hpair⟩ := h.paired r hr
    refine ⟨certText, keyText, ?_, ?_, hpair⟩
    · rw [Contents.text?_congr (Contents.put_of_ne certFile_ne_pendingFile), hcert]
    · rw [Contents.text?_congr (Contents.put_of_ne keyFile_ne_pendingFile), hkey]
  distinct := h.distinct
  bounded := h.bounded
  enabled := h.enabled

end InStep

/-- The contents with a certificate installed: the key that waited is now the key for it. -/
def install (t : String) (serial : Bytes) (cert key : List UInt8) (c : Contents) : Contents :=
  ((c.put t (certFile serial) (some cert)).put t pendingFile none).put t (keyFile serial) (some key)

section Install

variable {serial : Bytes} {cert key : List UInt8}

theorem install_certFile : install t serial cert key c t (certFile serial) = some cert := by
  rw [install, Contents.put_of_ne certFile_ne_keyFile, Contents.put_of_ne certFile_ne_pendingFile,
    Contents.put_self]

theorem install_keyFile : install t serial cert key c t (keyFile serial) = some key :=
  Contents.put_self _ _ _ _

theorem install_pendingFile : install t serial cert key c t pendingFile = none := by
  rw [install, Contents.put_of_ne keyFile_ne_pendingFile.symm, Contents.put_self]

theorem install_of_not_names (hnames : ¬Names r n) (hn : n ≠ pendingFile) :
    install t r.serial cert key c t n = c t n := by
  rw [Names, not_or] at hnames
  rw [install, Contents.put_of_ne hnames.2, Contents.put_of_ne hn, Contents.put_of_ne hnames.1]

theorem install_of_ne (h : t' ≠ t) : install t serial cert key c t' n = c t' n := by
  rw [install, Contents.put_of_ne_directory h, Contents.put_of_ne_directory h,
    Contents.put_of_ne_directory h]

/-! ### Together with what the index drops

What stays shares no file with what goes, so the files of the records that stay are those that were
just installed and those that were there before. -/

/-- The contents with a certificate installed, without the files of what the index drops. -/
def replace (t : String) (r : CertRecord) (cert key : List UInt8) (evicted : List CertRecord)
    (c : Contents) : Contents :=
  evicted.foldl (discard t) (install t r.serial cert key c)

theorem replace_of_ne (h : t' ≠ t) : replace t r cert key evicted c t' n = c t' n := by
  rw [replace, foldl_discard_of_ne h, install_of_ne h]

variable {y : CertRecord}

theorem replace_of_kept (h : CertIndex.Turnover held r evicted kept) (hy : y ∈ kept)
    (hn : Names y n) : replace t r cert key evicted c t n = install t r.serial cert key c t n :=
  foldl_discard_of_not_names fun x hx hn' ↦ h.apart x hx y hy (hn'.serial_eq hn)

theorem replace_certFile (h : CertIndex.Turnover held r evicted kept) :
    replace t r cert key evicted c t (certFile r.serial) = some cert := by
  rw [replace_of_kept h h.new (Or.inl rfl), install_certFile]

theorem replace_keyFile (h : CertIndex.Turnover held r evicted kept) :
    replace t r cert key evicted c t (keyFile r.serial) = some key := by
  rw [replace_of_kept h h.new (Or.inr rfl), install_keyFile]

theorem replace_of_old (h : CertIndex.Turnover held r evicted kept) (hy : y ∈ kept)
    (hne : y.serial ≠ r.serial) (hn : Names y n) :
    replace t r cert key evicted c t n = c t n := by
  rw [replace_of_kept h hy hn,
    install_of_not_names (fun hr ↦ hne (hn.serial_eq hr)) hn.ne_pendingFile]

/-- A file that is there afterwards is new, or was there and is not that of a record that goes. -/
theorem names_or_of_replace (hfile : replace t r cert key evicted c t n ≠ none) :
    Names r n ∨ ¬Names r n ∧ n ≠ pendingFile ∧ c t n ≠ none ∧ ∀ x ∈ evicted, ¬Names x n := by
  have hkeeps : ∀ x ∈ evicted, ¬Names x n := fun x hx hn ↦
    hfile (foldl_discard_of_names hx hn)
  rw [replace, foldl_discard_of_not_names hkeeps] at hfile
  by_cases hnew : Names r n
  · exact Or.inl hnew
  have hpending : n ≠ pendingFile := by
    rintro rfl
    exact hfile install_pendingFile
  rw [install_of_not_names hnew hpending] at hfile
  exact Or.inr ⟨hnew, hpending, hfile, hkeeps⟩

end Install

/-- **A new certificate is installed**, with the key that waited for it; the certificates that the
index drops are not. -/
theorem InStep.installed {certText keyText : String} {key : List UInt8} {m : CertModule}
    (h : s.InStep c t held waits) (hm : m ∈ s.modules ∧ m.id = t ∧ m.disabled = false)
    (hunique : ∀ m' ∈ s.modules, m'.id = t → m' = m)
    (hadded : CertIndex.added held r m.maxItems = (evicted, kept))
    (hkey : c t pendingFile = some key) (hkeyText : c.text? t pendingFile = some keyText)
    (hpair : s.IsPair t r certText keyText) :
    s.InStep (replace t r (Text.Utf8.encode certText) key evicted c) t kept False := by
  have hturn := CertIndex.turnover_of_added h.distinct hadded
  constructor
  · intro n
    constructor
    · intro hfile
      rcases names_or_of_replace hfile with hnew | ⟨hnew, hpending, hfile, hkeeps⟩
      · exact Or.inr ⟨r, hturn.new, hnew⟩
      · obtain ⟨x, hx, hn⟩ := ((h.files n).mp hfile).resolve_left fun hp ↦ hpending hp.1
        have hne : x.serial ≠ r.serial := fun hserial ↦ hnew (hn.of_serial hserial)
        exact Or.inr ⟨x, (hturn.of_held x hx hne).resolve_left fun hx' ↦ hkeeps x hx' hn, hn⟩
    · rintro (⟨-, hwaits⟩ | ⟨y, hy, hn⟩)
      · exact hwaits.elim
      · rcases hturn.of_kept y hy with rfl | ⟨hheld, hne⟩
        · rcases hn with rfl | rfl
          · rw [replace_certFile hturn]
            exact Option.some_ne_none _
          · rw [replace_keyFile hturn]
            exact Option.some_ne_none _
        · rw [replace_of_old hturn hy hne hn, h.files]
          exact Or.inr ⟨y, hheld, hn⟩
  · intro y hy
    rcases hturn.of_kept y hy with rfl | ⟨hheld, hne⟩
    · refine ⟨certText, keyText, Contents.text?_of_encode (replace_certFile hturn), ?_, hpair⟩
      exact (Contents.text?_congr ((replace_keyFile hturn).trans hkey.symm)).trans hkeyText
    · obtain ⟨certText', keyText', hcert', hkey', hpair'⟩ := h.paired y hheld
      refine ⟨certText', keyText', ?_, ?_, hpair'⟩
      · exact (Contents.text?_congr (replace_of_old hturn hy hne (Or.inl rfl))).trans hcert'
      · exact (Contents.text?_congr (replace_of_old hturn hy hne (Or.inr rfl))).trans hkey'
  · exact hturn.distinct
  · intro m' hm' hid
    rw [hunique m' hm' hid]
    exact CertIndex.length_of_added hadded
  · exact fun _ ↦ ⟨m, hm⟩

end CertStorage

end NodeAgent
