import NodeAgent.Proofs.Certificate.Pairing

/-!
# Creating a key and applying a certificate

On a disk on which nothing is in the way, both either fail before anything is done or go through to
the end. That a directory can be made, and that files can be written, moved and removed there,
follows from what the disk keeps: a key that waits is in a directory, so there is one. What is done
then is what brings files and records in step again.

How a key or a certificate is read from its text does not matter for any of this.

## Main statements

* `Sound.createKey`, `Sound.applyCert`: after either of them the files are in step with the records
  again, and it is known of which types a key waits.
* `Sound.creates`, `Sound.accepts`: a key that can be asked for is created, and a certificate for it
  is applied.
-/

namespace NodeAgent

/-- The records of a type. -/
def Vault.held (v : Vault) (t : String) : List CertRecord := (v.index.certs.get? t).getD []

namespace Action

variable {σ α β : Type} {m : Action σ α} {f : α → Action σ β} {w w' : σ} {a : α}

theorem andThen_of_ok (h : m w = (.ok a, w')) : m.andThen f w = f a w' := by
  rw [andThen, h]

end Action

namespace CertStorage

variable {s : CertStorage} {c : Contents} {t text : String} {v : Vault} {m m' : CertModule}
  {r : CertRecord}

/-! ## Types -/

/-- The types have names of their own, which can be those of directories. -/
structure WellNamed (s : CertStorage) : Prop where
  plain : ∀ m ∈ s.modules, Path.IsName m.id
  distinct : (s.modules.map (·.id)).Nodup

theorem mem_of_moduleOf (h : s.moduleOf t = .ok m) :
    m ∈ s.modules ∧ m.id = t ∧ m.disabled = false := by
  unfold moduleOf at h
  split at h
  · rename_i m' hfind
    split at h
    · cases h
    · rename_i henabled
      obtain rfl := Except.ok.inj h
      exact ⟨List.mem_reverse.mp (List.mem_of_find?_eq_some hfind),
        by simpa using List.find?_some hfind, Bool.eq_false_iff.mpr henabled⟩
  · cases h

theorem WellNamed.eq_of_id (hs : s.WellNamed) (hm : m ∈ s.modules) (hm' : m' ∈ s.modules)
    (hid : m'.id = m.id) : m' = m :=
  List.inj_on_of_nodup_map hs.distinct hm' hm hid

theorem WellNamed.isName_of_moduleOf (hs : s.WellNamed) (h : s.moduleOf t = .ok m) :
    Path.IsName t := by
  obtain ⟨hm, rfl, -⟩ := mem_of_moduleOf h
  exact hs.plain m hm

/-! ## Steps -/

theorem onDisk_of_ok {what : String} {p : Path} {f : Disk → Except FileError Unit × Disk}
    (h : (f v.disk).1 = .ok ()) :
    onDisk what p f v = (.ok (), { v with disk := (f v.disk).2 }) := by
  rw [onDisk]
  dsimp only
  rw [h]
  rfl

/-- A key that can be asked for is created, and waits. -/
theorem createKey_of_ok {subject : String} {request : CertRequest} (hs : s.WellNamed)
    (hd : v.disk.Stores s.path.location c) (hmodule : s.moduleOf t = .ok m)
    (hrequest : requestFor m subject = .ok request) :
    (∃ text, (s.createKey t subject v).1 = .ok text) ∧
      (s.createKey t subject v).2.index = v.index ∧
      (s.createKey t subject v).2.disk.Stores s.path.location
        (c.put t pendingFile (some (Text.Utf8.encode (PrivateKey.new (s.random v.drawn)).text))) := by
  have ht := hs.isName_of_moduleOf hmodule
  unfold createKey
  rw [hmodule]
  dsimp only [Except.bind]
  rw [hrequest]
  dsimp only
  obtain ⟨hmade, hd', hreach⟩ := hd.makeDirs (location_directory s ht)
  obtain ⟨hwritten, hd''⟩ := hd'.writeText (location_pendingPath s ht) hreach
    (PrivateKey.new (s.random v.drawn)).text
  have hcreate : onDisk "create" (s.directory t) (·.makeDirs (s.directory t))
      { v with drawn := v.drawn + 2 } = (.ok (), { v with
        disk := (v.disk.makeDirs (s.directory t)).2
        drawn := v.drawn + 2 }) := onDisk_of_ok hmade
  rw [Action.andThen_of_ok hcreate, Action.andThen_of_ok (onDisk_of_ok hwritten)]
  exact ⟨⟨_, rfl⟩, rfl, hd''⟩

/-- Creating a key fails without a trace, or leaves a key that waits. -/
theorem createKey_cases (hs : s.WellNamed) (hd : v.disk.Stores s.path.location c)
    (t subject : String) :
    (∃ e, s.createKey t subject v = (.error e, v)) ∨
      ∃ request key, (s.createKey t subject v).1 = .ok request ∧
        (s.createKey t subject v).2.index = v.index ∧
        (s.createKey t subject v).2.disk.Stores s.path.location
          (c.put t pendingFile (some key)) := by
  cases hmodule : s.moduleOf t with
  | error e =>
    refine Or.inl ⟨e, ?_⟩
    unfold createKey
    rw [hmodule]
    rfl
  | ok m =>
    cases hrequest : requestFor m subject with
    | error e =>
      refine Or.inl ⟨e, ?_⟩
      unfold createKey
      rw [hmodule]
      dsimp only [Except.bind]
      rw [hrequest]
    | ok request =>
      obtain ⟨⟨text, hok⟩, hindex, hd'⟩ := createKey_of_ok hs hd hmodule hrequest
      exact Or.inr ⟨text, _, hok, hindex, hd'⟩

/-- What it takes for a certificate to be applied to the key that waits. -/
structure Matches (s : CertStorage) (v : Vault) (t text : String) (m : CertModule)
    (keyText : String) (r : CertRecord) : Prop where
  module : s.moduleOf t = .ok m
  key : v.disk.readText (s.pendingPath t) = .ok keyText
  pair : s.IsPair t r text keyText

theorem readText_of_pendingKey {d : Disk} {key : PrivateKey} (h : s.pendingKey t d = .ok key) :
    ∃ keyText, d.readText (s.pendingPath t) = .ok keyText ∧
      PrivateKey.ofText keyText = .ok key := by
  unfold pendingKey at h
  split at h
  · cases h
  · cases h
  · rename_i keyText hread
    refine ⟨keyText, hread, ?_⟩
    cases hkey : PrivateKey.ofText keyText with
    | error e =>
      rw [hkey] at h
      cases h
    | ok key' =>
      rw [hkey] at h
      exact congrArg _ (Except.ok.inj h)

theorem publicKey_of_certFor {key : PrivateKey} {cert : Certificate}
    (h : certFor key text = .ok cert) :
    Certificate.ofText text = .ok cert ∧ cert.publicKey = key.publicBytes := by
  unfold certFor at h
  split at h
  · cases h
  · rename_i cert' htext
    split at h
    · rename_i hpublic
      obtain rfl := Except.ok.inj h
      exact ⟨htext, hpublic⟩
    · cases h

/-- A certificate is written, and the key that waits gets its name. -/
def installing (s : CertStorage) (t text : String) (serialHex : String)
    (next : Unit → Action Vault CertRecord) : Action Vault CertRecord :=
  (onDisk "write" (s.certPath t serialHex) (·.writeText (s.certPath t serialHex) text)).andThen
    fun _ ↦ (onDisk "rename" (s.pendingPath t)
      (·.rename (s.pendingPath t) (s.keyPath t serialHex))).andThen next

/-- A certificate for the key that waits is installed. -/
theorem applyCert_of_ok {key : PrivateKey} {cert : Certificate} (hmodule : s.moduleOf t = .ok m)
    (hpending : s.pendingKey t v.disk = .ok key) (hcert : certFor key text = .ok cert)
    (hr : r = s.recordOf t cert (s.certPath t (Text.Hex.encodeUpper cert.serial))) :
    (∃ keyText, s.Matches v t text m keyText r) ∧ s.applyCert t text v =
      s.installing t text r.serialHex (fun _ v ↦ (.ok r, enter m.maxItems r v)) v := by
  obtain ⟨keyText, hread, hkey⟩ := readText_of_pendingKey hpending
  obtain ⟨htext, hpublic⟩ := publicKey_of_certFor hcert
  subst hr
  refine ⟨⟨keyText, hmodule, hread, cert, key, htext, hkey, hpublic, rfl⟩, ?_⟩
  unfold applyCert
  simp only [hmodule, hpending, hcert, Bind.bind, Except.bind]
  rfl

/-- Applying a certificate is refused without a trace, or it is for the key that waits. -/
theorem applyCert_eq (s : CertStorage) (v : Vault) (t text : String) :
    (∃ e, s.applyCert t text v = (.error e, v)) ∨
      ∃ m keyText r, s.Matches v t text m keyText r ∧ s.applyCert t text v =
        s.installing t text r.serialHex (fun _ v ↦ (.ok r, enter m.maxItems r v)) v := by
  cases hmodule : s.moduleOf t with
  | error e =>
    refine Or.inl ⟨e, ?_⟩
    unfold applyCert
    simp only [hmodule, Bind.bind, Except.bind]
  | ok m =>
    cases hpending : s.pendingKey t v.disk with
    | error e =>
      refine Or.inl ⟨e, ?_⟩
      unfold applyCert
      simp only [hmodule, hpending, Bind.bind, Except.bind]
    | ok key =>
      cases hcert : certFor key text with
      | error e =>
        refine Or.inl ⟨e, ?_⟩
        unfold applyCert
        simp only [hmodule, hpending, hcert, Bind.bind, Except.bind]
      | ok cert =>
        obtain ⟨⟨keyText, hmatches⟩, happly⟩ := applyCert_of_ok hmodule hpending hcert rfl
        exact Or.inr ⟨m, keyText, _, hmatches, happly⟩

/-- Nothing keeps a certificate for the key that waits from being installed. -/
theorem Matches.install {keyText : String} (hs : s.WellNamed)
    (hd : v.disk.Stores s.path.location c) (h : s.Matches v t text m keyText r)
    (next : Unit → Action Vault CertRecord) :
    ∃ d key, c t pendingFile = some key ∧ c.text? t pendingFile = some keyText ∧
      d.Stores s.path.location (install t r.serial (Text.Utf8.encode text) key c) ∧
      s.installing t text r.serialHex next v = next () { v with disk := d } := by
  have ht := hs.isName_of_moduleOf h.module
  have hkeyText := (hd.readText_eq_ok_iff (location_pendingPath s ht)).mp h.key
  obtain ⟨key, hkey⟩ := Option.ne_none_iff_exists'.mp (Contents.ne_none_of_text? hkeyText)
  obtain ⟨hwritten, hd'⟩ := hd.writeText (location_certPath s ht r.serial)
    (hd.reaches t pendingFile (Contents.ne_none_of_text? hkeyText)) text
  obtain ⟨hrenamed, hd''⟩ := hd'.rename (location_pendingPath s ht) (location_keyPath s ht r.serial)
    ((Contents.put_of_ne certFile_ne_pendingFile.symm).trans hkey)
  refine ⟨_, key, hkey, hkeyText, hd'', ?_⟩
  have hwrite : onDisk "write" (s.certPath t r.serialHex)
      (·.writeText (s.certPath t r.serialHex) text) v =
        (.ok (), { v with disk := (v.disk.writeText (s.certPath t r.serialHex) text).2 }) :=
    onDisk_of_ok hwritten
  rw [installing, Action.andThen_of_ok hwrite, Action.andThen_of_ok (onDisk_of_ok hrenamed)]
  rfl

/-- The records of the type after a record was entered. -/
theorem held_enter (v : Vault) (maxItems : Nat) (r : CertRecord) :
    (enter maxItems r v).held r.certType =
      (CertIndex.added (v.held r.certType) r maxItems).2 := by
  unfold enter CertIndex.add Vault.held
  dsimp only
  rw [Table.get?_insert, if_pos rfl]
  rfl

theorem held_enter_of_ne (v : Vault) (maxItems : Nat) (h : t ≠ r.certType) :
    (enter maxItems r v).held t = v.held t := by
  unfold enter CertIndex.add Vault.held
  dsimp only
  rw [Table.get?_insert, if_neg h.symm]

theorem disk_enter (v : Vault) (maxItems : Nat) (r : CertRecord) :
    (enter maxItems r v).disk =
      (CertIndex.added (v.held r.certType) r maxItems).1.foldl removeFiles v.disk := rfl

/-! ## The state of a vault -/

/-- The disk keeps files in such a way that those of each type are in step with its records. -/
def Sound (s : CertStorage) (v : Vault) (waits : String → Prop) : Prop :=
  ∃ c, v.disk.Stores s.path.location c ∧ ∀ t, s.InStep c t (v.held t) (waits t)

/-- **Creating a key** fails without a trace, or leaves a key that waits. -/
theorem Sound.createKey {waits : String → Prop} (hs : s.WellNamed) (h : s.Sound v waits)
    (t subject : String) :
    (∃ e, s.createKey t subject v = (.error e, v)) ∨
      (∃ request, (s.createKey t subject v).1 = .ok request) ∧
        s.Sound (s.createKey t subject v).2 fun t' ↦ t' = t ∨ waits t' := by
  obtain ⟨c, hd, hstep⟩ := h
  rcases createKey_cases hs hd t subject with hfailed | ⟨request, key, hok, hindex, hd'⟩
  · exact Or.inl hfailed
  · refine Or.inr ⟨⟨request, hok⟩, _, hd', fun t' ↦ ?_⟩
    have hheld : (s.createKey t subject v).2.held t' = v.held t' := by
      rw [Vault.held, hindex, Vault.held]
    rw [hheld]
    by_cases heq : t' = t
    · subst heq
      simpa using (hstep t').waiting key
    · exact (hstep t').congr (fun n ↦ Contents.put_of_ne_directory heq)
        (or_iff_right heq)

/-- **A key that can be asked for is created**, and is the one that waits. -/
theorem Sound.creates {waits : String → Prop} {subject : String} {request : CertRequest}
    {key : PrivateKey} (hs : s.WellNamed) (h : s.Sound v waits) (hmodule : s.moduleOf t = .ok m)
    (hrequest : requestFor m subject = .ok request)
    (hkey : PrivateKey.ofText (PrivateKey.new (s.random v.drawn)).text = .ok key) :
    (∃ text, (s.createKey t subject v).1 = .ok text) ∧
      (s.createKey t subject v).2.index = v.index ∧
      s.pendingKey t (s.createKey t subject v).2.disk = .ok key := by
  obtain ⟨c, hd, -⟩ := h
  obtain ⟨hok, hindex, hd'⟩ := createKey_of_ok hs hd hmodule hrequest
  refine ⟨hok, hindex, ?_⟩
  have ht := hs.isName_of_moduleOf hmodule
  have hread := (hd'.readText_eq_ok_iff (location_pendingPath s ht)).mpr
    (Contents.text?_of_encode (Contents.put_self _ _ _ _))
  unfold pendingKey
  rw [hread]
  dsimp only
  rw [hkey]
  rfl

/-- Entering a record into the index brings it in step with the files that were just written. -/
theorem sound_enter {waits : String → Prop} {keyText : String} {key : List UInt8}
    (ht : Path.IsName t) (hstep : ∀ t, s.InStep c t (v.held t) (waits t))
    (hd : v.disk.Stores s.path.location (install t r.serial (Text.Utf8.encode text) key c))
    (hm : m ∈ s.modules ∧ m.id = t ∧ m.disabled = false)
    (hunique : ∀ m' ∈ s.modules, m'.id = t → m' = m) (hkey : c t pendingFile = some key)
    (hkeyText : c.text? t pendingFile = some keyText) (hpair : s.IsPair t r text keyText) :
    ((enter m.maxItems r v).held t).getLast? = some r ∧
      s.Sound (enter m.maxItems r v) fun t' ↦ t' ≠ t ∧ waits t' := by
  obtain rfl : r.certType = t := hpair.certType_eq
  obtain ⟨evicted, kept, hadded⟩ : ∃ evicted kept,
      CertIndex.added (v.held r.certType) r m.maxItems = (evicted, kept) := ⟨_, _, rfl⟩
  have hheld : (enter m.maxItems r v).held r.certType = kept := by rw [held_enter, hadded]
  have hlocates : ∀ x ∈ evicted, s.Locates r.certType x := fun x hx ↦ by
    have hturn := CertIndex.turnover_of_added (hstep r.certType).distinct hadded
    obtain ⟨_, _, _, _, hx'⟩ := (hstep r.certType).paired x (hturn.of_evicted x hx)
    exact hx'.locates
  rw [hheld]
  refine ⟨CertIndex.getLast?_of_added hadded,
    replace r.certType r (Text.Utf8.encode text) key evicted c, ?_, fun t' ↦ ?_⟩
  · rw [disk_enter, hadded]
    exact stores_removeFiles ht hd hlocates
  · by_cases heq : t' = r.certType
    · subst heq
      rw [hheld]
      simpa using (hstep r.certType).installed hm hunique hadded hkey hkeyText hpair
    · rw [held_enter_of_ne v m.maxItems heq]
      exact (hstep t').congr (fun n ↦ replace_of_ne heq) (and_iff_right heq)

/-- **Applying a certificate** fails without a trace, or installs it with the key that waited. -/
theorem Sound.applyCert {waits : String → Prop} (hs : s.WellNamed) (h : s.Sound v waits)
    (t text : String) :
    (∃ e, s.applyCert t text v = (.error e, v)) ∨
      ∃ r, (s.applyCert t text v).1 = .ok r ∧
        ((s.applyCert t text v).2.held t).getLast? = some r ∧
        s.Sound (s.applyCert t text v).2 fun t' ↦ t' ≠ t ∧ waits t' := by
  obtain ⟨c, hd, hstep⟩ := h
  rcases applyCert_eq s v t text with hfailed | ⟨m, keyText, r, hmatches, happly⟩
  · exact Or.inl hfailed
  right
  have hm := mem_of_moduleOf hmatches.module
  have ht := hs.isName_of_moduleOf hmatches.module
  obtain ⟨d, key, hkey, hkeyText, hd', hinstall⟩ := hmatches.install hs hd
    fun _ v ↦ (.ok r, enter m.maxItems r v)
  have hunique : ∀ m' ∈ s.modules, m'.id = t → m' = m :=
    fun m' hm' hid' ↦ hs.eq_of_id hm.1 hm' (hid'.trans hm.2.1.symm)
  rw [happly, hinstall]
  exact ⟨r, rfl, sound_enter ht hstep hd' hm hunique hkey hkeyText hmatches.pair⟩

/-- **A certificate for the key that waits is applied**, and takes its place among the records. -/
theorem Sound.accepts {waits : String → Prop} {key : PrivateKey} {cert : Certificate}
    (hs : s.WellNamed) (h : s.Sound v waits) (hmodule : s.moduleOf t = .ok m)
    (hpending : s.pendingKey t v.disk = .ok key) (hcert : certFor key text = .ok cert)
    (hr : r = s.recordOf t cert (s.certPath t (Text.Hex.encodeUpper cert.serial))) :
    (s.applyCert t text v).1 = .ok r ∧
      (s.applyCert t text v).2.held t = (CertIndex.added (v.held t) r m.maxItems).2 := by
  obtain ⟨c, hd, -⟩ := h
  obtain ⟨⟨keyText, hmatches⟩, happly⟩ := applyCert_of_ok hmodule hpending hcert hr
  obtain ⟨d, -, -, -, -, hinstall⟩ := hmatches.install hs hd
    fun _ v ↦ (.ok r, enter m.maxItems r v)
  obtain rfl : r.certType = t := hmatches.pair.certType_eq
  rw [happly, hinstall]
  exact ⟨rfl, held_enter _ m.maxItems r⟩

end CertStorage

end NodeAgent
