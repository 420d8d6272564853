import NodeAgent.Proofs.Certificate.Restart

/-!
# A certificate without its key

A certificate is applied in two steps: its text is written, and then the key that waited gets its
name. Everything that can be wrong with the certificate is found out before either of them, and an
operation that fails leaves the disk as it was, so as a rule an application that fails has done
nothing at all. There is one exception. If the text is written and then the key cannot be given its
name, nobody takes the text away again. The index does not know about it, but an index that is made
anew from the disk does.

## Main statements

* `applyCert_error`: an application that fails did nothing, or it wrote the certificate.
* `failed_applyCert`: what an application that fails leaves behind, on every disk.
* `certificate_without_key`: a certificate whose application failed, and which is looked up after
  the next start.
-/

namespace NodeAgent

namespace Action

variable {σ α β : Type} {m : Action σ α} {f : α → Action σ β} {w w' : σ} {a : α} {e : ServiceError}

/-- Two actions fail where the first of them does, or the second after it. -/
theorem andThen_eq_error (h : m.andThen f w = (.error e, w')) :
    m w = (.error e, w') ∨ ∃ a w'', m w = (.ok a, w'') ∧ f a w'' = (.error e, w') := by
  rw [andThen] at h
  cases hm : m w with
  | mk r w'' =>
    rw [hm] at h
    cases r with
    | error e' =>
      obtain ⟨he, rfl⟩ := Prod.mk.inj h
      cases he
      exact Or.inl rfl
    | ok a => exact Or.inr ⟨a, w'', rfl, h⟩

end Action

namespace CertStorage

variable {s : CertStorage} {t text : String} {v v' : Vault} {m : CertModule} {r : CertRecord}
  {e : ServiceError} {d : Disk} {l : Location} {p : Path}

/-! ## Two steps, one of which fails -/

theorem onDisk_eq_error {what : String} {f : Disk → Except FileError Unit × Disk}
    (h : onDisk what p f v = (.error e, v')) :
    ∃ why, (f v.disk).1 = .error why ∧ e = fileFailed what p why ∧
      v' = { v with disk := (f v.disk).2 } := by
  rw [onDisk] at h
  obtain ⟨hr, rfl⟩ := Prod.mk.inj h
  cases hf : (f v.disk).1 with
  | ok => rw [hf] at hr; cases hr
  | error why =>
    rw [hf] at hr
    exact ⟨why, rfl, (Except.error.inj hr).symm, rfl⟩

theorem onDisk_eq_ok {what : String} {f : Disk → Except FileError Unit × Disk}
    (h : onDisk what p f v = (.ok (), v')) :
    (f v.disk).1 = .ok () ∧ v' = { v with disk := (f v.disk).2 } := by
  rw [onDisk] at h
  obtain ⟨hr, rfl⟩ := Prod.mk.inj h
  cases hf : (f v.disk).1 with
  | ok => exact ⟨rfl, rfl⟩
  | error why => rw [hf] at hr; cases hr

/-- The text of the certificate was written where no directory was, and then the key that waits
could not be given its name. -/
structure Unnamed (s : CertStorage) (t text : String) (r : CertRecord) (e : ServiceError)
    (v v' : Vault) : Prop where
  found : ∃ x, v.disk.find .write (s.certPath t r.serialHex) = .ok x ∧ x ≠ some .directory
  written : v' = { v with
    disk := v.disk.set (s.certPath t r.serialHex).location (.file (Text.Utf8.encode text)) }
  cause : ∃ why, (v'.disk.rename (s.pendingPath t) (s.keyPath t r.serialHex)).1 = .error why ∧
    e = fileFailed "rename" (s.pendingPath t) why

/-- Installing fails without a trace, or after the text was written. -/
theorem installing_eq_error
    (h : s.installing t text r.serialHex (fun _ v ↦ (.ok r, enter m.maxItems r v)) v =
      (.error e, v')) : v' = v ∨ s.Unnamed t text r e v v' := by
  rcases Action.andThen_eq_error h with hwrite | ⟨_, w, hwrite, hrename⟩
  · obtain ⟨why, hwhy, -, rfl⟩ := onDisk_eq_error hwrite
    rcases v.disk.write_cases (s.certPath t r.serialHex) (Text.Utf8.encode text) with
      ⟨e', hfailed⟩ | ⟨-, hdone⟩
    · left
      rw [Disk.writeText, hfailed]
    · rw [Disk.writeText, hdone] at hwhy
      cases hwhy
  · obtain ⟨hok, rfl⟩ := onDisk_eq_ok hwrite
    rcases v.disk.write_cases (s.certPath t r.serialHex) (Text.Utf8.encode text) with
      ⟨e', hfailed⟩ | ⟨hfound, hdone⟩
    · rw [Disk.writeText, hfailed] at hok
      cases hok
    · rw [Disk.writeText, hdone] at hrename
      rcases Action.andThen_eq_error hrename with hrename | ⟨_, _, -, hentered⟩
      · obtain ⟨why, hwhy, rfl, rfl⟩ := onDisk_eq_error hrename
        right
        dsimp only at hwhy
        refine ⟨hfound, ?_, why, ?_, rfl⟩
        · rw [Disk.rename_of_error hwhy]
        · rw [Disk.rename_of_error hwhy]
          exact hwhy
      · cases hentered

/-- **An application that fails** did nothing, or it wrote the certificate. -/
theorem applyCert_error (h : s.applyCert t text v = (.error e, v')) :
    v' = v ∨ ∃ m keyText r, s.Matches v t text m keyText r ∧ s.Unnamed t text r e v v' := by
  rcases s.applyCert_eq v t text with ⟨e', hrefused⟩ | ⟨m, keyText, r, hmatches, happly⟩
  · left
    exact (Prod.mk.inj (h.symm.trans hrefused)).2
  · rw [happly] at h
    rcases installing_eq_error h with hsame | hunnamed
    · exact Or.inl hsame
    · exact Or.inr ⟨m, keyText, r, hmatches, hunnamed⟩

/-! ## What is left behind -/

theorem location_certPath_eq (s : CertStorage) (t : String) (r : CertRecord) :
    (s.certPath t r.serialHex).location = (s.directory t).location ++ [certFile r.serial] :=
  Path.location_join (s.directory t) (isName_certFile r.serial)

theorem location_pendingPath_ne (s : CertStorage) (t : String) (r : CertRecord) :
    (s.pendingPath t).location ≠ (s.certPath t r.serialHex).location := by
  have hpending : (s.pendingPath t).location = (s.directory t).location ++ [pendingFile] :=
    Path.location_join (s.directory t) isName_pendingFile
  rw [hpending, location_certPath_eq]
  intro heq
  exact certFile_ne_pendingFile (List.singleton_injective (List.append_cancel_left heq)).symm

/-- What is left of an application that wrote the certificate of a record and then failed. -/
structure Stranded (s : CertStorage) (t text : String) (r : CertRecord) (e : ServiceError)
    (v v' : Vault) : Prop where
  /-- The certificate was one for the key that waits. -/
  matched : ∃ m keyText, s.Matches v t text m keyText r
  /-- What failed is that the key gets its name. -/
  cause : ∃ why, (v'.disk.rename (s.pendingPath t) (s.keyPath t r.serialHex)).1 = .error why ∧
    e = fileFailed "rename" (s.pendingPath t) why
  /-- The text of the certificate is there, whatever certificate was there before. -/
  left : v'.disk.at? (s.certPath t r.serialHex).location = some (.file (Text.Utf8.encode text))
  /-- Nothing else was added, overwritten or removed. -/
  others : ∀ l, l ≠ (s.certPath t r.serialHex).location → v'.disk.at? l = v.disk.at? l
  /-- What is at other places is read as before. -/
  elsewhere : ∀ t' p, p.location ≠ (s.certPath t r.serialHex).location →
    s.recordAt? t' v'.disk p = s.recordAt? t' v.disk p
  /-- Other directories are listed as before. -/
  listed : ∀ p, p.location ≠ (s.directory t).location →
    (v'.disk.list p).toOption = (v.disk.list p).toOption
  /-- The directory of the type is listed with the certificate. -/
  shown : ∀ names, v.disk.list (s.directory t) = .ok names →
    ∃ names', v'.disk.list (s.directory t) = .ok names' ∧
      ∀ n, n ∈ names' ↔ n = certFile r.serial ∨ n ∈ names
  /-- So it is loaded, unless the disk refuses to read it. -/
  loaded : ∀ names, v.disk.list (s.directory t) = .ok names →
    v.disk.refuses .read (s.certPath t r.serialHex).location = none →
      ∃ rs, s.recordsIn? t v'.disk = some rs ∧ r ∈ rs

/-- What an application that fails leaves behind. -/
structure Failed (s : CertStorage) (t text : String) (e : ServiceError) (v v' : Vault) :
    Prop where
  /-- The index is the same, and no subscription was told anything. -/
  index : v'.index = v.index
  /-- The key still waits. -/
  key : v'.disk.readText (s.pendingPath t) = v.disk.readText (s.pendingPath t)
  /-- Nothing was done, or the certificate was written. -/
  outcome : v' = v ∨ ∃ r, s.Stranded t text r e v v'

theorem toOption_congr {ε α : Type} {x y : Except ε α} (h : ∀ a, x = .ok a ↔ y = .ok a) :
    x.toOption = y.toOption := by
  cases x with
  | ok a => rw [(h a).mp rfl]
  | error e =>
    cases y with
    | ok b => exact absurd ((h b).mpr rfl) nofun
    | error e' => rfl

/-- A record is read where its text is. -/
theorem recordAt?_congr {d' : Disk}
    (h : ∀ text, d'.readText p = .ok text ↔ d.readText p = .ok text) (t : String) :
    s.recordAt? t d' p = s.recordAt? t d p := by
  have hsame := toOption_congr h
  unfold recordAt?
  cases hd : d.readText p with
  | error e =>
    cases hd' : d'.readText p with
    | error e' => rfl
    | ok text =>
      rw [hd, hd'] at hsame
      cases hsame
  | ok text => rw [(h text).mpr hd]

/-- A certificate that is read is loaded with its directory. -/
theorem mem_recordsIn? {names : List String} (hlist : d.list (s.directory t) = .ok names)
    (hname : certFile r.serial ∈ names)
    (hread : s.recordAt? t d (s.certPath t r.serialHex) = some r) :
    ∃ rs, s.recordsIn? t d = some rs ∧ r ∈ rs := by
  rw [recordsIn?, hlist]
  refine ⟨_, rfl, ?_⟩
  rw [List.mem_mergeSort, List.mem_filterMap]
  refine ⟨s.certPath t r.serialHex, ?_, hread⟩
  rw [List.mem_filter, List.mem_map]
  exact ⟨⟨certFile r.serial, hname, rfl⟩, (isSuffixOf_join _ _).1⟩

section Unnamed

variable {keyText : String} (hmatches : s.Matches v t text m keyText r)
  (h : s.Unnamed t text r e v v')

include h

theorem Unnamed.at?_ne : v.disk.at? (s.certPath t r.serialHex).location ≠ some .directory := by
  obtain ⟨x, hfind, hx⟩ := h.found
  obtain ⟨-, -, -, hat⟩ := Disk.find_eq_ok_iff.mp hfind
  rw [hat]
  exact hx

theorem Unnamed.location_ne_nil : (s.certPath t r.serialHex).location ≠ [] := by
  intro hroot
  apply h.at?_ne
  rw [hroot, Disk.at?, if_pos rfl]

/-- What can be read elsewhere can still be read. -/
theorem Unnamed.readText_iff (hp : p.location ≠ (s.certPath t r.serialHex).location)
    (read : String) : v'.disk.readText p = .ok read ↔ v.disk.readText p = .ok read := by
  rw [h.written, Disk.readText_eq_ok_iff, Disk.readText_eq_ok_iff]
  simp only [Disk.find_set_file_iff _ h.at?_ne hp]

/-- The certificate is read where it was written. -/
theorem Unnamed.readText_certPath
    (hreads : v.disk.refuses .read (s.certPath t r.serialHex).location = none) :
    v'.disk.readText (s.certPath t r.serialHex) = .ok text := by
  obtain ⟨x, hfind, -⟩ := h.found
  obtain ⟨hempty, -, hway, -⟩ := Disk.find_eq_ok_iff.mp hfind
  rw [h.written, Disk.readText_eq_ok_iff]
  refine ⟨_, Disk.find_eq_ok_iff.mpr ⟨hempty, hreads, ?_, ?_⟩, Text.Utf8.decode_encode text⟩
  · rw [Disk.obstacle?_set_self]
    exact hway
  · exact Disk.at?_set_self _ _ h.location_ne_nil

include hmatches

theorem Unnamed.stranded : s.Stranded t text r e v v' := by
  have hcert := location_certPath_eq s t r
  have hothers : ∀ l, l ≠ (s.certPath t r.serialHex).location → v'.disk.at? l = v.disk.at? l := by
    intro l hl
    rw [h.written]
    exact Disk.at?_set_of_ne _ _ hl.symm
  have hleft : v'.disk.at? (s.certPath t r.serialHex).location =
      some (.file (Text.Utf8.encode text)) := by
    rw [h.written]
    exact Disk.at?_set_self _ _ h.location_ne_nil
  have hshown : ∀ names, v.disk.list (s.directory t) = .ok names →
      ∃ names', v'.disk.list (s.directory t) = .ok names' ∧
        ∀ n, n ∈ names' ↔ n = certFile r.serial ∨ n ∈ names := by
    intro names hnames
    have hdir : (s.directory t).location ≠ (s.certPath t r.serialHex).location := by
      rw [hcert]
      exact fun hnil ↦ absurd (List.self_eq_append_right.mp hnil) (List.cons_ne_nil _ _)
    have hfind := (Disk.find_set_file_iff (Text.Utf8.encode text) h.at?_ne hdir).mpr
      (Disk.list_eq_ok_iff.mp hnames).1
    have hlist := Disk.list_eq_ok_iff.mpr ⟨hfind, rfl⟩
    rw [h.written]
    refine ⟨_, hlist, fun n ↦ ?_⟩
    rw [Disk.mem_list hlist, Disk.mem_list hnames]
    by_cases hn : n = certFile r.serial
    · refine iff_of_true ?_ (Or.inl hn)
      rw [hn, ← hcert, Disk.at?_set_self _ _ h.location_ne_nil]
      exact Option.some_ne_none _
    · rw [Disk.at?_set_of_ne, or_iff_right hn]
      rw [hcert]
      exact fun heq ↦ hn (List.singleton_injective (List.append_cancel_left heq)).symm
  refine
    { matched := ⟨m, keyText, hmatches⟩
      cause := h.cause
      left := hleft
      others := hothers
      elsewhere := fun t' p hp ↦ recordAt?_congr (h.readText_iff hp) t'
      listed := fun p hp ↦ toOption_congr fun names ↦ ?_
      shown := hshown
      loaded := fun names hnames hreads ↦ ?_ }
  · rw [h.written]
    refine Disk.list_set_file_iff _ h.at?_ne ?_
    rw [hcert, List.dropLast_concat]
    exact hp.symm
  · obtain ⟨names', hnames', hmem⟩ := hshown names hnames
    obtain ⟨cert, key, htext, -, -, hrecord⟩ := hmatches.pair
    refine mem_recordsIn? hnames' ((hmem _).mpr (Or.inl rfl)) ?_
    rw [recordAt?, h.readText_certPath hreads]
    dsimp only
    rw [htext]
    exact congrArg some hrecord.symm

theorem Unnamed.failed : s.Failed t text e v v' where
  index := by rw [h.written]
  key := by
    rw [hmatches.key, h.readText_iff (location_pendingPath_ne s t r), hmatches.key]
  outcome := Or.inr ⟨r, h.stranded hmatches⟩

end Unnamed

/-! ## A directory where the key should go -/

/-- A key waits, and a directory has the name that it should get. -/
def blocked : Vault where
  disk :=
    { entries := ⟨[(["certs"], .directory), (["certs", "iam"], .directory),
        (["certs", "iam", "pending.key.pem"], .file (Text.Utf8.encode (PrivateKey.new 0).text)),
        (["certs", "iam", "01.key.pem"], .directory)]⟩ }

/-- The same with a certificate for the key. -/
def overtaken : Vault where
  disk := blocked.disk.set ["certs", "iam", "01.cert.pem"]
    (.file (Text.Utf8.encode (plainText 1 7200)))

theorem location_eq_of_blocked :
    (twoItems.pendingPath "iam").location = ["certs", "iam", "pending.key.pem"] ∧
      (twoItems.certPath "iam" (plainRecord 1 7200).serialHex).location =
        ["certs", "iam", "01.cert.pem"] ∧
      (twoItems.keyPath "iam" (plainRecord 1 7200).serialHex).location =
        ["certs", "iam", "01.key.pem"] ∧
      (twoItems.directory "iam").location = ["certs", "iam"] := by
  decide +kernel

/-- A file in the directory is found if the directories are there. -/
theorem find_eq_of_directory {o : DiskOperation} {n : String}
    (hcerts : d.at? ["certs"] = some .directory) (hiam : d.at? ["certs", "iam"] = some .directory)
    (hrefuses : d.refuses o p.location = none) (hp : p.location = ["certs", "iam", n]) :
    d.find o p = .ok (d.at? ["certs", "iam", n]) := by
  refine Disk.find_eq_ok_iff.mpr
    ⟨Disk.ne_empty_of_location hp (List.cons_ne_nil _ _), hrefuses, ?_, by rw [hp]⟩
  rw [hp, Disk.obstacle?_eq_none_iff]
  intro k hk
  match k, hk with
  | 0, _ => rfl
  | 1, _ => exact hcerts
  | 2, _ => exact hiam

theorem find_blocked {o : DiskOperation} {n : String} (hp : p.location = ["certs", "iam", n]) :
    blocked.disk.find o p = .ok (blocked.disk.at? ["certs", "iam", n]) :=
  find_eq_of_directory rfl rfl rfl hp

theorem find_overtaken {o : DiskOperation} {n : String} (hp : p.location = ["certs", "iam", n]) :
    overtaken.disk.find o p = .ok (overtaken.disk.at? ["certs", "iam", n]) :=
  find_eq_of_directory rfl rfl rfl hp

theorem pendingKey_blocked : twoItems.pendingKey "iam" blocked.disk = .ok (.new 0) := by
  have hread : blocked.disk.readText (twoItems.pendingPath "iam") = .ok (PrivateKey.new 0).text :=
    Disk.readText_eq_ok_iff.mpr
      ⟨_, find_blocked location_eq_of_blocked.1, Text.Utf8.decode_encode _⟩
  rw [pendingKey, hread]
  dsimp only
  rw [ofText_newKey]
  rfl

theorem certFor_blocked : certFor (.new 0) (plainText 1 7200) = .ok (plainCert 1 7200) :=
  certFor_plainText (by decide +kernel)

/-- The certificate is written, and the key cannot take the place of a directory. -/
theorem applyCert_blocked : twoItems.applyCert "iam" (plainText 1 7200) blocked =
    (.error (.general "rename /certs/iam/pending.key.pem: Is a directory (os error 21)"),
      overtaken) := by
  obtain ⟨hpending, hcert, hkey, -⟩ := location_eq_of_blocked
  obtain ⟨-, happly⟩ := applyCert_of_ok (r := plainRecord 1 7200) rfl pendingKey_blocked
    certFor_blocked rfl
  have hwritten : blocked.disk.writeText (twoItems.certPath "iam" (plainRecord 1 7200).serialHex)
      (plainText 1 7200) = (.ok (), overtaken.disk) := by
    rw [Disk.writeText, Disk.write, find_blocked hcert, hcert]
    rfl
  have hrenamed : overtaken.disk.rename (twoItems.pendingPath "iam")
      (twoItems.keyPath "iam" (plainRecord 1 7200).serialHex) =
        (.error .isDirectory, overtaken.disk) := by
    rw [Disk.rename, find_overtaken hpending, find_overtaken hkey]
    rfl
  have hwrite : onDisk "write" (twoItems.certPath "iam" (plainRecord 1 7200).serialHex)
      (·.writeText (twoItems.certPath "iam" (plainRecord 1 7200).serialHex) (plainText 1 7200))
      blocked = (.ok (), overtaken) := by
    rw [onDisk_of_ok (congrArg Prod.fst hwritten), hwritten]
    rfl
  rw [happly, installing, Action.andThen_of_ok hwrite, Action.andThen, onDisk, hrenamed]
  rfl

/-- The certificate is among what is loaded as soon as it was written. -/
theorem recordsIn?_blocked : twoItems.recordsIn? "iam" blocked.disk = some [] ∧
    twoItems.recordsIn? "iam" overtaken.disk = some [plainRecord 1 7200] := by
  refine ⟨by decide +kernel, ?_⟩
  have hlist : overtaken.disk.list (twoItems.directory "iam") =
      .ok ["01.cert.pem", "01.key.pem", "pending.key.pem"] := by
    refine Disk.list_eq_ok_iff.mpr ⟨Disk.find_eq_ok_iff.mpr ⟨by decide, rfl, ?_, ?_⟩, ?_⟩
    · decide +kernel
    · rw [location_eq_of_blocked.2.2.2]
      rfl
    · decide +kernel
  have hpaths : (["01.cert.pem", "01.key.pem", "pending.key.pem"].map
      (twoItems.directory "iam").join).filter (fun p ↦ certSuffix.toList.isSuffixOf p.toList) =
        [twoItems.certPath "iam" (plainRecord 1 7200).serialHex] := by
    decide +kernel
  have hread : overtaken.disk.readText (twoItems.certPath "iam" (plainRecord 1 7200).serialHex) =
      .ok (plainText 1 7200) :=
    Disk.readText_eq_ok_iff.mpr
      ⟨_, find_overtaken location_eq_of_blocked.2.1, Text.Utf8.decode_encode _⟩
  have hrecord : twoItems.recordAt? "iam" overtaken.disk
      (twoItems.certPath "iam" (plainRecord 1 7200).serialHex) = some (plainRecord 1 7200) := by
    rw [recordAt?, hread]
    dsimp only
    rw [(publicKey_of_certFor certFor_blocked).1]
    rfl
  rw [recordsIn?, hlist]
  dsimp only
  rw [hpaths, List.filterMap_cons_some hrecord, List.filterMap_nil, List.mergeSort_singleton]

theorem get?_load_of_twoItems {rs : List CertRecord} (h : twoItems.recordsIn? "iam" d = some rs) :
    (twoItems.load d).certs.get? "iam" = some rs := by
  have hmodules : twoItems.modules = [{ id := "iam", maxItems := 2 }] := rfl
  rw [CertStorage.load, hmodules]
  simp only [List.foldl_cons, List.foldl_nil, h]
  rfl

/-! ## Applications that fail -/

/-- **An application that fails** leaves the index and the key that waits as they were. It leaves
the disk as it was, too, unless the key could not be given its name. -/
theorem failed_applyCert (h : s.applyCert t text v = (.error e, v')) : s.Failed t text e v v' := by
  rcases applyCert_error h with rfl | ⟨m, keyText, r, hmatches, hunnamed⟩
  · exact ⟨rfl, rfl, Or.inl rfl⟩
  · exact hunnamed.failed hmatches

theorem failed_applyCert_blocked :
    twoItems.applyCert "iam" (plainText 1 7200) blocked =
      (.error (.general "rename /certs/iam/pending.key.pem: Is a directory (os error 21)"),
        overtaken) ∧
      twoItems.Failed "iam" (plainText 1 7200)
        (.general "rename /certs/iam/pending.key.pem: Is a directory (os error 21)") blocked
        overtaken :=
  ⟨applyCert_blocked, failed_applyCert applyCert_blocked⟩

/-- **A certificate whose application failed is looked up after the next start**, and where its key
should be there is none. -/
theorem certificate_without_key : ∃ e v',
    twoItems.applyCert "iam" (plainText 1 7200) blocked = (.error e, v') ∧
      blocked.disk.at? ["certs", "iam", "01.cert.pem"] = none ∧
      v'.disk.at? ["certs", "iam", "01.cert.pem"] =
        some (.file (Text.Utf8.encode (plainText 1 7200))) ∧
      (twoItems.load blocked.disk).get "iam" [] [] =
        .error (.notFound "certificate of type iam") ∧
      (twoItems.load v'.disk).get "iam" [] [] =
        .ok ⟨"iam", "file:///certs/iam/01.key.pem", "file:///certs/iam/01.cert.pem"⟩ ∧
      v'.disk.readText "/certs/iam/01.key.pem" = .error .isDirectory := by
  obtain ⟨hbefore, hafter⟩ := recordsIn?_blocked
  refine ⟨_, overtaken, applyCert_blocked, rfl, rfl, ?_, ?_, rfl⟩
  · rw [CertIndex.get, get?_load_of_twoItems hbefore]
    rfl
  · have hheld : ((twoItems.load overtaken.disk).held "iam").getLast? =
        some (plainRecord 1 7200) := by
      rw [CertIndex.held, get?_load_of_twoItems hafter]
      rfl
    have hinfo : (plainRecord 1 7200).info =
        ⟨"iam", "file:///certs/iam/01.key.pem", "file:///certs/iam/01.cert.pem"⟩ := by
      decide +kernel
    rw [CertIndex.get_newest [] hheld, hinfo]

end CertStorage

end NodeAgent
