import NodeAgent.Certificate.Vault
import NodeAgent.Proofs.Disk.Stores
import NodeAgent.Proofs.Text.Hex

/-!
# Where keys and certificates are

The files of a type of certificates are named after serial numbers, save for the key that waits.
No two of these names are the same: digits are written in upper case, so no serial number reads
`pending`, and the endings tell certificates from keys. What a record says about its files leads
back to them.

## Main statements

* `certFile_injective`, `keyFile_injective`, `certFile_ne_keyFile`, `keyFile_ne_pendingFile`: the
  names of different files are different.
* `location_certPath`, `location_keyPath`, `location_pendingPath`: where the files are.
* `removeFiles_eq`: the files of a record are removed by their names.
-/

namespace NodeAgent.CertStorage

/-- The name of a certificate. -/
def certFile (serial : Bytes) : String := Text.Hex.encodeUpper serial ++ certSuffix

/-- The name of the key of a certificate. -/
def keyFile (serial : Bytes) : String := Text.Hex.encodeUpper serial ++ keySuffix

/-- The name of the key that waits for its certificate. -/
def pendingFile : String := "pending" ++ keySuffix

variable {s : CertStorage} {t : String} {serial serial' : Bytes} {d : Disk} {r : CertRecord}

/-! ## Names -/

theorem append_right_cancel {a b c : String} (h : a ++ c = b ++ c) : a = b := by
  have hchars := congrArg String.toList h
  rw [String.toList_append, String.toList_append] at hchars
  exact String.toList_inj.mp (List.append_cancel_right hchars)

theorem certFile_injective (h : certFile serial = certFile serial') : serial = serial' :=
  Text.Hex.encodeUpper_injective (append_right_cancel h)

theorem keyFile_injective (h : keyFile serial = keyFile serial') : serial = serial' :=
  Text.Hex.encodeUpper_injective (append_right_cancel h)

/-- No text has both endings. -/
theorem certSuffix_ne_keySuffix (a b : String) : a ++ certSuffix ≠ b ++ keySuffix := by
  intro h
  have hchars := congrArg (fun x : String ↦ x.toList.reverse) h
  simp [certSuffix, keySuffix] at hchars

theorem certFile_ne_keyFile : certFile serial ≠ keyFile serial' := certSuffix_ne_keySuffix _ _

theorem certFile_ne_pendingFile : certFile serial ≠ pendingFile := certSuffix_ne_keySuffix _ _

theorem keyFile_ne_pendingFile : keyFile serial ≠ pendingFile := by
  intro h
  have hpending : Text.Hex.encodeUpper serial = "pending" := append_right_cancel h
  have hdigit : 'p' ∈ (Text.Hex.encodeUpper serial).toList := by
    rw [hpending]
    decide
  exact absurd (Text.Hex.mem_encodeUpper hdigit) (by decide)

/-- A text without slashes before one of the endings is the name of a file. -/
theorem isName_append {a suffix : String} (ha : '/' ∉ a.toList)
    (hlong : 2 < suffix.toList.length) (hsuffix : '/' ∉ suffix.toList) :
    Path.IsName (a ++ suffix) := by
  have hne : ∀ x : String, x.toList.length ≤ 2 → a ++ suffix ≠ x := by
    rintro x hx rfl
    rw [String.toList_append, List.length_append] at hx
    omega
  refine ⟨hne "" (by decide), hne "." (by decide), hne ".." (by decide), fun hmem ↦ ?_⟩
  rw [String.toList_append] at hmem
  rcases List.mem_append.mp hmem with h | h
  · exact ha h
  · exact hsuffix h

theorem slash_not_mem_encodeUpper (bs : Bytes) : '/' ∉ (Text.Hex.encodeUpper bs).toList :=
  fun hmem ↦ absurd (Text.Hex.mem_encodeUpper hmem) (by decide)

theorem isName_certFile (serial : Bytes) : Path.IsName (certFile serial) :=
  isName_append (slash_not_mem_encodeUpper serial) (by decide) (by decide)

theorem isName_keyFile (serial : Bytes) : Path.IsName (keyFile serial) :=
  isName_append (slash_not_mem_encodeUpper serial) (by decide) (by decide)

theorem isName_pendingFile : Path.IsName pendingFile :=
  isName_append (by decide) (by decide) (by decide)

/-! ## Locations -/

theorem location_directory (s : CertStorage) (ht : Path.IsName t) :
    (s.directory t).location = s.path.location ++ [t] := Path.location_join s.path ht

theorem location_file (s : CertStorage) (ht : Path.IsName t) {n : String} (hn : Path.IsName n) :
    ((s.directory t).join n).location = s.path.location ++ [t, n] := by
  rw [Path.location_join _ hn, location_directory s ht, List.append_assoc]
  rfl

theorem location_pendingPath (s : CertStorage) (ht : Path.IsName t) :
    (s.pendingPath t).location = s.path.location ++ [t, pendingFile] :=
  location_file s ht isName_pendingFile

theorem location_certPath (s : CertStorage) (ht : Path.IsName t) (serial : Bytes) :
    (s.certPath t (Text.Hex.encodeUpper serial)).location =
      s.path.location ++ [t, certFile serial] :=
  location_file s ht (isName_certFile serial)

theorem location_keyPath (s : CertStorage) (ht : Path.IsName t) (serial : Bytes) :
    (s.keyPath t (Text.Hex.encodeUpper serial)).location =
      s.path.location ++ [t, keyFile serial] :=
  location_file s ht (isName_keyFile serial)

/-! ## Files of a record -/

/-- A file is found at its location. -/
theorem fileOfUrl?_urlOfFile (p : Path) : fileOfUrl? (urlOfFile p) = some p := by
  have hchars : (urlOfFile p).toList = "file://".toList ++ p.toList := String.toList_append
  rw [fileOfUrl?, hchars, if_pos (List.isPrefixOf_iff_prefix.mpr (List.prefix_append _ _)),
    List.drop_left, String.ofList_toList]

/-- A record says where its certificate and its key are. -/
structure Locates (s : CertStorage) (t : String) (r : CertRecord) : Prop where
  certUrl : r.certUrl = urlOfFile (s.certPath t r.serialHex)
  keyUrl : r.keyUrl = urlOfFile (s.keyPath t r.serialHex)

theorem locates_recordOf (s : CertStorage) (t : String) (c : Certificate) :
    s.Locates t (s.recordOf t c (s.certPath t (Text.Hex.encodeUpper c.serial))) := ⟨rfl, rfl⟩

/-- Both files of a record are removed, where they are there. -/
theorem removeFiles_eq (h : s.Locates t r) (d : Disk) :
    removeFiles d r =
      ((d.remove (s.certPath t r.serialHex)).2.remove (s.keyPath t r.serialHex)).2 := by
  rw [removeFiles, List.foldl_cons, List.foldl_cons, List.foldl_nil, h.certUrl, h.keyUrl,
    fileOfUrl?_urlOfFile, fileOfUrl?_urlOfFile]
  rfl

end NodeAgent.CertStorage
