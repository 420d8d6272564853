import NodeAgent.Proofs.Certificate.Steps
import NodeAgent.Proofs.History
import NodeAgent.Proofs.Text.Armour
import Mathlib.Data.List.Induction

/-!
# Runs of a certificate store

Keys are created and certificates are applied in any order, for any types, and many of these
attempts fail. Whatever the order, a key waits of a type if one was created and no certificate of
the type has been applied since (`Awaits`), and the files of the type are that key and the
certificates that the index holds, each with the key that belongs to it.

## Main statements

* `Sound.run`: files and records are in step after every run.
* `kept_run`: what that means for everybody who looks into the directories and the index.
-/

namespace NodeAgent.CertStorage

variable {s : CertStorage} {c : Contents} {t : String} {v : Vault}

/-! ## Runs -/

/-- Something that is asked of a vault. -/
inductive Move where
  | createKey (certType subject : String)
  | applyCert (certType text : String)

/-- The vault after a move. -/
def step (s : CertStorage) (v : Vault) : Move → Vault
  | .createKey t subject => (s.createKey t subject v).2
  | .applyCert t text => (s.applyCert t text v).2

/-- The vault after a run. -/
def run (s : CertStorage) (v : Vault) (moves : List Move) : Vault := moves.foldl s.step v

@[simp] theorem run_nil (s : CertStorage) (v : Vault) : s.run v [] = v := rfl

theorem run_cons (s : CertStorage) (v : Vault) (mv : Move) (moves : List Move) :
    s.run v (mv :: moves) = s.run (s.step v mv) moves := rfl

theorem run_append (s : CertStorage) (v : Vault) (l l' : List Move) :
    s.run v (l ++ l') = s.run (s.run v l) l' := List.foldl_append

theorem run_concat (s : CertStorage) (v : Vault) (l : List Move) (mv : Move) :
    s.run v (l ++ [mv]) = s.step (s.run v l) mv := s.run_append v l [mv]

/-- A move creates a key of a type. -/
inductive Creates (s : CertStorage) (v : Vault) (t : String) : Move → Prop
  | intro {subject request : String} (h : (s.createKey t subject v).1 = .ok request) :
    Creates s v t (.createKey t subject)

/-- A move applies a certificate of a type. -/
inductive Applies (s : CertStorage) (v : Vault) (t : String) : Move → Prop
  | intro {text : String} {r : CertRecord} (h : (s.applyCert t text v).1 = .ok r) :
    Applies s v t (.applyCert t text)

/-- A key of a type was created, and no certificate of the type has been applied since. -/
def Awaits (s : CertStorage) (v : Vault) (moves : List Move) (t : String) : Prop :=
  ∃ before mv after, moves = before ++ mv :: after ∧ s.Creates (s.run v before) t mv ∧
    ∀ p mv' q, after = p ++ mv' :: q → ¬s.Applies (s.run v (before ++ mv :: p)) t mv'

variable {moves : List Move} {mv : Move}

theorem not_awaits_nil : ¬s.Awaits v [] t := by
  rintro ⟨before, mv, after, hsplit, -⟩
  exact List.append_ne_nil_of_right_ne_nil _ (List.cons_ne_nil _ _) hsplit.symm

theorem awaits_concat : s.Awaits v (moves ++ [mv]) t ↔
    s.Creates (s.run v moves) t mv ∨ s.Awaits v moves t ∧ ¬s.Applies (s.run v moves) t mv := by
  constructor
  · rintro ⟨before, mv', after, hsplit, hcreates, hafter⟩
    rcases History.eq_or_of_concat hsplit with ⟨rfl, rfl, rfl⟩ | ⟨after', rfl, rfl⟩
    · exact Or.inl hcreates
    · refine Or.inr ⟨⟨before, mv', after', rfl, hcreates, fun p mv'' q heq ↦ ?_⟩, ?_⟩
      · exact hafter p mv'' (q ++ [mv]) (by rw [heq, List.append_assoc, List.cons_append])
      · exact hafter after' mv [] rfl
  · rintro (hcreates | ⟨⟨before, mv', after, rfl, hcreates, hafter⟩, hlast⟩)
    · exact ⟨moves, mv, [], rfl, hcreates, fun p mv' q heq ↦ by simp at heq⟩
    · refine ⟨before, mv', after ++ [mv], by rw [List.append_assoc, List.cons_append], hcreates,
        fun p mv'' q heq ↦ ?_⟩
      rcases History.eq_or_of_concat heq with ⟨rfl, rfl, -⟩ | ⟨q', rfl, -⟩
      · exact hlast
      · exact hafter p mv'' q' rfl

/-- With nothing in the way and nothing in the index, files and records are in step. -/
theorem sound_of_vacant (hdisk : v.disk.Vacant s.path) (hindex : ∀ t, v.held t = []) :
    s.Sound v fun _ ↦ False :=
  ⟨_, hdisk.stores, fun t ↦ by rw [hindex]; exact InStep.empty s t⟩

theorem Sound.congr {waits waits' : String → Prop} (h : s.Sound v waits)
    (hwaits : ∀ t, waits' t ↔ waits t) : s.Sound v waits' := by
  obtain ⟨c, hd, hstep⟩ := h
  exact ⟨c, hd, fun t ↦ (hstep t).congr (fun _ ↦ rfl) (hwaits t)⟩

/-- A move keeps the files in step with the records. -/
theorem Sound.step {waits : String → Prop} (hs : s.WellNamed) (h : s.Sound v waits) (mv : Move) :
    s.Sound (s.step v mv) fun t ↦ s.Creates v t mv ∨ waits t ∧ ¬s.Applies v t mv := by
  cases mv with
  | createKey t subject =>
    have happlies : ∀ t', ¬s.Applies v t' (.createKey t subject) := fun t' ↦ nofun
    rcases h.createKey hs t subject with ⟨e, he⟩ | ⟨⟨request, hok⟩, hsound⟩
    · have hcreates : ∀ t', ¬s.Creates v t' (.createKey t subject) := by
        rintro t' ⟨hok⟩
        rw [he] at hok
        cases hok
      rw [CertStorage.step, he]
      exact h.congr fun t' ↦ by simp [hcreates, happlies]
    · refine hsound.congr fun t' ↦ ?_
      have hcreates : s.Creates v t' (.createKey t subject) ↔ t' = t := by
        constructor
        · rintro ⟨-⟩
          rfl
        · rintro rfl
          exact ⟨hok⟩
      simp [hcreates, happlies]
  | applyCert t text =>
    have hcreates : ∀ t', ¬s.Creates v t' (.applyCert t text) := fun t' ↦ nofun
    rcases h.applyCert hs t text with ⟨e, he⟩ | ⟨r, hok, -, hsound⟩
    · have happlies : ∀ t', ¬s.Applies v t' (.applyCert t text) := by
        rintro t' ⟨hok⟩
        rw [he] at hok
        cases hok
      rw [CertStorage.step, he]
      exact h.congr fun t' ↦ by simp [hcreates, happlies]
    · refine hsound.congr fun t' ↦ ?_
      have happlies : s.Applies v t' (.applyCert t text) ↔ t' = t := by
        constructor
        · rintro ⟨-⟩
          rfl
        · rintro rfl
          exact ⟨hok⟩
      simp [hcreates, happlies, and_comm]

theorem Sound.run (hs : s.WellNamed) (h : s.Sound v fun _ ↦ False) (moves : List Move) :
    s.Sound (s.run v moves) (s.Awaits v moves) := by
  induction moves using List.reverseRecOn with
  | nil => exact h.congr fun t ↦ iff_of_false not_awaits_nil id
  | append_singleton moves mv ih =>
    rw [run_concat]
    exact (ih.step hs mv).congr fun t ↦ awaits_concat

/-! ## A store with a place for two certificates -/

/-- A place for two certificates, where every key is made of the same number. -/
def twoItems : CertStorage := ⟨"/certs", [{ id := "iam", maxItems := 2 }], fun _ ↦ 0⟩

/-- What a certificate for that key says. -/
def plainCert (serial : UInt8) (notAfter : Int) : Certificate :=
  ⟨Der.sequence [], [serial], notAfter, (PrivateKey.new 0).publicBytes, false⟩

/-- The bytes of the certificate. -/
def plainBytes (serial : UInt8) (notAfter : Int) : Bytes :=
  let algorithm := Der.sequence [Der.identifier [1, 2]]
  Der.sequence
    [Der.sequence
      [Der.write .integer [serial], algorithm, Der.sequence [],
        Der.sequence [Der.time 0, Der.time notAfter], Der.sequence [],
        (PrivateKey.new 0).publicInfo],
      algorithm, Der.bits []]

/-- The text of the certificate. -/
def plainText (serial : UInt8) (notAfter : Int) : String :=
  Text.Armour.render ⟨"CERTIFICATE", plainBytes serial notAfter⟩

/-- The record of the certificate. -/
def plainRecord (serial : UInt8) (notAfter : Int) : CertRecord :=
  twoItems.recordOf "iam" (plainCert serial notAfter)
    (twoItems.certPath "iam" (Text.Hex.encodeUpper [serial]))

@[simp] theorem serial_plainRecord (serial : UInt8) (notAfter : Int) :
    (plainRecord serial notAfter).serial = [serial] := rfl

/-- A certificate is applied, and then one that expires before it. -/
def shortening : List Move :=
  [.createKey "iam" "node", .applyCert "iam" (plainText 1 7200), .createKey "iam" "node",
    .applyCert "iam" (plainText 2 3600)]

theorem wellNamed_twoItems : twoItems.WellNamed := by
  refine ⟨fun m hm ↦ ?_, by decide⟩
  rw [List.mem_singleton.mp hm]
  exact ⟨by decide, by decide, by decide, by decide⟩

theorem sound_twoItems : twoItems.Sound { disk := {} } fun _ ↦ False :=
  sound_of_vacant (Disk.vacant_new _) fun _ ↦ rfl

/-- Every move of a run does what it is asked. -/
def Succeeds (s : CertStorage) : Vault → List Move → Prop
  | _, [] => True
  | v, mv :: moves => (∃ t, s.Creates v t mv ∨ s.Applies v t mv) ∧ Succeeds s (s.step v mv) moves

theorem succeeds_cons {mv : Move} {moves : List Move} : s.Succeeds v (mv :: moves) ↔
    (∃ t, s.Creates v t mv ∨ s.Applies v t mv) ∧ s.Succeeds (s.step v mv) moves := Iff.rfl

theorem succeeds_append {moves moves' : List Move} : s.Succeeds v (moves ++ moves') ↔
    s.Succeeds v moves ∧ s.Succeeds (s.run v moves) moves' := by
  induction moves generalizing v with
  | nil => exact ⟨fun h ↦ ⟨trivial, h⟩, And.right⟩
  | cons mv moves ih => rw [List.cons_append, succeeds_cons, succeeds_cons, ih, run_cons, and_assoc]

theorem ofText_newKey : PrivateKey.ofText (PrivateKey.new 0).text = .ok (PrivateKey.new 0) := by
  have hbytes : PrivateKey.ofBytes? (Der.sequence
      [Der.natural 0, Der.write .sequence (PrivateKey.onCurve ++ PrivateKey.curveName .p256),
        Der.write .octetString (PrivateKey.curveBytes .p256 1)]) = some (.new 0) := by
    decide +kernel
  have htext : (PrivateKey.new 0).text = Text.Armour.render ⟨"PRIVATE KEY", Der.sequence
      [Der.natural 0, Der.write .sequence (PrivateKey.onCurve ++ PrivateKey.curveName .p256),
        Der.write .octetString (PrivateKey.curveBytes .p256 1)]⟩ := rfl
  rw [PrivateKey.ofText, htext, Text.Armour.parse_render (by decide) (by decide)]
  dsimp only
  rw [hbytes]

theorem certFor_plainText {serial : UInt8} {notAfter : Int}
    (h : Certificate.ofBytes? (plainBytes serial notAfter) = some (plainCert serial notAfter)) :
    certFor (.new 0) (plainText serial notAfter) = .ok (plainCert serial notAfter) := by
  have htext :
      Certificate.ofText (plainText serial notAfter) = .ok (plainCert serial notAfter) := by
    rw [Certificate.ofText, plainText, Text.Armour.parse_render (by decide) (by decide)]
    dsimp only
    rw [if_neg (fun hne ↦ hne rfl), h]
  rw [certFor, htext]
  exact if_pos rfl

/-- A new key is created and the certificate for it applied. -/
theorem renewed {waits : String → Prop} {serial : UInt8} {notAfter : Int}
    (h : twoItems.Sound v waits)
    (hcert : Certificate.ofBytes? (plainBytes serial notAfter) = some (plainCert serial notAfter)) :
    twoItems.Creates v "iam" (.createKey "iam" "node") ∧
      twoItems.Applies (twoItems.step v (.createKey "iam" "node")) "iam"
        (.applyCert "iam" (plainText serial notAfter)) ∧
      (twoItems.step (twoItems.step v (.createKey "iam" "node"))
        (.applyCert "iam" (plainText serial notAfter))).held "iam" =
          (CertIndex.added (v.held "iam") (plainRecord serial notAfter) 2).2 := by
  have hmodule : twoItems.moduleOf "iam" = .ok { id := "iam", maxItems := 2 } := rfl
  have hrequest : requestFor { id := "iam", maxItems := 2 } "node" = .ok ⟨"node", [], []⟩ := rfl
  obtain ⟨⟨request, hcreated⟩, hindex, hpending⟩ :=
    h.creates wellNamed_twoItems hmodule hrequest ofText_newKey
  have hsound := h.step wellNamed_twoItems (.createKey "iam" "node")
  obtain ⟨happlied, hheld⟩ :=
    hsound.accepts wellNamed_twoItems hmodule hpending (certFor_plainText hcert) rfl
  have hkept : (twoItems.step v (.createKey "iam" "node")).held "iam" = v.held "iam" := by
    rw [Vault.held, CertStorage.step, hindex, Vault.held]
  refine ⟨⟨hcreated⟩, ⟨happlied⟩, ?_⟩
  rw [hkept] at hheld
  exact hheld

theorem succeeds_shortening : twoItems.Succeeds { disk := {} } shortening ∧
    (twoItems.run { disk := {} } shortening).held "iam" =
      [plainRecord 1 7200, plainRecord 2 3600] := by
  have hfirst : Certificate.ofBytes? (plainBytes 1 7200) = some (plainCert 1 7200) := by
    decide +kernel
  have hsecond : Certificate.ofBytes? (plainBytes 2 3600) = some (plainCert 2 3600) := by
    decide +kernel
  obtain ⟨hcreates, happlies, hheld⟩ := renewed sound_twoItems hfirst
  have hkey := sound_twoItems.step wellNamed_twoItems (.createKey "iam" "node")
  have hsound := hkey.step wellNamed_twoItems (.applyCert "iam" (plainText 1 7200))
  obtain ⟨hcreates', happlies', hheld'⟩ := renewed hsound hsecond
  have hnone : Vault.held { disk := {} } "iam" = [] := rfl
  rw [hheld, hnone] at hheld'
  rw [shortening, run_cons, run_cons, run_cons, run_cons, run_nil, hheld']
  refine ⟨?_, by simp [CertIndex.added]⟩
  iterate 4 rw [succeeds_cons]
  exact ⟨⟨"iam", Or.inl hcreates⟩, ⟨"iam", Or.inr happlies⟩, ⟨"iam", Or.inl hcreates'⟩,
    ⟨"iam", Or.inr happlies'⟩, trivial⟩

/-- The same with a third certificate, for which there is no place beside the other two. -/
def evicting : List Move :=
  shortening ++ [.createKey "iam" "node", .applyCert "iam" (plainText 3 5400)]

theorem succeeds_evicting : twoItems.Succeeds { disk := {} } evicting ∧
    (twoItems.run { disk := {} } evicting).held "iam" = [plainRecord 2 3600, plainRecord 3 5400] ∧
    ¬twoItems.Awaits { disk := {} } evicting "iam" := by
  have hthird : Certificate.ofBytes? (plainBytes 3 5400) = some (plainCert 3 5400) := by
    decide +kernel
  obtain ⟨hsucceeds, hheld⟩ := succeeds_shortening
  have hsound := sound_twoItems.run wellNamed_twoItems shortening
  obtain ⟨hcreates, happlies, hheld'⟩ := renewed hsound hthird
  rw [hheld] at hheld'
  refine ⟨?_, ?_, ?_⟩
  · rw [evicting, succeeds_append, succeeds_cons, succeeds_cons]
    exact ⟨hsucceeds, ⟨"iam", Or.inl hcreates⟩, ⟨"iam", Or.inr happlies⟩, trivial⟩
  · rw [evicting, run_append, run_cons, run_cons, run_nil, hheld']
    simp [CertIndex.added]
  · rw [evicting, List.append_cons, awaits_concat, run_concat]
    rintro (hcreated | ⟨-, hunapplied⟩)
    · cases hcreated
    · exact hunapplied happlies

/-! ## What others see -/

/-- The directory of a type of certificates and its part of the index agree. -/
structure Agree (s : CertStorage) (v : Vault) (m : CertModule) (waits : Prop) : Prop where
  /-- The files in the directory are the certificate and the key of each record, and the key that
  waits, if one does. -/
  files : ∀ n, n ∈ (v.disk.list (s.directory m.id)).toOption.getD [] ↔
    n = pendingFile ∧ waits ∨ ∃ r ∈ v.held m.id, Names r n
  pending : pendingFile ∈ (v.disk.list (s.directory m.id)).toOption.getD [] ↔ waits
  /-- The key of a record is the one for its certificate. -/
  paired : ∀ r ∈ v.held m.id, ∃ certText keyText,
    v.disk.readText (s.certPath m.id r.serialHex) = .ok certText ∧
    v.disk.readText (s.keyPath m.id r.serialHex) = .ok keyText ∧ s.IsPair m.id r certText keyText
  /-- A serial number is that of one record. -/
  distinct : ((v.held m.id).map (·.serial)).Nodup
  bounded : (v.held m.id).length ≤ max 1 m.maxItems

theorem Sound.agree {m : CertModule} {waits : String → Prop} (hs : s.WellNamed)
    (h : s.Sound v waits) (hm : m ∈ s.modules) : s.Agree v m (waits m.id) := by
  obtain ⟨c, hd, hstep⟩ := h
  have ht := hs.plain m hm
  have hfiles : ∀ n, n ∈ (v.disk.list (s.directory m.id)).toOption.getD [] ↔
      n = pendingFile ∧ waits m.id ∨ ∃ r ∈ v.held m.id, Names r n := fun n ↦
    (hd.mem_list (location_directory s ht)).trans ((hstep m.id).files n)
  constructor
  · exact hfiles
  · rw [hfiles, or_iff_left, and_iff_right rfl]
    rintro ⟨r, -, hr⟩
    exact hr.ne_pendingFile rfl
  · intro r hr
    obtain ⟨certText, keyText, hcert, hkey, hpair⟩ := (hstep m.id).paired r hr
    exact ⟨certText, keyText, (hd.readText_eq_ok_iff (location_certPath s ht r.serial)).mpr hcert,
      (hd.readText_eq_ok_iff (location_keyPath s ht r.serial)).mpr hkey, hpair⟩
  · exact (hstep m.id).distinct
  · exact (hstep m.id).bounded m hm rfl

/-- What a run leaves on the disk and in the index. -/
structure Kept (s : CertStorage) (v : Vault) (moves : List Move) : Prop where
  /-- A key waits if one was created and no certificate of its type was applied since. -/
  agree : ∀ m ∈ s.modules, s.Agree (s.run v moves) m (s.Awaits v moves m.id)
  /-- Of a type that is not configured or disabled there is no certificate. -/
  enabled : ∀ t, (∀ m ∈ s.modules, m.id = t → m.disabled = true) → (s.run v moves).held t = []
  /-- The certificate that was just applied is the newest in the index. -/
  newest : ∀ t text r, (s.applyCert t text (s.run v moves)).1 = .ok r →
    ((s.run v (moves ++ [.applyCert t text])).held t).getLast? = some r

/-- **The files are those of the index**, after every run on a disk with nothing in the way: every
certificate in the index is there with the key for it, and nothing else but the key that waits. -/
theorem kept_run (hs : s.WellNamed) (hdisk : v.disk.Vacant s.path) (hindex : ∀ t, v.held t = [])
    (moves : List Move) : s.Kept v moves := by
  have hsound := (sound_of_vacant hdisk hindex).run hs moves
  constructor
  · exact fun m hm ↦ hsound.agree hs hm
  · intro t hdisabled
    obtain ⟨c, -, hstep⟩ := hsound
    by_contra hheld
    obtain ⟨m, hm, hid, henabled⟩ := (hstep t).enabled hheld
    rw [hdisabled m hm hid] at henabled
    cases henabled
  · intro t text r hok
    rw [run_concat]
    rcases hsound.applyCert hs t text with ⟨e, he⟩ | ⟨r', hok', hlast, -⟩
    · rw [he] at hok
      cases hok
    · rw [hok'] at hok
      rw [← Except.ok.inj hok]
      exact hlast

/-- Of three certificates the first had to go, and the others are there with their keys. -/
theorem kept_run_evicting : twoItems.WellNamed ∧ Disk.Vacant {} twoItems.path ∧
    (∀ t, Vault.held { disk := {} } t = []) ∧ twoItems.Succeeds { disk := {} } evicting ∧
    (twoItems.run { disk := {} } evicting).held "iam" = [plainRecord 2 3600, plainRecord 3 5400] ∧
    (∀ n, n ∈ ((twoItems.run { disk := {} } evicting).disk.list
        (twoItems.directory "iam")).toOption.getD [] ↔
      n ∈ ["02.cert.pem", "02.key.pem", "03.cert.pem", "03.key.pem"]) ∧
    twoItems.Kept { disk := {} } evicting := by
  obtain ⟨hsucceeds, hheld, hwaits⟩ := succeeds_evicting
  have hkept : twoItems.Kept { disk := {} } evicting :=
    kept_run wellNamed_twoItems (Disk.vacant_new _) (fun _ ↦ rfl) evicting
  refine ⟨wellNamed_twoItems, Disk.vacant_new _, fun _ ↦ rfl, hsucceeds, hheld, fun n ↦ ?_, hkept⟩
  have hfiles := (hkept.agree _ (List.mem_singleton_self _)).files n
  have hnames : certFile [2] = "02.cert.pem" ∧ keyFile [2] = "02.key.pem" ∧
      certFile [3] = "03.cert.pem" ∧ keyFile [3] = "03.key.pem" := by
    decide +kernel
  obtain ⟨hcert, hkey, hcert', hkey'⟩ := hnames
  rw [hfiles, hheld]
  simp [hwaits, Names, hcert, hkey, hcert', hkey', or_assoc]

end NodeAgent.CertStorage
