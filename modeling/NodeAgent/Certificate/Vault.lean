import NodeAgent.Certificate.Index
import NodeAgent.Certificate.Request
import NodeAgent.Config.Basic
import NodeAgent.Disk.Basic
import NodeAgent.Node.Site
/-!
# Keys and certificates on a disk

Every type of certificate has a directory of its own. A new key waits there until a certificate for
it is applied; then the two are kept side by side under the certificate's serial number:

* `pending.key.pem`, the key that waits,
* `<SERIAL>.cert.pem` and `<SERIAL>.key.pem`, a certificate and its key.

A certificate is applied only if the public key in it is that of the waiting key. Whatever is wrong
with it is found out before anything on the disk changes. The index tells what is installed, and
what it drops is removed from the disk. An index can also be made anew from the disk: then the
certificates are in the order in which they expire.
-/

namespace NodeAgent

/-- Where certificates are kept, and of which types. -/
structure CertStorage where
  path : Path
  modules : List CertModule
  /-- The random numbers that keys are made of. -/
  random : Nat → Nat

/-- A disk with the index of the certificates that are installed on it. -/
structure Vault where
  disk : Disk
  index : CertIndex := {}
  /-- How many random numbers were used. -/
  drawn : Nat := 0

namespace CertStorage

variable (s : CertStorage)

/-! ## Files -/

/-- The ending of the names of certificates. -/
def certSuffix : String := ".cert.pem"

/-- The ending of the names of keys. -/
def keySuffix : String := ".key.pem"

/-- The directory of a type. -/
def directory (certType : String) : Path := s.path.join certType

/-- The key of a type that waits for its certificate. -/
def pendingPath (certType : String) : Path := (s.directory certType).join ("pending" ++ keySuffix)

/-- A certificate of a type, by its serial number in hexadecimal. -/
def certPath (certType serial : String) : Path := (s.directory certType).join (serial ++ certSuffix)

/-- The key of a certificate of a type. -/
def keyPath (certType serial : String) : Path := (s.directory certType).join (serial ++ keySuffix)

/-- Something cannot be done with a file. -/
def fileFailed (what : String) (p : Path) (e : FileError) : ServiceError :=
  .general (what ++ " " ++ p ++ ": " ++ e.message)

/-- Does something with a file of the vault. -/
def onDisk (what : String) (p : Path) (f : Disk → Except FileError Unit × Disk) :
    Action Vault Unit := fun v ↦
  let (r, disk) := f v.disk
  (r.mapError (fileFailed what p), { v with disk })

/-! ## Types -/

/-- The module of a type. Of several with one name the last counts, and only if it is enabled. -/
def moduleOf (certType : String) : Except ServiceError CertModule :=
  match s.modules.reverse.find? (·.id = certType) with
  | some m => if m.disabled then .error (.notFound ("cert type " ++ certType)) else .ok m
  | none => .error (.notFound ("cert type " ++ certType))

/-! ## Keys -/

/-- Fails unless new keys are of the sort that a module asks for. -/
def checkAlgorithm (m : CertModule) : Except ServiceError Unit :=
  let name := String.ofList (m.algorithm.toList.map Char.toLower)
  if name ∈ ["", "ecc", "ecdsa"] then .ok ()
  else .error (.invalidArgument ("unsupported key algorithm " ++ name))

/-- Fails unless every character of a name is a basic one. -/
def checkName (n : String) : Except ServiceError Unit :=
  if n.toList.all (·.toNat < 128) then .ok ()
  else
    .error (.invalidArgument
      ("invalid alternative name " ++ n ++ ": Invalid IA5String: '" ++ n ++ "'"))

/-- The request for a certificate of a module. Uses that are not known are left out. -/
def requestFor (m : CertModule) (subject : String) : Except ServiceError CertRequest := do
  if subject = "" then throw (.invalidArgument "subject can't be empty")
  checkAlgorithm m
  m.alternativeNames.forM checkName
  return ⟨subject, m.alternativeNames, m.extendedKeyUsage.filterMap KeyUsage.ofName?⟩

/-- Makes a key, keeps it until its certificate comes, and gives the request for that. -/
def createKey (certType subject : String) : Action Vault String := fun v ↦
  match (s.moduleOf certType).bind (requestFor · subject) with
  | .error e => (.error e, v)
  | .ok request =>
    let key := PrivateKey.new (s.random v.drawn)
    let text := request.text key (s.random (v.drawn + 1))
    let directory := s.directory certType
    let pending := s.pendingPath certType
    (onDisk "create" directory (·.makeDirs directory)).andThen (fun _ ↦
      (onDisk "write" pending (·.writeText pending key.text)).andThen fun _ ↦ .done text)
      { v with drawn := v.drawn + 2 }

/-! ## Certificates -/

/-- The key that waits for a certificate of a type. -/
def pendingKey (certType : String) (d : Disk) : Except ServiceError PrivateKey :=
  match d.readText (s.pendingPath certType) with
  | .error .notFound => .error (.wrongState ("no pending key for " ++ certType))
  | .error e => .error (fileFailed "read" (s.pendingPath certType) e)
  | .ok text =>
    (PrivateKey.ofText text).mapError fun reason ↦ .general ("bad pending key: " ++ reason)

/-- The record of a certificate of a type that is at a path. -/
def recordOf (certType : String) (c : Certificate) (certPath : Path) : CertRecord where
  certType := certType
  issuer := c.issuer
  serial := c.serial
  certUrl := urlOfFile certPath
  keyUrl := urlOfFile (s.keyPath certType (Text.Hex.encodeUpper c.serial))
  notAfter := c.notAfter

/-- The certificate in a text, if it is one for a key. -/
def certFor (key : PrivateKey) (text : String) : Except ServiceError Certificate :=
  match Certificate.ofText text with
  | .error e => .error (.invalidArgument e.message)
  | .ok c =>
    if c.publicKey = key.publicBytes then .ok c
    else .error (.invalidArgument "certificate doesn't match the pending key")

/-- Removes the files of a record. Those that cannot be removed stay. -/
def removeFiles (d : Disk) (r : CertRecord) : Disk :=
  [r.certUrl, r.keyUrl].foldl (fun d url ↦ (fileOfUrl? url).elim d fun p ↦ (d.remove p).2) d

/-- Enters a record into the index and removes the files of those that had to go. -/
def enter (maxItems : Nat) (r : CertRecord) (v : Vault) : Vault :=
  let (evicted, index) := v.index.add r maxItems
  { v with index, disk := evicted.foldl removeFiles v.disk }

/-- Applies the certificate in a text to the key that waits for it. -/
def applyCert (certType text : String) : Action Vault CertRecord := fun v ↦
  match (do
    let m ← s.moduleOf certType
    let key ← s.pendingKey certType v.disk
    let c ← certFor key text
    return (m, c) : Except ServiceError (CertModule × Certificate)) with
  | .error e => (.error e, v)
  | .ok (m, c) =>
    let serial := Text.Hex.encodeUpper c.serial
    let certPath := s.certPath certType serial
    let pending := s.pendingPath certType
    let record := s.recordOf certType c certPath
    (onDisk "write" certPath (·.writeText certPath text)).andThen (fun _ ↦
      (onDisk "rename" pending (·.rename pending (s.keyPath certType serial))).andThen fun _ v ↦
        (.ok record, enter m.maxItems record v)) v

/-! ## Loading -/

/-- The record of the certificate at a path, if there is a readable one. -/
def recordAt? (certType : String) (d : Disk) (p : Path) : Option CertRecord :=
  match d.readText p with
  | .error _ => none
  | .ok text => (Certificate.ofText text).toOption.map fun c ↦ s.recordOf certType c p

/-- The records of the certificates in the directory of a type, in the order in which they
expire. -/
def recordsIn? (certType : String) (d : Disk) : Option (List CertRecord) :=
  match d.list (s.directory certType) with
  | .error _ => none
  | .ok names =>
    let paths := (names.map (s.directory certType).join).filter fun p ↦
      certSuffix.toList.isSuffixOf p.toList
    some ((paths.filterMap (s.recordAt? certType d)).mergeSort fun a b ↦ a.notAfter ≤ b.notAfter)

/-- The index of what is installed on a disk. A type without a directory is not in it. -/
def load (d : Disk) : CertIndex where
  certs := s.modules.foldl (fun certs m ↦
    match s.recordsIn? m.id d with
    | none => certs
    | some records => certs.insert m.id records) {}

end CertStorage

end NodeAgent
