import NodeAgent.Certificate.Key
import NodeAgent.Certificate.X509
import NodeAgent.Text.Utf8
/-!
# Requests for certificates

Whoever made a key asks an authority to certify it. The request says for whom, under which other
names and for which uses, and is signed with the key itself.
-/

namespace NodeAgent

/-- What a certificate may be used for. -/
inductive KeyUsage where
  | clientAuth
  | serverAuth
deriving DecidableEq, Inhabited

namespace KeyUsage

/-- The name of the use in configurations. -/
def name : KeyUsage → String
  | clientAuth => "clientAuth"
  | serverAuth => "serverAuth"

/-- The use of a name. -/
def ofName? (n : String) : Option KeyUsage := [clientAuth, serverAuth].find? (·.name = n)

/-- The number of the use. -/
def number : KeyUsage → Nat
  | clientAuth => 2
  | serverAuth => 1

/-- What says the use in a request. -/
def identifier (u : KeyUsage) : List Nat := [1, 3, 6, 1, 5, 5, 7, 3, u.number]

end KeyUsage

/-- What a request asks for. -/
structure CertRequest where
  subject : String
  alternativeNames : List String := []
  usages : List KeyUsage := []
deriving DecidableEq, Inhabited

namespace CertRequest

open Der (Reader)

/-! ## What names the parts of a request -/

/-- The main attribute of a name. -/
def commonName : List Nat := [2, 5, 4, 3]

/-- The attribute of a request that holds extensions. -/
def extensionsAttribute : List Nat := [1, 2, 840, 113549, 1, 9, 14]

def alternativeNamesExtension : List Nat := [2, 5, 29, 17]

def usagesExtension : List Nat := [2, 5, 29, 37]

/-- What says how a signature is made. -/
def signatureAlgorithm : Bytes := Der.sequence [Der.identifier [1, 2, 840, 10045, 4, 3, 2]]

/-! ## Writing -/

/-- The name that consists of its main attribute. -/
def plainName (s : String) : Bytes :=
  Der.sequence
    [Der.write .set (Der.sequence
      [Der.identifier commonName, Der.write .utf8Text (Text.Utf8.encode s)])]

/-- An extension. -/
def extension (name : List Nat) (content : Bytes) : Bytes :=
  Der.sequence [Der.identifier name, Der.write .octetString content]

/-- The extensions that are asked for. -/
def extensions (r : CertRequest) : List Bytes :=
  (if r.alternativeNames = [] then [] else
    [extension alternativeNamesExtension
      (Der.sequence (r.alternativeNames.map fun n ↦
        Der.write (.part 2 false) (Text.Utf8.encode n)))]) ++
  (if r.usages = [] then [] else
    [extension usagesExtension (Der.sequence (r.usages.map fun u ↦ Der.identifier u.identifier))])

/-- What is signed. -/
def signedBytes (r : CertRequest) (key : PrivateKey) : Bytes :=
  let attributes := if r.extensions = [] then [] else
    [Der.sequence [Der.identifier extensionsAttribute, Der.write .set (Der.sequence r.extensions)]]
  Der.sequence
    [Der.natural 0, plainName r.subject, key.publicInfo,
      Der.write (.part 0 true) attributes.flatten]

/-- A signature with a key on a curve; `drawn` is a number that is drawn for it alone. -/
def signature (key : PrivateKey) (drawn : Nat) (signed : Bytes) : Bytes :=
  match key with
  | .curve c secret =>
    let digest := Bytes.toNat (Sha2.sha256.digest signed)
    let (r, s) := c.sign secret digest (drawn % (c.order - 1) + 1)
    Der.sequence [Der.natural r, Der.natural s]
  | .edwards _ | .rsa _ _ => []

/-- The request as bytes, signed with the key that it is about. -/
def bytes (r : CertRequest) (key : PrivateKey) (drawn : Nat) : Bytes :=
  let signed := r.signedBytes key
  Der.sequence [signed, signatureAlgorithm, Der.bits (signature key drawn signed)]

/-- The label of a request. -/
def label : String := "CERTIFICATE REQUEST"

/-- The request as text. -/
def text (r : CertRequest) (key : PrivateKey) (drawn : Nat) : String :=
  Text.Armour.render ⟨label, r.bytes key drawn⟩

/-! ## Reading -/

/-- The texts of an attribute in a name. -/
def textsOf (kind : List Nat) (name : List (List (Bytes × Bytes))) : List String :=
  (name.flatten.filter (·.1 = Der.identifierBytes kind)).filterMap fun a ↦
    (Text.Utf8.decode a.2).toOption

/-- Reads the attributes of a request: the extensions in them. -/
def readAttributes : Reader (List (Bytes × Bytes)) := do
  let found ← Der.Reader.many (Der.Reader.inside .sequence do
    let name ← Der.Reader.content .identifier
    let content ← Der.Reader.content .set
    if name = Der.identifierBytes extensionsAttribute then
      match Certificate.readExtensions.of? content with
      | some es => return es
      | none => failure
    else return [])
  return found.flatten

/-- What is asked for by extensions. -/
def ofExtensions (subject : String) (es : List (Bytes × Bytes)) : CertRequest :=
  let named (name : List Nat) (r : Reader Bytes) : List Bytes :=
    (es.filter (·.1 = Der.identifierBytes name)).flatMap fun e ↦
      ((Der.Reader.inside .sequence (Der.Reader.many r)).of? e.2).getD []
  let usages := named usagesExtension (Der.Reader.content .identifier)
  { subject
    alternativeNames :=
      (named alternativeNamesExtension (Der.Reader.content (.part 2 false))).filterMap fun n ↦
        (Text.Utf8.decode n).toOption
    usages := [KeyUsage.clientAuth, .serverAuth].filter fun u ↦
      usages.contains (Der.identifierBytes u.identifier) }

/-- Reads a request: what it asks for, and the public key with its sort. -/
def read : Reader (CertRequest × Bytes) :=
  Der.Reader.inside .sequence do
    let asked ← Der.Reader.inside .sequence do
      let _ ← Der.Reader.natural
      let name ← Certificate.readName
      let publicInfo ← Der.Reader.whole .sequence
      let es ← Der.Reader.inside (.part 0 true) readAttributes
      return (ofExtensions ((textsOf commonName name).headD "") es, publicInfo)
    Certificate.readAlgorithm
    let _ ← Der.Reader.content .bitString
    return asked

/-- What the request in a text asks for, and the public key with its sort. -/
def ofText? (text : String) : Option (CertRequest × Bytes) :=
  match Text.Armour.parse text with
  | .error _ => none
  | .ok block => if block.label = label then read.of? block.data else none

end CertRequest

end NodeAgent
