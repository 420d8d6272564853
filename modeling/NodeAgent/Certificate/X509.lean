import NodeAgent.Der.Time
import NodeAgent.Text.Armour
/-!
# Certificates

A certificate binds a public key to a name until some time, and its issuer signed it. The agent
trusts whoever installs it and does not check the signature: it wants to know which certificate it
is, how long it lasts, and whose key is in it. All the same the whole certificate has to be well
formed. What follows the certificate in its block is ignored.
-/

namespace NodeAgent

/-- What is of interest in a certificate. -/
structure Certificate where
  /-- The name of the issuer, as it is written. -/
  issuer : Bytes
  /-- The bytes of the serial number. -/
  serial : Bytes
  /-- When it expires, in seconds since 1970. -/
  notAfter : Int
  publicKey : Bytes
  /-- Whether it has the form with extensions. -/
  isThirdVersion : Bool
deriving DecidableEq, Inhabited

namespace Certificate

open Der (Reader)

/-! ## Parts of a certificate -/

/-- Reads an identifier with parameters. -/
def readAlgorithm : Reader Unit :=
  Der.Reader.inside .sequence do
    let _ ← Der.Reader.content .identifier
    let _ ← Der.Reader.many Der.Reader.any

/-- Reads one attribute of a name: which one, and its value. -/
def readAttribute : Reader (Bytes × Bytes) :=
  Der.Reader.inside .sequence do
    return (← Der.Reader.content .identifier, (← Der.Reader.any).2)

/-- Reads a name. -/
def readName : Reader (List (List (Bytes × Bytes))) :=
  Der.Reader.inside .sequence
    (Der.Reader.many (Der.Reader.inside .set (Der.Reader.many readAttribute)))

/-- Reads an extension: which one, and its content. -/
def readExtension : Reader (Bytes × Bytes) :=
  Der.Reader.inside .sequence do
    let name ← Der.Reader.content .identifier
    let _ ← Der.Reader.content? .boolean
    return (name, ← Der.Reader.content .octetString)

/-- Reads extensions. -/
def readExtensions : Reader (List (Bytes × Bytes)) :=
  Der.Reader.inside .sequence (Der.Reader.many readExtension)

/-- Reads a public key with its sort; gives the key alone. -/
def readPublicKey : Reader Bytes :=
  Der.Reader.inside .sequence do
    readAlgorithm
    match ← Der.Reader.content .bitString with
    | _ :: key => return key
    | [] => failure

/-! ## Whole certificates -/

/-- Reads what is signed. -/
def readSigned : Reader Certificate := do
  let version ← Der.Reader.inside? (.part 0 true) Der.Reader.natural
  let serial ← Der.Reader.content .integer
  readAlgorithm
  let before ← get
  let _ ← readName
  let issuer := before.take (before.length - (← get).length)
  let notAfter ← Der.Reader.inside .sequence do
    let _ ← Der.Reader.time
    Der.Reader.time
  let _ ← readName
  let publicKey ← readPublicKey
  let _ ← Der.Reader.content? (.part 1 false)
  let _ ← Der.Reader.content? (.part 2 false)
  let _ ← Der.Reader.inside? (.part 3 true) readExtensions
  if serial = [] ∨ version.any (2 < ·) then failure
  else return { issuer, serial, notAfter, publicKey, isThirdVersion := version = some 2 }

/-- Reads a certificate. -/
def read : Reader Certificate :=
  Der.Reader.inside .sequence do
    let c ← Der.Reader.inside .sequence readSigned
    readAlgorithm
    let _ ← Der.Reader.content .bitString
    return c

/-- The certificate at the front of bytes. -/
def ofBytes? (bs : Bytes) : Option Certificate := (read bs).map (·.1)

/-! ## Certificates as text -/

/-- Why a text is not taken for a certificate. -/
inductive Error where
  | noBlock (e : Text.Armour.Error)
  | wrongLabel (label : String)
  | malformed
deriving DecidableEq

/-- The wording of the failure. -/
def Error.message : Error → String
  | noBlock e => "bad certificate PEM: " ++ e.message
  | wrongLabel label => "unexpected PEM block " ++ label
  | malformed => "bad certificate: malformed"

/-- The certificate in the first block of a text. -/
def ofText (text : String) : Except Error Certificate :=
  match Text.Armour.parse text with
  | .error e => .error (.noBlock e)
  | .ok block =>
    if block.label ≠ "CERTIFICATE" then .error (.wrongLabel block.label)
    else
      match ofBytes? block.data with
      | some c => .ok c
      | none => .error .malformed

end Certificate

end NodeAgent
