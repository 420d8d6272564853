import NodeAgent.Crypto.Edwards
import NodeAgent.Crypto.Weierstrass
import NodeAgent.Der.Basic
import NodeAgent.Text.Armour
/-!
# Private keys

A private key tells its public key, and that is all that is asked of it when a certificate comes for
it: the public key in the certificate must be the key's own. Keys of three sorts are read, in the
common form that says what sort of key it holds; a key that contradicts itself, because the public
key that is kept beside it is another one, is none. New keys are of one sort only.
-/

namespace NodeAgent

/-- A private key. -/
inductive PrivateKey where
  | curve (c : Curve) (secret : Nat)
  | edwards (seed : Bytes)
  /-- Kept as its public part. -/
  | rsa (modulus exponent : Nat)
deriving DecidableEq

namespace PrivateKey

open Der (Reader)

/-- The public key, as a certificate has it. -/
def publicBytes : PrivateKey → Bytes
  | curve c secret => c.publicBytes secret
  | edwards seed => Edwards.publicBytes seed
  | rsa modulus exponent => Der.sequence [Der.natural modulus, Der.natural exponent]

/-! ## Sorts of key -/

/-- What says that a key is on a curve. -/
def onCurve : Bytes := Der.identifier [1, 2, 840, 10045, 2, 1]

/-- What says which curve a key is on. -/
def curveName (c : Curve) : Bytes :=
  if c = .p384 then Der.identifier [1, 3, 132, 0, 34]
  else Der.identifier [1, 2, 840, 10045, 3, 1, 7]

/-- The curves that are known. -/
def curves : List Curve := [.p256, .p384]

/-- What says that a key is on the Edwards curve. -/
def onEdwards : Bytes := Der.identifier [1, 3, 101, 112]

/-- What says that a key is a modulus with an exponent. -/
def ofModulus : Bytes := Der.identifier [1, 2, 840, 113549, 1, 1, 1] ++ Der.write .null []

/-! ## Reading -/

/-- Reads a number that has to be `n`. -/
def exactly (n : Nat) : Reader Unit := do if (← Der.Reader.natural) = n then return else failure

/-- Reads a key on a curve. The public key has to be there, and the right one. -/
def readCurve (c : Curve) : Reader PrivateKey := do
  exactly 1
  let secret ← Der.Reader.content .octetString
  let name ← Der.Reader.content? (.part 0 true)
  let publicBytes ← Der.Reader.inside (.part 1 true) Der.Reader.bits
  let key := curve c (Bytes.toNat secret)
  if secret.length = c.width ∧ c.isSecret (Bytes.toNat secret) ∧ name.all (· = curveName c) ∧
    key.publicBytes = publicBytes then return key
  else failure

/-- Reads a key on the Edwards curve. -/
def readEdwards : Reader PrivateKey := do
  let seed ← Der.Reader.content .octetString
  if seed.length = 32 then return edwards seed else failure

/-- Reads a modulus with its factors and exponents. The modulus has to be long enough. -/
def readModulus : Reader PrivateKey := do
  exactly 0
  let modulus ← Der.Reader.natural
  let exponent ← Der.Reader.natural
  let _ ← Der.Reader.natural
  let p ← Der.Reader.natural
  let q ← Der.Reader.natural
  let _ ← Der.Reader.many Der.Reader.natural
  if Nat.pow 2 2046 ≤ modulus ∧ modulus < Nat.pow 2 4096 ∧ p * q = modulus ∧ exponent % 2 = 1 ∧
    3 ≤ exponent
  then return rsa modulus exponent
  else failure

/-- The key in a content, by what is said of its sort. -/
def ofContent? (sort content : Bytes) : Option PrivateKey :=
  match curves.find? fun c ↦ sort = onCurve ++ curveName c with
  | some c => (Der.Reader.inside .sequence (readCurve c)).of? content
  | none =>
    if sort = onEdwards then readEdwards.of? content
    else if sort = ofModulus then (Der.Reader.inside .sequence readModulus).of? content
    else none

/-- Reads a key in the form that says its sort. The second version of the form has the public key
beside the private one; only keys on the Edwards curve come in it. -/
def read : Reader PrivateKey := do
  let version ← Der.Reader.natural
  let sort ← Der.Reader.content .sequence
  let content ← Der.Reader.content .octetString
  let _ ← Der.Reader.content? (.part 0 true)
  let publicBytes ← if version = 1 then some <$> Der.Reader.content (.part 1 false) else pure none
  match ofContent? sort content with
  | none => failure
  | some key =>
    if version ≤ 1 ∧ (version = 0 ∨ sort = onEdwards) ∧
      publicBytes.all (· = 0 :: key.publicBytes) then return key
    else failure

/-- The key that bytes hold. -/
def ofBytes? (bs : Bytes) : Option PrivateKey := (Der.Reader.inside .sequence read).of? bs

/-- The key that bytes hold in a form of its sort alone. The label of the block says which. -/
def ofPlain? (label : String) (bs : Bytes) : Option PrivateKey :=
  if label = "EC PRIVATE KEY" then
    curves.findSome? fun c ↦ (Der.Reader.inside .sequence (readCurve c)).of? bs
  else if label = "RSA PRIVATE KEY" then (Der.Reader.inside .sequence readModulus).of? bs
  else none

/-- The key in a text, or what is wrong with the text. -/
def ofText (text : String) : Except String PrivateKey :=
  match Text.Armour.parse text with
  | .error e => .error e.message
  | .ok block =>
    match ofBytes? block.data with
    | some key => .ok key
    | none => .error "no private key of a known sort"

/-! ## Writing -/

/-- A new key: the `drawn` number picks it. -/
def new (drawn : Nat) : PrivateKey := curve .p256 (drawn % (Curve.p256.order - 1) + 1)

/-- What says the sort of a key. -/
def sort : PrivateKey → Bytes
  | curve c _ => onCurve ++ curveName c
  | edwards _ => onEdwards
  | rsa _ _ => ofModulus

/-- The bytes of a key on a curve. -/
def curveBytes (c : Curve) (secret : Nat) : Bytes :=
  Der.sequence
    [Der.natural 1, Der.write .octetString (Bytes.ofNat c.width secret),
      Der.write (.part 1 true) (Der.bits (c.publicBytes secret))]

/-- The key as text, if it is one on a curve. -/
def text : PrivateKey → String
  | curve c secret =>
    Text.Armour.render ⟨"PRIVATE KEY",
      Der.sequence
        [Der.natural 0, Der.write .sequence (onCurve ++ curveName c),
          Der.write .octetString (curveBytes c secret)]⟩
  | edwards _ | rsa _ _ => ""

/-- The public key with its sort. -/
def publicInfo (key : PrivateKey) : Bytes :=
  Der.sequence [Der.write .sequence key.sort, Der.bits key.publicBytes]

end PrivateKey

end NodeAgent
