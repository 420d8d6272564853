import NodeAgent.Crypto.Bytes
import NodeAgent.Error
import NodeAgent.Table
import NodeAgent.Text.Hex
/-!
# The index of installed certificates

For each type the index holds the installed certificates in the order in which they were added,
newest last. Adding one replaces the certificate of the same serial number, keeps the newest few
and says which ones had to go, oldest first, so that their files can be removed. Whoever subscribed
to the type is told.
-/

namespace NodeAgent

/-- An installed certificate. -/
structure CertRecord where
  certType : String
  /-- The encoded name of the issuer. -/
  issuer : Bytes
  /-- The bytes of the serial number. -/
  serial : Bytes
  /-- Where the certificate is. -/
  certUrl : String
  /-- Where its private key is. -/
  keyUrl : String
  /-- When it expires, in seconds since 1970. -/
  notAfter : Int
deriving DecidableEq, Inhabited

/-- What a lookup tells about a certificate. -/
structure CertInfo where
  certType : String := ""
  keyUrl : String := ""
  certUrl : String := ""
deriving DecidableEq, Inhabited

namespace CertRecord

/-- The serial number in upper-case hexadecimal. -/
def serialHex (r : CertRecord) : String := Text.Hex.encodeUpper r.serial

/-- What a lookup tells about the certificate. -/
def info (r : CertRecord) : CertInfo := ⟨r.certType, r.keyUrl, r.certUrl⟩

end CertRecord

/-- The path of a location, if it is that of a file. -/
def fileOfUrl? (url : String) : Option String :=
  let cs := url.toList
  let scheme := "file://".toList
  if scheme.isPrefixOf cs then some (String.ofList (cs.drop scheme.length)) else none

/-- The location of a file. -/
def urlOfFile (path : String) : String := "file://" ++ path

/-- Names a subscription to certificate changes. -/
abbrev SubscriptionId := String

/-- The installed certificates of every type. -/
structure CertIndex where
  certs : Table String (List CertRecord) := {}
  /-- The certificate type each subscription follows. -/
  subscriptions : Table SubscriptionId String := {}
  /-- What subscriptions were told and have not been handed yet. -/
  news : List (SubscriptionId × CertInfo) := []
deriving Inhabited

namespace CertIndex

/-- The certificates of a type after `record` was added; at most `max 1 maxItems` remain. The first
component is what had to go, oldest first. -/
def added (held : List CertRecord) (record : CertRecord) (maxItems : Nat) :
    List CertRecord × List CertRecord :=
  let all := held.filter (fun r ↦ r.serial ≠ record.serial) ++ [record]
  all.splitAt (all.length - max 1 maxItems)

/-- The subscriptions that are told about a certificate of the type. -/
def followers (x : CertIndex) (certType : String) : List SubscriptionId :=
  (x.subscriptions.entries.filter fun e ↦ e.2 = certType).map (·.1)

/-- Adds a certificate, tells the followers of its type, and gives the certificates that had to go,
oldest first. -/
def add (x : CertIndex) (record : CertRecord) (maxItems : Nat) : List CertRecord × CertIndex :=
  let held := (x.certs.get? record.certType).getD []
  let (evicted, kept) := added held record maxItems
  (evicted,
    { x with
      certs := x.certs.insert record.certType kept
      news := x.news ++ (x.followers record.certType).map fun id ↦ (id, record.info) })

/-- Hands out what some of the subscriptions were told. -/
def takeNewsOf (x : CertIndex) (mine : SubscriptionId → Bool) :
    List (SubscriptionId × CertInfo) × CertIndex :=
  (x.news.filter fun n ↦ mine n.1, { x with news := x.news.filter fun n ↦ !mine n.1 })

/-- Hands out what subscriptions were told. -/
def takeNews (x : CertIndex) : List (SubscriptionId × CertInfo) × CertIndex :=
  (x.news, { x with news := [] })

@[simp] theorem takeNewsOf_true (x : CertIndex) : (x.takeNewsOf fun _ ↦ true) = x.takeNews := by
  simp [takeNewsOf, takeNews]

/-- Looks up a certificate: the newest of the type if no serial number is given, else the one with
the serial number, whose issuer must agree if one is given. -/
def get (x : CertIndex) (certType : String) (issuer serial : Bytes) :
    Except ServiceError CertInfo :=
  match x.certs.get? certType with
  | none => .error (.notFound ("cert type " ++ certType))
  | some held =>
    let found :=
      if serial = [] then held.getLast?
      else held.reverse.find? fun r ↦ r.serial = serial ∧ (issuer = [] ∨ r.issuer = issuer)
    match found with
    | none => .error (.notFound ("certificate of type " ++ certType))
    | some r => .ok r.info

/-- Follows a certificate type under a fresh identifier. -/
def subscribe (x : CertIndex) (id : SubscriptionId) (certType : String) : CertIndex :=
  { x with subscriptions := x.subscriptions.insert id certType }

/-- Ends a subscription. -/
def unsubscribe (x : CertIndex) (id : SubscriptionId) : Except ServiceError Unit × CertIndex :=
  if x.subscriptions.contains id then
    (.ok (), { x with subscriptions := x.subscriptions.erase id })
  else (.error (.notFound ("subscription " ++ id)), x)

end CertIndex

end NodeAgent
