import NodeAgent.Node.Site
import NodeAgent.Table
/-!
# Rehearsed sites

A site that is a record in memory: its answers are set from outside, any of its functions can be
made to fail, and it keeps a log of what was done to it. It shows what a request would do to a real
node without there being one.
-/

namespace NodeAgent

/-- The functions of a site that can be made to fail. -/
inductive SiteFunction where
  | getNodeInfo
  | setNodeStatus
  | getSystemId
  | getUnitModel
  | getSubjects
  | getCertTypes
  | startProvisioning
  | finishProvisioning
  | deprovision
  | createKey
  | applyCert
deriving DecidableEq

namespace SiteFunction

/-- The name of the function in logs. -/
def name : SiteFunction → String
  | getNodeInfo => "get_node_info"
  | setNodeStatus => "set_node_status"
  | getSystemId => "get_system_id"
  | getUnitModel => "get_unit_model"
  | getSubjects => "get_subjects"
  | getCertTypes => "get_cert_types"
  | startProvisioning => "start_provisioning"
  | finishProvisioning => "finish_provisioning"
  | deprovision => "deprovision"
  | createKey => "create_key"
  | applyCert => "apply_cert"

/-- Every function. -/
def all : List SiteFunction :=
  [getNodeInfo, setNodeStatus, getSystemId, getUnitModel, getSubjects, getCertTypes,
    startProvisioning, finishProvisioning, deprovision, createKey, applyCert]

/-- The function of a name. -/
def ofName? (n : String) : Option SiteFunction := all.find? (·.name == n)

end SiteFunction

/-- What an identity answers. -/
structure IdentityScript where
  systemId : String := ""
  unitModel : String := ""
  subjects : List String := []

/-- The world of a rehearsed site. -/
structure Rehearsal where
  node : NodeInfo := {}
  identity : IdentityScript := {}
  certTypes : List String := []
  /-- The failures of the functions that are to fail. -/
  failing : Table SiteFunction ServiceError := {}
  /-- What was done, first to last. -/
  log : List String := []
  certs : CertIndex := {}

namespace Rehearsal

/-- The result of a function, unless it is to fail. -/
def guarded {α : Type} (f : SiteFunction) (a : Rehearsal → α) (w : Rehearsal) :
    Except ServiceError α :=
  match w.failing.get? f with
  | some e => .error e
  | none => .ok (a w)

/-- The world with one more entry in the log. -/
def logged (f : SiteFunction) (args : List String) (w : Rehearsal) : Rehearsal :=
  { w with log := w.log ++ [f.name ++ "(" ++ ",".intercalate args ++ ")"] }

/-- A function that is logged and whose result depends on its arguments. -/
def scripted {α : Type} (f : SiteFunction) (args : List String) (a : Rehearsal → α) :
    Action Rehearsal α := fun w ↦ (guarded f a w, logged f args w)

/-- Sets the status of the node. -/
def setStatus (s : NodeStatus) : Action Rehearsal Unit :=
  (scripted .setNodeStatus [s.label] fun _ ↦ ()).andThen fun _ w ↦
    (.ok (), { w with node := w.node.withStatus s })

/-- The rehearsed site; `hasIdentity` says whether an identity is configured. -/
def site (hasIdentity : Bool) : Site Rehearsal where
  nodeInfo := guarded .getNodeInfo (·.node)
  setStatus := setStatus
  identity :=
    if hasIdentity then
      some
        { systemId := guarded .getSystemId (·.identity.systemId)
          unitModel := guarded .getUnitModel (·.identity.unitModel)
          subjects := guarded .getSubjects (·.identity.subjects) }
    else none
  certTypes := scripted .getCertTypes [] (·.certTypes)
  startProvisioning password := scripted .startProvisioning [password] fun _ ↦ ()
  finishProvisioning password := scripted .finishProvisioning [password] fun _ ↦ ()
  deprovision password := scripted .deprovision [password] fun _ ↦ ()
  createKey certType subject password :=
    scripted .createKey [certType, subject, password] fun _ ↦
      ":".intercalate ["csr", certType, subject, password]
  applyCert certType cert :=
    scripted .applyCert [certType, cert] fun _ ↦ ⟨"url:" ++ certType, "serial:" ++ cert⟩
  certs := (·.certs)
  putCerts x w := { w with certs := x }

end Rehearsal

end NodeAgent
