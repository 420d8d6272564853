import NodeAgent.Error
import NodeAgent.Table
/-!
# Permissions of service instances

A service instance registers the permissions it has at each functional server and is given a
secret. Whoever presents the secret to the registry learns the instance and its permissions at one
server. Registering an instance that is registered already gives its secret again and changes
nothing, not even its permissions.

Secrets come from outside: an operation that may need one is handed a fresh one.
-/

namespace NodeAgent

/-- A running instance of a service. -/
structure InstanceIdent where
  serviceId : String := ""
  subjectId : String := ""
  number : Nat := 0
deriving DecidableEq, Inhabited

/-- Unlocks the permissions of one instance. -/
abbrev Secret := String

/-- The permissions at one functional server. -/
abbrev ServerPermissions := List (String × String)

/-- What is kept for a registered instance. -/
structure PermissionEntry where
  secret : Secret
  /-- The permissions at each functional server. -/
  permissions : List (String × ServerPermissions)

/-- The registered instances. -/
structure PermissionRegistry where
  /-- How many instances fit. -/
  capacity : Nat := 128
  entries : Table InstanceIdent PermissionEntry := {}

namespace PermissionRegistry

/-- Registers an instance and gives its secret: the one it has, or `fresh` for a new one. -/
def register (r : PermissionRegistry) (fresh : Secret) (inst : InstanceIdent)
    (permissions : List (String × ServerPermissions)) :
    Except ServiceError Secret × PermissionRegistry :=
  match r.entries.get? inst with
  | some entry => (.ok entry.secret, r)
  | none =>
    if r.capacity ≤ r.entries.size then
      (.error (.resourceExhausted "max registered instances reached"), r)
    else (.ok fresh, { r with entries := r.entries.insert inst ⟨fresh, permissions⟩ })

/-- Forgets a registered instance and its secret. -/
def unregister (r : PermissionRegistry) (inst : InstanceIdent) :
    Except ServiceError Unit × PermissionRegistry :=
  if r.entries.contains inst then (.ok (), { r with entries := r.entries.erase inst })
  else (.error (.notFound ("instance " ++ inst.serviceId)), r)

/-- The instance a secret was given to and its permissions at a functional server. -/
def lookup (r : PermissionRegistry) (secret : Secret) (server : String) :
    Except ServiceError (InstanceIdent × ServerPermissions) :=
  match r.entries.entries.find? fun e ↦ e.2.secret = secret with
  | none => .error (.notFound "secret")
  | some (inst, entry) =>
    match entry.permissions.lookup server with
    | none => .error (.notFound ("functional server " ++ server))
    | some permissions => .ok (inst, permissions)

end PermissionRegistry

end NodeAgent
