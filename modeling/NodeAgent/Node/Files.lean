import NodeAgent.Certificate.Vault
import NodeAgent.Identity.Files
import NodeAgent.Node.Record
import NodeAgent.Provisioning.Basic
/-!
# The site of a node on a disk

What a node keeps in files, taken together: its own record, its identity, its keys and certificates.
All of it is on one disk, and the commands that provision the node run on that disk too. What is
kept in memory besides is what was read when the node came up, so the files may have changed since.
-/

namespace NodeAgent

/-- The files of a node, with what was read from them. -/
structure NodeFiles where
  vault : Vault
  record : NodeRecord
  identity : Option IdentityFiles

namespace NodeFiles

/-- The disk that the files are on. -/
def disk (w : NodeFiles) : Disk := w.vault.disk

/-- The files on a disk that changed. -/
def withDisk (w : NodeFiles) (d : Disk) : NodeFiles := { w with vault.disk := d }

/-! ## Parts of the site -/

variable {α : Type}

/-- Does something with the keys and certificates. -/
def inVault (a : Action Vault α) : Action NodeFiles α := fun w ↦
  let (r, vault) := a w.vault
  (r, { w with vault })

/-- Does something with the disk. -/
def onDisk (a : Action Disk α) : Action NodeFiles α := fun w ↦
  let (r, d) := a w.disk
  (r, w.withDisk d)

/-- Sets the status of the node. -/
def setStatus (s : NodeStatus) : Action NodeFiles Unit := fun w ↦
  let (r, record, d) := w.record.setStatus s w.disk
  (r, { w.withDisk d with record })

/-- Tells something of the identity. -/
def told (f : IdentityFiles → α) (w : NodeFiles) : Except ServiceError α :=
  match w.identity with
  | some i => .ok (f i)
  | none => .error (.notFound "identity")

/-- The site of files. Whether it has an identity does not change once it is set up. -/
def site (storage : CertStorage) (commands : ProvisioningCommands) (runner : Runner)
    (hasIdentity : Bool) : Site NodeFiles where
  nodeInfo w := w.record.info w.disk
  setStatus := setStatus
  identity :=
    if hasIdentity then some ⟨told (·.systemId), told (·.unitModel), told (·.subjects)⟩
    else none
  certTypes := .done (offeredTypes storage.modules)
  startProvisioning _ := onDisk (commands.runStart runner)
  finishProvisioning _ := onDisk (commands.runFinish runner)
  deprovision _ := onDisk (commands.runDeprovision runner)
  createKey certType subject _ := inVault (storage.createKey certType subject)
  applyCert certType cert :=
    (inVault (storage.applyCert certType cert)).andThen fun r ↦ .done ⟨r.certUrl, r.serialHex⟩
  certs w := w.vault.index
  putCerts index w := { w with vault.index := index }

end NodeFiles

end NodeAgent
