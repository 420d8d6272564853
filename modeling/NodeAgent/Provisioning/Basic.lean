import NodeAgent.Command.Basic
import NodeAgent.Config.Basic
/-!
# Provisioning a node

The steps of a node's provisioning are commands of its configuration. Starting to provision a node
also encrypts its disk, once the start itself succeeded.
-/

namespace NodeAgent

namespace ProvisioningCommands

variable (c : ProvisioningCommands) (runner : Runner)

/-- Begins to provision the node, and encrypts its disk. -/
def runStart : Action Disk Unit :=
  (runner.run "start provisioning" c.start).andThen fun _ ↦
    runner.run "encrypt disk" c.encryptDisk

/-- Ends the provisioning of the node. -/
def runFinish : Action Disk Unit := runner.run "finish provisioning" c.finish

/-- Takes the provisioning of the node back. -/
def runDeprovision : Action Disk Unit := runner.run "deprovision" c.deprovision

end ProvisioningCommands

/-- The types of certificate that the node offers, in the order of the configuration. -/
def offeredTypes (modules : List CertModule) : List String :=
  (modules.filter (!·.disabled)).map (·.id)

end NodeAgent
