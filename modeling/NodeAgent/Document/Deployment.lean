import NodeAgent.Deployment.Rotation
import NodeAgent.Document.Config
import NodeAgent.Document.Server
/-!
# Deployments as documents

Why an agent cannot be deployed, and how to deploy one that a document describes.
-/

namespace NodeAgent

open Document

/-- The failure as a document. -/
def DeploymentError.toDocument : DeploymentError → Document
  | service e => e.toDocument
  | server e => e.toDocument
  | identity e => e.toDocument

/-- Deploys the agent of a configuration; the failure is told by a document. -/
def Deployment.ofConfig (around : Surroundings) (c : Except ConfigError Config)
    (provisioning : Bool) (disk : Disk) : Except Document Deployment := do
  let c ← c.mapError ConfigError.toDocument
  (Deployment.new around c provisioning disk).mapError DeploymentError.toDocument

/-- Where a document says the main node is; `publicUrl` and `protectedUrl` where it says nothing. -/
def MainNode.ofDocument (publicUrl protectedUrl : String) (d : Document) : MainNode where
  publicUrl := ((d.get? "public_url").map (·.asText)).getD publicUrl
  protectedUrl := ((d.get? "protected_url").map (·.asText)).getD protectedUrl
  reconnectInterval := .ofMillis 20

end NodeAgent
