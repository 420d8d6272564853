import NodeAgent.Config.Basic
import NodeAgent.Json.Value
import NodeAgent.Time.Reader
/-!
# Reading configurations

A configuration is written in JSON. Each record below lists its fields in their order, which is the
order in which they come when the record is written as a list, and in which they are missed.
-/

namespace NodeAgent.Config

open Json (Field Reader)

/-- Reads a duration. -/
def duration : Reader Duration := do
  let s ← Json.textValue "a duration"
  match Duration.ofText? s with
  | some d => return d
  | none => throw (Json.invalidValue (Json.describeText s) "a duration")

/-- Reads a list of texts. -/
def strings : Reader (List String) := Json.list Json.string

/-- Reads a partition. -/
def partition : Reader PartitionConfig :=
  Json.record "PartitionConfig"
    [ .needed "Name" Json.string fun v x ↦ { x with name := v },
      .withDefault "Types" strings fun v x ↦ { x with types := v },
      .withDefault "Path" Json.string fun v x ↦ { x with path := v } ] {}

/-- Reads where the node's record comes from. -/
def nodeInfoSection : Reader NodeInfoConfig :=
  Json.record "NodeInfoConfig"
    [ .withDefault "CPUInfoPath" Json.path fun v x ↦ { x with cpuInfoPath := v },
      .withDefault "MemInfoPath" Json.path fun v x ↦ { x with memInfoPath := v },
      .needed "ProvisioningStatePath" Json.path fun v x ↦ { x with statePath := v },
      .needed "NodeIDPath" Json.path fun v x ↦ { x with nodeIdPath := v },
      .withDefault "NodeName" Json.string fun v x ↦ { x with nodeName := v },
      .withDefault "NodeType" Json.string fun v x ↦ { x with nodeType := v },
      .withDefault "OSType" Json.string fun v x ↦ { x with osType := v },
      .withDefault "MaxDMIPS" (Json.natural 64 "u64") fun v x ↦ { x with maxDmips := v },
      .withDefault "Attrs" (Json.map Json.string) fun v x ↦ { x with attrs := v },
      .withDefault "Partitions" (Json.list partition) fun v x ↦ { x with partitions := v } ] {}

/-- Reads a type of certificate. -/
def certModule : Reader CertModule :=
  Json.record "CertModuleConfig"
    [ .needed "ID" Json.string fun v x ↦ { x with id := v },
      .withDefault "Plugin" Json.string fun v x ↦ { x with plugin := v },
      .withDefault "Algorithm" Json.string fun v x ↦ { x with algorithm := v },
      .withDefault "MaxItems" (Json.natural 64 "usize") fun v x ↦ { x with maxItems := v },
      .withDefault "ExtendedKeyUsage" strings fun v x ↦ { x with extendedKeyUsage := v },
      .withDefault "AlternativeNames" strings fun v x ↦ { x with alternativeNames := v },
      .withDefault "Disabled" Json.flag fun v x ↦ { x with disabled := v } ] {}

/-- Reads the files that say who the system is. -/
def identityPaths : Reader IdentityPaths :=
  Json.record "FileIdentifierConfig"
    [ .needed "SystemIDPath" Json.path fun v x ↦ { x with systemId := v },
      .needed "UnitModelPath" Json.path fun v x ↦ { x with unitModel := v },
      .withDefault "SubjectsPath" (Json.optional Json.path) fun v x ↦ { x with subjects := v } ] {}

/-- Reads which source tells who the system is. -/
def identifierSection : Reader IdentifierConfig :=
  Json.record "IdentifierConfig"
    [ .withDefault "Plugin" Json.string fun v x ↦ { x with plugin := v },
      .withDefault "Params" (Json.optional identityPaths) fun v x ↦ { x with params := v } ] {}

/-- Reads how requests are retried. -/
def retrySection : Reader RetryConfig :=
  Json.record "RetrySettings"
    [ .withDefault "MaxAttempts" (Json.natural 32 "u32") fun v x ↦ { x with maxAttempts := v },
      .withDefault "RetryInterval" duration fun v x ↦ { x with interval := v } ] {}

/-- Reads how long requests may take. -/
def timeoutSection : Reader TimeoutConfig :=
  Json.record "TimeoutSettings"
    [ .withDefault "Default" duration fun v x ↦ { x with default := v },
      .withDefault "Provisioning" duration fun v x ↦ { x with provisioning := v } ] {}

/-- Reads a configuration. -/
def reader : Reader Config :=
  Json.record "Config"
    [ .needed "NodeInfo" nodeInfoSection fun v x ↦ { x with nodeInfo := v },
      .needed "IAMPublicServerURL" Json.string fun v x ↦ { x with publicAddr := v },
      .needed "IAMProtectedServerURL" Json.string fun v x ↦ { x with protectedAddr := v },
      .withDefault "MainIAMPublicServerURL" Json.string fun v x ↦ { x with mainPublicAddr := v },
      .withDefault "MainIAMProtectedServerURL" Json.string
        fun v x ↦ { x with mainProtectedAddr := v },
      .withDefault "NodeReconnectInterval" duration fun v x ↦ { x with reconnectInterval := v },
      .withDefault "CACert" (Json.optional Json.path) fun v x ↦ { x with caCert := v },
      .needed "CertStorage" Json.path fun v x ↦ { x with certStorage := v },
      .withDefault "CertModules" (Json.list certModule) fun v x ↦ { x with certModules := v },
      .withDefault "StartProvisioningCmdArgs" strings
        fun v x ↦ { x with commands.start := v },
      .withDefault "FinishProvisioningCmdArgs" strings
        fun v x ↦ { x with commands.finish := v },
      .withDefault "DeprovisionCmdArgs" strings
        fun v x ↦ { x with commands.deprovision := v },
      .withDefault "DiskEncryptionCmdArgs" strings
        fun v x ↦ { x with commands.encryptDisk := v },
      .withDefault "EnablePermissionsHandler" Json.flag fun v x ↦ { x with permissions := v },
      .withDefault "Identifier" identifierSection fun v x ↦ { x with identifier := v },
      .withDefault "Retry" retrySection fun v x ↦ { x with retry := v },
      .withDefault "Timeouts" timeoutSection fun v x ↦ { x with timeouts := v } ] {}

end NodeAgent.Config
