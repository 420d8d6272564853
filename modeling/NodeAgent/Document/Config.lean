import NodeAgent.Config.Validity
import NodeAgent.Document.Failure
/-!
# Configurations as documents

A configuration is shown with every field, and a duration as its seconds and nanoseconds.
-/

namespace NodeAgent

open Document

/-- The duration as a document. -/
def Duration.toDocument (d : Duration) : Document :=
  list [nat d.wholeSeconds, nat d.subsecNanos]

/-- The partition as a document. -/
def PartitionConfig.toDocument (p : PartitionConfig) : Document :=
  list [text p.name, texts p.types, text p.path]

/-- Where the node's record comes from, as a document. -/
def NodeInfoConfig.toDocument (c : NodeInfoConfig) : Document :=
  fields [("cpu_info_path", text c.cpuInfoPath), ("mem_info_path", text c.memInfoPath),
    ("provisioning_state_path", text c.statePath), ("node_id_path", text c.nodeIdPath),
    ("node_name", text c.nodeName), ("node_type", text c.nodeType), ("os_type", text c.osType),
    ("max_dmips", nat c.maxDmips), ("attrs", fields (c.attrs.map fun a ↦ (a.1, text a.2))),
    ("partitions", list (c.partitions.map (·.toDocument)))]

/-- The type of certificate as a document. -/
def CertModule.toDocument (m : CertModule) : Document :=
  fields [("id", text m.id), ("plugin", text m.plugin), ("algorithm", text m.algorithm),
    ("max_items", nat m.maxItems), ("extended_key_usage", texts m.extendedKeyUsage),
    ("alternative_names", texts m.alternativeNames), ("disabled", bool m.disabled)]

/-- The identity source as a document. -/
def IdentifierConfig.toDocument (i : IdentifierConfig) : Document :=
  fields [("plugin", text i.plugin),
    ("params", option (fun p ↦ list [text p.systemId, text p.unitModel, option text p.subjects])
      i.params)]

/-- The configuration as a document. -/
def Config.toDocument (c : Config) : Document :=
  fields [("node_info", c.nodeInfo.toDocument), ("public", text c.publicAddr),
    ("protected", text c.protectedAddr), ("main_public", text c.mainPublicAddr),
    ("main_protected", text c.mainProtectedAddr), ("reconnect", c.reconnectInterval.toDocument),
    ("ca_cert", option text c.caCert), ("cert_storage", text c.certStorage),
    ("cert_modules", list (c.certModules.map (·.toDocument))),
    ("commands", list [texts c.commands.start, texts c.commands.finish,
      texts c.commands.deprovision, texts c.commands.encryptDisk]),
    ("permissions", bool c.permissions), ("identifier", c.identifier.toDocument),
    ("retry", list [nat c.retry.maxAttempts, c.retry.interval.toDocument]),
    ("timeouts", list [c.timeouts.default.toDocument, c.timeouts.provisioning.toDocument]),
    ("subscriber_buffer", nat c.agentConfig.subscriberBuffer), ("main_node", bool c.isMainNode)]

/-- The failure as a document. Of a text that is not well written it is told in which way. -/
def ConfigError.toDocument (e : ConfigError) : Document :=
  match e with
  | parse (.unfit _) =>
    fields [("error", text "Parse"), ("class", text "data"), ("message", text e.message)]
  | parse .truncated => fields [("error", text "Parse"), ("class", text "eof")]
  | parse .malformed => fields [("error", text "Parse"), ("class", text "syntax")]
  | read _ _ => failure "Read" e.message
  | emptyAddress _ => failure "InvalidAddress" e.message
  | unsupportedIdentifier _ => failure "UnsupportedIdentifier" e.message
  | _ => failure "Invalid" e.message

end NodeAgent
