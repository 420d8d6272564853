import NodeAgent.Address
import NodeAgent.Agent.Forward
import NodeAgent.Certificate.Authority
import NodeAgent.Certificate.Index
import NodeAgent.Certificate.Vault
import NodeAgent.Command.Shell
import NodeAgent.Crypto.Edwards
import NodeAgent.Crypto.Weierstrass
import NodeAgent.Deployment.Rotation
import NodeAgent.Der.Time
import NodeAgent.Document.Alias
import NodeAgent.Document.Certificate
import NodeAgent.Document.Config
import NodeAgent.Document.Deployment
import NodeAgent.Document.Disk
import NodeAgent.Document.Failure
import NodeAgent.Document.Message
import NodeAgent.Document.Overview
import NodeAgent.Document.Record
import NodeAgent.Document.Rehearsal
import NodeAgent.Document.Rpc
import NodeAgent.Document.Server
import NodeAgent.Feed
import NodeAgent.Identity.Files
import NodeAgent.Node.Listener
import NodeAgent.Node.Record
import NodeAgent.Node.Rehearsal
import NodeAgent.Node.Service
import NodeAgent.Node.Store
import NodeAgent.Permission
import NodeAgent.Provisioning.Basic
import NodeAgent.Registry.Basic
import NodeAgent.Retry
import NodeAgent.Server.Host
import NodeAgent.Stream.Receiver
import NodeAgent.Text.Lines
import NodeAgent.Tls.Pairing
import NodeAgent.Proofs.Assembly.Agreement
import NodeAgent.Proofs.Assembly.History
import NodeAgent.Proofs.Roaming.Recording
import NodeAgent.Proofs.Stream.Correlation
import NodeAgent.Proofs.Stream.Shutdown
import NodeAgent.Proofs.Registry.Isolation
import NodeAgent.Proofs.Registry.Gate
import NodeAgent.Proofs.Registry.Closing
import NodeAgent.Proofs.Feed.Delivery
import NodeAgent.Proofs.Node.Record
import NodeAgent.Proofs.Deployment.Rotation
import NodeAgent.Proofs.Server.Lifecycle
import NodeAgent.Proofs.Certificate.Run
import NodeAgent.Proofs.Registry.Events
import NodeAgent.Proofs.Registry.Waiting
import NodeAgent.Proofs.Node.Listening
import NodeAgent.Proofs.Certificate.Restart
import NodeAgent.Proofs.Certificate.Catalogue
import NodeAgent.Proofs.Certificate.Stranding
import NodeAgent.Proofs.Text.Armour
import NodeAgent.Proofs.Text.Lines
import NodeAgent.Proofs.Identity.Subjects
import NodeAgent.Proofs.Config.Validity
import NodeAgent.Proofs.Certificate.Types
import NodeAgent.Proofs.Node.Hardware
import NodeAgent.Proofs.Stream.Desertion
import NodeAgent.Proofs.Agent.Closing
import NodeAgent.Proofs.Agent.Following
import NodeAgent.Proofs.Agent.Progress
import NodeAgent.Proofs.Retry.Observed
import NodeAgent.Proofs.Node.Serving
import NodeAgent.Proofs.Agent.Dispatch
import NodeAgent.Proofs.Registry.Unseen
import NodeAgent.Proofs.Permission
import NodeAgent.Proofs.Agent.Halfway
import NodeAgent.Proofs.Stream.Outbound
