import MeshGauges.CommandLine
import MeshGauges.Cluster.Access
import MeshGauges.Cluster.Source
import MeshGauges.Exporter
import MeshGauges.Main
import MeshGauges.Replica.Script
import MeshGauges.Settings.EnvironmentFile
import MeshGauges.Proofs.Replica.Course
import MeshGauges.Proofs.Replica.ChangeLog
import MeshGauges.Proofs.Replica.Replication
import MeshGauges.Proofs.Replica.StopSignal
import MeshGauges.Proofs.Replica.Discipline
import MeshGauges.Proofs.Replica.PromptStop
import MeshGauges.Proofs.Replica.Publication
import MeshGauges.Proofs.Replica.Replay
import MeshGauges.Proofs.Number.Undefined
import MeshGauges.Proofs.Number.Truncation
import MeshGauges.Proofs.Replica.WatchTiming
import MeshGauges.Proofs.Settings.ResyncPeriod
import MeshGauges.Proofs.Scrape.Accounting
import MeshGauges.Proofs.Scrape.Grouping
import MeshGauges.Proofs.Scrape.Production
import MeshGauges.Proofs.Scrape.Regrouping
import MeshGauges.Proofs.Tree.Removal
import MeshGauges.Proofs.Schema.Expansion
import MeshGauges.Proofs.Schema.JoinedFields
import MeshGauges.Proofs.Schema.Cardinality
import MeshGauges.Proofs.Schema.PolicySections
import MeshGauges.Proofs.Scrape.Separation
import MeshGauges.Proofs.Tree.MemberOrder
import MeshGauges.Proofs.Rendering.MemberOrder
import MeshGauges.Proofs.Schema.MemberOrder
import MeshGauges.Proofs.Replica.Independence
import MeshGauges.Proofs.Number.Numeral
import MeshGauges.Proofs.CommandLine.Precedence
import MeshGauges.Proofs.Settings.Namespaces
import MeshGauges.Proofs.Settings.WellFormed
import MeshGauges.Proofs.Rendering.ExactDuration
import MeshGauges.Proofs.Rendering.Length
import MeshGauges.Proofs.Rendering.SecondsObject
import MeshGauges.Proofs.Duration.Sign
import MeshGauges.Proofs.Rendering.Duration
import MeshGauges.Proofs.Schema.Sections
import MeshGauges.Proofs.Schema.Edit
import MeshGauges.Proofs.Schema.SingleElements
import MeshGauges.Proofs.Schema.Spellings
import MeshGauges.Proofs.Schema.Selection
import MeshGauges.Proofs.Scrape.Instances
import MeshGauges.Proofs.Replica.Reconnection
import MeshGauges.Proofs.Replica.Backoff
import MeshGauges.Proofs.Cluster.Recovery
import MeshGauges.Proofs.Rendering.Decoding
import MeshGauges.Proofs.Settings.Tokens
import MeshGauges.Proofs.InstanceReference.NormalForm
import MeshGauges.Proofs.Replica.Muster
import MeshGauges.Proofs.Replica.Rehearsal
import MeshGauges.Proofs.Replica.Shutdown
