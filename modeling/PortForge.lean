import PortForge.Transaction.Shapes
import PortForge.Transaction.Interleaving
import PortForge.Transaction.Serialization
import PortForge.Transaction.UniqueKey
import PortForge.Transaction.Windows
import PortForge.Transaction.Arrivals
import PortForge.Transaction.Drift
import PortForge.Transaction.Provenance
import PortForge.Transaction.Exclusion
import PortForge.Central.Health
import PortForge.Central.Recommendation
import PortForge.Central.Reservations
import PortForge.Central.AllocationSchema
import PortForge.Central.AllocationViews
import PortForge.Central.Allocations
import PortForge.Central.Granting
import PortForge.Central.Bundles
import PortForge.Central.SingleCall
import PortForge.Central.OccupiedPorts
import PortForge.Central.DoubleBooking
import PortForge.Central.Idempotency
import PortForge.Central.ReleaseCompleteness
import PortForge.Central.Lifecycle
import PortForge.Central.UpgradeLaw
import PortForge.Central.OpenUpgrades
import PortForge.Central.Heartbeats
import PortForge.Central.Enrollment
import PortForge.Central.HostOwnership
import PortForge.Central.DecommissionedHosts
import PortForge.Central.Credentials
import PortForge.Central.SnapshotSerialization
import PortForge.Effects.Storage
import PortForge.Effects.Undo
import PortForge.Agent.Manifest
import PortForge.Agent.DotenvEditor
import PortForge.Agent.ConfigFiles
import PortForge.Agent.ConfigManager
import PortForge.Agent.Mutations
import PortForge.Agent.ApplyAtomicity
import PortForge.Agent.RollbackRoundTrip
import PortForge.Agent.MutationRuns
import PortForge.Agent.UpgradeHandler
import PortForge.Agent.UserEdits
import PortForge.Agent.Discovery
import PortForge.Agent.RollbackRetry
import PortForge.Agent.Reservations
import PortForge.Effects.Exceptions
import PortForge.Agent.ReservationStore
import PortForge.Fleet.UpgradeCompletion
import PortForge.Fleet.ReservationMirror
import PortForge.Central.ProbeLifecycle
import PortForge.Central.SnapshotRuns
import PortForge.Central.Verification
import PortForge.Fleet.UpgradeRedelivery
import PortForge.Central.Silence
import PortForge.Central.LastSeen
import PortForge.Central.ScanIds
import PortForge.Fleet.Downgrades
import PortForge.Central.EnrollmentRaces
import PortForge.Effects.Threads
import PortForge.Agent.Identity
import PortForge.Agent.LocalStore
import PortForge.Agent.ProjectOwnership
import PortForge.Agent.Workflow
import PortForge.Agent.Compensation
import PortForge.Agent.Resumption
import PortForge.Fleet.WorkflowReleases
import PortForge.Central.ArtifactPolicy
import PortForge.Central.HeartbeatTotality
import PortForge.Central.DuplicateBindings
import PortForge.Central.SnapshotOrder
import PortForge.Fleet.VersionOrder
import PortForge.Central.BatchedEvidence
import PortForge.Python.Json
import PortForge.Python.JsonReader
import PortForge.Central.PayloadHash
import PortForge.Agent.ManifestHash
import PortForge.Central.BundleInsertion
import PortForge.Central.FirstFit
import PortForge.Central.RangeScan
import PortForge.Central.RecordRemoval
import PortForge.Central.IngestionTotality
import PortForge.Agent.UpgradeRuns
import PortForge.Agent.Evaluation
import PortForge.Central.Conflicts
import PortForge.Fleet.ConflictAgreement
import PortForge.Agent.PortSearch
import PortForge.Agent.DotenvRewriting
import PortForge.Agent.DotenvReruns
import PortForge.Agent.DotenvExactness
import PortForge.Agent.DotenvPlans
import PortForge.Agent.AllocationEnv
import PortForge.Python.Digits
import PortForge.Agent.ComposePorts
import PortForge.Agent.Purpose
import PortForge.Central.UuidText
import PortForge.Agent.HostReferences
import PortForge.Agent.ManifestBodies
import PortForge.Agent.ManifestFailures
import PortForge.Agent.ConfigCommands
import PortForge.Agent.KubernetesEdits
import PortForge.Agent.Readiness
import PortForge.Agent.ComposeEdits
import PortForge.Agent.EvidenceSearch
import PortForge.Agent.ProjectRoots
import PortForge.Fleet.ProjectStatus
import PortForge.Python.Links
import PortForge.Effects.Events
import PortForge.Effects.Modes
import PortForge.Agent.FilePermissions
import PortForge.Agent.WriteContainment
import PortForge.Effects.PairedRuns
import PortForge.Agent.DotenvVersions
import PortForge.Agent.ConfigOutput
import PortForge.Agent.VersionRuns
import PortForge.Agent.OutputSecrecy
import PortForge.Effects.Histories
import PortForge.Agent.Runtime
import PortForge.Transaction.Confinement
import PortForge.Central.AgentIsolation
import PortForge.Fleet.SnapshotDelivery
import PortForge.Agent.RemoteProbes
import PortForge.Fleet.ProbeDelivery
import PortForge.Agent.ManifestInit
import PortForge.Effects.Placement
import PortForge.Agent.Saving
