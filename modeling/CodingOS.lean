import CodingOS.Campaign.Publication
import CodingOS.Campaign.Budget
import CodingOS.Campaign.Waiting
import CodingOS.Campaign.Fencing
import CodingOS.Store.EventSourcing
import CodingOS.Store.OutboxIdentity
import CodingOS.Store.Termination
import CodingOS.Store.LeaseAgreement
import CodingOS.Store.HumanAuthorization
import CodingOS.Store.Idempotency
import CodingOS.Store.ResourceFences
import CodingOS.Store.ActorAction
import CodingOS.Supervisor.PublicationSequence
import CodingOS.Campaign.Progress
import CodingOS.Routing.CompareAndSwap
import CodingOS.Routing.ReceiptTruth
import CodingOS.Installer.ForeignBytes
import CodingOS.Bom.CompareAndSwap
import CodingOS.Deploy.Ownership
import CodingOS.Bootstrap.CancelClosure
import CodingOS.ManifestRecovery.OutcomeTruth
import CodingOS.Campaign.Reloading
import CodingOS.CapabilityIndex.DecisionSchema
import CodingOS.CapabilityIndex.Retention
import CodingOS.Store.SnapshotPersistence
import CodingOS.ConfigFingerprint.Authority
import CodingOS.PolicyMigration.Frame
import CodingOS.Hooks.Retirement
import CodingOS.Store.Recovery
import CodingOS.Python.StrLines
import CodingOS.Campaign.GraphSearch
import CodingOS.Campaign.FindingMerge
import CodingOS.Crypto.Signatures
import CodingOS.Store.Usage
import CodingOS.Store.EvidenceBinding
import CodingOS.Admission.AcceptanceSource
import CodingOS.Effects.Atomicity
import CodingOS.Effects.Mutation
import CodingOS.Formal.Refinement
