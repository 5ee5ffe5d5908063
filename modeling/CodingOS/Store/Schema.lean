import CodingOS.Campaign.Reducer
import CodingOS.Systems.Table

/-!
# The tables of the campaign store

The schema of `store.py` and the records of `model.py` its rows hold.  A column that stores the
canonical JSON of a record holds the record here: `_load_snapshot` is `CampaignSnapshot.reload`, and
the text itself is `canonicalJson` of its dictionary.  Primary keys are those of the schema and are
carried by `Table`; foreign keys and the two partial indexes are checked by the statements that
insert.

The tables of schema migrations, runtime installations and legacy archives are not here: nothing
that runs a campaign reads them.
-/

namespace CodingOS.Store

open CodingOS.Python CodingOS.Campaign Systems

/-! ### Actors and leases -/

/-- `READ_ONLY_ACTOR_ROLES`. -/
def readOnlyActorRoles : List ActorRole :=
  [.reviewer, .closureReviewer, .validator, .supervisor, .parent]

/-- `CONCURRENT_READ_ONLY_ACTOR_ROLES`. -/
def concurrentReadOnlyActorRoles : List ActorRole :=
  readOnlyActorRoles.filter (· != .validator)

structure ActorFields where
  actorId : String
  campaignId : String
  nodeId : Option String
  role : ActorRole
  nativeThreadId : String
  authorityEpoch : ℕ
  canWrite : Bool
  nativeIdentity : Mapping := []
  hostPid : Option ℤ := none
  principalId : Option String := none
deriving DecidableEq

structure LeaseFields where
  leaseId : String
  campaignId : String
  nodeId : String
  resourceKey : String
  actorId : String
  fencingEpoch : ℕ
  cancellationEpoch : ℕ
  state : LeaseState := .active
  expiresAt : Option String := none
deriving DecidableEq

section Records

variable [Runtime]

/-- `Actor.__post_init__`. -/
def ActorFields.postInit (a : ActorFields) : Result Unit := do
  forEach [(a.actorId, "actor_id"), (a.campaignId, "campaign_id"),
      (a.nativeThreadId, "native_thread_id")] fun (text, name) => do
    let _ ← nonempty (.str text) name
  check .modelValidation (a.hostPid.all (0 < ·)) "actor host PID must be positive"
  check .modelValidation (!(readOnlyActorRoles.contains a.role && a.canWrite))
    (a.role.value ++ " actors must be write denied")

/-- An actor whose checks passed. -/
structure Actor extends ActorFields where
  valid : toActorFields.postInit = .ok ()
deriving DecidableEq

/-- `Actor(…)`. -/
def ActorFields.build (a : ActorFields) : Result Actor :=
  match h : a.postInit with
  | .ok () => .ok ⟨a, h⟩
  | .error e => .error e

def ActorFields.toDict (a : ActorFields) : Value :=
  .mapping [
    ("actor_id", .str a.actorId),
    ("campaign_id", .str a.campaignId),
    ("node_id", optionalText a.nodeId),
    ("role", .str a.role.value),
    ("native_thread_id", .str a.nativeThreadId),
    ("authority_epoch", .int a.authorityEpoch),
    ("can_write", .bool a.canWrite),
    ("native_identity", .mapping a.nativeIdentity),
    ("host_pid", (a.hostPid.map Value.int).getD .null),
    ("principal_id", optionalText a.principalId)]

/-- `Lease.__post_init__`. -/
def LeaseFields.postInit (l : LeaseFields) : Result Unit :=
  forEach [(l.leaseId, "lease_id"), (l.campaignId, "campaign_id"), (l.nodeId, "node_id"),
      (l.resourceKey, "resource_key"), (l.actorId, "actor_id")] fun (text, name) => do
    let _ ← nonempty (.str text) name

/-- A lease whose checks passed. -/
structure Lease extends LeaseFields where
  valid : toLeaseFields.postInit = .ok ()
deriving DecidableEq

/-- `Lease(…)`. -/
def LeaseFields.build (l : LeaseFields) : Result Lease :=
  match h : l.postInit with
  | .ok () => .ok ⟨l, h⟩
  | .error e => .error e

/-- A lease with another state: its checks do not read the state. -/
def Lease.withState (l : Lease) (state : LeaseState) : Lease :=
  { l with state, valid := l.valid }

/-- What `Lease.from_dict` reads back from the JSON `to_dict` wrote. -/
def Lease.reload (l : Lease) : Lease :=
  { l with expiresAt := nonemptyText l.expiresAt, valid := l.valid }

end Records

/-! ### Evidence -/

/-- One immutable receipt.  `Evidence.__post_init__` refuses blank identifiers. -/
structure Evidence where
  evidenceId : String
  campaignId : String
  nodeId : Option String
  kind : EvidenceKind
  digest : String
  payload : Mapping
  candidateHead : Option String := none
  evidence_id_nonblank : isBlank evidenceId = false
  campaign_id_nonblank : isBlank campaignId = false
  digest_nonblank : isBlank digest = false
deriving DecidableEq

def Evidence.toDict (e : Evidence) : Value :=
  .mapping [
    ("evidence_id", .str e.evidenceId),
    ("campaign_id", .str e.campaignId),
    ("node_id", optionalText e.nodeId),
    ("kind", .str e.kind.value),
    ("digest", .str e.digest),
    ("payload", .mapping e.payload),
    ("candidate_head", optionalText e.candidateHead)]

/-! ### Rows -/

structure NodeRow where
  campaignId : String
  nodeId : String
  state : NodeState
  fencingEpoch : ℕ
  node : NodeSnapshot
deriving DecidableEq

/-- `PRIMARY KEY (campaign_id, node_id)`. -/
def NodeRow.key (r : NodeRow) : String × String := (r.campaignId, r.nodeId)

structure DependencyRow where
  campaignId : String
  nodeId : String
  dependsOnNodeId : String
deriving DecidableEq

structure FindingRow where
  campaignId : String
  nodeId : String
  findingId : String
  origin : FindingOrigin
  blocking : Bool
  resolved : Bool
  finding : Finding
deriving DecidableEq

/-- `PRIMARY KEY (campaign_id, node_id, finding_id, origin)`. -/
def FindingRow.key (r : FindingRow) : String × String × String × FindingOrigin :=
  (r.campaignId, r.nodeId, r.findingId, r.origin)

structure EventRow where
  eventId : String
  campaignId : String
  revision : ℕ
  eventType : EventType
  payloadDigest : String
  event : Event
  telemetryCategory : Option String
deriving DecidableEq

structure EffectRow where
  operationId : String
  campaignId : String
  nodeId : Option String
  kind : EffectKind
  state : EffectState
  payload : Mapping
  payloadDigest : String
  authorityEpoch : ℕ
  cancellationEpoch : ℕ
  fencingEpoch : Option ℕ
  createdRevision : ℕ
  updatedRevision : ℕ
  result : Option Value := none
deriving DecidableEq

structure EvidenceRow where
  evidenceId : String
  campaignId : String
  nodeId : Option String
  kind : EvidenceKind
  digest : String
  candidateHead : Option String
  payload : Mapping
deriving DecidableEq

structure ReviewRow where
  reviewId : String
  campaignId : String
  nodeId : String
  cohortDigest : String
  candidateHead : Option String
  state : String
  receipt : Option Mapping := none
deriving DecidableEq

structure LockRow where
  resourceKey : String
  fencingEpoch : ℕ
  leaseId : Option String
  campaignId : Option String
  nodeId : Option String
deriving DecidableEq

theorem LockRow.unlocked_key (row : LockRow) :
    { row with leaseId := none }.resourceKey = row.resourceKey := rfl

structure TelemetryRow where
  telemetryId : String
  campaignId : String
  category : String
  payload : Value
deriving DecidableEq

inductive OperationStatus | executing | confirmed
deriving DecidableEq

def OperationStatus.value : OperationStatus → String
  | executing => "EXECUTING"
  | confirmed => "CONFIRMED"

section Rows

variable [Runtime]

structure CampaignRow where
  campaignId : String
  specificationRevision : ℕ
  specificationDigest : String
  spec : CampaignSpec
  snapshot : CampaignSnapshot
  state : CampaignState
  storeRevision : ℕ
  authorityEpoch : ℕ
  cancellationEpoch : ℕ
deriving DecidableEq

/-- The text of the `snapshot_json` column. -/
def CampaignRow.snapshotJson (r : CampaignRow) : String := canonicalJson r.snapshot.toDict

structure ActorRow where
  actorId : String
  campaignId : String
  nodeId : Option String
  role : ActorRole
  nativeThreadId : String
  identityDigest : Option String := none
  nativeIdentity : Mapping
  hostPid : Option ℤ
  authorityEpoch : ℕ
  canWrite : Bool
  boundRequestId : Option String := none
  used : Bool := false
  actor : Actor
deriving DecidableEq

structure LeaseRow where
  leaseId : String
  campaignId : String
  nodeId : String
  resourceKey : String
  actorId : String
  fencingEpoch : ℕ
  cancellationEpoch : ℕ
  state : LeaseState
  expiresAt : Option String
  lease : Lease
deriving DecidableEq

theorem LeaseRow.invalidated_key (row : LeaseRow) :
    { row with state := .invalidated }.leaseId = row.leaseId := rfl

theorem LeaseRow.released_key (row : LeaseRow) :
    { row with state := .released, lease := row.lease.withState .released }.leaseId = row.leaseId := rfl

/-- The `result_json` of an operation, by the kind of operation that wrote it. -/
inductive OperationResult
  | transition (snapshot : CampaignSnapshot) (effects : List ExternalEffectIntent)
  | readOnlyLease (lease : Lease) (snapshot : CampaignSnapshot)
  | boundActor (actor : Actor)
  | humanAuthorization (receiptDigest eventId : String) (revision : ℕ)
  | runtime (payload result : Mapping)
  | attestation (evidenceId digest actorId leaseId : String) (nativeThreadId nativeTurnId : Value)
      (principalId : Option String)
deriving DecidableEq

/-- `prior["snapshot"]`, read with `CampaignSnapshot.from_dict`. -/
def OperationResult.snapshot : OperationResult → Result CampaignSnapshot
  | .transition snapshot _ => .ok snapshot.reload
  | .readOnlyLease _ snapshot => .ok snapshot.reload
  | _ => fail .python "'snapshot'"

/-- `prior["effects"]`. -/
def OperationResult.effects : OperationResult → Result (List ExternalEffectIntent)
  | .transition _ effects => .ok effects
  | _ => fail .python "'effects'"

/-- `prior["actor"]`. -/
def OperationResult.actor : OperationResult → Result Actor
  | .boundActor actor => .ok actor
  | _ => fail .python "'actor'"

structure OperationRow where
  requestId : String
  campaignId : Option String
  kind : String
  payloadDigest : String
  status : OperationStatus
  result : Option OperationResult := none
  createdRevision : Option ℕ
deriving DecidableEq

/-! ### The database -/

structure Db where
  campaigns : Table CampaignRow.campaignId := .empty
  nodes : Table NodeRow.key := .empty
  dependencies : Table (id : DependencyRow → DependencyRow) := .empty
  actors : Table ActorRow.actorId := .empty
  leases : Table LeaseRow.leaseId := .empty
  operations : Table OperationRow.requestId := .empty
  outbox : Table EffectRow.operationId := .empty
  evidence : Table EvidenceRow.evidenceId := .empty
  reviews : Table ReviewRow.reviewId := .empty
  findings : Table FindingRow.key := .empty
  resourceLocks : Table LockRow.resourceKey := .empty
  events : Table EventRow.eventId := .empty
  telemetry : Table TelemetryRow.telemetryId := .empty

/-- What an `INSERT` raises on a key that is taken. -/
def uniqueViolation {α : Type} (inserted : Option α) (table : String) : Result α :=
  orRaise inserted .integrity ("UNIQUE constraint failed: " ++ table)

/-- The check of a foreign key on `campaigns`. -/
def Db.checkCampaign (db : Db) (campaignId : String) : Result Unit :=
  check .integrity (db.campaigns.get? campaignId).isSome "FOREIGN KEY constraint failed"

/-- The check of a foreign key on `nodes`. -/
def Db.checkNode (db : Db) (campaignId nodeId : String) : Result Unit :=
  check .integrity (db.nodes.get? (campaignId, nodeId)).isSome "FOREIGN KEY constraint failed"

/-- `_load_snapshot`. -/
def Db.loadSnapshot (db : Db) (campaignId : String) : Result CampaignSnapshot := do
  let row ← orRaise (db.campaigns.get? campaignId) .store ("unknown campaign: " ++ campaignId)
  return row.snapshot.reload

end Rows

end CodingOS.Store
