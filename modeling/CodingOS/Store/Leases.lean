import CodingOS.Store.Transition

/-!
# The lease transactions

`acquire_lease`, `bind_actor`, `release_lease` and `recover_after_restart` of `store.py`.  An
exclusive lease goes through the reducer (`ACQUIRE_LEASE`, `RELEASE_LEASE`); a concurrent read-only
lease is recorded beside it and leaves the campaign alone.
-/

namespace CodingOS.Store

open CodingOS.Python CodingOS.Campaign Systems

variable [Runtime]

/-! ### Acquiring -/

/-- The arguments of `acquire_lease`. -/
structure LeaseRequest where
  campaignId : String
  nodeId : String
  resourceKey : String
  actor : Actor
  leaseId : String
  requestId : String
  expectedRevision : ℕ
  authorityEpoch : ℕ
  cancellationEpoch : ℕ
  expiresAt : Option String := none

def LeaseRequest.payload (r : LeaseRequest) : Value :=
  .mapping [
    ("campaign_id", .str r.campaignId),
    ("node_id", .str r.nodeId),
    ("resource_key", .str r.resourceKey),
    ("actor", r.actor.toDict),
    ("lease_id", .str r.leaseId),
    ("expected_revision", .int r.expectedRevision),
    ("authority_epoch", .int r.authorityEpoch),
    ("cancellation_epoch", .int r.cancellationEpoch),
    ("expires_at", optionalText r.expiresAt)]

/-- The digest the request identifier is bound to. -/
def LeaseRequest.digest (r : LeaseRequest) : String := canonicalJsonDigest r.payload

def LeaseRequest.readOnly (r : LeaseRequest) : Bool := readOnlyActorRoles.contains r.actor.role

def LeaseRequest.concurrentReadOnly (r : LeaseRequest) : Bool :=
  concurrentReadOnlyActorRoles.contains r.actor.role

/-- `_insert_actor_record`. -/
def Db.insertActorRecord (db : Db) (actor : Actor) : Result Db :=
  match db.actors.get? actor.actorId with
  | some existing => do
      check .requestConflict (canonicalJson existing.actor.toDict == canonicalJson actor.toDict)
        "actor identifier was rebound"
      return db
  | none => do
      check .integrity
        (actor.nativeThreadId == "UNBOUND"
          || !db.actors.rows.any fun row => row.nativeThreadId == actor.nativeThreadId)
        "UNIQUE constraint failed: actors.native_thread_id"
      db.checkCampaign actor.campaignId
      let actors ← uniqueViolation
        (db.actors.insert? {
          actorId := actor.actorId
          campaignId := actor.campaignId
          nodeId := actor.nodeId
          role := actor.role
          nativeThreadId := actor.nativeThreadId
          nativeIdentity := actor.nativeIdentity
          hostPid := actor.hostPid
          authorityEpoch := actor.authorityEpoch
          canWrite := actor.canWrite
          actor }) "actors.actor_id"
      return { db with actors }

/-- The active leases of a node, each with the row of its actor. -/
def Db.activeNodeLeases (db : Db) (campaignId nodeId : String) : List (LeaseRow × ActorRow) :=
  (db.leases.rows.filter fun lease =>
    lease.campaignId == campaignId && lease.nodeId == nodeId && lease.state == .active).filterMap
      fun lease => (db.actors.get? lease.actorId).map fun actor => (lease, actor)

/-- The checks of `acquire_lease` on the campaign and the actor. -/
def checkLeaseRequest (snapshot : CampaignSnapshot) (r : LeaseRequest) : Result Unit := do
  check .authority (r.actor.campaignId == r.campaignId && r.actor.nodeId == some r.nodeId)
    "actor binding differs from lease campaign or node"
  check .authority (r.actor.authorityEpoch == r.authorityEpoch)
    "actor authority epoch differs from lease request"
  check .revisionConflict (snapshot.revision == r.expectedRevision)
    ("expected revision " ++ toString r.expectedRevision ++ ", current "
      ++ toString snapshot.revision)
  check .authority (snapshot.authorityEpoch == r.authorityEpoch) "lease authority epoch is stale"
  check .authority (snapshot.cancellationEpoch == r.cancellationEpoch)
    "lease cancellation epoch is stale"
  check .authority (!(r.readOnly && r.actor.canWrite))
    "reviewer, closure reviewer, and parent leases are read-only"
  check .authority (r.readOnly || r.actor.canWrite) "exclusive worker lease must be write-capable"

/-- The checks of `acquire_lease` against the leases that are active. -/
def Db.checkLeaseConflicts (db : Db) (r : LeaseRequest) : Result Unit := do
  check .store
    (!db.leases.rows.any fun lease => lease.resourceKey == r.resourceKey && lease.state == .active)
    ("resource already has active lease: " ++ r.resourceKey)
  let nodeLeases := db.activeNodeLeases r.campaignId r.nodeId
  if r.concurrentReadOnly then
    check .store (!nodeLeases.any fun (_, actor) => actor.canWrite || actor.role == .validator)
      "concurrent read-only lease conflicts with exclusive actor"
  else
    check .store nodeLeases.isEmpty "exclusive lifecycle lease conflicts with active node leases"

/-- The event an exclusive lease submits. -/
def LeaseRequest.event (r : LeaseRequest) (fence : ℕ) : Result Event :=
  EventFields.build {
    eventId := r.requestId
    campaignId := r.campaignId
    eventType := .acquireLease
    expectedRevision := r.expectedRevision
    authorityEpoch := r.authorityEpoch
    cancellationEpoch := r.cancellationEpoch
    nodeId := some r.nodeId
    actorId := some r.actor.actorId
    fencingEpoch := some fence
    payload := [("lease_id", .str r.leaseId), ("resource_key", .str r.resourceKey)] }

/-- `INSERT INTO leases`, with the index `one_active_lease_per_resource`. -/
def Db.insertLease (db : Db) (lease : Lease) : Result Db := do
  check .integrity
    (lease.state != .active || !db.leases.rows.any fun row =>
      row.resourceKey == lease.resourceKey && row.state == .active)
    "UNIQUE constraint failed: leases.resource_key"
  db.checkNode lease.campaignId lease.nodeId
  check .integrity (db.actors.get? lease.actorId).isSome "FOREIGN KEY constraint failed"
  let leases ← uniqueViolation
    (db.leases.insert? {
      leaseId := lease.leaseId
      campaignId := lease.campaignId
      nodeId := lease.nodeId
      resourceKey := lease.resourceKey
      actorId := lease.actorId
      fencingEpoch := lease.fencingEpoch
      cancellationEpoch := lease.cancellationEpoch
      state := lease.state
      expiresAt := lease.expiresAt
      lease }) "leases.lease_id"
  return { db with leases }

/-- The fence of a lease and the step that grants it: a read-only lease takes the fence of its node,
an exclusive one a fence beyond those of node and resource, through the reducer. -/
def Db.fenceLease (db : Db) (snapshot : CampaignSnapshot) (r : LeaseRequest) :
    Result (ℕ × CampaignSnapshot × Db) := do
  let node ← snapshot.node r.nodeId
  if r.concurrentReadOnly then
    let db ← db.beginOperation r.requestId (some r.campaignId) "ACQUIRE_READ_ONLY_LEASE" r.digest
      (some r.expectedRevision)
    return (node.fencingEpoch, snapshot, db)
  else
    let previousResourceFence := ((db.resourceLocks.get? r.resourceKey).map (·.fencingEpoch)).getD 0
    let fence := max previousResourceFence node.fencingEpoch + 1
    let event ← r.event fence
    let (transition, db) ← db.applyEventTx event (some r.digest)
    return (fence, transition.1, db)

/-- The rows of actor, lease and lock, once the fence is known. -/
def Db.recordLease (db : Db) (r : LeaseRequest) (fence : ℕ) (nextSnapshot : CampaignSnapshot) :
    Result (Lease × Db) := do
  let db ← db.insertActorRecord r.actor
  let lease ← LeaseFields.build {
    leaseId := r.leaseId
    campaignId := r.campaignId
    nodeId := r.nodeId
    resourceKey := r.resourceKey
    actorId := r.actor.actorId
    fencingEpoch := fence
    cancellationEpoch := nextSnapshot.cancellationEpoch
    expiresAt := r.expiresAt }
  let db ← db.insertLease lease
  let db := { db with
    resourceLocks := db.resourceLocks.upsert {
      resourceKey := r.resourceKey
      fencingEpoch := fence
      leaseId := some r.leaseId
      campaignId := some r.campaignId
      nodeId := some r.nodeId } }
  if r.concurrentReadOnly then
    return (lease, db.finishOperation r.requestId (.readOnlyLease lease nextSnapshot))
  else return (lease, db)

/-- `acquire_lease`. -/
def Db.acquireLease (db : Db) (r : LeaseRequest) : Result (Lease × Db) := do
  match ← db.operationResult r.requestId r.digest with
  | some _ =>
      let row ← orRaise (db.leases.get? r.leaseId) .store "idempotent lease result is missing"
      return (row.lease.reload, db)
  | none => do
      let snapshot ← db.loadSnapshot r.campaignId
      checkLeaseRequest snapshot r
      db.checkLeaseConflicts r
      let (fence, nextSnapshot, db) ← db.fenceLease snapshot r
      db.recordLease r fence nextSnapshot

/-! ### Binding a native actor -/

/-- The arguments of `bind_actor`. -/
structure BindRequest where
  leaseId : String
  actorId : String
  role : ActorRole
  nativeThreadId : String
  identityDigest : String
  authorityEpoch : ℕ
  cancellationEpoch : ℕ
  fencingEpoch : ℕ
  requestId : String
  nativeIdentity : Mapping := []
  hostPid : Option ℤ := none

def BindRequest.payload (r : BindRequest) : Value :=
  .mapping [
    ("lease_id", .str r.leaseId),
    ("actor_id", .str r.actorId),
    ("role", .str r.role.value),
    ("native_thread_id", .str r.nativeThreadId),
    ("identity_digest", .str r.identityDigest),
    ("authority_epoch", .int r.authorityEpoch),
    ("cancellation_epoch", .int r.cancellationEpoch),
    ("fencing_epoch", .int r.fencingEpoch),
    ("native_identity", .mapping r.nativeIdentity),
    ("host_pid", (r.hostPid.map Value.int).getD .null)]

def BindRequest.digest (r : BindRequest) : String := canonicalJsonDigest r.payload

def BindRequest.canWrite (r : BindRequest) : Bool := !readOnlyActorRoles.contains r.role

/-- `text.replace("\\", "/").rstrip("/").casefold()`. -/
def normalizedPath (text : String) : String :=
  let slashed := text.toList.map fun c => if c = '\\' then '/' else c
  casefold (String.ofList (slashed.reverse.dropWhile (· = '/')).reverse)

/-- `text.replace("_", "-").casefold()`. -/
def sandboxName (text : String) : String :=
  casefold (String.ofList (text.toList.map fun c => if c = '_' then '-' else c))

def requiredIdentity : List String :=
  ["thread_id", "cwd", "source_digest", "sandbox_type", "writable_roots", "mediated_write_scope",
    "dynamic_tool_digest", "native_write_mode", "role", "lease_digest", "thread_created_idle"]

/-- The items of a value that passes `isinstance(value, list)`. -/
def listItems? : Value → Option (List Value)
  | .tuple items => some items
  | _ => none

/-- The checks of `bind_actor` on the write authority the native thread was given. -/
def checkWriteAuthority (snapshot : CampaignSnapshot) (nodeId : String) (r : BindRequest) :
    Result Unit := do
  let identity := r.nativeIdentity
  let sandboxType := sandboxName (identity.getD "sandbox_type" (.str "")).text
  let invalid := "native actor writable roots are invalid"
  let writableRoots ← orRaise (listItems? (identity.read "writable_roots")) .authority invalid
  let mediatedScope ← orRaise (listItems? (identity.read "mediated_write_scope")) .authority invalid
  let dynamicToolDigest := (identity.getD "dynamic_tool_digest" (.str "")).text
  let nativeWriteMode := (identity.getD "native_write_mode" (.str "")).text
  let confined := ["read-only", "readonly"].contains sandboxType && writableRoots.isEmpty
    && dynamicToolDigest.length == 64
  if r.canWrite then
    let nodeSpec ← snapshot.nodeSpec nodeId
    check .authority
      (confined && Value.eqItems mediatedScope (nodeSpec.allowedPaths.map .str)
        && nativeWriteMode == "scoped-dynamic-tools")
      "write actor lacks exact read-only mediated-write authority"
  else
    check .authority (confined && mediatedScope.isEmpty && nativeWriteMode == "denied")
      "read-only actor has writable native authority"

/-- The checks of `bind_actor` on the host process. -/
def checkHostProcess (r : BindRequest) : Result Unit := do
  let pid := (r.hostPid.map Value.int).getD .null
  check .authority ((r.nativeIdentity.read "host_pid").eq pid)
    "native host process identity differs from binding"
  let processIdentity := r.nativeIdentity.read "host_process_identity"
  match r.hostPid with
  | none =>
      check .authority (processIdentity == .null) "actor without a host PID has process identity"
  | some _ =>
      check .authority
        (processIdentity.asMapping?.any fun process =>
          (process.read "pid").eq pid
            && (process.getD "creation_token" (.str "")).text != ""
            && (process.getD "executable" (.str "")).text != "")
        "native host process creation identity is incomplete"

/-- The checks of `bind_actor` on the native identity. -/
def checkNativeIdentity (snapshot : CampaignSnapshot) (nodeId : String) (r : BindRequest) :
    Result Unit := do
  let identity := r.nativeIdentity
  check .authority (canonicalJsonDigest (.mapping identity) == r.identityDigest)
    "native actor identity digest is invalid"
  check .authority (requiredIdentity.all fun key => (identity.get? key).isSome)
    "native actor identity evidence is incomplete"
  check .authority
    ((identity.read "thread_id").eq (.str r.nativeThreadId)
      && (identity.read "role").eq (.str r.role.value)
      && normalizedPath (identity.getD "cwd" (.str "")).text == normalizedPath snapshot.spec.worktree
      && identity.read "thread_created_idle" == .bool true
      && [Value.null, .str ""].contains (identity.read "turn_id"))
    "native actor was not exactly bound while idle"
  check .authority
    ((identity.getD "source_digest" (.str "")).text.length == 64
      && (identity.getD "lease_digest" (.str "")).text.length == 64)
    "native actor identity digests are invalid"
  checkWriteAuthority snapshot nodeId r
  checkHostProcess r

/-- `bind_actor`. -/
def Db.bindActor (db : Db) (r : BindRequest) : Result (Actor × Db) := do
  match ← db.operationResult r.requestId r.digest with
  | some prior => return (← prior.actor, db)
  | none => do
      let lease ← orRaise ((db.leases.get? r.leaseId).filter (·.state == .active)) .store
        "actor binding requires an active one-use lease"
      check .authority (lease.actorId == r.actorId) "actor identifier differs from lease"
      let snapshot ← db.loadSnapshot lease.campaignId
      check .authority
        (snapshot.authorityEpoch == r.authorityEpoch
          && snapshot.cancellationEpoch == r.cancellationEpoch
          && lease.fencingEpoch == r.fencingEpoch)
        "actor binding epochs differ from current lease authority"
      let row ← orRaise (db.actors.get? r.actorId) .store "lease actor record is missing"
      check .authority (row.role == r.role) "bound actor role differs from leased role"
      check .authority
        (!row.used && (row.nativeThreadId == "UNBOUND" || row.nativeThreadId == r.nativeThreadId))
        "actor lease is already bound or used"
      checkNativeIdentity snapshot lease.nodeId r
      let actor ← ActorFields.build {
        actorId := r.actorId
        campaignId := lease.campaignId
        nodeId := some lease.nodeId
        role := r.role
        nativeThreadId := r.nativeThreadId
        authorityEpoch := r.authorityEpoch
        canWrite := r.canWrite
        nativeIdentity := r.nativeIdentity
        hostPid := r.hostPid
        principalId := row.actor.principalId }
      let db ← db.beginOperation r.requestId (some actor.campaignId) "BIND_ACTOR" r.digest
        (some snapshot.revision)
      check .integrity
        (r.nativeThreadId == "UNBOUND" || !db.actors.rows.any fun other =>
          other.actorId != r.actorId && other.nativeThreadId == r.nativeThreadId)
        "UNIQUE constraint failed: actors.native_thread_id"
      let db := { db with
        actors := db.actors.update (·.actorId == r.actorId)
          (fun row => { row with
            role := r.role
            nativeThreadId := r.nativeThreadId
            identityDigest := some r.identityDigest
            nativeIdentity := r.nativeIdentity
            hostPid := r.hostPid
            canWrite := r.canWrite
            boundRequestId := some r.requestId
            used := true
            actor }) fun _ => rfl }
      return (actor, db.finishOperation r.requestId (.boundActor actor))

/-! ### Releasing -/

/-- The arguments of `release_lease`. -/
structure ReleaseRequest where
  leaseId : String
  requestId : String
  expectedRevision : ℕ
  authorityEpoch : ℕ
  cancellationEpoch : ℕ

def ReleaseRequest.payload (r : ReleaseRequest) : Value :=
  .mapping [
    ("lease_id", .str r.leaseId),
    ("expected_revision", .int r.expectedRevision),
    ("authority_epoch", .int r.authorityEpoch),
    ("cancellation_epoch", .int r.cancellationEpoch)]

def ReleaseRequest.digest (r : ReleaseRequest) : String := canonicalJsonDigest r.payload

/-- The event the release of an exclusive lease submits. -/
def ReleaseRequest.event (r : ReleaseRequest) (row : LeaseRow) : Result Event :=
  EventFields.build {
    eventId := r.requestId
    campaignId := row.campaignId
    eventType := .releaseLease
    expectedRevision := r.expectedRevision
    authorityEpoch := r.authorityEpoch
    cancellationEpoch := r.cancellationEpoch
    nodeId := some row.nodeId
    actorId := some row.actorId
    fencingEpoch := some row.fencingEpoch
    payload := [("lease_id", .str r.leaseId)] }

/-- The lease and its lock after a release. -/
def Db.retireLease (db : Db) (leaseId : String) : Db :=
  { db with
    leases := db.leases.update (·.leaseId == leaseId)
      (fun row => { row with state := .released, lease := row.lease.withState .released })
      LeaseRow.released_key
    resourceLocks := db.resourceLocks.update (·.leaseId == some leaseId)
      (fun row => { row with leaseId := none }) LockRow.unlocked_key }

/-- The part of `release_lease` after the replay check. -/
def Db.releaseActive (db : Db) (r : ReleaseRequest) (row : LeaseRow) :
    Result (CampaignSnapshot × Db) := do
  check .store (row.state == .active) "lease is not active"
  let actor ← orRaise (db.actors.get? row.actorId) .store "lease actor is missing"
  if concurrentReadOnlyActorRoles.contains actor.role then
    let snapshot ← db.loadSnapshot row.campaignId
    check .revisionConflict (snapshot.revision == r.expectedRevision)
      "read-only lease release revision is stale"
    check .authority
      (snapshot.authorityEpoch == r.authorityEpoch
        && snapshot.cancellationEpoch == r.cancellationEpoch)
      "read-only lease release epochs are stale"
    let db ← db.beginOperation r.requestId (some row.campaignId) "RELEASE_READ_ONLY_LEASE" r.digest
      (some r.expectedRevision)
    return (snapshot, (db.retireLease r.leaseId).finishOperation r.requestId
      (.transition snapshot []))
  else
    let event ← r.event row
    let (transition, db) ← db.applyEventTx event (some r.digest)
    return (transition.1, db.retireLease r.leaseId)

/-- `release_lease`. -/
def Db.releaseLease (db : Db) (r : ReleaseRequest) : Result (CampaignSnapshot × Db) := do
  let row ← orRaise (db.leases.get? r.leaseId) .store ("unknown lease: " ++ r.leaseId)
  match ← db.operationResult r.requestId r.digest with
  | some prior => return (← prior.snapshot, db)
  | none => db.releaseActive r row

/-! ### Restart recovery -/

/-- The state a node must be in for a reviewer of a role to survive a restart. -/
def reviewingState (role : ActorRole) : NodeState :=
  if role = .reviewer then .checksAndReview else .closure

/-- The checks of one retained lease. -/
def Db.checkRetained (db : Db) (retained : List String) (leaseId : String) : Result Unit := do
  let lost := "only an active bound read-only reviewer may survive recovery"
  let lease ← orRaise (db.leases.get? leaseId) .store lost
  let actor ← orRaise (db.actors.get? lease.actorId) .store lost
  check .store
    (lease.state == .active && !actor.canWrite && actor.used
      && actor.identityDigest.any (· != "") && actor.boundRequestId.any (· != "")
      && [ActorRole.reviewer, .closureReviewer].contains actor.role
      && actor.nativeThreadId != "UNBOUND") lost
  let snapshot ← db.loadSnapshot lease.campaignId
  let node ← snapshot.node lease.nodeId
  check .store
    (snapshot.state == .running
      && node.state == reviewingState actor.role
      && snapshot.activeNodeId == some node.nodeId
      && actor.actor.principalId.any snapshot.spec.requiredReviewCohort.contains
      && actor.authorityEpoch == snapshot.authorityEpoch
      && lease.cancellationEpoch == snapshot.cancellationEpoch
      && lease.fencingEpoch == node.fencingEpoch
      && some (canonicalJsonDigest (.mapping actor.nativeIdentity)) == actor.identityDigest)
    "read-only recovery state or identity changed"
  check .store
    ((db.leases.rows.filter fun row =>
        row.campaignId == snapshot.spec.campaignId && row.state == .active).all
      fun row => retained.contains row.leaseId)
    "read-only recovery must retain the complete active cohort"

/-- `recover_after_restart`. -/
def Db.recoverAfterRestart (db : Db) (retained : List String) : Result Db := do
  check .store (decide retained.Nodup) "read-only recovery contains duplicate leases"
  forEach retained (db.checkRetained retained)
  let outbox := db.outbox.update (·.state == .executing)
    (fun row => { row with state := .ambiguous }) fun _ => rfl
  let leases := db.leases.update
    (fun row => row.state == .active && !retained.contains row.leaseId)
    (fun row => { row with state := .invalidated }) LeaseRow.invalidated_key
  let resourceLocks := db.resourceLocks.update
    (fun lock => lock.leaseId.any fun leaseId =>
      (leases.get? leaseId).any fun lease => lease.state != .active)
    (fun lock => { lock with leaseId := none }) LockRow.unlocked_key
  return { db with outbox, leases, resourceLocks }

end CodingOS.Store
