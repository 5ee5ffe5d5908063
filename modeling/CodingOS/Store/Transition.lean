import CodingOS.Admission.Scope
import CodingOS.Store.Schema

/-!
# The transactions that move a campaign

`create_campaign` and `apply_event` of `store.py`, with the helpers every lifecycle transaction goes
through: the one-use request row (`_operation_result`, `_begin_operation`, `_finish_operation`), the
projection of a snapshot (`_sync_snapshot`), the outbox insert (`_insert_effect`) and
`_persist_transition`.

A transaction is a function from the database to its result and the next database.  An error carries
no database, which is the rollback of the source.
-/

namespace CodingOS.Store

open CodingOS.Python CodingOS.Campaign Systems

variable [Runtime]

/-! ### One-use requests -/

/-- `_operation_result`. -/
def Db.operationResult (db : Db) (requestId payloadDigest : String) :
    Result (Option OperationResult) :=
  match db.operations.get? requestId with
  | none => .ok none
  | some row => do
      check .requestConflict (row.payloadDigest == payloadDigest)
        "request identifier is already bound to a different payload digest"
      match row.status, row.result with
      | .confirmed, some result => return some result
      | status, _ => fail .store ("request is already in state " ++ status.value)

/-- `_begin_operation`. -/
def Db.beginOperation (db : Db) (requestId : String) (campaignId : Option String)
    (kind payloadDigest : String) (revision : Option ℕ) : Result Db := do
  let operations ← uniqueViolation
    (db.operations.insert? {
      requestId, campaignId, kind, payloadDigest, status := .executing, createdRevision := revision })
    "operations.request_id"
  return { db with operations }

/-- `_finish_operation`. -/
def Db.finishOperation (db : Db) (requestId : String) (result : OperationResult) : Db :=
  { db with
    operations := db.operations.update (·.requestId == requestId)
      (fun row => { row with status := .confirmed, result := some result }) fun _ => rfl }

/-! ### The projection of a snapshot -/

/-- The row of a node. -/
def NodeRow.project (campaignId : String) (node : NodeSnapshot) : NodeRow where
  campaignId
  nodeId := node.nodeId
  state := node.state
  fencingEpoch := node.fencingEpoch
  node

/-- The row of a finding of a node. -/
def FindingRow.project (campaignId : String) (node : NodeSnapshot) (finding : Finding) :
    FindingRow where
  campaignId
  nodeId := node.nodeId
  findingId := finding.findingId
  origin := finding.origin
  blocking := finding.blocking
  resolved := node.resolvedFindingIds.contains finding.findingId
  finding

def nodeRows (snapshot : CampaignSnapshot) : List NodeRow :=
  snapshot.nodes.map (NodeRow.project snapshot.spec.campaignId)

def findingRows (snapshot : CampaignSnapshot) : List FindingRow :=
  snapshot.nodes.flatMap fun node =>
    (node.findings ++ node.closureFindings).map (FindingRow.project snapshot.spec.campaignId node)

/-- `_sync_snapshot`.  The campaign's row was written just before, so the foreign keys hold. -/
def Db.syncSnapshot (db : Db) (snapshot : CampaignSnapshot) : Result Db := do
  let nodes := db.nodes.upsertAll (nodeRows snapshot)
  let cleared := db.findings.delete (·.campaignId == snapshot.spec.campaignId)
  let findings ← uniqueViolation (cleared.insertAll? (findingRows snapshot)) "findings"
  return { db with nodes, findings }

/-! ### Telemetry -/

/-- `_telemetry_category`. -/
def telemetryCategory (snapshot : CampaignSnapshot) : Option String :=
  match snapshot.state with
  | .completed => some "completed"
  | .failed => some "failed"
  | .cancelled => some "stopped"
  | _ => none

/-- `INSERT OR IGNORE INTO telemetry`. -/
def Db.noteTelemetry (db : Db) (row : TelemetryRow) : Db :=
  { db with telemetry := (db.telemetry.insert? row).getD db.telemetry }

/-- The category of `_record_rejection`. -/
def rejectionCategory (exc : CampaignError) : String :=
  if exc.kind == .budget then "loop_prevented"
  else if exc.kind == .transition
      && ["already used", "already been used", "generation already"].any
        (contains (lower exc.message)) then "loop_prevented"
  else "denied"

/-- `_record_rejection`, in a transaction of its own after the rollback. -/
def Db.recordRejection (db : Db) (event : Event) (exc : CampaignError) : Db :=
  db.noteTelemetry {
    telemetryId := event.eventId ++ ":" ++ rejectionCategory exc
    campaignId := event.campaignId
    category := rejectionCategory exc
    payload := .mapping [
      ("event_type", .str event.eventType.value), ("error", .str exc.message)] }

/-! ### The outbox -/

/-- The row `_insert_effect` writes. -/
def EffectRow.ofIntent (intent : ExternalEffectIntent) (revision : ℕ) : EffectRow where
  operationId := intent.operationId
  campaignId := intent.campaignId
  nodeId := intent.nodeId
  kind := intent.kind
  state := intent.state
  payload := intent.payload
  payloadDigest := canonicalJsonDigest (.mapping intent.payload)
  authorityEpoch := intent.authorityEpoch
  cancellationEpoch := intent.cancellationEpoch
  fencingEpoch := intent.fencingEpoch
  createdRevision := revision
  updatedRevision := revision

/-- Whether `_insert_effect` takes an existing row for the one it was to insert: it compares the
payload digest and the kind. -/
def EffectRow.replays (row : EffectRow) (intent : ExternalEffectIntent) : Bool :=
  row.payloadDigest == canonicalJsonDigest (.mapping intent.payload) && row.kind == intent.kind

/-- `_insert_effect`. -/
def Db.insertEffect (db : Db) (intent : ExternalEffectIntent) (revision : ℕ) : Result Db :=
  match db.outbox.get? intent.operationId with
  | some existing => do
      check .requestConflict (existing.replays intent) "effect operation identity was rebound"
      return db
  | none => do
      db.checkCampaign intent.campaignId
      let outbox ← uniqueViolation (db.outbox.insert? (.ofIntent intent revision))
        "external_effect_outbox.operation_id"
      return { db with outbox }

/-! ### Persisting a transition -/

/-- `UPDATE campaigns … WHERE campaign_id=? AND store_revision=?`, which must change one row. -/
def Db.swapSnapshot (db : Db) (event : Event) (nextSnapshot : CampaignSnapshot) : Result Db := do
  let current := fun row : CampaignRow =>
    row.campaignId == event.campaignId && row.storeRevision == event.expectedRevision
  check .revisionConflict ((db.campaigns.get? event.campaignId).any current)
    "compare-and-swap revision update failed"
  return { db with
    campaigns := db.campaigns.update current
      (fun row => { row with
        snapshot := nextSnapshot
        state := nextSnapshot.state
        storeRevision := nextSnapshot.revision
        authorityEpoch := nextSnapshot.authorityEpoch
        cancellationEpoch := nextSnapshot.cancellationEpoch }) fun _ => rfl }

/-- The row of an event. -/
def EventRow.ofEvent (event : Event) (nextSnapshot : CampaignSnapshot) (payloadDigest : String) :
    EventRow where
  eventId := event.eventId
  campaignId := event.campaignId
  revision := nextSnapshot.revision
  eventType := event.eventType
  payloadDigest
  event
  telemetryCategory := Store.telemetryCategory nextSnapshot

/-- `INSERT INTO events`, with `UNIQUE (campaign_id, revision)`. -/
def Db.insertEvent (db : Db) (row : EventRow) : Result Db := do
  check .integrity
    (!db.events.rows.any fun r => r.campaignId == row.campaignId && r.revision == row.revision)
    "UNIQUE constraint failed: events.campaign_id, events.revision"
  let events ← uniqueViolation (db.events.insert? row) "events.event_id"
  return { db with events }

/-- The telemetry of a transition that ends the campaign. -/
def Db.noteTerminal (db : Db) (event : Event) (nextSnapshot : CampaignSnapshot) : Db :=
  match telemetryCategory nextSnapshot with
  | none => db
  | some category => db.noteTelemetry {
      telemetryId := event.eventId ++ ":" ++ category
      campaignId := event.campaignId
      category
      payload := .mapping [("revision", .int nextSnapshot.revision)] }

/-- The outbox rows of the external intents. -/
def Db.insertEffects (db : Db) (effects : List ExternalEffectIntent) (revision : ℕ) : Result Db :=
  (effects.filter (·.external)).foldlM (fun db intent => db.insertEffect intent revision) db

/-- The review row of `START_REVIEW`. -/
def Db.insertReview (db : Db) (event : Event) (nextSnapshot : CampaignSnapshot) : Result Db := do
  let reviewId := (event.payload.getD "review_id" (.str event.eventId)).text
  let cohort ← payloadItems event "review_cohort"
  let nodeId := (optionalText event.nodeId).text
  let node ← nextSnapshot.node nodeId
  db.checkNode event.campaignId nodeId
  let reviews ← uniqueViolation
    (db.reviews.insert? {
      reviewId
      campaignId := event.campaignId
      nodeId
      cohortDigest := canonicalJsonDigest (.tuple cohort)
      candidateHead := node.candidateHead
      state := "DISPATCHED" }) "reviews.review_id"
  return { db with reviews }

/-- The rows only `START_REVIEW` writes. -/
def Db.openReview (db : Db) (event : Event) (nextSnapshot : CampaignSnapshot) : Result Db :=
  if event.eventType = .startReview then db.insertReview event nextSnapshot else .ok db

/-- `UPDATE leases SET state='INVALIDATED'` and `UPDATE resource_locks SET lease_id=NULL` for one
campaign. -/
def Db.invalidateLeases (db : Db) (campaignId : String) : Db :=
  { db with
    leases := db.leases.update (fun row => row.campaignId == campaignId && row.state == .active)
      (fun row => { row with state := .invalidated }) LeaseRow.invalidated_key
    resourceLocks := db.resourceLocks.update (·.campaignId == some campaignId)
      (fun row => { row with leaseId := none }) LockRow.unlocked_key }

/-- One `UPDATE external_effect_outbox SET state=… WHERE campaign_id=? AND state=?`. -/
def Db.moveEffects (db : Db) (campaignId : String) (source target : EffectState) (revision : ℕ) :
    Db :=
  { db with
    outbox := db.outbox.update (fun row => row.campaignId == campaignId && row.state == source)
      (fun row => { row with state := target, updatedRevision := revision }) fun _ => rfl }

/-- The side effects of a terminal transition.  Cancellation rewrites the open rows of the outbox,
failure does not. -/
def Db.settle (db : Db) (event : Event) (nextSnapshot : CampaignSnapshot) : Db :=
  if event.eventType = .cancel then
    ((db.invalidateLeases event.campaignId).moveEffects event.campaignId .prepared .cancelled
      nextSnapshot.revision).moveEffects event.campaignId .executing .ambiguous
      nextSnapshot.revision
  else if nextSnapshot.state = .failed then db.invalidateLeases event.campaignId
  else db

/-- `_persist_transition`. -/
def Db.persistTransition (db : Db) (event : Event) (nextSnapshot : CampaignSnapshot)
    (effects : List ExternalEffectIntent) (payloadDigest : String) : Result Db := do
  let db ← db.swapSnapshot event nextSnapshot
  let db ← db.syncSnapshot nextSnapshot
  let db ← db.insertEvent (.ofEvent event nextSnapshot payloadDigest)
  let db ← (db.noteTerminal event nextSnapshot).insertEffects effects nextSnapshot.revision
  let db ← db.openReview event nextSnapshot
  return db.settle event nextSnapshot

/-! ### Applying an event -/

/-- A value bound to a parameter of a statement and compared with a text column. -/
def bindText : Value → Result (Option String)
  | .null => .ok none
  | .str s => .ok (some s)
  | .bool b => .ok (some (if b then "1" else "0"))
  | .int n => .ok (some (intText n))
  | .float q => .ok (some (Runtime.floatRepr q))
  | _ => fail .python "type is not supported"

/-- The persisted evidence `REQUEST_VALIDATION_CORRECTION`, and no other event, must name. -/
def Db.requireCorrectionEvidence (db : Db) (event : Event) : Result Unit := do
  if event.eventType != .requestValidationCorrection then return ()
  let correction ← orRaise (event.payload.getD "correction" (.mapping [])).asMapping? .python
    "object has no attribute 'get'"
  let evidenceId ← bindText (correction.read "evidence_id")
  let row := evidenceId.bind fun evidenceId => db.evidence.get? evidenceId
  let failureEvidence := correction.getD "failure_evidence" (.mapping [])
  check .authority
    (row.any fun row =>
      row.campaignId == event.campaignId
        && row.nodeId == event.nodeId
        && row.kind == .validation
        && (Value.str row.digest).eq (correction.read "evidence_digest")
        && (optionalText row.candidateHead).eq (correction.read "candidate_head")
        && canonicalJson (.mapping row.payload) == canonicalJson failureEvidence)
    "validation correction requires exact persisted failed command evidence"

/-- The part of `_apply_event_tx` after the replay check: the event is new. -/
def Db.applyNewEvent (db : Db) (event : Event) (payloadDigest : String) :
    Result (Transition × Db) := do
  let snapshot ← db.loadSnapshot event.campaignId
  db.requireCorrectionEvidence event
  let db ← db.beginOperation event.eventId (some event.campaignId) event.eventType.value
    payloadDigest (some event.expectedRevision)
  let (nextSnapshot, effects) ← reduce snapshot event
  let db ← db.persistTransition event nextSnapshot effects payloadDigest
  return ((nextSnapshot, effects),
    db.finishOperation event.eventId (.transition nextSnapshot effects))

/-- `_apply_event_tx`. -/
def Db.applyEventTx (db : Db) (event : Event) (operationDigest : Option String := none) :
    Result (Transition × Db) := do
  let payloadDigest := operationDigest.getD (canonicalJsonDigest event.toDict)
  match ← db.operationResult event.eventId payloadDigest with
  | some prior => return ((← prior.snapshot, ← prior.effects), db)
  | none => db.applyNewEvent event payloadDigest

/-- `apply_event`. -/
def Db.applyEvent (db : Db) (event : Event) : Result (Transition × Db) := do
  check .authority
    (event.eventType != .authorizeRepair && event.eventType != .authorizePublication)
    (event.eventType.value ++ " requires a one-use human authorization receipt")
  db.applyEventTx event

/-! ### Creating a campaign -/

/-- The worktree two campaigns are compared by. -/
def worktreeIdentity (spec : CampaignSpec) : String :=
  casefold (Runtime.absolutePath spec.worktree)

/-- The loop over the active campaigns: no scope may overlap in one worktree. -/
def checkActiveScopes (spec : CampaignSpec) (rows : List CampaignRow) : Result Unit :=
  forEach (rows.filter fun row => !terminalCampaignStates.contains row.state) fun row => do
    if worktreeIdentity row.spec == worktreeIdentity spec then
      let overlap ← Admission.scopesOverlap spec.allowedPaths row.spec.allowedPaths
      check .scopeOverlap (!overlap)
        ("allowed scope overlaps active campaign/resource: " ++ row.campaignId)

/-- The row of a fresh campaign. -/
def CampaignRow.ofSpec (spec : CampaignSpec) (snapshot : CampaignSnapshot) : CampaignRow where
  campaignId := spec.campaignId
  specificationRevision := spec.specificationRevision
  specificationDigest := spec.specificationDigest
  spec
  snapshot
  state := snapshot.state
  storeRevision := snapshot.revision
  authorityEpoch := snapshot.authorityEpoch
  cancellationEpoch := snapshot.cancellationEpoch

/-- `INSERT INTO campaigns`. -/
def Db.insertCampaign (db : Db) (spec : CampaignSpec) (snapshot : CampaignSnapshot) :
    Result Db := do
  let campaigns ← uniqueViolation (db.campaigns.insert? (.ofSpec spec snapshot))
    "campaigns.campaign_id"
  return { db with campaigns }

/-- `INSERT INTO dependencies` for every edge of the graph. -/
def Db.insertDependencies (db : Db) (spec : CampaignSpec) : Result Db := do
  let rows := spec.nodes.flatMap fun node => node.dependencies.map fun dependency =>
    ({ campaignId := spec.campaignId, nodeId := node.nodeId, dependsOnNodeId := dependency } :
      DependencyRow)
  forEach rows fun row => do
    db.checkNode row.campaignId row.nodeId
    db.checkNode row.campaignId row.dependsOnNodeId
  let dependencies ← uniqueViolation (db.dependencies.insertAll? rows) "dependencies"
  return { db with dependencies }

/-- The request identifier `create_campaign` falls back to. -/
def createRequestId (spec : CampaignSpec) (requestId : Option String) : String :=
  match requestId with
  | none | some "" => "create:" ++ spec.campaignId ++ ":" ++ spec.specificationDigest
  | some requestId => requestId

/-- `create_campaign`. -/
def Db.createCampaign (db : Db) (spec : CampaignSpec) (requestId payloadDigest : Option String) :
    Result (CampaignSnapshot × Db) := do
  spec.verifyDigest
  let snapshot ← CampaignSnapshot.initial spec
  let requestId := createRequestId spec requestId
  let computedDigest := canonicalJsonDigest (.mapping spec.toDict)
  check .requestConflict (payloadDigest.all (· == computedDigest))
    "declared payload digest differs from campaign specification"
  match ← db.operationResult requestId computedDigest with
  | some prior => return (← prior.snapshot, db)
  | none =>
      match db.campaigns.get? spec.campaignId with
      | some existing => do
          check .store (existing.specificationDigest == spec.specificationDigest)
            "campaign identifier already owns another specification"
          let db ← db.beginOperation requestId (some spec.campaignId) "CREATE_CAMPAIGN"
            computedDigest (some snapshot.revision)
          return (existing.snapshot.reload,
            db.finishOperation requestId (.transition existing.snapshot []))
      | none => do
          checkActiveScopes spec db.campaigns.rows
          let db ← db.beginOperation requestId (some spec.campaignId) "CREATE_CAMPAIGN"
            computedDigest (some 0)
          let db ← db.insertCampaign spec snapshot
          let db ← db.syncSnapshot snapshot
          let db ← db.insertDependencies spec
          return (snapshot, db.finishOperation requestId (.transition snapshot []))

end CodingOS.Store
