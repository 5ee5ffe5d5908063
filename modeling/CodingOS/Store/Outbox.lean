import CodingOS.Store.Transition

/-!
# The outbox transactions

`prepare_effect`, `update_effect`, `get_effect` and `list_outbox` of `store.py`.  `update_effect` is
the compare-and-set every driver goes through: the current state must be the expected one, and the
target must follow it in `EFFECT_TRANSITIONS`.
-/

namespace CodingOS.Store

open CodingOS.Python CodingOS.Campaign Systems

/-- `EFFECT_TRANSITIONS`. -/
def effectTransitions : EffectState → List EffectState
  | .prepared => [.executing, .cancelled]
  | .executing => [.confirmed, .failed, .ambiguous, .cancelled]
  | .ambiguous => [.confirmed, .failed, .cancelled]
  | .confirmed | .failed | .cancelled => []

variable [Runtime]

/-- `get_effect`. -/
def Db.getEffect (db : Db) (operationId : String) : Result EffectRow :=
  orRaise (db.outbox.get? operationId) .store ("unknown effect operation: " ++ operationId)

/-- `list_outbox`, ordered by revision and operation. -/
def Db.listOutbox (db : Db) (state : Option EffectState) (campaignId : Option String) :
    List EffectRow :=
  (db.outbox.rows.filter fun row => state.all (· == row.state) && campaignId.all (· == row.campaignId)
    ).insertionSort fun a b => a.createdRevision < b.createdRevision
      ∨ (a.createdRevision = b.createdRevision ∧ a.operationId ≤ b.operationId)

/-- The payload and node checks of `prepare_effect`. -/
def checkPreparedNode (node : NodeSnapshot) (operationId : String) (kind : EffectKind)
    (payload : Mapping) : Result Unit := do
  check .authority
    (node.candidateHead.isNone || (payload.read "candidate_head").eq (candidateHeadValue node))
    "effect candidate head differs from frozen node head"
  check .authority
    (node.state == .publishing
      && node.pendingPublicationEffect == some kind.value
      && node.pendingPublicationOperationId == some operationId)
    "node effect is not the exact reducer-prepared publication operation"

/-- The node of `prepare_effect`: none for a missing or an empty identifier. -/
def preparedNode (snapshot : CampaignSnapshot) (nodeId : Option String) :
    Result (Option NodeSnapshot) :=
  match nodeId with
  | none | some "" => .ok none
  | some nodeId => return some (← snapshot.node nodeId)

/-- `prepare_effect`. -/
def Db.prepareEffect (db : Db) (operationId campaignId : String) (nodeId : Option String)
    (kind : EffectKind) (payload : Mapping) (payloadDigest : Option String) : Result Db := do
  check .requestConflict (payloadDigest.all (· == canonicalJsonDigest (.mapping payload)))
    "effect payload digest differs from supplied payload"
  let snapshot ← db.loadSnapshot campaignId
  check .transition (snapshot.state != .cancelled)
    "cancelled campaign cannot prepare new external effects"
  let node ← preparedNode snapshot nodeId
  let allowed ← orRaise
    (snapshot.spec.publicationAuthority.getD "allowed_effects" (.tuple [])).items? .python
    "object is not iterable"
  check .authority ((Value.str kind.value).memberOf allowed)
    ("effect lacks immutable publication authority: " ++ kind.value)
  match node with
  | none => pure ()
  | some node => checkPreparedNode node operationId kind payload
  let _ ← nonempty (.str operationId) "operation_id"
  let _ ← nonempty (.str campaignId) "campaign_id"
  db.insertEffect {
    operationId
    campaignId
    nodeId
    kind
    state := .prepared
    payload
    authorityEpoch := snapshot.authorityEpoch
    cancellationEpoch := snapshot.cancellationEpoch
    fencingEpoch := node.map (·.fencingEpoch) } snapshot.revision

/-- The checks of `update_effect` before a row may begin to execute. -/
def checkExecutable (snapshot : CampaignSnapshot) (row : EffectRow) : Result Unit := do
  check .transition (snapshot.state != .cancelled) "cancelled campaign cannot execute a prepared effect"
  check .authority
    (row.authorityEpoch == snapshot.authorityEpoch
      && row.cancellationEpoch == snapshot.cancellationEpoch) "effect epochs are stale"
  match row.nodeId, row.fencingEpoch with
  | some nodeId, some fencingEpoch => do
      let node ← snapshot.node nodeId
      check .authority (fencingEpoch == node.fencingEpoch) "effect fencing epoch is stale"
  | _, _ => return ()

/-- `UPDATE external_effect_outbox SET state=?, result_json=?, updated_revision=? WHERE
operation_id=? AND state=?`. -/
def Db.writeEffect (db : Db) (operationId : String) (current target : EffectState)
    (result : Option Value) (revision : ℕ) : Db :=
  { db with
    outbox := db.outbox.update (fun row => row.operationId == operationId && row.state == current)
      (fun row => { row with state := target, result, updatedRevision := revision }) fun _ => rfl }

/-- The transaction of `update_effect`; the row it reads back afterwards is `get_effect`'s. -/
def Db.updateEffect (db : Db) (operationId : String) (target : EffectState) (result : Option Value)
    (expectedState : Option EffectState) : Result Db := do
  let row ← db.getEffect operationId
  check .revisionConflict (expectedState.all (· == row.state)) "effect state compare-and-swap failed"
  if target = row.state then
    match result with
    | none => return db
    | some result => do
        let snapshot ← db.loadSnapshot row.campaignId
        return db.writeEffect operationId row.state row.state (some result) snapshot.revision
  else
    check .transition ((effectTransitions row.state).contains target)
      ("effect transition " ++ row.state.value ++ " -> " ++ target.value ++ " is forbidden")
    let snapshot ← db.loadSnapshot row.campaignId
    if target = .executing then checkExecutable snapshot row
    return db.writeEffect operationId row.state target result snapshot.revision

end CodingOS.Store
