import CodingOS.Campaign.Snapshot

/-!
# The reducer

`reducer.py`: the single pure lifecycle reducer.  `reduce` keeps the source's shape — the checks
every event passes, one branch for each event type, `_finish_revision` — with each branch of the
source's chain as a definition of its own, in the source's order, so that branch and source text can
be read side by side.  Checks stand in the order the source makes them, because the first one that
fails decides the error.
-/

namespace CodingOS.Campaign

open CodingOS.Python

/-! ### Tables -/

def terminalCampaignStates : List CampaignState := [.completed, .failed, .cancelled]

def terminalNodeStates : List NodeState := [.done, .failedExactNode, .cancelled]

/-- A node after `CANCEL`. -/
def cancelNode (node : NodeSnapshot) : NodeSnapshot :=
  if terminalNodeStates.contains node.state then node
  else { node with state := .cancelled, leaseActorId := none }

theorem cancelNode_nodeId (node : NodeSnapshot) : (cancelNode node).nodeId = node.nodeId := by
  unfold cancelNode
  split <;> rfl

/-- `_DISPATCH_TOKEN`. -/
def dispatchToken? : EventType → Option BudgetToken
  | .startImplementation => some .childStart
  | .startReview => some .reviewDispatch
  | .startRepair => some .repairDispatch
  | .revalidationPassed => some .closureDispatch
  | .startClosure => some .closureDispatch
  | _ => none

/-- `_PUBLISH_TOKEN`. -/
def publishToken? : EffectKind → Option BudgetToken
  | .push => some .push
  | .createPullRequest => some .pullRequestCreation
  | .upsertComment => some .comment
  | .merge => some .merge
  | _ => none

/-- `_FENCED_EVENTS`. -/
def fencedEvents : List EventType :=
  [.startImplementation, .implementationCompleted, .requestValidationCorrection, .validationPassed,
    .validationFailed, .startRepair, .repairCompleted, .revalidationPassed, .revalidationFailed,
    .startClosure]

variable [Runtime]

/-- What one transition yields: the next snapshot and the intents it emits. -/
abbrev Transition := CampaignSnapshot × List ExternalEffectIntent

/-! ### Helpers of the branches -/

/-- `str(event.payload.get(key, "")).strip()`. -/
def payloadText (event : Event) (key : String) : String :=
  (event.payload.getD key (.str "")).stripped

/-- The items of `event.payload.get(key, ())`. -/
def payloadItems (event : Event) (key : String) : Result (List Value) :=
  orRaise (event.payload.getD key (.tuple [])).items? .python "object is not iterable"

/-- `_node_for`. -/
def nodeFor (snapshot : CampaignSnapshot) (event : Event) : Result NodeSnapshot :=
  match event.nodeId with
  | none | some "" => fail .transition (event.eventType.value ++ " requires node_id")
  | some nodeId => snapshot.node nodeId

/-- `_check_fence`. -/
def checkFence (snapshot : CampaignSnapshot) (event : Event) (node : NodeSnapshot) :
    Result Unit := do
  if !fencedEvents.contains event.eventType then return ()
  if snapshot.spec.mode == .manual && node.leaseActorId.isNone then return ()
  check .fencing node.leaseActorId.isSome "automated node action requires an active actor lease"
  check .fencing (event.actorId == node.leaseActorId) "event actor does not own the active node lease"
  check .fencing (event.fencingEpoch == some node.fencingEpoch)
    "event fencing epoch is stale or absent"

/-- One balance in the loop of `_consume_budget`. -/
def BudgetBalance.spend (balance : BudgetBalance) (token : BudgetToken) : Result BudgetBalance :=
  if balance.token = token then
    if h : balance.remaining = 0 then fail .budget ("attempt budget is exhausted: " ++ token.value)
    else .ok { balance with
      consumed := balance.consumed + 1
      consumed_le := by unfold BudgetBalance.remaining at h; omega }
  else .ok balance

/-- `_consume_budget`. -/
def consumeBudget (snapshot : CampaignSnapshot) (token : BudgetToken) (requestId : String) :
    Result CampaignSnapshot := do
  check .budget (!snapshot.budgetReceipts.any fun receipt => receipt.requestId == requestId)
    "budget request identifier was already consumed"
  check .budget (0 < snapshot.autonomousRankRemaining) "autonomous-operation rank is exhausted"
  let updated ← snapshot.budgets.mapM fun balance => balance.spend token
  check .budget (snapshot.budgets.any fun balance => balance.token == token)
    ("attempt budget is not declared: " ++ token.value)
  return { snapshot with
    budgets := updated
    budgetReceipts := snapshot.budgetReceipts ++ [⟨requestId, token, snapshot.revision + 1⟩]
    autonomousRankRemaining := snapshot.autonomousRankRemaining - 1 }

/-- `_consume_automated`. -/
def consumeAutomated (snapshot : CampaignSnapshot) (event : Event) (token : BudgetToken) :
    Result CampaignSnapshot := do
  if snapshot.spec.mode == .manual then return snapshot
  check .budget ((event.payload.read "budget_token").eq (.str token.value))
    (event.eventType.value ++ " requires budget token " ++ token.value)
  consumeBudget snapshot token event.eventId

/-- `_effect`.  Every caller passes a payload, which the intent stores frozen: with its keys in
order. -/
def effect (snapshot : CampaignSnapshot) (event : Event) (kind : EffectKind) (external : Bool)
    (payload : Mapping) (operationId : Option String) : Result ExternalEffectIntent := do
  let identity := match operationId with
    | none | some "" => payloadText event "operation_id"
    | some operationId => operationId
  require (identity != "") (event.eventType.value ++ " requires stable operation_id")
  return {
    operationId := identity
    campaignId := snapshot.spec.campaignId
    nodeId := event.nodeId
    kind
    state := .prepared
    payload := sortByKey payload
    authorityEpoch := snapshot.authorityEpoch
    cancellationEpoch := snapshot.cancellationEpoch
    fencingEpoch := event.fencingEpoch
    external }

/-- `_dispatch_effect`. -/
def dispatchEffect (snapshot : CampaignSnapshot) (event : Event) (role : String) :
    Result Transition := do
  let token ← orRaise (dispatchToken? event.eventType) .python "not a dispatch event"
  let nextSnapshot ← consumeAutomated snapshot event token
  let operationId := payloadText event "operation_id"
  if operationId == "" then
    check .transition (snapshot.spec.mode != .automated)
      "automated dispatch requires stable operation_id"
    return (nextSnapshot, [])
  let payload ← orRaise (event.payload.getD "effect_payload" (.mapping [])).dict? .python
    "cannot convert to a dictionary"
  let payload := ((payload.set "role" (.str role)).set "campaign_id"
    (.str snapshot.spec.campaignId)).set "node_id" (optionalText event.nodeId)
  let intent ← effect nextSnapshot event .dispatchWorker false payload (some operationId)
  return (nextSnapshot, [intent])

/-- The node `_fail_exact_node` leaves. -/
def NodeSnapshot.failed (node : NodeSnapshot) (reason : String) : NodeSnapshot :=
  { node with
    state := .failedExactNode
    failureReason := some reason
    fencingEpoch := node.fencingEpoch + 1
    leaseActorId := none }

/-- `_fail_exact_node`. -/
def failExactNode (snapshot : CampaignSnapshot) (node : NodeSnapshot) (reason : String) :
    CampaignSnapshot :=
  { snapshot.replaceNode (node.failed reason) with
    state := .failed
    activeNodeId := none
    failureReason := some reason }

/-- `_finish_revision`. -/
def finishRevision (previous nextSnapshot : CampaignSnapshot)
    (effects : List ExternalEffectIntent) : Result Transition := do
  require (nextSnapshot.spec == previous.spec) "approved campaign specification is immutable"
  require (nextSnapshot.spec.specificationDigest == previous.spec.specificationDigest)
    "approved campaign digest is immutable"
  require (nextSnapshot.autonomousRankRemaining ≤ previous.autonomousRankRemaining)
    "autonomous-operation rank may never increase"
  let receiptDelta : ℤ := nextSnapshot.budgetReceipts.length - previous.budgetReceipts.length
  let rankDelta : ℤ := previous.autonomousRankRemaining - nextSnapshot.autonomousRankRemaining
  require (receiptDelta == rankDelta && [0, 1].contains receiptDelta)
    "each autonomous operation must consume exactly one rank and budget token"
  return ({ nextSnapshot with revision := previous.revision + 1 }, effects)

/-! ### Campaign control -/

def reduceApprove (snapshot : CampaignSnapshot) (event : Event) : Result Transition := do
  require (snapshot.state == .draft) "only draft campaigns can be approved"
  snapshot.spec.verifyDigest
  require ((event.payload.read "specification_digest").eq (.str snapshot.spec.specificationDigest))
    "approval must bind the exact specification digest"
  return ({ snapshot with state := .approved }, [])

def reduceStart (snapshot : CampaignSnapshot) : Result Transition := do
  require (snapshot.state == .approved) "campaign is not approved"
  return ({ snapshot with state := .running }, [])

/-- `WAIT_EXTERNAL` and `WAIT_HUMAN` differ in the state they lead to. -/
def reduceWait (snapshot : CampaignSnapshot) (waiting : CampaignState) : Result Transition := do
  require (snapshot.state == .running) "only running campaigns may wait"
  return ({ snapshot with state := waiting }, [])

def waitingStates : List CampaignState := [.waitingExternal, .waitingHuman]

def reduceResume (snapshot : CampaignSnapshot) : Result Transition := do
  require (waitingStates.contains snapshot.state) "campaign is not waiting"
  return ({ snapshot with state := .running }, [])

def reduceAdvanceAuthority (snapshot : CampaignSnapshot) (event : Event) : Result Transition := do
  require (snapshot.state == .waitingHuman)
    "authority may rotate only while waiting for a human event"
  let requested ← orRaise (event.payload.getD "new_authority_epoch" (.int (-1))).toInt .python
    "int() argument is not an integer"
  require (requested == snapshot.authorityEpoch + 1) "authority epoch must advance by one"
  let released := snapshot.mapNodes (fun node => { node with leaseActorId := none }) fun _ => rfl
  return ({ released with authorityEpoch := snapshot.authorityEpoch + 1 }, [])

def reduceCancel (snapshot : CampaignSnapshot) (event : Event) : Result Transition := do
  let reason := (event.payload.getD "reason" (.str "STOP")).text
  let nextSnapshot := { snapshot.mapNodes cancelNode cancelNode_nodeId with
    state := .cancelled
    cancellationState := .cancelled
    cancellationEpoch := snapshot.cancellationEpoch + 1
    activeNodeId := none
    failureReason := some reason }
  let interrupt ← effect snapshot event .interruptWorker false [("reason", .str reason)]
    (some (event.eventId ++ ":interrupt"))
  let reconcile ← effect snapshot event .reconcileEffect false
    [("reason", .str "campaign_cancelled")] (some (event.eventId ++ ":reconcile"))
  return (nextSnapshot, [interrupt, reconcile])

def reduceConsumeBudget (snapshot : CampaignSnapshot) (event : Event) : Result Transition := do
  require (snapshot.state == .running) "campaign is not running"
  let token ← orRaise
    ((event.payload.get? "token").bind fun value => BudgetToken.ofValue? value.text) .budget
    "consume-budget event has an invalid token"
  let nextSnapshot ← consumeBudget snapshot token event.eventId
  return (nextSnapshot, [])

/-! ### Admission and leases -/

def reduceAdmitNode (snapshot : CampaignSnapshot) (event : Event) : Result Transition := do
  require (snapshot.state == .running) "campaign is not running"
  let node ← nodeFor snapshot event
  require (node.state == .pending) "node is not pending"
  require (snapshot.activeNodeId == none || snapshot.activeNodeId == some node.nodeId)
    "deterministic supervisor already has an active node"
  let nodeSpec ← snapshot.nodeSpec node.nodeId
  forEach nodeSpec.dependencies fun dependency => do
    let required ← snapshot.node dependency
    require (required.state == .done) ("dependency is not done: " ++ dependency)
  let startHead := casefold (payloadText event "start_head")
  require (isHexDigest 40 startHead) "node admission requires the exact 40-character start_head"
  require (node.startHead == none) "node start head is already frozen"
  let admitted := snapshot.replaceNode { node with state := .admitted, startHead := some startHead }
  return ({ admitted with activeNodeId := some node.nodeId }, [])

def reduceAcquireLease (snapshot : CampaignSnapshot) (event : Event) : Result Transition := do
  require (snapshot.state == .running) "campaign is not running"
  let node ← nodeFor snapshot event
  require (!terminalNodeStates.contains node.state) "terminal node cannot be leased"
  require (node.leaseActorId == none) "node already has an active actor lease"
  require (event.actorId.any (· != "")) "lease acquisition requires actor_id"
  require (event.fencingEpoch.any (node.fencingEpoch < ·))
    "lease fencing epoch must advance beyond the node fence"
  return (snapshot.replaceNode { node with
    fencingEpoch := event.fencingEpoch.getD 0
    leaseActorId := event.actorId }, [])

def reduceReleaseLease (snapshot : CampaignSnapshot) (event : Event) : Result Transition := do
  let node ← nodeFor snapshot event
  require (node.leaseActorId != none) "node has no active actor lease"
  check .fencing (event.actorId == node.leaseActorId && event.fencingEpoch == some node.fencingEpoch)
    "only the exact fenced lease owner can release a lease"
  return (snapshot.replaceNode { node with leaseActorId := none }, [])

/-! ### Implementation and validation -/

def reduceStartImplementation (snapshot : CampaignSnapshot) (event : Event) :
    Result Transition := do
  require (snapshot.state == .running) "campaign is not running"
  let node ← nodeFor snapshot event
  checkFence snapshot event node
  require (node.state == .admitted) "node is not admitted"
  require (node.startHead.any (· != "")) "node has no immutable admitted start head"
  require (node.implementationAttempts == 0) "implementation generation already used"
  let (nextSnapshot, effects) ← dispatchEffect snapshot event "IMPLEMENTER"
  let node ← nextSnapshot.node node.nodeId
  return (nextSnapshot.replaceNode { node with
    state := .implementing
    implementationAttempts := 1 }, effects)

def reduceImplementationCompleted (snapshot : CampaignSnapshot) (event : Event) :
    Result Transition := do
  let node ← nodeFor snapshot event
  checkFence snapshot event node
  require (node.state == .implementing) "node is not implementing"
  return (snapshot.replaceNode { node with state := .validating }, [])

/-- The comparison of a correction with the specification and the command it names. -/
def correctionIsBound (snapshot : CampaignSnapshot) (policy correction : Mapping) : Bool :=
  (correction.read "specification_digest").eq (.str snapshot.spec.specificationDigest)
    && (correction.read "authority_epoch").eq (.int snapshot.authorityEpoch)
    && (correction.read "cancellation_epoch").eq (.int snapshot.cancellationEpoch)
    && (correction.read "expectation_id").eq (policy.read "expectation_id")
    && (correction.read "test_id").eq (policy.read "test_id")
    && (correction.read "adapter").eq (policy.read "adapter")
    && (correction.read "evidence_id").truthy
    && (correction.read "evidence_digest").truthy
    && (correction.read "candidate_head").truthy

/-- The budget an automated correction must leave for the rest of the node's path. -/
def checkCorrectionBudget (snapshot : CampaignSnapshot) (nodeId : String) : Result Unit := do
  if snapshot.spec.mode != .automated then return ()
  let needed ← snapshot.correctionBudgetRequirements nodeId
  let remaining (token : BudgetToken) : ℕ :=
    ((snapshot.budgets.find? (·.token == token)).map BudgetBalance.remaining).getD 0
  check .budget ((needed.map (·.2)).sum ≤ snapshot.autonomousRankRemaining
      && needed.all fun need => need.2 ≤ remaining need.1)
    "validation correction has insufficient remaining budget"

def reduceRequestValidationCorrection (snapshot : CampaignSnapshot) (event : Event) :
    Result Transition := do
  let node ← nodeFor snapshot event
  checkFence snapshot event node
  require (snapshot.state == .running) "campaign is not running"
  require (node.state == .validating) "node is not validating"
  require (node.validationCorrections == 0) "pre-review validation correction has already been used"
  require (node.candidateHead == none) "frozen candidate cannot return to implementation"
  let correction ← orRaise (event.payload.getD "correction" (.mapping [])).asMapping? .transition
    "correction evidence must be an object"
  let nodeSpec ← snapshot.nodeSpec node.nodeId
  let unapproved := "correction requires an approved typed validation expectation"
  let command ← orRaise
    (snapshot.spec.requiredValidationCommands.find? fun item =>
      (Value.str item.commandId).eq (correction.read "command_id")) .transition unapproved
  let policy ← orRaise command.correctionPolicy .transition unapproved
  require (nodeSpec.validationCommandIds.contains command.commandId) unapproved
  require (correctionIsBound snapshot policy correction)
    "correction must bind the exact failed evidence and approved authority"
  let evidence := correction.getD "failure_evidence" (.mapping [])
  let recognized ← command.recognizesCorrection evidence
  let receipt := evidence.asMapping?.getD []
  require (recognized
      && (receipt.read "evidence_sha256").eq (correction.read "evidence_digest")
      && (receipt.read "candidate_head").eq (correction.read "candidate_head"))
    "correction requires recognized exact failed command evidence"
  checkCorrectionBudget snapshot node.nodeId
  return (snapshot.replaceNode { node with
    state := .implementing
    validationCorrections := 1
    validationCorrection := some (sortByKey (correction.erase "failure_evidence")) }, [])

/-- The candidate identity `VALIDATION_PASSED` and `REVALIDATION_PASSED` bring along. -/
structure CandidateIdentity where
  head : String
  tree : String
  diffDigest : String
  nodeDiffDigest : String

def candidateIdentity (event : Event) : CandidateIdentity where
  head := payloadText event "candidate_head"
  tree := payloadText event "candidate_tree"
  diffDigest := payloadText event "candidate_diff_digest"
  nodeDiffDigest := payloadText event "candidate_node_diff_digest"

def CandidateIdentity.complete (c : CandidateIdentity) : Bool :=
  c.head != "" && c.tree != "" && c.diffDigest != "" && c.nodeDiffDigest != ""

/-- The node with its candidate fields set to an identity. -/
def NodeSnapshot.freezeCandidate (node : NodeSnapshot) (candidate : CandidateIdentity) :
    NodeSnapshot :=
  { node with
    candidateHead := some candidate.head
    candidateTree := some candidate.tree
    candidateDiffDigest := some candidate.diffDigest
    candidateNodeDiffDigest := some candidate.nodeDiffDigest }

def reduceValidationPassed (snapshot : CampaignSnapshot) (event : Event) : Result Transition := do
  let node ← nodeFor snapshot event
  checkFence snapshot event node
  require (node.state == .validating) "node is not validating"
  let candidate := candidateIdentity event
  require candidate.complete
    "candidate identity must be complete and include campaign and node-local diff evidence"
  return (snapshot.replaceNode
    { node.freezeCandidate candidate with state := .candidateFrozen }, [])

/-- `str(event.payload.get("reason", default))`. -/
def payloadReason (event : Event) (default : String) : String :=
  (event.payload.getD "reason" (.str default)).text

def reduceValidationFailed (snapshot : CampaignSnapshot) (event : Event) : Result Transition := do
  let node ← nodeFor snapshot event
  checkFence snapshot event node
  require (node.state == .validating) "node is not validating"
  return (failExactNode snapshot node (payloadReason event "validation_failed"), [])

/-! ### Review -/

def reduceStartReview (snapshot : CampaignSnapshot) (event : Event) : Result Transition := do
  let node ← nodeFor snapshot event
  require (node.state == .candidateFrozen) "candidate is not frozen"
  require (node.reviewGenerations == 0) "review generation already used"
  let items ← payloadItems event "review_cohort"
  let cohort := items.map Value.text
  require (cohort == snapshot.spec.requiredReviewCohort)
    "review dispatch must bind the exact required cohort"
  let (nextSnapshot, effects) ← dispatchEffect snapshot event "REVIEWER"
  let node ← nextSnapshot.node node.nodeId
  return (nextSnapshot.replaceNode { node with
    state := .checksAndReview
    reviewGenerations := 1 }, effects)

def reduceFreezeFindings (snapshot : CampaignSnapshot) (event : Event) : Result Transition := do
  let node ← nodeFor snapshot event
  require (node.state == .checksAndReview) "node is not in review"
  require node.findings.isEmpty "finding set is already frozen"
  let values ← payloadItems event "findings"
  let findings ← uniqueFindings values .review
  return (snapshot.replaceNode { node with state := .findingsFrozen, findings }, [])

def reduceMarkReadyToPublish (snapshot : CampaignSnapshot) (event : Event) :
    Result Transition := do
  let node ← nodeFor snapshot event
  require (node.state == .findingsFrozen)
    "node is not eligible for clean publication before findings freeze"
  require (!node.findings.any (·.blocking)) "blocking findings require repair"
  return (snapshot.replaceNode { node with state := .readyToPublish }, [])

/-! ### Repair and closure -/

/-- The identifiers of the blocking findings of the review. -/
def NodeSnapshot.blockerIds (node : NodeSnapshot) : List String :=
  (node.findings.filter (·.blocking)).map (·.findingId)

def reduceAuthorizeRepair (snapshot : CampaignSnapshot) (event : Event) : Result Transition := do
  let node ← nodeFor snapshot event
  require (node.state == .findingsFrozen) "findings are not frozen"
  require (node.findings.any (·.blocking)) "there are no blockers to repair"
  require (node.repairAttempts == 0) "combined repair already used"
  let items ← payloadItems event "finding_ids"
  require (items.map Value.text == node.blockerIds) "repair must bind the exact frozen blocker set"
  require (payloadText event "authorization_receipt_id" != ""
      && payloadText event "authorization_receipt_digest" != "")
    "repair requires a consumed one-use human authorization receipt"
  return (snapshot.replaceNode { node with state := .repairAuthorized }, [])

def reduceStartRepair (snapshot : CampaignSnapshot) (event : Event) : Result Transition := do
  let node ← nodeFor snapshot event
  checkFence snapshot event node
  require (node.state == .repairAuthorized) "repair is not authorized"
  require (node.repairAttempts == 0) "combined repair already used"
  let (nextSnapshot, effects) ← dispatchEffect snapshot event "REPAIRER"
  let node ← nextSnapshot.node node.nodeId
  return (nextSnapshot.replaceNode { node with state := .repairing, repairAttempts := 1 }, effects)

def reduceRepairCompleted (snapshot : CampaignSnapshot) (event : Event) : Result Transition := do
  let node ← nodeFor snapshot event
  checkFence snapshot event node
  require (node.state == .repairing) "node is not repairing"
  return (snapshot.replaceNode { node with state := .revalidating }, [])

def reduceRevalidationPassed (snapshot : CampaignSnapshot) (event : Event) :
    Result Transition := do
  let node ← nodeFor snapshot event
  checkFence snapshot event node
  require (node.state == .revalidating) "node is not revalidating"
  require (node.closureGenerations == 0) "closure generation already used"
  let candidate := candidateIdentity event
  require candidate.complete
    ("revalidated candidate identity must be complete and include campaign and node-local diff "
      ++ "evidence")
  let (nextSnapshot, effects) ← dispatchEffect snapshot event "CLOSURE_REVIEWER"
  let node ← nextSnapshot.node node.nodeId
  return (nextSnapshot.replaceNode { node.freezeCandidate candidate with
    state := .closure
    closureGenerations := 1 }, effects)

def reduceRevalidationFailed (snapshot : CampaignSnapshot) (event : Event) :
    Result Transition := do
  let node ← nodeFor snapshot event
  checkFence snapshot event node
  require (node.state == .revalidating) "node is not revalidating"
  return (failExactNode snapshot node (payloadReason event "revalidation_failed"), [])

/-- The reason `COMPLETE_CLOSURE` records when blockers remain or new ones were observed. -/
def closureFailure (remaining : List String) (newBlockers : List Finding) : String :=
  let reasons :=
    (if remaining = [] then []
      else ["remaining=" ++ String.intercalate "," (remaining.insertionSort fun a b => a ≤ b)]) ++
    (if newBlockers = [] then []
      else ["new=" ++ String.intercalate "," (newBlockers.map (·.findingId))])
  "closure_failed:" ++ String.intercalate ";" reasons

def reduceCompleteClosure (snapshot : CampaignSnapshot) (event : Event) : Result Transition := do
  let node ← nodeFor snapshot event
  require (node.state == .closure) "node is not in closure"
  let values ← payloadItems event "findings"
  let newFindings ← uniqueFindings values .closure
  let newBlockers := newFindings.filter (·.closureBlocking)
  let originalIds := node.blockerIds.dedup
  let items ← payloadItems event "resolved_finding_ids"
  let resolved := items.map Value.text
  require (decide resolved.Nodup) "closure resolution identifiers must be unique"
  require (!newFindings.any fun item => originalIds.contains item.findingId)
    "closure cannot relabel a frozen blocker as a new observation"
  require (resolved.all fun id => originalIds.contains id)
    "closure resolved unknown finding identifiers"
  let remaining := originalIds.filter fun id => !resolved.contains id
  let closed := { node with closureFindings := newFindings, resolvedFindingIds := resolved }
  if remaining ≠ [] ∨ newBlockers ≠ [] then
    return (failExactNode snapshot closed (closureFailure remaining newBlockers), [])
  else return (snapshot.replaceNode { closed with state := .readyToPublish }, [])

/-! ### Publication -/

/-- `bool(spec.publication_authority.get("automated", False))`. -/
def automatedPublication (snapshot : CampaignSnapshot) : Bool :=
  (snapshot.spec.publicationAuthority.getD "automated" (.bool false)).truthy

def reduceAuthorizePublication (snapshot : CampaignSnapshot) (event : Event) :
    Result Transition := do
  let node ← nodeFor snapshot event
  require (!automatedPublication snapshot)
    "automated publication does not accept a human authorization event"
  require (node.state == .readyToPublish) "node is not ready to publish"
  require (node.publicationAuthorizationReceiptId == none)
    "publication authorization receipt was already consumed"
  let receiptId := payloadText event "authorization_receipt_id"
  let receiptDigest := payloadText event "authorization_receipt_digest"
  require (receiptId != "" && receiptDigest != "")
    "publication requires a consumed one-use human authorization receipt"
  return (snapshot.replaceNode { node with
    publicationAuthorizationReceiptId := some receiptId
    publicationAuthorizationReceiptDigest := some receiptDigest }, [])

/-- The candidate head an effect payload and a confirmation are compared with. -/
def candidateHeadValue (node : NodeSnapshot) : Value := optionalText node.candidateHead

/-- The node `START_PUBLISH` leaves. -/
def NodeSnapshot.publishing (n : NodeSnapshot) (kind : EffectKind) (operationId : String) :
    NodeSnapshot :=
  { n with
    state := .publishing
    pendingPublicationEffect := some kind.value
    pendingPublicationOperationId := some operationId }

def reduceStartPublish (snapshot : CampaignSnapshot) (event : Event) : Result Transition := do
  let node ← nodeFor snapshot event
  require (node.state == .readyToPublish) "node is not ready to publish"
  require (automatedPublication snapshot
      || (node.publicationAuthorizationReceiptId.any (· != "")
        && node.publicationAuthorizationReceiptDigest.any (· != "")))
    "manual publication requires a consumed human authorization receipt"
  require (node.pendingPublicationOperationId == none)
    "node already has a prepared publication effect"
  let kind ← orRaise
    ((event.payload.get? "effect_kind").bind fun value => EffectKind.ofValue? value.text)
    .transition "publication effect kind is invalid"
  let token ← orRaise (publishToken? kind) .transition "effect is not a publication mutation"
  let (allowed, required) ← effectSequences snapshot.spec.publicationAuthority
  require ((Value.str kind.value).memberOf allowed) "publication effect lacks recorded authority"
  let position := node.completedPublicationEffects.length
  let expected ← orRaise required[position]? .transition "publication sequence is already complete"
  require ((Value.str kind.value).eq expected)
    ("publication effect is out of order; expected " ++ expected.text)
  let operationId := payloadText event "operation_id"
  require (operationId != "") "publication requires stable operation_id"
  require (!node.publicationOperationIds.contains operationId)
    "publication operation identity was already confirmed"
  let nextSnapshot ← consumeAutomated snapshot event token
  let effectPayload ← orRaise (event.payload.getD "effect_payload" (.mapping [])).dict? .python
    "cannot convert to a dictionary"
  let effectPayload := effectPayload.setDefault "candidate_head" (candidateHeadValue node)
  require ((effectPayload.read "candidate_head").eq (candidateHeadValue node))
    "publication must bind the exact frozen candidate head"
  let intent ← effect nextSnapshot event kind true effectPayload none
  let current ← nextSnapshot.node node.nodeId
  return (nextSnapshot.replaceNode (current.publishing kind operationId), [intent])

/-- The node `PUBLISH_CONFIRMED` leaves. -/
def NodeSnapshot.confirmed (n : NodeSnapshot) (effect operationId : String) (complete : Bool) :
    NodeSnapshot :=
  { n with
    state := if complete then .done else .readyToPublish
    completedPublicationEffects := n.completedPublicationEffects ++ [effect]
    publicationOperationIds := n.publicationOperationIds ++ [operationId]
    pendingPublicationEffect := none
    pendingPublicationOperationId := none }

/-- The snapshot `PUBLISH_CONFIRMED` leaves, given the node it published. -/
def CampaignSnapshot.recordPublication (snapshot : CampaignSnapshot) (published : NodeSnapshot)
    (complete : Bool) : CampaignSnapshot :=
  let nextSnapshot := snapshot.replaceNode published
  { nextSnapshot with
    state := if complete && nextSnapshot.nodes.all (·.state == .done) then .completed
      else snapshot.state
    activeNodeId := if complete then none else snapshot.activeNodeId }

def reducePublishConfirmed (snapshot : CampaignSnapshot) (event : Event) : Result Transition := do
  let node ← nodeFor snapshot event
  require (node.state == .publishing) "node is not publishing"
  require ((event.payload.read "candidate_head").eq (candidateHeadValue node))
    "publication confirmation head differs from frozen candidate"
  require ((event.payload.read "operation_id").eq (optionalText node.pendingPublicationOperationId))
    "publication confirmation operation differs from prepared effect"
  require (node.pendingPublicationEffect.any (· != ""))
    "publishing node has no pending effect identity"
  let effect := (optionalText node.pendingPublicationEffect).text
  let operationId := (optionalText node.pendingPublicationOperationId).text
  let completed := node.completedPublicationEffects ++ [effect]
  let (_, required) ← effectSequences snapshot.spec.publicationAuthority
  let publicationComplete := Value.eqItems (completed.map .str) required
  let published := node.confirmed effect operationId publicationComplete
  return (snapshot.recordPublication published publicationComplete, [])

def reducePublishFailed (snapshot : CampaignSnapshot) (event : Event) : Result Transition := do
  let node ← nodeFor snapshot event
  require (node.state == .publishing) "node is not publishing"
  return (failExactNode snapshot node (payloadReason event "publication_failed"), [])

def reduceFailNode (snapshot : CampaignSnapshot) (event : Event) : Result Transition := do
  let node ← nodeFor snapshot event
  require (!terminalNodeStates.contains node.state) "node is already terminal"
  return (failExactNode snapshot node (payloadReason event "node_failed"), [])

/-! ### The reducer -/

/-- The branch of an event type. -/
def reduceBranch (snapshot : CampaignSnapshot) (event : Event) : Result Transition :=
  match event.eventType with
  | .approve => reduceApprove snapshot event
  | .start => reduceStart snapshot
  | .waitExternal => reduceWait snapshot .waitingExternal
  | .waitHuman => reduceWait snapshot .waitingHuman
  | .resume => reduceResume snapshot
  | .advanceAuthority => reduceAdvanceAuthority snapshot event
  | .cancel => reduceCancel snapshot event
  | .consumeBudget => reduceConsumeBudget snapshot event
  | .admitNode => reduceAdmitNode snapshot event
  | .acquireLease => reduceAcquireLease snapshot event
  | .releaseLease => reduceReleaseLease snapshot event
  | .startImplementation => reduceStartImplementation snapshot event
  | .implementationCompleted => reduceImplementationCompleted snapshot event
  | .requestValidationCorrection => reduceRequestValidationCorrection snapshot event
  | .validationPassed => reduceValidationPassed snapshot event
  | .validationFailed => reduceValidationFailed snapshot event
  | .startReview => reduceStartReview snapshot event
  | .freezeFindings => reduceFreezeFindings snapshot event
  | .markReadyToPublish => reduceMarkReadyToPublish snapshot event
  | .authorizeRepair => reduceAuthorizeRepair snapshot event
  | .startRepair => reduceStartRepair snapshot event
  | .repairCompleted => reduceRepairCompleted snapshot event
  | .revalidationPassed => reduceRevalidationPassed snapshot event
  | .startClosure => fail .transition
      "closure can begin only through trusted REVALIDATION_PASSED evidence"
  | .revalidationFailed => reduceRevalidationFailed snapshot event
  | .completeClosure => reduceCompleteClosure snapshot event
  | .authorizePublication => reduceAuthorizePublication snapshot event
  | .startPublish => reduceStartPublish snapshot event
  | .publishConfirmed => reducePublishConfirmed snapshot event
  | .publishFailed => reducePublishFailed snapshot event
  | .failNode => reduceFailNode snapshot event

/-- The checks every event passes before its branch. -/
def checkEventHeader (snapshot : CampaignSnapshot) (event : Event) : Result Unit := do
  require (event.campaignId == snapshot.spec.campaignId)
    "event campaign identifier does not match snapshot"
  check .revisionConflict (event.expectedRevision == snapshot.revision)
    ("expected revision " ++ toString event.expectedRevision ++ ", current "
      ++ toString snapshot.revision)
  check .authority (event.authorityEpoch == snapshot.authorityEpoch)
    ("expected authority epoch " ++ toString snapshot.authorityEpoch ++ ", got "
      ++ toString event.authorityEpoch)
  check .cancellation (event.cancellationEpoch == snapshot.cancellationEpoch)
    ("expected cancellation epoch " ++ toString snapshot.cancellationEpoch ++ ", got "
      ++ toString event.cancellationEpoch)
  check .cancellation (snapshot.cancellationState != .cancelled)
    "cancelled campaigns cannot resume or accept late results"
  require (!terminalCampaignStates.contains snapshot.state)
    ("campaign is terminal: " ++ snapshot.state.value)

/-- `reduce`: one event applied, without consulting any ambient authority or doing I/O. -/
def reduce (snapshot : CampaignSnapshot) (event : Event) : Result Transition := do
  checkEventHeader snapshot event
  let (nextSnapshot, effects) ← reduceBranch snapshot event
  finishRevision snapshot nextSnapshot effects

end CodingOS.Campaign
