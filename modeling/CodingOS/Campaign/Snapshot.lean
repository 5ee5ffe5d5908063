import CodingOS.Campaign.Specification

/-!
# Snapshots, events and intents

The values the reducer consumes and produces: findings, node and campaign snapshots, events, and
the intents of external effects, with the pure helpers `model.py` defines beside them.

Two invariants are fields.  A `BudgetBalance` never spends past its limit, and the nodes of a
`CampaignSnapshot` are those of its specification in their order, which is what
`CampaignSnapshot.__post_init__` checks on every `replace`.
-/

namespace CodingOS.Campaign

open CodingOS.Python

/-! ### Findings -/

structure Finding where
  findingId : String
  title : String
  blocking : Bool
  origin : FindingOrigin := .review
  details : Mapping := []
deriving DecidableEq

namespace Finding

/-- `Finding.closure_blocking`: only an explained observation without a material basis passes the
closure, whatever its `blocking` flag says. -/
def closureBlocking (f : Finding) : Bool :=
  f.blocking
    || ["acceptance_expectation_id", "invariant", "regression"].any
      (fun key => (f.details.get? key).isSome)
    || (f.details.read "observation").asText?.all isBlank

def toDict (f : Finding) : Value :=
  .mapping [
    ("finding_id", .str f.findingId),
    ("title", .str f.title),
    ("blocking", .bool f.blocking),
    ("origin", .str f.origin.value),
    ("details", .mapping f.details)]

variable [Runtime]

/-- `Finding.from_dict`, with the checks of `__post_init__`. -/
def fromDict (value : Value) (defaultOrigin : FindingOrigin) : Result Finding := do
  let entries ← orRaise value.asMapping? .python "object is not subscriptable"
  let findingId ← orRaise (entries.get? "finding_id") .python "'finding_id'"
  let title ← orRaise (entries.get? "title") .python "'title'"
  let originValue := entries.getD "origin" (.str defaultOrigin.value)
  let origin ← orRaise (FindingOrigin.ofValue? originValue.text) .modelValidation
    ("invalid FindingOrigin: " ++ originValue.repr)
  let blocking ← match entries.getD "blocking" (.bool true) with
    | .bool b => pure b
    | _ => fail .modelValidation "finding blocking must be a boolean"
  let details ← orRaise (entries.getD "details" (.mapping [])).asMapping? .modelValidation
    "finding details must be an object"
  let _ ← nonempty (.str findingId.text) "finding_id"
  let _ ← nonempty (.str title.text) "finding title"
  return { findingId := findingId.text, title := title.text, blocking, origin, details }

end Finding

section UniqueFindings

variable [Runtime]

/-- One round of the loop of `unique_findings`: the findings so far, one for each identifier. -/
def mergeFinding (origin : FindingOrigin) (findings : List Finding) (value : Value) :
    Result (List Finding) := do
  let finding ← Finding.fromDict value origin
  check .transition (finding.origin == origin) "finding origin differs from its review phase"
  match findings.find? (·.findingId == finding.findingId) with
  | none => return findings ++ [finding]
  | some prior => do
      check .transition
        (prior.blocking == finding.blocking
          && (Value.mapping prior.details).eq (.mapping finding.details))
        "same finding identifier has conflicting evidence or blocking status"
      let merged := { prior with
        title := if finding.title < prior.title then finding.title else prior.title }
      return findings.map fun f => if f.findingId = merged.findingId then merged else f

/-- `unique_findings`. -/
def uniqueFindings (values : List Value) (origin : FindingOrigin) : Result (List Finding) := do
  let findings ← values.foldlM (mergeFinding origin) []
  return findings.insertionSort fun a b => a.findingId ≤ b.findingId

end UniqueFindings

/-! ### Budgets -/

/-- The budget of one token.  `consumed_le` is the check of `__post_init__`. -/
structure BudgetBalance where
  token : BudgetToken
  limit : ℕ
  consumed : ℕ
  consumed_le : consumed ≤ limit
deriving DecidableEq

def BudgetBalance.remaining (b : BudgetBalance) : ℕ := b.limit - b.consumed

def BudgetBalance.toDict (b : BudgetBalance) : Value :=
  .mapping [
    ("token", .str b.token.value),
    ("limit", .int b.limit),
    ("consumed", .int b.consumed),
    ("remaining", .int b.remaining)]

structure BudgetReceipt where
  requestId : String
  token : BudgetToken
  revision : ℕ
deriving DecidableEq

def BudgetReceipt.toDict (r : BudgetReceipt) : Value :=
  .mapping [
    ("request_id", .str r.requestId),
    ("token", .str r.token.value),
    ("revision", .int r.revision)]

/-! ### Node snapshots -/

structure NodeSnapshot where
  nodeId : String
  state : NodeState := .pending
  fencingEpoch : ℕ := 0
  leaseActorId : Option String := none
  implementationAttempts : ℕ := 0
  validationCorrections : ℕ := 0
  validationCorrection : Option Mapping := none
  reviewGenerations : ℕ := 0
  repairAttempts : ℕ := 0
  closureGenerations : ℕ := 0
  startHead : Option String := none
  candidateHead : Option String := none
  candidateTree : Option String := none
  candidateDiffDigest : Option String := none
  candidateNodeDiffDigest : Option String := none
  findings : List Finding := []
  closureFindings : List Finding := []
  resolvedFindingIds : List String := []
  completedPublicationEffects : List String := []
  publicationOperationIds : List String := []
  pendingPublicationEffect : Option String := none
  pendingPublicationOperationId : Option String := none
  publicationAuthorizationReceiptId : Option String := none
  publicationAuthorizationReceiptDigest : Option String := none
  failureReason : Option String := none
deriving DecidableEq

def NodeSnapshot.toDict (n : NodeSnapshot) : Value :=
  .mapping ([
    ("node_id", .str n.nodeId),
    ("state", .str n.state.value),
    ("fencing_epoch", .int n.fencingEpoch),
    ("lease_actor_id", optionalText n.leaseActorId),
    ("implementation_attempts", .int n.implementationAttempts),
    ("validation_corrections", .int n.validationCorrections)] ++
    (match n.validationCorrection with
    | none => []
    | some correction => [("validation_correction", .mapping correction)]) ++ [
    ("review_generations", .int n.reviewGenerations),
    ("repair_attempts", .int n.repairAttempts),
    ("closure_generations", .int n.closureGenerations),
    ("start_head", optionalText n.startHead),
    ("candidate_head", optionalText n.candidateHead),
    ("candidate_tree", optionalText n.candidateTree),
    ("candidate_diff_digest", optionalText n.candidateDiffDigest),
    ("candidate_node_diff_digest", optionalText n.candidateNodeDiffDigest),
    ("findings", .tuple (n.findings.map Finding.toDict)),
    ("closure_findings", .tuple (n.closureFindings.map Finding.toDict)),
    ("resolved_finding_ids", texts n.resolvedFindingIds),
    ("completed_publication_effects", texts n.completedPublicationEffects),
    ("publication_operation_ids", texts n.publicationOperationIds),
    ("pending_publication_effect", optionalText n.pendingPublicationEffect),
    ("pending_publication_operation_id", optionalText n.pendingPublicationOperationId),
    ("publication_authorization_receipt_id", optionalText n.publicationAuthorizationReceiptId),
    ("publication_authorization_receipt_digest",
      optionalText n.publicationAuthorizationReceiptDigest),
    ("failure_reason", optionalText n.failureReason)])

/-- An optional text as `from_dict` reads it: an empty text is as good as none. -/
def nonemptyText (s : Option String) : Option String := s.filter (· != "")

/-- What `NodeSnapshot.from_dict` reads back from the JSON `to_dict` wrote. -/
def NodeSnapshot.reload (n : NodeSnapshot) : NodeSnapshot :=
  { n with
    leaseActorId := nonemptyText n.leaseActorId
    startHead := nonemptyText n.startHead
    candidateHead := nonemptyText n.candidateHead
    candidateTree := nonemptyText n.candidateTree
    candidateDiffDigest := nonemptyText n.candidateDiffDigest
    candidateNodeDiffDigest := nonemptyText n.candidateNodeDiffDigest
    pendingPublicationEffect := nonemptyText n.pendingPublicationEffect
    pendingPublicationOperationId := nonemptyText n.pendingPublicationOperationId
    publicationAuthorizationReceiptId := nonemptyText n.publicationAuthorizationReceiptId
    publicationAuthorizationReceiptDigest := nonemptyText n.publicationAuthorizationReceiptDigest
    failureReason := nonemptyText n.failureReason }

/-! ### Campaign snapshots -/

structure CampaignSnapshot [Runtime] where
  spec : CampaignSpec
  revision : ℕ
  state : CampaignState
  authorityEpoch : ℕ
  cancellationEpoch : ℕ
  cancellationState : CancellationState
  nodes : List NodeSnapshot
  budgets : List BudgetBalance
  budgetReceipts : List BudgetReceipt
  autonomousRankRemaining : ℕ
  activeNodeId : Option String := none
  failureReason : Option String := none
  node_ids : nodes.map (·.nodeId) = spec.nodes.map (·.nodeId)
deriving DecidableEq

namespace CampaignSnapshot

variable [Runtime]

/-- `CampaignSnapshot.initial`. -/
def initial (spec : CampaignSpec) : Result CampaignSnapshot := do
  spec.verifyDigest
  return {
    spec
    revision := 0
    state := .draft
    authorityEpoch := spec.authorityEpoch
    cancellationEpoch := spec.cancellationEpoch
    cancellationState := .active
    nodes := spec.nodes.map fun node => { nodeId := node.nodeId }
    budgets := (spec.attemptBudgets.insertionSort fun a b => a.token.value ≤ b.token.value).map
      fun item => ⟨item.token, item.limit, 0, Nat.zero_le _⟩
    budgetReceipts := []
    autonomousRankRemaining := spec.autonomousRank
    node_ids := by simp [Function.comp_def] }

def toDict (s : CampaignSnapshot) : Value :=
  .mapping [
    ("spec", .mapping s.spec.toDict),
    ("revision", .int s.revision),
    ("state", .str s.state.value),
    ("authority_epoch", .int s.authorityEpoch),
    ("cancellation_epoch", .int s.cancellationEpoch),
    ("cancellation_state", .str s.cancellationState.value),
    ("nodes", .tuple (s.nodes.map NodeSnapshot.toDict)),
    ("budgets", .tuple (s.budgets.map BudgetBalance.toDict)),
    ("budget_receipts", .tuple (s.budgetReceipts.map BudgetReceipt.toDict)),
    ("autonomous_rank_remaining", .int s.autonomousRankRemaining),
    ("active_node_id", optionalText s.activeNodeId),
    ("failure_reason", optionalText s.failureReason)]

/-- `CampaignSnapshot.node`. -/
def node (s : CampaignSnapshot) (nodeId : String) : Result NodeSnapshot :=
  orRaise (s.nodes.find? (·.nodeId == nodeId)) .transition ("unknown node: " ++ nodeId)

/-- `CampaignSnapshot.node_spec`. -/
def nodeSpec (s : CampaignSnapshot) (nodeId : String) : Result NodeSpec :=
  orRaise (s.spec.nodes.find? (·.nodeId == nodeId)) .transition ("unknown node: " ++ nodeId)

/-- The snapshot with every node rewritten by a function that keeps identifiers. -/
def mapNodes (s : CampaignSnapshot) (f : NodeSnapshot → NodeSnapshot)
    (keeps : ∀ n, (f n).nodeId = n.nodeId) : CampaignSnapshot :=
  { s with
    nodes := s.nodes.map f
    node_ids := by rw [List.map_map, ← s.node_ids]; exact List.map_congr_left fun n _ => keeps n }

/-- `replace_node`. -/
def replaceNode (s : CampaignSnapshot) (updated : NodeSnapshot) : CampaignSnapshot :=
  s.mapNodes (fun node => if node.nodeId = updated.nodeId then updated else node) fun n => by
    by_cases h : n.nodeId = updated.nodeId
    · rw [if_pos h, h]
    · rw [if_neg h]

/-- What `from_dict` reads back from the JSON `to_dict` wrote. -/
def reload (s : CampaignSnapshot) : CampaignSnapshot :=
  { s.mapNodes NodeSnapshot.reload fun _ => rfl with
    activeNodeId := nonemptyText s.activeNodeId
    failureReason := nonemptyText s.failureReason }

/-- The tokens `correction_budget_requirements` charges the remaining effects to. -/
def effectToken? : Value → Option BudgetToken
  | .str "PUSH" => some .push
  | .str "CREATE_PULL_REQUEST" => some .pullRequestCreation
  | .str "UPSERT_COMMENT" => some .comment
  | .str "MERGE" => some .merge
  | _ => none

/-- `required[token] = required.get(token, 0) + 1`. -/
def addRequired (required : List (BudgetToken × ℕ)) (token : BudgetToken) :
    List (BudgetToken × ℕ) :=
  if required.any (·.1 == token) then
    required.map fun e => if e.1 = token then (e.1, e.2 + 1) else e
  else required ++ [(token, 1)]

/-- `CampaignSnapshot.correction_budget_requirements`: the capacity a correction, a complete review
and the approved delivery still need.  The sequence is the declared `required_effects` alone. -/
def correctionBudgetRequirements (s : CampaignSnapshot) (nodeId : String) :
    Result (List (BudgetToken × ℕ)) := do
  let cohort := s.spec.requiredReviewCohort.length
  let authority := s.spec.publicationAuthority
  let sequence ← orRaise (authority.getD "required_effects" (.tuple [])).items? .python
    "object is not iterable"
  let node ← s.node nodeId
  let remainingEffects := sequence.drop node.completedPublicationEffects.length
  let nodeSpec ← s.nodeSpec nodeId
  let required : List (BudgetToken × ℕ) := [
    (.childCreation, 1 + cohort),
    (.childStart, 1 + cohort),
    (.validationExecution, nodeSpec.validationCommandIds.length + remainingEffects.length),
    (.reviewDispatch, 1)]
  let tokens ← orRaise (remainingEffects.mapM effectToken?) .python "unknown effect"
  let required := tokens.foldl addRequired required
  if (Value.str "MERGE").memberOf remainingEffects
      && (authority.read "required_hosted_checks").truthy then
    return required ++ [(.hostedCheckWakeup, 1)]
  else return required

end CampaignSnapshot

/-! ### Events and intents -/

structure EventFields where
  eventId : String
  campaignId : String
  eventType : EventType
  expectedRevision : ℕ
  authorityEpoch : ℕ
  cancellationEpoch : ℕ
  nodeId : Option String := none
  actorId : Option String := none
  fencingEpoch : Option ℕ := none
  payload : Mapping := []
deriving DecidableEq

/-- A campaign event.  `Event.__post_init__` refuses blank identifiers and a fence of zero. -/
structure Event extends EventFields where
  event_id_nonblank : isBlank eventId = false
  campaign_id_nonblank : isBlank campaignId = false
  fence_positive : fencingEpoch ≠ some 0
deriving DecidableEq

/-- `Event(…)`. -/
def EventFields.build (e : EventFields) : Result Event :=
  if hevent : isBlank e.eventId = false then
    if hcampaign : isBlank e.campaignId = false then
      if hfence : e.fencingEpoch ≠ some 0 then .ok ⟨e, hevent, hcampaign, hfence⟩
      else fail .modelValidation "event fencing epoch must be positive"
    else fail .modelValidation "campaign_id must not be empty"
  else fail .modelValidation "event_id must not be empty"

/-- An event that was built has the fields it was built from. -/
theorem EventFields.build_eq_ok {e : EventFields} {event : Event} (h : e.build = .ok event) :
    event.toEventFields = e := by
  unfold EventFields.build at h
  split at h
  · split at h
    · split at h
      · obtain rfl := Except.ok.inj h
        rfl
      · cases h
    · cases h
  · cases h

/-- `Event.to_dict`. -/
def Event.toDict (e : Event) : Value :=
  .mapping [
    ("event_id", .str e.eventId),
    ("campaign_id", .str e.campaignId),
    ("event_type", .str e.eventType.value),
    ("expected_revision", .int e.expectedRevision),
    ("authority_epoch", .int e.authorityEpoch),
    ("cancellation_epoch", .int e.cancellationEpoch),
    ("node_id", optionalText e.nodeId),
    ("actor_id", optionalText e.actorId),
    ("fencing_epoch", optionalNumber e.fencingEpoch),
    ("payload", .mapping e.payload)]

structure ExternalEffectIntent where
  operationId : String
  campaignId : String
  nodeId : Option String
  kind : EffectKind
  state : EffectState
  payload : Mapping
  authorityEpoch : ℕ
  cancellationEpoch : ℕ
  fencingEpoch : Option ℕ
  external : Bool := true
deriving DecidableEq

end CodingOS.Campaign
