import CodingOS.Campaign.Reducer

/-!
# What one accepted event does

`reduce_accepted` says once, for the whole reducer, what an accepted event can do to a snapshot:
`Step` has one constructor for each shape a branch can take and keeps every guard the branch checked.
Every law about runs is a case analysis of `Step` or of its per-node projection `NodeStep`; none of
them unfolds a branch of the reducer again.
-/

namespace CodingOS.Campaign

open CodingOS.Python

variable [Runtime]

/-! ### The vocabulary of a step -/

/-- `n` is the node the event names, as the snapshot holds it. -/
structure Names (s : CampaignSnapshot) (e : Event) (n : NodeSnapshot) : Prop where
  nodeId : e.nodeId = some n.nodeId
  find : s.nodes.find? (·.nodeId == n.nodeId) = some n

theorem Names.mem {s : CampaignSnapshot} {e : Event} {n : NodeSnapshot} (h : Names s e n) :
    n ∈ s.nodes := List.mem_of_find?_eq_some h.find

/-- One unit of `token` is spent under `requestId`. -/
structure Spends (s : CampaignSnapshot) (token : BudgetToken) (requestId : String)
    (s' : CampaignSnapshot) : Prop where
  unused : ∀ r ∈ s.budgetReceipts, r.requestId ≠ requestId
  rank_pos : 0 < s.autonomousRankRemaining
  balances : List.Forall₂ (fun b b' => b.spend token = .ok b') s.budgets s'.budgets
  declared : ∃ b ∈ s.budgets, b.token = token
  result : s' = { s with
    budgets := s'.budgets
    budgetReceipts := s.budgetReceipts ++ [⟨requestId, token, s.revision + 1⟩]
    autonomousRankRemaining := s.autonomousRankRemaining - 1 }

/-- An event spends nothing, or one unit under its own identifier. -/
def MaySpend (s : CampaignSnapshot) (e : Event) (s' : CampaignSnapshot) : Prop :=
  s' = s ∨ ∃ token, Spends s token e.eventId s'

/-- The moves of the campaign itself. -/
inductive ControlMove (s : CampaignSnapshot) (e : Event) : CampaignState → Prop
  | approve : e.eventType = .approve → s.state = .draft → ControlMove s e .approved
  | start : e.eventType = .start → s.state = .approved → ControlMove s e .running
  | waitExternal : e.eventType = .waitExternal → s.state = .running →
      ControlMove s e .waitingExternal
  | waitHuman : e.eventType = .waitHuman → s.state = .running → ControlMove s e .waitingHuman
  | resume : e.eventType = .resume → s.state = .waitingExternal ∨ s.state = .waitingHuman →
      ControlMove s e .running

/-- The moves of one node that spend nothing and leave the campaign as it is. -/
inductive NodeMove (s : CampaignSnapshot) (e : Event) (n : NodeSnapshot) : NodeSnapshot → Prop
  | acquireLease {actor : String} {fence : ℕ} :
      e.eventType = .acquireLease → s.state = .running → n.state ∉ terminalNodeStates →
      n.leaseActorId = none → e.actorId = some actor → actor ≠ "" →
      e.fencingEpoch = some fence → n.fencingEpoch < fence →
      NodeMove s e n { n with fencingEpoch := fence, leaseActorId := some actor }
  | releaseLease :
      e.eventType = .releaseLease → n.leaseActorId ≠ none → e.actorId = n.leaseActorId →
      e.fencingEpoch = some n.fencingEpoch → NodeMove s e n { n with leaseActorId := none }
  | implementationCompleted :
      e.eventType = .implementationCompleted → checkFence s e n = .ok () →
      n.state = .implementing → NodeMove s e n { n with state := .validating }
  | requestCorrection {correction : Mapping} :
      e.eventType = .requestValidationCorrection → checkFence s e n = .ok () →
      s.state = .running → n.state = .validating → n.validationCorrections = 0 →
      n.candidateHead = none → checkCorrectionBudget s n.nodeId = .ok () →
      NodeMove s e n { n with
        state := .implementing
        validationCorrections := 1
        validationCorrection := some correction }
  | validationPassed :
      e.eventType = .validationPassed → checkFence s e n = .ok () → n.state = .validating →
      (candidateIdentity e).complete = true →
      NodeMove s e n { n.freezeCandidate (candidateIdentity e) with state := .candidateFrozen }
  | freezeFindings {values : List Value} {findings : List Finding} :
      e.eventType = .freezeFindings → n.state = .checksAndReview → n.findings = [] →
      uniqueFindings values .review = .ok findings →
      NodeMove s e n { n with state := .findingsFrozen, findings }
  | markReady :
      e.eventType = .markReadyToPublish → n.state = .findingsFrozen →
      n.findings.any (·.blocking) = false → NodeMove s e n { n with state := .readyToPublish }
  | authorizeRepair :
      e.eventType = .authorizeRepair → n.state = .findingsFrozen →
      n.findings.any (·.blocking) = true → n.repairAttempts = 0 →
      NodeMove s e n { n with state := .repairAuthorized }
  | repairCompleted :
      e.eventType = .repairCompleted → checkFence s e n = .ok () → n.state = .repairing →
      NodeMove s e n { n with state := .revalidating }
  | closureCompleted {values : List Value} {newFindings : List Finding} {resolved : List String} :
      e.eventType = .completeClosure → n.state = .closure →
      uniqueFindings values .closure = .ok newFindings → resolved.Nodup →
      (∀ f ∈ newFindings, f.findingId ∉ n.blockerIds) → (∀ id ∈ resolved, id ∈ n.blockerIds) →
      (∀ id ∈ n.blockerIds, id ∈ resolved) →
      (∀ f ∈ newFindings, f.closureBlocking = false) →
      NodeMove s e n { n with
        closureFindings := newFindings
        resolvedFindingIds := resolved
        state := .readyToPublish }
  | authorizePublication {receiptId receiptDigest : String} :
      e.eventType = .authorizePublication → automatedPublication s = false →
      n.state = .readyToPublish → n.publicationAuthorizationReceiptId = none →
      receiptId ≠ "" → receiptDigest ≠ "" →
      NodeMove s e n { n with
        publicationAuthorizationReceiptId := some receiptId
        publicationAuthorizationReceiptDigest := some receiptDigest }

/-- The moves of one node that dispatch a worker in the role given. -/
inductive DispatchMove (s : CampaignSnapshot) (e : Event) (n : NodeSnapshot) :
    String → NodeSnapshot → Prop
  | startImplementation :
      e.eventType = .startImplementation → s.state = .running → checkFence s e n = .ok () →
      n.state = .admitted → n.startHead.any (· != "") = true → n.implementationAttempts = 0 →
      DispatchMove s e n "IMPLEMENTER" { n with state := .implementing, implementationAttempts := 1 }
  | startReview :
      e.eventType = .startReview → n.state = .candidateFrozen → n.reviewGenerations = 0 →
      DispatchMove s e n "REVIEWER" { n with state := .checksAndReview, reviewGenerations := 1 }
  | startRepair :
      e.eventType = .startRepair → checkFence s e n = .ok () → n.state = .repairAuthorized →
      n.repairAttempts = 0 →
      DispatchMove s e n "REPAIRER" { n with state := .repairing, repairAttempts := 1 }
  | revalidationPassed :
      e.eventType = .revalidationPassed → checkFence s e n = .ok () → n.state = .revalidating →
      n.closureGenerations = 0 → (candidateIdentity e).complete = true →
      DispatchMove s e n "CLOSURE_REVIEWER"
        { n.freezeCandidate (candidateIdentity e) with state := .closure, closureGenerations := 1 }

/-- The ways a node fails: the node recorded as failed is `closed`, the named node itself except
that a failed closure first records its findings. -/
inductive FailMove (s : CampaignSnapshot) (e : Event) (n : NodeSnapshot) : NodeSnapshot → Prop
  | validationFailed : e.eventType = .validationFailed → checkFence s e n = .ok () →
      n.state = .validating → FailMove s e n n
  | revalidationFailed : e.eventType = .revalidationFailed → checkFence s e n = .ok () →
      n.state = .revalidating → FailMove s e n n
  | closureFailed {values : List Value} {newFindings : List Finding} {resolved : List String} :
      e.eventType = .completeClosure → n.state = .closure →
      uniqueFindings values .closure = .ok newFindings →
      (∀ f ∈ newFindings, f.findingId ∉ n.blockerIds) →
      FailMove s e n { n with closureFindings := newFindings, resolvedFindingIds := resolved }
  | publishFailed : e.eventType = .publishFailed → n.state = .publishing → FailMove s e n n
  | failNode : e.eventType = .failNode → n.state ∉ terminalNodeStates → FailMove s e n n

/-- What `START_PUBLISH` has checked when it emits `intent`: the kind is the next one of the required
sequence, the operation is new to the node, and the payload is bound to the frozen candidate. -/
structure PublishGuard (s : CampaignSnapshot) (e : Event) (n : NodeSnapshot) (kind : EffectKind)
    (operationId : String) (intent : ExternalEffectIntent) : Prop where
  eventType : e.eventType = .startPublish
  ready : n.state = .readyToPublish
  idle : n.pendingPublicationOperationId = none
  authorized : automatedPublication s = true ∨
    n.publicationAuthorizationReceiptId.any (· != "") = true
  next : ∃ allowed required expected,
    effectSequences s.spec.publicationAuthority = .ok (allowed, required) ∧
    required[n.completedPublicationEffects.length]? = some expected ∧
    (Value.str kind.value).eq expected = true
  operation : operationId = payloadText e "operation_id" ∧ operationId ≠ ""
  fresh : operationId ∉ n.publicationOperationIds
  bound : ∃ payload : Mapping,
    (payload.read "candidate_head").eq (candidateHeadValue n) = true ∧
    intent.payload = sortByKey payload
  identity : intent.operationId = operationId ∧ intent.kind = kind ∧ intent.nodeId = e.nodeId ∧
    intent.campaignId = s.spec.campaignId ∧ intent.state = .prepared ∧ intent.external = true ∧
    intent.authorityEpoch = s.authorityEpoch ∧ intent.cancellationEpoch = s.cancellationEpoch ∧
    intent.fencingEpoch = e.fencingEpoch

/-- Whether the confirmed sequence `completed` is the whole required one. -/
def sequenceComplete (s : CampaignSnapshot) (completed : List String) : Prop :=
  ∃ allowed required, effectSequences s.spec.publicationAuthority = .ok (allowed, required) ∧
    Value.eqItems (completed.map .str) required = true

/-- What `PUBLISH_CONFIRMED` has checked. -/
structure ConfirmGuard (s : CampaignSnapshot) (e : Event) (n : NodeSnapshot)
    (effect operationId : String) (complete : Bool) : Prop where
  eventType : e.eventType = .publishConfirmed
  publishing : n.state = .publishing
  head : (e.payload.read "candidate_head").eq (candidateHeadValue n) = true
  operation : (e.payload.read "operation_id").eq (optionalText n.pendingPublicationOperationId)
    = true
  pendingEffect : n.pendingPublicationEffect = some effect
  pendingOperation : operationId = (optionalText n.pendingPublicationOperationId).text
  completes : complete = true ↔ sequenceComplete s (n.completedPublicationEffects ++ [effect])

/-- **One step.**  The snapshot and the intents a branch of the reducer can yield. -/
inductive Step (s : CampaignSnapshot) (e : Event) :
    CampaignSnapshot → List ExternalEffectIntent → Prop
  | control {state : CampaignState} : ControlMove s e state → Step s e { s with state } []
  | advanceAuthority : e.eventType = .advanceAuthority → s.state = .waitingHuman →
      Step s e { s.mapNodes (fun n => { n with leaseActorId := none }) (fun _ => rfl) with
        authorityEpoch := s.authorityEpoch + 1 } []
  | cancel {reason : String} {effects : List ExternalEffectIntent} :
      e.eventType = .cancel → (∀ i ∈ effects, i.external = false) →
      Step s e { s.mapNodes cancelNode cancelNode_nodeId with
        state := .cancelled
        cancellationState := .cancelled
        cancellationEpoch := s.cancellationEpoch + 1
        activeNodeId := none
        failureReason := some reason } effects
  | consumeBudget {token : BudgetToken} {s' : CampaignSnapshot} :
      e.eventType = .consumeBudget → s.state = .running → Spends s token e.eventId s' →
      Step s e s' []
  | admitted {n : NodeSnapshot} {nodeSpec : NodeSpec} {startHead : String} :
      e.eventType = .admitNode → s.state = .running → Names s e n → n.state = .pending →
      s.activeNodeId = none ∨ s.activeNodeId = some n.nodeId →
      s.nodeSpec n.nodeId = .ok nodeSpec →
      (∀ d ∈ nodeSpec.dependencies, ∃ m, s.node d = .ok m ∧ m.state = .done) →
      isHexDigest 40 startHead = true → n.startHead = none →
      Step s e { s.replaceNode { n with state := .admitted, startHead := some startHead } with
        activeNodeId := some n.nodeId } []
  | move {n n' : NodeSnapshot} : Names s e n → NodeMove s e n n' → Step s e (s.replaceNode n') []
  | dispatch {role : String} {n n' : NodeSnapshot} {s' : CampaignSnapshot}
      {effects : List ExternalEffectIntent} :
      Names s e n → DispatchMove s e n role n' → dispatchEffect s e role = .ok (s', effects) →
      Step s e (s'.replaceNode n') effects
  | fail {n closed : NodeSnapshot} {reason : String} :
      Names s e n → FailMove s e n closed → Step s e (failExactNode s closed reason) []
  | publish {n : NodeSnapshot} {kind : EffectKind} {token : BudgetToken} {operationId : String}
      {s' : CampaignSnapshot} {intent : ExternalEffectIntent} :
      Names s e n → publishToken? kind = some token → consumeAutomated s e token = .ok s' →
      PublishGuard s e n kind operationId intent →
      Step s e (s'.replaceNode (n.publishing kind operationId)) [intent]
  | confirm {n : NodeSnapshot} {effect operationId : String} {complete : Bool} :
      Names s e n → ConfirmGuard s e n effect operationId complete →
      Step s e (s.recordPublication (n.confirmed effect operationId complete) complete) []

/-! ### The helpers -/

theorem nodeFor_eq_ok {s : CampaignSnapshot} {e : Event} {n : NodeSnapshot}
    (h : nodeFor s e = .ok n) : Names s e n := by
  unfold nodeFor at h
  split at h
  · exact absurd h fail_ne_ok
  · exact absurd h fail_ne_ok
  · next nodeId _ heq =>
      rw [CampaignSnapshot.node, orRaise_eq_ok] at h
      have hid : n.nodeId = nodeId := by simpa using List.find?_some h
      exact ⟨by rw [heq, hid], by rw [hid]; exact h⟩

theorem consumeBudget_eq_ok {s s' : CampaignSnapshot} {token : BudgetToken} {requestId : String}
    (h : consumeBudget s token requestId = .ok s') : Spends s token requestId s' := by
  simp only [consumeBudget, bind_eq_ok, check_eq_ok, pure_eq_ok, mapM_eq_ok, exists_const] at h
  obtain ⟨hunused, hrank, bs, hbs, hdeclared, rfl⟩ := h
  refine ⟨?_, by simpa using hrank, hbs, ?_, rfl⟩
  · simpa using hunused
  · simpa using hdeclared

/-- In manual mode nothing is spent; in automated mode exactly one unit of the token. -/
theorem consumeAutomated_eq_ok {s s' : CampaignSnapshot} {e : Event} {token : BudgetToken}
    (h : consumeAutomated s e token = .ok s') :
    (s.spec.mode = .manual ∧ s' = s) ∨ (s.spec.mode ≠ .manual ∧ Spends s token e.eventId s') := by
  unfold consumeAutomated at h
  split at h
  · next hmode => exact .inl ⟨by simpa using hmode, (pure_eq_ok.mp h).symm⟩
  · next hmode =>
      simp only [bind_eq_ok, check_eq_ok, exists_const] at h
      exact .inr ⟨by simpa using hmode, consumeBudget_eq_ok h.2⟩

theorem consumeAutomated_maySpend {s s' : CampaignSnapshot} {e : Event} {token : BudgetToken}
    (h : consumeAutomated s e token = .ok s') : MaySpend s e s' :=
  (consumeAutomated_eq_ok h).imp And.right fun hs => ⟨token, hs.2⟩

/-- The fields of an intent that `_effect` built. -/
theorem effect_eq_ok {s : CampaignSnapshot} {e : Event} {kind : EffectKind} {external : Bool}
    {payload : Mapping} {operationId : Option String} {intent : ExternalEffectIntent}
    (h : effect s e kind external payload operationId = .ok intent) :
    ∃ identity, (operationId = none → identity = payloadText e "operation_id") ∧
      intent = {
        operationId := identity
        campaignId := s.spec.campaignId
        nodeId := e.nodeId
        kind
        state := .prepared
        payload := sortByKey payload
        authorityEpoch := s.authorityEpoch
        cancellationEpoch := s.cancellationEpoch
        fencingEpoch := e.fencingEpoch
        external } := by
  simp only [effect, bind_eq_ok, require_eq_ok, pure_eq_ok, exists_const] at h
  obtain ⟨_, rfl⟩ := h
  exact ⟨_, fun hnone => by rw [hnone], rfl⟩

theorem dispatchEffect_eq_ok {s s' : CampaignSnapshot} {e : Event} {role : String}
    {effects : List ExternalEffectIntent} (h : dispatchEffect s e role = .ok (s', effects)) :
    ∃ token, dispatchToken? e.eventType = some token ∧ consumeAutomated s e token = .ok s' ∧
      ∀ i ∈ effects, i.external = false := by
  simp only [dispatchEffect, bind_eq_ok, orRaise_eq_ok] at h
  obtain ⟨token, htoken, s₁, hs₁, h⟩ := h
  refine ⟨token, htoken, ?_⟩
  split at h
  · simp only [bind_eq_ok, check_eq_ok, pure_eq_ok, exists_const, Prod.mk.injEq] at h
    obtain ⟨-, rfl, rfl⟩ := h
    exact ⟨hs₁, by simp⟩
  · simp only [bind_eq_ok, pure_eq_ok, orRaise_eq_ok, Prod.mk.injEq] at h
    obtain ⟨payload, -, intent, hintent, rfl, rfl⟩ := h
    obtain ⟨identity, -, rfl⟩ := effect_eq_ok hintent
    exact ⟨hs₁, by simp⟩

/-! ### Frames -/

namespace CampaignSnapshot

@[simp] theorem mapNodes_nodes (s : CampaignSnapshot) (f : NodeSnapshot → NodeSnapshot)
    (keeps : ∀ n, (f n).nodeId = n.nodeId) : (s.mapNodes f keeps).nodes = s.nodes.map f := rfl

theorem nodes_nodup (s : CampaignSnapshot) : (s.nodes.map (·.nodeId)).Nodup := by
  rw [s.node_ids]
  exact s.spec.node_ids_nodup

/-- Nodes of one snapshot are told apart by their identifiers. -/
theorem node_unique {s : CampaignSnapshot} {n m : NodeSnapshot} (hn : n ∈ s.nodes)
    (hm : m ∈ s.nodes) (hid : m.nodeId = n.nodeId) : m = n :=
  List.inj_on_of_nodup_map s.nodes_nodup hm hn hid

theorem mem_replaceNode {s : CampaignSnapshot} {n m : NodeSnapshot}
    (h : m ∈ (s.replaceNode n).nodes) : m = n ∨ m ∈ s.nodes ∧ m.nodeId ≠ n.nodeId := by
  simp only [replaceNode, mapNodes_nodes, List.mem_map] at h
  obtain ⟨k, hk, rfl⟩ := h
  by_cases hid : k.nodeId = n.nodeId
  · exact .inl (if_pos hid)
  · exact .inr (by rw [if_neg hid]; exact ⟨hk, hid⟩)

@[simp] theorem recordPublication_nodes (s : CampaignSnapshot) (n : NodeSnapshot)
    (complete : Bool) : (s.recordPublication n complete).nodes = (s.replaceNode n).nodes := rfl

end CampaignSnapshot

namespace Spends

variable {s s' : CampaignSnapshot} {token : BudgetToken} {requestId : String}

theorem nodes_eq (h : Spends s token requestId s') : s'.nodes = s.nodes := by rw [h.result]

theorem spec_eq (h : Spends s token requestId s') : s'.spec = s.spec := by rw [h.result]

end Spends

/-- A dispatch leaves the nodes alone, so the node it looks up again is the one it started from. -/
theorem dispatchEffect_node {s s' : CampaignSnapshot} {e : Event} {role : String}
    {effects : List ExternalEffectIntent} {n m : NodeSnapshot}
    (h : dispatchEffect s e role = .ok (s', effects)) (hn : Names s e n)
    (hm : s'.node n.nodeId = .ok m) : m = n := by
  obtain ⟨token, -, hs', -⟩ := dispatchEffect_eq_ok h
  have hnodes : s'.nodes = s.nodes := by
    obtain rfl | ⟨_, hspend⟩ := consumeAutomated_maySpend hs'
    · rfl
    · exact hspend.nodes_eq
  rw [CampaignSnapshot.node, orRaise_eq_ok, hnodes, hn.find] at hm
  exact (Option.some.inj hm).symm

/-! ### The branches -/

section Branches

variable {s s' : CampaignSnapshot} {e : Event} {effects : List ExternalEffectIntent}

theorem reduceApprove_step (ht : e.eventType = .approve)
    (h : reduceApprove s e = .ok (s', effects)) : Step s e s' effects := by
  simp only [reduceApprove, bind_eq_ok, require_eq_ok, pure_eq_ok, beq_iff_eq, Prod.mk.injEq,
    exists_const] at h
  obtain ⟨hstate, _, -, -, rfl, rfl⟩ := h
  exact .control (.approve ht hstate)

theorem reduceStart_step (ht : e.eventType = .start) (h : reduceStart s = .ok (s', effects)) :
    Step s e s' effects := by
  simp only [reduceStart, bind_eq_ok, require_eq_ok, pure_eq_ok, beq_iff_eq, Prod.mk.injEq,
    exists_const] at h
  obtain ⟨hstate, rfl, rfl⟩ := h
  exact .control (.start ht hstate)

theorem reduceWait_eq_ok {waiting : CampaignState} (h : reduceWait s waiting = .ok (s', effects)) :
    s.state = .running ∧ s' = { s with state := waiting } ∧ effects = [] := by
  simp only [reduceWait, bind_eq_ok, require_eq_ok, pure_eq_ok, beq_iff_eq, Prod.mk.injEq,
    exists_const] at h
  exact ⟨h.1, h.2.1.symm, h.2.2.symm⟩

theorem reduceResume_step (ht : e.eventType = .resume) (h : reduceResume s = .ok (s', effects)) :
    Step s e s' effects := by
  simp only [reduceResume, bind_eq_ok, require_eq_ok, pure_eq_ok, Prod.mk.injEq,
    exists_const] at h
  obtain ⟨hstate, rfl, rfl⟩ := h
  exact .control (.resume ht (by simpa [waitingStates] using hstate))

theorem reduceAdvanceAuthority_step (ht : e.eventType = .advanceAuthority)
    (h : reduceAdvanceAuthority s e = .ok (s', effects)) : Step s e s' effects := by
  simp only [reduceAdvanceAuthority, bind_eq_ok, require_eq_ok, orRaise_eq_ok, pure_eq_ok,
    beq_iff_eq, Prod.mk.injEq, exists_const] at h
  obtain ⟨hstate, _, -, -, rfl, rfl⟩ := h
  exact .advanceAuthority ht hstate

theorem reduceCancel_step (ht : e.eventType = .cancel)
    (h : reduceCancel s e = .ok (s', effects)) : Step s e s' effects := by
  simp only [reduceCancel, bind_eq_ok, pure_eq_ok, Prod.mk.injEq] at h
  obtain ⟨interrupt, hinterrupt, reconcile, hreconcile, rfl, rfl⟩ := h
  obtain ⟨_, -, rfl⟩ := effect_eq_ok hinterrupt
  obtain ⟨_, -, rfl⟩ := effect_eq_ok hreconcile
  exact .cancel ht (by simp)

theorem reduceConsumeBudget_step (ht : e.eventType = .consumeBudget)
    (h : reduceConsumeBudget s e = .ok (s', effects)) : Step s e s' effects := by
  simp only [reduceConsumeBudget, bind_eq_ok, require_eq_ok, orRaise_eq_ok, pure_eq_ok, beq_iff_eq,
    Prod.mk.injEq, exists_const] at h
  obtain ⟨hstate, token, -, _, hspend, rfl, rfl⟩ := h
  exact .consumeBudget ht hstate (consumeBudget_eq_ok hspend)

theorem reduceAdmitNode_step (ht : e.eventType = .admitNode)
    (h : reduceAdmitNode s e = .ok (s', effects)) : Step s e s' effects := by
  simp only [reduceAdmitNode, bind_eq_ok, require_eq_ok, pure_eq_ok, beq_iff_eq, Bool.or_eq_true,
    Prod.mk.injEq, exists_const] at h
  obtain ⟨hrunning, n, hn, hpending, hactive, nodeSpec, hspec, _, hdeps, hhex, hhead, rfl, rfl⟩ := h
  refine .admitted ht hrunning (nodeFor_eq_ok hn) hpending hactive hspec ?_ hhex hhead
  intro d hd
  have hdone := forEach_eq_ok hdeps d hd
  simp only [bind_eq_ok, require_eq_ok, beq_iff_eq] at hdone
  exact hdone

theorem reduceAcquireLease_step (ht : e.eventType = .acquireLease)
    (h : reduceAcquireLease s e = .ok (s', effects)) : Step s e s' effects := by
  simp only [reduceAcquireLease, bind_eq_ok, require_eq_ok, pure_eq_ok, beq_iff_eq, Prod.mk.injEq,
    exists_const] at h
  obtain ⟨hrunning, n, hn, hlive, hfree, hactor, hfence, rfl, rfl⟩ := h
  obtain ⟨actor, hactor, hne⟩ := (Option.any_eq_true _ _).mp hactor
  obtain ⟨fence, hfence, hlt⟩ := (Option.any_eq_true _ _).mp hfence
  rw [hfence, hactor, Option.getD_some]
  exact .move (nodeFor_eq_ok hn) (.acquireLease ht hrunning (by simpa using hlive) hfree hactor
    (by simpa using hne) hfence (by simpa using hlt))

theorem reduceReleaseLease_step (ht : e.eventType = .releaseLease)
    (h : reduceReleaseLease s e = .ok (s', effects)) : Step s e s' effects := by
  simp only [reduceReleaseLease, bind_eq_ok, require_eq_ok, check_eq_ok, pure_eq_ok, beq_iff_eq,
    bne_iff_ne, Bool.and_eq_true, Prod.mk.injEq, exists_const] at h
  obtain ⟨n, hn, hheld, ⟨hactor, hfence⟩, rfl, rfl⟩ := h
  exact .move (nodeFor_eq_ok hn) (.releaseLease ht hheld hactor hfence)

theorem reduceStartImplementation_step (ht : e.eventType = .startImplementation)
    (h : reduceStartImplementation s e = .ok (s', effects)) : Step s e s' effects := by
  simp only [reduceStartImplementation, bind_eq_ok, require_eq_ok, pure_eq_ok, beq_iff_eq,
    Prod.mk.injEq, Prod.exists, exists_const] at h
  obtain ⟨hrunning, n, hn, _, hfence, hstate, hhead, hattempts, s₁, fx, hd, m, hm, rfl, rfl⟩ := h
  obtain rfl := dispatchEffect_node hd (nodeFor_eq_ok hn) hm
  exact .dispatch (nodeFor_eq_ok hn)
    (.startImplementation ht hrunning hfence hstate hhead hattempts) hd

theorem reduceImplementationCompleted_step (ht : e.eventType = .implementationCompleted)
    (h : reduceImplementationCompleted s e = .ok (s', effects)) : Step s e s' effects := by
  simp only [reduceImplementationCompleted, bind_eq_ok, require_eq_ok, pure_eq_ok, beq_iff_eq,
    Prod.mk.injEq, exists_const] at h
  obtain ⟨n, hn, _, hfence, hstate, rfl, rfl⟩ := h
  exact .move (nodeFor_eq_ok hn) (.implementationCompleted ht hfence hstate)

theorem reduceRequestValidationCorrection_step (ht : e.eventType = .requestValidationCorrection)
    (h : reduceRequestValidationCorrection s e = .ok (s', effects)) : Step s e s' effects := by
  simp only [reduceRequestValidationCorrection, bind_eq_ok, require_eq_ok, orRaise_eq_ok, pure_eq_ok,
    beq_iff_eq, Prod.mk.injEq, exists_const] at h
  obtain ⟨n, hn, _, hfence, hrunning, hstate, hunused, hhead, correction, -, _, -, _, -, _, -, -, -,
    _, -, -, _, hbudget, rfl, rfl⟩ := h
  exact .move (nodeFor_eq_ok hn)
    (.requestCorrection ht hfence hrunning hstate hunused hhead hbudget)

theorem reduceValidationPassed_step (ht : e.eventType = .validationPassed)
    (h : reduceValidationPassed s e = .ok (s', effects)) : Step s e s' effects := by
  simp only [reduceValidationPassed, bind_eq_ok, require_eq_ok, pure_eq_ok, beq_iff_eq,
    Prod.mk.injEq, exists_const] at h
  obtain ⟨n, hn, _, hfence, hstate, hcomplete, rfl, rfl⟩ := h
  exact .move (nodeFor_eq_ok hn) (.validationPassed ht hfence hstate hcomplete)

theorem reduceValidationFailed_step (ht : e.eventType = .validationFailed)
    (h : reduceValidationFailed s e = .ok (s', effects)) : Step s e s' effects := by
  simp only [reduceValidationFailed, bind_eq_ok, require_eq_ok, pure_eq_ok, beq_iff_eq,
    Prod.mk.injEq, exists_const] at h
  obtain ⟨n, hn, _, hfence, hstate, rfl, rfl⟩ := h
  exact .fail (nodeFor_eq_ok hn) (.validationFailed ht hfence hstate)

theorem reduceStartReview_step (ht : e.eventType = .startReview)
    (h : reduceStartReview s e = .ok (s', effects)) : Step s e s' effects := by
  simp only [reduceStartReview, bind_eq_ok, require_eq_ok, pure_eq_ok, beq_iff_eq,
    Prod.mk.injEq, Prod.exists, exists_const] at h
  obtain ⟨n, hn, hstate, hgeneration, _, -, -, s₁, fx, hd, m, hm, rfl, rfl⟩ := h
  obtain rfl := dispatchEffect_node hd (nodeFor_eq_ok hn) hm
  exact .dispatch (nodeFor_eq_ok hn) (.startReview ht hstate hgeneration) hd

theorem reduceFreezeFindings_step (ht : e.eventType = .freezeFindings)
    (h : reduceFreezeFindings s e = .ok (s', effects)) : Step s e s' effects := by
  simp only [reduceFreezeFindings, bind_eq_ok, require_eq_ok, pure_eq_ok, beq_iff_eq,
    List.isEmpty_iff, Prod.mk.injEq, exists_const] at h
  obtain ⟨n, hn, hstate, hempty, values, -, findings, hfindings, rfl, rfl⟩ := h
  exact .move (nodeFor_eq_ok hn) (.freezeFindings ht hstate hempty hfindings)

theorem reduceMarkReadyToPublish_step (ht : e.eventType = .markReadyToPublish)
    (h : reduceMarkReadyToPublish s e = .ok (s', effects)) : Step s e s' effects := by
  simp only [reduceMarkReadyToPublish, bind_eq_ok, require_eq_ok, pure_eq_ok, beq_iff_eq,
    Bool.not_eq_true', Prod.mk.injEq, exists_const] at h
  obtain ⟨n, hn, hstate, hclean, rfl, rfl⟩ := h
  exact .move (nodeFor_eq_ok hn) (.markReady ht hstate hclean)

theorem reduceAuthorizeRepair_step (ht : e.eventType = .authorizeRepair)
    (h : reduceAuthorizeRepair s e = .ok (s', effects)) : Step s e s' effects := by
  simp only [reduceAuthorizeRepair, bind_eq_ok, require_eq_ok, pure_eq_ok, beq_iff_eq,
    Prod.mk.injEq, exists_const] at h
  obtain ⟨n, hn, hstate, hblocking, hattempts, _, -, -, -, rfl, rfl⟩ := h
  exact .move (nodeFor_eq_ok hn) (.authorizeRepair ht hstate hblocking hattempts)

theorem reduceStartRepair_step (ht : e.eventType = .startRepair)
    (h : reduceStartRepair s e = .ok (s', effects)) : Step s e s' effects := by
  simp only [reduceStartRepair, bind_eq_ok, require_eq_ok, pure_eq_ok, beq_iff_eq,
    Prod.mk.injEq, Prod.exists, exists_const] at h
  obtain ⟨n, hn, _, hfence, hstate, hattempts, s₁, fx, hd, m, hm, rfl, rfl⟩ := h
  obtain rfl := dispatchEffect_node hd (nodeFor_eq_ok hn) hm
  exact .dispatch (nodeFor_eq_ok hn) (.startRepair ht hfence hstate hattempts) hd

theorem reduceRepairCompleted_step (ht : e.eventType = .repairCompleted)
    (h : reduceRepairCompleted s e = .ok (s', effects)) : Step s e s' effects := by
  simp only [reduceRepairCompleted, bind_eq_ok, require_eq_ok, pure_eq_ok, beq_iff_eq,
    Prod.mk.injEq, exists_const] at h
  obtain ⟨n, hn, _, hfence, hstate, rfl, rfl⟩ := h
  exact .move (nodeFor_eq_ok hn) (.repairCompleted ht hfence hstate)

theorem reduceRevalidationPassed_step (ht : e.eventType = .revalidationPassed)
    (h : reduceRevalidationPassed s e = .ok (s', effects)) : Step s e s' effects := by
  simp only [reduceRevalidationPassed, bind_eq_ok, require_eq_ok, pure_eq_ok, beq_iff_eq,
    Prod.mk.injEq, Prod.exists, exists_const] at h
  obtain ⟨n, hn, _, hfence, hstate, hgeneration, hcomplete, s₁, fx, hd, m, hm, rfl, rfl⟩ := h
  obtain rfl := dispatchEffect_node hd (nodeFor_eq_ok hn) hm
  exact .dispatch (nodeFor_eq_ok hn)
    (.revalidationPassed ht hfence hstate hgeneration hcomplete) hd

theorem reduceRevalidationFailed_step (ht : e.eventType = .revalidationFailed)
    (h : reduceRevalidationFailed s e = .ok (s', effects)) : Step s e s' effects := by
  simp only [reduceRevalidationFailed, bind_eq_ok, require_eq_ok, pure_eq_ok, beq_iff_eq,
    Prod.mk.injEq, exists_const] at h
  obtain ⟨n, hn, _, hfence, hstate, rfl, rfl⟩ := h
  exact .fail (nodeFor_eq_ok hn) (.revalidationFailed ht hfence hstate)

theorem reduceCompleteClosure_step (ht : e.eventType = .completeClosure)
    (h : reduceCompleteClosure s e = .ok (s', effects)) : Step s e s' effects := by
  simp only [reduceCompleteClosure, bind_eq_ok, require_eq_ok, beq_iff_eq, exists_const] at h
  obtain ⟨n, hn, hstate, values, -, newFindings, hfindings, items, -, hnodup, hrelabel, hknown, h⟩ :=
    h
  have hfresh : ∀ f ∈ newFindings, f.findingId ∉ n.blockerIds := by
    simpa [List.mem_dedup] using hrelabel
  split at h
  · simp only [pure_eq_ok, Prod.mk.injEq] at h
    obtain ⟨rfl, rfl⟩ := h
    exact .fail (nodeFor_eq_ok hn) (.closureFailed ht hstate hfindings hfresh)
  · next hclosed =>
      simp only [pure_eq_ok, Prod.mk.injEq] at h
      obtain ⟨rfl, rfl⟩ := h
      rw [not_or, not_not, not_not] at hclosed
      refine .move (nodeFor_eq_ok hn) (.closureCompleted ht hstate hfindings
        (of_decide_eq_true hnodup) hfresh (by simpa [List.mem_dedup] using hknown) ?_ ?_)
      · simpa [List.filter_eq_nil_iff, List.mem_dedup] using hclosed.1
      · simpa [List.filter_eq_nil_iff] using hclosed.2

theorem reduceAuthorizePublication_step (ht : e.eventType = .authorizePublication)
    (h : reduceAuthorizePublication s e = .ok (s', effects)) : Step s e s' effects := by
  simp only [reduceAuthorizePublication, bind_eq_ok, require_eq_ok, pure_eq_ok, beq_iff_eq,
    Bool.not_eq_true', Bool.and_eq_true, bne_iff_ne, Prod.mk.injEq, exists_const] at h
  obtain ⟨n, hn, hmanual, hstate, hunused, ⟨hid, hdigest⟩, rfl, rfl⟩ := h
  exact .move (nodeFor_eq_ok hn) (.authorizePublication ht hmanual hstate hunused hid hdigest)

theorem reduceStartPublish_step (ht : e.eventType = .startPublish)
    (h : reduceStartPublish s e = .ok (s', effects)) : Step s e s' effects := by
  simp only [reduceStartPublish, bind_eq_ok, require_eq_ok, orRaise_eq_ok, pure_eq_ok, beq_iff_eq,
    bne_iff_ne, Bool.or_eq_true, Bool.and_eq_true, Bool.not_eq_true', Prod.mk.injEq, Prod.exists,
    exists_const] at h
  obtain ⟨n, hn, hstate, hauthorized, hidle, kind, -, token, htoken, allowed, required, hsequences,
    -, expected, hexpected, hnext, hoperation, hfresh, s₁, hspend, payload, -, hbound, intent,
    hintent, m, hm, rfl, rfl⟩ := h
  have hnames := nodeFor_eq_ok hn
  have hsame : s₁.nodes = s.nodes ∧ s₁.spec = s.spec ∧ s₁.authorityEpoch = s.authorityEpoch ∧
      s₁.cancellationEpoch = s.cancellationEpoch := by
    obtain rfl | ⟨_, hspends⟩ := consumeAutomated_maySpend hspend
    · exact ⟨rfl, rfl, rfl, rfl⟩
    · rw [hspends.result]
      exact ⟨rfl, rfl, rfl, rfl⟩
  obtain rfl : m = n := by
    rw [CampaignSnapshot.node, orRaise_eq_ok, hsame.1, hnames.find] at hm
    exact (Option.some.inj hm).symm
  obtain ⟨identity, hidentity, rfl⟩ := effect_eq_ok hintent
  refine .publish hnames htoken hspend ⟨ht, hstate, hidle, hauthorized.imp id And.left,
    ⟨allowed, required, expected, hsequences, hexpected, hnext⟩, ⟨rfl, hoperation⟩,
    by simpa using hfresh, ⟨_, hbound, rfl⟩, ?_⟩
  exact ⟨hidentity rfl, rfl, rfl, by rw [hsame.2.1], rfl, rfl, hsame.2.2.1, hsame.2.2.2, rfl⟩

theorem reducePublishConfirmed_step (ht : e.eventType = .publishConfirmed)
    (h : reducePublishConfirmed s e = .ok (s', effects)) : Step s e s' effects := by
  simp only [reducePublishConfirmed, bind_eq_ok, require_eq_ok, pure_eq_ok, beq_iff_eq, Prod.exists,
    Prod.mk.injEq, exists_const] at h
  obtain ⟨n, hn, hstate, hhead, hoperation, heffect, allowed, required, hsequences, h⟩ := h
  obtain ⟨effect, heffect, -⟩ := (Option.any_eq_true _ _).mp heffect
  have hguard : ConfirmGuard s e n effect (optionalText n.pendingPublicationOperationId).text
      (Value.eqItems ((n.completedPublicationEffects ++ [effect]).map .str) required) := by
    refine ⟨ht, hstate, hhead, hoperation, heffect, rfl, ⟨fun hc => ⟨_, _, hsequences, hc⟩, ?_⟩⟩
    rintro ⟨allowed', required', hsequences', hc⟩
    obtain ⟨rfl, rfl⟩ : allowed' = allowed ∧ required' = required := by
      simpa [hsequences] using hsequences'.symm
    exact hc
  rw [show (optionalText n.pendingPublicationEffect).text = effect by rw [heffect]; rfl] at h
  obtain ⟨rfl, rfl⟩ := h
  exact .confirm (nodeFor_eq_ok hn) hguard

theorem reducePublishFailed_step (ht : e.eventType = .publishFailed)
    (h : reducePublishFailed s e = .ok (s', effects)) : Step s e s' effects := by
  simp only [reducePublishFailed, bind_eq_ok, require_eq_ok, pure_eq_ok, beq_iff_eq,
    Prod.mk.injEq, exists_const] at h
  obtain ⟨n, hn, hstate, rfl, rfl⟩ := h
  exact .fail (nodeFor_eq_ok hn) (.publishFailed ht hstate)

theorem reduceFailNode_step (ht : e.eventType = .failNode)
    (h : reduceFailNode s e = .ok (s', effects)) : Step s e s' effects := by
  simp only [reduceFailNode, bind_eq_ok, require_eq_ok, pure_eq_ok, Prod.mk.injEq,
    exists_const] at h
  obtain ⟨n, hn, hlive, rfl, rfl⟩ := h
  exact .fail (nodeFor_eq_ok hn) (.failNode ht (by simpa using hlive))

/-- **Every branch is a step.** -/
theorem reduceBranch_step (h : reduceBranch s e = .ok (s', effects)) : Step s e s' effects := by
  unfold reduceBranch at h
  split at h
  case h_1 ht => exact reduceApprove_step ht h
  case h_2 ht => exact reduceStart_step ht h
  case h_3 ht =>
    obtain ⟨hrunning, rfl, rfl⟩ := reduceWait_eq_ok h
    exact .control (.waitExternal ht hrunning)
  case h_4 ht =>
    obtain ⟨hrunning, rfl, rfl⟩ := reduceWait_eq_ok h
    exact .control (.waitHuman ht hrunning)
  case h_5 ht => exact reduceResume_step ht h
  case h_6 ht => exact reduceAdvanceAuthority_step ht h
  case h_7 ht => exact reduceCancel_step ht h
  case h_8 ht => exact reduceConsumeBudget_step ht h
  case h_9 ht => exact reduceAdmitNode_step ht h
  case h_10 ht => exact reduceAcquireLease_step ht h
  case h_11 ht => exact reduceReleaseLease_step ht h
  case h_12 ht => exact reduceStartImplementation_step ht h
  case h_13 ht => exact reduceImplementationCompleted_step ht h
  case h_14 ht => exact reduceRequestValidationCorrection_step ht h
  case h_15 ht => exact reduceValidationPassed_step ht h
  case h_16 ht => exact reduceValidationFailed_step ht h
  case h_17 ht => exact reduceStartReview_step ht h
  case h_18 ht => exact reduceFreezeFindings_step ht h
  case h_19 ht => exact reduceMarkReadyToPublish_step ht h
  case h_20 ht => exact reduceAuthorizeRepair_step ht h
  case h_21 ht => exact reduceStartRepair_step ht h
  case h_22 ht => exact reduceRepairCompleted_step ht h
  case h_23 ht => exact reduceRevalidationPassed_step ht h
  case h_24 => exact absurd h fail_ne_ok
  case h_25 ht => exact reduceRevalidationFailed_step ht h
  case h_26 ht => exact reduceCompleteClosure_step ht h
  case h_27 ht => exact reduceAuthorizePublication_step ht h
  case h_28 ht => exact reduceStartPublish_step ht h
  case h_29 ht => exact reducePublishConfirmed_step ht h
  case h_30 ht => exact reducePublishFailed_step ht h
  case h_31 ht => exact reduceFailNode_step ht h

end Branches

/-! ### The reducer -/

/-- What `reduce` has checked and done when it accepts an event. -/
structure Accepted (s : CampaignSnapshot) (e : Event) (effects : List ExternalEffectIntent)
    (s' : CampaignSnapshot) : Prop where
  campaign : e.campaignId = s.spec.campaignId
  revision : e.expectedRevision = s.revision
  authority : e.authorityEpoch = s.authorityEpoch
  cancellation : e.cancellationEpoch = s.cancellationEpoch
  active : s.cancellationState ≠ .cancelled
  live : s.state ∉ terminalCampaignStates
  step : ∃ s₁, Step s e s₁ effects ∧ s' = { s₁ with revision := s.revision + 1 }

/-- **The inversion of `reduce`.**  An accepted event passed every check of the header, and its
snapshot is one step away, with the revision advanced by one. -/
theorem reduce_accepted {s s' : CampaignSnapshot} {e : Event} {effects : List ExternalEffectIntent}
    (h : reduce s e = .ok (s', effects)) : Accepted s e effects s' := by
  simp only [reduce, checkEventHeader, finishRevision, bind_eq_ok, require_eq_ok, check_eq_ok,
    pure_eq_ok, beq_iff_eq, bne_iff_ne, Prod.exists, Prod.mk.injEq, exists_const] at h
  obtain ⟨⟨hcampaign, hrevision, hauthority, hcancellation, hactive, hlive⟩, s₁, fx, hbranch, -, -,
    -, -, rfl, rfl⟩ := h
  exact ⟨hcampaign, hrevision, hauthority, hcancellation, hactive, by simpa using hlive,
    s₁, reduceBranch_step hbranch, rfl⟩

/-! ### What a step does to one node -/

/-- The events that name no node. -/
def campaignEvents : List EventType :=
  [.approve, .start, .waitExternal, .waitHuman, .resume, .consumeBudget]

/-- What an accepted event does to a node `m`. -/
inductive NodeStep (s : CampaignSnapshot) (e : Event) (effects : List ExternalEffectIntent)
    (m : NodeSnapshot) : NodeSnapshot → Prop
  | same : e.nodeId ≠ some m.nodeId ∨ e.eventType ∈ campaignEvents → NodeStep s e effects m m
  | unlease : e.eventType = .advanceAuthority →
      NodeStep s e effects m { m with leaseActorId := none }
  | cancel : e.eventType = .cancel → NodeStep s e effects m (cancelNode m)
  | admitted {startHead : String} : e.eventType = .admitNode → Names s e m → m.state = .pending →
      isHexDigest 40 startHead = true → m.startHead = none →
      NodeStep s e effects m { m with state := .admitted, startHead := some startHead }
  | move {n' : NodeSnapshot} : Names s e m → NodeMove s e m n' → NodeStep s e effects m n'
  | dispatch {role : String} {n' : NodeSnapshot} : Names s e m → DispatchMove s e m role n' →
      NodeStep s e effects m n'
  | fail {closed : NodeSnapshot} {reason : String} : Names s e m → FailMove s e m closed →
      NodeStep s e effects m (closed.failed reason)
  | publish {kind : EffectKind} {operationId : String} {intent : ExternalEffectIntent} :
      Names s e m → PublishGuard s e m kind operationId intent → effects = [intent] →
      NodeStep s e effects m (m.publishing kind operationId)
  | confirm {effect operationId : String} {complete : Bool} :
      Names s e m → ConfirmGuard s e m effect operationId complete →
      NodeStep s e effects m (m.confirmed effect operationId complete)

section Nodes

variable {s s' : CampaignSnapshot} {e : Event} {effects : List ExternalEffectIntent}

theorem MaySpend.nodes_eq (h : MaySpend s e s') : s'.nodes = s.nodes := by
  obtain rfl | ⟨_, h⟩ := h
  · rfl
  · exact h.nodes_eq

theorem MaySpend.spec_eq (h : MaySpend s e s') : s'.spec = s.spec := by
  obtain rfl | ⟨_, h⟩ := h
  · rfl
  · exact h.spec_eq

theorem dispatchEffect_nodes {role : String} (h : dispatchEffect s e role = .ok (s', effects)) :
    s'.nodes = s.nodes := by
  obtain ⟨token, -, h, -⟩ := dispatchEffect_eq_ok h
  exact (consumeAutomated_maySpend h).nodes_eq

theorem NodeMove.nodeId_eq {n n' : NodeSnapshot} (h : NodeMove s e n n') : n'.nodeId = n.nodeId := by
  cases h <;> rfl

theorem DispatchMove.nodeId_eq {role : String} {n n' : NodeSnapshot}
    (h : DispatchMove s e n role n') : n'.nodeId = n.nodeId := by
  cases h <;> rfl

theorem FailMove.nodeId_eq {n closed : NodeSnapshot} (h : FailMove s e n closed) :
    closed.nodeId = n.nodeId := by
  cases h <;> rfl

/-- When a step replaces the node it names by `n'`, that node took the step given and every other
node is untouched. -/
theorem replaceNode_cases {n n' m' : NodeSnapshot} (hn : Names s e n)
    (hstep : NodeStep s e effects n n') (hid : n'.nodeId = n.nodeId)
    (hnodes : s'.nodes = (s.replaceNode n').nodes) (hm' : m' ∈ s'.nodes) :
    ∃ m ∈ s.nodes, m.nodeId = m'.nodeId ∧ NodeStep s e effects m m' := by
  rw [hnodes] at hm'
  obtain rfl | ⟨hm, hne⟩ := CampaignSnapshot.mem_replaceNode hm'
  · exact ⟨n, hn.mem, hid.symm, hstep⟩
  · refine ⟨m', hm, rfl, .same (.inl fun hname => hne ?_)⟩
    rw [hn.nodeId, Option.some.injEq] at hname
    rw [hid, hname]

theorem replaceNode_nodes_congr {n : NodeSnapshot} (h : s'.nodes = s.nodes) :
    (s'.replaceNode n).nodes = (s.replaceNode n).nodes := by
  simp only [CampaignSnapshot.replaceNode, CampaignSnapshot.mapNodes_nodes, h]

/-- **The nodes of a step.**  Every node of the next snapshot comes from the node of that identifier
by one `NodeStep`. -/
theorem Step.node_cases (h : Step s e s' effects) {m' : NodeSnapshot} (hm' : m' ∈ s'.nodes) :
    ∃ m ∈ s.nodes, m.nodeId = m'.nodeId ∧ NodeStep s e effects m m' := by
  cases h with
  | control hmove =>
      exact ⟨m', hm', rfl, .same (.inr (by cases hmove <;> simp [campaignEvents, *]))⟩
  | advanceAuthority ht _ =>
      obtain ⟨m, hm, rfl⟩ := List.mem_map.mp hm'
      exact ⟨m, hm, rfl, .unlease ht⟩
  | cancel ht _ =>
      obtain ⟨m, hm, rfl⟩ := List.mem_map.mp hm'
      exact ⟨m, hm, (cancelNode_nodeId m).symm, .cancel ht⟩
  | consumeBudget ht _ hspend =>
      exact ⟨m', hspend.nodes_eq ▸ hm', rfl, .same (.inr (by simp [campaignEvents, ht]))⟩
  | admitted ht _ hn hpending _ _ _ hhex hhead =>
      exact replaceNode_cases hn (.admitted ht hn hpending hhex hhead) rfl rfl hm'
  | move hn hmove => exact replaceNode_cases hn (.move hn hmove) hmove.nodeId_eq rfl hm'
  | dispatch hn hmove hdispatch =>
      exact replaceNode_cases hn (.dispatch hn hmove) hmove.nodeId_eq
        (replaceNode_nodes_congr (dispatchEffect_nodes hdispatch)) hm'
  | fail hn hmove => exact replaceNode_cases hn (.fail hn hmove) hmove.nodeId_eq rfl hm'
  | publish hn _ hspend hguard =>
      exact replaceNode_cases hn (.publish hn hguard rfl) rfl
        (replaceNode_nodes_congr (consumeAutomated_maySpend hspend).nodes_eq) hm'
  | confirm hn hguard => exact replaceNode_cases hn (.confirm hn hguard) rfl rfl hm'

/-- The nodes of the snapshot an accepted event leaves. -/
theorem Accepted.node_cases (h : Accepted s e effects s') {m' : NodeSnapshot} (hm' : m' ∈ s'.nodes) :
    ∃ m ∈ s.nodes, m.nodeId = m'.nodeId ∧ NodeStep s e effects m m' := by
  obtain ⟨s₁, hstep, rfl⟩ := h.step
  exact hstep.node_cases hm'

end Nodes

/-! ### The two publication events -/

section PublicationSteps

variable {s s' : CampaignSnapshot} {e : Event} {effects : List ExternalEffectIntent}

theorem NodeMove.eventType_ne {n n' : NodeSnapshot} (h : NodeMove s e n n') :
    e.eventType ≠ .startPublish ∧ e.eventType ≠ .publishConfirmed := by
  cases h <;> simp [*]

theorem DispatchMove.eventType_ne {role : String} {n n' : NodeSnapshot}
    (h : DispatchMove s e n role n') :
    e.eventType ≠ .startPublish ∧ e.eventType ≠ .publishConfirmed := by
  cases h <;> simp [*]

theorem FailMove.eventType_ne {n closed : NodeSnapshot} (h : FailMove s e n closed) :
    e.eventType ≠ .startPublish ∧ e.eventType ≠ .publishConfirmed := by
  cases h <;> simp [*]

theorem ControlMove.eventType_ne {state : CampaignState} (h : ControlMove s e state) :
    e.eventType ≠ .startPublish ∧ e.eventType ≠ .publishConfirmed := by
  cases h <;> simp [*]

/-- An accepted `START_PUBLISH` emitted one intent, for the node it names. -/
theorem Step.startPublish (h : Step s e s' effects) (ht : e.eventType = .startPublish) :
    ∃ n kind operationId intent, Names s e n ∧ effects = [intent] ∧
      PublishGuard s e n kind operationId intent := by
  cases h with
  | control hmove => exact absurd ht hmove.eventType_ne.1
  | advanceAuthority ht' | cancel ht' | consumeBudget ht' | admitted ht' => simp [ht] at ht'
  | move _ hmove => exact absurd ht hmove.eventType_ne.1
  | dispatch _ hmove => exact absurd ht hmove.eventType_ne.1
  | fail _ hmove => exact absurd ht hmove.eventType_ne.1
  | publish hn _ _ hguard => exact ⟨_, _, _, _, hn, rfl, hguard⟩
  | confirm _ hguard =>
      have hne := hguard.eventType
      simp [ht] at hne

/-- An accepted `PUBLISH_CONFIRMED` was bound to the pending operation and the frozen candidate. -/
theorem Step.publishConfirmed (h : Step s e s' effects) (ht : e.eventType = .publishConfirmed) :
    ∃ n effect operationId complete, Names s e n ∧
      ConfirmGuard s e n effect operationId complete := by
  cases h with
  | control hmove => exact absurd ht hmove.eventType_ne.2
  | advanceAuthority ht' | cancel ht' | consumeBudget ht' | admitted ht' => simp [ht] at ht'
  | move _ hmove => exact absurd ht hmove.eventType_ne.2
  | dispatch _ hmove => exact absurd ht hmove.eventType_ne.2
  | fail _ hmove => exact absurd ht hmove.eventType_ne.2
  | publish _ _ _ hguard =>
      have hne := hguard.eventType
      simp [ht] at hne
  | confirm hn hguard => exact ⟨_, _, _, _, hn, hguard⟩

end PublicationSteps

end CodingOS.Campaign
