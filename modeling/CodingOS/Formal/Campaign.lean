import CodingOS.Campaign.Vocabulary
import CodingOS.Systems.Actions
import Mathlib.Logic.Function.Basic

/-!
# The formal model

`formal/Campaign.tla`: the lifecycle abstraction of the reducer.  The state has the variables of the module; the
functions over `Nodes` are one function into a record.  Each action keeps its name and its conjuncts, and what it
leaves `UNCHANGED` is what its record update does not name.
-/

namespace CodingOS.Formal

open CodingOS.Campaign Systems

/-- The constants, with `ASSUME`.  `Nodes` is the type. -/
structure Constants (Node : Type) where
  dependencies : Node → Set Node
  topoRank : Node → ℕ
  initialBudget : ℕ
  maxRevision : ℕ
  campaignId : String
  specificationRevision : ℕ
  specificationDigest : String
  initialGraphDigest : String
  requiredPublicationEffects : ℕ
  initialBudget_pos : 0 < initialBudget
  maxRevision_pos : 0 < maxRevision
  requiredPublicationEffects_pos : 0 < requiredPublicationEffects

/-- The variables of one node. -/
structure NodeVars where
  nodeState : NodeState
  implementationUsed : Bool
  validationCorrectionUsed : Bool
  reviewUsed : Bool
  repairUsed : Bool
  closureUsed : Bool
  blockersFrozen : Bool
  publicationRemaining : ℕ

/-- `contract`. -/
structure Contract where
  contractCampaignId : String
  contractSpecRevision : ℕ
  contractSpecDigest : String
  graphDigest : String
  campaignGeneration : ℕ

/-- `vars`. -/
structure State (Node : Type) where
  campaign : CampaignState
  node : Node → NodeVars
  revision : ℕ
  authorityEpoch : ℕ
  cancellationEpoch : ℕ
  rankRemaining : ℕ
  budgetReceipts : ℕ
  contract : Contract

/-- `WaitingCampaignStates`. -/
def waitingCampaignStates : List CampaignState := [.waitingExternal, .waitingHuman]

/-- `TerminalCampaignStates`. -/
def terminalCampaigns : List CampaignState := [.completed, .failed, .cancelled]

/-- `TerminalNodeStates`. -/
def terminalNodes : List NodeState := [.done, .failedExactNode, .cancelled]

/-- `CoreReducerNodeTransitions`. -/
def coreReducerNodeTransitions : List (EventType × NodeState × NodeState) :=
  [(.admitNode, .pending, .admitted),
    (.startImplementation, .admitted, .implementing),
    (.implementationCompleted, .implementing, .validating),
    (.requestValidationCorrection, .validating, .implementing),
    (.validationPassed, .validating, .candidateFrozen),
    (.validationFailed, .validating, .failedExactNode),
    (.startReview, .candidateFrozen, .checksAndReview),
    (.freezeFindings, .checksAndReview, .findingsFrozen),
    (.markReadyToPublish, .findingsFrozen, .readyToPublish),
    (.authorizeRepair, .findingsFrozen, .repairAuthorized),
    (.startRepair, .repairAuthorized, .repairing),
    (.repairCompleted, .repairing, .revalidating),
    (.revalidationPassed, .revalidating, .closure),
    (.revalidationFailed, .revalidating, .failedExactNode),
    (.completeClosure, .closure, .readyToPublish),
    (.completeClosure, .closure, .failedExactNode),
    (.startPublish, .readyToPublish, .publishing),
    (.publishConfirmed, .publishing, .readyToPublish),
    (.publishConfirmed, .publishing, .done),
    (.publishFailed, .publishing, .failedExactNode)]

variable {Node : Type}

/-- `SpendBudget`. -/
def State.spendBudget (s : State Node) : State Node :=
  { s with rankRemaining := s.rankRemaining - 1, budgetReceipts := s.budgetReceipts + 1 }

/-- `revision' = revision + 1`. -/
def State.advance (s : State Node) : State Node := { s with revision := s.revision + 1 }

/-- `[f EXCEPT ![n] = v]`, of all the functions over `Nodes`. -/
def State.except [DecidableEq Node] (s : State Node) (n : Node) (v : NodeVars) : State Node :=
  { s with node := Function.update s.node n v }

def Running (s : State Node) : Prop := s.campaign = .running

section Actions

variable (s t : State Node)

/-! ### The campaign -/

def Approve : Prop := s.campaign = .draft ∧ t = { s.advance with campaign := .approved }

def Start : Prop := s.campaign = .approved ∧ t = { s.advance with campaign := .running }

def WaitExternal : Prop := Running s ∧ t = { s.advance with campaign := .waitingExternal }

def WaitHuman : Prop := Running s ∧ t = { s.advance with campaign := .waitingHuman }

def Resume : Prop := s.campaign ∈ waitingCampaignStates ∧ t = { s.advance with campaign := .running }

def AdvanceAuthority : Prop :=
  s.campaign = .waitingHuman ∧ t = { s.advance with authorityEpoch := s.authorityEpoch + 1 }

/-- The variables of a node after `Cancel`. -/
def NodeVars.cancelled (v : NodeVars) : NodeVars :=
  { v with nodeState := if v.nodeState ∈ terminalNodes then v.nodeState else .cancelled }

def Cancel : Prop :=
  s.campaign ∉ terminalCampaigns ∧ t = { s.advance with
    campaign := .cancelled
    cancellationEpoch := s.cancellationEpoch + 1
    node := fun n => (s.node n).cancelled }

/-! ### The nodes -/

variable [DecidableEq Node] (c : Constants Node) (n : Node)

def Constants.DependenciesDone (s : State Node) (n : Node) : Prop :=
  ∀ d ∈ c.dependencies n, (s.node d).nodeState = .done

def Admit : Prop :=
  Running s ∧ (s.node n).nodeState = .pending ∧ c.DependenciesDone s n ∧
    t = s.advance.except n { s.node n with nodeState := .admitted }

def Implement : Prop :=
  Running s ∧ (s.node n).nodeState = .admitted ∧ (s.node n).implementationUsed = false ∧ 0 < s.rankRemaining ∧
    t = s.advance.spendBudget.except n { s.node n with nodeState := .implementing, implementationUsed := true }

def ImplementationDone : Prop :=
  Running s ∧ (s.node n).nodeState = .implementing ∧
    t = s.advance.except n { s.node n with nodeState := .validating }

def ValidationCorrection : Prop :=
  Running s ∧ (s.node n).nodeState = .validating ∧ (s.node n).validationCorrectionUsed = false ∧
    t = s.advance.except n { s.node n with nodeState := .implementing, validationCorrectionUsed := true }

def ValidationPass : Prop :=
  Running s ∧ (s.node n).nodeState = .validating ∧
    t = s.advance.except n { s.node n with nodeState := .candidateFrozen }

def Review : Prop :=
  Running s ∧ (s.node n).nodeState = .candidateFrozen ∧ (s.node n).reviewUsed = false ∧ 0 < s.rankRemaining ∧
    t = s.advance.spendBudget.except n { s.node n with nodeState := .checksAndReview, reviewUsed := true }

def FreezeFindings (hasBlockers : Bool) : Prop :=
  Running s ∧ (s.node n).nodeState = .checksAndReview ∧
    t = s.advance.except n { s.node n with nodeState := .findingsFrozen, blockersFrozen := hasBlockers }

def MarkReady : Prop :=
  Running s ∧ (s.node n).nodeState = .findingsFrozen ∧ (s.node n).blockersFrozen = false ∧
    t = s.advance.except n { s.node n with nodeState := .readyToPublish }

def AuthorizeRepair : Prop :=
  Running s ∧ (s.node n).nodeState = .findingsFrozen ∧ (s.node n).blockersFrozen = true ∧
    (s.node n).repairUsed = false ∧ t = s.advance.except n { s.node n with nodeState := .repairAuthorized }

def Repair : Prop :=
  Running s ∧ (s.node n).nodeState = .repairAuthorized ∧ (s.node n).repairUsed = false ∧ 0 < s.rankRemaining ∧
    t = s.advance.spendBudget.except n { s.node n with nodeState := .repairing, repairUsed := true }

def RepairDone : Prop :=
  Running s ∧ (s.node n).nodeState = .repairing ∧
    t = s.advance.except n { s.node n with nodeState := .revalidating }

def RevalidationPass : Prop :=
  Running s ∧ (s.node n).nodeState = .revalidating ∧ (s.node n).closureUsed = false ∧ 0 < s.rankRemaining ∧
    t = s.advance.spendBudget.except n { s.node n with nodeState := .closure, closureUsed := true }

def ClosurePass : Prop :=
  Running s ∧ (s.node n).nodeState = .closure ∧
    t = s.advance.except n { s.node n with nodeState := .readyToPublish }

def ClosureFail : Prop :=
  Running s ∧ (s.node n).nodeState = .closure ∧
    t = { s.advance.except n { s.node n with nodeState := .failedExactNode } with campaign := .failed }

def StartPublish : Prop :=
  Running s ∧ (s.node n).nodeState = .readyToPublish ∧ 0 < (s.node n).publicationRemaining ∧
    0 < s.rankRemaining ∧ t = s.advance.spendBudget.except n { s.node n with nodeState := .publishing }

/-- The campaign after `PublishConfirmed(n)`. -/
def CompletedAfter : Prop :=
  (s.node n).publicationRemaining = 1 ∧ ∀ m, m ≠ n → (s.node m).nodeState = .done

open Classical in
def PublishConfirmed : Prop :=
  Running s ∧ (s.node n).nodeState = .publishing ∧ 0 < (s.node n).publicationRemaining ∧
    t = { s.advance.except n { s.node n with
        publicationRemaining := (s.node n).publicationRemaining - 1
        nodeState := if (s.node n).publicationRemaining = 1 then .done else .readyToPublish } with
      campaign := if CompletedAfter s n then .completed else .running }

def FailNode : Prop :=
  s.campaign ∉ terminalCampaigns ∧ (s.node n).nodeState ∉ terminalNodes ∧
    t = { s.advance.except n { s.node n with nodeState := .failedExactNode } with campaign := .failed }

end Actions

variable [DecidableEq Node]

inductive AutonomousNodeAction (c : Constants Node) (s t : State Node) : Prop
  | admitNode (n : Node) : Admit s t c n → AutonomousNodeAction c s t
  | implement (n : Node) : Implement s t n → AutonomousNodeAction c s t
  | implementationDone (n : Node) : ImplementationDone s t n → AutonomousNodeAction c s t
  | validationCorrection (n : Node) : ValidationCorrection s t n → AutonomousNodeAction c s t
  | validationPass (n : Node) : ValidationPass s t n → AutonomousNodeAction c s t
  | review (n : Node) : Review s t n → AutonomousNodeAction c s t
  | freezeFindings (n : Node) (hasBlockers : Bool) : FreezeFindings s t n hasBlockers → AutonomousNodeAction c s t
  | markReady (n : Node) : MarkReady s t n → AutonomousNodeAction c s t
  | authorizeRepair (n : Node) : AuthorizeRepair s t n → AutonomousNodeAction c s t
  | repair (n : Node) : Repair s t n → AutonomousNodeAction c s t
  | repairDone (n : Node) : RepairDone s t n → AutonomousNodeAction c s t
  | revalidationPass (n : Node) : RevalidationPass s t n → AutonomousNodeAction c s t
  | closurePass (n : Node) : ClosurePass s t n → AutonomousNodeAction c s t
  | closureFail (n : Node) : ClosureFail s t n → AutonomousNodeAction c s t
  | startPublish (n : Node) : StartPublish s t n → AutonomousNodeAction c s t
  | publishConfirmed (n : Node) : PublishConfirmed s t n → AutonomousNodeAction c s t

/-- The disjunction of `Next`. -/
inductive Action (c : Constants Node) (s t : State Node) : Prop
  | approve : Approve s t → Action c s t
  | start : Start s t → Action c s t
  | waitExternal : WaitExternal s t → Action c s t
  | waitHuman : WaitHuman s t → Action c s t
  | resume : Resume s t → Action c s t
  | advanceAuthority : AdvanceAuthority s t → Action c s t
  | autonomous : AutonomousNodeAction c s t → Action c s t
  | failNode (n : Node) : FailNode s t n → Action c s t
  | cancel : Cancel s t → Action c s t

def Next (c : Constants Node) (s t : State Node) : Prop := s.revision < c.maxRevision ∧ Action c s t

def Init (c : Constants Node) (s : State Node) : Prop :=
  s = {
    campaign := .draft
    node := fun _ => ⟨.pending, false, false, false, false, false, false, c.requiredPublicationEffects⟩
    revision := 0
    authorityEpoch := 0
    cancellationEpoch := 0
    rankRemaining := c.initialBudget
    budgetReceipts := 0
    contract := ⟨c.campaignId, c.specificationRevision, c.specificationDigest, c.initialGraphDigest, 1⟩ }

/-- `Spec`. -/
def campaignSpec (c : Constants Node) : ActionSystem (State Node) where
  init := Init c
  next := Next c

end CodingOS.Formal
