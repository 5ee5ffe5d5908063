import CodingOS.Formal.Campaign

/-!
# The laws of the formal model

The invariants and the properties of `formal/Campaign.cfg`, of every instance of the module: any nodes and
dependencies, any budget, any number of publication effects and any bound of the revision.  `NodeEdge` says once
what an action does to the variables of a node.
-/

namespace CodingOS.Formal

open CodingOS.Campaign Systems

variable {Node : Type} [DecidableEq Node] {c : Constants Node} {s t : State Node}

/-! ### What an action does -/

/-- What an action does to the variables of a node. -/
inductive NodeEdge (v : NodeVars) : NodeVars → Prop
  | same : NodeEdge v v
  | admitted : v.nodeState = .pending → NodeEdge v { v with nodeState := .admitted }
  | implement : v.nodeState = .admitted → v.implementationUsed = false →
      NodeEdge v { v with nodeState := .implementing, implementationUsed := true }
  | implementationDone : v.nodeState = .implementing → NodeEdge v { v with nodeState := .validating }
  | validationCorrection : v.nodeState = .validating → v.validationCorrectionUsed = false →
      NodeEdge v { v with nodeState := .implementing, validationCorrectionUsed := true }
  | validationPass : v.nodeState = .validating → NodeEdge v { v with nodeState := .candidateFrozen }
  | review : v.nodeState = .candidateFrozen → v.reviewUsed = false →
      NodeEdge v { v with nodeState := .checksAndReview, reviewUsed := true }
  | freezeFindings {hasBlockers : Bool} : v.nodeState = .checksAndReview →
      NodeEdge v { v with nodeState := .findingsFrozen, blockersFrozen := hasBlockers }
  | markReady : v.nodeState = .findingsFrozen → v.blockersFrozen = false →
      NodeEdge v { v with nodeState := .readyToPublish }
  | authorizeRepair : v.nodeState = .findingsFrozen → v.blockersFrozen = true → v.repairUsed = false →
      NodeEdge v { v with nodeState := .repairAuthorized }
  | repair : v.nodeState = .repairAuthorized → v.repairUsed = false →
      NodeEdge v { v with nodeState := .repairing, repairUsed := true }
  | repairDone : v.nodeState = .repairing → NodeEdge v { v with nodeState := .revalidating }
  | revalidationPass : v.nodeState = .revalidating → v.closureUsed = false →
      NodeEdge v { v with nodeState := .closure, closureUsed := true }
  | closurePass : v.nodeState = .closure → NodeEdge v { v with nodeState := .readyToPublish }
  | startPublish : v.nodeState = .readyToPublish → NodeEdge v { v with nodeState := .publishing }
  | publishConfirmed {target : NodeState} : v.nodeState = .publishing → target = .done ∨ target = .readyToPublish →
      NodeEdge v { v with publicationRemaining := v.publicationRemaining - 1, nodeState := target }
  | fail : v.nodeState ∉ terminalNodes → NodeEdge v { v with nodeState := .failedExactNode }
  | cancel : NodeEdge v v.cancelled

/-- `BudgetStep`. -/
def BudgetStep (s t : State Node) : Prop :=
  (t.rankRemaining = s.rankRemaining ∧ t.budgetReceipts = s.budgetReceipts) ∨
    (t.rankRemaining + 1 = s.rankRemaining ∧ t.budgetReceipts = s.budgetReceipts + 1)

/-- `CampaignTerminalShape`. -/
structure CampaignTerminalShape (s : State Node) : Prop where
  completed : s.campaign = .completed → ∀ n, (s.node n).nodeState = .done
  failed : s.campaign = .failed → ∃ n, (s.node n).nodeState = .failedExactNode
  cancelled : s.campaign = .cancelled → ∀ n, (s.node n).nodeState ∈ terminalNodes

omit [DecidableEq Node] in
theorem CampaignTerminalShape.of_live {campaign : CampaignState} (h : s.campaign = campaign)
    (hlive : campaign ∉ terminalCampaigns) : CampaignTerminalShape s := by
  refine ⟨fun hstate => ?_, fun hstate => ?_, fun hstate => ?_⟩ <;>
  · rw [← h, hstate] at hlive
    exact absurd (by decide) hlive

/-- What an action does. -/
structure Effect (s t : State Node) : Prop where
  revision : t.revision = s.revision + 1
  contract : t.contract = s.contract
  budget : BudgetStep s t
  node : ∀ m, NodeEdge (s.node m) (t.node m)
  waiting : s.campaign ∈ waitingCampaignStates → t.rankRemaining = s.rankRemaining
  shape : CampaignTerminalShape t

/-- An action of one node moves that node. -/
theorem edge_except {v : NodeVars} {n : Node} (h : NodeEdge (s.node n) v) (m : Node) :
    NodeEdge (s.node m) ((s.except n v).node m) := by
  show NodeEdge (s.node m) (Function.update s.node n v m)
  by_cases hm : m = n
  · subst hm
    rw [Function.update_self]
    exact h
  · rw [Function.update_of_ne hm]
    exact .same

/-- An action of one node that keeps the budget, and may end the campaign. -/
theorem Effect.close {v : NodeVars} {n : Node} {campaign : CampaignState} (h : NodeEdge (s.node n) v)
    (hshape : CampaignTerminalShape { s.advance.except n v with campaign }) :
    Effect s { s.advance.except n v with campaign } where
  revision := rfl
  contract := rfl
  budget := .inl ⟨rfl, rfl⟩
  node := edge_except h
  waiting _ := rfl
  shape := hshape

/-- An action of one node of a running campaign that keeps the budget. -/
theorem Effect.keep {v : NodeVars} {n : Node} (hrunning : Running s) (h : NodeEdge (s.node n) v) :
    Effect s (s.advance.except n v) := by
  have hclosed : Effect s { s.advance.except n v with campaign := s.campaign } :=
    .close h (.of_live (show _ = CampaignState.running from hrunning) (by decide))
  exact hclosed

/-- An action of one node that spends. -/
theorem Effect.spend {v : NodeVars} {n : Node} (hrunning : Running s) (hrank : 0 < s.rankRemaining)
    (h : NodeEdge (s.node n) v) : Effect s (s.advance.spendBudget.except n v) where
  revision := rfl
  contract := rfl
  budget := .inr ⟨Nat.sub_add_cancel hrank, rfl⟩
  node := edge_except h
  waiting hwaiting := by
    rw [hrunning] at hwaiting
    exact absurd hwaiting (by decide)
  shape := .of_live (show _ = CampaignState.running from hrunning) (by decide)

/-- An action that fails a node. -/
theorem Effect.fail {n : Node} (hlive : (s.node n).nodeState ∉ terminalNodes) :
    Effect s { s.advance.except n { s.node n with nodeState := .failedExactNode } with campaign := .failed } := by
  refine .close (.fail hlive) ⟨fun h => (by cases h), fun _ => ⟨n, ?_⟩, fun h => (by cases h)⟩
  show (Function.update s.node n _ n).nodeState = _
  rw [Function.update_self]

omit [DecidableEq Node] in
/-- An action of the campaign. -/
theorem Effect.control {campaign : CampaignState} (hlive : campaign ∉ terminalCampaigns) :
    Effect s { s.advance with campaign } :=
  ⟨rfl, rfl, .inl ⟨rfl, rfl⟩, fun _ => .same, fun _ => rfl, .of_live rfl hlive⟩

theorem AutonomousNodeAction.effect (h : AutonomousNodeAction c s t) : Effect s t := by
  cases h with
  | admitNode n h =>
      obtain ⟨hrunning, hstate, -, rfl⟩ := h
      exact .keep hrunning (.admitted hstate)
  | implement n h =>
      obtain ⟨hrunning, hstate, hused, hrank, rfl⟩ := h
      exact .spend hrunning hrank (.implement hstate hused)
  | implementationDone n h =>
      obtain ⟨hrunning, hstate, rfl⟩ := h
      exact .keep hrunning (.implementationDone hstate)
  | validationCorrection n h =>
      obtain ⟨hrunning, hstate, hused, rfl⟩ := h
      exact .keep hrunning (.validationCorrection hstate hused)
  | validationPass n h =>
      obtain ⟨hrunning, hstate, rfl⟩ := h
      exact .keep hrunning (.validationPass hstate)
  | review n h =>
      obtain ⟨hrunning, hstate, hused, hrank, rfl⟩ := h
      exact .spend hrunning hrank (.review hstate hused)
  | freezeFindings n hasBlockers h =>
      obtain ⟨hrunning, hstate, rfl⟩ := h
      exact .keep hrunning (.freezeFindings hstate)
  | markReady n h =>
      obtain ⟨hrunning, hstate, hblockers, rfl⟩ := h
      exact .keep hrunning (.markReady hstate hblockers)
  | authorizeRepair n h =>
      obtain ⟨hrunning, hstate, hblockers, hused, rfl⟩ := h
      exact .keep hrunning (.authorizeRepair hstate hblockers hused)
  | repair n h =>
      obtain ⟨hrunning, hstate, hused, hrank, rfl⟩ := h
      exact .spend hrunning hrank (.repair hstate hused)
  | repairDone n h =>
      obtain ⟨hrunning, hstate, rfl⟩ := h
      exact .keep hrunning (.repairDone hstate)
  | revalidationPass n h =>
      obtain ⟨hrunning, hstate, hused, hrank, rfl⟩ := h
      exact .spend hrunning hrank (.revalidationPass hstate hused)
  | closurePass n h =>
      obtain ⟨hrunning, hstate, rfl⟩ := h
      exact .keep hrunning (.closurePass hstate)
  | closureFail n h =>
      obtain ⟨-, hstate, rfl⟩ := h
      exact .fail (by rw [hstate]; decide)
  | startPublish n h =>
      obtain ⟨hrunning, hstate, -, hrank, rfl⟩ := h
      exact .spend hrunning hrank (.startPublish hstate)
  | publishConfirmed n h =>
      obtain ⟨-, hstate, -, rfl⟩ := h
      have hedge : NodeEdge (s.node n) { s.node n with
          publicationRemaining := (s.node n).publicationRemaining - 1
          nodeState := if (s.node n).publicationRemaining = 1 then .done else .readyToPublish } := by
        refine .publishConfirmed hstate ?_
        split
        · exact .inl rfl
        · exact .inr rfl
      refine .close hedge ?_
      by_cases hcompleted : CompletedAfter s n
      · rw [if_pos hcompleted]
        refine ⟨fun _ m => ?_, fun h => (by cases h), fun h => (by cases h)⟩
        show (Function.update s.node n _ m).nodeState = _
        by_cases hm : m = n
        · rw [hm, Function.update_self]
          exact if_pos hcompleted.1
        · rw [Function.update_of_ne hm]
          exact hcompleted.2 m hm
      · rw [if_neg hcompleted]
        exact .of_live (show _ = CampaignState.running from rfl) (by decide)

/-- **The inversion of `Next`.** -/
theorem Action.effect (h : Action c s t) : Effect s t := by
  cases h with
  | approve h | start h | waitExternal h | waitHuman h | resume h =>
      obtain ⟨-, rfl⟩ := h
      exact .control (by decide)
  | advanceAuthority h =>
      obtain ⟨hstate, rfl⟩ := h
      exact ⟨rfl, rfl, .inl ⟨rfl, rfl⟩, fun _ => .same, fun _ => rfl, .of_live hstate (by decide)⟩
  | autonomous h => exact h.effect
  | failNode n h =>
      obtain ⟨-, hlive, rfl⟩ := h
      exact .fail hlive
  | cancel h =>
      obtain ⟨-, rfl⟩ := h
      refine ⟨rfl, rfl, .inl ⟨rfl, rfl⟩, fun _ => .cancel, fun _ => rfl, fun h => (by cases h), fun h => (by cases h),
        fun _ n => ?_⟩
      show (s.node n).cancelled.nodeState ∈ _
      rw [NodeVars.cancelled]
      split
      · assumption
      · exact List.mem_cons_of_mem _ (List.mem_cons_of_mem _ List.mem_cons_self)

/-- A node moves only while the campaign runs. -/
theorem AutonomousNodeAction.running (h : AutonomousNodeAction c s t) : Running s := by
  cases h with
  | admitNode n h | implement n h | implementationDone n h | validationCorrection n h | validationPass n h
  | review n h | freezeFindings n hasBlockers h | markReady n h | authorizeRepair n h | repair n h
  | repairDone n h | revalidationPass n h | closurePass n h | closureFail n h | startPublish n h
  | publishConfirmed n h => exact h.1

/-- No action leaves a campaign that has ended. -/
theorem Action.live (h : Action c s t) : s.campaign ∉ terminalCampaigns := by
  cases h with
  | approve h | start h | advanceAuthority h =>
      rw [h.1]
      decide
  | waitExternal h | waitHuman h =>
      rw [show s.campaign = .running from h.1]
      decide
  | resume h =>
      have hwaiting := h.1
      intro hterminal
      revert hwaiting hterminal
      cases s.campaign <;> decide
  | autonomous h =>
      rw [show s.campaign = .running from h.running]
      decide
  | failNode n h => exact h.1
  | cancel h => exact h.1

/-! ### The invariants -/

/-- `TypeInvariant`, where the types leave something to say. -/
structure TypeInvariant (c : Constants Node) (s : State Node) : Prop where
  revision : s.revision ≤ c.maxRevision
  rankRemaining : s.rankRemaining ≤ c.initialBudget
  budgetReceipts : s.budgetReceipts ≤ c.initialBudget
  publicationRemaining : ∀ n, (s.node n).publicationRemaining ≤ c.requiredPublicationEffects

/-- `ContractImmutable`, with `GraphImmutable` and `NoSuccessorGeneration`. -/
def ContractImmutable (c : Constants Node) (s : State Node) : Prop :=
  s.contract = ⟨c.campaignId, c.specificationRevision, c.specificationDigest, c.initialGraphDigest, 1⟩

/-- The node states behind a review. -/
def reviewedStates : List NodeState :=
  [.checksAndReview, .findingsFrozen, .repairAuthorized, .repairing, .revalidating, .closure, .readyToPublish,
    .publishing, .done]

/-- `LifecycleLimits`, of one node. -/
structure LifecycleLimits (v : NodeVars) : Prop where
  repair : v.repairUsed = true → v.reviewUsed = true
  closure : v.closureUsed = true → v.repairUsed = true
  reviewed : v.nodeState ∈ reviewedStates → v.reviewUsed = true
  repaired : v.nodeState ∈ [NodeState.repairing, .revalidating, .closure] → v.repairUsed = true
  closed : v.nodeState = .closure → v.closureUsed = true

/-- `INVARIANTS`; the one about the constants alone is `GraphIsFiniteDAG`. -/
structure Invariants (c : Constants Node) (s : State Node) : Prop where
  types : TypeInvariant c s
  contract : ContractImmutable c s
  budget : s.rankRemaining + s.budgetReceipts = c.initialBudget
  limits : ∀ n, LifecycleLimits (s.node n)
  shape : CampaignTerminalShape s
  terminal : s.campaign ∈ terminalCampaigns → ¬ Enabled (Next c) s
  waiting : s.campaign ∈ waitingCampaignStates → ¬ Enabled (AutonomousNodeAction c) s

/-- What the actions keep, of the invariants. -/
structure InductiveInvariant (c : Constants Node) (s : State Node) : Prop where
  revision : s.revision ≤ c.maxRevision
  remaining : ∀ n, (s.node n).publicationRemaining ≤ c.requiredPublicationEffects
  contract : ContractImmutable c s
  budget : s.rankRemaining + s.budgetReceipts = c.initialBudget
  limits : ∀ n, LifecycleLimits (s.node n)
  shape : CampaignTerminalShape s

/-- `UsageStep`, of one node. -/
structure UsageStep (v v' : NodeVars) : Prop where
  implementation : v.implementationUsed = true → v'.implementationUsed = true
  correction : v.validationCorrectionUsed = true → v'.validationCorrectionUsed = true
  review : v.reviewUsed = true → v'.reviewUsed = true
  repair : v.repairUsed = true → v'.repairUsed = true
  closure : v.closureUsed = true → v'.closureUsed = true

/-- `PROPERTIES`. -/
structure Properties (s t : State Node) : Prop where
  rank : t.rankRemaining ≤ s.rankRemaining
  revision : t.revision = s.revision + 1
  budget : BudgetStep s t
  usage : ∀ n, UsageStep (s.node n) (t.node n)
  contract : t.contract = s.contract
  waiting : s.campaign ∈ waitingCampaignStates → t.rankRemaining = s.rankRemaining

theorem NodeEdge.limits {v v' : NodeVars} (h : NodeEdge v v') (hv : LifecycleLimits v) : LifecycleLimits v' := by
  obtain ⟨hrepair, hclosure, hreviewed, hrepaired, hclosed⟩ := hv
  cases h with
  | same => exact ⟨hrepair, hclosure, hreviewed, hrepaired, hclosed⟩
  | admitted hstate | implement hstate | implementationDone hstate | validationCorrection hstate
  | validationPass hstate | fail hstate =>
      exact ⟨hrepair, hclosure, by simp [reviewedStates], by simp, by simp⟩
  | review hstate hused => exact ⟨fun _ => rfl, hclosure, fun _ => rfl, by simp, by simp⟩
  | freezeFindings hstate | markReady hstate | authorizeRepair hstate | startPublish hstate =>
      exact ⟨hrepair, hclosure, fun _ => hreviewed (by rw [hstate]; decide), by simp, by simp⟩
  | repair hstate hused =>
      exact ⟨fun _ => hreviewed (by rw [hstate]; decide), fun _ => rfl, fun _ => hreviewed (by rw [hstate]; decide),
        fun _ => rfl, by simp⟩
  | repairDone hstate =>
      exact ⟨hrepair, hclosure, fun _ => hreviewed (by rw [hstate]; decide),
        fun _ => hrepaired (by rw [hstate]; decide), by simp⟩
  | revalidationPass hstate =>
      exact ⟨hrepair, fun _ => hrepaired (by rw [hstate]; decide), fun _ => hreviewed (by rw [hstate]; decide),
        fun _ => hrepaired (by rw [hstate]; decide), fun _ => rfl⟩
  | closurePass hstate =>
      exact ⟨hrepair, hclosure, fun _ => hreviewed (by rw [hstate]; decide), by simp, by simp⟩
  | publishConfirmed hstate htarget =>
      refine ⟨hrepair, hclosure, fun _ => hreviewed (by rw [hstate]; decide), ?_, ?_⟩ <;>
      · rcases htarget with rfl | rfl <;> simp
  | cancel =>
      have hcancelled : v.cancelled.nodeState = v.nodeState ∨ v.cancelled.nodeState = .cancelled := by
        rw [NodeVars.cancelled]
        split
        · exact .inl rfl
        · exact .inr rfl
      refine ⟨hrepair, hclosure, fun h => ?_, fun h => ?_, fun h => ?_⟩ <;> rcases hcancelled with hsame | hnew
      · exact hreviewed (hsame ▸ h)
      · exact absurd (hnew ▸ h) (by decide)
      · exact hrepaired (hsame ▸ h)
      · exact absurd (hnew ▸ h) (by decide)
      · exact hclosed (hsame ▸ h)
      · exact absurd (hnew ▸ h) (by decide)

theorem NodeEdge.usage {v v' : NodeVars} (h : NodeEdge v v') : UsageStep v v' := by
  cases h <;> exact ⟨by simp_all [NodeVars.cancelled], by simp_all [NodeVars.cancelled],
    by simp_all [NodeVars.cancelled], by simp_all [NodeVars.cancelled], by simp_all [NodeVars.cancelled]⟩

theorem NodeEdge.remaining_le {v v' : NodeVars} (h : NodeEdge v v') :
    v'.publicationRemaining ≤ v.publicationRemaining := by
  cases h with
  | publishConfirmed => exact Nat.sub_le _ _
  | _ => exact le_rfl

omit [DecidableEq Node] in
theorem InductiveInvariant.types (h : InductiveInvariant c s) : TypeInvariant c s := by
  have hbudget := h.budget
  exact ⟨h.revision, by omega, by omega, h.remaining⟩

/-- **Step lemma.** -/
theorem InductiveInvariant.step (h : InductiveInvariant c s) (hnext : Next c s t) : InductiveInvariant c t := by
  obtain ⟨hbound, haction⟩ := hnext
  have heffect := haction.effect
  refine ⟨?_, fun n => (heffect.node n).remaining_le.trans (h.remaining n), heffect.contract.trans h.contract, ?_,
    fun n => (heffect.node n).limits (h.limits n), heffect.shape⟩
  · rw [heffect.revision]
    omega
  · have hbudget := h.budget
    rcases heffect.budget with ⟨hrank, hreceipts⟩ | ⟨hrank, hreceipts⟩ <;> omega

namespace Sample

/-- One node without dependencies, under the constants of `formal/Campaign.cfg`. -/
def constants : Constants Unit where
  dependencies _ := ∅
  topoRank _ := 0
  initialBudget := 6
  maxRevision := 20
  campaignId := "campaign-1"
  specificationRevision := 1
  specificationDigest := "specification-digest-1"
  initialGraphDigest := "graph-digest-1"
  requiredPublicationEffects := 1
  initialBudget_pos := Nat.succ_pos _
  maxRevision_pos := Nat.succ_pos _
  requiredPublicationEffects_pos := Nat.succ_pos _

/-- The campaign in a state, at a revision. -/
def campaignAt (campaign : CampaignState) (revision : ℕ) : State Unit where
  campaign
  node _ := ⟨.pending, false, false, false, false, false, false, 1⟩
  revision
  authorityEpoch := 0
  cancellationEpoch := 0
  rankRemaining := 6
  budgetReceipts := 0
  contract := ⟨"campaign-1", 1, "specification-digest-1", "graph-digest-1", 1⟩

theorem waiting_reached : (campaignSpec constants).Reached (campaignAt .waitingExternal 3) := by
  have hdraft : (campaignSpec constants).Reached (campaignAt .draft 0) := .init rfl
  have happroved : (campaignSpec constants).Reached (campaignAt .approved 1) := hdraft.next ⟨by decide, .approve ⟨rfl, rfl⟩⟩
  have hrunning : (campaignSpec constants).Reached (campaignAt .running 2) := happroved.next ⟨by decide, .start ⟨rfl, rfl⟩⟩
  exact hrunning.next ⟨by decide, .waitExternal ⟨rfl, rfl⟩⟩

end Sample

end CodingOS.Formal
