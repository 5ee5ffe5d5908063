import CodingOS.Campaign.Run

/-!
# Waiting campaigns

The formal model of the repository lets no node move and no budget be spent while a campaign waits.
In the reducer that law rests on each branch checking that the campaign is running, and the branches
listed in `unguardedEvents` check the state of the node only.  `waiting_yields_iff` shows that these
are exactly the events that break the law.
-/

namespace CodingOS.Campaign

open CodingOS.Python Systems

/-- The events allowed to move a waiting campaign: they resume it, authorise a step, or end it. -/
def wakingEvents : List EventType :=
  [.resume, .authorizeRepair, .authorizePublication, .failNode, .cancel]

/-- The events whose branch does not look at the state of the campaign. -/
def unguardedEvents : List EventType :=
  [.implementationCompleted, .validationPassed, .validationFailed, .startReview, .freezeFindings,
    .markReadyToPublish, .startRepair, .repairCompleted, .revalidationPassed, .revalidationFailed,
    .completeClosure, .startPublish, .publishConfirmed, .publishFailed]

section Model

variable [Runtime]

/-- Node states, rank, consumed tokens and receipts are the same. -/
structure SameProgress (s s' : CampaignSnapshot) : Prop where
  states : s'.nodes.map (fun n => (n.nodeId, n.state)) = s.nodes.map fun n => (n.nodeId, n.state)
  rank : s'.autonomousRankRemaining = s.autonomousRankRemaining
  budgets : s'.budgets = s.budgets
  receipts : s'.budgetReceipts = s.budgetReceipts

variable {s s' : CampaignSnapshot} {e : Event} {effects : List ExternalEffectIntent}

/-- A node that changes its state is progress. -/
theorem not_sameProgress {n n' : NodeSnapshot} (hn : Names s e n)
    (hnodes : s'.nodes = (s.replaceNode n').nodes) (hid : n'.nodeId = n.nodeId)
    (hstate : n'.state ≠ n.state) : ¬ SameProgress s s' := by
  intro h
  have hstates := h.states
  rw [hnodes, CampaignSnapshot.replaceNode, CampaignSnapshot.mapNodes_nodes, List.map_map,
    List.map_inj_left] at hstates
  have hpair := hstates n hn.mem
  rw [Function.comp_apply, if_pos hid.symm, Prod.mk.injEq] at hpair
  exact hstate hpair.2

/-- Rewriting nodes without touching their states is no progress. -/
theorem sameStates_of_map {f : NodeSnapshot → NodeSnapshot} (hnodes : s'.nodes = s.nodes.map f)
    (hid : ∀ n, (f n).nodeId = n.nodeId) (hstate : ∀ n ∈ s.nodes, (f n).state = n.state) :
    s'.nodes.map (fun n => (n.nodeId, n.state)) = s.nodes.map fun n => (n.nodeId, n.state) := by
  rw [hnodes, List.map_map, List.map_inj_left]
  intro n hn
  rw [Function.comp_apply, hid n, hstate n hn]

/-- An unguarded event that moved its node: both sides of the law are false. -/
theorem unguarded_iff {n n' : NodeSnapshot} (hn : Names s e n)
    (hnodes : s'.nodes = (s.replaceNode n').nodes) (hid : n'.nodeId = n.nodeId)
    (hstate : n'.state ≠ n.state) (ht : e.eventType ∈ unguardedEvents) :
    SameProgress s s' ↔ e.eventType ∉ unguardedEvents :=
  iff_of_false (not_sameProgress hn hnodes hid hstate) (not_not_intro ht)

theorem NodeMove.waiting {n n' : NodeSnapshot} (hn : Names s e n) (hmove : NodeMove s e n n')
    (hwaiting : s.state ∈ waitingStates) (hwaking : e.eventType ∉ wakingEvents) :
    SameProgress s (s.replaceNode n') ↔ e.eventType ∉ unguardedEvents := by
  cases hmove with
  | acquireLease _ hrunning | requestCorrection _ _ hrunning =>
      exact absurd hwaiting (by rw [hrunning]; decide)
  | releaseLease ht =>
      refine iff_of_true ⟨sameStates_of_map rfl (fun m => ?_) (fun m hm => ?_), rfl, rfl, rfl⟩
        (by rw [ht]; decide)
      · by_cases hid : m.nodeId = n.nodeId
        · rw [if_pos hid, hid]
        · rw [if_neg hid]
      · by_cases hid : m.nodeId = n.nodeId
        · rw [if_pos hid, CampaignSnapshot.node_unique hn.mem hm hid]
        · rw [if_neg hid]
  | implementationCompleted ht _ hstate | repairCompleted ht _ hstate
  | validationPassed ht _ hstate | freezeFindings ht hstate | markReady ht hstate
  | closureCompleted ht hstate =>
      exact unguarded_iff hn rfl rfl (by simp [hstate]) (by rw [ht]; decide)
  | authorizeRepair ht | authorizePublication ht => exact absurd hwaking (by rw [ht]; decide)

theorem DispatchMove.waiting {role : String} {n n' : NodeSnapshot} {s₁ : CampaignSnapshot}
    (hn : Names s e n) (hmove : DispatchMove s e n role n') (hnodes : s₁.nodes = s.nodes)
    (hwaiting : s.state ∈ waitingStates) :
    SameProgress s (s₁.replaceNode n') ↔ e.eventType ∉ unguardedEvents := by
  have hreplace := replaceNode_nodes_congr (n := n') hnodes
  cases hmove with
  | startImplementation _ hrunning => exact absurd hwaiting (by rw [hrunning]; decide)
  | startReview ht hstate | startRepair ht _ hstate | revalidationPassed ht _ hstate =>
      exact unguarded_iff hn hreplace rfl (by simp [hstate]) (by rw [ht]; decide)

theorem FailMove.waiting {n closed : NodeSnapshot} {reason : String} (hn : Names s e n)
    (hmove : FailMove s e n closed) (hwaking : e.eventType ∉ wakingEvents) :
    SameProgress s (failExactNode s closed reason) ↔ e.eventType ∉ unguardedEvents := by
  cases hmove with
  | validationFailed ht _ hstate | revalidationFailed ht _ hstate | closureFailed ht hstate
  | publishFailed ht hstate =>
      exact unguarded_iff hn rfl rfl (by simp [NodeSnapshot.failed, hstate]) (by rw [ht]; decide)
  | failNode ht => exact absurd hwaking (by rw [ht]; decide)

/-- **Step lemma.**  A step of a waiting campaign keeps the law exactly when its event is guarded. -/
theorem Step.waiting (h : Step s e s' effects) (hwaiting : s.state ∈ waitingStates)
    (hwaking : e.eventType ∉ wakingEvents) :
    SameProgress s s' ↔ e.eventType ∉ unguardedEvents := by
  cases h with
  | control hmove =>
      cases hmove with
      | approve _ hstate | start _ hstate | waitExternal _ hstate | waitHuman _ hstate =>
          exact absurd hwaiting (by rw [hstate]; decide)
      | resume ht => exact absurd hwaking (by rw [ht]; decide)
  | advanceAuthority ht =>
      exact iff_of_true ⟨sameStates_of_map rfl (fun _ => rfl) (fun _ _ => rfl), rfl, rfl, rfl⟩
        (by rw [ht]; decide)
  | cancel ht => exact absurd hwaking (by rw [ht]; decide)
  | consumeBudget _ hrunning | admitted _ hrunning =>
      exact absurd hwaiting (by rw [hrunning]; decide)
  | move hn hmove => exact hmove.waiting hn hwaiting hwaking
  | dispatch hn hmove hdispatch => exact hmove.waiting hn (dispatchEffect_nodes hdispatch) hwaiting
  | fail hn hmove => exact hmove.waiting hn hwaking
  | publish hn _ hspend hguard =>
      exact unguarded_iff hn
        (replaceNode_nodes_congr (consumeAutomated_maySpend hspend).nodes_eq) rfl
        (by simp [NodeSnapshot.publishing, hguard.ready]) (by rw [hguard.eventType]; decide)
  | @confirm n effect operationId complete hn hguard =>
      refine unguarded_iff hn rfl rfl ?_ (by rw [hguard.eventType]; decide)
      rw [hguard.publishing]
      cases complete <;> simp [NodeSnapshot.confirmed]

/-- **Waiting campaigns.**  From every waiting snapshot a run reaches, an accepted event that neither
wakes nor ends the campaign leaves node states, rank, tokens and receipts alone if and only if its
branch checks the state of the campaign. -/
theorem waiting_yields_iff {spec : CampaignSpec} {history : List (Entry CampaignSnapshot Applied)}
    (_hrun : CampaignRun spec history s) (hwaiting : s.state ∈ waitingStates)
    (h : reduce s e = .ok (s', effects)) (hwaking : e.eventType ∉ wakingEvents) :
    SameProgress s s' ↔ e.eventType ∉ unguardedEvents := by
  obtain ⟨s₁, hstep, rfl⟩ := (reduce_accepted h).step
  have hlaw := hstep.waiting hwaiting hwaking
  exact ⟨fun hsame => hlaw.mp ⟨hsame.states, hsame.rank, hsame.budgets, hsame.receipts⟩,
    fun hguarded => by
      have hsame := hlaw.mpr hguarded
      exact ⟨hsame.states, hsame.rank, hsame.budgets, hsame.receipts⟩⟩

end Model

namespace Sample

/-- The sample campaign waiting with a frozen candidate. -/
def waitingRun : List (Entry CampaignSnapshot Applied) × CampaignSnapshot :=
  (foldEvents start (candidateEvents ++ [waitEvent])).toOption.get
    (by decide +kernel)

theorem campaignRun_waiting : CampaignRun spec waitingRun.1 waitingRun.2 :=
  ⟨start, initial_start, foldEvents_run (get_toOption _)⟩

def released : Transition := (reduce waitingRun.2 releaseEvent).toOption.get (by decide +kernel)

theorem release_accepted : reduce waitingRun.2 releaseEvent = .ok (released.1, released.2) := by
  rw [Prod.mk.eta]
  exact get_toOption _

def reviewed : Transition := (reduce waitingRun.2 reviewEvent).toOption.get (by decide +kernel)

theorem review_accepted : reduce waitingRun.2 reviewEvent = .ok (reviewed.1, reviewed.2) := by
  rw [Prod.mk.eta]
  exact get_toOption _

end Sample

open Sample in
/-- The guarded event: a waiting campaign releases a lease and nothing else moves. -/
theorem waiting_yields_iff_sample : SameProgress waitingRun.2 released.1 :=
  (waiting_yields_iff campaignRun_waiting (by decide +kernel) release_accepted (by decide)).mpr
    (by decide)

open Sample in
/-- The unguarded event: a waiting campaign starts its review and spends a unit of its rank. -/
theorem waiting_campaign_reviews :
    CampaignRun spec waitingRun.1 waitingRun.2 ∧ waitingRun.2.state = .waitingExternal ∧
      reduce waitingRun.2 reviewEvent = .ok (reviewed.1, reviewed.2) ∧
      reviewEvent.eventType ∉ wakingEvents ∧ ¬ SameProgress waitingRun.2 reviewed.1 := by
  refine ⟨campaignRun_waiting, by decide +kernel, review_accepted, by decide, ?_⟩
  intro h
  have hrank : reviewed.1.autonomousRankRemaining ≠ waitingRun.2.autonomousRankRemaining := by
    decide +kernel
  exact hrank h.rank

end CodingOS.Campaign
