import CodingOS.Campaign.Waiting
import CodingOS.Formal.Abstraction

/-!
# The reducer refines the formal model

Every step of the reducer is an action of `formal/Campaign.tla` or none, seen through `abstraction`, unless it
moves a node of a campaign that goes on waiting: the branches that do not look at the state of the campaign take
such steps, and the module, whose actions of a node ask for `Running`, has none.
-/

namespace CodingOS.Formal

open CodingOS.Python CodingOS.Campaign CodingOS.Supervisor Systems

section Refinement

variable [Runtime] {spec : CampaignSpec} {graphDigest : CampaignSpec → String} {maxRevision : ℕ}
  {hmax : 0 < maxRevision} {history : List (Entry CampaignSnapshot Applied)} {s s' : CampaignSnapshot} {e : Event}
  {effects : List ExternalEffectIntent} {n n' : NodeSnapshot}

/-! ### The mapping of a step -/

/-- The name of a node. -/
def nameOf (hspec : s.spec = spec) (hn : n ∈ s.nodes) : SpecNode spec :=
  ⟨n.nodeId, by
    rw [← hspec, ← s.node_ids]
    exact List.mem_map_of_mem hn⟩

theorem name_mem (hspec : s.spec = spec) (name : SpecNode spec) : name.1 ∈ s.nodes.map (·.nodeId) := by
  rw [s.node_ids, hspec]
  exact name.2

theorem abstraction_node (hspec : s.spec = spec) (hn : n ∈ s.nodes) :
    (abstraction spec graphDigest history s).node (nameOf hspec hn) = nodeVars spec n := by
  show nodeVars spec (nodeOf s n.nodeId) = _
  rw [nodeOf_eq hn]

/-- What an event that moves no epoch leaves. -/
structure SameControl (s s' : CampaignSnapshot) : Prop where
  spec : s'.spec = s.spec
  authority : s'.authorityEpoch = s.authorityEpoch
  cancellation : s'.cancellationEpoch = s.cancellationEpoch

theorem maySpend_sameControl {s₁ : CampaignSnapshot} (h : MaySpend s e s₁) : SameControl s s₁ := by
  rcases h with rfl | ⟨_, hspend⟩
  · exact ⟨rfl, rfl, rfl⟩
  · rw [hspend.result]
    exact ⟨rfl, rfl, rfl⟩

theorem actions_snoc {t : Entry CampaignSnapshot Applied} :
    actions (history ++ [t]) = actions history +
      if hiddenEvents.contains t.label.event.eventType then 0 else 1 := by
  rw [actions, List.countP_append, List.countP_singleton]
  cases hiddenEvents.contains t.label.event.eventType <;> rfl

theorem actions_le (history : List (Entry CampaignSnapshot Applied)) : actions history ≤ history.length :=
  List.countP_le_length

/-- An event without a formal action. -/
theorem abstraction_hidden (ht : e.eventType ∈ hiddenEvents) (hspec : s.spec = spec) (hsame : SameControl s s')
    (hstate : s'.state = s.state) (hspent : spent s' = spent s)
    (hnodes : ∀ name ∈ s.nodes.map (·.nodeId), nodeVars spec (nodeOf s' name) = nodeVars spec (nodeOf s name)) :
    abstraction spec graphDigest (history ++ [⟨s, ⟨e, effects⟩, s'⟩]) s' = abstraction spec graphDigest history s := by
  have hrevision : actions (history ++ [⟨s, ⟨e, effects⟩, s'⟩]) = actions history := by
    rw [actions_snoc, if_pos (by simpa using ht), Nat.add_zero]
  have hvars : (fun name : SpecNode spec => nodeVars spec (nodeOf s' name.1))
      = fun name => nodeVars spec (nodeOf s name.1) := funext fun name => hnodes _ (name_mem hspec name)
  simp only [abstraction, hrevision, hvars, hsame.spec, hsame.authority, hsame.cancellation, hstate, hspent]

theorem actions_visible (ht : e.eventType ∉ hiddenEvents) :
    actions (history ++ [⟨s, ⟨e, effects⟩, s'⟩]) = actions history + 1 := by
  rw [actions_snoc, if_neg (by simpa using ht)]

/-- The nodes after a replacement. -/
theorem vars_replace (hspec : s.spec = spec) (hn : n ∈ s.nodes) (hid : n'.nodeId = n.nodeId)
    (hnodes : s'.nodes = (s.replaceNode n').nodes) :
    (fun name : SpecNode spec => nodeVars spec (nodeOf s' name.1))
      = Function.update (fun name => nodeVars spec (nodeOf s name.1)) (nameOf hspec hn) (nodeVars spec n') := by
  funext name
  rw [nodeOf_replace hid hnodes (name_mem hspec name)]
  by_cases hname : name.1 = n.nodeId
  · have hself : name = nameOf hspec hn := Subtype.ext hname
    rw [if_pos hname, hself, Function.update_self]
  · have hother : name ≠ nameOf hspec hn := fun heq => hname (congrArg Subtype.val heq)
    rw [if_neg hname, Function.update_of_ne hother]

/-- A node is replaced, and nothing is spent. -/
theorem abstraction_keep (ht : e.eventType ∉ hiddenEvents) (hspec : s.spec = spec) (hn : n ∈ s.nodes)
    (hid : n'.nodeId = n.nodeId) (hnodes : s'.nodes = (s.replaceNode n').nodes) (hsame : SameControl s s')
    (hspent : spentOn n' = spentOn n) :
    abstraction spec graphDigest (history ++ [⟨s, ⟨e, effects⟩, s'⟩]) s' =
      { (abstraction spec graphDigest history s).advance.except (nameOf hspec hn) (nodeVars spec n') with
        campaign := s'.state } := by
  simp only [abstraction, State.advance, State.except, actions_visible ht, vars_replace hspec hn hid hnodes,
    hsame.spec, hsame.authority, hsame.cancellation, spent_same hn hid hnodes hspent]

/-- A node is replaced, and one unit is spent. -/
theorem abstraction_spend (ht : e.eventType ∉ hiddenEvents) (hspec : s.spec = spec) (hn : n ∈ s.nodes)
    (hid : n'.nodeId = n.nodeId) (hnodes : s'.nodes = (s.replaceNode n').nodes) (hsame : SameControl s s')
    (hspent : spentOn n' = spentOn n + 1) :
    abstraction spec graphDigest (history ++ [⟨s, ⟨e, effects⟩, s'⟩]) s' =
      { (abstraction spec graphDigest history s).advance.spendBudget.except (nameOf hspec hn) (nodeVars spec n') with
        campaign := s'.state } := by
  simp only [abstraction, State.advance, State.except, State.spendBudget, actions_visible ht,
    vars_replace hspec hn hid hnodes, hsame.spec, hsame.authority, hsame.cancellation,
    spent_one hn hid hnodes hspent, Nat.sub_sub]

/-! ### The campaign of a step -/

/-- A node whose work has begun belongs to a started campaign. -/
theorem working_started (h : CampaignRun spec history s) (hlive : s.state ∉ terminalCampaignStates)
    (hn : n ∈ s.nodes) (hpending : n.state ≠ .pending) (hdone : n.state ≠ .done) :
    s.state ∉ [CampaignState.draft, .approved] := by
  intro hstate
  have hidle : s.state ∈ [CampaignState.draft, .approved] → s.activeNodeId = none := by
    obtain ⟨s₀, hinit, hrun⟩ := h
    refine hrun.invariant (fun s => s.state ∈ [CampaignState.draft, .approved] → s.activeNodeId = none)
      (fun _ => (initial_eq_ok hinit).2.2.2.2.2.2.2.2.1) fun hs hstep => ?_
    exact unstarted_step (reduce_accepted hstep) hs
  have hactive := (h.shaped.1 hlive).active_of_work hn hpending hdone
  rw [hidle hstate] at hactive
  cases hactive

theorem step_authority_le (h : Step s e s' effects) : s.authorityEpoch ≤ s'.authorityEpoch := by
  cases h with
  | control | cancel | admitted | move | fail | confirm => exact le_rfl
  | advanceAuthority => exact Nat.le_succ _
  | consumeBudget _ _ hspend => rw [hspend.result]
  | dispatch _ _ hdispatch =>
      obtain ⟨_, -, hspend, -⟩ := dispatchEffect_eq_ok hdispatch
      exact (maySpend_sameControl (consumeAutomated_maySpend hspend)).authority.ge
  | publish _ _ hspend => exact (maySpend_sameControl (consumeAutomated_maySpend hspend)).authority.ge

/-- The authority epoch starts at the one of the specification and only grows. -/
theorem authority_le (h : CampaignRun spec history s) : spec.authorityEpoch ≤ s.authorityEpoch := by
  obtain ⟨s₀, hinit, hrun⟩ := h
  refine hrun.invariant (fun s => spec.authorityEpoch ≤ s.authorityEpoch) ?_ fun hs hstep => ?_
  · simp only [CampaignSnapshot.initial, bind_eq_ok, pure_eq_ok] at hinit
    obtain ⟨_, -, rfl⟩ := hinit
    exact le_rfl
  · obtain ⟨s₁, hmoved, rfl⟩ := (reduce_accepted hstep).step
    have hle := step_authority_le hmoved
    exact le_trans hs hle

/-- An entry moves a node. -/
def MovesNode (t : Entry CampaignSnapshot Applied) : Prop :=
  ∃ n ∈ t.before.nodes, ∃ n' ∈ t.after.nodes, n'.nodeId = n.nodeId ∧ n'.state ≠ n.state

/-- An entry that moves a node of a waiting campaign ends the campaign. -/
def Yields (t : Entry CampaignSnapshot Applied) : Prop :=
  t.before.state ∈ waitingCampaignStates → MovesNode t → t.after.state ∈ [CampaignState.failed, .cancelled]

/-- The campaign of a node that moves is running. -/
theorem Yields.running (hyields : Yields ⟨s, ⟨e, effects⟩, s'⟩) (h : CampaignRun spec history s)
    (hlive : s.state ∉ terminalCampaignStates) (hn : n ∈ s.nodes) (hpending : n.state ≠ .pending)
    (hdone : n.state ≠ .done) (hn' : n' ∈ s'.nodes) (hid : n'.nodeId = n.nodeId) (hmoved : n'.state ≠ n.state)
    (hafter : s'.state ∉ [CampaignState.failed, .cancelled]) : s.state = .running := by
  have hstarted := working_started h hlive hn hpending hdone
  have hwaiting : s.state ∉ waitingCampaignStates :=
    fun hwaiting => hafter (hyields hwaiting ⟨n, hn, n', hn', hid, hmoved⟩)
  revert hstarted hlive hwaiting
  cases s.state <;> decide

/-! ### The actions of a node -/

section NodeActions

variable {c : Constants (SpecNode spec)} {A : State (SpecNode spec)} {name : SpecNode spec}

theorem nodeState_of_node {state : NodeState} (hnode : A.node name = nodeVars spec n) (hstate : n.state = state) :
    (A.node name).nodeState = state := by
  rw [hnode]
  exact hstate

theorem move_action (hnode : A.node name = nodeVars spec n) (hrunning : Running A) (ht : e.eventType ∉ hiddenEvents)
    (h : NodeMove s e n n') : AutonomousNodeAction c A (A.advance.except name (nodeVars spec n')) := by
  cases h with
  | acquireLease hevent | releaseLease hevent | authorizePublication hevent =>
      rw [hevent] at ht
      exact absurd ht (by decide)
  | implementationCompleted _ _ hstate =>
      exact .implementationDone name ⟨hrunning, nodeState_of_node hnode hstate, by rw [hnode]; rfl⟩
  | requestCorrection _ _ _ hstate hunused =>
      refine .validationCorrection name ⟨hrunning, nodeState_of_node hnode hstate, ?_, by rw [hnode]; rfl⟩
      rw [hnode]
      exact bne_eq_false_iff_eq.mpr hunused
  | validationPassed _ _ hstate =>
      exact .validationPass name ⟨hrunning, nodeState_of_node hnode hstate, by rw [hnode]; rfl⟩
  | @freezeFindings _ findings _ hstate =>
      exact .freezeFindings name (findings.any (·.blocking))
        ⟨hrunning, nodeState_of_node hnode hstate, by rw [hnode]; rfl⟩
  | markReady _ hstate hclean =>
      refine .markReady name ⟨hrunning, nodeState_of_node hnode hstate, ?_, by rw [hnode]; rfl⟩
      rw [hnode]
      exact hclean
  | authorizeRepair _ hstate hblocked hunused =>
      refine .authorizeRepair name ⟨hrunning, nodeState_of_node hnode hstate, ?_, ?_, by rw [hnode]; rfl⟩
      · rw [hnode]
        exact hblocked
      · rw [hnode]
        exact bne_eq_false_iff_eq.mpr hunused
  | repairCompleted _ _ hstate =>
      exact .repairDone name ⟨hrunning, nodeState_of_node hnode hstate, by rw [hnode]; rfl⟩
  | closureCompleted _ hstate =>
      exact .closurePass name ⟨hrunning, nodeState_of_node hnode hstate, by rw [hnode]; rfl⟩

theorem admit_action {startHead : String} (hnode : A.node name = nodeVars spec n) (hrunning : Running A)
    (hpending : n.state = .pending) (hdone : c.DependenciesDone A name) :
    AutonomousNodeAction c A
      (A.advance.except name (nodeVars spec { n with state := .admitted, startHead := some startHead })) :=
  .admitNode name ⟨hrunning, nodeState_of_node hnode hpending, hdone, by rw [hnode]; rfl⟩

theorem dispatch_action {role : String} (hnode : A.node name = nodeVars spec n) (hrunning : Running A)
    (hrank : 0 < A.rankRemaining) (h : DispatchMove s e n role n') :
    AutonomousNodeAction c A (A.advance.spendBudget.except name (nodeVars spec n')) := by
  cases h with
  | startImplementation _ _ _ hstate _ hunused =>
      refine .implement name ⟨hrunning, nodeState_of_node hnode hstate, ?_, hrank, by rw [hnode]; rfl⟩
      rw [hnode]
      exact bne_eq_false_iff_eq.mpr hunused
  | startReview _ hstate hunused =>
      refine .review name ⟨hrunning, nodeState_of_node hnode hstate, ?_, hrank, by rw [hnode]; rfl⟩
      rw [hnode]
      exact bne_eq_false_iff_eq.mpr hunused
  | startRepair _ _ hstate hunused =>
      refine .repair name ⟨hrunning, nodeState_of_node hnode hstate, ?_, hrank, by rw [hnode]; rfl⟩
      rw [hnode]
      exact bne_eq_false_iff_eq.mpr hunused
  | revalidationPassed _ _ hstate hunused =>
      refine .revalidationPass name ⟨hrunning, nodeState_of_node hnode hstate, ?_, hrank, by rw [hnode]; rfl⟩
      rw [hnode]
      exact bne_eq_false_iff_eq.mpr hunused

/-- Whatever fails a node is `FailNode`. -/
theorem fail_action {closed : NodeSnapshot} {reason : String} (hnode : A.node name = nodeVars spec n)
    (hlive : A.campaign ∉ terminalCampaigns) (h : FailMove s e n closed) :
    FailNode A { A.advance.except name (nodeVars spec (closed.failed reason)) with campaign := .failed } name := by
  have hworking : (A.node name).nodeState ∉ terminalNodes := by
    rw [hnode]
    show n.state ∉ terminalNodes
    cases h with
    | validationFailed _ _ hstate | revalidationFailed _ _ hstate | closureFailed _ hstate
    | publishFailed _ hstate =>
        rw [hstate]
        decide
    | failNode _ hstate => exact hstate
  refine ⟨hlive, hworking, ?_⟩
  rw [hnode]
  cases h <;> rfl

theorem dependencies_done (hdone : ∀ d, DependsOn spec name.1 d → IsDone s d) :
    (constants spec graphDigest maxRevision hmax).DependenciesDone (abstraction spec graphDigest history s) name := by
  intro d hd
  obtain ⟨m, hm, hid, hstate⟩ := hdone d.1 hd
  show (nodeOf s d.1).state = .done
  rw [← hid, nodeOf_eq hm]
  exact hstate

end NodeActions

/-! ### The publications -/

theorem publish_action {c : Constants (SpecNode spec)} {A : State (SpecNode spec)} {name : SpecNode spec}
    {kind : EffectKind} {operationId : String} {intent : ExternalEffectIntent} (hspec : s.spec = spec)
    (hnode : A.node name = nodeVars spec n) (hrunning : Running A) (hrank : 0 < A.rankRemaining)
    (hguard : PublishGuard s e n kind operationId intent) :
    AutonomousNodeAction c A (A.advance.spendBudget.except name (nodeVars spec (n.publishing kind operationId))) := by
  refine .startPublish name ⟨hrunning, nodeState_of_node hnode hguard.ready, ?_, hrank, by rw [hnode]; rfl⟩
  obtain ⟨allowed, required, expected, hsequences, hnext, -⟩ := hguard.next
  obtain ⟨hlt, -⟩ := List.getElem?_eq_some_iff.mp hnext
  rw [effectSequences_eq_ok hsequences, hspec] at hlt
  rw [hnode]
  exact Nat.sub_pos_of_lt hlt

/-- A confirmation completes the sequence when one effect remains. -/
theorem confirm_remaining {history' : List (Entry CampaignSnapshot Applied)} {effect operationId : String}
    {complete : Bool} (h : PublicationInv spec history n)
    (h' : PublicationInv spec history' (n.confirmed effect operationId complete))
    (hpending : n.pendingPublicationEffect = some effect) :
    0 < requiredEffects spec - n.completedPublicationEffects.length ∧
      (complete = true ↔ requiredEffects spec - n.completedPublicationEffects.length = 1) := by
  have hsequence := h.sequence
  rw [hpending, Option.toList_some] at hsequence
  have hlength := hsequence.length_le
  rw [List.length_map, List.length_append, List.length_singleton] at hlength
  have hdone : complete = true ↔ (n.completedPublicationEffects ++ [effect]).map Value.str =
      requiredSequence spec.publicationAuthority := by
    refine Iff.trans ?_ h'.done
    cases complete <;> simp [NodeSnapshot.confirmed]
  refine ⟨Nat.sub_pos_of_lt hlength, hdone.trans ⟨fun heq => ?_, fun hone => hsequence.eq_of_length ?_⟩⟩
  · rw [requiredEffects, ← heq, List.length_map, List.length_append, List.length_singleton, Nat.add_sub_cancel_left]
  · rw [requiredEffects] at hone
    rw [List.length_map, List.length_append, List.length_singleton]
    omega

theorem all_done_iff (hspec : s.spec = spec) :
    s.nodes.all (·.state == .done) = true ↔ ∀ name : SpecNode spec, (nodeOf s name.1).state = .done := by
  rw [List.all_eq_true]
  constructor
  · intro hall name
    exact beq_iff_eq.mp (hall _ (nodeOf_mem (name_mem hspec name)).1)
  · intro hall n hn
    have hdone := hall (nameOf hspec hn)
    have hself : nodeOf s (nameOf hspec hn).1 = n := nodeOf_eq hn
    rw [hself] at hdone
    exact beq_iff_eq.mpr hdone

/-- The campaign is complete when the confirmed node was the last one. -/
theorem completed_after_iff {effect operationId : String} {complete : Bool} (hspec : s.spec = spec) (hn : n ∈ s.nodes)
    (hcompletes : complete = true ↔ requiredEffects spec - n.completedPublicationEffects.length = 1) :
    CompletedAfter (abstraction spec graphDigest history s) (nameOf hspec hn) ↔
      (complete && (s.replaceNode (n.confirmed effect operationId complete)).nodes.all (·.state == .done)) = true := by
  have hnodes := @all_done_iff _ spec (s.replaceNode (n.confirmed effect operationId complete)) hspec
  have hfound (name : SpecNode spec) :
      nodeOf (s.replaceNode (n.confirmed effect operationId complete)) name.1 =
        if name.1 = n.nodeId then n.confirmed effect operationId complete else nodeOf s name.1 :=
    nodeOf_replace rfl rfl (name_mem hspec name)
  rw [CompletedAfter, abstraction_node hspec hn, Bool.and_eq_true, hcompletes, hnodes]
  refine and_congr_right fun hone => ⟨fun hothers name => ?_, fun hall name hne => ?_⟩
  · rw [hfound]
    split
    · exact if_pos (hcompletes.mpr hone)
    · next hname => exact hothers name fun heq => hname (congrArg Subtype.val heq)
  · have hname : name.1 ≠ n.nodeId := fun heq => hne (Subtype.ext heq)
    have hdone := hall name
    rwa [hfound, if_neg hname] at hdone

theorem confirm_action {c : Constants (SpecNode spec)} {history' : List (Entry CampaignSnapshot Applied)}
    {effect operationId : String} {complete : Bool} (hspec : s.spec = spec) (hn : n ∈ s.nodes)
    (hrunning : s.state = .running) (h : PublicationInv spec history n)
    (h' : PublicationInv spec history' (n.confirmed effect operationId complete))
    (hguard : ConfirmGuard s e n effect operationId complete) :
    AutonomousNodeAction c (abstraction spec graphDigest history s)
      { (abstraction spec graphDigest history s).advance.except (nameOf hspec hn)
          (nodeVars spec (n.confirmed effect operationId complete)) with
        campaign := (s.recordPublication (n.confirmed effect operationId complete) complete).state } := by
  classical
  obtain ⟨hremains, hcompletes⟩ := confirm_remaining h h' hguard.pendingEffect
  have hnode : (abstraction spec graphDigest history s).node (nameOf hspec hn) = nodeVars spec n :=
    abstraction_node hspec hn
  refine .publishConfirmed (nameOf hspec hn)
    ⟨hrunning, nodeState_of_node hnode hguard.publishing, by rw [hnode]; exact hremains, ?_⟩
  have hstate : (n.confirmed effect operationId complete).state =
      if (nodeVars spec n).publicationRemaining = 1 then .done else .readyToPublish :=
    if_congr hcompletes rfl rfl
  have hremaining : requiredEffects spec - (n.completedPublicationEffects ++ [effect]).length =
      (nodeVars spec n).publicationRemaining - 1 := by
    rw [List.length_append, List.length_singleton, ← Nat.sub_sub]
    rfl
  have hvars : nodeVars spec (n.confirmed effect operationId complete) = { nodeVars spec n with
      publicationRemaining := (nodeVars spec n).publicationRemaining - 1
      nodeState := if (nodeVars spec n).publicationRemaining = 1 then .done else .readyToPublish } := by
    rw [← hstate, ← hremaining]
    rfl
  have hcampaign : (s.recordPublication (n.confirmed effect operationId complete) complete).state =
      if CompletedAfter (abstraction spec graphDigest history s) (nameOf hspec hn) then CampaignState.completed
      else .running := by
    rw [← hrunning]
    exact if_congr (completed_after_iff hspec hn hcompletes).symm rfl rfl
  rw [hnode, hvars, hcampaign]

/-! ### The steps -/

theorem ControlMove.visible {state : CampaignState} (h : ControlMove s e state) : e.eventType ∉ hiddenEvents := by
  cases h with
  | approve ht | start ht | waitExternal ht | waitHuman ht | resume ht =>
      rw [ht]
      decide

/-- A step of a hidden event changes nothing. -/
theorem hidden_step (hspec : s.spec = spec) (ht : e.eventType ∈ hiddenEvents) (h : Step s e s' effects) :
    abstraction spec graphDigest (history ++ [⟨s, ⟨e, effects⟩, { s' with revision := s.revision + 1 }⟩])
      { s' with revision := s.revision + 1 } = abstraction spec graphDigest history s := by
  have hother {eventType : EventType} (hevent : e.eventType = eventType) (hne : eventType ∉ hiddenEvents) : False :=
    hne (hevent ▸ ht)
  cases h with
  | control hmove => exact absurd ht (ControlMove.visible hmove)
  | advanceAuthority hevent | cancel hevent | admitted hevent => exact (hother hevent (by decide)).elim
  | consumeBudget _ hrunning hspend =>
      obtain ⟨hsame, hauthority, hcancellation⟩ := maySpend_sameControl (.inr ⟨_, hspend⟩)
      refine abstraction_hidden ht hspec ⟨hsame, hauthority, hcancellation⟩ ?_ ?_ fun name _ => ?_
      · show s'.state = s.state
        rw [hspend.result]
      · show (s'.nodes.map spentOn).sum = _
        rw [hspend.nodes_eq]
        rfl
      · show nodeVars spec ((s'.nodes.find? _).getD _) = _
        rw [hspend.nodes_eq]
        rfl
  | @move n n' hn hmove =>
      have hvars : nodeVars spec n' = nodeVars spec n := by
        cases hmove with
        | acquireLease | releaseLease | authorizePublication => rfl
        | implementationCompleted hevent | requestCorrection hevent | validationPassed hevent | freezeFindings hevent
        | markReady hevent | authorizeRepair hevent | repairCompleted hevent | closureCompleted hevent =>
            exact (hother hevent (by decide)).elim
      refine abstraction_hidden ht hspec ⟨rfl, rfl, rfl⟩ rfl
        (spent_same hn.mem hmove.nodeId_eq rfl (moveSpentOn hmove)) fun name hname => ?_
      show nodeVars spec (nodeOf (s.replaceNode n') name) = _
      rw [nodeOf_replace hmove.nodeId_eq rfl hname]
      split
      · next heq => rw [hvars, heq, nodeOf_eq hn.mem]
      · rfl
  | dispatch _ hmove =>
      cases hmove with
      | startImplementation hevent | startReview hevent | startRepair hevent | revalidationPassed hevent =>
          exact (hother hevent (by decide)).elim
  | fail _ hmove =>
      cases hmove with
      | validationFailed hevent | revalidationFailed hevent | closureFailed hevent | publishFailed hevent
      | failNode hevent => exact (hother hevent (by decide)).elim
  | publish _ _ _ hguard => exact (hother hguard.eventType (by decide)).elim
  | confirm _ hguard => exact (hother hguard.eventType (by decide)).elim

/-- The variables of the nodes, when every node is rewritten in place. -/
theorem vars_map {f : NodeSnapshot → NodeSnapshot} {g : NodeVars → NodeVars} (hids : ∀ n, (f n).nodeId = n.nodeId)
    (hvars : ∀ n, nodeVars spec (f n) = g (nodeVars spec n)) (hspec : s.spec = spec)
    (hnodes : s'.nodes = s.nodes.map f) :
    (fun name : SpecNode spec => nodeVars spec (nodeOf s' name.1)) =
      fun name => g (nodeVars spec (nodeOf s name.1)) := by
  funext name
  rw [nodeOf_map hids hnodes (name_mem hspec name), hvars]

theorem advanceAuthority_action (ht : e.eventType ∉ hiddenEvents) (hspec : s.spec = spec)
    (hauthority : spec.authorityEpoch ≤ s.authorityEpoch) (hstate : s.state = .waitingHuman)
    (hnodes : s'.nodes = s.nodes.map fun n => { n with leaseActorId := none }) (hsame : s'.spec = s.spec)
    (hcontrol : s'.state = s.state) (hepoch : s'.authorityEpoch = s.authorityEpoch + 1)
    (hcancellation : s'.cancellationEpoch = s.cancellationEpoch) :
    AdvanceAuthority (abstraction spec graphDigest history s)
      (abstraction spec graphDigest (history ++ [⟨s, ⟨e, effects⟩, s'⟩]) s') := by
  have hvars := vars_map (f := fun n => { n with leaseActorId := none }) (g := id) (fun _ => rfl) (fun _ => rfl) hspec
    hnodes
  have hadvanced : s.authorityEpoch + 1 - spec.authorityEpoch = s.authorityEpoch - spec.authorityEpoch + 1 :=
    Nat.sub_add_comm hauthority
  refine ⟨hstate, ?_⟩
  simp only [abstraction, State.advance, actions_visible ht, hvars, hsame, hcontrol, hepoch, hcancellation, hadvanced,
    spent_map hnodes fun _ => rfl, id]

theorem cancelNode_vars (n : NodeSnapshot) : nodeVars spec (cancelNode n) = (nodeVars spec n).cancelled := by
  have hterminal : terminalNodeStates.contains n.state = true ↔ n.state ∈ terminalNodes := List.contains_iff_mem
  unfold cancelNode NodeVars.cancelled
  split
  · next hended =>
      have hmem : (nodeVars spec n).nodeState ∈ terminalNodes := hterminal.mp hended
      rw [if_pos hmem]
  · next hworking =>
      have hnone : (nodeVars spec n).nodeState ∉ terminalNodes := fun hmem => hworking (hterminal.mpr hmem)
      rw [if_neg hnone]
      rfl

theorem cancel_action (ht : e.eventType ∉ hiddenEvents) (hspec : s.spec = spec)
    (hcancelled : s.cancellationEpoch = spec.cancellationEpoch) (hlive : s.state ∉ terminalCampaignStates)
    (hnodes : s'.nodes = s.nodes.map cancelNode) (hsame : s'.spec = s.spec) (hcontrol : s'.state = .cancelled)
    (hauthority : s'.authorityEpoch = s.authorityEpoch) (hepoch : s'.cancellationEpoch = s.cancellationEpoch + 1) :
    Cancel (abstraction spec graphDigest history s)
      (abstraction spec graphDigest (history ++ [⟨s, ⟨e, effects⟩, s'⟩]) s') := by
  have hvars := vars_map cancelNode_nodeId cancelNode_vars hspec hnodes
  have hcounted : s.cancellationEpoch + 1 - spec.cancellationEpoch = s.cancellationEpoch - spec.cancellationEpoch + 1 :=
    Nat.sub_add_comm hcancelled.ge
  refine ⟨hlive, ?_⟩
  simp only [abstraction, State.advance, actions_visible ht, hvars, hsame, hcontrol, hauthority, hepoch, hcounted,
    spent_map hnodes cancelNode_spentOn]

/-- A node whose work has begun, and what it becomes. -/
structure Works (n n' : NodeSnapshot) : Prop where
  pending : n.state ≠ .pending
  done : n.state ≠ .done
  moved : n'.state ≠ n.state

theorem move_works (ht : e.eventType ∉ hiddenEvents) (h : NodeMove s e n n') : Works n n' := by
  cases h with
  | acquireLease hevent | releaseLease hevent | authorizePublication hevent =>
      rw [hevent] at ht
      exact absurd ht (by decide)
  | implementationCompleted _ _ hstate | requestCorrection _ _ _ hstate | validationPassed _ _ hstate
  | freezeFindings _ hstate | markReady _ hstate | authorizeRepair _ hstate | repairCompleted _ _ hstate
  | closureCompleted _ hstate => constructor <;> simp [hstate]

theorem dispatch_works {role : String} (h : DispatchMove s e n role n') : Works n n' := by
  cases h with
  | startImplementation _ _ _ hstate | startReview _ hstate | startRepair _ _ hstate
  | revalidationPassed _ _ hstate => constructor <;> simp [hstate]

theorem publish_works {kind : EffectKind} {operationId : String} {intent : ExternalEffectIntent}
    (hguard : PublishGuard s e n kind operationId intent) : Works n (n.publishing kind operationId) := by
  have hready := hguard.ready
  constructor <;> simp [NodeSnapshot.publishing, hready]

theorem confirm_works {effect operationId : String} {complete : Bool}
    (hguard : ConfirmGuard s e n effect operationId complete) : Works n (n.confirmed effect operationId complete) := by
  have hpublishing := hguard.publishing
  cases complete <;> constructor <;> simp [NodeSnapshot.confirmed, hpublishing]

theorem rank_pos (h : CampaignRun spec (history ++ [⟨s, ⟨e, effects⟩, s'⟩]) s') (hspent : spent s' = spent s + 1) :
    0 < initialBudget spec - spent s := by
  have hle := spent_le h
  rw [hspent] at hle
  exact Nat.sub_pos_of_lt hle

omit [Runtime] in
theorem action_of_eq {Node : Type} [DecidableEq Node] {c : Constants Node} {A B B' : State Node} (heq : B = B')
    (h : Action c A B') : Action c A B := by
  rw [heq]
  exact h

/-- A step of a visible event is an action. -/
theorem visible_step (h : CampaignRun spec history s) (hreduce : reduce s e = .ok (s', effects))
    (ht : e.eventType ∉ hiddenEvents) (hyields : Yields ⟨s, ⟨e, effects⟩, s'⟩) :
    Action (constants spec graphDigest maxRevision hmax) (abstraction spec graphDigest history s)
      (abstraction spec graphDigest (history ++ [⟨s, ⟨e, effects⟩, s'⟩]) s') := by
  have hspec := h.spec_eq
  have haccepted := reduce_accepted hreduce
  have hlive := haccepted.live
  have hafter : CampaignRun spec (history ++ [⟨s, ⟨e, effects⟩, s'⟩]) s' := by
    obtain ⟨s₀, hinit, hrun⟩ := h
    exact ⟨s₀, hinit, hrun.snoc hreduce⟩
  have hquiet : s.state ∉ [CampaignState.failed, .cancelled] := by
    revert hlive
    cases s.state <;> decide
  have hmem {n n' : NodeSnapshot} {u : CampaignSnapshot} (hn : n ∈ s.nodes) (hid : n'.nodeId = n.nodeId)
      (hu : u.nodes = s.nodes) : n' ∈ (u.replaceNode n').nodes := by
    exact List.mem_map.mpr ⟨n, hu ▸ hn, if_pos hid.symm⟩
  have running {n n' : NodeSnapshot} (hworks : Works n n') (hn : n ∈ s.nodes) (hn' : n' ∈ s'.nodes)
      (hid : n'.nodeId = n.nodeId) (hstate : s'.state ∉ [CampaignState.failed, .cancelled]) : s.state = .running :=
    hyields.running h hlive hn hworks.pending hworks.done hn' hid hworks.moved hstate
  obtain ⟨s₁, hstep, rfl⟩ := haccepted.step
  cases hstep with
  | control hmove =>
      cases hmove with
      | approve _ hstate =>
          exact .approve ⟨hstate, by simp only [abstraction, State.advance, actions_visible ht]; rfl⟩
      | start _ hstate =>
          exact .start ⟨hstate, by simp only [abstraction, State.advance, actions_visible ht]; rfl⟩
      | waitExternal _ hstate =>
          exact .waitExternal ⟨hstate, by simp only [abstraction, State.advance, actions_visible ht]; rfl⟩
      | waitHuman _ hstate =>
          exact .waitHuman ⟨hstate, by simp only [abstraction, State.advance, actions_visible ht]; rfl⟩
      | resume _ hstate =>
          refine .resume ⟨?_, by simp only [abstraction, State.advance, actions_visible ht]; rfl⟩
          rcases hstate with hstate | hstate <;> (show s.state ∈ _; rw [hstate]; decide)
  | advanceAuthority _ hstate =>
      exact .advanceAuthority (advanceAuthority_action ht hspec (authority_le h) hstate rfl rfl rfl rfl rfl)
  | cancel =>
      have hepoch := (h.shaped.1 hlive).epoch
      rw [hspec] at hepoch
      exact .cancel (cancel_action ht hspec hepoch hlive rfl rfl rfl rfl rfl)
  | consumeBudget hevent => exact absurd (hevent ▸ ht) (by decide)
  | @admitted n _ startHead hevent hrunning hn hpending =>
      have hid : ({ n with state := .admitted, startHead := some startHead } : NodeSnapshot).nodeId = n.nodeId := rfl
      exact action_of_eq (abstraction_keep ht hspec hn.mem hid rfl ⟨rfl, rfl, rfl⟩ rfl)
        (.autonomous (admit_action (abstraction_node hspec hn.mem) hrunning hpending
          (dependencies_done fun d hd => (haccepted.admission hevent hn.nodeId).2 d (hspec ▸ hd))))
  | @move n n' hn hmove =>
      have hid := hmove.nodeId_eq
      have hrunning := running (move_works ht hmove) hn.mem (hmem hn.mem hid rfl) hid hquiet
      exact action_of_eq (abstraction_keep ht hspec hn.mem hid rfl ⟨rfl, rfl, rfl⟩ (moveSpentOn hmove))
        (.autonomous (move_action (abstraction_node hspec hn.mem) hrunning ht hmove))
  | @dispatch role n n' s₁ _ hn hmove hdispatch =>
      obtain ⟨_, -, hspend, -⟩ := dispatchEffect_eq_ok hdispatch
      obtain ⟨hstate, -⟩ := (consumeAutomated_maySpend hspend).control_eq
      obtain ⟨hsame, hauthority, hcancellation⟩ := maySpend_sameControl (consumeAutomated_maySpend hspend)
      have hid := hmove.nodeId_eq
      have hnodes := dispatchEffect_nodes hdispatch
      have hreplaced : (s₁.replaceNode n').nodes = (s.replaceNode n').nodes := replaceNode_nodes_congr hnodes
      have hrunning := running (dispatch_works hmove) hn.mem (hmem hn.mem hid hnodes) hid (hstate ▸ hquiet)
      have hrank := rank_pos hafter (spent_one hn.mem hid hreplaced (dispatchSpentOn hmove))
      refine action_of_eq (abstraction_spend ht hspec hn.mem hid hreplaced ⟨hsame, hauthority, hcancellation⟩
        (dispatchSpentOn hmove)) ?_
      show Action _ _ { State.except _ _ _ with campaign := s₁.state }
      rw [hstate]
      exact .autonomous (dispatch_action (abstraction_node hspec hn.mem) hrunning hrank hmove)
  | @fail n closed reason hn hmove =>
      have hid : (closed.failed reason).nodeId = n.nodeId := hmove.nodeId_eq
      exact action_of_eq (abstraction_keep ht hspec hn.mem hid rfl ⟨rfl, rfl, rfl⟩ (failSpentOn hmove))
        (.failNode (nameOf hspec hn.mem) (fail_action (abstraction_node hspec hn.mem) hlive hmove))
  | @publish n kind token operationId s₁ intent hn _ hspend hguard =>
      obtain ⟨hstate, -⟩ := (consumeAutomated_maySpend hspend).control_eq
      obtain ⟨hsame, hauthority, hcancellation⟩ := maySpend_sameControl (consumeAutomated_maySpend hspend)
      have hid : (n.publishing kind operationId).nodeId = n.nodeId := rfl
      have hnodes := (consumeAutomated_maySpend hspend).nodes_eq
      have hreplaced : (s₁.replaceNode (n.publishing kind operationId)).nodes =
          (s.replaceNode (n.publishing kind operationId)).nodes := replaceNode_nodes_congr hnodes
      have hworks : Works n (n.publishing kind operationId) := publish_works hguard
      have hrunning := running hworks hn.mem (hmem hn.mem hid hnodes) hid (hstate ▸ hquiet)
      have hrank := rank_pos hafter (spent_one hn.mem hid hreplaced (publishSpentOn hguard.idle))
      refine action_of_eq (abstraction_spend ht hspec hn.mem hid hreplaced ⟨hsame, hauthority, hcancellation⟩
        (publishSpentOn hguard.idle)) ?_
      show Action _ _ { State.except _ _ _ with campaign := s₁.state }
      rw [hstate]
      exact .autonomous (publish_action hspec (abstraction_node hspec hn.mem) hrunning hrank hguard)
  | @confirm n effect operationId complete hn hguard =>
      have hid : (n.confirmed effect operationId complete).nodeId = n.nodeId := rfl
      have hmem' := hmem hn.mem hid rfl
      have hinv := (publicationInv_run h).2 n hn.mem
      have hquiet' : (s.recordPublication (n.confirmed effect operationId complete) complete).state ∉
          [CampaignState.failed, .cancelled] := by
        show (if _ then CampaignState.completed else s.state) ∉ _
        split
        · decide
        · exact hquiet
      have hrunning := running (confirm_works hguard) hn.mem hmem' hid hquiet'
      exact action_of_eq (abstraction_keep ht hspec hn.mem hid rfl ⟨rfl, rfl, rfl⟩
          (confirmSpentOn (pending_run h _ hn.mem hguard.publishing)))
        (.autonomous (confirm_action hspec hn.mem hrunning hinv ((publicationInv_run hafter).2 _ hmem') hguard))

/-- The other direction: no action moves a node of a waiting campaign and lets it go on. -/
theorem yields_of_square {t : Entry CampaignSnapshot Applied} (hspec : t.before.spec = spec)
    (h : (campaignSpec (constants spec graphDigest maxRevision hmax)).Square
      (abstraction spec graphDigest history t.before) (abstraction spec graphDigest (history ++ [t]) t.after)) :
    Yields t := by
  rintro hwaiting ⟨n, hn, n', hn', hid, hmoved⟩
  have hother {state : CampaignState} (hstate : t.before.state = state) (hne : state ∉ waitingCampaignStates) :
      t.after.state ∈ [CampaignState.failed, .cancelled] := absurd (hstate ▸ hwaiting) hne
  have hsame (hnode : (abstraction spec graphDigest (history ++ [t]) t.after).node =
      (abstraction spec graphDigest history t.before).node) :
      t.after.state ∈ [CampaignState.failed, .cancelled] := by
    have hvars := congrArg NodeVars.nodeState (congrFun hnode (nameOf hspec hn))
    have hbefore : nodeOf t.before (nameOf hspec hn).1 = n := nodeOf_eq hn
    have hafter : nodeOf t.after (nameOf hspec hn).1 = n' := by
      rw [← nodeOf_eq hn', hid]
      rfl
    have hstate : (nodeOf t.after (nameOf hspec hn).1).state = (nodeOf t.before (nameOf hspec hn).1).state := hvars
    rw [hbefore, hafter] at hstate
    exact absurd hstate hmoved
  rcases h with ⟨-, haction⟩ | hstutter
  · cases haction with
    | approve h | start h | waitExternal h | waitHuman h => exact hother h.1 (by decide)
    | resume h | advanceAuthority h => exact hsame ((congrArg State.node h.2).trans rfl)
    | autonomous h => exact hother h.running (by decide)
    | failNode _ h =>
        have hfailed : t.after.state = .failed := congrArg State.campaign h.2.2
        rw [hfailed]
        decide
    | cancel h =>
        have hcancelled : t.after.state = .cancelled := congrArg State.campaign h.2
        rw [hcancelled]
        decide
  · exact hsame (congrArg State.node hstutter)

/-! ### Runs -/

/-- **One step.** -/
theorem square_iff (h : CampaignRun spec history s) (hreduce : reduce s e = .ok (s', effects))
    (hlength : history.length < maxRevision) :
    (campaignSpec (constants spec graphDigest maxRevision hmax)).Square (abstraction spec graphDigest history s)
      (abstraction spec graphDigest (history ++ [⟨s, ⟨e, effects⟩, s'⟩]) s') ↔ Yields ⟨s, ⟨e, effects⟩, s'⟩ := by
  have hyields := @yields_of_square _ spec graphDigest maxRevision hmax history ⟨s, ⟨e, effects⟩, s'⟩ h.spec_eq
  refine ⟨hyields, fun hyields => ?_⟩
  by_cases ht : e.eventType ∈ hiddenEvents
  · obtain ⟨s₁, hstep, rfl⟩ := (reduce_accepted hreduce).step
    exact .inr (hidden_step h.spec_eq ht hstep)
  · exact .inl ⟨(actions_le history).trans_lt hlength, visible_step h hreduce ht hyields⟩

/-- The fresh snapshot is the initial state. -/
theorem abstraction_init {s₀ : CampaignSnapshot} (h : CampaignSnapshot.initial spec = .ok s₀) :
    Init (constants spec graphDigest maxRevision hmax) (abstraction spec graphDigest [] s₀) := by
  have hspent : spent s₀ = 0 := by
    rw [spent, List.sum_eq_zero_iff]
    intro k hk
    obtain ⟨n, hn, rfl⟩ := List.mem_map.mp hk
    rw [initial_node h hn]
    rfl
  have hnodes : (fun name : SpecNode spec => nodeVars spec (nodeOf s₀ name.1)) =
      fun _ => ⟨.pending, false, false, false, false, false, false, requiredEffects spec⟩ := by
    funext name
    have hspec := (initial_eq_ok h).1
    rw [initial_node h (nodeOf_mem (name_mem hspec name)).1]
    rfl
  simp only [CampaignSnapshot.initial, bind_eq_ok, pure_eq_ok] at h
  obtain ⟨_, -, rfl⟩ := h
  simp only [Init, abstraction, hspent, hnodes, Nat.sub_self]
  rfl

/-- What the module says of a run of the reducer. -/
structure Refined (spec : CampaignSpec) (graphDigest : CampaignSpec → String) (maxRevision : ℕ)
    (hmax : 0 < maxRevision) (history : List (Entry CampaignSnapshot Applied)) (s : CampaignSnapshot) : Prop where
  graph : (constants spec graphDigest maxRevision hmax).GraphIsDAG
  refines : (campaignSpec (constants spec graphDigest maxRevision hmax)).Refines (abstraction spec graphDigest) history ↔
    ∀ t ∈ history, Yields t
  reached : (∀ t ∈ history, Yields t) →
    (campaignSpec (constants spec graphDigest maxRevision hmax)).Reached (abstraction spec graphDigest history s)

end Refinement

namespace Sample

open CodingOS.Campaign.Sample

/-- The sample campaign, and its review while it waits. -/
def reviewedHistory : List (Entry CampaignSnapshot Applied) :=
  waitingRun.1 ++ [⟨waitingRun.2, ⟨reviewEvent, reviewed.2⟩, reviewed.1⟩]

theorem reviewedRun : CampaignRun spec reviewedHistory reviewed.1 := by
  obtain ⟨s₀, hinit, hrun⟩ := campaignRun_waiting
  exact ⟨s₀, hinit, hrun.snoc review_accepted⟩

theorem run_yields : ∀ t ∈ run.1, Yields t := by
  have hawake : ∀ t ∈ run.1, t.before.state ∉ waitingCampaignStates := by decide +kernel
  exact fun t ht hwaiting => absurd hwaiting (hawake t ht)

theorem reviewed_moves : ¬ ∀ t ∈ reviewedHistory, Yields t := by
  intro h
  have hyields := h ⟨waitingRun.2, ⟨reviewEvent, reviewed.2⟩, reviewed.1⟩ (List.mem_append_right _ List.mem_cons_self)
  have hmoved : ∃ n ∈ waitingRun.2.nodes, ∃ n' ∈ reviewed.1.nodes, n'.nodeId = n.nodeId ∧ n'.state ≠ n.state := by
    decide +kernel
  have hended : reviewed.1.state ∉ [CampaignState.failed, .cancelled] := by decide +kernel
  exact hended (hyields (by decide +kernel) hmoved)

end Sample

end CodingOS.Formal
