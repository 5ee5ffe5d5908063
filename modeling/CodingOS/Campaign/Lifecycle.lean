import CodingOS.Campaign.Budget
import Mathlib.Logic.Relation

/-!
# One active node, and the shape of a finished campaign

While a campaign is live at most one node is on its way: every other node waits for admission or is
done, and a node was admitted only after everything it depends on, directly or through others, was
done.  Two consequences close the campaign: a snapshot that ended has the shape its state promises,
and until then a `CANCEL` that quotes the current revision and epochs is accepted.

`Live` is the invariant of the snapshots that have not ended, `Ended` what the last event leaves, and
`accepted_shape` derives both from `Step`.
-/

namespace CodingOS.Campaign

open CodingOS.Python Systems

/-! ### The moves of a node's state -/

/-- A move leaves the state alone, or leads from a state of work to one that is not terminal. -/
def Works (n n' : NodeSnapshot) : Prop :=
  n'.state = n.state ∨
    (n.state ≠ .pending ∧ n.state ≠ .done ∧ n'.state ∉ terminalNodeStates)

theorem Works.of_states {n n' : NodeSnapshot} {a b : NodeState} (hn : n.state = a) (hn' : n'.state = b)
    (ha : a ≠ .pending ∧ a ≠ .done := by decide)
    (hb : b ∉ terminalNodeStates := by simp [terminalNodeStates]) : Works n n' := by
  subst hn hn'
  exact .inr ⟨ha.1, ha.2, hb⟩

/-- `CANCEL` leaves only terminal nodes. -/
theorem cancelNode_terminal (n : NodeSnapshot) : (cancelNode n).state ∈ terminalNodeStates := by
  unfold cancelNode
  split
  · next hterminal => simpa using hterminal
  · show NodeState.cancelled ∈ terminalNodeStates
    decide

section Lifecycle

variable [Runtime]

section Moves

variable {s s' : CampaignSnapshot} {e : Event} {effects : List ExternalEffectIntent}
  {n n' m m' : NodeSnapshot}

theorem NodeMove.works (h : NodeMove s e n n') : Works n n' := by
  cases h with
  | acquireLease | releaseLease | authorizePublication => exact .inl rfl
  | implementationCompleted _ _ hstate | requestCorrection _ _ _ hstate
  | validationPassed _ _ hstate | freezeFindings _ hstate | markReady _ hstate
  | authorizeRepair _ hstate | repairCompleted _ _ hstate | closureCompleted _ hstate =>
      exact .of_states hstate rfl

theorem DispatchMove.works {role : String} (h : DispatchMove s e n role n') : Works n n' := by
  cases h with
  | startImplementation _ _ _ hstate | startReview _ hstate | startRepair _ _ hstate
  | revalidationPassed _ _ hstate =>
      exact .of_states hstate rfl

theorem FailMove.not_terminal {closed : NodeSnapshot} (h : FailMove s e n closed) :
    n.state ∉ terminalNodeStates := by
  cases h with
  | validationFailed _ _ hstate | revalidationFailed _ _ hstate | closureFailed _ hstate
  | publishFailed _ hstate =>
      rw [hstate]
      decide
  | failNode _ hlive => exact hlive

/-- A node that is done stays done. -/
theorem NodeStep.done (h : NodeStep s e effects m m') (hdone : m.state = .done) :
    m'.state = .done := by
  cases h with
  | same => exact hdone
  | unlease => exact hdone
  | cancel =>
      rw [cancelNode, hdone, if_pos (by decide)]
      exact hdone
  | admitted _ _ hpending => simp [hdone] at hpending
  | move _ hmove =>
      rcases hmove.works with hsame | ⟨-, hne, -⟩
      · exact hsame.trans hdone
      · exact absurd hdone hne
  | dispatch _ hmove =>
      rcases hmove.works with hsame | ⟨-, hne, -⟩
      · exact hsame.trans hdone
      · exact absurd hdone hne
  | fail _ hmove => exact absurd (by rw [hdone]; decide) hmove.not_terminal
  | publish _ hguard =>
      have hready := hguard.ready
      simp [hdone] at hready
  | confirm _ hguard =>
      have hpublishing := hguard.publishing
      simp [hdone] at hpublishing

/-- The start head of a node is set by its admission and by nothing else. -/
theorem NodeStep.startHead (h : NodeStep s e effects m m') :
    m'.startHead = m.startHead ∨
      (e.eventType = .admitNode ∧ Names s e m ∧ m'.startHead ≠ none) := by
  cases h with
  | same | unlease | publish | confirm => exact .inl rfl
  | cancel =>
      left
      unfold cancelNode
      split <;> rfl
  | admitted ht hn => exact .inr ⟨ht, hn, Option.some_ne_none _⟩
  | move _ hmove => exact .inl (by cases hmove <;> rfl)
  | dispatch _ hmove => exact .inl (by cases hmove <;> rfl)
  | fail _ hmove => exact .inl (by cases hmove <;> rfl)

/-- A node once admitted keeps its start head. -/
theorem NodeStep.startHead_ne_none (h : NodeStep s e effects m m') (hm : m.startHead ≠ none) :
    m'.startHead ≠ none := by
  rcases h.startHead with hsame | ⟨-, -, hset⟩
  · rw [hsame]
    exact hm
  · exact hset

/-- The states a node can be in without having been admitted. -/
def unadmittedStates : List NodeState := [.pending, .failedExactNode, .cancelled]

/-- A node is pending, or ended, or has its start head. -/
theorem NodeStep.admitted_inv (h : NodeStep s e effects m m')
    (hm : m.state ∉ unadmittedStates → m.startHead ≠ none) :
    m'.state ∉ unadmittedStates → m'.startHead ≠ none := by
  intro hstate'
  by_cases hstate : m.state ∈ unadmittedStates
  · cases h with
    | same | unlease => exact absurd hstate hstate'
    | cancel =>
        refine absurd ?_ hstate'
        unfold cancelNode
        split
        · exact hstate
        · show NodeState.cancelled ∈ unadmittedStates
          decide
    | admitted => exact Option.some_ne_none _
    | move hn hmove =>
        cases hmove with
        | acquireLease | releaseLease => exact absurd hstate hstate'
        | authorizePublication _ _ hready =>
            rw [hready] at hstate
            exact absurd hstate (by decide)
        | implementationCompleted _ _ h | requestCorrection _ _ _ h | validationPassed _ _ h
        | freezeFindings _ h | markReady _ h | authorizeRepair _ h | repairCompleted _ _ h
        | closureCompleted _ h =>
            rw [h] at hstate
            exact absurd hstate (by decide)
    | dispatch hn hmove =>
        cases hmove with
        | startImplementation _ _ _ h | startReview _ h | startRepair _ _ h
        | revalidationPassed _ _ h =>
            rw [h] at hstate
            exact absurd hstate (by decide)
    | fail =>
        refine absurd ?_ hstate'
        show NodeState.failedExactNode ∈ unadmittedStates
        decide
    | publish _ hguard =>
        rw [hguard.ready] at hstate
        exact absurd hstate (by decide)
    | confirm _ hguard =>
        rw [hguard.publishing] at hstate
        exact absurd hstate (by decide)
  · exact h.startHead_ne_none (hm hstate)

/-- Every node has a successor. -/
theorem Accepted.successor (h : Accepted s e effects s') (hm : m ∈ s.nodes) :
    ∃ m' ∈ s'.nodes, m'.nodeId = m.nodeId ∧ NodeStep s e effects m m' := by
  have hids : s'.nodes.map (·.nodeId) = s.nodes.map (·.nodeId) := by
    rw [s'.node_ids, s.node_ids, h.spec_eq]
  have hid : m.nodeId ∈ s'.nodes.map (·.nodeId) := hids ▸ List.mem_map_of_mem hm
  obtain ⟨m', hm', hid'⟩ := List.mem_map.mp hid
  obtain ⟨k, hk, hkid, hstep⟩ := h.node_cases hm'
  obtain rfl : k = m := CampaignSnapshot.node_unique hm hk (hkid.trans hid')
  exact ⟨m', hm', hid', hstep⟩

end Moves

/-! ### Live snapshots -/

/-- What holds of a snapshot that has not ended. -/
structure Live (s : CampaignSnapshot) : Prop where
  epoch : s.cancellationEpoch = s.spec.cancellationEpoch
  cancellation : s.cancellationState = .active
  waiting : ∀ m ∈ s.nodes, s.activeNodeId ≠ some m.nodeId → m.state = .pending ∨ m.state = .done
  working : ∀ k, s.activeNodeId = some k → ∃ m ∈ s.nodes, m.nodeId = k ∧
    m.state ∉ terminalNodeStates

/-- What holds of a snapshot that has ended, by the state it ended in. -/
structure Ended (s : CampaignSnapshot) : Prop where
  completed : s.state = .completed → (∀ m ∈ s.nodes, m.state = .done) ∧ s.activeNodeId = none
  failed : s.state = .failed → ∃! m, m ∈ s.nodes ∧ m.state = .failedExactNode
  cancelled : s.state = .cancelled → (∀ m ∈ s.nodes, m.state ∈ terminalNodeStates) ∧
    s.cancellationEpoch = s.spec.cancellationEpoch + 1

/-- The two halves of the invariant. -/
def Shaped (s : CampaignSnapshot) : Prop := (s.state ∉ terminalCampaignStates → Live s) ∧ Ended s

section Shape

variable {s s' : CampaignSnapshot} {e : Event} {effects : List ExternalEffectIntent}
  {n n' m : NodeSnapshot}

/-- A node of a live snapshot that neither waits nor is done is the active one. -/
theorem Live.active_of_work (h : Live s) (hm : m ∈ s.nodes) (hpending : m.state ≠ .pending)
    (hdone : m.state ≠ .done) : s.activeNodeId = some m.nodeId := by
  by_contra hother
  rcases h.waiting m hm hother with hstate | hstate
  · exact hpending hstate
  · exact hdone hstate

/-- No node of a live snapshot has failed. -/
theorem Live.not_failed (h : Live s) (hm : m ∈ s.nodes) : m.state ≠ .failedExactNode := by
  intro hfailed
  have hactive := h.active_of_work hm (by rw [hfailed]; decide) (by rw [hfailed]; decide)
  obtain ⟨k, hk, hid, hlive⟩ := h.working _ hactive
  obtain rfl := CampaignSnapshot.node_unique hm hk hid
  rw [hfailed] at hlive
  exact hlive (by decide)

/-- A snapshot that has not ended satisfies `Ended` for want of an end. -/
theorem Ended.of_live (h : s.state ∉ terminalCampaignStates) : Ended s := by
  refine ⟨fun hstate => ?_, fun hstate => ?_, fun hstate => ?_⟩ <;>
  · rw [hstate] at h
    exact absurd (by decide) h

/-- A step that replaces one node by a working successor keeps a live snapshot live. -/
theorem Live.replace (h : Live s) (hn : Names s e n) (hworks : Works n n')
    (hid : n'.nodeId = n.nodeId) (hspec : s'.spec = s.spec)
    (hepoch : s'.cancellationEpoch = s.cancellationEpoch)
    (hcancellation : s'.cancellationState = s.cancellationState)
    (hactive : s'.activeNodeId = s.activeNodeId)
    (hnodes : s'.nodes = (s.replaceNode n').nodes) : Live s' := by
  have hcases : ∀ m ∈ s'.nodes, m = n' ∨ (m ∈ s.nodes ∧ m.nodeId ≠ n.nodeId) := by
    intro m hm
    rw [hnodes] at hm
    rcases CampaignSnapshot.mem_replaceNode hm with rfl | ⟨hm, hne⟩
    · exact .inl rfl
    · exact .inr ⟨hm, hid ▸ hne⟩
  have hmem : n' ∈ s'.nodes := by
    rw [hnodes, CampaignSnapshot.replaceNode, CampaignSnapshot.mapNodes_nodes]
    exact List.mem_map.mpr ⟨n, hn.mem, if_pos hid.symm⟩
  refine ⟨by rw [hepoch, hspec, h.epoch], hcancellation.trans h.cancellation,
    fun m hm hother => ?_, fun k hk => ?_⟩
  · rw [hactive] at hother
    rcases hcases m hm with rfl | ⟨hm, -⟩
    · rcases hworks with hsame | ⟨hpending, hdone, -⟩
      · rw [hsame]
        exact h.waiting n hn.mem (hid ▸ hother)
      · exact absurd (hid ▸ h.active_of_work hn.mem hpending hdone) hother
    · exact h.waiting m hm hother
  · rw [hactive] at hk
    obtain ⟨m, hm, rfl, hlive⟩ := h.working k hk
    by_cases hsame : m.nodeId = n.nodeId
    · obtain rfl := CampaignSnapshot.node_unique hn.mem hm hsame
      refine ⟨n', hmem, hid, ?_⟩
      rcases hworks with hstate | ⟨-, -, hstate⟩
      · rw [hstate]
        exact hlive
      · exact hstate
    · refine ⟨m, ?_, rfl, hlive⟩
      rw [hnodes, CampaignSnapshot.replaceNode, CampaignSnapshot.mapNodes_nodes]
      exact List.mem_map.mpr ⟨m, hm, if_neg (hid ▸ hsame)⟩

/-- The failed node is the only failed node, as none was failed before. -/
theorem Live.fail (h : Live s) (hn : Names s e n) (hid : n'.nodeId = n.nodeId)
    (hfailed : n'.state = .failedExactNode) (hstate : s'.state = .failed)
    (hnodes : s'.nodes = (s.replaceNode n').nodes) : Shaped s' := by
  refine ⟨fun hlive => absurd (by rw [hstate]; decide) hlive,
    ⟨fun hcompleted => ?_, fun _ => ⟨n', ⟨?_, hfailed⟩, ?_⟩, fun hcancelled => ?_⟩⟩
  · simp [hstate] at hcompleted
  · rw [hnodes, CampaignSnapshot.replaceNode, CampaignSnapshot.mapNodes_nodes]
    exact List.mem_map.mpr ⟨n, hn.mem, if_pos hid.symm⟩
  · rintro m ⟨hm, hm'⟩
    rw [hnodes] at hm
    rcases CampaignSnapshot.mem_replaceNode hm with rfl | ⟨hm, -⟩
    · rfl
    · exact absurd hm' (h.not_failed hm)
  · simp [hstate] at hcancelled

/-- A step that keeps the campaign's state from an end keeps it live, once it is live. -/
theorem Shaped.of_live (hstate : s'.state ∉ terminalCampaignStates) (h : Live s') : Shaped s' :=
  ⟨fun _ => h, .of_live hstate⟩

theorem Live.shaped_replace (h : Live s) (hlive : s.state ∉ terminalCampaignStates)
    (hn : Names s e n) (hworks : Works n n') (hid : n'.nodeId = n.nodeId)
    (hspec : s'.spec = s.spec) (hstate : s'.state = s.state)
    (hepoch : s'.cancellationEpoch = s.cancellationEpoch)
    (hcancellation : s'.cancellationState = s.cancellationState)
    (hactive : s'.activeNodeId = s.activeNodeId)
    (hnodes : s'.nodes = (s.replaceNode n').nodes) : Shaped s' :=
  .of_live (hstate ▸ hlive) (h.replace hn hworks hid hspec hepoch hcancellation hactive hnodes)

/-- The fields of the campaign a paid step leaves alone. -/
theorem MaySpend.control_eq (h : MaySpend s e s') : s'.state = s.state ∧
    s'.cancellationEpoch = s.cancellationEpoch ∧ s'.cancellationState = s.cancellationState ∧
    s'.activeNodeId = s.activeNodeId := by
  rcases h with rfl | ⟨_, h⟩
  · exact ⟨rfl, rfl, rfl, rfl⟩
  · rw [h.result]
    exact ⟨rfl, rfl, rfl, rfl⟩

/-- A confirmed publication finishes its node, and with the last one the campaign. -/
theorem Live.confirm {effect operationId : String} {complete : Bool} (h : Live s)
    (hlive : s.state ∉ terminalCampaignStates) (hn : Names s e n)
    (hguard : ConfirmGuard s e n effect operationId complete) :
    Shaped (s.recordPublication (n.confirmed effect operationId complete) complete) := by
  have hactive : s.activeNodeId = some n.nodeId :=
    h.active_of_work hn.mem (by rw [hguard.publishing]; decide) (by rw [hguard.publishing]; decide)
  cases complete with
  | false =>
      have hworks : Works n (n.confirmed effect operationId false) :=
        .of_states (b := .readyToPublish) hguard.publishing rfl
      exact h.shaped_replace hlive hn hworks rfl rfl rfl rfl rfl rfl rfl
  | true =>
      have hothers : ∀ m ∈ (s.recordPublication (n.confirmed effect operationId true) true).nodes,
          m.state = .pending ∨ m.state = .done := by
        intro m hm
        rcases CampaignSnapshot.mem_replaceNode hm with rfl | ⟨hm, hne⟩
        · exact .inr rfl
        · refine h.waiting m hm ?_
          rw [hactive, ne_eq, Option.some.injEq]
          exact Ne.symm hne
      refine ⟨fun _ => ⟨h.epoch, h.cancellation, fun m hm _ => hothers m hm, fun k hk => ?_⟩,
        ⟨fun hcompleted => ⟨?_, rfl⟩, fun hfailed => ?_, fun hcancelled => ?_⟩⟩
      · cases hk
      · by_contra hpending
        have hall : ((s.replaceNode (n.confirmed effect operationId true)).nodes.all
            (·.state == .done)) = false := by
          rw [Bool.eq_false_iff]
          intro hall
          exact hpending fun m hm => by simpa using List.all_eq_true.mp hall m hm
        have hsame : s.state = .completed := by
          simpa [CampaignSnapshot.recordPublication, hall] using hcompleted
        exact hlive (by rw [hsame]; decide)
      · have hsame : s.state = .failed := by
          revert hfailed
          show (if _ then CampaignState.completed else s.state) = _ → _
          split
          · intro h
            cases h
          · exact id
        exact absurd (by rw [hsame]; decide) hlive
      · have hsame : s.state = .cancelled := by
          revert hcancelled
          show (if _ then CampaignState.completed else s.state) = _ → _
          split
          · intro h
            cases h
          · exact id
        exact absurd (by rw [hsame]; decide) hlive

/-- **Every step keeps the shape.** -/
theorem Step.shaped (h : Live s) (hlive : s.state ∉ terminalCampaignStates)
    (hstep : Step s e s' effects) : Shaped s' := by
  cases hstep with
  | control hmove =>
      exact .of_live (by cases hmove <;> simp [terminalCampaignStates])
        ⟨h.epoch, h.cancellation, h.waiting, h.working⟩
  | advanceAuthority =>
      refine .of_live hlive ⟨h.epoch, h.cancellation, fun m hm hother => ?_, fun k hk => ?_⟩
      · obtain ⟨k, hk, rfl⟩ := List.mem_map.mp hm
        exact h.waiting k hk hother
      · obtain ⟨m, hm, hid, hstate⟩ := h.working k hk
        exact ⟨_, List.mem_map_of_mem hm, hid, hstate⟩
  | cancel =>
      refine ⟨fun hlive' => absurd (show CampaignState.cancelled ∈ terminalCampaignStates by decide)
        hlive', ⟨fun h => ?_, fun h => ?_, fun _ => ⟨fun m hm => ?_, ?_⟩⟩⟩
      · cases h
      · cases h
      · obtain ⟨m, -, rfl⟩ := List.mem_map.mp hm
        exact cancelNode_terminal m
      · show s.cancellationEpoch + 1 = _
        rw [h.epoch]
        rfl
  | consumeBudget _ _ hspend =>
      have hcontrol := MaySpend.control_eq (.inr ⟨_, hspend⟩)
      refine .of_live (hcontrol.1 ▸ hlive) ⟨?_, hcontrol.2.2.1.trans h.cancellation, ?_, ?_⟩
      · rw [hcontrol.2.1, hspend.spec_eq, h.epoch]
      · rw [hspend.nodes_eq, hcontrol.2.2.2]
        exact h.waiting
      · rw [hspend.nodes_eq, hcontrol.2.2.2]
        exact h.working
  | @admitted n _ startHead _ _ hn hpending hidle =>
      refine .of_live hlive ⟨h.epoch, h.cancellation, fun m hm hother => ?_, fun k hk => ?_⟩
      · rcases CampaignSnapshot.mem_replaceNode hm with rfl | ⟨hm, hne⟩
        · exact absurd rfl hother
        · refine h.waiting m hm ?_
          rcases hidle with hidle | hidle
          · simp [hidle]
          · rw [hidle, ne_eq, Option.some.injEq]
            exact Ne.symm hne
      · obtain rfl := Option.some.inj hk
        refine ⟨{ n with state := .admitted, startHead := some startHead },
          List.mem_map.mpr ⟨n, hn.mem, if_pos rfl⟩, rfl, ?_⟩
        simp [terminalNodeStates]
  | move hn hmove =>
      exact h.shaped_replace hlive hn hmove.works hmove.nodeId_eq rfl rfl rfl rfl rfl rfl
  | dispatch hn hmove hdispatch =>
      obtain ⟨_, -, hspend, -⟩ := dispatchEffect_eq_ok hdispatch
      have hmay := consumeAutomated_maySpend hspend
      have hcontrol := hmay.control_eq
      exact h.shaped_replace hlive hn hmove.works hmove.nodeId_eq hmay.spec_eq hcontrol.1
        hcontrol.2.1 hcontrol.2.2.1 hcontrol.2.2.2 (replaceNode_nodes_congr hmay.nodes_eq)
  | @fail n closed reason hn hmove =>
      have hid : (closed.failed reason).nodeId = n.nodeId := hmove.nodeId_eq
      exact h.fail hn hid rfl rfl rfl
  | @publish n kind _ operationId _ _ hn _ hspend hguard =>
      have hworks : Works n (n.publishing kind operationId) :=
        .of_states (b := .publishing) hguard.ready rfl
      have hmay := consumeAutomated_maySpend hspend
      have hcontrol := hmay.control_eq
      exact h.shaped_replace hlive hn hworks rfl hmay.spec_eq hcontrol.1 hcontrol.2.1
        hcontrol.2.2.1 hcontrol.2.2.2 (replaceNode_nodes_congr hmay.nodes_eq)
  | confirm hn hguard => exact h.confirm hlive hn hguard

/-- The shape does not read the revision. -/
theorem Shaped.revision (h : Shaped s) (revision : ℕ) : Shaped { s with revision } :=
  ⟨fun hlive => ⟨(h.1 hlive).epoch, (h.1 hlive).cancellation, (h.1 hlive).waiting,
    (h.1 hlive).working⟩, ⟨h.2.completed, h.2.failed, h.2.cancelled⟩⟩

theorem accepted_shape (h : Accepted s e effects s') (hshape : Shaped s) : Shaped s' := by
  obtain ⟨s₁, hstep, rfl⟩ := h.step
  exact (hstep.shaped (hshape.1 h.live) h.live).revision _

theorem initial_shape {spec : CampaignSpec} {s₀ : CampaignSnapshot}
    (h : CampaignSnapshot.initial spec = .ok s₀) : Shaped s₀ := by
  have hnode : ∀ m ∈ s₀.nodes, m.state = .pending := fun m hm => by
    rw [initial_node h hm]
  simp only [CampaignSnapshot.initial, bind_eq_ok, pure_eq_ok] at h
  obtain ⟨_, -, rfl⟩ := h
  exact .of_live (by simp [terminalCampaignStates])
    ⟨rfl, rfl, fun m hm _ => .inl (hnode m hm), fun k hk => by cases hk⟩

/-- **The shape of every reached snapshot.** -/
theorem CampaignRun.shaped {spec : CampaignSpec} {history : List (Entry CampaignSnapshot Applied)}
    (h : CampaignRun spec history s) : Shaped s := by
  obtain ⟨s₀, hinit, hrun⟩ := h
  refine hrun.invariant Shaped (initial_shape hinit) fun hshape hstep => ?_
  exact accepted_shape (reduce_accepted hstep) hshape

theorem CampaignRun.spec_eq {spec : CampaignSpec} {history : List (Entry CampaignSnapshot Applied)}
    (h : CampaignRun spec history s) : s.spec = spec := by
  obtain ⟨s₀, hinit, hrun⟩ := h
  refine hrun.invariant (fun s => s.spec = spec) (initial_eq_ok hinit).1 fun hspec hstep => ?_
  rw [(reduce_accepted hstep).spec_eq, hspec]

/-! ### How a campaign ends -/

/-- The events that can fail a node, and with it the campaign. -/
def failingEvents : List EventType :=
  [.validationFailed, .revalidationFailed, .completeClosure, .publishFailed, .failNode]

theorem FailMove.eventType_mem {closed : NodeSnapshot} (h : FailMove s e n closed) :
    e.eventType ∈ failingEvents := by
  cases h <;> simp [failingEvents, *]

/-- The state of the campaign after an accepted event. -/
theorem Accepted.state_cases (h : Accepted s e effects s') :
    s'.state = s.state ∨ ControlMove s e s'.state ∨ s'.state = .completed ∨
      (s'.state = .cancelled ∧ e.eventType = .cancel) ∨
      (s'.state = .failed ∧ ∃ n closed reason, Names s e n ∧ FailMove s e n closed ∧
        s' = { failExactNode s closed reason with revision := s.revision + 1 }) := by
  obtain ⟨s₁, hstep, rfl⟩ := h.step
  cases hstep with
  | control hmove => exact .inr (.inl hmove)
  | advanceAuthority | admitted | move => exact .inl rfl
  | cancel ht => exact .inr (.inr (.inr (.inl ⟨rfl, ht⟩)))
  | consumeBudget _ _ hspend => exact .inl (MaySpend.control_eq (.inr ⟨_, hspend⟩)).1
  | dispatch _ _ hdispatch =>
      obtain ⟨_, -, hspend, -⟩ := dispatchEffect_eq_ok hdispatch
      exact .inl (consumeAutomated_maySpend hspend).control_eq.1
  | fail hn hmove => exact .inr (.inr (.inr (.inr ⟨rfl, _, _, _, hn, hmove, rfl⟩)))
  | publish _ _ hspend => exact .inl (consumeAutomated_maySpend hspend).control_eq.1
  | confirm =>
      show (if _ then CampaignState.completed else s.state) = s.state ∨ _
      split
      · exact .inr (.inr (.inl (if_pos ‹_›)))
      · exact .inl rfl

theorem ControlMove.not_terminal {state : CampaignState} (h : ControlMove s e state) :
    state ∉ terminalCampaignStates := by
  cases h <;> simp [terminalCampaignStates]

/-- A campaign fails when one of its nodes does. -/
theorem Accepted.failed (h : Accepted s e effects s') (hfailed : s'.state = .failed) :
    ∃ n closed reason, Names s e n ∧ FailMove s e n closed ∧
      s' = { failExactNode s closed reason with revision := s.revision + 1 } := by
  rcases h.state_cases with hsame | hmove | hdone | ⟨hcancelled, -⟩ | ⟨-, hfail⟩
  · exact absurd (by rw [← hsame, hfailed]; decide) h.live
  · exact absurd (by rw [hfailed]; decide) hmove.not_terminal
  · simp [hfailed] at hdone
  · simp [hfailed] at hcancelled
  · exact hfail

/-- A campaign is cancelled by `CANCEL` alone. -/
theorem Accepted.cancelled (h : Accepted s e effects s') (hcancelled : s'.state = .cancelled) :
    e.eventType = .cancel := by
  rcases h.state_cases with hsame | hmove | hdone | ⟨-, ht⟩ | ⟨hfailed, -⟩
  · exact absurd (by rw [← hsame, hcancelled]; decide) h.live
  · exact absurd (by rw [hcancelled]; decide) hmove.not_terminal
  · simp [hcancelled] at hdone
  · exact ht
  · simp [hcancelled] at hfailed

/-- `CANCEL` cancels its campaign, and every node that has not ended. -/
theorem Accepted.cancel_eq (h : Accepted s e effects s') (ht : e.eventType = .cancel) :
    s'.state = .cancelled ∧ s'.nodes = s.nodes.map cancelNode := by
  obtain ⟨s₁, hstep, rfl⟩ := h.step
  cases hstep with
  | cancel => exact ⟨rfl, rfl⟩
  | control hmove => cases hmove <;> simp [ht] at *
  | advanceAuthority ht' | consumeBudget ht' | admitted ht' => simp [ht] at ht'
  | move _ hmove => cases hmove <;> simp [ht] at *
  | dispatch _ hmove => cases hmove <;> simp [ht] at *
  | fail _ hmove => cases hmove <;> simp [ht] at *
  | publish _ _ _ hguard =>
      have hne := hguard.eventType
      simp [ht] at hne
  | confirm _ hguard =>
      have hne := hguard.eventType
      simp [ht] at hne

/-! ### Dependencies -/

/-- Node `a` of a specification names `b` among its dependencies. -/
def DependsOn (spec : CampaignSpec) (a b : String) : Prop :=
  ∃ node ∈ spec.nodes, node.nodeId = a ∧ b ∈ node.dependencies

/-- The node of an identifier is done. -/
def IsDone (s : CampaignSnapshot) (nodeId : String) : Prop :=
  ∃ m ∈ s.nodes, m.nodeId = nodeId ∧ m.state = .done

/-- The node of an identifier has been admitted. -/
def IsAdmitted (s : CampaignSnapshot) (nodeId : String) : Prop :=
  ∃ m ∈ s.nodes, m.nodeId = nodeId ∧ m.startHead ≠ none

theorem Accepted.isDone (h : Accepted s e effects s') {k : String} (hk : IsDone s k) :
    IsDone s' k := by
  obtain ⟨m, hm, rfl, hdone⟩ := hk
  obtain ⟨m', hm', hid, hstep⟩ := h.successor hm
  exact ⟨m', hm', hid, hstep.done hdone⟩

theorem Accepted.isAdmitted (h : Accepted s e effects s') {k : String} (hk : IsAdmitted s k) :
    IsAdmitted s' k := by
  obtain ⟨m, hm, rfl, hhead⟩ := hk
  obtain ⟨m', hm', hid, hstep⟩ := h.successor hm
  exact ⟨m', hm', hid, hstep.startHead_ne_none hhead⟩

/-- An admission found every direct dependency done and set the start head. -/
theorem Accepted.admission (h : Accepted s e effects s') (ht : e.eventType = .admitNode)
    {k : String} (hk : e.nodeId = some k) :
    IsAdmitted s' k ∧ ∀ d, DependsOn s.spec k d → IsDone s d := by
  obtain ⟨s₁, hstep, rfl⟩ := h.step
  cases hstep with
  | control hmove => cases hmove <;> simp [ht] at *
  | advanceAuthority ht' | cancel ht' | consumeBudget ht' => simp [ht] at ht'
  | move _ hmove => cases hmove <;> simp [ht] at *
  | dispatch _ hmove => cases hmove <;> simp [ht] at *
  | fail _ hmove => cases hmove <;> simp [ht] at *
  | publish _ _ _ hguard =>
      have hne := hguard.eventType
      simp [ht] at hne
  | confirm _ hguard =>
      have hne := hguard.eventType
      simp [ht] at hne
  | @admitted n nodeSpec startHead _ _ hn _ _ hspec hdone =>
      rw [hn.nodeId, Option.some.injEq] at hk
      subst hk
      refine ⟨⟨{ n with state := .admitted, startHead := some startHead },
        List.mem_map.mpr ⟨n, hn.mem, if_pos rfl⟩, rfl, Option.some_ne_none _⟩, ?_⟩
      rintro d ⟨node, hnode, hid, hd⟩
      rw [CampaignSnapshot.nodeSpec, orRaise_eq_ok] at hspec
      have hfound : nodeSpec.nodeId = n.nodeId := by simpa using List.find?_some hspec
      obtain rfl : node = nodeSpec :=
        List.inj_on_of_nodup_map s.spec.node_ids_nodup hnode (List.mem_of_find?_eq_some hspec)
          (hid.trans hfound.symm)
      obtain ⟨m, hm, hmdone⟩ := hdone d hd
      rw [CampaignSnapshot.node, orRaise_eq_ok] at hm
      exact ⟨m, List.mem_of_find?_eq_some hm, by simpa using List.find?_some hm, hmdone⟩

/-- The direct dependencies of every admitted node are done, and a node that is done was admitted. -/
structure Closed (s : CampaignSnapshot) : Prop where
  admitted : ∀ m ∈ s.nodes, m.state ∉ unadmittedStates → m.startHead ≠ none
  direct : ∀ k, IsAdmitted s k → ∀ d, DependsOn s.spec k d → IsDone s d

theorem accepted_closed (h : Accepted s e effects s') (hclosed : Closed s) : Closed s' := by
  refine ⟨fun m' hm' => ?_, fun k hk d hd => ?_⟩
  · obtain ⟨m, hm, -, hstep⟩ := h.node_cases hm'
    exact hstep.admitted_inv (hclosed.admitted m hm)
  · rw [h.spec_eq] at hd
    refine h.isDone ?_
    obtain ⟨m', hm', rfl, hhead⟩ := hk
    obtain ⟨m, hm, hid, hstep⟩ := h.node_cases hm'
    rcases hstep.startHead with hsame | ⟨ht, hn, -⟩
    · exact hclosed.direct _ ⟨m, hm, hid, hsame ▸ hhead⟩ d hd
    · exact (h.admission ht (hn.nodeId.trans (congrArg some hid))).2 d hd

/-- A dependency path from an admitted node leads through nodes that are done. -/
theorem Closed.transitive (h : Closed s) {k d : String} (hpath : Relation.TransGen (DependsOn s.spec) k d)
    (hk : IsAdmitted s k) : IsDone s d := by
  induction hpath with
  | single hd => exact h.direct k hk _ hd
  | tail _ hd ih =>
      obtain ⟨m, hm, hid, hdone⟩ := ih
      exact h.direct _ ⟨m, hm, hid, h.admitted m hm (by rw [hdone]; decide)⟩ _ hd

theorem CampaignRun.closed {spec : CampaignSpec} {history : List (Entry CampaignSnapshot Applied)}
    (h : CampaignRun spec history s) : Closed s := by
  obtain ⟨s₀, hinit, hrun⟩ := h
  refine hrun.invariant Closed ⟨fun m hm hstate => ?_, fun k hk => ?_⟩ fun hclosed hstep => ?_
  · have hpending : m.state = .pending := by rw [initial_node hinit hm]
    rw [hpending] at hstate
    exact absurd (by decide) hstate
  · obtain ⟨m, hm, -, hhead⟩ := hk
    rw [initial_node hinit hm] at hhead
    exact absurd rfl hhead
  · exact accepted_closed (reduce_accepted hstep) hclosed

/-- A node admitted anywhere in a run is admitted at its end. -/
theorem CampaignRun.isAdmitted {spec : CampaignSpec}
    {history : List (Entry CampaignSnapshot Applied)} (h : CampaignRun spec history s)
    {t : Entry CampaignSnapshot Applied} (ht : t ∈ history)
    (htype : t.label.event.eventType = .admitNode) {k : String}
    (hk : t.label.event.nodeId = some k) : IsAdmitted s k := by
  obtain ⟨s₀, -, hrun⟩ := h
  induction hrun with
  | start => cases ht
  | snoc _ hstep ih =>
      have haccepted := reduce_accepted hstep
      rcases List.mem_append.mp ht with hearlier | hlast
      · exact haccepted.isAdmitted (ih hearlier)
      · obtain rfl := List.mem_singleton.mp hlast
        exact (haccepted.admission htype hk).1

/-! ### The two laws -/

/-- **One active node.**  What holds in every snapshot a run reaches. -/
structure SingleActive (spec : CampaignSpec) (history : List (Entry CampaignSnapshot Applied))
    (s : CampaignSnapshot) : Prop where
  waiting : s.state ∉ terminalCampaignStates → ∀ m ∈ s.nodes, s.activeNodeId ≠ some m.nodeId →
    m.state = .pending ∨ m.state = .done
  active : s.state ∉ terminalCampaignStates → ∀ k, s.activeNodeId = some k →
    (∃ node ∈ spec.nodes, node.nodeId = k) ∧
      ∃ m ∈ s.nodes, m.nodeId = k ∧ m.state ∉ terminalNodeStates
  closed : ∀ t ∈ history, t.label.event.eventType = .admitNode →
    ∀ k, t.label.event.nodeId = some k → ∀ d, Relation.TransGen (DependsOn spec) k d → IsDone s d

theorem single_active_node {spec : CampaignSpec}
    {history : List (Entry CampaignSnapshot Applied)} (h : CampaignRun spec history s) :
    SingleActive spec history s where
  waiting hlive := (h.shaped.1 hlive).waiting
  active hlive k hk := by
    obtain ⟨m, hm, hid, hstate⟩ := (h.shaped.1 hlive).working k hk
    refine ⟨?_, m, hm, hid, hstate⟩
    have hmem : m.nodeId ∈ spec.nodes.map (·.nodeId) := by
      rw [← h.spec_eq, ← s.node_ids]
      exact List.mem_map_of_mem hm
    obtain ⟨node, hnode, hnodeId⟩ := List.mem_map.mp hmem
    exact ⟨node, hnode, hnodeId.trans hid⟩
  closed t ht htype k hk d hpath :=
    h.closed.transitive (h.spec_eq.symm ▸ hpath) (h.isAdmitted ht htype hk)

/-- **How a campaign ends.**  What holds in every snapshot a run reaches. -/
structure TerminalLaw (spec : CampaignSpec) (s : CampaignSnapshot) : Prop where
  completed : s.state = .completed → (∀ m ∈ s.nodes, m.state = .done) ∧ s.activeNodeId = none
  failed : s.state = .failed → ∃! m, m ∈ s.nodes ∧ m.state = .failedExactNode
  cancelled : s.state = .cancelled → (∀ m ∈ s.nodes, m.state ∈ terminalNodeStates) ∧
    s.cancellationEpoch = spec.cancellationEpoch + 1
  absorbing : s.state ∈ terminalCampaignStates → ∀ e : Event, ∃ exc, reduce s e = .error exc
  cancellable : s.state ∉ terminalCampaignStates → ∀ e : Event, e.eventType = .cancel →
    e.campaignId = spec.campaignId → e.expectedRevision = s.revision →
    e.authorityEpoch = s.authorityEpoch → e.cancellationEpoch = s.cancellationEpoch →
    ∃ s' effects, reduce s e = .ok (s', effects) ∧ s'.state = .cancelled

/-- An intent with an operation identifier of its own is never refused. -/
theorem effect_ok {kind : EffectKind} {external : Bool} {payload : Mapping} {operationId : String}
    (h : operationId ≠ "") :
    ∃ intent, effect s e kind external payload (some operationId) = .ok intent := by
  unfold effect
  split
  · next heq => cases heq
  · next heq => exact absurd (Option.some.inj heq) h
  · next heq =>
      obtain rfl := Option.some.inj heq
      exact ⟨_, bind_eq_ok.mpr ⟨(), require_eq_ok.mpr (bne_iff_ne.mpr h), pure_eq_ok.mpr rfl⟩⟩

/-- A step that leaves the specification and the budget alone passes `_finish_revision`. -/
theorem finishRevision_unpaid {next : CampaignSnapshot} (hspec : next.spec = s.spec)
    (hrank : next.autonomousRankRemaining = s.autonomousRankRemaining)
    (hreceipts : next.budgetReceipts = s.budgetReceipts) :
    finishRevision s next effects = .ok ({ next with revision := s.revision + 1 }, effects) := by
  simp [finishRevision, bind_eq_ok, hspec, hrank, hreceipts]
  rfl

/-- `CANCEL` passes every check of a live snapshot whose revision and epochs it quotes. -/
theorem reduce_cancel (hactive : s.cancellationState = .active)
    (hlive : s.state ∉ terminalCampaignStates) (ht : e.eventType = .cancel)
    (hcampaign : e.campaignId = s.spec.campaignId) (hrevision : e.expectedRevision = s.revision)
    (hauthority : e.authorityEpoch = s.authorityEpoch)
    (hcancellation : e.cancellationEpoch = s.cancellationEpoch) :
    ∃ s' effects, reduce s e = .ok (s', effects) ∧ s'.state = .cancelled := by
  have hsuffix : ∀ {suffix : String}, suffix ≠ "" → e.eventId ++ suffix ≠ "" := by
    intro suffix hne heq
    exact hne (by simpa using (String.append_eq_empty_iff.mp heq).2)
  obtain ⟨interrupt, hinterrupt⟩ : ∃ intent, effect s e .interruptWorker false
      [("reason", .str (e.payload.getD "reason" (.str "STOP")).text)]
      (some (e.eventId ++ ":interrupt")) = .ok intent := effect_ok (hsuffix (by decide))
  obtain ⟨reconcile, hreconcile⟩ : ∃ intent, effect s e .reconcileEffect false
      [("reason", .str "campaign_cancelled")] (some (e.eventId ++ ":reconcile")) = .ok intent :=
    effect_ok (hsuffix (by decide))
  have hheader : checkEventHeader s e = .ok () := by
    simp [checkEventHeader, bind_eq_ok, hcampaign, hrevision, hauthority, hcancellation, hactive,
      hlive]
  have hbranch : reduceBranch s e = .ok ({ s.mapNodes cancelNode cancelNode_nodeId with
      state := .cancelled
      cancellationState := .cancelled
      cancellationEpoch := s.cancellationEpoch + 1
      activeNodeId := none
      failureReason := some (e.payload.getD "reason" (.str "STOP")).text },
        [interrupt, reconcile]) := by
    rw [reduceBranch, ht]
    exact bind_eq_ok.mpr ⟨interrupt, hinterrupt, bind_eq_ok.mpr ⟨reconcile, hreconcile, rfl⟩⟩
  exact ⟨_, _, bind_eq_ok.mpr ⟨(), hheader, bind_eq_ok.mpr ⟨_, hbranch,
    finishRevision_unpaid rfl rfl rfl⟩⟩, rfl⟩

theorem terminal_shape {spec : CampaignSpec} {history : List (Entry CampaignSnapshot Applied)}
    (h : CampaignRun spec history s) : TerminalLaw spec s where
  completed := h.shaped.2.completed
  failed := h.shaped.2.failed
  cancelled hcancelled := by
    rw [← h.spec_eq]
    exact h.shaped.2.cancelled hcancelled
  absorbing hterminal e := by
    cases hreduce : reduce s e with
    | error exc => exact ⟨exc, rfl⟩
    | ok result => exact absurd hterminal (reduce_accepted hreduce).live
  cancellable hlive e ht hcampaign hrevision hauthority hcancellation :=
    reduce_cancel (h.shaped.1 hlive).cancellation hlive ht (h.spec_eq.symm ▸ hcampaign) hrevision
      hauthority hcancellation

end Shape

end Lifecycle

open Sample in
/-- The laws on the run of the sample campaign, whose one node is publishing. -/
theorem single_active_node_sample : SingleActive spec run.1 run.2 := single_active_node campaignRun

open Sample in
theorem terminal_shape_sample : TerminalLaw spec run.2 := terminal_shape campaignRun

end CodingOS.Campaign
