import CodingOS.Campaign.Lifecycle
import CodingOS.Campaign.Publication
import CodingOS.Systems.Measure

/-!
# Bounded lifecycles

The states of a node go back from `VALIDATING` to `IMPLEMENTING` and from `PUBLISHING` to
`READY_TO_PUBLISH`.  The first happens once, as it uses the correction of the node up, and the second
once for each required effect.  `NodeSnapshot.remaining` counts the changes of state that are left: no
step raises it and every change of state lowers it.
-/

namespace CodingOS.Campaign

open CodingOS.Python Systems

/-- How many changes of its state a node has left, for a required sequence of `k` effects. -/
def NodeSnapshot.remaining (k : ℕ) (n : NodeSnapshot) : ℕ :=
  match n.state with
  | .pending => 2 * k + 15
  | .admitted => 2 * k + 14
  | .implementing => 2 * k + 11 + 2 * (1 - n.validationCorrections)
  | .validating => 2 * k + 10 + 2 * (1 - n.validationCorrections)
  | .candidateFrozen => 2 * k + 9
  | .checksAndReview => 2 * k + 8
  | .findingsFrozen => 2 * k + 7
  | .repairAuthorized => 2 * k + 6
  | .repairing => 2 * k + 5
  | .revalidating => 2 * k + 4
  | .closure => 2 * k + 3
  | .readyToPublish => 2 * (k - n.completedPublicationEffects.length) + 2
  | .publishing => 2 * (k - n.completedPublicationEffects.length) + 1
  | .done | .failedExactNode | .cancelled => 0

/-- A node that publishes has an effect left to confirm. -/
def InSequence (k : ℕ) (n : NodeSnapshot) : Prop :=
  n.state = .publishing → n.completedPublicationEffects.length < k

/-- A change of state uses one of the changes that are left. -/
def Uses (k : ℕ) (m m' : NodeSnapshot) : Prop :=
  m'.remaining k ≤ m.remaining k ∧ (m'.state ≠ m.state → m'.remaining k < m.remaining k)

section Uses

variable {m m' : NodeSnapshot} {k : ℕ}

theorem Uses.of_lt (h : m'.remaining k < m.remaining k) : Uses k m m' := ⟨h.le, fun _ => h⟩

theorem Uses.of_same (hstate : m'.state = m.state)
    (hcorrections : m'.validationCorrections = m.validationCorrections)
    (hcompleted : m'.completedPublicationEffects = m.completedPublicationEffects) : Uses k m m' := by
  refine ⟨le_of_eq ?_, fun hne => absurd hstate hne⟩
  rw [NodeSnapshot.remaining, NodeSnapshot.remaining, hstate, hcorrections, hcompleted]

theorem remaining_pos (h : m.state ∉ terminalNodeStates) : 0 < m.remaining k := by
  unfold NodeSnapshot.remaining
  split
  case h_14 hstate | h_15 hstate | h_16 hstate =>
    rw [hstate] at h
    exact absurd (by decide) h
  all_goals omega

/-- A node that ends uses all its changes up. -/
theorem Uses.of_ended (hm : m.state ∉ terminalNodeStates) (hm' : m'.remaining k = 0) : Uses k m m' :=
  .of_lt (hm' ▸ remaining_pos hm)

end Uses

section Nodes

variable [Runtime] {s s' : CampaignSnapshot} {e : Event} {effects : List ExternalEffectIntent}
  {m m' : NodeSnapshot} {k v : ℕ}

theorem NodeMove.uses (h : NodeMove s e m m') : Uses k m m' := by
  cases h with
  | acquireLease | releaseLease | authorizePublication => exact .of_same rfl rfl rfl
  | implementationCompleted _ _ hstate => exact .of_lt (by simp [NodeSnapshot.remaining, hstate])
  | requestCorrection _ _ _ hstate hunused =>
      exact .of_lt (by simp [NodeSnapshot.remaining, hstate, hunused])
  | validationPassed _ _ hstate =>
      exact .of_lt (by simp [NodeSnapshot.remaining, hstate]; omega)
  | freezeFindings _ hstate | authorizeRepair _ hstate | repairCompleted _ _ hstate
  | closureCompleted _ hstate => exact .of_lt (by simp [NodeSnapshot.remaining, hstate])
  | markReady _ hstate => exact .of_lt (by simp [NodeSnapshot.remaining, hstate]; omega)

theorem DispatchMove.uses {role : String} (h : DispatchMove s e m role m') : Uses k m m' := by
  cases h with
  | startImplementation _ _ _ hstate =>
      exact .of_lt (by simp [NodeSnapshot.remaining, hstate]; omega)
  | startReview _ hstate | startRepair _ _ hstate | revalidationPassed _ _ hstate =>
      exact .of_lt (by simp [NodeSnapshot.remaining, hstate])

/-- **What a step uses.** -/
theorem NodeStep.uses (h : NodeStep s e effects m m') (hsequence : InSequence k m) : Uses k m m' := by
  cases h with
  | same | unlease => exact .of_same rfl rfl rfl
  | cancel =>
      unfold cancelNode
      split
      · exact .of_same rfl rfl rfl
      · next hlive => exact .of_ended (by simpa using hlive) rfl
  | admitted _ _ hstate => exact .of_lt (by simp [NodeSnapshot.remaining, hstate])
  | move _ hmove => exact hmove.uses
  | dispatch _ hmove => exact hmove.uses
  | fail _ hmove => exact .of_ended hmove.not_terminal rfl
  | publish _ hguard =>
      exact .of_lt (by simp [NodeSnapshot.remaining, NodeSnapshot.publishing, hguard.ready])
  | @confirm effect operationId complete _ hguard =>
      have hleft := hsequence hguard.publishing
      refine .of_lt ?_
      cases complete with
      | true => simp [NodeSnapshot.remaining, NodeSnapshot.confirmed, hguard.publishing]
      | false =>
          simp [NodeSnapshot.remaining, NodeSnapshot.confirmed, hguard.publishing]
          omega

/-- The changes a node has left when it meets an event that happens to it once. -/
def onceAt (k : ℕ) : EventType → Option ℕ
  | .admitNode => some (2 * k + 15)
  | .startImplementation => some (2 * k + 14)
  | .requestValidationCorrection => some (2 * k + 12)
  | .startReview => some (2 * k + 9)
  | .freezeFindings => some (2 * k + 8)
  | .authorizeRepair => some (2 * k + 7)
  | .startRepair => some (2 * k + 6)
  | .repairCompleted => some (2 * k + 5)
  | .revalidationPassed => some (2 * k + 4)
  | .completeClosure => some (2 * k + 3)
  | _ => none

theorem NodeStep.once (h : NodeStep s e effects m m') (hname : e.nodeId = some m.nodeId)
    (hv : onceAt k e.eventType = some v) : m.remaining k = v ∧ m'.remaining k < v := by
  cases h with
  | same hother =>
      rcases hother with hne | hcampaign
      · exact absurd hname hne
      · simp only [campaignEvents, List.mem_cons, List.not_mem_nil, or_false] at hcampaign
        rcases hcampaign with ht | ht | ht | ht | ht | ht <;> simp [onceAt, ht] at hv
  | unlease ht | cancel ht => simp [onceAt, ht] at hv
  | admitted ht _ hstate =>
      simp only [onceAt, ht, Option.some.injEq] at hv
      simp [NodeSnapshot.remaining, hstate, ← hv]
  | move _ hmove =>
      cases hmove with
      | acquireLease ht | releaseLease ht | implementationCompleted ht | validationPassed ht
      | markReady ht | authorizePublication ht => simp [onceAt, ht] at hv
      | requestCorrection ht _ _ hstate hunused =>
          simp only [onceAt, ht, Option.some.injEq] at hv
          simp [NodeSnapshot.remaining, hstate, hunused, ← hv]
      | freezeFindings ht hstate | authorizeRepair ht hstate | repairCompleted ht _ hstate
      | closureCompleted ht hstate =>
          simp only [onceAt, ht, Option.some.injEq] at hv
          simp [NodeSnapshot.remaining, hstate, ← hv]
  | dispatch _ hmove =>
      cases hmove with
      | startImplementation ht _ _ hstate =>
          simp only [onceAt, ht, Option.some.injEq] at hv
          simp [NodeSnapshot.remaining, hstate, ← hv]
          omega
      | startReview ht hstate | startRepair ht _ hstate | revalidationPassed ht _ hstate =>
          simp only [onceAt, ht, Option.some.injEq] at hv
          simp [NodeSnapshot.remaining, hstate, ← hv]
  | fail _ hmove =>
      cases hmove with
      | validationFailed ht | revalidationFailed ht | publishFailed ht | failNode ht =>
          simp [onceAt, ht] at hv
      | closureFailed ht hstate =>
          simp only [onceAt, ht, Option.some.injEq] at hv
          simp [NodeSnapshot.remaining, NodeSnapshot.failed, hstate, ← hv]
  | publish _ hguard => simp [onceAt, hguard.eventType] at hv
  | confirm _ hguard => simp [onceAt, hguard.eventType] at hv

end Nodes

/-! ### Runs -/

section Runs

variable [Runtime] {spec : CampaignSpec} {history : List (Entry CampaignSnapshot Applied)}
  {s s' : CampaignSnapshot} {e : Event} {effects : List ExternalEffectIntent} {k : ℕ}

/-- The length of the required sequence of a specification. -/
def CampaignSpec.sequenceLength (spec : CampaignSpec) : ℕ :=
  (requiredSequence spec.publicationAuthority).length

theorem CampaignRun.inSequence (h : CampaignRun spec history s) :
    ∀ n ∈ s.nodes, InSequence spec.sequenceLength n := by
  intro n hn hpublishing
  have hinv := (publicationInv_run h).2 n hn
  have hpending : n.pendingPublicationEffect.isSome = true :=
    hinv.paired ▸ hinv.publishing hpublishing
  obtain ⟨effect, heffect⟩ := Option.isSome_iff_exists.mp hpending
  have hlength := hinv.sequence.length_le
  rw [heffect] at hlength
  simpa [CampaignSpec.sequenceLength] using hlength

/-- What an accepted event uses of each node. -/
theorem Accepted.uses (h : Accepted s e effects s') (hsequence : ∀ n ∈ s.nodes, InSequence k n) :
    List.Forall₂ (fun m m' => m'.nodeId = m.nodeId ∧ NodeStep s e effects m m' ∧ Uses k m m')
      s.nodes s'.nodes := by
  refine forall₂_of_keys (?_ : s'.nodes.map (·.nodeId) = s.nodes.map (·.nodeId)) s.nodes_nodup
    fun m' hm' => ?_
  · rw [s'.node_ids, s.node_ids, h.spec_eq]
  · obtain ⟨m, hm, hid, hstep⟩ := h.node_cases hm'
    exact ⟨m, hm, hid, hid.symm, hstep, hstep.uses (hsequence m hm)⟩

/-- The changes the nodes of a snapshot have left. -/
def CampaignSnapshot.remaining (k : ℕ) (s : CampaignSnapshot) : ℕ :=
  (s.nodes.map (·.remaining k)).sum

/-- The changes one node has left. -/
def CampaignSnapshot.remainingOf (k : ℕ) (nodeId : String) (s : CampaignSnapshot) : ℕ :=
  ((s.nodes.find? (·.nodeId == nodeId)).map (·.remaining k)).getD 0

/-- The accepted event changed the state of some node. -/
def changesState (t : Entry CampaignSnapshot Applied) : Bool :=
  t.after.nodes.map (·.state) ≠ t.before.nodes.map (·.state)

/-- The accepted event is of this type and names this node. -/
def isEventOf (eventType : EventType) (nodeId : String) (t : Entry CampaignSnapshot Applied) : Bool :=
  t.label.event.eventType = eventType ∧ t.label.event.nodeId = some nodeId

/-- The bound of a specification. -/
def CampaignSpec.lifecycleBound (spec : CampaignSpec) : ℕ :=
  spec.nodes.length * (2 * spec.sequenceLength + 15)

/-- The events that start the work of a phase or end it, of which a node sees each at most once. -/
def phaseEvents : List EventType :=
  [.admitNode, .startImplementation, .requestValidationCorrection, .startReview, .freezeFindings,
    .authorizeRepair, .startRepair, .repairCompleted, .revalidationPassed, .completeClosure]

/-- **A bounded lifecycle.** -/
structure BoundedLifecycle (spec : CampaignSpec) (history : List (Entry CampaignSnapshot Applied)) :
    Prop where
  changes : (history.filter changesState).length ≤ spec.lifecycleBound
  once : ∀ eventType ∈ phaseEvents, ∀ nodeId,
    (history.filter (isEventOf eventType nodeId)).length ≤ 1

theorem initial_remaining {s₀ : CampaignSnapshot} (h : CampaignSnapshot.initial spec = .ok s₀) :
    s₀.remaining spec.sequenceLength = spec.lifecycleBound := by
  obtain ⟨-, -, -, -, hnodes, -⟩ := initial_eq_ok h
  simp [CampaignSnapshot.remaining, hnodes, NodeSnapshot.remaining, CampaignSpec.lifecycleBound,
    Function.comp_def]

theorem Accepted.remaining_le (h : Accepted s e effects s')
    (hsequence : ∀ n ∈ s.nodes, InSequence k n) : s'.remaining k ≤ s.remaining k :=
  sum_le_of_forall₂ ((h.uses hsequence).imp fun _ _ huses => huses.2.2.1)

theorem Accepted.remaining_lt (h : Accepted s e effects s')
    (hsequence : ∀ n ∈ s.nodes, InSequence k n)
    (hchanged : s'.nodes.map (·.state) ≠ s.nodes.map (·.state)) : s'.remaining k < s.remaining k :=
  sum_lt_of_forall₂ ((h.uses hsequence).imp fun _ _ huses => huses.2.2) hchanged

/-- An event of a phase names a node of the snapshot. -/
theorem Accepted.phase_node (h : Accepted s e effects s') {v : ℕ}
    (hv : onceAt k e.eventType = some v) : ∃ m ∈ s.nodes, e.nodeId = some m.nodeId := by
  obtain ⟨s₁, hstep, -⟩ := h.step
  cases hstep with
  | control hmove => cases hmove <;> rename_i ht _ <;> simp [onceAt, ht] at hv
  | advanceAuthority ht | cancel ht | consumeBudget ht => simp [onceAt, ht] at hv
  | admitted _ _ hn => exact ⟨_, hn.mem, hn.nodeId⟩
  | move hn => exact ⟨_, hn.mem, hn.nodeId⟩
  | dispatch hn => exact ⟨_, hn.mem, hn.nodeId⟩
  | fail hn => exact ⟨_, hn.mem, hn.nodeId⟩
  | publish hn => exact ⟨_, hn.mem, hn.nodeId⟩
  | confirm hn => exact ⟨_, hn.mem, hn.nodeId⟩

/-- One node, in a step: what it has left does not grow, and an event that happens to it once finds it
at the value of that event. -/
theorem Accepted.remainingOf (h : Accepted s e effects s')
    (hsequence : ∀ n ∈ s.nodes, InSequence k n) (nodeId : String) :
    s'.remainingOf k nodeId ≤ s.remainingOf k nodeId ∧
      ∀ v, onceAt k e.eventType = some v → e.nodeId = some nodeId →
        s.remainingOf k nodeId = v ∧ s'.remainingOf k nodeId < v := by
  rcases find?_of_forall₂ (h.uses hsequence) nodeId with ⟨hnone, hnone'⟩ | ⟨m, m', hm, hm', hstep, huses⟩
  · rw [CampaignSnapshot.remainingOf, CampaignSnapshot.remainingOf, hnone, hnone']
    refine ⟨le_rfl, fun v hv hname => ?_⟩
    obtain ⟨m, hm, hid⟩ := h.phase_node hv
    rw [hname, Option.some.injEq] at hid
    have habsent := List.find?_eq_none.mp hnone m hm
    simp [hid] at habsent
  · have hid : m.nodeId = nodeId := by simpa using List.find?_some hm
    rw [CampaignSnapshot.remainingOf, CampaignSnapshot.remainingOf, hm, hm']
    refine ⟨huses.1, fun v hv hname => ?_⟩
    exact hstep.once (hid ▸ hname) hv

/-- **Every lifecycle is bounded**, by a number the specification gives. -/
theorem bounded_lifecycle (h : CampaignRun spec history s) : BoundedLifecycle spec history := by
  obtain ⟨s₀, hinit, hrun⟩ := h
  have hsequence : ∀ {s : CampaignSnapshot}, Reachable reduceStep s₀ s →
      ∀ n ∈ s.nodes, InSequence spec.sequenceLength n := by
    rintro s ⟨history, hreached⟩
    exact CampaignRun.inSequence ⟨s₀, hinit, hreached⟩
  constructor
  · have hcount := hrun.count_le (·.remaining spec.sequenceLength) changesState
      (fun hreached hstep => (reduce_accepted hstep).remaining_le (hsequence hreached))
      (fun hreached hstep hchanged =>
        (reduce_accepted hstep).remaining_lt (hsequence hreached) (by simpa [changesState] using hchanged))
    rw [initial_remaining hinit] at hcount
    omega
  · intro eventType htype nodeId
    obtain ⟨v, hv⟩ : ∃ v, onceAt spec.sequenceLength eventType = some v := by
      simp only [phaseEvents, List.mem_cons, List.not_mem_nil, or_false] at htype
      rcases htype with rfl | rfl | rfl | rfl | rfl | rfl | rfl | rfl | rfl | rfl <;> exact ⟨_, rfl⟩
    refine hrun.at_most_once (·.remainingOf spec.sequenceLength nodeId) _ v
      (fun hreached hstep => ((reduce_accepted hstep).remainingOf (hsequence hreached) nodeId).1)
      fun hreached hstep hevent => ?_
    simp only [isEventOf, decide_eq_true_eq] at hevent
    exact ((reduce_accepted hstep).remainingOf (hsequence hreached) nodeId).2 v (hevent.1 ▸ hv) hevent.2

end Runs

open Sample in
theorem bounded_lifecycle_sample : BoundedLifecycle spec run.1 := bounded_lifecycle campaignRun

end CodingOS.Campaign
