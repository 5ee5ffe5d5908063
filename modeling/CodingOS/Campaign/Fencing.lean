import CodingOS.Campaign.Lifecycle
import CodingOS.Systems.Fence

/-!
# Fencing

The lease of a node as a fenced lease of `LeaseOp`: `ACQUIRE_LEASE` grants it, and a release, an
authority advance, a failure or a cancellation ends it.  In an automated campaign the node holds
exactly what its history grants, so every fenced event was submitted by the holder under its fence,
and a worker whose lease was replaced or ended is refused from then on.

Events outside `_FENCED_EVENTS` carry no proof of a lease, and the reducer does not read their actor
and fence: `stale_unfenced_event` is an example.
-/

namespace CodingOS.Campaign

open CodingOS.Python Systems

section Fencing

variable [Runtime]

/-- What an accepted event does to the lease of node `k`. -/
def leaseOp (k : String) (t : Entry CampaignSnapshot Applied) : LeaseOp String ℕ :=
  let event := t.label.event
  if t.after.state = .failed ∨ t.after.state = .cancelled then .finish
  else if event.eventType = .advanceAuthority then .finish
  else if event.eventType = .releaseLease ∧ event.nodeId = some k then .finish
  else if event.eventType = .acquireLease ∧ event.nodeId = some k then
    .grant (event.actorId.getD "") (event.fencingEpoch.getD 0)
  else .skip

/-- Who holds node `k` at the end of a history. -/
def holderOf (k : String) (history : List (Entry CampaignSnapshot Applied)) :
    Option (String × ℕ) := LeaseOp.holder (history.map (leaseOp k))

/-- The leases granted on node `k`, in order. -/
def grantsOf (k : String) (history : List (Entry CampaignSnapshot Applied)) :
    List (String × ℕ) := LeaseOp.grants (history.map (leaseOp k))

/-- The lease a node records. -/
def NodeSnapshot.lease (n : NodeSnapshot) : Option (String × ℕ) :=
  n.leaseActorId.map fun actor => (actor, n.fencingEpoch)

/-! ### One step -/

variable {s s' : CampaignSnapshot} {e : Event} {effects : List ExternalEffectIntent}
  {n n' m m' : NodeSnapshot} {history : List (Entry CampaignSnapshot Applied)} {k : String}

/-- No event lowers a fence. -/
theorem NodeStep.fence_le (h : NodeStep s e effects m m') : m.fencingEpoch ≤ m'.fencingEpoch := by
  cases h with
  | same | unlease | admitted | publish | confirm => exact le_rfl
  | cancel =>
      unfold cancelNode
      split <;> exact le_rfl
  | move _ hmove =>
      cases hmove with
      | acquireLease _ _ _ _ _ _ _ hfence => exact hfence.le
      | _ => exact le_rfl
  | dispatch _ hmove => cases hmove <;> exact le_rfl
  | fail _ hmove => cases hmove <;> exact Nat.le_succ _

/-- The lease operation of an event that ends no lease and grants none. -/
theorem leaseOp_skip (hstate : s'.state ≠ .failed ∧ s'.state ≠ .cancelled)
    (ht : e.eventType ≠ .advanceAuthority)
    (hother : (e.eventType ≠ .releaseLease ∧ e.eventType ≠ .acquireLease) ∨ e.nodeId ≠ some k) :
    leaseOp k ⟨s, ⟨e, effects⟩, s'⟩ = .skip := by
  unfold leaseOp
  have hrelease : ¬(e.eventType = .releaseLease ∧ e.nodeId = some k) := by
    rintro ⟨htype, hk⟩
    exact hother.elim (fun h => h.1 htype) fun h => h hk
  have hacquire : ¬(e.eventType = .acquireLease ∧ e.nodeId = some k) := by
    rintro ⟨htype, hk⟩
    exact hother.elim (fun h => h.2 htype) fun h => h hk
  rw [if_neg (by simp [hstate]), if_neg ht, if_neg hrelease, if_neg hacquire]

/-- The lease of the node a move names follows its history, and that of the others stays. -/
theorem NodeMove.lease (hn : Names s e n) (h : NodeMove s e n n')
    (hstate : s'.state ≠ .failed ∧ s'.state ≠ .cancelled) :
    n'.lease = LeaseOp.apply n.lease (leaseOp n.nodeId ⟨s, ⟨e, effects⟩, s'⟩) := by
  cases h with
  | acquireLease ht _ _ _ hactor _ hfence =>
      simp [leaseOp, hstate, ht, hn.nodeId, hactor, hfence, LeaseOp.apply, NodeSnapshot.lease]
  | releaseLease ht =>
      simp [leaseOp, hstate, ht, hn.nodeId, LeaseOp.apply, NodeSnapshot.lease]
  | implementationCompleted ht | requestCorrection ht | validationPassed ht | freezeFindings ht
  | markReady ht | authorizeRepair ht | repairCompleted ht | closureCompleted ht
  | authorizePublication ht =>
      rw [leaseOp_skip hstate (by simp [ht]) (.inl (by simp [ht]))]
      rfl

theorem DispatchMove.lease {role : String} (h : DispatchMove s e n role n')
    (hstate : s'.state ≠ .failed ∧ s'.state ≠ .cancelled) :
    n'.lease = LeaseOp.apply n.lease (leaseOp n.nodeId ⟨s, ⟨e, effects⟩, s'⟩) := by
  cases h with
  | startImplementation ht | startReview ht | startRepair ht | revalidationPassed ht =>
      rw [leaseOp_skip hstate (by simp [ht]) (.inl (by simp [ht]))]
      rfl

/-- The nodes of a step that replaces one of them: their leases follow `leaseOp`. -/
theorem lease_replace (n' : NodeSnapshot) (hn : Names s e n) (hid : n'.nodeId = n.nodeId)
    (hstate : s'.state ≠ .failed ∧ s'.state ≠ .cancelled) (ht : e.eventType ≠ .advanceAuthority)
    (hlease : n'.lease = LeaseOp.apply n.lease (leaseOp n.nodeId ⟨s, ⟨e, effects⟩, s'⟩))
    {r : CampaignSnapshot} (hnodes : r.nodes = (s.replaceNode n').nodes) (hm' : m' ∈ r.nodes) :
    ∃ m ∈ s.nodes, m.nodeId = m'.nodeId ∧
      m'.lease = LeaseOp.apply m.lease (leaseOp m.nodeId ⟨s, ⟨e, effects⟩, s'⟩) := by
  rw [hnodes] at hm'
  rcases CampaignSnapshot.mem_replaceNode hm' with rfl | ⟨hm, hne⟩
  · exact ⟨n, hn.mem, hid.symm, hlease⟩
  · refine ⟨m', hm, rfl, ?_⟩
    rw [leaseOp_skip hstate ht (.inr ?_)]
    · rfl
    · rw [hn.nodeId, ne_eq, Option.some.injEq]
      rw [hid] at hne
      exact Ne.symm hne

/-- **One step.**  While the campaign has not ended, the lease of every node follows `leaseOp`. -/
theorem Step.lease {s₁ : CampaignSnapshot} (h : Step s e s₁ effects) (hsame : s'.state = s₁.state)
    (hstate : s'.state ≠ .failed ∧ s'.state ≠ .cancelled) (hm' : m' ∈ s₁.nodes) :
    ∃ m ∈ s.nodes, m.nodeId = m'.nodeId ∧
      m'.lease = LeaseOp.apply m.lease (leaseOp m.nodeId ⟨s, ⟨e, effects⟩, s'⟩) := by
  cases h with
  | control hmove =>
      refine ⟨m', hm', rfl, ?_⟩
      rw [leaseOp_skip hstate (by cases hmove <;> simp [*]) (.inl (by cases hmove <;> simp [*]))]
      rfl
  | advanceAuthority ht =>
      obtain ⟨m, hm, rfl⟩ := List.mem_map.mp hm'
      exact ⟨m, hm, rfl, by simp [leaseOp, hstate, ht, LeaseOp.apply, NodeSnapshot.lease]⟩
  | cancel => exact absurd hsame hstate.2
  | consumeBudget ht _ hspend =>
      refine ⟨m', hspend.nodes_eq ▸ hm', rfl, ?_⟩
      rw [leaseOp_skip hstate (by simp [ht]) (.inl (by simp [ht]))]
      rfl
  | @admitted n _ startHead ht _ hn =>
      refine lease_replace { n with state := .admitted, startHead := some startHead } hn rfl hstate
        (by simp [ht]) ?_ rfl hm'
      rw [leaseOp_skip hstate (by simp [ht]) (.inl (by simp [ht]))]
      rfl
  | move hn hmove =>
      exact lease_replace _ hn hmove.nodeId_eq hstate (by cases hmove <;> simp [*])
        (hmove.lease hn hstate) rfl hm'
  | dispatch hn hmove hdispatch =>
      exact lease_replace _ hn hmove.nodeId_eq hstate (by cases hmove <;> simp [*])
        (hmove.lease hstate) (replaceNode_nodes_congr (dispatchEffect_nodes hdispatch)) hm'
  | fail => exact absurd hsame hstate.1
  | @publish n kind _ operationId _ _ hn _ hspend hguard =>
      refine lease_replace (n.publishing kind operationId) hn rfl hstate
        (by simp [hguard.eventType]) ?_
        (replaceNode_nodes_congr (consumeAutomated_maySpend hspend).nodes_eq) hm'
      rw [leaseOp_skip hstate (by simp [hguard.eventType]) (.inl (by simp [hguard.eventType]))]
      rfl
  | @confirm n effect operationId complete hn hguard =>
      refine lease_replace (n.confirmed effect operationId complete) hn rfl hstate
        (by simp [hguard.eventType]) ?_ rfl hm'
      rw [leaseOp_skip hstate (by simp [hguard.eventType]) (.inl (by simp [hguard.eventType]))]
      rfl

/-- `ACQUIRE_LEASE` takes a fence beyond that of its node, which the node takes over. -/
theorem Accepted.acquire (h : Accepted s e effects s') (ht : e.eventType = .acquireLease) :
    ∃ n actor fence, Names s e n ∧ e.actorId = some actor ∧ e.fencingEpoch = some fence ∧
      n.fencingEpoch < fence ∧ ∀ m ∈ s'.nodes, m.nodeId = n.nodeId → m.fencingEpoch = fence := by
  obtain ⟨s₁, hstep, rfl⟩ := h.step
  cases hstep with
  | control hmove => cases hmove <;> simp [ht] at *
  | advanceAuthority ht' | cancel ht' | consumeBudget ht' | admitted ht' => simp [ht] at ht'
  | dispatch _ hmove => cases hmove <;> simp [ht] at *
  | fail _ hmove => cases hmove <;> simp [ht] at *
  | publish _ _ _ hguard =>
      have hne := hguard.eventType
      simp [ht] at hne
  | confirm _ hguard =>
      have hne := hguard.eventType
      simp [ht] at hne
  | @move n _ hn hmove =>
      cases hmove with
      | acquireLease _ _ _ _ hactor _ hfence hlt =>
          refine ⟨n, _, _, hn, hactor, hfence, hlt, fun m hm hid => ?_⟩
          rcases CampaignSnapshot.mem_replaceNode hm with rfl | ⟨-, hne⟩
          · rfl
          · exact absurd hid hne
      | _ => simp [ht] at *

theorem eventType_of_grant {t : Entry CampaignSnapshot Applied} {actor : String} {fence : ℕ}
    (hgrant : leaseOp k t = .grant actor fence) :
    t.label.event.eventType = .acquireLease ∧ t.label.event.nodeId = some k ∧
      t.label.event.actorId.getD "" = actor ∧ t.label.event.fencingEpoch.getD 0 = fence := by
  simp only [leaseOp] at hgrant
  split at hgrant
  · cases hgrant
  split at hgrant
  · cases hgrant
  split at hgrant
  · cases hgrant
  split at hgrant
  · next htype =>
      obtain ⟨hactor, hfence⟩ := LeaseOp.grant.inj hgrant
      exact ⟨htype.1, htype.2, hactor, hfence⟩
  · cases hgrant

/-- A lease that is granted has a fence beyond that of its node, which takes it over. -/
theorem Accepted.grant {actor : String} {fence : ℕ} (h : Accepted s e effects s')
    (hgrant : leaseOp k ⟨s, ⟨e, effects⟩, s'⟩ = .grant actor fence) :
    (∃ n ∈ s.nodes, n.nodeId = k ∧ n.fencingEpoch < fence) ∧
      ∀ m ∈ s'.nodes, m.nodeId = k → m.fencingEpoch = fence := by
  obtain ⟨ht, hk, -, rfl⟩ := eventType_of_grant hgrant
  obtain ⟨n, actor', fence', hn, -, hfence, hlt, hset⟩ := h.acquire ht
  obtain rfl : n.nodeId = k := Option.some.inj (hn.nodeId.symm.trans hk)
  rw [hfence]
  exact ⟨⟨n, hn.mem, rfl, hlt⟩, hset⟩

/-! ### Every run -/

/-- The lease of a node against its history. -/
structure LeaseInv (s : CampaignSnapshot) (history : List (Entry CampaignSnapshot Applied))
    (n : NodeSnapshot) : Prop where
  holder : s.state ∉ terminalCampaignStates → holderOf n.nodeId history = n.lease
  bounded : ∀ g ∈ grantsOf n.nodeId history, g.2 ≤ n.fencingEpoch
  increasing : (grantsOf n.nodeId history).Pairwise fun g g' => g.2 < g'.2

theorem holderOf_snoc {t : Entry CampaignSnapshot Applied} :
    holderOf k (history ++ [t]) = LeaseOp.apply (holderOf k history) (leaseOp k t) := by
  rw [holderOf, List.map_append, List.map_singleton, LeaseOp.holder_snoc, ← holderOf]

theorem grantsOf_snoc {t : Entry CampaignSnapshot Applied} :
    grantsOf k (history ++ [t]) = grantsOf k history ++ (leaseOp k t).granted.toList := by
  rw [grantsOf, List.map_append, List.map_singleton, LeaseOp.grants_snoc, ← grantsOf]

/-- **Every accepted event keeps the lease of every node to its history.** -/
theorem Accepted.leaseInv (h : Accepted s e effects s')
    (ih : ∀ m ∈ s.nodes, LeaseInv s history m) (hm' : m' ∈ s'.nodes) :
    LeaseInv s' (history ++ [⟨s, ⟨e, effects⟩, s'⟩]) m' := by
  obtain ⟨m, hm, hid, hstep⟩ := h.node_cases hm'
  have hinv := ih m hm
  refine ⟨fun hlive' => ?_, fun g hg => ?_, ?_⟩
  · rw [holderOf_snoc]
    obtain ⟨s₁, hbranch, hs'⟩ := h.step
    have hopen : s'.state ≠ .failed ∧ s'.state ≠ .cancelled := by
      constructor <;>
      · intro hstate
        rw [hstate] at hlive'
        exact hlive' (by decide)
    obtain ⟨m₁, hm₁, hid₁, hlease⟩ := hbranch.lease
      (by rw [hs'] : s'.state = s₁.state) hopen
      (show m' ∈ s₁.nodes by rw [hs'] at hm'; exact hm')
    obtain rfl := CampaignSnapshot.node_unique hm hm₁ (hid₁.trans hid.symm)
    rw [hlease, ← hid, hinv.holder h.live]
  · rw [grantsOf_snoc, List.mem_append] at hg
    rcases hg with hg | hg
    · rw [← hid] at hg
      exact (hinv.bounded g hg).trans hstep.fence_le
    · cases hop : leaseOp m'.nodeId ⟨s, ⟨e, effects⟩, s'⟩ with
      | grant actor fence =>
          obtain ⟨-, hset⟩ := h.grant hop
          rw [hop, LeaseOp.granted, Option.toList_some, List.mem_singleton] at hg
          rw [hg, hset m' hm' rfl]
      | finish | skip => simp [hop, LeaseOp.granted] at hg
  · rw [grantsOf_snoc, ← hid, List.pairwise_append]
    refine ⟨hinv.increasing, ?_, fun g hg g' hg' => ?_⟩
    · cases (leaseOp m.nodeId ⟨s, ⟨e, effects⟩, s'⟩).granted <;> simp
    · cases hop : leaseOp m.nodeId ⟨s, ⟨e, effects⟩, s'⟩ with
      | grant actor fence =>
          obtain ⟨⟨n, hn, hnid, hlt⟩, -⟩ := h.grant hop
          obtain rfl := CampaignSnapshot.node_unique hm hn hnid
          rw [hop, LeaseOp.granted, Option.toList_some, List.mem_singleton] at hg'
          rw [hg']
          exact (hinv.bounded g hg).trans_lt hlt
      | finish | skip => simp [hop, LeaseOp.granted] at hg'

theorem leaseInv_run {spec : CampaignSpec} (h : CampaignRun spec history s) :
    ∀ m ∈ s.nodes, LeaseInv s history m := by
  obtain ⟨s₀, hinit, hrun⟩ := h
  induction hrun with
  | start =>
      intro m hm
      refine ⟨fun _ => ?_, fun g hg => ?_, .nil⟩
      · rw [initial_node hinit hm]
        rfl
      · cases hg
  | snoc _ hstep ih => exact fun m' hm' => (reduce_accepted hstep).leaseInv ih hm'

/-! ### The law -/

/-- The events whose branch compares the actor and the fence with the node. -/
def leasedEvents : List EventType := fencedEvents ++ [.acquireLease, .releaseLease]

/-- A fence check that passed in an automated campaign names the lease of the node. -/
theorem checkFence_lease (hmode : s.spec.mode = .automated) (ht : e.eventType ∈ fencedEvents)
    (h : checkFence s e n = .ok ()) :
    ∃ actor, n.lease = some (actor, n.fencingEpoch) ∧ e.actorId = some actor ∧
      e.fencingEpoch = some n.fencingEpoch := by
  have hfenced : fencedEvents.contains e.eventType = true := by simpa using ht
  unfold checkFence at h
  rw [hfenced] at h
  split at h
  · next hfalse => cases hfalse
  split at h
  · next hmanual => simp [hmode] at hmanual
  · simp only [bind_eq_ok, check_eq_ok, exists_const, beq_iff_eq] at h
    obtain ⟨hleased, hactor, hfence⟩ := h
    obtain ⟨actor, hlease⟩ := Option.isSome_iff_exists.mp hleased
    exact ⟨actor, by rw [NodeSnapshot.lease, hlease]; rfl, hactor.trans hlease, hfence⟩

/-- Every fenced event that is accepted passed the fence check of the node it names. -/
theorem Accepted.fenced (h : Accepted s e effects s') (ht : e.eventType ∈ fencedEvents) :
    ∃ n, Names s e n ∧ checkFence s e n = .ok () := by
  obtain ⟨s₁, hstep, rfl⟩ := h.step
  cases hstep with
  | control hmove => cases hmove <;> simp_all [fencedEvents]
  | advanceAuthority ht' | cancel ht' | consumeBudget ht' | admitted ht' =>
      simp [ht', fencedEvents] at ht
  | move hn hmove =>
      cases hmove with
      | implementationCompleted _ hfence | requestCorrection _ hfence | validationPassed _ hfence
      | repairCompleted _ hfence => exact ⟨_, hn, hfence⟩
      | acquireLease ht' | releaseLease ht' | freezeFindings ht' | markReady ht'
      | authorizeRepair ht' | closureCompleted ht' | authorizePublication ht' =>
          simp [ht', fencedEvents] at ht
  | dispatch hn hmove =>
      cases hmove with
      | startImplementation _ _ hfence | startRepair _ hfence | revalidationPassed _ hfence =>
          exact ⟨_, hn, hfence⟩
      | startReview ht' => simp [ht', fencedEvents] at ht
  | fail hn hmove =>
      cases hmove with
      | validationFailed _ hfence | revalidationFailed _ hfence => exact ⟨_, hn, hfence⟩
      | closureFailed ht' | publishFailed ht' | failNode ht' => simp [ht', fencedEvents] at ht
  | publish _ _ _ hguard => simp [hguard.eventType, fencedEvents] at ht
  | confirm _ hguard => simp [hguard.eventType, fencedEvents] at ht

/-- A release that is accepted names the lease of its node. -/
theorem Accepted.release (h : Accepted s e effects s') (ht : e.eventType = .releaseLease) :
    ∃ n actor, Names s e n ∧ n.lease = some (actor, n.fencingEpoch) ∧ e.actorId = some actor ∧
      e.fencingEpoch = some n.fencingEpoch := by
  obtain ⟨s₁, hstep, rfl⟩ := h.step
  cases hstep with
  | control hmove => cases hmove <;> simp [ht] at *
  | advanceAuthority ht' | cancel ht' | consumeBudget ht' | admitted ht' => simp [ht] at ht'
  | dispatch _ hmove => cases hmove <;> simp [ht] at *
  | fail _ hmove => cases hmove <;> simp [ht] at *
  | publish _ _ _ hguard =>
      have hne := hguard.eventType
      simp [ht] at hne
  | confirm _ hguard =>
      have hne := hguard.eventType
      simp [ht] at hne
  | @move n _ hn hmove =>
      cases hmove with
      | releaseLease _ hleased hactor hfence =>
          obtain ⟨actor, hlease⟩ := Option.ne_none_iff_exists'.mp hleased
          exact ⟨n, actor, hn, by rw [NodeSnapshot.lease, hlease]; rfl, hactor.trans hlease, hfence⟩
      | _ => simp [ht] at *

/-- **The fencing law** of one node over a run. -/
structure FencingLaw (history : List (Entry CampaignSnapshot Applied)) (k : String) : Prop where
  /-- A fenced event carries the lease that is held. -/
  exact_lease : ∀ earlier t later, history = earlier ++ t :: later →
    t.label.event.eventType ∈ fencedEvents → t.label.event.nodeId = some k →
    ∃ actor fence, holderOf k earlier = some (actor, fence) ∧
      t.label.event.actorId = some actor ∧ t.label.event.fencingEpoch = some fence
  /-- The fences granted increase. -/
  increasing : (grantsOf k history).Pairwise fun g g' => g.2 < g'.2
  /-- Once a lease was followed by another one, or by an authority advance, no event that is compared
  with the lease is accepted under it. -/
  stale : ∀ earlier granted middle t later actor fence,
    history = earlier ++ granted :: (middle ++ t :: later) →
    leaseOp k granted = .grant actor fence →
    (∃ u ∈ middle, (leaseOp k u).granted.isSome ∨ u.label.event.eventType = .advanceAuthority) →
    t.label.event.eventType ∈ leasedEvents → t.label.event.nodeId = some k →
    ¬(t.label.event.actorId = some actor ∧ t.label.event.fencingEpoch = some fence)

/-- An event that is compared with the lease of its node, and accepted, carries the lease held. -/
theorem leased_entry {spec : CampaignSpec} {earlier later : List (Entry CampaignSnapshot Applied)}
    {t : Entry CampaignSnapshot Applied} (hmode : spec.mode = .automated)
    (h : CampaignRun spec (earlier ++ t :: later) s)
    (ht : t.label.event.eventType ∈ fencedEvents ∨ t.label.event.eventType = .releaseLease)
    (hk : t.label.event.nodeId = some k) :
    ∃ actor fence, holderOf k earlier = some (actor, fence) ∧
      t.label.event.actorId = some actor ∧ t.label.event.fencingEpoch = some fence := by
  obtain ⟨hearlier, haccepted⟩ := h.cut
  have hheld : ∃ n actor, Names t.before t.label.event n ∧
      n.lease = some (actor, n.fencingEpoch) ∧ t.label.event.actorId = some actor ∧
      t.label.event.fencingEpoch = some n.fencingEpoch := by
    rcases ht with ht | ht
    · obtain ⟨n, hn, hfence⟩ := haccepted.fenced ht
      obtain ⟨actor, hlease⟩ := checkFence_lease (by rw [hearlier.spec_eq, hmode]) ht hfence
      exact ⟨n, actor, hn, hlease⟩
    · exact haccepted.release ht
  obtain ⟨n, actor, hn, hlease, hactor, hfence⟩ := hheld
  obtain rfl : n.nodeId = k := Option.some.inj (hn.nodeId.symm.trans hk)
  refine ⟨actor, n.fencingEpoch, ?_, hactor, hfence⟩
  rw [(leaseInv_run hearlier n hn.mem).holder haccepted.live, hlease]

/-- The grants on any node of a run increase, on the nodes the specification does not have too. -/
theorem grants_increasing {spec : CampaignSpec} (h : CampaignRun spec history s) (k : String) :
    (grantsOf k history).Pairwise fun g g' => g.2 < g'.2 := by
  by_cases hk : ∃ n ∈ s.nodes, n.nodeId = k
  · obtain ⟨n, hn, rfl⟩ := hk
    exact (leaseInv_run h n hn).increasing
  · have hnone : grantsOf k history = [] := by
      rw [grantsOf, LeaseOp.grants, List.filterMap_eq_nil_iff]
      intro op hop
      obtain ⟨t, ht, rfl⟩ := List.mem_map.mp hop
      obtain ⟨earlier, later, rfl⟩ := List.append_of_mem ht
      cases hgrant : leaseOp k t with
      | grant actor fence =>
          obtain ⟨hearlier, haccepted⟩ := h.cut
          obtain ⟨⟨n, hn, hid, -⟩, -⟩ := haccepted.grant hgrant
          have hmem : k ∈ t.before.nodes.map NodeSnapshot.nodeId :=
            List.mem_map.mpr ⟨n, hn, hid⟩
          rw [t.before.node_ids, hearlier.spec_eq, ← h.spec_eq, ← s.node_ids] at hmem
          exact absurd (List.mem_map.mp hmem) hk
      | finish | skip => rfl
    rw [hnone]
    exact .nil

/-- **Fencing safety.** -/
theorem fencing_safety {spec : CampaignSpec} (hmode : spec.mode = .automated)
    (h : CampaignRun spec history s) (k : String) : FencingLaw history k where
  exact_lease := by
    rintro earlier t later rfl ht hk
    exact leased_entry hmode h (.inl ht) hk
  increasing := grants_increasing h k
  stale := by
    rintro earlier granted middle t later actor fence rfl hgrant ⟨u, hu, hlater⟩ ht hk
      ⟨hactor, hfence⟩
    have hsplit : earlier ++ granted :: (middle ++ t :: later)
        = (earlier ++ granted :: middle) ++ t :: later := by simp
    rw [hsplit] at h
    obtain ⟨hearlier, haccepted⟩ := h.cut
    have hops : ((earlier ++ granted :: middle).map (leaseOp k))
        = earlier.map (leaseOp k) ++ .grant actor fence :: middle.map (leaseOp k) := by
      rw [List.map_append, List.map_cons, hgrant]
    have hincreasing := grants_increasing hearlier k
    rw [grantsOf, hops] at hincreasing
    have hactive : ∃ op ∈ middle.map (leaseOp k), op ≠ .skip := by
      refine ⟨leaseOp k u, List.mem_map_of_mem hu, ?_⟩
      rcases hlater with hgranted | hadvance
      · intro hskip
        rw [hskip] at hgranted
        cases hgranted
      · simp only [leaseOp, hadvance]
        split <;> simp
    by_cases htype : t.label.event.eventType = .acquireLease
    · obtain ⟨n, actor', fence', hn, -, hfence', hlt, -⟩ := haccepted.acquire htype
      obtain rfl : n.nodeId = k := Option.some.inj (hn.nodeId.symm.trans hk)
      have hbounded := (leaseInv_run hearlier n hn.mem).bounded (actor, fence) (by
        rw [grantsOf, hops, LeaseOp.grants_append]
        simp [LeaseOp.grants, LeaseOp.granted])
      rw [hfence, Option.some.injEq] at hfence'
      omega
    · have hcompared : t.label.event.eventType ∈ fencedEvents ∨
          t.label.event.eventType = .releaseLease := by
        simpa [leasedEvents, htype] using ht
      obtain ⟨actor', fence', hholder, -, hfence'⟩ := leased_entry hmode h hcompared hk
      rw [holderOf, hops] at hholder
      have hlt := LeaseOp.holder_of_later hincreasing hactive hholder
      rw [hfence, Option.some.injEq] at hfence'
      omega

end Fencing

namespace Sample

/-- The sample campaign after its handover. -/
def handoverRun : List (Entry CampaignSnapshot Applied) × CampaignSnapshot :=
  (foldEvents start (candidateEvents ++ handoverEvents)).toOption.get (by decide +kernel)

theorem campaignRun_handover : CampaignRun spec handoverRun.1 handoverRun.2 :=
  ⟨start, initial_start, foldEvents_run (get_toOption _)⟩

end Sample

open Sample in
theorem fencing_safety_sample : FencingLaw handoverRun.1 "n" :=
  fencing_safety (by decide) campaignRun_handover "n"

open Sample in
/-- `a` held the node under fence 1 and `b` holds it under fence 2 when a review that carries the pair
of `a` is accepted. -/
theorem stale_unfenced_event :
    CampaignRun spec handoverRun.1 handoverRun.2 ∧ spec.mode = .automated ∧
      (handoverRun.1.map (leaseOp "n"))[3]? = some (.grant "a" 1) ∧
      (handoverRun.1.map (leaseOp "n"))[8]? = some (.grant "b" 2) ∧
      (handoverRun.1.map fun t =>
        (t.label.event.nodeId, t.label.event.actorId, t.label.event.fencingEpoch))[9]? =
        some (some "n", some "a", some 1) := by
  refine ⟨campaignRun_handover, by decide, ?_, ?_, ?_⟩ <;> decide +kernel

end CodingOS.Campaign
