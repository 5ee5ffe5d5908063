import CodingOS.Campaign.Run

/-!
# The review gate

No node reaches publication except through one implementation, one review, and — when the review
found a blocker — one repair and one closure that resolved it.

The counters and finding sets of a node are fixed by its state up to the gate (`ReviewInv`): every
`NodeStep` moves a node from one row of that table to another, and the two rows that lead to
`READY_TO_PUBLISH` are the clean review and the completed closure.
-/

namespace CodingOS.Campaign

open CodingOS.Python Systems

/-- An optional text that is there and not empty. -/
def Present (s : Option String) : Prop := ∃ t, s = some t ∧ t ≠ ""

/-- The candidate identity is recorded completely. -/
def CandidateRecorded (n : NodeSnapshot) : Prop :=
  Present n.candidateHead ∧ Present n.candidateTree ∧ Present n.candidateDiffDigest ∧
    Present n.candidateNodeDiffDigest

/-- The review was clean: nothing recorded blocks, and neither repair nor closure took place. -/
def CleanReview (n : NodeSnapshot) : Prop :=
  (∀ f ∈ n.findings ++ n.closureFindings, f.blocking = false) ∧
    n.repairAttempts = 0 ∧ n.closureGenerations = 0

/-- The review found a blocker, and one repair and one closure resolved every one of them. -/
def RepairedReview (n : NodeSnapshot) : Prop :=
  (∃ f ∈ n.findings, f.blocking = true) ∧ n.repairAttempts = 1 ∧ n.closureGenerations = 1 ∧
    (∀ f ∈ n.findings, f.blocking = true → f.findingId ∈ n.resolvedFindingIds) ∧
    ∀ f ∈ n.closureFindings, f.closureBlocking = false

/-- What a node has behind it when it may publish. -/
def ReviewGate (n : NodeSnapshot) : Prop :=
  n.implementationAttempts = 1 ∧ n.reviewGenerations = 1 ∧ Present n.startHead ∧
    CandidateRecorded n ∧ Xor (CleanReview n) (RepairedReview n)

/-! ### The table of states -/

/-- The counters of a node whose closure has not ended. -/
def Progress (n : NodeSnapshot) (implementation review repair closure : ℕ) : Prop :=
  n.implementationAttempts = implementation ∧ n.reviewGenerations = review ∧
    n.repairAttempts = repair ∧ n.closureGenerations = closure ∧ n.closureFindings = []

def HasBlocker (n : NodeSnapshot) : Prop := n.findings.any (·.blocking) = true

/-- The counters and finding sets of a node, state by state. -/
def ReviewInv (n : NodeSnapshot) : Prop :=
  match n.state with
  | .pending => Progress n 0 0 0 0 ∧ n.findings = []
  | .admitted => Progress n 0 0 0 0 ∧ n.findings = [] ∧ Present n.startHead
  | .implementing | .validating => Progress n 1 0 0 0 ∧ n.findings = [] ∧ Present n.startHead
  | .candidateFrozen =>
      Progress n 1 0 0 0 ∧ n.findings = [] ∧ Present n.startHead ∧ CandidateRecorded n
  | .checksAndReview =>
      Progress n 1 1 0 0 ∧ n.findings = [] ∧ Present n.startHead ∧ CandidateRecorded n
  | .findingsFrozen => Progress n 1 1 0 0 ∧ Present n.startHead ∧ CandidateRecorded n
  | .repairAuthorized =>
      Progress n 1 1 0 0 ∧ HasBlocker n ∧ Present n.startHead ∧ CandidateRecorded n
  | .repairing | .revalidating =>
      Progress n 1 1 1 0 ∧ HasBlocker n ∧ Present n.startHead ∧ CandidateRecorded n
  | .closure => Progress n 1 1 1 1 ∧ HasBlocker n ∧ Present n.startHead ∧ CandidateRecorded n
  | .readyToPublish | .publishing | .done => ReviewGate n
  | .failedExactNode | .cancelled => True

/-- A clean set of frozen findings opens the gate. -/
theorem gate_of_clean {n : NodeSnapshot} (hp : Progress n 1 1 0 0) (hs : Present n.startHead)
    (hc : CandidateRecorded n) (hclean : n.findings.any (·.blocking) = false) : ReviewGate n := by
  obtain ⟨himpl, hreview, hrepair, hclosure, hopen⟩ := hp
  have hnone : ∀ f ∈ n.findings, f.blocking = false := by simpa using hclean
  refine ⟨himpl, hreview, hs, hc, .inl ⟨⟨?_, hrepair, hclosure⟩, ?_⟩⟩
  · rwa [hopen, List.append_nil]
  · rintro ⟨⟨f, hf, hblocking⟩, -⟩
    rw [hnone f hf] at hblocking
    exact Bool.noConfusion hblocking

/-- A closure that resolved every blocker and observed no new one opens the gate. -/
theorem gate_of_closure {n : NodeSnapshot} {newFindings : List Finding} {resolved : List String}
    (hp : Progress n 1 1 1 1) (hb : HasBlocker n) (hs : Present n.startHead)
    (hc : CandidateRecorded n) (hresolved : ∀ id ∈ n.blockerIds, id ∈ resolved)
    (hnew : ∀ f ∈ newFindings, f.closureBlocking = false) :
    ReviewGate { n with
      closureFindings := newFindings
      resolvedFindingIds := resolved
      state := .readyToPublish } := by
  obtain ⟨himpl, hreview, hrepair, hclosure, -⟩ := hp
  obtain ⟨f, hf, hblocking⟩ := List.any_eq_true.mp hb
  refine ⟨himpl, hreview, hs, hc, .inr ⟨⟨⟨f, hf, hblocking⟩, hrepair, hclosure, ?_, hnew⟩, ?_⟩⟩
  · intro g hg hgb
    exact hresolved _ (List.mem_map_of_mem (List.mem_filter.mpr ⟨hg, hgb⟩))
  · rintro ⟨hnone, -⟩
    rw [hnone f (List.mem_append_left _ hf)] at hblocking
    exact Bool.noConfusion hblocking

theorem candidateRecorded_of_complete {n : NodeSnapshot} {c : CandidateIdentity}
    (h : c.complete = true) : CandidateRecorded (n.freezeCandidate c) := by
  simp only [CandidateIdentity.complete, Bool.and_eq_true, bne_iff_ne] at h
  obtain ⟨⟨⟨hhead, htree⟩, hdiff⟩, hnode⟩ := h
  exact ⟨⟨_, rfl, hhead⟩, ⟨_, rfl, htree⟩, ⟨_, rfl, hdiff⟩, ⟨_, rfl, hnode⟩⟩

/-- The states from which a node may publish, or has. -/
def publicationStates : List NodeState := [.readyToPublish, .publishing, .done]

theorem ReviewInv.gate {n : NodeSnapshot} (h : ReviewInv n) (hstate : n.state ∈ publicationStates) :
    ReviewGate n := by
  simp only [publicationStates, List.mem_cons, List.not_mem_nil, or_false] at hstate
  obtain hstate | hstate | hstate := hstate <;> rwa [ReviewInv, hstate] at h

section Runs

variable [Runtime]

/-! ### The table is kept -/

section Keep

variable {s : CampaignSnapshot} {e : Event} {effects : List ExternalEffectIntent}
  {m m' : NodeSnapshot}

theorem ReviewInv.move (h : ReviewInv m) (hmove : NodeMove s e m m') : ReviewInv m' := by
  cases hmove with
  | acquireLease | releaseLease => exact h
  | implementationCompleted _ _ hstate =>
      rw [ReviewInv, hstate] at h
      exact h
  | requestCorrection _ _ _ hstate =>
      rw [ReviewInv, hstate] at h
      exact h
  | validationPassed _ _ hstate hcomplete =>
      rw [ReviewInv, hstate] at h
      exact ⟨h.1, h.2.1, h.2.2, candidateRecorded_of_complete (n := m) hcomplete⟩
  | freezeFindings _ hstate =>
      rw [ReviewInv, hstate] at h
      exact ⟨h.1, h.2.2⟩
  | markReady _ hstate hclean =>
      rw [ReviewInv, hstate] at h
      exact gate_of_clean h.1 h.2.1 h.2.2 hclean
  | authorizeRepair _ hstate hblocking =>
      rw [ReviewInv, hstate] at h
      exact ⟨h.1, hblocking, h.2⟩
  | repairCompleted _ _ hstate =>
      rw [ReviewInv, hstate] at h
      exact h
  | closureCompleted _ hstate _ _ _ _ hresolved hnew =>
      rw [ReviewInv, hstate] at h
      exact gate_of_closure h.1 h.2.1 h.2.2.1 h.2.2.2 hresolved hnew
  | authorizePublication _ _ hstate =>
      rw [ReviewInv, hstate] at h
      rw [ReviewInv, hstate]
      exact h

theorem ReviewInv.dispatch {role : String} (h : ReviewInv m) (hmove : DispatchMove s e m role m') :
    ReviewInv m' := by
  cases hmove with
  | startImplementation _ _ _ hstate =>
      rw [ReviewInv, hstate] at h
      obtain ⟨⟨-, hreview, hrepair, hclosure, hopen⟩, hrest⟩ := h
      exact ⟨⟨rfl, hreview, hrepair, hclosure, hopen⟩, hrest⟩
  | startReview _ hstate =>
      rw [ReviewInv, hstate] at h
      obtain ⟨⟨himpl, -, hrepair, hclosure, hopen⟩, hrest⟩ := h
      exact ⟨⟨himpl, rfl, hrepair, hclosure, hopen⟩, hrest⟩
  | startRepair _ _ hstate =>
      rw [ReviewInv, hstate] at h
      obtain ⟨⟨himpl, hreview, -, hclosure, hopen⟩, hrest⟩ := h
      exact ⟨⟨himpl, hreview, rfl, hclosure, hopen⟩, hrest⟩
  | revalidationPassed _ _ hstate _ hcomplete =>
      rw [ReviewInv, hstate] at h
      obtain ⟨⟨himpl, hreview, hrepair, -, hopen⟩, hblocker, hstart, -⟩ := h
      exact ⟨⟨himpl, hreview, hrepair, rfl, hopen⟩, hblocker, hstart,
        candidateRecorded_of_complete (n := m) hcomplete⟩

/-- **Step lemma.**  Whatever an accepted event does to a node keeps the table. -/
theorem ReviewInv.step (h : ReviewInv m) (hstep : NodeStep s e effects m m') : ReviewInv m' := by
  cases hstep with
  | same => exact h
  | unlease => exact h
  | cancel =>
      unfold cancelNode
      split
      · exact h
      · trivial
  | admitted _ _ hstate hhex =>
      rw [ReviewInv, hstate] at h
      refine ⟨h.1, h.2, _, rfl, ?_⟩
      rintro rfl
      exact absurd hhex (by decide)
  | move _ hmove => exact h.move hmove
  | dispatch _ hmove => exact h.dispatch hmove
  | fail => trivial
  | publish _ hguard =>
      rw [ReviewInv, hguard.ready] at h
      exact h
  | @confirm _ _ complete _ hguard =>
      rw [ReviewInv, hguard.publishing] at h
      cases complete with
      | true => exact h
      | false => exact h

end Keep

/-! ### Every run -/

theorem reviewInv_run {spec : CampaignSpec} {history : List (Entry CampaignSnapshot Applied)}
    {s : CampaignSnapshot} (h : CampaignRun spec history s) : ∀ n ∈ s.nodes, ReviewInv n :=
  h.node_invariant (fun _ => ⟨⟨rfl, rfl, rfl, rfl, rfl⟩, rfl⟩) ReviewInv.step

/-- An external intent is emitted only by `START_PUBLISH`, for a node that is now publishing. -/
theorem Accepted.external_intent {s s' : CampaignSnapshot} {e : Event}
    {effects : List ExternalEffectIntent} {i : ExternalEffectIntent} (h : Accepted s e effects s')
    (hi : i ∈ effects) (hext : i.external = true) :
    (∃ n ∈ s'.nodes, i.nodeId = some n.nodeId) ∧
      ∀ n ∈ s'.nodes, i.nodeId = some n.nodeId → n.state = .publishing := by
  obtain ⟨s₁, hstep, rfl⟩ := h.step
  cases hstep with
  | control | advanceAuthority | consumeBudget | admitted | move | fail | confirm =>
      exact absurd hi List.not_mem_nil
  | cancel _ hinternal =>
      rw [hinternal i hi] at hext
      exact Bool.noConfusion hext
  | dispatch _ _ hdispatch =>
      obtain ⟨_, -, -, hinternal⟩ := dispatchEffect_eq_ok hdispatch
      rw [hinternal i hi] at hext
      exact Bool.noConfusion hext
  | @publish n kind _ operationId s₂ intent hn _ hspend hguard =>
      obtain rfl := List.mem_singleton.mp hi
      have hnode : i.nodeId = some n.nodeId := hguard.identity.2.2.1.trans hn.nodeId
      have hmem : n ∈ s₂.nodes := (consumeAutomated_maySpend hspend).nodes_eq ▸ hn.mem
      refine ⟨⟨n.publishing kind operationId, List.mem_map.mpr ⟨n, hmem, if_pos rfl⟩, hnode⟩, ?_⟩
      intro m hm hid
      obtain rfl | ⟨-, hne⟩ := CampaignSnapshot.mem_replaceNode hm
      · rfl
      · rw [hnode, Option.some.injEq] at hid
        exact absurd hid.symm hne

/-- **The review gate.**  In every snapshot a run reaches, a node that may publish or has published
went through the gate, and so did the node of every external intent the last event emitted. -/
theorem publication_requires_review {spec : CampaignSpec}
    {history : List (Entry CampaignSnapshot Applied)} {s : CampaignSnapshot}
    (h : CampaignRun spec history s) :
    (∀ n ∈ s.nodes, n.state ∈ publicationStates → ReviewGate n) ∧
      ∀ last, history.getLast? = some last → ∀ i ∈ last.label.effects, i.external = true →
        (∃ n ∈ s.nodes, i.nodeId = some n.nodeId) ∧
          ∀ n ∈ s.nodes, i.nodeId = some n.nodeId → ReviewGate n := by
  have hinv := reviewInv_run h
  refine ⟨fun n hn hstate => (hinv n hn).gate hstate, ?_⟩
  intro last hlast i hi hext
  obtain ⟨s₀, -, hrun⟩ := h
  obtain ⟨earlier, rfl⟩ := List.getLast?_eq_some_iff.mp hlast
  obtain ⟨-, hstep, rfl⟩ := hrun.last
  obtain ⟨hexists, hall⟩ := (reduce_accepted hstep).external_intent hi hext
  refine ⟨hexists, fun n hn hid => (hinv n hn).gate ?_⟩
  rw [hall n hn hid]
  simp [publicationStates]

end Runs

open Sample in
/-- The sample run ends with a publishing node behind the gate. -/
theorem publication_requires_review_sample :
    ∃ n ∈ run.2.nodes, n.state = .publishing ∧ ReviewGate n := by
  obtain ⟨n, hn, hstate⟩ : ∃ n ∈ run.2.nodes, n.state = .publishing := by decide +kernel
  exact ⟨n, hn, hstate,
    (publication_requires_review campaignRun).1 n hn (by rw [hstate]; simp [publicationStates])⟩

end CodingOS.Campaign
