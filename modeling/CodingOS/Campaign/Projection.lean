import CodingOS.Campaign.Lifecycle

/-!
# What a snapshot is stored as

The store keeps a snapshot as JSON and as rows of nodes and findings.  Two facts about reached
snapshots make this faithful: no optional text of a live snapshot is the empty text, which `from_dict`
would read back as `None`, so reloading changes nothing; and the findings of a node are told apart by
identifier and origin, which is the key of their table.
-/

namespace CodingOS.Campaign

open CodingOS.Python Systems

/-- Findings of one phase: the identifiers are distinct and the origin is that of the phase. -/
structure OfPhase (origin : FindingOrigin) (findings : List Finding) : Prop where
  nodup : (findings.map (·.findingId)).Nodup
  origin_eq : ∀ f ∈ findings, f.origin = origin

theorem OfPhase.nil (origin : FindingOrigin) : OfPhase origin [] :=
  ⟨List.nodup_nil, fun _ hf => by cases hf⟩

theorem complete_ne_empty {c : CandidateIdentity} (h : c.complete = true) :
    c.head ≠ "" ∧ c.tree ≠ "" ∧ c.diffDigest ≠ "" ∧ c.nodeDiffDigest ≠ "" := by
  simpa [CandidateIdentity.complete, and_assoc] using h

theorem nonemptyText_eq {t : Option String} (h : t ≠ some "") : nonemptyText t = t := by
  cases t with
  | none => rfl
  | some text =>
      have hne : text ≠ "" := fun heq => h (heq ▸ rfl)
      simp [nonemptyText, hne]

/-! ### Stored nodes -/

/-- The optional texts of a node, its failure reason apart. -/
def NodeSnapshot.storedTexts (n : NodeSnapshot) : List (Option String) :=
  [n.leaseActorId, n.startHead, n.candidateHead, n.candidateTree, n.candidateDiffDigest,
    n.candidateNodeDiffDigest, n.pendingPublicationEffect, n.pendingPublicationOperationId,
    n.publicationAuthorizationReceiptId, n.publicationAuthorizationReceiptDigest]

/-- What holds of every stored node. -/
structure Stored (n : NodeSnapshot) : Prop where
  texts : ∀ t ∈ n.storedTexts, t ≠ some ""
  reason : n.state ≠ .failedExactNode → n.failureReason = none
  findings : OfPhase .review n.findings
  closureFindings : OfPhase .closure n.closureFindings

theorem Stored.start (nodeId : String) : Stored { nodeId } :=
  ⟨by simp [NodeSnapshot.storedTexts], fun _ => rfl, .nil _, .nil _⟩

/-- A storable node is read back as it was, unless its reason is empty. -/
theorem Stored.reload_eq_of_reason {n : NodeSnapshot} (h : Stored n) (hreason : n.failureReason ≠ some "") :
    n.reload = n := by
  have htexts := h.texts
  simp only [NodeSnapshot.storedTexts, List.forall_mem_cons] at htexts
  obtain ⟨hlease, hstart, hhead, htree, hdiff, hnode, heffect, hoperation, hreceipt, hdigest, -⟩ :=
    htexts
  unfold NodeSnapshot.reload
  rw [nonemptyText_eq hlease, nonemptyText_eq hstart, nonemptyText_eq hhead, nonemptyText_eq htree,
    nonemptyText_eq hdiff, nonemptyText_eq hnode, nonemptyText_eq heffect,
    nonemptyText_eq hoperation, nonemptyText_eq hreceipt, nonemptyText_eq hdigest,
    nonemptyText_eq hreason]

/-- A storable node that has not failed is read back as it was. -/
theorem Stored.reload_eq {n : NodeSnapshot} (h : Stored n) (hlive : n.state ≠ .failedExactNode) :
    n.reload = n := by
  have hreason : n.failureReason ≠ some "" := by simp [h.reason hlive]
  exact h.reload_eq_of_reason hreason

section Projection

variable [Runtime]

/-! ### Findings -/

/-- One round of `unique_findings` adds a finding of a new identifier, or rewrites the title of the one
that has it. -/
theorem mergeFinding_ofPhase {origin : FindingOrigin} {findings findings' : List Finding}
    {value : Value} (hphase : OfPhase origin findings)
    (h : mergeFinding origin findings value = .ok findings') : OfPhase origin findings' := by
  simp only [mergeFinding, bind_eq_ok, check_eq_ok, beq_iff_eq, exists_const] at h
  obtain ⟨finding, -, horigin, h⟩ := h
  split at h
  · next hnone =>
      obtain rfl := pure_eq_ok.mp h
      have hnew : finding.findingId ∉ findings.map (·.findingId) := by
        intro hmem
        obtain ⟨f, hf, hid⟩ := List.mem_map.mp hmem
        have hfresh := List.find?_eq_none.mp hnone f hf
        simp [hid] at hfresh
      refine ⟨?_, fun f hf => ?_⟩
      · rw [List.map_append]
        exact hphase.nodup.append (List.nodup_singleton _) (by simpa using hnew)
      · rcases List.mem_append.mp hf with hf | hf
        · exact hphase.origin_eq f hf
        · rw [List.mem_singleton.mp hf]
          exact horigin
  · next prior hprior =>
      simp only [bind_eq_ok, pure_eq_ok] at h
      obtain ⟨_, -, rfl⟩ := h
      have hmem := List.mem_of_find?_eq_some hprior
      refine ⟨?_, fun f hf => ?_⟩
      · rw [List.map_map]
        have hids : findings.map ((·.findingId) ∘ fun f =>
            if f.findingId = prior.findingId then { prior with
              title := if finding.title < prior.title then finding.title else prior.title }
            else f) = findings.map (·.findingId) := by
          refine List.map_congr_left fun f _ => ?_
          show Finding.findingId (if f.findingId = prior.findingId then _ else f) = f.findingId
          split
          · next hid => exact hid.symm
          · rfl
        rw [hids]
        exact hphase.nodup
      · obtain ⟨f', hf', rfl⟩ := List.mem_map.mp hf
        split
        · exact hphase.origin_eq prior hmem
        · exact hphase.origin_eq f' hf'

theorem uniqueFindings_ofPhase {origin : FindingOrigin} {values : List Value}
    {findings : List Finding} (h : uniqueFindings values origin = .ok findings) :
    OfPhase origin findings := by
  simp only [uniqueFindings, bind_eq_ok, pure_eq_ok] at h
  obtain ⟨merged, hmerged, rfl⟩ := h
  have hphase : OfPhase origin merged :=
    foldlM_eq_ok_induct (motive := OfPhase origin) (fun hacc hstep => mergeFinding_ofPhase hacc hstep)
      hmerged (.nil origin)
  have hperm := List.perm_insertionSort (fun a b : Finding => a.findingId ≤ b.findingId) merged
  exact ⟨(hperm.map _).nodup_iff.mpr hphase.nodup, fun f hf => hphase.origin_eq f (hperm.mem_iff.mp hf)⟩

/-! ### Nodes -/

section Nodes

variable {s s' : CampaignSnapshot} {e : Event} {effects : List ExternalEffectIntent}
  {n n' m m' : NodeSnapshot}

theorem Stored.move (h : Stored n) (hmove : NodeMove s e n n') : Stored n' := by
  have htexts := h.texts
  simp only [NodeSnapshot.storedTexts, List.forall_mem_cons] at htexts
  obtain ⟨hlease, hstart, hhead, htree, hdiff, hnode, heffect, hoperation, hreceipt, hdigest, -⟩ :=
    htexts
  cases hmove with
  | acquireLease _ _ _ _ _ hactor =>
      exact ⟨by simp [NodeSnapshot.storedTexts, *], h.reason, h.findings, h.closureFindings⟩
  | releaseLease =>
      exact ⟨by simp [NodeSnapshot.storedTexts, *], h.reason, h.findings, h.closureFindings⟩
  | validationPassed _ _ hstate hcomplete =>
      obtain ⟨hhead', htree', hdiff', hnode'⟩ := complete_ne_empty hcomplete
      exact ⟨by simp [NodeSnapshot.storedTexts, NodeSnapshot.freezeCandidate, *],
        fun _ => h.reason (by simp [hstate]), h.findings, h.closureFindings⟩
  | freezeFindings _ hstate _ hfindings =>
      exact ⟨h.texts, fun _ => h.reason (by simp [hstate]), uniqueFindings_ofPhase hfindings,
        h.closureFindings⟩
  | closureCompleted _ hstate hfindings =>
      exact ⟨h.texts, fun _ => h.reason (by simp [hstate]), h.findings,
        uniqueFindings_ofPhase hfindings⟩
  | authorizePublication _ _ _ _ hreceipt' hdigest' =>
      exact ⟨by simp [NodeSnapshot.storedTexts, *], h.reason, h.findings, h.closureFindings⟩
  | implementationCompleted _ _ hstate | requestCorrection _ _ _ hstate | markReady _ hstate
  | authorizeRepair _ hstate | repairCompleted _ _ hstate =>
      exact ⟨h.texts, fun _ => h.reason (by simp [hstate]), h.findings, h.closureFindings⟩

theorem Stored.dispatch {role : String} (h : Stored n) (hmove : DispatchMove s e n role n') :
    Stored n' := by
  have htexts := h.texts
  simp only [NodeSnapshot.storedTexts, List.forall_mem_cons] at htexts
  obtain ⟨hlease, hstart, hhead, htree, hdiff, hnode, heffect, hoperation, hreceipt, hdigest, -⟩ :=
    htexts
  cases hmove with
  | startImplementation _ _ _ hstate | startReview _ hstate | startRepair _ _ hstate =>
      exact ⟨h.texts, fun _ => h.reason (by simp [hstate]), h.findings, h.closureFindings⟩
  | revalidationPassed _ _ hstate _ hcomplete =>
      obtain ⟨hhead', htree', hdiff', hnode'⟩ := complete_ne_empty hcomplete
      exact ⟨by simp [NodeSnapshot.storedTexts, NodeSnapshot.freezeCandidate, *],
        fun _ => h.reason (by simp [hstate]), h.findings, h.closureFindings⟩

theorem Stored.fail {closed : NodeSnapshot} {reason : String} (h : Stored n)
    (hmove : FailMove s e n closed) : Stored (closed.failed reason) := by
  have htexts := h.texts
  simp only [NodeSnapshot.storedTexts, List.forall_mem_cons] at htexts
  obtain ⟨hlease, hstart, hhead, htree, hdiff, hnode, heffect, hoperation, hreceipt, hdigest, -⟩ :=
    htexts
  have hfailed : ∀ k : NodeSnapshot, (k.failed reason).state = .failedExactNode := fun _ => rfl
  cases hmove with
  | closureFailed _ _ hfindings =>
      exact ⟨by simp [NodeSnapshot.storedTexts, NodeSnapshot.failed, *],
        fun hstate => absurd (hfailed _) hstate, h.findings, uniqueFindings_ofPhase hfindings⟩
  | validationFailed | revalidationFailed | publishFailed | failNode =>
      exact ⟨by simp [NodeSnapshot.storedTexts, NodeSnapshot.failed, *],
        fun hstate => absurd (hfailed _) hstate, h.findings, h.closureFindings⟩

/-- Every step keeps a node storable. -/
theorem Stored.keep (h : Stored m) (hstep : NodeStep s e effects m m') : Stored m' := by
  have htexts := h.texts
  simp only [NodeSnapshot.storedTexts, List.forall_mem_cons] at htexts
  obtain ⟨hlease, hstart, hhead, htree, hdiff, hnode, heffect, hoperation, hreceipt, hdigest, -⟩ :=
    htexts
  cases hstep with
  | same => exact h
  | unlease =>
      exact ⟨by simp [NodeSnapshot.storedTexts, *], h.reason, h.findings, h.closureFindings⟩
  | cancel =>
      unfold cancelNode
      split
      · exact h
      · next hlive =>
          refine ⟨by simp [NodeSnapshot.storedTexts, *], fun _ => h.reason fun hstate => ?_,
            h.findings, h.closureFindings⟩
          rw [hstate] at hlive
          exact hlive (by decide)
  | @admitted startHead _ _ hpending hhex =>
      have hstart' : startHead ≠ "" := by
        rintro rfl
        simp [isHexDigest] at hhex
      exact ⟨by simp [NodeSnapshot.storedTexts, *], fun _ => h.reason (by simp [hpending]),
        h.findings, h.closureFindings⟩
  | move _ hmove => exact h.move hmove
  | dispatch _ hmove => exact h.dispatch hmove
  | fail _ hmove => exact h.fail hmove
  | @publish kind operationId _ _ hguard =>
      have hkind : kind.value ≠ "" := by cases kind <;> decide
      have hoperation' := hguard.operation.2
      exact ⟨by simp [NodeSnapshot.storedTexts, NodeSnapshot.publishing, *],
        fun _ => h.reason (by simp [hguard.ready]), h.findings, h.closureFindings⟩
  | confirm _ hguard =>
      exact ⟨by simp [NodeSnapshot.storedTexts, NodeSnapshot.confirmed, *],
        fun _ => h.reason (by simp [hguard.publishing]), h.findings, h.closureFindings⟩

theorem stored_run {spec : CampaignSpec} {history : List (Entry CampaignSnapshot Applied)}
    (h : CampaignRun spec history s) : ∀ m ∈ s.nodes, Stored m :=
  h.node_invariant (fun nodeId => .start nodeId) fun hm hstep => hm.keep hstep

end Nodes

/-! ### Snapshots -/

theorem NodeSpec.nodeId_ne_empty (n : NodeSpec) : n.nodeId ≠ "" := by
  have h := n.valid
  simp only [NodeSpecFields.postInit, nonempty, bind_eq_ok, check_eq_ok, exists_const] at h
  obtain ⟨_, ⟨hid, -⟩, -⟩ := h
  rintro heq
  rw [heq] at hid
  simp [Value.truthy, strip, lstripChars, rstripChars] at hid

section Snapshots

variable {s s' : CampaignSnapshot} {e : Event} {effects : List ExternalEffectIntent}

/-- A live campaign has no failure reason, and its reason is what `_fail` or `CANCEL` recorded. -/
theorem Accepted.failureReason (h : Accepted s e effects s') (hreason : s.failureReason = none)
    (hlive : s'.state ∉ terminalCampaignStates) : s'.failureReason = none := by
  obtain ⟨s₁, hstep, rfl⟩ := h.step
  cases hstep with
  | control | advanceAuthority | admitted | move => exact hreason
  | cancel => exact absurd (show CampaignState.cancelled ∈ terminalCampaignStates by decide) hlive
  | consumeBudget _ _ hspend =>
      rw [hspend.result]
      exact hreason
  | dispatch _ _ hdispatch =>
      obtain ⟨_, -, hspend, -⟩ := dispatchEffect_eq_ok hdispatch
      rcases consumeAutomated_maySpend hspend with rfl | ⟨_, hspend⟩
      · exact hreason
      · show (CampaignSnapshot.failureReason _) = none
        rw [hspend.result]
        exact hreason
  | fail => exact absurd (show CampaignState.failed ∈ terminalCampaignStates by decide) hlive
  | publish _ _ hspend =>
      rcases consumeAutomated_maySpend hspend with rfl | ⟨_, hspend⟩
      · exact hreason
      · show (CampaignSnapshot.failureReason _) = none
        rw [hspend.result]
        exact hreason
  | confirm => exact hreason

theorem CampaignRun.failureReason {spec : CampaignSpec}
    {history : List (Entry CampaignSnapshot Applied)} (h : CampaignRun spec history s)
    (hlive : s.state ∉ terminalCampaignStates) : s.failureReason = none := by
  obtain ⟨s₀, hinit, hrun⟩ := h
  refine hrun.invariant (fun s => s.state ∉ terminalCampaignStates → s.failureReason = none)
    (fun _ => ?_) (fun ih hstep hlive => ?_) hlive
  · obtain ⟨-, -, -, -, -, -, -, -, -, hreason⟩ := initial_eq_ok hinit
    exact hreason
  · have haccepted := reduce_accepted hstep
    exact haccepted.failureReason (ih haccepted.live) hlive

theorem reload_eq_of_fields (hnodes : s.nodes.map NodeSnapshot.reload = s.nodes)
    (hactive : nonemptyText s.activeNodeId = s.activeNodeId)
    (hreason : nonemptyText s.failureReason = s.failureReason) : s.reload = s := by
  cases s
  simp only [CampaignSnapshot.reload, CampaignSnapshot.mapNodes, CampaignSnapshot.mk.injEq, true_and]
  exact ⟨hnodes, hactive, hreason⟩

/-- **Reloading changes nothing.**  A live snapshot that was reached is what `from_dict` reads back
from the JSON `to_dict` wrote. -/
theorem CampaignRun.reload_eq {spec : CampaignSpec}
    {history : List (Entry CampaignSnapshot Applied)} (h : CampaignRun spec history s)
    (hlive : s.state ∉ terminalCampaignStates) : s.reload = s := by
  have hshape := h.shaped.1 hlive
  have hnodes : s.nodes.map NodeSnapshot.reload = s.nodes := by
    conv_rhs => rw [← List.map_id s.nodes]
    exact List.map_congr_left fun m hm => (stored_run h m hm).reload_eq (hshape.not_failed hm)
  have hactive : s.activeNodeId ≠ some "" := by
    intro hactive
    obtain ⟨m, hm, hid, -⟩ := hshape.working _ hactive
    have hmem : m.nodeId ∈ s.spec.nodes.map (·.nodeId) := by
      rw [← s.node_ids]
      exact List.mem_map_of_mem hm
    obtain ⟨n, -, hn⟩ := List.mem_map.mp hmem
    exact n.nodeId_ne_empty (hn.trans hid)
  have hreason : s.failureReason ≠ some "" := by simp [h.failureReason hlive]
  exact reload_eq_of_fields hnodes (nonemptyText_eq hactive) (nonemptyText_eq hreason)

end Snapshots

end Projection

end CodingOS.Campaign
