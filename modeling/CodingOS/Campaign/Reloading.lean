import CodingOS.Campaign.Budget
import CodingOS.Campaign.SnapshotRecord

/-!
# Which reached snapshots are read back as they were

A reached snapshot of an accepted specification is always read back.  It is read back as it was exactly
when no event of its run ended the campaign with an empty reason: `failure_reason` is then the empty text,
which `from_dict` takes for `None`.
-/

namespace CodingOS.Campaign

open CodingOS.Python Systems

/-- The reason a branch records when the payload of the event gives none. -/
def EventType.defaultReason? : EventType → Option String
  | .cancel => some "STOP"
  | .validationFailed => some "validation_failed"
  | .revalidationFailed => some "revalidation_failed"
  | .publishFailed => some "publication_failed"
  | .failNode => some "node_failed"
  | _ => none

/-! ### The reason of an ended campaign -/

theorem closureFailure_ne_empty (remaining : List String) (newBlockers : List Finding) :
    closureFailure remaining newBlockers ≠ "" := by
  intro h
  have hlength := congrArg String.length h
  rw [closureFailure, String.length_append] at hlength
  have hhead : "closure_failed:".length = 15 := by decide
  have hempty : "".length = 0 := rfl
  omega

section Reloading

variable [Runtime]

/-- The event records an empty reason if it is accepted. -/
def Event.EmptyReason (e : Event) : Prop :=
  ∃ default, e.eventType.defaultReason? = some default ∧ payloadReason e default = ""

variable {spec : CampaignSpec} {history : List (Entry CampaignSnapshot Applied)}
  {s s' : CampaignSnapshot} {e : Event} {effects : List ExternalEffectIntent}

/-- The branches that take their reason from the payload record it as it is given. -/
theorem reduceBranch_reason {default : String} (h : reduceBranch s e = .ok (s', effects))
    (hdefault : e.eventType.defaultReason? = some default) :
    s'.failureReason = some (payloadReason e default) := by
  cases ht : e.eventType <;> rw [ht] at hdefault <;> simp only [EventType.defaultReason?, reduceCtorEq,
    Option.some.injEq] at hdefault <;> subst hdefault <;> rw [reduceBranch, ht] at h
  case cancel =>
    simp only [reduceCancel, bind_eq_ok, pure_eq_ok, Prod.mk.injEq] at h
    obtain ⟨_, -, _, -, rfl, -⟩ := h
    rfl
  case validationFailed =>
    simp only [reduceValidationFailed, bind_eq_ok, pure_eq_ok, Prod.mk.injEq] at h
    obtain ⟨_, -, _, -, _, -, rfl, -⟩ := h
    rfl
  case revalidationFailed =>
    simp only [reduceRevalidationFailed, bind_eq_ok, pure_eq_ok, Prod.mk.injEq] at h
    obtain ⟨_, -, _, -, _, -, rfl, -⟩ := h
    rfl
  case publishFailed =>
    simp only [reducePublishFailed, bind_eq_ok, pure_eq_ok, Prod.mk.injEq] at h
    obtain ⟨_, -, _, -, rfl, -⟩ := h
    rfl
  case failNode =>
    simp only [reduceFailNode, bind_eq_ok, pure_eq_ok, Prod.mk.injEq] at h
    obtain ⟨_, -, _, -, rfl, -⟩ := h
    rfl

theorem reduceCompleteClosure_reason (h : reduceCompleteClosure s e = .ok (s', effects)) :
    s'.failureReason = s.failureReason ∨ ∃ reason ≠ "", s'.failureReason = some reason := by
  simp only [reduceCompleteClosure, bind_eq_ok] at h
  obtain ⟨_, -, _, -, _, -, _, -, _, -, _, -, _, -, _, -, h⟩ := h
  split at h
  · simp only [pure_eq_ok, Prod.mk.injEq] at h
    obtain ⟨rfl, -⟩ := h
    exact .inr ⟨_, closureFailure_ne_empty _ _, rfl⟩
  · simp only [pure_eq_ok, Prod.mk.injEq] at h
    obtain ⟨rfl, -⟩ := h
    exact .inl rfl

/-- The other branches leave the reason alone, or record one of their own, which is not empty. -/
theorem reduceBranch_noReason (h : reduceBranch s e = .ok (s', effects))
    (hdefault : e.eventType.defaultReason? = none) :
    s'.failureReason = s.failureReason ∨ ∃ reason ≠ "", s'.failureReason = some reason := by
  by_cases ht : e.eventType = .completeClosure
  · rw [reduceBranch, ht] at h
    exact reduceCompleteClosure_reason h
  · have hspends : ∀ {s₁}, MaySpend s e s₁ → s₁.failureReason = s.failureReason := by
      rintro s₁ (rfl | ⟨_, hspend⟩)
      · rfl
      · rw [hspend.result]
    cases reduceBranch_step h with
    | control | advanceAuthority | admitted | move | confirm => exact .inl rfl
    | cancel hcancel =>
        rw [hcancel] at hdefault
        cases hdefault
    | consumeBudget _ _ hspend => exact .inl (hspends (.inr ⟨_, hspend⟩))
    | dispatch _ _ hdispatch =>
        obtain ⟨_, -, hspend, -⟩ := dispatchEffect_eq_ok hdispatch
        have hsame := hspends (consumeAutomated_maySpend hspend)
        exact .inl hsame
    | publish _ _ hspend =>
        have hsame := hspends (consumeAutomated_maySpend hspend)
        exact .inl hsame
    | fail _ hmove =>
        cases hmove with
        | closureFailed hclosure => exact absurd hclosure ht
        | validationFailed hfail | revalidationFailed hfail | publishFailed hfail | failNode hfail =>
            rw [hfail] at hdefault
            cases hdefault

/-- A live snapshot takes an empty reason exactly from an event that gives one. -/
theorem reduce_emptyReason (h : reduce s e = .ok (s', effects)) (hlive : s.failureReason = none) :
    s'.failureReason = some "" ↔ e.EmptyReason := by
  simp only [reduce, finishRevision, bind_eq_ok, pure_eq_ok, Prod.exists, Prod.mk.injEq] at h
  obtain ⟨_, -, s₁, _, hbranch, _, -, _, -, _, -, _, -, rfl, -⟩ := h
  show s₁.failureReason = some "" ↔ _
  cases hdefault : e.eventType.defaultReason? with
  | some default =>
      rw [reduceBranch_reason hbranch hdefault, Option.some.injEq]
      refine ⟨fun hempty => ⟨default, hdefault, hempty⟩, ?_⟩
      rintro ⟨default', hdefault', hempty⟩
      obtain rfl : default = default' := Option.some.inj (hdefault.symm.trans hdefault')
      exact hempty
  | none =>
      have hnot : ¬ e.EmptyReason := by
        rintro ⟨_, hsome, -⟩
        rw [hdefault] at hsome
        cases hsome
      refine iff_of_false ?_ hnot
      rcases reduceBranch_noReason hbranch hdefault with hsame | ⟨reason, hne, hreason⟩
      · rw [hsame, hlive]
        simp
      · rw [hreason]
        exact fun heq => hne (Option.some.inj heq)

/-- **The reason of a reached snapshot** is empty exactly when one of its events gave an empty reason. -/
theorem CampaignRun.emptyReason_iff (h : CampaignRun spec history s) :
    s.failureReason = some "" ↔ ∃ t ∈ history, t.label.event.EmptyReason := by
  obtain ⟨s₀, hinit, hrun⟩ := h
  induction hrun with
  | start =>
      obtain ⟨-, -, -, -, -, -, -, -, -, hreason⟩ := initial_eq_ok hinit
      simp [hreason]
  | @snoc history s s' l hrun hstep ih =>
      -- the campaign was still live, so nothing before this step gave a reason
      have hnone : s.failureReason = none :=
        CampaignRun.failureReason ⟨s₀, hinit, hrun⟩ (reduce_accepted hstep).live
      have hearlier : ¬ ∃ t ∈ history, t.label.event.EmptyReason := by
        rw [← ih, hnone]
        simp
      rw [reduce_emptyReason hstep hnone]
      constructor
      · exact fun hempty => ⟨_, List.mem_append_right _ (List.mem_singleton_self _), hempty⟩
      · rintro ⟨t, ht, hempty⟩
        rcases List.mem_append.mp ht with ht | ht
        · exact absurd ⟨t, ht, hempty⟩ hearlier
        · obtain rfl := List.mem_singleton.mp ht
          exact hempty

/-! ### What a reached snapshot holds -/

/-- Nodes of a live snapshot have no reason; a step that gives one the campaign takes too. -/
theorem Step.node_reason (h : Step s e s' effects) (hnone : ∀ m ∈ s.nodes, m.failureReason = none) :
    ∀ m ∈ s'.nodes, m.failureReason = none ∨ m.failureReason = s'.failureReason := by
  have replaced : ∀ {s₁ : CampaignSnapshot} {n' : NodeSnapshot}, s₁.nodes = (s.replaceNode n').nodes →
      n'.failureReason = none → ∀ m ∈ s₁.nodes, m.failureReason = none ∨ m.failureReason = s₁.failureReason := by
    intro s₁ n' hnodes hn' m hm
    rw [hnodes] at hm
    rcases CampaignSnapshot.mem_replaceNode hm with rfl | ⟨hm, -⟩
    · exact .inl hn'
    · exact .inl (hnone m hm)
  cases h with
  | control => exact fun m hm => .inl (hnone m hm)
  | advanceAuthority =>
      intro m hm
      obtain ⟨k, hk, rfl⟩ := List.mem_map.mp hm
      exact .inl (hnone k hk)
  | cancel =>
      intro m hm
      obtain ⟨k, hk, rfl⟩ := List.mem_map.mp hm
      have hk := hnone k hk
      unfold cancelNode
      split
      · exact .inl hk
      · exact .inl hk
  | consumeBudget _ _ hspend =>
      rw [hspend.nodes_eq]
      exact fun m hm => .inl (hnone m hm)
  | @admitted n _ _ _ _ hn =>
      have hn' := hnone n hn.mem
      exact replaced rfl hn'
  | @move n n' hn hmove =>
      have hsame : n'.failureReason = n.failureReason := by cases hmove <;> rfl
      exact replaced rfl (hsame.trans (hnone n hn.mem))
  | @dispatch role n n' s₁ effects hn hmove hdispatch =>
      have hsame : n'.failureReason = n.failureReason := by cases hmove <;> rfl
      have hnodes : (s₁.replaceNode n').nodes = (s.replaceNode n').nodes :=
        congrArg (List.map _) (dispatchEffect_nodes hdispatch)
      exact replaced hnodes (hsame.trans (hnone n hn.mem))
  | fail =>
      intro m hm
      rcases CampaignSnapshot.mem_replaceNode hm with rfl | ⟨hm, -⟩
      · exact .inr rfl
      · exact .inl (hnone m hm)
  | @publish n kind token operationId s₁ intent hn _ hspend =>
      have hnodes : (s₁.replaceNode (n.publishing kind operationId)).nodes
          = (s.replaceNode (n.publishing kind operationId)).nodes :=
        congrArg (List.map _) (consumeAutomated_maySpend hspend).nodes_eq
      exact replaced hnodes (hnone n hn.mem)
  | @confirm n effect operationId complete hn =>
      exact @replaced _ (n.confirmed effect operationId complete) rfl (hnone n hn.mem)

theorem CampaignRun.live_nodes (h : CampaignRun spec history s) (hlive : s.state ∉ terminalCampaignStates) :
    ∀ m ∈ s.nodes, m.failureReason = none := fun m hm =>
  (stored_run h m hm).reason ((h.shaped.1 hlive).not_failed hm)

/-- The reason of a node is the reason of its campaign. -/
theorem CampaignRun.node_reason (h : CampaignRun spec history s) :
    ∀ m ∈ s.nodes, m.failureReason = none ∨ m.failureReason = s.failureReason := by
  obtain ⟨s₀, hinit, hrun⟩ := h
  cases hrun with
  | start =>
      intro m hm
      rw [initial_node hinit hm]
      exact .inl rfl
  | snoc hrun hstep =>
      have haccepted := reduce_accepted hstep
      obtain ⟨s₁, hmove, rfl⟩ := haccepted.step
      exact hmove.node_reason (CampaignRun.live_nodes ⟨s₀, hinit, hrun⟩ haccepted.live)

theorem CampaignSnapshot.nodeId_ne_empty {n : NodeSnapshot} (hn : n ∈ s.nodes) : n.nodeId ≠ "" := by
  have hmem : n.nodeId ∈ s.spec.nodes.map (·.nodeId) := by
    rw [← s.node_ids]
    exact List.mem_map_of_mem hn
  obtain ⟨node, -, hid⟩ := List.mem_map.mp hmem
  rw [← hid]
  exact node.nodeId_ne_empty

theorem Step.activeNodeId (h : Step s e s' effects) : s'.activeNodeId = s.activeNodeId ∨
    s'.activeNodeId = none ∨ ∃ n ∈ s.nodes, s'.activeNodeId = some n.nodeId := by
  cases h with
  | control | advanceAuthority | move => exact .inl rfl
  | cancel | fail => exact .inr (.inl rfl)
  | consumeBudget _ _ hspend => exact .inl (MaySpend.control_eq (.inr ⟨_, hspend⟩)).2.2.2
  | admitted _ _ hn => exact .inr (.inr ⟨_, hn.mem, rfl⟩)
  | dispatch _ _ hdispatch =>
      obtain ⟨_, -, hspend, -⟩ := dispatchEffect_eq_ok hdispatch
      have hsame := (consumeAutomated_maySpend hspend).control_eq.2.2.2
      exact .inl hsame
  | publish _ _ hspend =>
      have hsame := (consumeAutomated_maySpend hspend).control_eq.2.2.2
      exact .inl hsame
  | @confirm _ _ _ complete =>
      cases complete with
      | false => exact .inl rfl
      | true => exact .inr (.inl rfl)

theorem CampaignRun.active_ne_empty (h : CampaignRun spec history s) : s.activeNodeId ≠ some "" := by
  obtain ⟨s₀, hinit, hrun⟩ := h
  refine hrun.invariant (fun s => s.activeNodeId ≠ some "") ?_ ?_
  · obtain ⟨-, -, -, -, -, -, -, -, hactive, -⟩ := initial_eq_ok hinit
    simp [hactive]
  · intro s s' applied ih hstep
    obtain ⟨s₁, hmove, rfl⟩ := (reduce_accepted hstep).step
    show s₁.activeNodeId ≠ some ""
    rcases hmove.activeNodeId with hsame | hnone | ⟨n, hn, hactive⟩
    · rw [hsame]
      exact ih
    · simp [hnone]
    · rw [hactive]
      exact fun hempty => CampaignSnapshot.nodeId_ne_empty hn (Option.some.inj hempty)

theorem Step.receipts (h : Step s e s' effects) : s'.budgetReceipts = s.budgetReceipts ∨
    ∃ token, s'.budgetReceipts = s.budgetReceipts ++ [⟨e.eventId, token, s.revision + 1⟩] := by
  have hspends : ∀ {s₁}, MaySpend s e s₁ → s₁.budgetReceipts = s.budgetReceipts ∨
      ∃ token, s₁.budgetReceipts = s.budgetReceipts ++ [⟨e.eventId, token, s.revision + 1⟩] := by
    rintro s₁ (rfl | ⟨token, hspend⟩)
    · exact .inl rfl
    · rw [hspend.result]
      exact .inr ⟨token, rfl⟩
  cases h with
  | control | advanceAuthority | cancel | admitted | move | fail | confirm => exact .inl rfl
  | consumeBudget _ _ hspend => exact hspends (.inr ⟨_, hspend⟩)
  | dispatch _ _ hdispatch =>
      obtain ⟨_, -, hspend, -⟩ := dispatchEffect_eq_ok hdispatch
      have hsame := hspends (consumeAutomated_maySpend hspend)
      exact hsame
  | publish _ _ hspend =>
      have hsame := hspends (consumeAutomated_maySpend hspend)
      exact hsame

/-- A receipt carries the identifier of an event, which is not blank. -/
theorem CampaignRun.receipts (h : CampaignRun spec history s) :
    ∀ r ∈ s.budgetReceipts, isBlank r.requestId = false := by
  obtain ⟨s₀, hinit, hrun⟩ := h
  refine hrun.invariant (fun s => ∀ r ∈ s.budgetReceipts, isBlank r.requestId = false) ?_ ?_
  · obtain ⟨-, -, -, -, -, -, hreceipts, -⟩ := initial_eq_ok hinit
    simp [hreceipts]
  · intro s s' applied ih hstep
    obtain ⟨s₁, hmove, rfl⟩ := (reduce_accepted hstep).step
    show ∀ r ∈ s₁.budgetReceipts, _
    rcases hmove.receipts with hsame | ⟨token, hnew⟩
    · rw [hsame]
      exact ih
    · rw [hnew]
      intro r hr
      rcases List.mem_append.mp hr with hr | hr
      · exact ih r hr
      · obtain rfl := List.mem_singleton.mp hr
        exact applied.event.event_id_nonblank

theorem initial_digest {s₀ : CampaignSnapshot} (h : CampaignSnapshot.initial spec = .ok s₀) :
    spec.specificationDigest = spec.computeDigest := by
  simp only [CampaignSnapshot.initial, CampaignSpecFields.verifyDigest, bind_eq_ok, check_eq_ok, exists_const] at h
  have hverified : spec.specificationDigest ≠ "" ∧ spec.specificationDigest = spec.computeDigest := by
    simpa using h.1
  exact hverified.2

/-- Every reached snapshot of an accepted specification can be read back. -/
theorem CampaignRun.legible (hspec : spec.Stored) (h : CampaignRun spec history s) : s.Legible := by
  have hsame := h.spec_eq
  refine ⟨hsame ▸ hspec, ?_, legible_run h, h.receipts⟩
  obtain ⟨s₀, hinit, -⟩ := h
  rw [hsame]
  exact initial_digest hinit

/-- **Reloading a reached snapshot** changes it exactly when its failure reason is empty. -/
theorem CampaignRun.reload_iff (h : CampaignRun spec history s) :
    s.reload = s ↔ s.failureReason ≠ some "" := by
  constructor
  · intro hreload hempty
    have hreason := congrArg CampaignSnapshot.failureReason hreload
    rw [hempty] at hreason
    change nonemptyText s.failureReason = some "" at hreason
    rw [hempty] at hreason
    cases hreason
  · intro hreason
    have hnodes : s.nodes.map NodeSnapshot.reload = s.nodes := by
      conv_rhs => rw [← List.map_id s.nodes]
      refine List.map_congr_left fun m hm => (stored_run h m hm).reload_eq_of_reason ?_
      rcases h.node_reason m hm with hnone | hsame
      · rw [hnone]
        simp
      · rw [hsame]
        exact hreason
    exact reload_eq_of_fields hnodes (nonemptyText_eq h.active_ne_empty) (nonemptyText_eq hreason)

/-- Reading the JSON of a reached snapshot of an accepted specification gives what `reload` says. -/
theorem CampaignRun.loads_eq [FloatReader] (laws : FloatLaws) (hspec : spec.Stored)
    (h : CampaignRun spec history s) :
    (loads (canonicalJson s.toDict)).map CampaignSnapshot.fromDict = some (.ok s.reload.frozen) := by
  rw [loads_canonicalJson laws, Option.map_some, CampaignSnapshot.fromDict_freeze (h.legible hspec)]

/-- **The round trip of a reached snapshot** gives it back exactly when no event gave an empty reason. -/
theorem CampaignRun.loads_iff [FloatReader] (laws : FloatLaws) (hspec : spec.Stored)
    (h : CampaignRun spec history s) :
    (loads (canonicalJson s.toDict)).map CampaignSnapshot.fromDict = some (.ok s.frozen) ↔
      ∀ t ∈ history, ¬ t.label.event.EmptyReason := by
  have hreason : (∀ t ∈ history, ¬ t.label.event.EmptyReason) ↔ s.failureReason ≠ some "" := by
    rw [ne_eq, h.emptyReason_iff]
    simp
  rw [h.loads_eq laws hspec, hreason, Option.some.injEq, Except.ok.injEq]
  constructor
  · intro heq hempty
    have hread : nonemptyText s.failureReason = s.failureReason :=
      congrArg CampaignSnapshot.failureReason heq
    rw [hempty] at hread
    cases hread
  · intro hne
    rw [h.reload_iff.mpr hne]

end Reloading

end CodingOS.Campaign
