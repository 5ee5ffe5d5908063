import CodingOS.Campaign.Budget
import CodingOS.Campaign.ReviewGate

/-!
# The publication sequence

The history of a run, projected on one node, gives the intents `START_PUBLISH` emitted for it, the
confirmations it received and the candidate its last validation recorded.  `PublicationInv` relates
the three to the fields of the node: what was emitted is what was confirmed and at most one pending
intent, in the order of the required sequence, and the candidate fields are those of the last
validation.
-/

namespace CodingOS.Campaign

open CodingOS.Python Systems

/-- The immutable publication sequence: `required_effects`, or `allowed_effects` when it is absent. -/
def requiredSequence (authority : Mapping) : List Value :=
  match authority.get? "required_effects" with
  | some declared => declared.items?.getD []
  | none => (authority.getD "allowed_effects" (.tuple [])).items?.getD []

theorem effectSequences_eq_ok {authority : Mapping} {allowed required : List Value}
    (h : effectSequences authority = .ok (allowed, required)) :
    required = requiredSequence authority := by
  simp only [effectSequences, bind_eq_ok, orRaise_eq_ok, pure_eq_ok, Prod.mk.injEq] at h
  obtain ⟨_, hallowed, _, hrequired, rfl, rfl⟩ := h
  unfold requiredSequence
  unfold Mapping.getD at hrequired
  cases hdeclared : authority.get? "required_effects" with
  | some declared =>
      rw [hdeclared, Option.getD_some] at hrequired
      simp [hrequired]
  | none =>
      rw [hdeclared, Option.getD_none] at hrequired
      rw [hallowed]
      simpa [Value.items?] using hrequired.symm

section Authority

variable [Runtime]

/-- A specification that was built declares a publication sequence, without repetition. -/
theorem CampaignSpec.requiredSequence_ok (spec : CampaignSpec) :
    requiredSequence spec.publicationAuthority ≠ [] ∧
      Value.distinct (requiredSequence spec.publicationAuthority) = true := by
  have h := spec.checked.1
  simp only [checkPublicationAuthority, bind_eq_ok, Prod.exists, check_eq_ok, exists_const,
    Bool.and_eq_true, Bool.not_eq_true', List.isEmpty_eq_false_iff] at h
  obtain ⟨allowed, required, hsequences, ⟨-, hne⟩, -, ⟨-, hdistinct⟩, -⟩ := h
  rw [← effectSequences_eq_ok hsequences]
  exact ⟨hne, hdistinct⟩

theorem CampaignSpec.effectSequences_ok (spec : CampaignSpec) :
    ∃ allowed required, effectSequences spec.publicationAuthority = .ok (allowed, required) := by
  have h := spec.checked.1
  simp only [checkPublicationAuthority, bind_eq_ok, Prod.exists] at h
  obtain ⟨allowed, required, hsequences, -⟩ := h
  exact ⟨allowed, required, hsequences⟩

end Authority

/-! ### The history of one node -/

section History

variable [Runtime]

/-- The entry is a `START_PUBLISH` of the node. -/
def isPublish (k : String) (t : Entry CampaignSnapshot Applied) : Bool :=
  t.label.event.eventType == .startPublish && t.label.event.nodeId == some k

/-- The entry is a `PUBLISH_CONFIRMED` of the node. -/
def isConfirm (k : String) (t : Entry CampaignSnapshot Applied) : Bool :=
  t.label.event.eventType == .publishConfirmed && t.label.event.nodeId == some k

/-- The entry is a `VALIDATION_PASSED` or `REVALIDATION_PASSED` of the node. -/
def isValidation (k : String) (t : Entry CampaignSnapshot Applied) : Bool :=
  (t.label.event.eventType == .validationPassed || t.label.event.eventType == .revalidationPassed)
    && t.label.event.nodeId == some k

/-- The intents emitted for the node, in order. -/
def intentsOf (k : String) (history : List (Entry CampaignSnapshot Applied)) :
    List ExternalEffectIntent :=
  (history.filter (isPublish k)).flatMap fun t => t.label.effects

/-- The confirmations of the node, in order. -/
def confirmationsOf (k : String) (history : List (Entry CampaignSnapshot Applied)) : List Event :=
  (history.filter (isConfirm k)).map fun t => t.label.event

/-- The candidate the most recent validation of the node recorded. -/
def candidateOf (k : String) (history : List (Entry CampaignSnapshot Applied)) :
    Option CandidateIdentity :=
  (history.filter (isValidation k)).getLast?.map fun t => candidateIdentity t.label.event

/-- The entry is none of the three. -/
def Quiet (k : String) (t : Entry CampaignSnapshot Applied) : Prop :=
  isPublish k t = false ∧ isConfirm k t = false ∧ isValidation k t = false

variable {k : String} {history : List (Entry CampaignSnapshot Applied)}
  {t : Entry CampaignSnapshot Applied}

theorem intentsOf_snoc : intentsOf k (history ++ [t])
    = intentsOf k history ++ if isPublish k t then t.label.effects else [] := by
  rw [intentsOf, List.filter_append, List.flatMap_append, ← intentsOf, List.filter_singleton]
  cases isPublish k t <;> simp

theorem confirmationsOf_snoc : confirmationsOf k (history ++ [t])
    = confirmationsOf k history ++ if isConfirm k t then [t.label.event] else [] := by
  rw [confirmationsOf, List.filter_append, List.map_append, ← confirmationsOf,
    List.filter_singleton]
  cases isConfirm k t <;> simp

theorem candidateOf_snoc : candidateOf k (history ++ [t])
    = if isValidation k t then some (candidateIdentity t.label.event)
      else candidateOf k history := by
  rw [candidateOf, List.filter_append, List.filter_singleton]
  cases isValidation k t <;> simp [candidateOf]

end History

/-! ### The invariant -/

/-- The candidate fields of a node. -/
def NodeSnapshot.candidateFields (n : NodeSnapshot) :
    Option String × Option String × Option String × Option String :=
  (n.candidateHead, n.candidateTree, n.candidateDiffDigest, n.candidateNodeDiffDigest)

/-- The fields a recorded candidate gives a node. -/
def recordedFields (c : Option CandidateIdentity) :
    Option String × Option String × Option String × Option String :=
  (c.map (·.head), c.map (·.tree), c.map (·.diffDigest), c.map (·.nodeDiffDigest))

/-- The publication fields of a node. -/
def NodeSnapshot.publicationFields (n : NodeSnapshot) :
    List String × List String × Option String × Option String :=
  (n.completedPublicationEffects, n.publicationOperationIds, n.pendingPublicationEffect,
    n.pendingPublicationOperationId)

section Invariant

variable [Runtime]

/-- The history of a node agrees with its fields. -/
structure PublicationInv (spec : CampaignSpec) (history : List (Entry CampaignSnapshot Applied))
    (n : NodeSnapshot) : Prop where
  operations : (intentsOf n.nodeId history).map (·.operationId)
    = n.publicationOperationIds ++ n.pendingPublicationOperationId.toList
  kinds : (intentsOf n.nodeId history).map (·.kind.value)
    = n.completedPublicationEffects ++ n.pendingPublicationEffect.toList
  paired : n.pendingPublicationOperationId.isSome = n.pendingPublicationEffect.isSome
  publishing : n.state = .publishing → n.pendingPublicationOperationId.isSome = true
  confirmed : (confirmationsOf n.nodeId history).map (·.payload.read "operation_id")
    = n.publicationOperationIds.map .str
  lengths : n.completedPublicationEffects.length = n.publicationOperationIds.length
  sequence : (n.completedPublicationEffects ++ n.pendingPublicationEffect.toList).map Value.str
    <+: requiredSequence spec.publicationAuthority
  distinct : (n.publicationOperationIds ++ n.pendingPublicationOperationId.toList).Nodup
  done : n.state = .done ↔
    n.completedPublicationEffects.map Value.str = requiredSequence spec.publicationAuthority
  candidate : n.candidateFields = recordedFields (candidateOf n.nodeId history)

variable {spec : CampaignSpec} {history : List (Entry CampaignSnapshot Applied)}
  {t : Entry CampaignSnapshot Applied} {n n' : NodeSnapshot}

theorem PublicationInv.start (nodeId : String) : PublicationInv spec [] { nodeId } where
  operations := rfl
  kinds := rfl
  paired := rfl
  publishing := nofun
  confirmed := rfl
  lengths := rfl
  sequence := List.nil_prefix
  distinct := List.nodup_nil
  done := ⟨nofun, fun h => absurd h.symm spec.requiredSequence_ok.1⟩
  candidate := rfl

/-- An entry that neither publishes nor confirms, on a node whose publication fields it keeps. -/
theorem PublicationInv.keep (h : PublicationInv spec history n) (hid : n'.nodeId = n.nodeId)
    (hfields : n'.publicationFields = n.publicationFields)
    (hstate : n'.state = n.state ∨ n.state ≠ .done ∧ n'.state ≠ .done ∧ n'.state ≠ .publishing)
    (hpublish : isPublish n.nodeId t = false) (hconfirm : isConfirm n.nodeId t = false)
    (hcandidate : n'.candidateFields = recordedFields (candidateOf n.nodeId (history ++ [t]))) :
    PublicationInv spec (history ++ [t]) n' := by
  simp only [NodeSnapshot.publicationFields, Prod.mk.injEq] at hfields
  obtain ⟨hcompleted, hoperations, heffect, hpending⟩ := hfields
  have hintents : intentsOf n'.nodeId (history ++ [t]) = intentsOf n.nodeId history := by
    rw [hid, intentsOf_snoc, hpublish]
    simp
  have hconfirmations : confirmationsOf n'.nodeId (history ++ [t])
      = confirmationsOf n.nodeId history := by
    rw [hid, confirmationsOf_snoc, hconfirm]
    simp
  refine ⟨?_, ?_, ?_, ?_, ?_, ?_, ?_, ?_, ?_, ?_⟩
  · rw [hintents, h.operations, hoperations, hpending]
  · rw [hintents, h.kinds, hcompleted, heffect]
  · rw [hpending, heffect, h.paired]
  · intro hpublishing
    obtain hsame | ⟨-, -, hne⟩ := hstate
    · rw [hpending]
      exact h.publishing (hsame ▸ hpublishing)
    · exact absurd hpublishing hne
  · rw [hconfirmations, h.confirmed, hoperations]
  · rw [hcompleted, hoperations, h.lengths]
  · rw [hcompleted, heffect]
    exact h.sequence
  · rw [hoperations, hpending]
    exact h.distinct
  · rw [hcompleted, ← h.done]
    obtain hsame | ⟨hne, hne', -⟩ := hstate
    · rw [hsame]
    · exact iff_of_false hne' hne
  · rw [hcandidate, hid]

/-- A quiet entry, on a node whose publication and candidate fields it keeps. -/
theorem PublicationInv.quiet (h : PublicationInv spec history n) (hquiet : Quiet n.nodeId t)
    (hid : n'.nodeId = n.nodeId) (hfields : n'.publicationFields = n.publicationFields)
    (hcandidate : n'.candidateFields = n.candidateFields)
    (hstate : n'.state = n.state ∨ n.state ≠ .done ∧ n'.state ≠ .done ∧ n'.state ≠ .publishing) :
    PublicationInv spec (history ++ [t]) n' := by
  refine h.keep hid hfields hstate hquiet.1 hquiet.2.1 ?_
  rw [candidateOf_snoc, hquiet.2.2, hcandidate, h.candidate]
  simp

end Invariant

/-! ### The invariant is kept -/

section Keep

variable [Runtime] {spec : CampaignSpec} {history : List (Entry CampaignSnapshot Applied)}
  {s s' : CampaignSnapshot} {e : Event} {effects : List ExternalEffectIntent} {m m' : NodeSnapshot}

theorem quiet_of_node {k : String} (h : e.nodeId ≠ some k) : Quiet k ⟨s, ⟨e, effects⟩, s'⟩ := by
  have hne : (e.nodeId == some k) = false := beq_false_of_ne h
  simp [Quiet, isPublish, isConfirm, isValidation, hne]

/-- The events the projections read. -/
def publicationTypes : List EventType :=
  [.startPublish, .publishConfirmed, .validationPassed, .revalidationPassed]

theorem quiet_of_type {k : String} (h : e.eventType ∉ publicationTypes) :
    Quiet k ⟨s, ⟨e, effects⟩, s'⟩ := by
  simp only [publicationTypes, List.mem_cons, List.not_mem_nil, or_false, not_or] at h
  simp [Quiet, isPublish, isConfirm, isValidation, h]

/-- A validation replaces the recorded candidate and nothing else. -/
theorem PublicationInv.validated (h : PublicationInv spec history m) (hn : Names s e m)
    (ht : e.eventType = .validationPassed ∨ e.eventType = .revalidationPassed)
    (hid : m'.nodeId = m.nodeId) (hfields : m'.publicationFields = m.publicationFields)
    (hcandidate : m'.candidateFields = recordedFields (some (candidateIdentity e)))
    (hstate : m.state ≠ .done ∧ m'.state ≠ .done ∧ m'.state ≠ .publishing) :
    PublicationInv spec (history ++ [⟨s, ⟨e, effects⟩, s'⟩]) m' := by
  have hvalidation : isValidation m.nodeId ⟨s, ⟨e, effects⟩, s'⟩ = true := by
    obtain ht | ht := ht <;> simp [isValidation, ht, hn.nodeId]
  refine h.keep hid hfields (.inr hstate) ?_ ?_ ?_
  · obtain ht | ht := ht <;> simp [isPublish, ht]
  · obtain ht | ht := ht <;> simp [isConfirm, ht]
  · rw [candidateOf_snoc, if_pos hvalidation, hcandidate]

theorem PublicationInv.move (h : PublicationInv spec history m) (hn : Names s e m)
    (hmove : NodeMove s e m m') : PublicationInv spec (history ++ [⟨s, ⟨e, effects⟩, s'⟩]) m' := by
  cases hmove with
  | acquireLease ht | releaseLease ht =>
      exact h.quiet (quiet_of_type (by rw [ht]; decide)) rfl rfl rfl (.inl rfl)
  | authorizePublication ht =>
      exact h.quiet (quiet_of_type (by rw [ht]; decide)) rfl rfl rfl (.inl rfl)
  | implementationCompleted ht _ hstate | requestCorrection ht _ _ hstate
  | freezeFindings ht hstate | markReady ht hstate | authorizeRepair ht hstate
  | repairCompleted ht _ hstate | closureCompleted ht hstate =>
      exact h.quiet (quiet_of_type (by rw [ht]; decide)) rfl rfl rfl (.inr (by simp [hstate]))
  | validationPassed ht _ hstate =>
      exact h.validated hn (.inl ht) rfl rfl rfl (by simp [hstate])

theorem PublicationInv.dispatch {role : String} (h : PublicationInv spec history m)
    (hn : Names s e m) (hmove : DispatchMove s e m role m') :
    PublicationInv spec (history ++ [⟨s, ⟨e, effects⟩, s'⟩]) m' := by
  cases hmove with
  | startImplementation ht _ _ hstate | startReview ht hstate | startRepair ht _ hstate =>
      exact h.quiet (quiet_of_type (by rw [ht]; decide)) rfl rfl rfl (.inr (by simp [hstate]))
  | revalidationPassed ht _ hstate =>
      exact h.validated hn (.inr ht) rfl rfl rfl (by simp [hstate])

theorem PublicationInv.fail {closed : NodeSnapshot} {reason : String}
    (h : PublicationInv spec history m) (hmove : FailMove s e m closed) :
    PublicationInv spec (history ++ [⟨s, ⟨e, effects⟩, s'⟩]) (closed.failed reason) := by
  cases hmove with
  | validationFailed ht _ hstate | revalidationFailed ht _ hstate | closureFailed ht hstate
  | publishFailed ht hstate =>
      exact h.quiet (quiet_of_type (by rw [ht]; decide)) rfl rfl rfl
        (.inr (by simp [NodeSnapshot.failed, hstate]))
  | failNode ht hlive =>
      refine h.quiet (quiet_of_type (by rw [ht]; decide)) rfl rfl rfl (.inr ⟨?_, nofun, nofun⟩)
      intro hdone
      exact hlive (by rw [hdone]; decide)

/-- `START_PUBLISH` appends its intent, the next one of the required sequence. -/
theorem PublicationInv.publish {kind : EffectKind} {operationId : String}
    {intent : ExternalEffectIntent} (h : PublicationInv spec history m) (hn : Names s e m)
    (hspec : s.spec = spec) (hguard : PublishGuard s e m kind operationId intent) :
    PublicationInv spec (history ++ [⟨s, ⟨e, [intent]⟩, s'⟩]) (m.publishing kind operationId) := by
  have hpublish : isPublish m.nodeId ⟨s, ⟨e, [intent]⟩, s'⟩ = true := by
    simp [isPublish, hguard.eventType, hn.nodeId]
  have hpendingOperation : m.pendingPublicationOperationId.toList = [] := by
    rw [hguard.idle, Option.toList_none]
  have hpendingEffect : m.pendingPublicationEffect.toList = [] := by
    have hpaired := h.paired
    rw [hguard.idle, Option.isSome_none, eq_comm, Option.isSome_eq_false_iff,
      Option.isNone_iff_eq_none] at hpaired
    rw [hpaired, Option.toList_none]
  have hintents : intentsOf m.nodeId (history ++ [⟨s, ⟨e, [intent]⟩, s'⟩])
      = intentsOf m.nodeId history ++ [intent] := by
    rw [intentsOf_snoc, if_pos hpublish]
  obtain ⟨hoperation, hkind, -⟩ := hguard.identity
  obtain ⟨allowed, required, expected, hsequences, hexpected, hnext⟩ := hguard.next
  obtain rfl : required = requiredSequence spec.publicationAuthority :=
    hspec ▸ effectSequences_eq_ok hsequences
  obtain rfl : .str kind.value = expected := by simpa using hnext
  have hfront := h.sequence
  rw [hpendingEffect, List.append_nil] at hfront
  obtain ⟨rest, hrest⟩ := hfront
  have hhead : rest[0]? = some (.str kind.value) := by
    rw [← hrest, List.getElem?_append_right (by simp)] at hexpected
    simpa using hexpected
  obtain ⟨tail, rfl⟩ : ∃ tail, rest = .str kind.value :: tail := by
    cases rest with
    | nil => simp at hhead
    | cons v tail => exact ⟨tail, by simpa using hhead⟩
  refine ⟨?_, ?_, rfl, fun _ => rfl, ?_, h.lengths, ?_, ?_, ?_, ?_⟩
  · show (intentsOf m.nodeId _).map _ = _
    rw [hintents, List.map_append, h.operations, hpendingOperation, List.append_nil,
      List.map_singleton, hoperation]
    rfl
  · show (intentsOf m.nodeId _).map _ = _
    rw [hintents, List.map_append, h.kinds, hpendingEffect, List.append_nil, List.map_singleton,
      hkind]
    rfl
  · show (confirmationsOf m.nodeId _).map _ = _
    rw [confirmationsOf_snoc, if_neg (by simp [isConfirm, hguard.eventType]), List.append_nil,
      h.confirmed]
    rfl
  · refine ⟨tail, ?_⟩
    show (m.completedPublicationEffects ++ [kind.value]).map Value.str ++ tail = _
    rw [← hrest]
    simp
  · have hdistinct := h.distinct
    rw [hpendingOperation, List.append_nil] at hdistinct
    show (m.publicationOperationIds ++ [operationId]).Nodup
    exact List.nodup_append.mpr ⟨hdistinct, List.nodup_singleton _, fun a ha b hb => by
      obtain rfl := List.mem_singleton.mp hb
      exact fun heq => hguard.fresh (heq ▸ ha)⟩
  · refine iff_of_false nofun fun hcomplete => ?_
    have hlength := congrArg List.length (hrest.trans hcomplete.symm)
    simp [NodeSnapshot.publishing] at hlength
  · show m.candidateFields = recordedFields (candidateOf m.nodeId _)
    rw [candidateOf_snoc, if_neg (by simp [isValidation, hguard.eventType]), h.candidate]

/-- `PUBLISH_CONFIRMED` moves the pending intent to the confirmed ones. -/
theorem PublicationInv.confirm {effect operationId : String} {complete : Bool}
    (h : PublicationInv spec history m) (hn : Names s e m) (hspec : s.spec = spec)
    (hguard : ConfirmGuard s e m effect operationId complete) :
    PublicationInv spec (history ++ [⟨s, ⟨e, effects⟩, s'⟩])
      (m.confirmed effect operationId complete) := by
  obtain ⟨pending, hpending⟩ := Option.isSome_iff_exists.mp (h.publishing hguard.publishing)
  obtain rfl : operationId = pending := by
    rw [hguard.pendingOperation, hpending]
    rfl
  have hconfirm : isConfirm m.nodeId ⟨s, ⟨e, effects⟩, s'⟩ = true := by
    simp [isConfirm, hguard.eventType, hn.nodeId]
  have hread : e.payload.read "operation_id" = .str operationId := by
    have hoperation := hguard.operation
    rw [hpending] at hoperation
    simpa using hoperation
  have hintents : intentsOf m.nodeId (history ++ [⟨s, ⟨e, effects⟩, s'⟩])
      = intentsOf m.nodeId history := by
    rw [intentsOf_snoc, if_neg (by simp [isPublish, hguard.eventType]), List.append_nil]
  refine ⟨?_, ?_, rfl, ?_, ?_, ?_, ?_, ?_, ?_, ?_⟩
  · show (intentsOf m.nodeId _).map _ = (m.publicationOperationIds ++ [operationId]) ++ []
    rw [hintents, h.operations, hpending, List.append_nil]
    rfl
  · show (intentsOf m.nodeId _).map _ = (m.completedPublicationEffects ++ [effect]) ++ []
    rw [hintents, h.kinds, hguard.pendingEffect, List.append_nil]
    rfl
  · cases complete <;> exact nofun
  · show (confirmationsOf m.nodeId _).map _ = (m.publicationOperationIds ++ [operationId]).map _
    rw [confirmationsOf_snoc, if_pos hconfirm, List.map_append, h.confirmed, List.map_append,
      List.map_singleton, List.map_singleton, hread]
  · simp [NodeSnapshot.confirmed, h.lengths]
  · show ((m.completedPublicationEffects ++ [effect]) ++ []).map Value.str <+: _
    have hsequence := h.sequence
    rw [hguard.pendingEffect] at hsequence
    simpa using hsequence
  · show ((m.publicationOperationIds ++ [operationId]) ++ []).Nodup
    have hdistinct := h.distinct
    rw [hpending] at hdistinct
    simpa using hdistinct
  · have hcompletes : complete = true ↔ (m.completedPublicationEffects ++ [effect]).map Value.str
        = requiredSequence spec.publicationAuthority := by
      rw [hguard.completes, sequenceComplete]
      constructor
      · rintro ⟨allowed, required, hsequences, heq⟩
        rw [Value.eqItems_strs, effectSequences_eq_ok hsequences, hspec] at heq
        exact heq
      · intro heq
        obtain ⟨allowed, required, hsequences⟩ := CampaignSpec.effectSequences_ok s.spec
        refine ⟨allowed, required, hsequences, ?_⟩
        rw [Value.eqItems_strs, effectSequences_eq_ok hsequences, hspec]
        exact heq
    show (if complete then NodeState.done else .readyToPublish) = .done ↔ _
    rw [NodeSnapshot.confirmed, ← hcompletes]
    cases complete <;> simp
  · show m.candidateFields = recordedFields (candidateOf m.nodeId _)
    rw [candidateOf_snoc, if_neg (by simp [isValidation, hguard.eventType]), h.candidate]

/-- **Step lemma.**  Every accepted event keeps the invariant of every node. -/
theorem PublicationInv.step (h : PublicationInv spec history m) (hid : m.nodeId = m'.nodeId)
    (hspec : s.spec = spec) (hstep : NodeStep s e effects m m') :
    PublicationInv spec (history ++ [⟨s, ⟨e, effects⟩, s'⟩]) m' := by
  cases hstep with
  | same hother =>
      refine h.quiet ?_ rfl rfl rfl (.inl rfl)
      obtain hnode | htype := hother
      · exact quiet_of_node hnode
      · refine quiet_of_type fun hmem => ?_
        simp only [campaignEvents, publicationTypes, List.mem_cons, List.not_mem_nil,
          or_false] at htype hmem
        rcases htype with ht | ht | ht | ht | ht | ht <;> simp [ht] at hmem
  | unlease ht => exact h.quiet (quiet_of_type (by rw [ht]; decide)) rfl rfl rfl (.inl rfl)
  | cancel ht =>
      have hquiet : Quiet m.nodeId ⟨s, ⟨e, effects⟩, s'⟩ :=
        quiet_of_type (by rw [ht]; decide)
      unfold cancelNode
      split
      · exact h.quiet hquiet rfl rfl rfl (.inl rfl)
      · next hlive =>
          refine h.quiet hquiet rfl rfl rfl (.inr ⟨?_, by simp, by simp⟩)
          intro hdone
          simp [hdone, terminalNodeStates] at hlive
  | admitted ht _ hstate =>
      exact h.quiet (quiet_of_type (by rw [ht]; decide)) rfl rfl rfl (.inr (by simp [hstate]))
  | move hn hmove => exact h.move hn hmove
  | dispatch hn hmove => exact h.dispatch hn hmove
  | fail _ hmove => exact h.fail hmove
  | publish hn hguard heffects =>
      subst heffects
      exact h.publish hn hspec hguard
  | confirm hn hguard => exact h.confirm hn hspec hguard

end Keep

/-! ### Every run -/

section Runs

variable [Runtime] {spec : CampaignSpec} {history : List (Entry CampaignSnapshot Applied)}
  {s : CampaignSnapshot}

/-- **Run lemma.**  The specification is immutable and every node agrees with its history. -/
theorem publicationInv_run (h : CampaignRun spec history s) :
    s.spec = spec ∧ ∀ n ∈ s.nodes, PublicationInv spec history n := by
  obtain ⟨s₀, hinit, hrun⟩ := h
  induction hrun with
  | start =>
      refine ⟨(initial_eq_ok hinit).1, fun n hn => ?_⟩
      rw [initial_node hinit hn]
      exact .start _
  | snoc _ hstep ih =>
      have haccepted := reduce_accepted hstep
      refine ⟨haccepted.spec_eq.trans ih.1, fun n hn => ?_⟩
      obtain ⟨m, hm, hid, hnode⟩ := haccepted.node_cases hn
      exact (ih.2 m hm).step hid ih.1 hnode

/-- A step that is no validation of the node keeps its candidate. -/
theorem NodeStep.candidateFields_eq {s s' : CampaignSnapshot} {e : Event}
    {effects : List ExternalEffectIntent} {m m' : NodeSnapshot} (h : NodeStep s e effects m m')
    (hquiet : isValidation m.nodeId ⟨s, ⟨e, effects⟩, s'⟩ = false) :
    m'.candidateFields = m.candidateFields := by
  cases h with
  | same | unlease | admitted | publish | confirm => rfl
  | cancel =>
      unfold cancelNode
      split <;> rfl
  | move hn hmove =>
      cases hmove with
      | validationPassed ht => simp [isValidation, ht, hn.nodeId] at hquiet
      | _ => rfl
  | dispatch hn hmove =>
      cases hmove with
      | revalidationPassed ht => simp [isValidation, ht, hn.nodeId] at hquiet
      | _ => rfl
  | fail _ hmove => cases hmove <;> rfl

/-- The emitted intents are all confirmed exactly when nothing is pending. -/
theorem PublicationInv.done_iff {n : NodeSnapshot} (h : PublicationInv spec history n) :
    n.state = .done ↔
      (intentsOf n.nodeId history).map (Value.str ·.kind.value)
          = requiredSequence spec.publicationAuthority ∧
        (confirmationsOf n.nodeId history).map (·.payload.read "operation_id")
          = (intentsOf n.nodeId history).map (Value.str ·.operationId) := by
  have hkinds : (intentsOf n.nodeId history).map (Value.str ·.kind.value)
      = (n.completedPublicationEffects ++ n.pendingPublicationEffect.toList).map .str := by
    rw [← h.kinds, List.map_map]
    rfl
  have hoperations : (intentsOf n.nodeId history).map (Value.str ·.operationId)
      = (n.publicationOperationIds ++ n.pendingPublicationOperationId.toList).map .str := by
    rw [← h.operations, List.map_map]
    rfl
  rw [h.done, hkinds, hoperations, h.confirmed]
  cases heffect : n.pendingPublicationEffect with
  | none =>
      have hpending : n.pendingPublicationOperationId = none := by
        have hpaired := h.paired
        rw [heffect, Option.isSome_none, Option.isSome_eq_false_iff,
          Option.isNone_iff_eq_none] at hpaired
        exact hpaired
      simp [hpending]
  | some effect =>
      refine iff_of_false (fun hcomplete => ?_) fun hall => ?_
      · have hlength := h.sequence.length_le
        rw [← hcomplete, heffect, List.length_map, List.length_map, List.length_append,
          Option.toList_some, List.length_singleton] at hlength
        omega
      · obtain ⟨operation, hoperation⟩ := Option.isSome_iff_exists.mp
          (h.paired.trans (by rw [heffect]; rfl))
        have hlength := congrArg List.length hall.2
        simp [hoperation] at hlength

/-- **The publication law** of a run: see the fields. -/
structure PublicationLaw (spec : CampaignSpec) (history : List (Entry CampaignSnapshot Applied))
    (s : CampaignSnapshot) : Prop where
  /-- The kinds emitted for a node are a prefix of the required sequence, without repetition. -/
  sequence : ∀ n ∈ s.nodes,
    (intentsOf n.nodeId history).map (Value.str ·.kind.value)
        <+: requiredSequence spec.publicationAuthority ∧
      ((intentsOf n.nodeId history).map (·.kind)).Nodup
  /-- The operations of a node are distinct. -/
  operations : ∀ n ∈ s.nodes, ((intentsOf n.nodeId history).map (·.operationId)).Nodup
  /-- When an intent is emitted, the earlier ones were confirmed, each under its own operation. -/
  after_confirmation : ∀ earlier t later, history = earlier ++ t :: later → ∀ k,
    isPublish k t = true →
      (confirmationsOf k earlier).map (·.payload.read "operation_id")
        = (intentsOf k earlier).map (Value.str ·.operationId)
  /-- A confirmation carries the current candidate head of its node. -/
  confirmed_head : ∀ t ∈ history, ∀ k, isConfirm k t = true →
    ∃ n ∈ t.before.nodes, n.nodeId = k ∧ Present n.candidateHead ∧
      t.label.event.payload.read "candidate_head" = optionalText n.candidateHead
  /-- Every intent carries the head the most recent validation of its node recorded. -/
  bound_head : ∀ earlier t later, history = earlier ++ t :: later → ∀ k, isPublish k t = true →
    ∃ intent candidate, t.label.effects = [intent] ∧ intent.external = true ∧
      intent.nodeId = some k ∧ candidateOf k earlier = some candidate ∧ candidate.head ≠ "" ∧
      intent.payload.get? "candidate_head" = some (.str candidate.head)
  /-- The candidate fields change at no other event. -/
  frozen_candidate : ∀ t ∈ history, ∀ n ∈ t.before.nodes, ∀ n' ∈ t.after.nodes,
    n'.nodeId = n.nodeId → isValidation n.nodeId t = false →
      n'.candidateFields = n.candidateFields
  /-- A node is done iff its whole required sequence was emitted and confirmed. -/
  done : ∀ n ∈ s.nodes, n.state = .done ↔
    (intentsOf n.nodeId history).map (Value.str ·.kind.value)
        = requiredSequence spec.publicationAuthority ∧
      (confirmationsOf n.nodeId history).map (·.payload.read "operation_id")
        = (intentsOf n.nodeId history).map (Value.str ·.operationId)

theorem eventType_of_isPublish {k : String} {t : Entry CampaignSnapshot Applied}
    (h : isPublish k t = true) :
    t.label.event.eventType = .startPublish ∧ t.label.event.nodeId = some k := by
  simpa [isPublish] using h

theorem eventType_of_isConfirm {k : String} {t : Entry CampaignSnapshot Applied}
    (h : isConfirm k t = true) :
    t.label.event.eventType = .publishConfirmed ∧ t.label.event.nodeId = some k := by
  simpa [isConfirm] using h

/-- What holds when a run emits an intent for node `k`. -/
theorem publish_entry {earlier later : List (Entry CampaignSnapshot Applied)}
    {t : Entry CampaignSnapshot Applied} {k : String}
    (h : CampaignRun spec (earlier ++ t :: later) s) (hpublish : isPublish k t = true) :
    ∃ n kind operationId intent, n.nodeId = k ∧ PublicationInv spec earlier n ∧ ReviewInv n ∧
      t.label.effects = [intent] ∧
      PublishGuard t.before t.label.event n kind operationId intent := by
  obtain ⟨hearlier, haccepted⟩ := h.cut
  obtain ⟨ht, hk⟩ := eventType_of_isPublish hpublish
  obtain ⟨s₁, hstep, -⟩ := haccepted.step
  obtain ⟨n, kind, operationId, intent, hn, heffects, hguard⟩ := hstep.startPublish ht
  have hid : n.nodeId = k := Option.some.inj (hn.nodeId.symm.trans hk)
  exact ⟨n, kind, operationId, intent, hid, (publicationInv_run hearlier).2 n hn.mem,
    reviewInv_run hearlier n hn.mem, heffects, hguard⟩

theorem after_confirmation {earlier later : List (Entry CampaignSnapshot Applied)}
    {t : Entry CampaignSnapshot Applied} {k : String}
    (h : CampaignRun spec (earlier ++ t :: later) s) (hpublish : isPublish k t = true) :
    (confirmationsOf k earlier).map (·.payload.read "operation_id")
      = (intentsOf k earlier).map (Value.str ·.operationId) := by
  obtain ⟨n, kind, operationId, intent, rfl, hinv, -, -, hguard⟩ := publish_entry h hpublish
  have hoperations := congrArg (List.map Value.str) hinv.operations
  rw [hguard.idle, Option.toList_none, List.append_nil, List.map_map] at hoperations
  rw [hinv.confirmed, ← hoperations]
  rfl

theorem bound_head {earlier later : List (Entry CampaignSnapshot Applied)}
    {t : Entry CampaignSnapshot Applied} {k : String}
    (h : CampaignRun spec (earlier ++ t :: later) s) (hpublish : isPublish k t = true) :
    ∃ intent candidate, t.label.effects = [intent] ∧ intent.external = true ∧
      intent.nodeId = some k ∧ candidateOf k earlier = some candidate ∧ candidate.head ≠ "" ∧
      intent.payload.get? "candidate_head" = some (.str candidate.head) := by
  obtain ⟨n, kind, operationId, intent, rfl, hinv, hreview, heffects, hguard⟩ :=
    publish_entry h hpublish
  obtain ⟨-, -, hnode, -, -, hexternal, -⟩ := hguard.identity
  obtain ⟨head, hhead, hne⟩ :=
    (hreview.gate (by rw [hguard.ready]; decide)).2.2.2.1.1
  have hcandidate := congrArg Prod.fst hinv.candidate
  obtain ⟨candidate, hrecorded, hsame⟩ := Option.map_eq_some_iff.mp (hcandidate.symm.trans hhead)
  refine ⟨intent, candidate, heffects, hexternal, ?_, hrecorded, hsame ▸ hne, ?_⟩
  · rw [hnode]
    exact (eventType_of_isPublish hpublish).2
  · obtain ⟨payload, hbound, hpayload⟩ := hguard.bound
    rw [candidateHeadValue, hhead, eq_optionalText, optionalText_some, Mapping.read,
      Mapping.getD] at hbound
    rw [hpayload, get?_sortByKey, hsame]
    cases hget : payload.get? "candidate_head" with
    | none => simp [hget] at hbound
    | some v =>
        rw [hget, Option.getD_some] at hbound
        rw [hbound]

theorem confirmed_head {t : Entry CampaignSnapshot Applied} {k : String}
    (h : CampaignRun spec history s) (ht : t ∈ history) (hconfirm : isConfirm k t = true) :
    ∃ n ∈ t.before.nodes, n.nodeId = k ∧ Present n.candidateHead ∧
      t.label.event.payload.read "candidate_head" = optionalText n.candidateHead := by
  obtain ⟨earlier, later, rfl⟩ := List.append_of_mem ht
  obtain ⟨hearlier, haccepted⟩ := h.cut
  obtain ⟨htype, hk⟩ := eventType_of_isConfirm hconfirm
  obtain ⟨s₁, hstep, -⟩ := haccepted.step
  obtain ⟨n, effect, operationId, complete, hn, hguard⟩ := hstep.publishConfirmed htype
  have hgate := (reviewInv_run hearlier n hn.mem).gate (by rw [hguard.publishing]; decide)
  refine ⟨n, hn.mem, Option.some.inj (hn.nodeId.symm.trans hk), hgate.2.2.2.1.1, ?_⟩
  simpa [candidateHeadValue] using hguard.head

/-- **The publication sequence and its candidate.**  Every run obeys the publication law. -/
theorem publication_law (h : CampaignRun spec history s) : PublicationLaw spec history s where
  sequence n hn := by
    have hinv := (publicationInv_run h).2 n hn
    have hkinds : (intentsOf n.nodeId history).map (Value.str ·.kind.value)
        = ((intentsOf n.nodeId history).map (·.kind.value)).map Value.str := by
      rw [List.map_map]
      rfl
    have hsequence := hinv.sequence
    rw [← hinv.kinds, ← hkinds] at hsequence
    refine ⟨hsequence, List.Nodup.of_map EffectKind.value ?_⟩
    rw [List.map_map]
    exact Value.nodup_of_distinct spec.requiredSequence_ok.2 (hkinds ▸ hsequence)
  operations n hn := by
    have hinv := (publicationInv_run h).2 n hn
    rw [hinv.operations]
    exact hinv.distinct
  after_confirmation _ _ _ hsplit _ hpublish := after_confirmation (hsplit ▸ h) hpublish
  confirmed_head _ ht _ hconfirm := confirmed_head h ht hconfirm
  bound_head _ _ _ hsplit _ hpublish := bound_head (hsplit ▸ h) hpublish
  frozen_candidate t ht n hn n' hn' hid hquiet := by
    obtain ⟨earlier, later, rfl⟩ := List.append_of_mem ht
    obtain ⟨-, haccepted⟩ := h.cut
    obtain ⟨m, hm, hmid, hstep⟩ := haccepted.node_cases hn'
    obtain rfl := CampaignSnapshot.node_unique hn hm (hmid.trans hid)
    exact hstep.candidateFields_eq hquiet
  done n hn := ((publicationInv_run h).2 n hn).done_iff

end Runs

open Sample in
/-- The sample run emitted the first intent of its sequence, bound to the validated head. -/
theorem publication_law_sample :
    ∃ n ∈ run.2.nodes, (intentsOf n.nodeId run.1).map (·.kind) = [.push] ∧
      (intentsOf n.nodeId run.1).map (Value.str ·.kind.value)
        <+: requiredSequence spec.publicationAuthority := by
  obtain ⟨n, hn, hkinds⟩ : ∃ n ∈ run.2.nodes, (intentsOf n.nodeId run.1).map (·.kind) = [.push] := by
    decide +kernel
  exact ⟨n, hn, hkinds, ((publication_law campaignRun).sequence n hn).1⟩

end CodingOS.Campaign
