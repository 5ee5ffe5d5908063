import CodingOS.Campaign.Projection
import CodingOS.Campaign.SpecificationRecord

/-!
# Reading a snapshot back

`from_dict` of the snapshot classes, applied to the decoded JSON of `to_dict`.  What is read back is the
snapshot as `reload` describes it, with its mappings frozen: an optional text that is empty comes back as
`None`.  In a reached snapshot the failure reason is the only such text, and it is empty exactly when the
event that ended the campaign gave an empty reason.

A snapshot whose nodes are those of the specification in another order, which the program accepts, is not
a `CampaignSnapshot` here; the program writes none.
-/

namespace CodingOS.Campaign

open CodingOS.Python Systems

/-! ### `from_dict` -/

section FromDict

variable [Runtime]

/-- `_enum(enum_type, value.get(key, default))`. -/
def fieldEnumD {α : Type} (entries : Mapping) (key default : String) (ofValue? : String → Option α)
    (name : String) : Result α :=
  let v := entries.getD key (.str default)
  orRaise (ofValue? (decodedText v)) .modelValidation ("invalid " ++ name ++ ": " ++ decodedRepr v)

/-- `int(value.get(key, 0))`. -/
def fieldIntD (entries : Mapping) (key : String) : Result ℤ := intOf (entries.getD key (.int 0))

/-- `BudgetBalance.from_dict`. -/
def BudgetBalance.fromDict (value : Value) : Result BudgetBalance := do
  let entries ← document value
  let token ← fieldEnum entries "token" BudgetToken.ofValue? "BudgetToken"
  let limit ← fieldInt entries "limit"
  let consumed ← fieldIntD entries "consumed"
  check .modelValidation (0 ≤ limit && 0 ≤ consumed) "invalid budget balance"
  if h : consumed.toNat ≤ limit.toNat then return ⟨token, limit.toNat, consumed.toNat, h⟩
  else fail .modelValidation "invalid budget balance"

/-- `BudgetReceipt.from_dict`.  The class does not refuse a negative revision, and the program writes none. -/
def BudgetReceipt.fromDict (value : Value) : Result BudgetReceipt := do
  let entries ← document value
  let requestId ← fieldText entries "request_id"
  let token ← fieldEnum entries "token" BudgetToken.ofValue? "BudgetToken"
  let revision ← fieldInt entries "revision"
  let _ ← nonempty (.str requestId) "budget request_id"
  return { requestId, token, revision := revision.toNat }

/-- The correction a node stores: an object, frozen. -/
def frozenCorrection (correction : Value) : Result (Option Mapping) :=
  match freeze correction with
  | .null => pure none
  | .mapping entries => pure (some entries)
  | _ => fail .python "a correction that is no object"

/-- `NodeSnapshot.from_dict`, with the checks of `__post_init__`. -/
def NodeSnapshot.fromDict (value : Value) : Result NodeSnapshot := do
  let entries ← document value
  let nodeId ← fieldText entries "node_id"
  let state ← fieldEnumD entries "state" "PENDING" NodeState.ofValue? "NodeState"
  let fencingEpoch ← fieldIntD entries "fencing_epoch"
  let implementationAttempts ← fieldIntD entries "implementation_attempts"
  let validationCorrections ← fieldIntD entries "validation_corrections"
  let reviewGenerations ← fieldIntD entries "review_generations"
  let repairAttempts ← fieldIntD entries "repair_attempts"
  let closureGenerations ← fieldIntD entries "closure_generations"
  let findingItems ← fieldItems entries "findings"
  let findings ← findingItems.mapM fun item => Finding.fromDict item .review
  let closureItems ← fieldItems entries "closure_findings"
  let closureFindings ← closureItems.mapM fun item => Finding.fromDict item .closure
  let resolvedFindingIds ← fieldTexts entries "resolved_finding_ids"
  let completedPublicationEffects ← fieldTexts entries "completed_publication_effects"
  let publicationOperationIds ← fieldTexts entries "publication_operation_ids"
  let validationCorrection ← frozenCorrection (entries.read "validation_correction")
  let _ ← nonempty (.str nodeId) "node_id"
  check .modelValidation
    ([fencingEpoch, implementationAttempts, validationCorrections, reviewGenerations, repairAttempts,
      closureGenerations].all fun n => 0 ≤ n)
    "node counters must not be negative"
  return {
    nodeId, state
    fencingEpoch := fencingEpoch.toNat
    leaseActorId := fieldOptional entries "lease_actor_id"
    implementationAttempts := implementationAttempts.toNat
    validationCorrections := validationCorrections.toNat
    validationCorrection
    reviewGenerations := reviewGenerations.toNat
    repairAttempts := repairAttempts.toNat
    closureGenerations := closureGenerations.toNat
    startHead := fieldOptional entries "start_head"
    candidateHead := fieldOptional entries "candidate_head"
    candidateTree := fieldOptional entries "candidate_tree"
    candidateDiffDigest := fieldOptional entries "candidate_diff_digest"
    candidateNodeDiffDigest := fieldOptional entries "candidate_node_diff_digest"
    findings, closureFindings, resolvedFindingIds, completedPublicationEffects, publicationOperationIds
    pendingPublicationEffect := fieldOptional entries "pending_publication_effect"
    pendingPublicationOperationId := fieldOptional entries "pending_publication_operation_id"
    publicationAuthorizationReceiptId := fieldOptional entries "publication_authorization_receipt_id"
    publicationAuthorizationReceiptDigest :=
      fieldOptional entries "publication_authorization_receipt_digest"
    failureReason := fieldOptional entries "failure_reason" }

/-- `CampaignSnapshot.from_dict`, with the checks of `__post_init__`. -/
def CampaignSnapshot.fromDict (value : Value) : Result CampaignSnapshot := do
  let entries ← document value
  let specValue ← fieldValue entries "spec"
  let spec ← CampaignSpec.fromDict specValue
  let revision ← fieldInt entries "revision"
  let state ← fieldEnum entries "state" CampaignState.ofValue? "CampaignState"
  let authorityEpoch ← fieldInt entries "authority_epoch"
  let cancellationEpoch ← fieldInt entries "cancellation_epoch"
  let cancellationState ← fieldEnum entries "cancellation_state" CancellationState.ofValue?
    "CancellationState"
  let nodesValue ← fieldValue entries "nodes"
  let nodeItems ← orRaise nodesValue.items? .python "object is not iterable"
  let nodes ← nodeItems.mapM NodeSnapshot.fromDict
  let budgetItems ← fieldItems entries "budgets"
  let budgets ← budgetItems.mapM BudgetBalance.fromDict
  let receiptItems ← fieldItems entries "budget_receipts"
  let budgetReceipts ← receiptItems.mapM BudgetReceipt.fromDict
  let rank ← fieldInt entries "autonomous_rank_remaining"
  check .modelValidation (0 ≤ revision && 0 ≤ authorityEpoch && 0 ≤ cancellationEpoch)
    "snapshot revisions and epochs must not be negative"
  check .modelValidation (0 ≤ rank) "autonomous rank must not be negative"
  let ids := nodes.map (·.nodeId)
  let graph := spec.nodes.map (·.nodeId)
  check .modelValidation (ids.all graph.contains && graph.all ids.contains)
    "snapshot node set differs from immutable graph"
  if h : nodes.map (·.nodeId) = spec.nodes.map (·.nodeId) then
    return {
      spec
      revision := revision.toNat
      state
      authorityEpoch := authorityEpoch.toNat
      cancellationEpoch := cancellationEpoch.toNat
      cancellationState, nodes, budgets, budgetReceipts
      autonomousRankRemaining := rank.toNat
      activeNodeId := fieldOptional entries "active_node_id"
      failureReason := fieldOptional entries "failure_reason"
      node_ids := h }
  else fail .python "the nodes of the specification in another order"

end FromDict

/-! ### Frozen snapshots -/

/-- The mappings of a snapshot in the order `_freeze` gives them. -/
def Finding.frozen (f : Finding) : Finding := { f with details := Mapping.freeze f.details }

def NodeSnapshot.frozen (n : NodeSnapshot) : NodeSnapshot :=
  { n with
    validationCorrection := n.validationCorrection.map Mapping.freeze
    findings := n.findings.map Finding.frozen
    closureFindings := n.closureFindings.map Finding.frozen }

def CampaignSnapshot.frozen [Runtime] (s : CampaignSnapshot) : CampaignSnapshot :=
  s.mapNodes NodeSnapshot.frozen fun _ => rfl

/-! ### What can be read -/

/-- The texts of a finding that `from_dict` refuses when they are blank. -/
structure Finding.Legible (f : Finding) : Prop where
  id : isBlank f.findingId = false
  title : isBlank f.title = false

structure NodeSnapshot.Legible (n : NodeSnapshot) : Prop where
  findings : ∀ f ∈ n.findings, f.Legible
  closureFindings : ∀ f ∈ n.closureFindings, f.Legible

section Legible

variable [Runtime]

theorem nonempty_str {s name : String} (h : isBlank s = false) : nonempty (.str s) name = .ok (strip s) := by
  have hne : s ≠ "" := by
    rintro rfl
    simp [isBlank, strip, lstripChars, rstripChars] at h
  have htruthy : (Value.str s).truthy = true := by simp [Value.truthy, hne]
  have hstrip : (strip s != "") = true := by
    rw [isBlank, beq_eq_false_iff_ne] at h
    simpa using h
  rw [nonempty, if_pos htruthy, Value.text_str]
  simp only [hstrip, check, if_true, bind, Except.bind]
  rfl

theorem isBlank_of_nonempty {s name text : String} (h : nonempty (.str s) name = .ok text) :
    isBlank s = false := by
  simp only [nonempty, bind_eq_ok, check_eq_ok, exists_const] at h
  obtain ⟨hstrip, -⟩ := h
  cases s.decEq "" with
  | isTrue heq =>
      subst heq
      simp [Value.truthy, strip, lstripChars, rstripChars] at hstrip
  | isFalse hne =>
      have htruthy : (Value.str s).truthy = true := by simp [Value.truthy, hne]
      rw [if_pos htruthy, Value.text_str] at hstrip
      rw [isBlank, beq_eq_false_iff_ne]
      simpa using hstrip

theorem Finding.legible_of_fromDict {value : Value} {origin : FindingOrigin} {f : Finding}
    (h : Finding.fromDict value origin = .ok f) : f.Legible := by
  simp only [Finding.fromDict, bind_eq_ok] at h
  obtain ⟨_, -, _, -, _, -, _, -, h⟩ := h
  split at h
  · simp only [bind_eq_ok, pure_eq_ok] at h
    obtain ⟨_, -, _, -, _, hid, _, htitle, rfl⟩ := h
    exact ⟨isBlank_of_nonempty hid, isBlank_of_nonempty htitle⟩
  · simp [bind_eq_ok] at h

theorem mergeFinding_legible {origin : FindingOrigin} {findings findings' : List Finding} {value : Value}
    (hlegible : ∀ f ∈ findings, f.Legible) (h : mergeFinding origin findings value = .ok findings') :
    ∀ f ∈ findings', f.Legible := by
  simp only [mergeFinding, bind_eq_ok, check_eq_ok, exists_const] at h
  obtain ⟨finding, hfinding, -, h⟩ := h
  have hnew := Finding.legible_of_fromDict hfinding
  split at h
  · obtain rfl := pure_eq_ok.mp h
    intro f hf
    rcases List.mem_append.mp hf with hf | hf
    · exact hlegible f hf
    · obtain rfl := List.mem_singleton.mp hf
      exact hnew
  · next prior hprior =>
      simp only [bind_eq_ok, pure_eq_ok] at h
      obtain ⟨_, -, rfl⟩ := h
      have hold := hlegible prior (List.mem_of_find?_eq_some hprior)
      intro f hf
      obtain ⟨f', hf', rfl⟩ := List.mem_map.mp hf
      split
      · refine ⟨hold.id, ?_⟩
        show isBlank (if finding.title < prior.title then finding.title else prior.title) = false
        split
        · exact hnew.title
        · exact hold.title
      · exact hlegible f' hf'

theorem uniqueFindings_legible {origin : FindingOrigin} {values : List Value} {findings : List Finding}
    (h : uniqueFindings values origin = .ok findings) : ∀ f ∈ findings, f.Legible := by
  simp only [uniqueFindings, bind_eq_ok, pure_eq_ok] at h
  obtain ⟨merged, hmerged, rfl⟩ := h
  have hlegible : ∀ f ∈ merged, f.Legible :=
    foldlM_eq_ok_induct (motive := fun acc => ∀ f ∈ acc, Finding.Legible f)
      (fun hacc hstep => mergeFinding_legible hacc hstep) hmerged (by simp)
  intro f hf
  exact hlegible f ((List.mem_insertionSort _).mp hf)

variable {s s' : CampaignSnapshot} {e : Event} {effects : List ExternalEffectIntent} {m m' : NodeSnapshot}

theorem NodeSnapshot.Legible.keep (h : m.Legible) (hstep : NodeStep s e effects m m') : m'.Legible := by
  cases hstep with
  | same | unlease | admitted | publish | confirm => exact ⟨h.findings, h.closureFindings⟩
  | cancel =>
      unfold cancelNode
      split
      · exact h
      · exact ⟨h.findings, h.closureFindings⟩
  | move _ hmove =>
      cases hmove with
      | freezeFindings _ _ _ hfindings => exact ⟨uniqueFindings_legible hfindings, h.closureFindings⟩
      | closureCompleted _ _ hfindings => exact ⟨h.findings, uniqueFindings_legible hfindings⟩
      | acquireLease | releaseLease | implementationCompleted | requestCorrection | validationPassed
      | markReady | authorizeRepair | repairCompleted | authorizePublication =>
          exact ⟨h.findings, h.closureFindings⟩
  | dispatch _ hmove => cases hmove <;> exact ⟨h.findings, h.closureFindings⟩
  | fail _ hmove =>
      cases hmove with
      | closureFailed _ _ hfindings => exact ⟨h.findings, uniqueFindings_legible hfindings⟩
      | validationFailed | revalidationFailed | publishFailed | failNode =>
          exact ⟨h.findings, h.closureFindings⟩

theorem legible_run {spec : CampaignSpec} {history : List (Entry CampaignSnapshot Applied)}
    (h : CampaignRun spec history s) : ∀ m ∈ s.nodes, m.Legible :=
  h.node_invariant (fun _ => ⟨by simp, by simp⟩) fun hm hstep => hm.keep hstep

end Legible

/-! ### What `to_dict` writes is read back -/

theorem FindingOrigin.ofValue?_value (k : FindingOrigin) : FindingOrigin.ofValue? k.value = some k := by
  cases k <;> decide

theorem NodeState.ofValue?_value (k : NodeState) : NodeState.ofValue? k.value = some k := by
  cases k <;> decide

theorem CampaignState.ofValue?_value (k : CampaignState) : CampaignState.ofValue? k.value = some k := by
  cases k <;> decide

theorem CancellationState.ofValue?_value (k : CancellationState) :
    CancellationState.ofValue? k.value = some k := by
  cases k <;> decide

/-- Records are read one by one from what they are written as. -/
theorem mapM_freeze_eq {α β : Type} {f : Value → Result β} {g : α → Value} {k : α → β} {l : List α}
    (h : ∀ a ∈ l, f (freeze (g a)) = .ok (k a)) : ((l.map g).map freeze).mapM f = .ok (l.map k) := by
  induction l with
  | nil => rfl
  | cons a l ih =>
      obtain ⟨ha, hl⟩ := List.forall_mem_cons.mp h
      rw [List.map_cons, List.map_cons, List.mapM_cons, ha, ih hl]
      rfl

section RoundTrip

variable {m d : Mapping} {key : String}

theorem agreeAt_freeze (d : Mapping) : ∀ key, AgreeAt (Mapping.freeze d) d key :=
  agreeAt_of_freeze (Value.mapping.inj (freeze_freeze (.mapping d)))

theorem fieldItems_freeze {ws : List Value} (hd : d.get? key = some (.tuple ws)) :
    fieldItems (Mapping.freeze d) key = .ok (ws.map freeze) := by
  rw [fieldItems, Mapping.getD, Mapping.get?_freeze, hd, Option.map_some, freeze_tuple]
  rfl

variable [Runtime]

theorem fieldOptional_optionalText {t : Option String} (h : AgreeAt m d key)
    (hd : d.get? key = some (optionalText t)) : fieldOptional m key = nonemptyText t := by
  rw [fieldOptional, Mapping.read, Mapping.getD, (solid_optionalText t).read h hd]
  cases t with
  | none => rfl
  | some s =>
      by_cases hempty : s = ""
      · subst hempty
        rfl
      · rw [nonemptyText_eq (t := some s) (by simpa using hempty)]
        simp [Value.truthy, hempty]

theorem fieldIntD_eq {n : ℤ} (h : AgreeAt m d key) (hd : d.get? key = some (.int n)) :
    fieldIntD m key = .ok n := by
  rw [fieldIntD, Mapping.getD, (Solid.int n).read h hd]
  rfl

theorem fieldEnumD_eq {α : Type} {ofValue? : String → Option α} {name default : String} {a : α} {s : String}
    (hs : ofValue? s = some a) (h : AgreeAt m d key) (hd : d.get? key = some (.str s)) :
    fieldEnumD m key default ofValue? name = .ok a := by
  rw [fieldEnumD, Mapping.getD, (Solid.str s).read h hd]
  show orRaise (ofValue? s) _ _ = _
  rw [hs]
  rfl

theorem Finding.fromDict_freeze {f : Finding} (hf : f.Legible) (origin : FindingOrigin) :
    Finding.fromDict (freeze f.toDict) origin = .ok f.frozen := by
  rw [Finding.toDict, freeze_mapping, Finding.fromDict]
  have hget : ∀ key, Mapping.get? (Mapping.freeze _) key = _ := Mapping.get?_freeze [
    ("finding_id", Value.str f.findingId), ("title", .str f.title), ("blocking", .bool f.blocking),
    ("origin", .str f.origin.value), ("details", .mapping f.details)]
  have hid := (hget "finding_id").trans (show _ = some (Value.str f.findingId) from rfl)
  have htitle := (hget "title").trans (show _ = some (Value.str f.title) from rfl)
  have hblocking := (hget "blocking").trans (show _ = some (Value.bool f.blocking) from rfl)
  have horigin := (hget "origin").trans (show _ = some (Value.str f.origin.value) from rfl)
  have hdetails := (hget "details").trans (show _ = some (Value.mapping (Mapping.freeze f.details)) from rfl)
  simp only [Value.asMapping?, orRaise, bind, Except.bind, Mapping.getD, hid, htitle, hblocking, horigin,
    hdetails, Option.getD_some, Value.text_str, FindingOrigin.ofValue?_value, nonempty_str hf.id,
    nonempty_str hf.title]
  rfl

theorem BudgetBalance.fromDict_freeze (b : BudgetBalance) :
    BudgetBalance.fromDict (freeze b.toDict) = .ok b := by
  rw [BudgetBalance.toDict, freeze_mapping, BudgetBalance.fromDict]
  have hget := agreeAt_freeze [("token", Value.str b.token.value), ("limit", .int b.limit),
    ("consumed", .int b.consumed), ("remaining", .int b.remaining)]
  simp only [document_mapping, fieldEnum_eq (BudgetToken.ofValue?_value b.token) (hget "token") rfl,
    fieldInt_eq (hget "limit") rfl, fieldIntD_eq (hget "consumed") rfl, bind, Except.bind, check,
    Nat.cast_nonneg, decide_true, Bool.and_self, if_true, Int.toNat_natCast, dif_pos b.consumed_le]
  rfl

theorem BudgetReceipt.fromDict_freeze {r : BudgetReceipt} (hr : isBlank r.requestId = false) :
    BudgetReceipt.fromDict (freeze r.toDict) = .ok r := by
  rw [BudgetReceipt.toDict, freeze_mapping, BudgetReceipt.fromDict]
  have hget := agreeAt_freeze [("request_id", Value.str r.requestId), ("token", .str r.token.value),
    ("revision", .int r.revision)]
  simp only [document_mapping, fieldText_eq (hget "request_id") rfl,
    fieldEnum_eq (BudgetToken.ofValue?_value r.token) (hget "token") rfl,
    fieldInt_eq (hget "revision") rfl, nonempty_str hr, bind, Except.bind, Int.toNat_natCast]
  rfl

/-- The entries of a node that are always written. -/
def NodeSnapshot.plainEntries (n : NodeSnapshot) : Mapping := [
  ("node_id", .str n.nodeId),
  ("state", .str n.state.value),
  ("fencing_epoch", .int n.fencingEpoch),
  ("lease_actor_id", optionalText n.leaseActorId),
  ("implementation_attempts", .int n.implementationAttempts),
  ("validation_corrections", .int n.validationCorrections),
  ("review_generations", .int n.reviewGenerations),
  ("repair_attempts", .int n.repairAttempts),
  ("closure_generations", .int n.closureGenerations),
  ("start_head", optionalText n.startHead),
  ("candidate_head", optionalText n.candidateHead),
  ("candidate_tree", optionalText n.candidateTree),
  ("candidate_diff_digest", optionalText n.candidateDiffDigest),
  ("candidate_node_diff_digest", optionalText n.candidateNodeDiffDigest),
  ("findings", .tuple (n.findings.map Finding.toDict)),
  ("closure_findings", .tuple (n.closureFindings.map Finding.toDict)),
  ("resolved_finding_ids", texts n.resolvedFindingIds),
  ("completed_publication_effects", texts n.completedPublicationEffects),
  ("publication_operation_ids", texts n.publicationOperationIds),
  ("pending_publication_effect", optionalText n.pendingPublicationEffect),
  ("pending_publication_operation_id", optionalText n.pendingPublicationOperationId),
  ("publication_authorization_receipt_id", optionalText n.publicationAuthorizationReceiptId),
  ("publication_authorization_receipt_digest",
    optionalText n.publicationAuthorizationReceiptDigest),
  ("failure_reason", optionalText n.failureReason)]

omit [Runtime] in
theorem NodeSnapshot.toDict_eq (n : NodeSnapshot) : ∃ d : Mapping, n.toDict = .mapping d ∧
    d.get? "validation_correction" = n.validationCorrection.map Value.mapping ∧
    ∀ key, key ≠ "validation_correction" → d.get? key = Mapping.get? n.plainEntries key := by
  refine ⟨_, rfl, ?_, fun key hkey => ?_⟩
  · cases n.validationCorrection <;> rfl
  · cases n.validationCorrection with
    | none => rfl
    | some correction =>
        simp only [NodeSnapshot.plainEntries, List.cons_append, List.nil_append, Mapping.get?_cons, if_neg hkey]

theorem NodeSnapshot.fromDict_freeze {n : NodeSnapshot} (hid : isBlank n.nodeId = false) (hn : n.Legible) :
    NodeSnapshot.fromDict (freeze n.toDict) = .ok n.reload.frozen := by
  obtain ⟨d, hd, hdeclared, hplain⟩ := n.toDict_eq
  rw [hd, freeze_mapping]
  have hget := agreeAt_freeze d
  have plain : ∀ key {v}, key ≠ "validation_correction" → Mapping.get? n.plainEntries key = some v →
      d.get? key = some v := fun key _ hkey h => (hplain key hkey).trans h
  have count : ∀ key {k : ℕ}, key ≠ "validation_correction" →
      Mapping.get? n.plainEntries key = some (.int k) → fieldIntD (Mapping.freeze d) key = .ok (k : ℤ) :=
    fun _ _ hkey h => fieldIntD_eq (hget _) (plain _ hkey h)
  have list : ∀ key {items}, key ≠ "validation_correction" →
      Mapping.get? n.plainEntries key = some (texts items) → fieldTexts (Mapping.freeze d) key = .ok items :=
    fun _ _ hkey h => fieldTexts_eq (hget _) (plain _ hkey h)
  have optional : ∀ key {t}, key ≠ "validation_correction" →
      Mapping.get? n.plainEntries key = some (optionalText t) →
      fieldOptional (Mapping.freeze d) key = nonemptyText t :=
    fun _ _ hkey h => fieldOptional_optionalText (hget _) (plain _ hkey h)
  have findings : ∀ {l : List Finding} (origin : FindingOrigin), (∀ f ∈ l, f.Legible) →
      (((l.map Finding.toDict).map freeze).mapM fun item => Finding.fromDict item origin)
        = .ok (l.map Finding.frozen) :=
    fun origin hl => mapM_freeze_eq fun f hf => Finding.fromDict_freeze (hl f hf) origin
  have hcorrection : frozenCorrection (Mapping.read (Mapping.freeze d) "validation_correction")
      = .ok (n.validationCorrection.map Mapping.freeze) := by
    rw [Mapping.read, Mapping.getD, Mapping.get?_freeze, hdeclared]
    cases n.validationCorrection with
    | none => rfl
    | some correction =>
        show frozenCorrection (freeze (.mapping correction)) = _
        rw [frozenCorrection, freeze_freeze, freeze_mapping]
        rfl
  rw [NodeSnapshot.fromDict]
  simp only [document_mapping, fieldText_eq (hget "node_id") (plain "node_id" (by decide) rfl),
    fieldEnumD_eq (NodeState.ofValue?_value n.state) (hget "state") (plain "state" (by decide) rfl),
    count "fencing_epoch" (by decide) rfl, count "implementation_attempts" (by decide) rfl,
    count "validation_corrections" (by decide) rfl, count "review_generations" (by decide) rfl,
    count "repair_attempts" (by decide) rfl, count "closure_generations" (by decide) rfl,
    fieldItems_freeze (plain "findings" (by decide) rfl),
    fieldItems_freeze (plain "closure_findings" (by decide) rfl),
    findings .review hn.findings, findings .closure hn.closureFindings,
    list "resolved_finding_ids" (by decide) rfl, list "completed_publication_effects" (by decide) rfl,
    list "publication_operation_ids" (by decide) rfl, hcorrection, nonempty_str hid,
    optional "lease_actor_id" (by decide) rfl, optional "start_head" (by decide) rfl,
    optional "candidate_head" (by decide) rfl, optional "candidate_tree" (by decide) rfl,
    optional "candidate_diff_digest" (by decide) rfl, optional "candidate_node_diff_digest" (by decide) rfl,
    optional "pending_publication_effect" (by decide) rfl,
    optional "pending_publication_operation_id" (by decide) rfl,
    optional "publication_authorization_receipt_id" (by decide) rfl,
    optional "publication_authorization_receipt_digest" (by decide) rfl,
    optional "failure_reason" (by decide) rfl, bind, Except.bind, check, List.all_cons, List.all_nil,
    Nat.cast_nonneg, decide_true, Bool.and_self, if_true, Int.toNat_natCast]
  rfl

theorem NodeSpec.nodeId_nonblank (n : NodeSpec) : isBlank n.nodeId = false := by
  have h := n.valid
  simp only [NodeSpecFields.postInit, bind_eq_ok] at h
  obtain ⟨_, hid, -⟩ := h
  exact isBlank_of_nonempty hid

theorem CampaignSpec.fromDict_freeze {spec : CampaignSpec} (hspec : spec.Stored)
    (hdigest : spec.specificationDigest = spec.computeDigest) :
    CampaignSpec.fromDict (freeze (.mapping spec.toDict)) = .ok spec := by
  have hget := agreeAt_freeze spec.toDict
  have hsupplied : fieldTextD (Mapping.freeze spec.toDict) "specification_digest" ""
      = spec.specificationDigest := fieldTextD_eq (hget _) rfl
  rw [freeze_mapping]
  refine CampaignSpec.fromDict_mapping hspec (fun key _ => hget key) hsupplied (.inr (.inr hdigest)) ?_
  rw [← hdigest]
  split <;> rfl

/-- What holds of a snapshot that can be read back. -/
structure CampaignSnapshot.Legible (s : CampaignSnapshot) : Prop where
  spec : s.spec.Stored
  digest : s.spec.specificationDigest = s.spec.computeDigest
  nodes : ∀ n ∈ s.nodes, n.Legible
  receipts : ∀ r ∈ s.budgetReceipts, isBlank r.requestId = false

/-- **Reading a snapshot back** gives what `reload` says, with its mappings frozen. -/
theorem CampaignSnapshot.fromDict_freeze {s : CampaignSnapshot} (hs : s.Legible) :
    CampaignSnapshot.fromDict (freeze s.toDict) = .ok s.reload.frozen := by
  have hids : ∀ n ∈ s.nodes, isBlank n.nodeId = false := by
    intro n hn
    have hmem : n.nodeId ∈ s.spec.nodes.map (·.nodeId) := by
      rw [← s.node_ids]
      exact List.mem_map_of_mem hn
    obtain ⟨node, -, hid⟩ := List.mem_map.mp hmem
    rw [← hid]
    exact node.nodeId_nonblank
  have hnodes : ((s.nodes.map NodeSnapshot.toDict).map freeze).mapM NodeSnapshot.fromDict
      = .ok s.reload.frozen.nodes := by
    rw [mapM_freeze_eq fun n hn => NodeSnapshot.fromDict_freeze (hids n hn) (hs.nodes n hn)]
    exact congrArg Except.ok (List.map_map (g := NodeSnapshot.frozen) (f := NodeSnapshot.reload)).symm
  have hbudgets : ((s.budgets.map BudgetBalance.toDict).map freeze).mapM BudgetBalance.fromDict
      = .ok s.budgets :=
    (mapM_freeze_eq fun b _ => BudgetBalance.fromDict_freeze b).trans (congrArg Except.ok (List.map_id' _))
  have hreceipts : ((s.budgetReceipts.map BudgetReceipt.toDict).map freeze).mapM BudgetReceipt.fromDict
      = .ok s.budgetReceipts :=
    (mapM_freeze_eq fun r hr => BudgetReceipt.fromDict_freeze (hs.receipts r hr)).trans
      (congrArg Except.ok (List.map_id' _))
  rw [CampaignSnapshot.toDict, freeze_mapping]
  generalize hd : ([_, _, _, _, _, _, _, _, _, _, _, _] : Mapping) = d
  have hget := agreeAt_freeze d
  have hspec : fieldValue (Mapping.freeze d) "spec" = .ok (freeze (.mapping s.spec.toDict)) := by
    rw [fieldValue, Mapping.get?_freeze, ← hd]
    rfl
  have hnodesValue : fieldValue (Mapping.freeze d) "nodes"
      = .ok (.tuple ((s.nodes.map NodeSnapshot.toDict).map freeze)) := by
    rw [fieldValue, Mapping.get?_freeze, ← hd]
    show Except.ok (freeze (.tuple (s.nodes.map NodeSnapshot.toDict))) = _
    rw [freeze_tuple]
  have hbudgetItems : fieldItems (Mapping.freeze d) "budgets"
      = .ok ((s.budgets.map BudgetBalance.toDict).map freeze) := fieldItems_freeze (by rw [← hd]; rfl)
  have hreceiptItems : fieldItems (Mapping.freeze d) "budget_receipts"
      = .ok ((s.budgetReceipts.map BudgetReceipt.toDict).map freeze) := fieldItems_freeze (by rw [← hd]; rfl)
  have hset : ∀ ids : List String, (ids.all ids.contains) = true := by
    intro ids
    rw [List.all_eq_true]
    exact fun id hid => List.contains_iff_mem.mpr hid
  rw [CampaignSnapshot.fromDict]
  simp only [document_mapping, hspec, CampaignSpec.fromDict_freeze hs.spec hs.digest,
    fieldInt_eq (hget "revision") (by rw [← hd]; rfl), fieldInt_eq (hget "authority_epoch") (by rw [← hd]; rfl),
    fieldInt_eq (hget "cancellation_epoch") (by rw [← hd]; rfl),
    fieldInt_eq (hget "autonomous_rank_remaining") (by rw [← hd]; rfl),
    fieldEnum_eq (CampaignState.ofValue?_value s.state) (hget "state") (by rw [← hd]; rfl),
    fieldEnum_eq (CancellationState.ofValue?_value s.cancellationState) (hget "cancellation_state")
      (by rw [← hd]; rfl), hnodesValue, Value.items?, orRaise, hnodes,
    hbudgetItems, hbudgets, hreceiptItems, hreceipts,
    fieldOptional_optionalText (t := s.activeNodeId) (hget "active_node_id") (by rw [← hd]; rfl),
    fieldOptional_optionalText (t := s.failureReason) (hget "failure_reason") (by rw [← hd]; rfl),
    bind, Except.bind, check, Nat.cast_nonneg, decide_true, Bool.and_self, if_true, Int.toNat_natCast]
  have hgraph : s.reload.frozen.nodes.map (·.nodeId) = s.spec.nodes.map (·.nodeId) := s.reload.frozen.node_ids
  rw [if_pos (by rw [hgraph, hset, Bool.and_self])]
  show (if h : s.reload.frozen.nodes.map (·.nodeId) = s.spec.nodes.map (·.nodeId) then _ else _) = _
  rw [dif_pos hgraph]
  rfl

end RoundTrip

end CodingOS.Campaign
