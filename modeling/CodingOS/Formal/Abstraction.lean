import CodingOS.Campaign.GraphSearch
import CodingOS.Formal.Laws
import CodingOS.Supervisor.PublicationSequence

/-!
# The reducer, seen as the formal model sees it

The constants `formal/Campaign.tla` has for one specification, and the mapping from the snapshots of the reducer to
the states of the module.  The snapshot has no count of the formal actions and no count of the rank they spend:
the first is read off the history, the second is what the fields of the nodes say was spent on them.
-/

namespace CodingOS.Formal

open CodingOS.Python CodingOS.Campaign CodingOS.Supervisor Systems

variable [Runtime]

/-! ### The constants of a specification -/

/-- `Nodes`. -/
abbrev SpecNode (spec : CampaignSpec) : Type := { name : String // name ∈ spec.nodes.map (·.nodeId) }

/-- `RequiredPublicationEffects`. -/
def requiredEffects (spec : CampaignSpec) : ℕ := (requiredSequence spec.publicationAuthority).length

/-- `InitialBudget`: the autonomous rank, and in manual mode, which spends nothing, what the actions may spend. -/
def initialBudget (spec : CampaignSpec) : ℕ :=
  if spec.mode = .manual then spec.nodes.length * (4 + requiredEffects spec) else spec.autonomousRank

theorem requiredEffects_pos (spec : CampaignSpec) : 0 < requiredEffects spec :=
  List.length_pos_of_ne_nil spec.requiredSequence_ok.1

theorem initialBudget_pos (spec : CampaignSpec) : 0 < initialBudget spec := by
  have h := spec.valid
  simp only [CampaignSpecFields.postInit, bind_eq_ok, check_eq_ok, exists_const, decide_eq_true_eq,
    Bool.not_eq_true', List.isEmpty_eq_false_iff] at h
  obtain ⟨_, -, -, hrank, hnodes, -⟩ := h
  rw [initialBudget]
  split
  · exact Nat.mul_pos (List.length_pos_of_ne_nil hnodes) (Nat.add_pos_left (by decide) _)
  · exact hrank

theorem exists_order (spec : CampaignSpec) : ∃ order, spec.TopologicalOrder order := by
  obtain ⟨st, hsearch⟩ := CampaignSpecFields.search_of_validated spec.checked.2
  exact CampaignSpecFields.exists_order_of_search spec.node_ids_nodup
    (fun a b hdepends => spec.dependency_known hdepends) hsearch

/-- The constants of a specification, for a digest of its graph and a bound of the revision. -/
noncomputable def constants (spec : CampaignSpec) (graphDigest : CampaignSpec → String) (maxRevision : ℕ)
    (hmax : 0 < maxRevision) : Constants (SpecNode spec) where
  dependencies a := { b | DependsOn spec a.1 b.1 }
  topoRank a := (exists_order spec).choose.idxOf a.1
  initialBudget := initialBudget spec
  maxRevision := maxRevision
  campaignId := spec.campaignId
  specificationRevision := spec.specificationRevision
  specificationDigest := spec.specificationDigest
  initialGraphDigest := graphDigest spec
  requiredPublicationEffects := requiredEffects spec
  initialBudget_pos := initialBudget_pos spec
  maxRevision_pos := hmax
  requiredPublicationEffects_pos := requiredEffects_pos spec

/-- `GraphIsFiniteDAG`. -/
def Constants.GraphIsDAG {Node : Type} (c : Constants Node) : Prop :=
  ∀ n, ∀ d ∈ c.dependencies n, c.topoRank d < c.topoRank n

theorem constants_graph (spec : CampaignSpec) (graphDigest : CampaignSpec → String) {maxRevision : ℕ}
    (hmax : 0 < maxRevision) : (constants spec graphDigest maxRevision hmax).GraphIsDAG := by
  intro a d hd
  have horder := (exists_order spec).choose_spec
  show (exists_order spec).choose.idxOf d.1 < (exists_order spec).choose.idxOf a.1
  generalize (exists_order spec).choose = order at horder ⊢
  obtain ⟨before, after, hsplit⟩ := List.append_of_mem (horder.1.mem_iff.mpr a.2)
  have hbefore := horder.2 before a.1 after hsplit d.1 hd
  have hfresh : a.1 ∉ before := by
    have hnodup := horder.1.nodup_iff.mpr spec.node_ids_nodup
    rw [hsplit] at hnodup
    exact fun hmem => List.disjoint_of_nodup_append hnodup hmem List.mem_cons_self
  rw [hsplit, List.idxOf_append_of_mem hbefore, List.idxOf_append_of_notMem hfresh]
  exact Nat.lt_add_right _ (List.idxOf_lt_length_iff.mpr hbefore)

/-! ### The mapping -/

/-- The node of a name. -/
def nodeOf (s : CampaignSnapshot) (name : String) : NodeSnapshot :=
  (s.nodes.find? (·.nodeId == name)).getD { nodeId := name }

/-- The variables of a node. -/
def nodeVars (spec : CampaignSpec) (n : NodeSnapshot) : NodeVars where
  nodeState := n.state
  implementationUsed := n.implementationAttempts != 0
  validationCorrectionUsed := n.validationCorrections != 0
  reviewUsed := n.reviewGenerations != 0
  repairUsed := n.repairAttempts != 0
  closureUsed := n.closureGenerations != 0
  blockersFrozen := n.findings.any (·.blocking)
  publicationRemaining := requiredEffects spec - n.completedPublicationEffects.length

/-- The units of the rank the lifecycle of a node has spent. -/
def spentOn (n : NodeSnapshot) : ℕ :=
  n.implementationAttempts + n.reviewGenerations + n.repairAttempts + n.closureGenerations +
    (n.publicationOperationIds ++ n.pendingPublicationOperationId.toList).length

def spent (s : CampaignSnapshot) : ℕ := (s.nodes.map spentOn).sum

/-- The events without a formal action: leases, other spending, and the receipt of a publication. -/
def hiddenEvents : List EventType := [.acquireLease, .releaseLease, .consumeBudget, .authorizePublication]

/-- The number of formal actions of a history. -/
def actions (history : List (Entry CampaignSnapshot Applied)) : ℕ :=
  history.countP fun t => !hiddenEvents.contains t.label.event.eventType

/-- **The refinement mapping.** -/
def abstraction (spec : CampaignSpec) (graphDigest : CampaignSpec → String)
    (history : List (Entry CampaignSnapshot Applied)) (s : CampaignSnapshot) : State (SpecNode spec) where
  campaign := s.state
  node name := nodeVars spec (nodeOf s name.1)
  revision := actions history
  authorityEpoch := s.authorityEpoch - spec.authorityEpoch
  cancellationEpoch := s.cancellationEpoch - spec.cancellationEpoch
  rankRemaining := initialBudget spec - spent s
  budgetReceipts := spent s
  contract := ⟨s.spec.campaignId, s.spec.specificationRevision, s.spec.specificationDigest, graphDigest s.spec, 1⟩

/-! ### The node of a name -/

section Nodes

variable {s s' : CampaignSnapshot} {n n' : NodeSnapshot} {name : String}

theorem nodeOf_eq (hn : n ∈ s.nodes) : nodeOf s n.nodeId = n := by
  rw [nodeOf, (find?_key_eq_some s.nodes_nodup).mpr ⟨hn, rfl⟩, Option.getD_some]

theorem nodeOf_mem (hname : name ∈ s.nodes.map (·.nodeId)) :
    nodeOf s name ∈ s.nodes ∧ (nodeOf s name).nodeId = name := by
  obtain ⟨n, hn, rfl⟩ := List.mem_map.mp hname
  rw [nodeOf_eq hn]
  exact ⟨hn, rfl⟩

/-- Nodes that are rewritten in place. -/
theorem nodeOf_map {f : NodeSnapshot → NodeSnapshot} (hids : ∀ n, (f n).nodeId = n.nodeId)
    (hnodes : s'.nodes = s.nodes.map f) (hname : name ∈ s.nodes.map (·.nodeId)) :
    nodeOf s' name = f (nodeOf s name) := by
  obtain ⟨hmem, hid⟩ := nodeOf_mem hname
  have hmem' : f (nodeOf s name) ∈ s'.nodes := hnodes ▸ List.mem_map_of_mem hmem
  have hfound := nodeOf_eq hmem'
  rwa [hids, hid] at hfound

/-- One node is replaced. -/
theorem nodeOf_replace (hid : n'.nodeId = n.nodeId) (hnodes : s'.nodes = (s.replaceNode n').nodes)
    (hname : name ∈ s.nodes.map (·.nodeId)) :
    nodeOf s' name = if name = n.nodeId then n' else nodeOf s name := by
  have hids : ∀ m : NodeSnapshot, (if m.nodeId = n'.nodeId then n' else m).nodeId = m.nodeId := by
    intro m
    split
    · next heq => exact heq.symm
    · rfl
  rw [nodeOf_map (f := fun m => if m.nodeId = n'.nodeId then n' else m) hids hnodes hname, (nodeOf_mem hname).2, hid]

omit [Runtime] in
/-- The sum over the nodes, when one of them is replaced. -/
theorem sum_replace {nodes : List NodeSnapshot} (hnodup : (nodes.map (·.nodeId)).Nodup) (hn : n ∈ nodes)
    (hid : n'.nodeId = n.nodeId) (f : NodeSnapshot → ℕ) :
    ((nodes.map fun m => if m.nodeId = n'.nodeId then n' else m).map f).sum + f n = (nodes.map f).sum + f n' := by
  induction nodes with
  | nil => cases hn
  | cons m nodes ih =>
      rw [List.map_cons, List.nodup_cons] at hnodup
      rw [List.map_cons, List.map_cons, List.map_cons, List.sum_cons, List.sum_cons]
      rcases List.mem_cons.mp hn with rfl | hn
      · have hrest : (nodes.map fun k => if k.nodeId = n'.nodeId then n' else k) = nodes := by
          refine (List.map_congr_left fun k hk => if_neg fun heq => hnodup.1 ?_).trans (List.map_id _)
          rw [← hid, ← heq]
          exact List.mem_map_of_mem hk
        rw [if_pos hid.symm, hrest]
        omega
      · have hne : m.nodeId ≠ n'.nodeId := by
          rw [hid]
          exact fun heq => hnodup.1 (heq ▸ List.mem_map_of_mem hn)
        have hsum := ih hnodup.2 hn
        rw [if_neg hne]
        omega

theorem spent_replace (hn : n ∈ s.nodes) (hid : n'.nodeId = n.nodeId)
    (hnodes : s'.nodes = (s.replaceNode n').nodes) : spent s' + spentOn n = spent s + spentOn n' := by
  rw [spent, hnodes]
  exact sum_replace s.nodes_nodup hn hid spentOn

end Nodes

/-! ### What the nodes have spent -/

section Spending

variable {s s' : CampaignSnapshot} {e : Event} {effects : List ExternalEffectIntent} {m m' n n' : NodeSnapshot}

omit [Runtime] in
theorem cancelNode_spentOn (n : NodeSnapshot) : spentOn (cancelNode n) = spentOn n := by
  unfold cancelNode
  split <;> rfl

theorem moveSpentOn (h : NodeMove s e n n') : spentOn n' = spentOn n := by
  cases h <;> rfl

theorem failSpentOn {closed : NodeSnapshot} {reason : String} (h : FailMove s e n closed) :
    spentOn (closed.failed reason) = spentOn n := by
  cases h <;> rfl

theorem dispatchSpentOn {role : String} (h : DispatchMove s e n role n') : spentOn n' = spentOn n + 1 := by
  cases h with
  | startImplementation _ _ _ _ _ hunused | startReview _ _ hunused | startRepair _ _ _ hunused
  | revalidationPassed _ _ _ hunused =>
      simp only [spentOn, hunused, NodeSnapshot.freezeCandidate]
      omega

omit [Runtime] in
theorem publishSpentOn {kind : EffectKind} {operationId : String} (hidle : n.pendingPublicationOperationId = none) :
    spentOn (n.publishing kind operationId) = spentOn n + 1 := by
  simp [spentOn, NodeSnapshot.publishing, hidle, Nat.add_assoc]

omit [Runtime] in
theorem confirmSpentOn {effect operationId : String} {complete : Bool}
    (hpending : n.pendingPublicationOperationId.isSome = true) :
    spentOn (n.confirmed effect operationId complete) = spentOn n := by
  obtain ⟨operation, hoperation⟩ := Option.isSome_iff_exists.mp hpending
  simp [spentOn, NodeSnapshot.confirmed, hoperation]

/-- A publishing node has its pending operation. -/
def Pending (s : CampaignSnapshot) : Prop :=
  ∀ n ∈ s.nodes, n.state = .publishing → n.pendingPublicationOperationId.isSome = true

/-- A replacement that spends nothing. -/
theorem spent_same (hn : n ∈ s.nodes) (hid : n'.nodeId = n.nodeId) (hnodes : s'.nodes = (s.replaceNode n').nodes)
    (hsame : spentOn n' = spentOn n) : spent s' = spent s := by
  have hspent := spent_replace hn hid hnodes
  omega

/-- A replacement that spends one unit. -/
theorem spent_one (hn : n ∈ s.nodes) (hid : n'.nodeId = n.nodeId) (hnodes : s'.nodes = (s.replaceNode n').nodes)
    (hone : spentOn n' = spentOn n + 1) : spent s' = spent s + 1 := by
  have hspent := spent_replace hn hid hnodes
  omega

/-- Nodes rewritten in place that spend nothing. -/
theorem spent_map {f : NodeSnapshot → NodeSnapshot} (hnodes : s'.nodes = s.nodes.map f)
    (hsame : ∀ n, spentOn (f n) = spentOn n) : spent s' = spent s := by
  rw [spent, spent, hnodes, List.map_map]
  exact congrArg List.sum (List.map_congr_left fun n _ => hsame n)

/-- In automated mode the ledger has a receipt for whatever a step spends. -/
theorem spent_step (hpending : Pending s) (h : Step s e s' effects) (hmode : s.spec.mode ≠ .manual) :
    spent s' + s.budgetReceipts.length ≤ spent s + s'.budgetReceipts.length := by
  have hspends : ∀ {token : BudgetToken} {u : CampaignSnapshot}, consumeAutomated s e token = .ok u →
      u.budgetReceipts.length = s.budgetReceipts.length + 1 := by
    intro token u hu
    rcases consumeAutomated_eq_ok hu with ⟨hmanual, -⟩ | ⟨-, hspend⟩
    · exact absurd hmanual hmode
    · rw [hspend.result, List.length_append, List.length_singleton]
  have hquiet : ∀ {u : CampaignSnapshot}, spent u = spent s → u.budgetReceipts = s.budgetReceipts →
      spent u + s.budgetReceipts.length ≤ spent s + u.budgetReceipts.length := by
    intro u hspent hreceipts
    rw [hspent, hreceipts]
  cases h with
  | control => exact le_rfl
  | advanceAuthority => exact hquiet (spent_map rfl fun _ => rfl) rfl
  | cancel => exact hquiet (spent_map rfl cancelNode_spentOn) rfl
  | consumeBudget _ _ hspend =>
      rw [spent, hspend.nodes_eq, hspend.result, List.length_append]
      exact Nat.add_le_add_left (Nat.le_add_right _ _) _
  | @admitted n _ startHead _ _ hn =>
      have hid : { n with state := .admitted, startHead := some startHead : NodeSnapshot }.nodeId = n.nodeId := rfl
      exact hquiet (spent_same hn.mem hid rfl rfl) rfl
  | move hn hmove => exact hquiet (spent_same hn.mem hmove.nodeId_eq rfl (moveSpentOn hmove)) rfl
  | @dispatch role n n' s₁ _ hn hmove hdispatch =>
      obtain ⟨_, -, hspend, -⟩ := dispatchEffect_eq_ok hdispatch
      have hreceipts := hspends hspend
      rw [spent_one hn.mem hmove.nodeId_eq (replaceNode_nodes_congr (dispatchEffect_nodes hdispatch))
        (dispatchSpentOn hmove)]
      show _ ≤ _ + s₁.budgetReceipts.length
      omega
  | @fail n closed reason hn hmove =>
      have hid : (closed.failed reason).nodeId = n.nodeId := hmove.nodeId_eq
      exact hquiet (spent_same hn.mem hid rfl (failSpentOn hmove)) rfl
  | @publish n kind token operationId s₁ intent hn _ hspend hguard =>
      have hid : (n.publishing kind operationId).nodeId = n.nodeId := rfl
      have hreceipts := hspends hspend
      rw [spent_one hn.mem hid (replaceNode_nodes_congr (consumeAutomated_maySpend hspend).nodes_eq)
        (publishSpentOn hguard.idle)]
      show _ ≤ _ + s₁.budgetReceipts.length
      omega
  | @confirm n effect operationId complete hn hguard =>
      have hid : (n.confirmed effect operationId complete).nodeId = n.nodeId := rfl
      exact hquiet (spent_same hn.mem hid rfl (confirmSpentOn (hpending _ hn.mem hguard.publishing))) rfl

/-! ### What a run has spent -/

/-- A lifecycle counter is never past one. -/
structure Counted (n : NodeSnapshot) : Prop where
  implementation : n.implementationAttempts ≤ 1
  review : n.reviewGenerations ≤ 1
  repair : n.repairAttempts ≤ 1
  closure : n.closureGenerations ≤ 1

theorem counted_step (h : NodeStep s e effects m m') (hm : Counted m) : Counted m' := by
  obtain ⟨himplementation, hreview, hrepair, hclosure⟩ := hm
  cases h with
  | same | unlease | admitted | publish | confirm => exact ⟨himplementation, hreview, hrepair, hclosure⟩
  | cancel =>
      unfold cancelNode
      split <;> exact ⟨himplementation, hreview, hrepair, hclosure⟩
  | move _ hmove => cases hmove <;> exact ⟨himplementation, hreview, hrepair, hclosure⟩
  | dispatch _ hmove =>
      cases hmove with
      | startImplementation => exact ⟨le_rfl, hreview, hrepair, hclosure⟩
      | startReview => exact ⟨himplementation, le_rfl, hrepair, hclosure⟩
      | startRepair => exact ⟨himplementation, hreview, le_rfl, hclosure⟩
      | revalidationPassed => exact ⟨himplementation, hreview, hrepair, le_rfl⟩
  | fail _ hmove => cases hmove <;> exact ⟨himplementation, hreview, hrepair, hclosure⟩

variable {spec : CampaignSpec} {history : List (Entry CampaignSnapshot Applied)}

theorem pending_run (h : CampaignRun spec history s) : Pending s :=
  fun n hn => ((publicationInv_run h).2 n hn).publishing

/-- A node has spent one unit on each dispatch and one on each publication of its sequence, at most. -/
theorem spentOn_le (h : CampaignRun spec history s) (hn : n ∈ s.nodes) : spentOn n ≤ 4 + requiredEffects spec := by
  have hall : ∀ n ∈ s.nodes, Counted n :=
    h.node_invariant (fun _ => ⟨Nat.zero_le _, Nat.zero_le _, Nat.zero_le _, Nat.zero_le _⟩)
      fun hm hstep => counted_step hstep hm
  have hcounted := hall n hn
  have hinv := (publicationInv_run h).2 n hn
  have hlength := hinv.sequence.length_le
  have hpaired : n.pendingPublicationOperationId.toList.length = n.pendingPublicationEffect.toList.length := by
    rw [Option.length_toList, Option.length_toList, hinv.paired]
  rw [List.length_map, List.length_append, hinv.lengths, ← hpaired] at hlength
  have himplementation := hcounted.implementation
  have hreview := hcounted.review
  have hrepair := hcounted.repair
  have hclosure := hcounted.closure
  rw [spentOn, List.length_append]
  rw [requiredEffects]
  omega

/-- **No run spends more than the budget.** -/
theorem spent_le (h : CampaignRun spec history s) : spent s ≤ initialBudget spec := by
  have hspec := h.spec_eq
  rw [initialBudget]
  split
  · have hlength : s.nodes.length = spec.nodes.length := by
      have hids := congrArg List.length s.node_ids
      rwa [List.length_map, List.length_map, hspec] at hids
    have hsum := List.sum_le_card_nsmul (s.nodes.map spentOn) (4 + requiredEffects spec) fun k hk => by
      obtain ⟨n, hn, rfl⟩ := List.mem_map.mp hk
      exact spentOn_le h hn
    rw [List.length_map, hlength, smul_eq_mul] at hsum
    exact hsum
  · next hmode =>
      have hreceipts : spent s ≤ s.budgetReceipts.length := by
        obtain ⟨s₀, hinit, hrun⟩ := h
        induction hrun with
        | start =>
            have hzero : spent s₀ = 0 := by
              rw [spent, List.sum_eq_zero_iff]
              intro k hk
              obtain ⟨n, hn, rfl⟩ := List.mem_map.mp hk
              rw [initial_node hinit hn]
              rfl
            rw [hzero]
            exact Nat.zero_le _
        | snoc hrun hstep ih =>
            have hbefore : CampaignRun spec _ _ := ⟨s₀, hinit, hrun⟩
            have hle := ih hbefore.spec_eq
            obtain ⟨s₁, hmoved, rfl⟩ := (reduce_accepted hstep).step
            have hspent := spent_step (pending_run hbefore) hmoved (hbefore.spec_eq.symm ▸ hmode)
            show spent s₁ ≤ s₁.budgetReceipts.length
            omega
      have hrank := (budget_conserved h).1.rank
      omega

end Spending

end CodingOS.Formal
