import CodingOS.Campaign.Publication
import CodingOS.Supervisor.Scheduling

/-!
# The next publication effect, three times

The next effect of a node that is ready to publish is computed in three places: `_next_publication` of
the supervisor chooses it, `reduce` accepts it with `START_PUBLISH`, and `verify_publication_authority`
of the store grants it.  The reducer reads a missing `required_effects` as `allowed_effects`, as the
validation of the specification does; the supervisor and the store read it as the empty sequence.
-/

namespace CodingOS.Supervisor

open CodingOS.Python CodingOS.Campaign Systems

/-! ### The texts of the effect kinds -/

/-- The first letters of the effect kinds. -/
def kindInitials : List Char := ['D', 'I', 'R', 'P', 'C', 'U', 'M', 'E']

theorem kind_initial (kind : EffectKind) :
    ∃ c ∈ kindInitials, kind.value.toList.head? = some c := by
  cases kind <;> simp [kindInitials, EffectKind.value]

theorem head?_append {s t : String} {c : Char} (h : s.toList.head? = some c) :
    (s ++ t).toList.head? = some c := by
  rw [String.toList_append, List.head?_append, h, Option.some_or]

theorem intText_initial (n : ℤ) : ∃ c ∉ kindInitials, (intText n).toList.head? = some c := by
  cases n with
  | negSucc m => exact ⟨'-', by decide, head?_append (s := "-") rfl⟩
  | ofNat m =>
      have hdigits : (intText m).toList = Nat.toDigits 10 m := by
        show (toString m).toList = _
        simp [Nat.repr]
      cases hcut : Nat.toDigits 10 m with
      | nil => exact absurd hcut (by simp)
      | cons c rest =>
          have hdigit : c.isDigit = true :=
            Nat.isDigit_of_mem_toDigits (by decide) (by decide) (hcut ▸ List.mem_cons_self)
          refine ⟨c, fun hc => ?_, by rw [show (intText (Int.ofNat m)).toList = _ from hdigits, hcut]; rfl⟩
          simp only [kindInitials, List.mem_cons, List.not_mem_nil, or_false] at hc
          rcases hc with rfl | rfl | rfl | rfl | rfl | rfl | rfl | rfl <;> exact absurd hdigit (by decide)

theorem ofValue?_value (kind : EffectKind) : EffectKind.ofValue? kind.value = some kind := by
  cases kind <;> decide

theorem kind_injective {a b : EffectKind} (h : a.value = b.value) : a = b := by
  have hread := ofValue?_value a
  rw [h, ofValue?_value b] at hread
  exact (Option.some.inj hread).symm

theorem mapM_mem {α β : Type} {f : α → Option β} {xs : List α} {ys : List β}
    (h : xs.mapM f = some ys) {x : α} (hx : x ∈ xs) : ∃ y ∈ ys, f x = some y := by
  induction xs generalizing ys with
  | nil => cases hx
  | cons a xs ih =>
      simp only [List.mapM_cons, Option.bind_eq_bind, Option.bind_eq_some_iff] at h
      obtain ⟨b, hb, bs, hbs, hys⟩ := h
      obtain rfl : b :: bs = ys := Option.some.inj hys
      rcases List.mem_cons.mp hx with rfl | hx
      · exact ⟨b, List.mem_cons_self, hb⟩
      · obtain ⟨y, hy, hfx⟩ := ih hbs hx
        exact ⟨y, List.mem_cons_of_mem _ hy, hfx⟩

section Text

variable [Runtime]

/-- The texts of the other values begin otherwise. -/
theorem text_initial {v : Value} (hstr : v.asText? = none) (hfloat : ∀ q, v ≠ .float q) :
    ∃ c ∉ kindInitials, v.text.toList.head? = some c := by
  cases v with
  | null =>
      refine ⟨'N', by decide, ?_⟩
      unfold Value.text Value.repr
      simp
  | bool b =>
      refine ⟨if b then 'T' else 'F', by cases b <;> decide, ?_⟩
      unfold Value.text Value.repr
      cases b <;> simp
  | int n => exact intText_initial n
  | float q => exact absurd rfl (hfloat q)
  | str s => simp [Value.asText?] at hstr
  | tuple items =>
      refine ⟨'(', by decide, ?_⟩
      rcases items with - | ⟨x, - | ⟨y, rest⟩⟩
      · unfold Value.text Value.repr
        simp
      · exact head?_append (head?_append rfl)
      · exact head?_append (head?_append (head?_append (head?_append (head?_append rfl))))
  | mapping entries =>
      refine ⟨'\x7b', by decide, ?_⟩
      rcases entries with - | ⟨⟨k, x⟩, rest⟩
      · simp [Value.text]
      · exact head?_append (head?_append (head?_append (head?_append (head?_append rfl))))

/-- The only value that prints as an effect kind is its name, as no float does. -/
theorem eq_str_of_text {v : Value} {kind : EffectKind}
    (hfloat : ∀ q, Runtime.floatRepr q ≠ kind.value) (h : v.text = kind.value) :
    v = .str kind.value := by
  cases hv : v.asText? with
  | some s =>
      cases v <;> simp [Value.asText?] at hv
      rw [← h, Value.text_str]
  | none =>
      have hne : ∀ q, v ≠ .float q := by
        rintro q rfl
        exact hfloat q h
      obtain ⟨c, hc, htext⟩ := text_initial hv hne
      obtain ⟨d, hd, hkind⟩ := kind_initial kind
      rw [h, hkind] at htext
      exact absurd (Option.some.inj htext ▸ hd) hc

end Text

/-! ### The three places -/

section Sequence

variable [Runtime]

/-- `_next_publication`. -/
def nextPublication (snapshot : CampaignSnapshot) (node : NodeSnapshot) : Result (Option String) := do
  let sequence ← orRaise
    (snapshot.spec.publicationAuthority.getD "required_effects" (.tuple [])).items? .python
    "object is not iterable"
  let completed := node.completedPublicationEffects
  return (sequence[completed.length]?).map Value.text

/-- The arguments of `verify_publication_authority`. -/
structure AuthorityRequest where
  campaignId : String
  effectKind : String
  authorityEpoch : ℕ
  cancellationEpoch : ℕ
  nodeId : Option String := none
  candidateHead : Option String := none
deriving DecidableEq

/-- The part of `verify_publication_authority` that depends on the state of the node. -/
def verifyNodeAuthority (snapshot : CampaignSnapshot) (node : NodeSnapshot) (kind : EffectKind) :
    Result Unit := do
  if kind = .exactFileReplace then
    check .authority (node.state == .done && snapshot.state == .completed)
      "exact-file installation authority requires a completed published node"
  else if node.state = .readyToPublish then
    let sequence ← orRaise
      (snapshot.spec.publicationAuthority.getD "required_effects" (.tuple [])).items? .python
      "object is not iterable"
    let expected := (sequence[node.completedPublicationEffects.length]?).getD .null
    check .authority (expected.eq (.str kind.value))
      "publication effect is not the next immutable required effect"
  else if node.state = .publishing then
    check .authority (node.pendingPublicationEffect == some kind.value)
      "publication effect differs from the reducer-prepared operation"
  else fail .authority "node lifecycle state is not publication-ready"

/-- `verify_publication_authority`, on the snapshot `get_snapshot` loads. -/
def verifyPublicationAuthority (snapshot : CampaignSnapshot) (r : AuthorityRequest) :
    Result Mapping := do
  let kind ← orRaise (EffectKind.ofValue? r.effectKind) .python "not a valid EffectKind"
  check .authority (snapshot.authorityEpoch == r.authorityEpoch)
    "publication authority epoch is stale"
  check .authority (snapshot.cancellationEpoch == r.cancellationEpoch)
    "publication cancellation epoch is stale"
  require (!([CampaignState.draft, .approved].contains snapshot.state))
    "unstarted campaign has no publication authority"
  require (!([CampaignState.cancelled, .failed].contains snapshot.state))
    "cancelled or failed campaign has no publication authority"
  let allowed ← orRaise
    (snapshot.spec.publicationAuthority.getD "allowed_effects" (.tuple [])).items? .python
    "object is not iterable"
  check .authority ((Value.str kind.value).memberOf allowed)
    ("publication effect is not authorized: " ++ kind.value)
  let needed := "publication authority requires one exact node and candidate head"
  let nodeId ← orRaise r.nodeId .authority needed
  let candidateHead ← orRaise r.candidateHead .authority needed
  let node ← snapshot.node nodeId
  check .authority (node.candidateHead == some candidateHead)
    "publication candidate head differs from frozen node head"
  verifyNodeAuthority snapshot node kind
  return [
    ("campaign_id", .str r.campaignId),
    ("effect_kind", .str kind.value),
    ("authority_epoch", .int r.authorityEpoch),
    ("cancellation_epoch", .int r.cancellationEpoch),
    ("specification_digest", .str snapshot.spec.specificationDigest),
    ("authorized", .bool true),
    ("node_id", .str nodeId),
    ("candidate_head", optionalText node.candidateHead),
    ("fencing_epoch", .int node.fencingEpoch),
    ("node_state", .str node.state.value),
    ("campaign_state", .str snapshot.state.value)]

/-! ### Agreement -/

/-- A `START_PUBLISH` of the node with the kind, in order in every respect but the sequence: authorized,
funded, under an operation of its own and bound to the frozen candidate. -/
structure PublishRequest (s : CampaignSnapshot) (n : NodeSnapshot) (e : Event) (kind : EffectKind) :
    Prop where
  header : checkEventHeader s e = .ok ()
  requested : (e.payload.get? "effect_kind").bind (fun value => EffectKind.ofValue? value.text)
    = some kind
  authorized : automatedPublication s = true ∨
    n.publicationAuthorizationReceiptId.any (· != "") = true ∧
      n.publicationAuthorizationReceiptDigest.any (· != "") = true
  operation : payloadText e "operation_id" ≠ ""
  fresh : payloadText e "operation_id" ∉ n.publicationOperationIds
  funded : ∃ token s₁, publishToken? kind = some token ∧ consumeAutomated s e token = .ok s₁
  bound : ∃ payload, (e.payload.getD "effect_payload" (.mapping [])).dict? = some payload ∧
    ((payload.setDefault "candidate_head" (candidateHeadValue n)).read "candidate_head").eq
      (candidateHeadValue n) = true

/-- A request for the kind with the live epochs and the exact candidate of the node, of a campaign that
was neither cancelled nor failed. -/
structure ExactRequest (s : CampaignSnapshot) (n : NodeSnapshot) (r : AuthorityRequest)
    (kind : EffectKind) : Prop where
  requested : r.effectKind = kind.value
  authority : r.authorityEpoch = s.authorityEpoch
  cancellation : r.cancellationEpoch = s.cancellationEpoch
  candidate : r.candidateHead = n.candidateHead
  live : s.state ∉ [CampaignState.cancelled, .failed]

/-- The three places agree on the kind: the supervisor chooses it, the reducer accepts a
`START_PUBLISH` of the node, and the store grants its publication, exactly when it is requested. -/
structure PublicationAgreement (s : CampaignSnapshot) (n : NodeSnapshot) (kind : EffectKind) : Prop where
  supervisor : nextPublication s n = .ok (some kind.value)
  reducer : ∀ e : Event, e.eventType = .startPublish → e.nodeId = some n.nodeId →
    ((∃ r, reduce s e = .ok r) ↔ PublishRequest s n e kind)
  store : ∀ r : AuthorityRequest, r.nodeId = some n.nodeId →
    ((∃ result, verifyPublicationAuthority s r = .ok result) ↔ ExactRequest s n r kind)

/-! ### The reducer -/

variable {s : CampaignSnapshot} {n : NodeSnapshot} {e : Event} {kind : EffectKind}

/-- What `_consume_automated` may change passes `_finish_revision`. -/
theorem finishRevision_consumed {s₁ next : CampaignSnapshot} {token : BudgetToken}
    {effects : List ExternalEffectIntent} (h : consumeAutomated s e token = .ok s₁)
    (hspec : next.spec = s.spec) (hrank : next.autonomousRankRemaining = s₁.autonomousRankRemaining)
    (hreceipts : next.budgetReceipts = s₁.budgetReceipts) :
    finishRevision s next effects = .ok ({ next with revision := s.revision + 1 }, effects) := by
  rcases consumeAutomated_maySpend h with rfl | ⟨token, hspend⟩
  · exact finishRevision_unpaid hspec hrank hreceipts
  · have hpos := hspend.rank_pos
    rw [hspend.result] at hrank hreceipts
    have hdelta : (s.autonomousRankRemaining : ℤ) - (s.autonomousRankRemaining - 1 : ℕ) = 1 := by omega
    simp [finishRevision, bind_eq_ok, hspec, hrank, hreceipts, hdelta]
    rfl

/-- `START_PUBLISH` is accepted with the next kind of the sequence, and with that kind alone. -/
theorem startPublish_iff {allowed required : List Value} (hn : n ∈ s.nodes)
    (hready : n.state = .readyToPublish) (hidle : n.pendingPublicationOperationId = none)
    (hsequences : effectSequences s.spec.publicationAuthority = .ok (allowed, required))
    (hnext : required[n.completedPublicationEffects.length]? = some (.str kind.value))
    (hallowed : (Value.str kind.value).memberOf allowed = true) (ht : e.eventType = .startPublish)
    (hnode : e.nodeId = some n.nodeId) :
    (∃ r, reduce s e = .ok r) ↔ PublishRequest s n e kind := by
  have hbranch : reduceBranch s e = reduceStartPublish s e := by rw [reduceBranch, ht]
  constructor
  · rintro ⟨r, hr⟩
    simp only [reduce, bind_eq_ok, hbranch] at hr
    obtain ⟨_, hheader, ⟨s₁, effects⟩, h, -⟩ := hr
    simp only [reduceStartPublish, bind_eq_ok, require_eq_ok, orRaise_eq_ok, pure_eq_ok, beq_iff_eq,
      bne_iff_ne, Bool.or_eq_true, Bool.and_eq_true, Bool.not_eq_true', Prod.exists,
      exists_const] at h
    obtain ⟨m, hm, -, hauthorized, -, k, hkind, token, htoken, _, _, hsequences', -, expected,
      hexpected, hequal, hoperation, hfresh, s₁, hspend, payload, hpayload, hbound, -⟩ := h
    obtain rfl : n = m := Except.ok.inj ((nodeFor_ok hn hnode).symm.trans hm)
    rw [hsequences, Except.ok.injEq, Prod.mk.injEq] at hsequences'
    obtain ⟨rfl, rfl⟩ := hsequences'
    rw [hnext] at hexpected
    obtain rfl := Option.some.inj hexpected
    obtain rfl : k = kind := kind_injective (by simpa using hequal)
    exact ⟨hheader, hkind, by simpa using hauthorized, hoperation, by simpa using hfresh,
      ⟨token, s₁, htoken, hspend⟩, payload, hpayload, hbound⟩
  · intro h
    obtain ⟨token, s₁, htoken, hspend⟩ := h.funded
    obtain ⟨payload, hpayload, hbound⟩ := h.bound
    have hnodes : s₁.nodes = s.nodes := (consumeAutomated_maySpend hspend).nodes_eq
    have hspec : s₁.spec = s.spec := (consumeAutomated_maySpend hspend).spec_eq
    have hposition : n.completedPublicationEffects.length < required.length :=
      (List.getElem?_eq_some_iff.mp hnext).1
    have hcurrent : s₁.node n.nodeId = .ok n := by
      rw [CampaignSnapshot.node, hnodes]
      exact node_ok hn
    obtain ⟨intent, hintent⟩ : ∃ intent, effect s₁ e kind true
        (payload.setDefault "candidate_head" (candidateHeadValue n)) none = .ok intent :=
      ⟨_, bind_eq_ok.mpr ⟨(), require_eq_ok.mpr (bne_iff_ne.mpr h.operation), pure_eq_ok.mpr rfl⟩⟩
    have hstart : reduceStartPublish s e = .ok (s₁.replaceNode (n.publishing kind
        (payloadText e "operation_id")), [intent]) := by
      simp only [reduceStartPublish, bind_eq_ok, require_eq_ok, orRaise_eq_ok, pure_eq_ok, beq_iff_eq,
        bne_iff_ne, Bool.or_eq_true, Bool.and_eq_true, Bool.not_eq_true', Prod.exists, exists_const]
      exact ⟨n, nodeFor_ok hn hnode, hready, h.authorized, hidle, kind, h.requested, token, htoken,
        allowed, required, hsequences, hallowed, _, hnext, by simp, h.operation,
        by simpa using h.fresh, s₁, hspend, payload, hpayload, hbound, intent, hintent, n, hcurrent,
        rfl⟩
    exact ⟨_, bind_eq_ok.mpr ⟨(), h.header, bind_eq_ok.mpr ⟨_, hbranch.trans hstart,
      finishRevision_consumed hspend hspec rfl rfl⟩⟩⟩

/-! ### The store -/

/-- `verify_publication_authority` grants the next kind of the declared sequence, and that kind alone. -/
theorem verify_iff {allowed declared : List Value} {head : String} {r : AuthorityRequest}
    (hn : n ∈ s.nodes) (hready : n.state = .readyToPublish) (hhead : n.candidateHead = some head)
    (hstarted : s.state ∉ [CampaignState.draft, .approved])
    (hpublication : kind ∈ publicationEffects)
    (hallows : (s.spec.publicationAuthority.getD "allowed_effects" (.tuple [])).items? = some allowed)
    (hdeclares : (s.spec.publicationAuthority.getD "required_effects" (.tuple [])).items?
      = some declared)
    (hnext : declared[n.completedPublicationEffects.length]? = some (.str kind.value))
    (hallowed : (Value.str kind.value).memberOf allowed = true) (hnode : r.nodeId = some n.nodeId) :
    (∃ result, verifyPublicationAuthority s r = .ok result) ↔ ExactRequest s n r kind := by
  have hverify : ∀ k, verifyNodeAuthority s n k = .ok () ↔ k = kind := by
    intro k
    unfold verifyNodeAuthority
    split_ifs with hreplace
    · subst hreplace
      have hne : EffectKind.exactFileReplace ≠ kind := by
        rintro rfl
        revert hpublication
        decide
      simp [hready, hne]
    · simp only [bind_eq_ok, orRaise_eq_ok, check_eq_ok]
      constructor
      · rintro ⟨_, hsequence, hequal⟩
        obtain rfl := Option.some.inj (hdeclares.symm.trans hsequence)
        rw [hnext, Option.getD_some, Value.eq_str, Value.str.injEq] at hequal
        exact (kind_injective hequal).symm
      · rintro rfl
        exact ⟨declared, hdeclares, by simp [hnext]⟩
  constructor
  · rintro ⟨result, h⟩
    simp only [verifyPublicationAuthority, bind_eq_ok, require_eq_ok, check_eq_ok, orRaise_eq_ok,
      beq_iff_eq, Bool.not_eq_true', exists_const] at h
    obtain ⟨k, hkind, hauthority, hcancellation, -, hlive, _, -, -, nodeId, hnodeId, head', hhead', m,
      hm, hcandidate, _, hnodeAuthority, -⟩ := h
    obtain rfl : n.nodeId = nodeId := Option.some.inj (hnode.symm.trans hnodeId)
    obtain rfl : n = m := Except.ok.inj ((node_ok hn).symm.trans hm)
    obtain rfl := (hverify k).mp hnodeAuthority
    exact ⟨(EffectKind.value_of_ofValue? hkind).symm, hauthority.symm, hcancellation.symm,
      hhead'.trans hcandidate.symm, by simpa using hlive⟩
  · intro h
    simp only [verifyPublicationAuthority, bind_eq_ok, require_eq_ok, check_eq_ok, orRaise_eq_ok,
      pure_eq_ok, beq_iff_eq, Bool.not_eq_true', exists_const]
    exact ⟨_, kind, by rw [h.requested, ofValue?_value], h.authority.symm, h.cancellation.symm,
      by simpa using hstarted, by simpa using h.live, allowed, hallows, hallowed, n.nodeId, hnode, head,
      h.candidate.trans hhead, n, node_ok hn, hhead, (), (hverify kind).mpr rfl, rfl⟩

/-! ### Every reached snapshot -/

/-- Before its start a campaign has no active node. -/
theorem unstarted_step {s' : CampaignSnapshot} {effects : List ExternalEffectIntent}
    (h : Accepted s e effects s')
    (hs : s.state ∈ [CampaignState.draft, .approved] → s.activeNodeId = none) :
    s'.state ∈ [CampaignState.draft, .approved] → s'.activeNodeId = none := by
  intro hs'
  obtain ⟨s₁, hstep, rfl⟩ := h.step
  cases hstep with
  | control hmove =>
      cases hmove with
      | approve _ hstate => exact hs (by rw [hstate]; decide)
      | _ => simp at hs'
  | advanceAuthority | move => exact hs hs'
  | cancel => rfl
  | consumeBudget _ _ hspend =>
      rw [hspend.result] at hs' ⊢
      exact hs hs'
  | admitted _ hstate =>
      have hs' : s.state ∈ [CampaignState.draft, .approved] := hs'
      rw [hstate] at hs'
      exact absurd hs' (by decide)
  | dispatch _ _ hdispatch =>
      obtain ⟨_, -, hspend, -⟩ := dispatchEffect_eq_ok hdispatch
      obtain ⟨hstate, -, -, hactive⟩ := (consumeAutomated_maySpend hspend).control_eq
      exact hactive.trans (hs (hstate ▸ hs'))
  | fail => rfl
  | publish _ _ hspend =>
      obtain ⟨hstate, -, -, hactive⟩ := (consumeAutomated_maySpend hspend).control_eq
      exact hactive.trans (hs (hstate ▸ hs'))
  | @confirm _ _ _ complete =>
      cases complete with
      | true => rfl
      | false => exact hs hs'

/-- A node that is ready to publish belongs to a started campaign. -/
theorem started {spec : CampaignSpec} {history : List (Entry CampaignSnapshot Applied)}
    (h : CampaignRun spec history s) (hn : n ∈ s.nodes) (hready : n.state = .readyToPublish) :
    s.state ∉ [CampaignState.draft, .approved] := by
  intro hstate
  have hidle : s.state ∈ [CampaignState.draft, .approved] → s.activeNodeId = none := by
    obtain ⟨s₀, hinit, hrun⟩ := h
    refine hrun.invariant (fun s => s.state ∈ [CampaignState.draft, .approved] → s.activeNodeId = none)
      (fun _ => (initial_eq_ok hinit).2.2.2.2.2.2.2.2.1) fun hs hstep => ?_
    exact unstarted_step (reduce_accepted hstep) hs
  have hlive : s.state ∉ terminalCampaignStates := by
    intro hterminal
    revert hstate hterminal
    cases s.state <;> decide
  have hactive := (h.shaped.1 hlive).active_of_work hn (by rw [hready]; decide) (by rw [hready]; decide)
  rw [hidle hstate] at hactive
  exact absurd hactive nofun

/-- The states of a node with a prepared effect. -/
def preparedStates : List NodeState := [.publishing, .failedExactNode, .cancelled]

theorem prepared_step {effects : List ExternalEffectIntent} {m m' : NodeSnapshot}
    (h : NodeStep s e effects m m')
    (hm : m.pendingPublicationOperationId ≠ none → m.state ∈ preparedStates) :
    m'.pendingPublicationOperationId ≠ none → m'.state ∈ preparedStates := by
  intro hpending
  cases h with
  | same | unlease => exact hm hpending
  | cancel =>
      by_cases hterminal : terminalNodeStates.contains m.state
      · rw [cancelNode, if_pos hterminal] at hpending ⊢
        exact hm hpending
      · rw [cancelNode, if_neg hterminal]
        show NodeState.cancelled ∈ preparedStates
        decide
  | admitted _ _ hstate =>
      have hprepared := hm hpending
      rw [hstate] at hprepared
      exact absurd hprepared (by decide)
  | move _ hmove =>
      cases hmove with
      | acquireLease | releaseLease | authorizePublication => exact hm hpending
      | implementationCompleted _ _ hstate | requestCorrection _ _ _ hstate
      | validationPassed _ _ hstate | freezeFindings _ hstate | markReady _ hstate
      | authorizeRepair _ hstate | repairCompleted _ _ hstate | closureCompleted _ hstate =>
          have hprepared := hm hpending
          rw [hstate] at hprepared
          exact absurd hprepared (by decide)
  | dispatch _ hmove =>
      cases hmove with
      | startImplementation _ _ _ hstate | startReview _ hstate | startRepair _ _ hstate
      | revalidationPassed _ _ hstate =>
          have hprepared := hm hpending
          rw [hstate] at hprepared
          exact absurd hprepared (by decide)
  | fail =>
      show NodeState.failedExactNode ∈ preparedStates
      decide
  | publish =>
      show NodeState.publishing ∈ preparedStates
      decide
  | confirm => exact absurd rfl hpending

/-- A node that is ready to publish has no prepared effect. -/
theorem ready_idle {spec : CampaignSpec} {history : List (Entry CampaignSnapshot Applied)}
    (h : CampaignRun spec history s) (hn : n ∈ s.nodes) (hready : n.state = .readyToPublish) :
    n.pendingPublicationOperationId = none := by
  by_contra hpending
  have hinv : ∀ n ∈ s.nodes, n.pendingPublicationOperationId ≠ none → n.state ∈ preparedStates :=
    h.node_invariant (fun _ hne => absurd rfl hne) fun hm hstep => prepared_step hstep hm
  have hprepared := hinv n hn hpending
  rw [hready] at hprepared
  exact absurd hprepared (by decide)

/-- What the checks of a specification say of one required effect. -/
theorem required_kind {spec : CampaignSpec} {allowed required : List Value} {v : Value}
    (hsequences : effectSequences spec.publicationAuthority = .ok (allowed, required))
    (hv : v ∈ required) :
    v.memberOf allowed = true ∧ ∃ kind ∈ publicationEffects, v.text = kind.value := by
  have h := spec.checked.1
  simp only [checkPublicationAuthority, bind_eq_ok, Prod.exists, check_eq_ok, orRaise_eq_ok,
    exists_const] at h
  obtain ⟨allowed', required', hsequences', -, -, -, hmember, parsed, -, parsedRequired, hparsed, -,
    hpublication, -⟩ := h
  rw [hsequences, Except.ok.injEq, Prod.mk.injEq] at hsequences'
  obtain ⟨rfl, rfl⟩ := hsequences'
  obtain ⟨kind, hkind, htext⟩ := mapM_mem hparsed hv
  exact ⟨List.all_eq_true.mp hmember v hv, kind, by simpa using List.all_eq_true.mp hpublication kind hkind,
    (EffectKind.value_of_ofValue? htext).symm⟩

/-- What the three places have in common: the next effect of the required sequence, of a node that is
ready to publish. -/
theorem next_effect {spec : CampaignSpec} {history : List (Entry CampaignSnapshot Applied)}
    (hfloat : ∀ q (kind : EffectKind), Runtime.floatRepr q ≠ kind.value)
    (h : CampaignRun spec history s) (hn : n ∈ s.nodes) (hready : n.state = .readyToPublish) :
    ∃ allowed required kind, effectSequences s.spec.publicationAuthority = .ok (allowed, required) ∧
      required[n.completedPublicationEffects.length]? = some (.str kind.value) ∧
      (Value.str kind.value).memberOf allowed = true ∧ kind ∈ publicationEffects := by
  obtain ⟨allowed, required, hsequences⟩ := CampaignSpec.effectSequences_ok s.spec
  have hinv := (publicationInv_run h).2 n hn
  have hrequired : required = requiredSequence spec.publicationAuthority :=
    h.spec_eq ▸ effectSequences_eq_ok hsequences
  -- the completed effects are a proper front of the sequence, as the node is not done
  have hfront : n.completedPublicationEffects.map Value.str <+: required := by
    refine List.IsPrefix.trans ?_ (hrequired ▸ hinv.sequence)
    rw [List.map_append]
    exact List.prefix_append _ _
  have hunfinished : n.completedPublicationEffects.map Value.str ≠ required := by
    intro hcomplete
    have hdone := hinv.done.mpr (hcomplete.trans hrequired)
    rw [hready] at hdone
    cases hdone
  obtain ⟨rest, hrest⟩ := hfront
  cases rest with
  | nil => exact absurd (by simpa using hrest) hunfinished
  | cons v rest =>
      have hv : v ∈ required := by simp [← hrest]
      obtain ⟨hallowed, kind, hkind, htext⟩ := required_kind hsequences hv
      obtain rfl := eq_str_of_text (hfloat · kind) htext
      refine ⟨allowed, required, kind, hsequences, ?_, hallowed, hkind⟩
      rw [← hrest, List.getElem?_append_right (by simp)]
      simp

/-- **Agreement on the next publication effect.**  For a node that is ready to publish, the supervisor,
the reducer and the store agree on one kind exactly when the specification declares
`required_effects`. -/
theorem required_sequence_agreement {spec : CampaignSpec}
    {history : List (Entry CampaignSnapshot Applied)}
    (hfloat : ∀ q (kind : EffectKind), Runtime.floatRepr q ≠ kind.value)
    (h : CampaignRun spec history s) (hn : n ∈ s.nodes) (hready : n.state = .readyToPublish) :
    (∃ kind, PublicationAgreement s n kind) ↔
      (spec.publicationAuthority.get? "required_effects").isSome := by
  rw [← h.spec_eq]
  constructor
  · rintro ⟨kind, hagree⟩
    by_contra habsent
    rw [Bool.not_eq_true, Option.isSome_eq_false_iff, Option.isNone_iff_eq_none] at habsent
    have hchosen := hagree.supervisor
    simp only [nextPublication, Mapping.getD, habsent, bind_eq_ok, orRaise_eq_ok, pure_eq_ok] at hchosen
    obtain ⟨sequence, hsequence, hnone⟩ := hchosen
    obtain rfl : [] = sequence := Option.some.inj hsequence
    exact absurd hnone (by simp)
  · intro hdeclared
    obtain ⟨allowed, required, kind, hsequences, hnext, hallowed, hkind⟩ :=
      next_effect hfloat h hn hready
    obtain ⟨declared, hget⟩ := Option.isSome_iff_exists.mp hdeclared
    have hitems := hsequences
    simp only [effectSequences, Mapping.getD, hget, Option.getD_some, bind_eq_ok, orRaise_eq_ok,
      pure_eq_ok, Prod.mk.injEq] at hitems
    obtain ⟨_, hallows, _, hdeclares, rfl, rfl⟩ := hitems
    obtain ⟨head, hhead, -⟩ :=
      ((reviewInv_run h n hn).gate (by rw [hready]; decide)).2.2.2.1.1
    refine ⟨kind, ⟨?_, fun e ht hnode => ?_, fun r hnode => ?_⟩⟩
    · simp only [nextPublication, Mapping.getD, hget, Option.getD_some, bind_eq_ok, orRaise_eq_ok,
        pure_eq_ok]
      exact ⟨_, hdeclares, by rw [hnext, Option.map_some, Value.text_str]⟩
    · exact startPublish_iff hn hready (ready_idle h hn hready) hsequences hnext hallowed ht hnode
    · exact verify_iff hn hready hhead (started h hn hready) hkind hallows
        (by rw [Mapping.getD, hget, Option.getD_some, hdeclares]) hnext hallowed hnode

end Sequence

namespace Sample

open CodingOS.Campaign.Sample

/-- The sample campaign, whose specification declares no `required_effects`, ready to publish. -/
def readyRun : List (Entry CampaignSnapshot Applied) × CampaignSnapshot :=
  (foldEvents start (candidateEvents ++ Sample.publicationEvents.take 3)).toOption.get (by decide +kernel)

theorem readyRun_run : CampaignRun spec readyRun.1 readyRun.2 :=
  ⟨start, initial_start, foldEvents_run (get_toOption _)⟩

def pushEvent : Event :=
  event 10 "e10" .startPublish (some "n")
    [("effect_kind", .str "PUSH"), ("operation_id", .str "o3"), ("budget_token", .str "PUSH")]
    none none e10_nonblank unfenced

def pushRequest : AuthorityRequest where
  campaignId := "c"
  effectKind := "PUSH"
  authorityEpoch := 1
  cancellationEpoch := 0
  nodeId := some "n"
  candidateHead := some "h"

/-- The sample campaign with the same sequence declared. -/
def declaredSpec : CampaignSpec where
  toCampaignSpecFields := { fields with
    publicationAuthority := ("required_effects", .tuple [.str "PUSH", .str "CREATE_PULL_REQUEST"])
      :: fields.publicationAuthority }
  valid := by decide
  deadline_ne_blank := by decide

def declaredStart : CampaignSnapshot :=
  (CampaignSnapshot.initial declaredSpec).toOption.get (by decide +kernel)

def declaredRun : List (Entry CampaignSnapshot Applied) × CampaignSnapshot :=
  (foldEvents declaredStart (candidateEvents ++ Sample.publicationEvents.take 3)).toOption.get
    (by decide +kernel)

theorem declaredRun_run : CampaignRun declaredSpec declaredRun.1 declaredRun.2 :=
  ⟨declaredStart, get_toOption _, foldEvents_run (get_toOption _)⟩

theorem floatRepr_ne (q : ℚ) (kind : EffectKind) : Runtime.floatRepr q ≠ kind.value := by
  show "0.0" ≠ kind.value
  cases kind <;> decide

end Sample

open Sample CodingOS.Campaign.Sample in
/-- Without `required_effects` the reducer accepts a push, the store refuses it and the supervisor finds
nothing left to publish. -/
theorem omitted_required_effects :
    CampaignRun spec readyRun.1 readyRun.2 ∧ ∃ n ∈ readyRun.2.nodes, n.state = .readyToPublish ∧
      (nextPublication readyRun.2 n).toOption = some none ∧
      (reduce readyRun.2 pushEvent).toOption.isSome = true ∧
      (verifyPublicationAuthority readyRun.2 pushRequest).toOption = none ∧
      ¬ ∃ kind, PublicationAgreement readyRun.2 n kind := by
  obtain ⟨n, hn, hready, hnext, hpush, hverify⟩ : ∃ n ∈ readyRun.2.nodes, n.state = .readyToPublish ∧
      (nextPublication readyRun.2 n).toOption = some none ∧
      (reduce readyRun.2 pushEvent).toOption.isSome = true ∧
      (verifyPublicationAuthority readyRun.2 pushRequest).toOption = none := by decide +kernel
  refine ⟨readyRun_run, n, hn, hready, hnext, hpush, hverify, ?_⟩
  rintro ⟨kind, hagree⟩
  rw [hagree.supervisor] at hnext
  cases hnext

open Sample CodingOS.Campaign.Sample in
theorem required_sequence_agreement_sample :
    ∃ n ∈ declaredRun.2.nodes, n.state = .readyToPublish ∧
      ∃ kind, PublicationAgreement declaredRun.2 n kind := by
  obtain ⟨n, hn, hready⟩ : ∃ n ∈ declaredRun.2.nodes, n.state = .readyToPublish := by decide +kernel
  exact ⟨n, hn, hready,
    (required_sequence_agreement floatRepr_ne declaredRun_run hn hready).mpr (by decide)⟩

end CodingOS.Supervisor
