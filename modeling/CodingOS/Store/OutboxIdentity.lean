import CodingOS.Store.EventSourcing

/-!
# Who owns an outbox row

`START_PUBLISH` inserts one outbox row under an operation identifier its caller chose.  When the
identifier is taken, `_insert_effect` compares the kind and the digest of the payload and takes an
equal row for its own replay; it compares neither campaign nor node.  So the event owns a fresh row
exactly when no row of that identifier has its kind and payload, and `rebound_operation` is a run in
which the row of one campaign serves another.
-/

namespace CodingOS.Store

open CodingOS.Python CodingOS.Campaign Systems

section Identity

variable [Runtime]

/-! ### The effect an event asks for -/

/-- `intent` is the effect the `START_PUBLISH` event asks of a campaign. -/
structure Requests (s : CampaignSnapshot) (event : Event) (intent : ExternalEffectIntent) : Prop where
  operation : intent.operationId = payloadText event "operation_id"
  campaign : intent.campaignId = event.campaignId
  node : intent.nodeId = event.nodeId
  kind : ((event.payload.get? "effect_kind").bind fun value => EffectKind.ofValue? value.text)
    = some intent.kind
  payload : ∃ n supplied, Names s event n ∧
    (event.payload.getD "effect_payload" (.mapping [])).dict? = some supplied ∧
    intent.payload = sortByKey (supplied.setDefault "candidate_head" (candidateHeadValue n))

/-- Two effects one event asks for have one operation, kind and payload. -/
theorem Requests.unique {s : CampaignSnapshot} {event : Event} {i j : ExternalEffectIntent}
    (h : Requests s event i) (h' : Requests s event j) :
    i.operationId = j.operationId ∧ i.kind = j.kind ∧ i.payload = j.payload := by
  refine ⟨h.operation.trans h'.operation.symm, Option.some.inj (h.kind.symm.trans h'.kind), ?_⟩
  obtain ⟨n, supplied, hn, hsupplied, hi⟩ := h.payload
  obtain ⟨m, supplied', hm, hsupplied', hj⟩ := h'.payload
  obtain rfl := Option.some.inj (hsupplied.symm.trans hsupplied')
  have hid := Option.some.inj (hn.nodeId.symm.trans hm.nodeId)
  obtain rfl := CampaignSnapshot.node_unique hn.mem hm.mem hid.symm
  rw [hi, hj]

/-- An accepted `START_PUBLISH` emits exactly the effect it asks for. -/
theorem reduce_requests {s next : CampaignSnapshot} {event : Event}
    {effects : List ExternalEffectIntent} (ht : event.eventType = .startPublish)
    (h : reduce s event = .ok (next, effects)) :
    ∃ intent, effects = [intent] ∧ intent.external = true ∧ intent.state = .prepared ∧
      Requests s event intent := by
  have haccepted := reduce_accepted h
  have hcampaign := haccepted.campaign
  simp only [reduce, reduceBranch, ht, bind_eq_ok, Prod.exists] at h
  obtain ⟨_, -, s₁, fx, hbranch, hfinish⟩ := h
  simp only [reduceStartPublish, bind_eq_ok, require_eq_ok, orRaise_eq_ok, pure_eq_ok,
    Prod.mk.injEq, Prod.exists, exists_const] at hbranch
  obtain ⟨n, hn, -, -, -, kind, hkind, token, -, allowed, required, -, -, expected, -, -, -, -, s₂,
    hspend, supplied, hsupplied, -, intent, hintent, m, -, -, rfl⟩ := hbranch
  simp only [finishRevision, bind_eq_ok, pure_eq_ok, Prod.mk.injEq] at hfinish
  obtain ⟨_, -, _, -, _, -, _, -, -, rfl⟩ := hfinish
  obtain ⟨identity, hidentity, rfl⟩ := effect_eq_ok hintent
  refine ⟨_, rfl, rfl, rfl, hidentity rfl, ?_, rfl, hkind, n, supplied, nodeFor_eq_ok hn, hsupplied,
    rfl⟩
  show s₂.spec.campaignId = event.campaignId
  rw [(consumeAutomated_maySpend hspend).spec_eq, hcampaign]

/-- The rows an event asks for are replayed by the same rows. -/
theorem Requests.replays_eq {s : CampaignSnapshot} {event : Event} {i j : ExternalEffectIntent}
    (h : Requests s event i) (h' : Requests s event j) (row : EffectRow) :
    row.replays i = row.replays j := by
  obtain ⟨-, hkind, hpayload⟩ := h.unique h'
  rw [EffectRow.replays, EffectRow.replays, hkind, hpayload]

/-! ### Committing what the reducer accepted -/

section Commit

variable {db db₁ : Db} {row : CampaignRow} {event : Event} {next : CampaignSnapshot}
  {effects : List ExternalEffectIntent}

theorem Db.swapSnapshot_ok (db : Db) (next : CampaignSnapshot)
    (hrow : db.campaigns.get? event.campaignId = some row)
    (hrevision : row.storeRevision = event.expectedRevision) :
    ∃ campaigns, db.swapSnapshot event next = .ok { db with campaigns } ∧
      (campaigns.get? event.campaignId).isSome := by
  have hid : row.campaignId = event.campaignId := Table.key_of_get? hrow
  refine ⟨_, bind_eq_ok.mpr ⟨(), check_eq_ok.mpr ?_, rfl⟩, ?_⟩
  · rw [hrow, Option.any_some]
    simp [hid, hrevision]
  · rw [Table.get?_update, hrow]
    rfl

theorem Db.syncSnapshot_ok (db : Db) (hstored : ∀ n ∈ next.nodes, Stored n) :
    ∃ findings, db.syncSnapshot next
      = .ok { db with nodes := db.nodes.upsertAll (nodeRows next), findings } := by
  obtain ⟨findings, hinsert⟩ := insert_findings db.findings hstored
  refine ⟨findings, bind_eq_ok.mpr ⟨findings, ?_, rfl⟩⟩
  rw [uniqueViolation, hinsert]
  rfl

/-- The event of a new request is new to the log, and so is its revision. -/
theorem Sourced.insertEvent_ok (h : Sourced db) (db₁ : Db) (hsame : db₁.events = db.events)
    (hrow : db.campaigns.get? event.campaignId = some row)
    (hreduce : reduce row.snapshot event = .ok (next, effects))
    (hfresh : db.operations.get? event.eventId = none) (digest : String) :
    ∃ events, db₁.insertEvent (.ofEvent event next digest) = .ok { db₁ with events } := by
  have hsourced := h.campaigns _ _ hrow
  have hid : row.campaignId = event.campaignId := Table.key_of_get? hrow
  have hrevision := (reduce_accepted hreduce).revision_eq
  have hunique : (!db₁.events.rows.any fun r =>
      r.campaignId == event.campaignId && r.revision == next.revision) = true := by
    rw [Bool.not_eq_true', List.any_eq_false, hsame]
    intro r hr hsame
    simp only [Bool.and_eq_true, beq_iff_eq] at hsame
    have hmem : r.revision ∈ (db.eventLog row.campaignId).map (·.revision) :=
      List.mem_map_of_mem (List.mem_filter.mpr ⟨hr, by simp [hsame.1, hid]⟩)
    rw [hsourced.revisions, hsourced.revision, List.mem_range'_1] at hmem
    omega
  have hnew : db₁.events.get? event.eventId = none := by
    rw [hsame, Table.get?_eq_none]
    rintro r hr hkey
    have hrequested := h.requested r hr
    rw [hkey, Db.requested, hfresh] at hrequested
    cases hrequested
  obtain ⟨events, hinsert, -⟩ := Table.exists_insert? (r := EventRow.ofEvent event next digest) hnew
  refine ⟨events, bind_eq_ok.mpr ⟨(), check_eq_ok.mpr hunique, ?_⟩⟩
  rw [hinsert]
  rfl

theorem Db.noteTerminal_same (db : Db) (event : Event) (next : CampaignSnapshot) :
    (db.noteTerminal event next).outbox = db.outbox ∧
      (db.noteTerminal event next).campaigns = db.campaigns := by
  obtain ⟨telemetry, hnoted⟩ := db.noteTerminal_frame event next
  rw [hnoted]
  exact ⟨rfl, rfl⟩

/-- **A new event that the reducer accepts commits**, provided its outbox inserts do.  The two events
that read or write other tables are left out. -/
theorem Sourced.commits (h : Sourced db) (hrow : db.campaigns.get? event.campaignId = some row)
    (hreduce : reduce row.snapshot.reload event = .ok (next, effects))
    (hfresh : db.operations.get? event.eventId = none)
    (ht : event.eventType ≠ .requestValidationCorrection ∧ event.eventType ≠ .startReview)
    (hinsert : ∀ before : Db, before.outbox = db.outbox →
      (before.campaigns.get? event.campaignId).isSome →
      ∃ after, before.insertEffects effects next.revision = .ok after) (digest : String) :
    ∃ db', db.applyNewEvent event digest = .ok ((next, effects), db') := by
  have hsourced := h.campaigns _ _ hrow
  obtain ⟨hreload, hreduce'⟩ := reduce_reload hsourced.folded hreduce
  have haccepted := reduce_accepted hreduce'
  have hreplayed := replay_snoc.mpr ⟨_, effects, hsourced.folded, hreduce'⟩
  obtain ⟨history, hrun, -⟩ := replay_run hreplayed
  obtain ⟨operations, hbegin, -⟩ := Table.exists_insert? (r := ({
    requestId := event.eventId, campaignId := some event.campaignId, kind := event.eventType.value,
    payloadDigest := digest, status := .executing, createdRevision := some event.expectedRevision } :
    OperationRow)) hfresh
  obtain ⟨campaigns, hswap, hsome⟩ := Db.swapSnapshot_ok { db with operations } next hrow
    (hsourced.revision.trans haccepted.revision.symm)
  obtain ⟨findings, hsync⟩ := Db.syncSnapshot_ok { db with operations, campaigns }
    (stored_run hrun)
  obtain ⟨events, hevents⟩ := h.insertEvent_ok { db with
    operations, campaigns, nodes := db.nodes.upsertAll (nodeRows next), findings } rfl hrow hreduce'
    hfresh digest
  obtain ⟨hnotedOutbox, hnotedCampaigns⟩ := Db.noteTerminal_same { db with
    operations, campaigns, nodes := db.nodes.upsertAll (nodeRows next), findings, events } event next
  obtain ⟨after, hafter⟩ := hinsert _ hnotedOutbox (by
    rw [hnotedCampaigns]
    exact hsome)
  have hreview : after.openReview event next = .ok after := if_neg ht.2
  have hpersist : Db.persistTransition { db with operations } event next effects digest
      = .ok (after.settle event next) :=
    bind_eq_ok.mpr ⟨_, hswap, bind_eq_ok.mpr ⟨_, hsync, bind_eq_ok.mpr ⟨_, hevents,
      bind_eq_ok.mpr ⟨_, hafter, bind_eq_ok.mpr ⟨_, hreview, rfl⟩⟩⟩⟩⟩
  have hload : db.loadSnapshot event.campaignId = .ok row.snapshot.reload := by
    rw [Db.loadSnapshot, hrow]
    rfl
  have hcorrection : db.requireCorrectionEvidence event = .ok () := by
    rw [Db.requireCorrectionEvidence, if_pos (by simpa using ht.1)]
    rfl
  have hbegun : db.beginOperation event.eventId (some event.campaignId) event.eventType.value digest
      (some event.expectedRevision) = .ok { db with operations } := by
    rw [Db.beginOperation, hbegin]
    rfl
  exact ⟨_, bind_eq_ok.mpr ⟨_, hload, bind_eq_ok.mpr ⟨_, hcorrection, bind_eq_ok.mpr ⟨_, hbegun,
    bind_eq_ok.mpr ⟨_, hreduce, bind_eq_ok.mpr ⟨_, hpersist, rfl⟩⟩⟩⟩⟩⟩

end Commit

/-! ### The law -/

/-- **Outbox identity** of a new `START_PUBLISH` event. -/
structure OutboxIdentity (db : Db) (s : CampaignSnapshot) (event : Event) : Prop where
  /-- A commit leaves exactly one row under the operation, freshly prepared by the event. -/
  fresh : ∀ transition db', db.applyEvent event = .ok (transition, db') →
    ∃ intent, Requests s event intent ∧ intent.state = .prepared ∧
      db.outbox.get? intent.operationId = none ∧
      ∀ row, row ∈ db'.outbox.rows ∧ row.operationId = intent.operationId ↔
        row = .ofIntent intent transition.1.revision
  /-- An operation that is taken makes the event be rejected. -/
  rejected : db.outbox.get? (payloadText event "operation_id") ≠ none →
    ∃ exc, db.applyEvent event = .error exc

/-- Whether a row of the outbox has the operation, the kind and the payload the event asks for. -/
def Replayed (db : Db) (s : CampaignSnapshot) (event : Event) : Prop :=
  ∃ intent existing, Requests s event intent ∧
    db.outbox.get? intent.operationId = some existing ∧ existing.replays intent = true

section Law

variable {db : Db} {history : List (Entry Db Transaction)} {s next : CampaignSnapshot}
  {event : Event} {effects : List ExternalEffectIntent}

theorem Db.applyEvent_new (ht : event.eventType = .startPublish)
    (hfresh : db.operations.get? event.eventId = none) :
    db.applyEvent event = db.applyNewEvent event (canonicalJsonDigest event.toDict) := by
  have hresult := Db.operationResult_of_none (canonicalJsonDigest event.toDict) hfresh
  rw [Db.applyEvent, ht]
  show db.applyEventTx event = _
  simp only [Db.applyEventTx, Option.getD_none, hresult]
  rfl

/-- **Outbox identity, exactly.**  In every reached store, a new `START_PUBLISH` event that the reducer
accepts owns its outbox row if and only if no row has its operation, kind and payload. -/
theorem outbox_identity_iff (h : StoreRun history db) (ht : event.eventType = .startPublish)
    (hfresh : db.operations.get? event.eventId = none)
    (hload : db.loadSnapshot event.campaignId = .ok s)
    (hreduce : reduce s event = .ok (next, effects)) :
    OutboxIdentity db s event ↔ ¬ Replayed db s event := by
  obtain ⟨row, hrow, rfl⟩ := Db.loadSnapshot_eq_ok hload
  obtain ⟨intent, rfl, hexternal, hprepared, hrequests⟩ := reduce_requests ht hreduce
  have hnew := Db.applyEvent_new ht hfresh
  constructor
  · rintro ⟨hidentity, -⟩ ⟨intent', existing, hrequests', hget, hreplays⟩
    rw [hrequests'.replays_eq hrequests] at hreplays
    have hget' : db.outbox.get? intent.operationId = some existing := by
      rw [hrequests.operation, ← hrequests'.operation]
      exact hget
    -- the row is taken for a replay, so the event commits without a row of its own
    obtain ⟨db', hcommit⟩ := (sourced_run h).commits hrow hreduce hfresh (by simp [ht])
      (fun before hbefore _ => by
        refine ⟨before, ?_⟩
        rw [Db.insertEffects, List.filter_cons_of_pos hexternal]
        refine bind_eq_ok.mpr ⟨before, ?_, rfl⟩
        simp only [Db.insertEffect, hbefore, hget']
        exact bind_eq_ok.mpr ⟨(), check_eq_ok.mpr hreplays, rfl⟩)
      (canonicalJsonDigest event.toDict)
    obtain ⟨intent'', hrequests'', -, hnone, -⟩ := hidentity _ _ (hnew.trans hcommit)
    rw [hrequests''.operation, ← hrequests.operation, hget'] at hnone
    cases hnone
  · intro hreplayed
    have hcommitted : ∀ transition db', db.applyEvent event = .ok (transition, db') →
        transition = (next, [intent]) ∧ db.outbox.get? intent.operationId = none ∧
          db.outbox.insert? (.ofIntent intent next.revision) = some db'.outbox := by
      intro transition db' hcommit
      rw [hnew] at hcommit
      obtain ⟨⟨row', happlied⟩, -, -⟩ := Db.applyNewEvent_eq_ok hcommit
      obtain rfl := Option.some.inj (hrow.symm.trans happlied.row_eq)
      have htransition : transition = (next, [intent]) :=
        Except.ok.inj (happlied.reduced.symm.trans hreduce)
      rw [htransition] at happlied
      rcases happlied.outbox_cases with ⟨hne, -⟩ | ⟨-, intent', heq, hrow'⟩
      · exact absurd ht hne
      · obtain rfl := List.singleton_inj.mp heq
        rcases hrow' with ⟨existing, hget, hreplays, -⟩ | hinsert
        · exact absurd ⟨intent, existing, hrequests, hget, hreplays⟩ hreplayed
        · exact ⟨htransition, (Table.insert?_eq_some.mp hinsert).1, hinsert⟩
    refine ⟨fun transition db' hcommit => ?_, fun hused => ?_⟩
    · obtain ⟨rfl, hnone, hinsert⟩ := hcommitted transition db' hcommit
      refine ⟨intent, hrequests, hprepared, hnone, fun r => ?_⟩
      rw [Table.mem_insert? hinsert]
      constructor
      · rintro ⟨hr | rfl, hid⟩
        · exact absurd hid (Table.get?_eq_none.mp hnone r hr)
        · rfl
      · rintro rfl
        exact ⟨.inr rfl, rfl⟩
    · cases hcommit : db.applyEvent event with
      | error exc => exact ⟨exc, rfl⟩
      | ok result =>
          obtain ⟨-, hnone, -⟩ := hcommitted result.1 result.2 hcommit
          rw [hrequests.operation] at hnone
          exact absurd hnone hused

end Law

end Identity

namespace Sample

open CodingOS.Campaign.Sample

/-- The last event of the second campaign: it asks for the operation of the first one. -/
def otherPublish : Event := otherEvents.getLast (by decide +kernel)

def otherSnapshot : CampaignSnapshot :=
  (sharedRun.2.loadSnapshot "d").toOption.get (by decide +kernel)

theorem otherSnapshot_load : sharedRun.2.loadSnapshot otherPublish.campaignId = .ok otherSnapshot :=
  get_toOption _

def otherPublished : Transition := (reduce otherSnapshot otherPublish).toOption.get (by decide +kernel)

theorem otherPublished_reduce : reduce otherSnapshot otherPublish
    = .ok (otherPublished.1, otherPublished.2) := by
  rw [Prod.mk.eta]
  exact get_toOption _

def otherCommit : Transition × Db :=
  (sharedRun.2.applyEvent otherPublish).toOption.get (by decide +kernel)

theorem otherCommit_ok : sharedRun.2.applyEvent otherPublish = .ok (otherCommit.1, otherCommit.2) := by
  rw [Prod.mk.eta]
  exact get_toOption _

end Sample

open Sample in
theorem outbox_identity_iff_sample :
    OutboxIdentity sharedRun.2 otherSnapshot otherPublish ↔
      ¬ Replayed sharedRun.2 otherSnapshot otherPublish :=
  outbox_identity_iff sharedRun_run (by decide +kernel) (by decide +kernel) otherSnapshot_load
    otherPublished_reduce

open Sample in
/-- The event of campaign `d` commits, and its operation is still the row of campaign `c`, which has
the kind and the payload the event asks for. -/
theorem rebound_operation :
    StoreRun sharedRun.1 sharedRun.2 ∧ otherPublish.eventType = .startPublish ∧
      otherPublish.campaignId = "d" ∧
      sharedRun.2.applyEvent otherPublish = .ok (otherCommit.1, otherCommit.2) ∧
      (otherCommit.1.2.map fun i => (i.operationId, i.campaignId, i.kind, i.payload))
        = [("o3", "d", .push, [("candidate_head", .str "h")])] ∧
      ((otherCommit.2.outbox.get? "o3").map fun r => (r.campaignId, r.kind, r.payload))
        = some ("c", .push, [("candidate_head", .str "h")]) ∧
      ¬ OutboxIdentity sharedRun.2 otherSnapshot otherPublish := by
  refine ⟨sharedRun_run, by decide +kernel, by decide +kernel, otherCommit_ok, by decide +kernel,
    by decide +kernel, ?_⟩
  rintro ⟨hfresh, -⟩
  obtain ⟨intent, hrequests, -, hnone, -⟩ := hfresh _ _ otherCommit_ok
  have htaken : sharedRun.2.outbox.get? (payloadText otherPublish "operation_id") ≠ none := by
    decide +kernel
  rw [hrequests.operation] at hnone
  exact htaken hnone

end CodingOS.Store
