import CodingOS.Store.Run

/-!
# One row of the outbox

What a committed transaction does to the row of one operation: it stays, or is settled by the
cancellation of its campaign, or recovered, or moved by `update_effect`; and a row that was not there
was inserted as `PREPARED` by `START_PUBLISH` or by `prepare_effect`.  Rows are never deleted.
-/

namespace CodingOS.Store

open CodingOS.Python CodingOS.Campaign Systems

variable [Runtime]

/-- What a committed transaction does to a row that was there. -/
inductive RowStep (db : Db) (t : Transaction) (row : EffectRow) : EffectRow → Prop
  | same : RowStep db t row row
  | cancelled {event : Event} {revision : ℕ} : t.carries event → event.eventType = .cancel →
      event.campaignId = row.campaignId → row.state = .prepared →
      RowStep db t row { row with state := .cancelled, updatedRevision := revision }
  | interrupted {event : Event} {revision : ℕ} : t.carries event → event.eventType = .cancel →
      event.campaignId = row.campaignId → row.state = .executing →
      RowStep db t row { row with state := .ambiguous, updatedRevision := revision }
  | recovered {retained : List String} : t = .recoverAfterRestart retained → row.state = .executing →
      RowStep db t row { row with state := .ambiguous }
  | updated {target : EffectState} {result : Option Value} {expected : Option EffectState}
      {s : CampaignSnapshot} {revision : ℕ} :
      t = .updateEffect row.operationId target result expected →
      expected = none ∨ expected = some row.state →
      target = row.state ∨ target ∈ effectTransitions row.state →
      db.loadSnapshot row.campaignId = .ok s →
      (target = .executing → target ≠ row.state → checkExecutable s row = .ok ()) →
      RowStep db t row { row with state := target, result, updatedRevision := revision }

/-- A row a committed transaction inserted. -/
inductive Inserted (db : Db) (t : Transaction) (row : EffectRow) : Prop
  | published {event : Event} {campaign : CampaignRow} {next : CampaignSnapshot}
      {intent : ExternalEffectIntent} : t.carries event → event.eventType = .startPublish →
      db.campaigns.get? event.campaignId = some campaign →
      reduce campaign.snapshot.reload event = .ok (next, [intent]) →
      row = .ofIntent intent next.revision → Inserted db t row
  | prepared {operationId campaignId : String} {nodeId : Option String} {kind : EffectKind}
      {payload : Mapping} {digest : Option String} {intent : ExternalEffectIntent}
      {s : CampaignSnapshot} {node : Option NodeSnapshot} :
      t = .prepareEffect operationId campaignId nodeId kind payload digest →
      intent.operationId = operationId → db.loadSnapshot campaignId = .ok s → s.state ≠ .cancelled →
      intent.campaignId = campaignId → intent.state = .prepared →
      intent.authorityEpoch = s.authorityEpoch ∧ intent.cancellationEpoch = s.cancellationEpoch →
      preparedNode s intent.nodeId = .ok node → intent.fencingEpoch = node.map (·.fencingEpoch) →
      (∀ n, node = some n →
        checkPreparedNode n intent.operationId intent.kind intent.payload = .ok ()) →
      row = .ofIntent intent s.revision → Inserted db t row

/-- What a committed transaction does to the row of an operation. -/
structure OutboxChange (db : Db) (t : Transaction) (db' : Db) : Prop where
  step : ∀ row, db.outbox.get? row.operationId = some row →
    ∃ row', db'.outbox.get? row.operationId = some row' ∧ RowStep db t row row'
  inserted : ∀ row', db.outbox.get? row'.operationId = none →
    db'.outbox.get? row'.operationId = some row' → Inserted db t row'

section Changes

variable {db db' : Db} {t : Transaction}

theorem OutboxChange.of_eq (h : db'.outbox = db.outbox) : OutboxChange db t db' := by
  refine ⟨fun row hrow => ⟨row, h ▸ hrow, .same⟩, fun row' hnone hrow' => ?_⟩
  rw [h, hnone] at hrow'
  cases hrow'

/-- An insert leaves the other rows alone. -/
theorem OutboxChange.of_insert {new : EffectRow} (h : db.outbox.insert? new = some db'.outbox)
    (hnew : Inserted db t new) : OutboxChange db t db' := by
  have hfree := (Table.insert?_eq_some.mp h).1
  refine ⟨fun row hrow => ⟨row, ?_, .same⟩, fun row' hnone hrow' => ?_⟩
  · rw [Table.get?_insert? h, if_neg ?_, hrow]
    intro hid
    rw [hid, hfree] at hrow
    cases hrow
  · rw [Table.get?_insert? h] at hrow'
    split at hrow'
    · obtain rfl := Option.some.inj hrow'
      exact hnew
    · rw [hnone] at hrow'
      cases hrow'

/-- An update moves the rows it selects, and inserts none. -/
theorem OutboxChange.of_update {p : EffectRow → Bool} {f : EffectRow → EffectRow}
    {keeps : ∀ r, (f r).operationId = r.operationId} (h : db'.outbox = db.outbox.update p f keeps)
    (hstep : ∀ row, db.outbox.get? row.operationId = some row → p row = true →
      RowStep db t row (f row)) : OutboxChange db t db' := by
  refine ⟨fun row hrow => ?_, fun row' hnone hrow' => ?_⟩
  · refine ⟨if p row then f row else row, ?_, ?_⟩
    · rw [h, Table.get?_update, hrow]
      rfl
    · split
      · next hp => exact hstep row hrow hp
      · exact .same
  · rw [h, Table.get?_update, hnone] at hrow'
    cases hrow'

/-- A cancellation settles the prepared rows of its campaign and interrupts the executing ones. -/
theorem OutboxChange.of_cancel {event : Event} {revision : ℕ} (hcarries : t.carries event)
    (ht : event.eventType = .cancel)
    (h : db'.outbox = settledOutbox db.outbox event revision) : OutboxChange db t db' := by
  rw [settledOutbox, if_pos ht] at h
  refine ⟨fun row hrow => ?_, fun row' hnone hrow' => ?_⟩
  · rw [h, Table.get?_update, Table.get?_update, hrow]
    by_cases hcampaign : row.campaignId = event.campaignId
    · cases hstate : row.state with
      | prepared =>
          refine ⟨{ row with state := .cancelled, updatedRevision := revision }, ?_,
            .cancelled hcarries ht hcampaign.symm hstate⟩
          simp [hcampaign, hstate]
      | executing =>
          refine ⟨{ row with state := .ambiguous, updatedRevision := revision }, ?_,
            .interrupted hcarries ht hcampaign.symm hstate⟩
          simp [hcampaign, hstate]
      | confirmed | failed | ambiguous | cancelled =>
          refine ⟨row, ?_, .same⟩
          simp [hstate]
    · refine ⟨row, ?_, .same⟩
      simp [hcampaign]
  · rw [h, Table.get?_update, Table.get?_update, hnone] at hrow'
    cases hrow'

theorem OutboxChange.of_event {event : Event} {campaign : CampaignRow} {next : CampaignSnapshot}
    {effects : List ExternalEffectIntent} (hcarries : t.carries event)
    (h : EventApplied db event campaign next effects db') : OutboxChange db t db' := by
  rcases h.outbox_cases with ⟨-, hsettled⟩ | ⟨ht, intent, rfl, ⟨_, -, -, hsame⟩ | hinsert⟩
  · by_cases hcancel : event.eventType = .cancel
    · exact .of_cancel hcarries hcancel hsettled
    · rw [settledOutbox, if_neg hcancel] at hsettled
      exact .of_eq hsettled
  · exact .of_eq hsame
  · exact .of_insert hinsert (.published hcarries ht h.row_eq h.reduced rfl)

/-- The lease events leave the outbox alone. -/
theorem EventApplied.lease_outbox {event : Event} {campaign : CampaignRow} {next : CampaignSnapshot}
    {effects : List ExternalEffectIntent} (h : EventApplied db event campaign next effects db')
    (ht : event.eventType = .acquireLease ∨ event.eventType = .releaseLease) :
    db'.outbox = db.outbox := by
  rcases h.outbox_cases with ⟨-, hsettled⟩ | ⟨hpublish, -⟩
  · rw [hsettled, settledOutbox, if_neg]
    rcases ht with ht | ht <;> simp [ht]
  · rcases ht with ht | ht <;> simp [ht] at hpublish

/-- **What every committed transaction does to the outbox.** -/
theorem Committed.outbox (h : Committed db t db') : OutboxChange db t db' := by
  cases h with
  | beside hbeside => exact .of_eq hbeside.outbox
  | created hcreated => exact .of_eq hcreated.outbox
  | applied hcarries happlied => exact .of_event hcarries happlied
  | granted hgranted =>
      rcases hgranted.transition with ⟨-, -, hframe⟩ | ⟨-, -, _, _, _, _, hevent, happlied⟩
      · exact .of_eq hframe.outbox
      · exact .of_eq (happlied.lease_outbox (.inl (LeaseRequest.event_eq_ok hevent).2.2.1))
  | bound hbound => exact .of_eq hbound.frame.outbox
  | retired hretired =>
      rcases hretired.transition with ⟨-, hframe⟩ | ⟨-, _, _, _, _, hevent, happlied⟩
      · exact .of_eq hframe.outbox
      · exact .of_eq (happlied.lease_outbox (.inr (ReleaseRequest.event_eq_ok hevent).2.2.1))
  | recovered hrecovered =>
      exact .of_update hrecovered.outbox fun row _ hstate => .recovered rfl (by simpa using hstate)
  | prepared hprepared hfields =>
      obtain ⟨s, hload, hcancelled, hauthority, hcancellation, node, hnode, hfence, hchecked,
        hinsert⟩ := hprepared.snapshot
      exact .of_insert hinsert (.prepared rfl hfields.1 hload hcancelled hprepared.campaign hprepared.state
        ⟨hauthority, hcancellation⟩ hnode hfence hchecked rfl)
  | @updated operationId target result expected row _ hupdated hid hexpected =>
      obtain ⟨s, hload, hchecked, rfl⟩ := hupdated.revision
      have hout : (db.writeEffect row.operationId row.state target result s.revision).outbox
          = db.outbox.update (fun r => r.operationId == row.operationId && r.state == row.state)
            (fun r => { r with state := target, result, updatedRevision := s.revision })
            fun _ => rfl := rfl
      refine .of_update hout fun row' hrow' hp => ?_
      simp only [Bool.and_eq_true, beq_iff_eq] at hp
      obtain rfl : row' = row := by
        rw [hp.1, hupdated.row_eq] at hrow'
        exact (Option.some.inj hrow').symm
      exact .updated (by rw [hid]) hexpected hupdated.follows hload hchecked

end Changes

end CodingOS.Store
