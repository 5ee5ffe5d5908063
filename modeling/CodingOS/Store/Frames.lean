import CodingOS.Campaign.Run
import CodingOS.Store.Leases
import CodingOS.Store.Outbox
import CodingOS.Store.Receipts

/-!
# What each statement writes

One lemma for each statement of the store: when it succeeds, which table changed and how.  The
transactions are then read off these lemmas and their definitions are not unfolded again.

The lifecycle of a campaign lives in four tables, which only `create_campaign` and
`_persist_transition` write.
-/

namespace CodingOS.Store

open CodingOS.Python CodingOS.Campaign Systems

variable [Runtime]

/-- The tables of the lifecycle: campaigns, their projections and their events. -/
structure Lifecycle where
  campaigns : Table CampaignRow.campaignId
  nodes : Table NodeRow.key
  findings : Table FindingRow.key
  events : Table EventRow.eventId

def Db.lifecycle (db : Db) : Lifecycle := ⟨db.campaigns, db.nodes, db.findings, db.events⟩

/-- The tables of authority: actors, their leases and the locks of resources. -/
structure Authority where
  actors : Table ActorRow.actorId
  leases : Table LeaseRow.leaseId
  locks : Table LockRow.resourceKey

def Db.authority (db : Db) : Authority := ⟨db.actors, db.leases, db.resourceLocks⟩

/-- A request identifier that was used. -/
def Db.requested (db : Db) (requestId : String) : Prop := (db.operations.get? requestId).isSome

/-- No request row was changed or forgotten. -/
def Kept (db db' : Db) : Prop :=
  ∀ id row, db.operations.get? id = some row → db'.operations.get? id = some row

/-- Neither the lifecycle nor the outbox changed, and the request rows were kept. -/
structure Frame (db db' : Db) : Prop where
  lifecycle : db'.lifecycle = db.lifecycle
  outbox : db'.outbox = db.outbox
  kept : Kept db db'

/-- A frame that leaves the authority tables alone too. -/
structure Beside (db db' : Db) : Prop extends Frame db db' where
  authority : db'.authority = db.authority

theorem Kept.trans {db db₁ db' : Db} (h : Kept db db₁) (h' : Kept db₁ db') : Kept db db' :=
  fun id row hrow => h' id row (h id row hrow)

theorem Kept.of_eq {db db' : Db} (h : db'.operations = db.operations) : Kept db db' :=
  fun _ _ hrow => by rw [h, hrow]

theorem Kept.requested {db db' : Db} (h : Kept db db') {id : String} (hid : db.requested id) :
    db'.requested id := by
  obtain ⟨row, hrow⟩ := Option.isSome_iff_exists.mp hid
  rw [Db.requested, h id row hrow]
  rfl

/-- An identifier that is free now was free before. -/
theorem Kept.free {db db' : Db} (h : Kept db db') {id : String}
    (hfree : db'.operations.get? id = none) : db.operations.get? id = none := by
  rw [← Option.not_isSome_iff_eq_none]
  intro hid
  have hid' := h.requested hid
  rw [Db.requested, hfree] at hid'
  cases hid'

namespace Frame

variable {db db₁ db' : Db}

@[refl] theorem refl : Frame db db := ⟨rfl, rfl, fun _ _ h => h⟩

theorem trans (h : Frame db db₁) (h' : Frame db₁ db') : Frame db db' :=
  ⟨h'.lifecycle.trans h.lifecycle, h'.outbox.trans h.outbox, h.kept.trans h'.kept⟩

end Frame

namespace Beside

variable {db db₁ db' : Db}

@[refl] theorem refl : Beside db db := ⟨.refl, rfl⟩

theorem trans (h : Beside db db₁) (h' : Beside db₁ db') : Beside db db' :=
  ⟨h.toFrame.trans h'.toFrame, h'.authority.trans h.authority⟩

end Beside

/-! ### Request rows -/

theorem Db.operationResult_eq_none {db : Db} {requestId digest : String}
    (h : db.operationResult requestId digest = .ok none) :
    db.operations.get? requestId = none := by
  unfold Db.operationResult at h
  split at h
  · next hget => exact hget
  · simp only [bind_eq_ok, check_eq_ok, exists_const] at h
    obtain ⟨-, h⟩ := h
    split at h
    · simp at h
    · exact absurd h fail_ne_ok

theorem Db.operationResult_of_none {db : Db} {requestId : String} (digest : String)
    (h : db.operations.get? requestId = none) : db.operationResult requestId digest = .ok none := by
  rw [Db.operationResult, h]

/-- A result is read under a used identifier. -/
theorem Db.operationResult_used {db : Db} {requestId digest : String} {result : OperationResult}
    (h : db.operationResult requestId digest = .ok (some result)) :
    db.operations.get? requestId ≠ none := by
  intro hfree
  rw [Db.operationResult_of_none _ hfree] at h
  cases h

theorem Db.beginOperation_eq_ok {db db' : Db} {requestId kind digest : String}
    {campaignId : Option String} {revision : Option ℕ}
    (h : db.beginOperation requestId campaignId kind digest revision = .ok db') :
    ∃ operations, db.operations.insert? {
        requestId, campaignId, kind, payloadDigest := digest, status := .executing,
        createdRevision := revision } = some operations ∧
      db' = { db with operations } := by
  simp only [Db.beginOperation, uniqueViolation, bind_eq_ok, orRaise_eq_ok, pure_eq_ok] at h
  obtain ⟨operations, hinsert, rfl⟩ := h
  exact ⟨operations, hinsert, rfl⟩

theorem Db.beginOperation_beside {db db' : Db} {requestId kind digest : String}
    {campaignId : Option String} {revision : Option ℕ}
    (h : db.beginOperation requestId campaignId kind digest revision = .ok db') :
    Beside db db' ∧ db.operations.get? requestId = none := by
  obtain ⟨operations, hinsert, rfl⟩ := Db.beginOperation_eq_ok h
  have hfree := (Table.insert?_eq_some.mp hinsert).1
  refine ⟨⟨⟨rfl, rfl, fun id row hrow => ?_⟩, rfl⟩, hfree⟩
  show operations.get? id = some row
  rw [Table.get?_insert? hinsert, if_neg ?_, hrow]
  rintro rfl
  rw [hfree] at hrow
  cases hrow

theorem Db.finishOperation_get? (db : Db) (requestId : String) (result : OperationResult)
    (id : String) : (db.finishOperation requestId result).operations.get? id
      = (db.operations.get? id).map fun row =>
          if row.requestId == requestId then { row with status := .confirmed, result := some result }
          else row := by
  unfold Db.finishOperation
  rw [Table.get?_update]

/-- **A recorded request**: its identifier was free, and its row is there now. -/
structure Recorded (db db' : Db) (row : OperationRow) : Prop where
  free : db.operations.get? row.requestId = none
  kept : Kept db db'
  written : db'.operations.get? row.requestId = some row

/-- What a transaction records by its first and its last statement. -/
theorem Db.finishOperation_recorded {db db₁ db₂ : Db} {requestId kind digest : String}
    {campaignId : Option String} {revision : Option ℕ}
    (hbegin : db.beginOperation requestId campaignId kind digest revision = .ok db₁)
    (hkept : Kept db₁ db₂) (result : OperationResult) :
    Recorded db (db₂.finishOperation requestId result) {
      requestId, campaignId, kind, payloadDigest := digest, status := .confirmed,
      result := some result, createdRevision := revision } := by
  obtain ⟨hbegun, hfree⟩ := Db.beginOperation_beside hbegin
  obtain ⟨operations, hinsert, rfl⟩ := Db.beginOperation_eq_ok hbegin
  refine ⟨hfree, fun id row hrow => ?_, ?_⟩
  · have hother : row.requestId ≠ requestId := by
      rintro rfl
      rw [Table.key_of_get? hrow] at hfree
      rw [hfree] at hrow
      cases hrow
    rw [Db.finishOperation_get?, (hbegun.kept.trans hkept) id row hrow]
    simp [hother]
  · have hstarted := hkept requestId _ (by
      show operations.get? requestId = _
      rw [Table.get?_insert? hinsert, if_pos rfl])
    rw [Db.finishOperation_get?, hstarted]
    simp

theorem Db.finishOperation_frame {db db₁ db₂ : Db} {requestId kind digest : String}
    {campaignId : Option String} {revision : Option ℕ}
    (hbegin : db.beginOperation requestId campaignId kind digest revision = .ok db₁)
    (h : Frame db₁ db₂) (result : OperationResult) :
    Frame db (db₂.finishOperation requestId result) := by
  obtain ⟨hbegun, -⟩ := Db.beginOperation_beside hbegin
  exact ⟨h.lifecycle.trans hbegun.lifecycle, h.outbox.trans hbegun.outbox,
    (Db.finishOperation_recorded hbegin h.kept result).kept⟩

theorem Db.finishOperation_beside {db db₁ db₂ : Db} {requestId kind digest : String}
    {campaignId : Option String} {revision : Option ℕ}
    (hbegin : db.beginOperation requestId campaignId kind digest revision = .ok db₁)
    (h : Beside db₁ db₂) (result : OperationResult) :
    Beside db (db₂.finishOperation requestId result) :=
  ⟨Db.finishOperation_frame hbegin h.toFrame result,
    h.authority.trans (Db.beginOperation_beside hbegin).1.authority⟩

/-! ### Snapshots and events -/

theorem Db.syncSnapshot_eq_ok {db db' : Db} {snapshot : CampaignSnapshot}
    (h : db.syncSnapshot snapshot = .ok db') :
    ∃ findings, (db.findings.delete (·.campaignId == snapshot.spec.campaignId)).insertAll?
        (findingRows snapshot) = some findings ∧
      db' = { db with nodes := db.nodes.upsertAll (nodeRows snapshot), findings } := by
  simp only [Db.syncSnapshot, uniqueViolation, bind_eq_ok, orRaise_eq_ok, pure_eq_ok] at h
  obtain ⟨findings, hinsert, rfl⟩ := h
  exact ⟨findings, hinsert, rfl⟩

theorem Db.insertEvent_eq_ok {db db' : Db} {row : EventRow} (h : db.insertEvent row = .ok db') :
    (∀ r ∈ db.events.rows, r.campaignId = row.campaignId → r.revision ≠ row.revision) ∧
      ∃ events, db.events.insert? row = some events ∧ db' = { db with events } := by
  simp only [Db.insertEvent, uniqueViolation, bind_eq_ok, check_eq_ok, orRaise_eq_ok, pure_eq_ok,
    exists_const] at h
  obtain ⟨hunique, events, hinsert, rfl⟩ := h
  refine ⟨fun r hr hcampaign hrevision => ?_, events, hinsert, rfl⟩
  have hany : (db.events.rows.any fun r =>
      r.campaignId == row.campaignId && r.revision == row.revision) = true :=
    List.any_eq_true.mpr ⟨r, hr, by simp [hcampaign, hrevision]⟩
  simp [hany] at hunique

/-! ### The outbox -/

/-- `_insert_effect` either takes an existing row for the one it was to insert and writes nothing, or
inserts a fresh row. -/
theorem Db.insertEffect_eq_ok {db db' : Db} {intent : ExternalEffectIntent} {revision : ℕ}
    (h : db.insertEffect intent revision = .ok db') :
    (∃ existing, db.outbox.get? intent.operationId = some existing ∧
        existing.replays intent = true ∧ db' = db) ∨
      (∃ outbox, db.outbox.insert? (.ofIntent intent revision) = some outbox ∧
        db' = { db with outbox }) := by
  unfold Db.insertEffect at h
  split at h
  · next existing hget =>
      simp only [bind_eq_ok, check_eq_ok, pure_eq_ok, exists_const] at h
      exact .inl ⟨existing, hget, h.1, h.2.symm⟩
  · simp only [uniqueViolation, bind_eq_ok, orRaise_eq_ok, pure_eq_ok] at h
    obtain ⟨_, -, outbox, hinsert, rfl⟩ := h
    exact .inr ⟨outbox, hinsert, rfl⟩

/-- The inserts of a list of intents write the outbox alone. -/
theorem Db.insertEffects_frame {db db' : Db} {effects : List ExternalEffectIntent} {revision : ℕ}
    (h : db.insertEffects effects revision = .ok db') : ∃ outbox, db' = { db with outbox } := by
  refine foldlM_eq_ok_induct (motive := fun acc => ∃ outbox, acc = { db with outbox })
    (fun hacc hstep => ?_) h ⟨db.outbox, rfl⟩
  obtain ⟨outbox, rfl⟩ := hacc
  rcases Db.insertEffect_eq_ok hstep with ⟨-, -, -, rfl⟩ | ⟨outbox', -, rfl⟩
  · exact ⟨outbox, rfl⟩
  · exact ⟨outbox', rfl⟩

theorem Db.noteTerminal_frame (db : Db) (event : Event) (next : CampaignSnapshot) :
    ∃ telemetry, db.noteTerminal event next = { db with telemetry } := by
  unfold Db.noteTerminal
  split
  · exact ⟨db.telemetry, rfl⟩
  · exact ⟨_, rfl⟩

theorem Db.openReview_frame {db db' : Db} {event : Event} {next : CampaignSnapshot}
    (h : db.openReview event next = .ok db') : ∃ reviews, db' = { db with reviews } := by
  unfold Db.openReview at h
  split at h
  · simp only [Db.insertReview, uniqueViolation, bind_eq_ok, orRaise_eq_ok, pure_eq_ok] at h
    obtain ⟨_, -, _, -, _, -, reviews, -, rfl⟩ := h
    exact ⟨reviews, rfl⟩
  · obtain rfl := Except.ok.inj h
    exact ⟨db.reviews, rfl⟩

/-- The outbox after the side effects of a terminal transition. -/
def settledOutbox (outbox : Table EffectRow.operationId) (event : Event) (revision : ℕ) :
    Table EffectRow.operationId :=
  if event.eventType = .cancel then
    (outbox.update (fun row => row.campaignId == event.campaignId && row.state == .prepared)
      (fun row => { row with state := .cancelled, updatedRevision := revision })
      fun _ => rfl).update (fun row => row.campaignId == event.campaignId && row.state == .executing)
      (fun row => { row with state := .ambiguous, updatedRevision := revision }) fun _ => rfl
  else outbox

/-- The authority tables after the side effects of a terminal transition. -/
def settledAuthority (a : Authority) (event : Event) (next : CampaignSnapshot) : Authority :=
  if event.eventType = .cancel ∨ next.state = .failed then
    { a with
      leases := a.leases.update (fun row => row.campaignId == event.campaignId && row.state == .active)
        (fun row => { row with state := .invalidated }) LeaseRow.invalidated_key
      locks := a.locks.update (·.campaignId == some event.campaignId)
        (fun row => { row with leaseId := none }) LockRow.unlocked_key }
  else a

section Settle

variable (db : Db) (event : Event) (next : CampaignSnapshot)

@[simp] theorem Db.settle_lifecycle : (db.settle event next).lifecycle = db.lifecycle := by
  unfold Db.settle
  split
  · rfl
  · split <;> rfl

@[simp] theorem Db.settle_operations : (db.settle event next).operations = db.operations := by
  unfold Db.settle
  split
  · rfl
  · split <;> rfl

theorem Db.settle_outbox :
    (db.settle event next).outbox = settledOutbox db.outbox event next.revision := by
  unfold Db.settle settledOutbox
  split
  · rfl
  · split <;> rfl

theorem Db.settle_authority :
    (db.settle event next).authority = settledAuthority db.authority event next := by
  unfold Db.settle settledAuthority
  by_cases hcancel : event.eventType = .cancel
  · rw [if_pos hcancel, if_pos (.inl hcancel)]
    rfl
  · rw [if_neg hcancel]
    split
    · next hfailed =>
        rw [if_pos (.inr hfailed)]
        rfl
    · next hfailed =>
        rw [if_neg (by simp [hcancel, hfailed])]

end Settle

/-! ### Applying an event -/

/-- The row of a campaign after a transition. -/
def CampaignRow.advance (row : CampaignRow) (next : CampaignSnapshot) : CampaignRow :=
  { row with
    snapshot := next
    state := next.state
    storeRevision := next.revision
    authorityEpoch := next.authorityEpoch
    cancellationEpoch := next.cancellationEpoch }

theorem Db.swapSnapshot_eq_ok {db db' : Db} {event : Event} {next : CampaignSnapshot}
    (h : db.swapSnapshot event next = .ok db') :
    ∃ row, db.campaigns.get? event.campaignId = some row ∧
      row.storeRevision = event.expectedRevision ∧
      ∃ campaigns : Table CampaignRow.campaignId,
        (∀ id, campaigns.get? id = if id = event.campaignId then some (row.advance next)
          else db.campaigns.get? id) ∧
        db' = { db with campaigns } := by
  simp only [Db.swapSnapshot, bind_eq_ok, check_eq_ok, pure_eq_ok, exists_const] at h
  obtain ⟨hcurrent, rfl⟩ := h
  obtain ⟨row, hrow, hcurrent⟩ := (Option.any_eq_true _ _).mp hcurrent
  rw [Bool.and_eq_true, beq_iff_eq, beq_iff_eq] at hcurrent
  refine ⟨row, hrow, hcurrent.2, _, fun id => ?_, rfl⟩
  rw [Table.get?_update]
  by_cases hid : id = event.campaignId
  · subst hid
    rw [hrow, Option.map_some, if_pos rfl]
    simp [hcurrent.2, hcurrent.1, CampaignRow.advance]
  · rw [if_neg hid]
    cases hother : db.campaigns.get? id with
    | none => rfl
    | some other =>
        have hne : other.campaignId ≠ event.campaignId := by
          rw [Table.key_of_get? hother]
          exact hid
        simp [hne]

/-- **What a new event does.**  The transaction that applied `event` to the campaign row `row`. -/
structure EventApplied (db : Db) (event : Event) (row : CampaignRow) (next : CampaignSnapshot)
    (effects : List ExternalEffectIntent) (db' : Db) : Prop where
  row_eq : db.campaigns.get? event.campaignId = some row
  reduced : reduce row.snapshot.reload event = .ok (next, effects)
  revision : row.storeRevision = event.expectedRevision
  fresh : db.operations.get? event.eventId = none
  kept : Kept db db'
  requested : db'.requested event.eventId
  campaigns : ∀ id, db'.campaigns.get? id = if id = event.campaignId then some (row.advance next)
    else db.campaigns.get? id
  nodes : db'.nodes = db.nodes.upsertAll (nodeRows next)
  findings : (db.findings.delete (·.campaignId == next.spec.campaignId)).insertAll?
    (findingRows next) = some db'.findings
  events : ∃ digest, db.events.insert? (.ofEvent event next digest) = some db'.events
  outbox : ∃ before queued : Db, before.outbox = db.outbox ∧
    before.insertEffects effects next.revision = .ok queued ∧
    db'.outbox = settledOutbox queued.outbox event next.revision

/-- What surrounds the transition of an event in one transaction leaves it as it is. -/
theorem EventApplied.around {db db₁ db₂ db' : Db} {event : Event} {row : CampaignRow}
    {next : CampaignSnapshot} {effects : List ExternalEffectIntent}
    (h : EventApplied db₁ event row next effects db₂) (before : Frame db db₁)
    (hlifecycle : db'.lifecycle = db₂.lifecycle) (hsame : db'.outbox = db₂.outbox)
    (kept : Kept db db') (requested : db'.requested event.eventId) :
    EventApplied db event row next effects db' := by
  have hbefore := before.lifecycle
  simp only [Db.lifecycle, Lifecycle.mk.injEq] at hbefore hlifecycle
  obtain ⟨hcampaigns, hnodes, hfindings, hevents⟩ := hbefore
  obtain ⟨hcampaigns', hnodes', hfindings', hevents'⟩ := hlifecycle
  obtain ⟨digest, hlogged⟩ := h.events
  obtain ⟨start, queued, hstart, hqueued, houtbox⟩ := h.outbox
  refine ⟨hcampaigns ▸ h.row_eq, h.reduced, h.revision, before.kept.free h.fresh, kept, requested,
    fun id => ?_, ?_, ?_, ⟨digest, ?_⟩,
    ⟨start, queued, hstart.trans before.outbox, hqueued, hsame.trans houtbox⟩⟩
  · rw [hcampaigns', h.campaigns, hcampaigns]
  · rw [hnodes', h.nodes, hnodes]
  · rw [hfindings', ← hfindings]
    exact h.findings
  · rw [hevents', ← hevents]
    exact hlogged

/-- A transaction may write other tables after it applied its event. -/
theorem EventApplied.trans {db db₁ db' : Db} {event : Event} {row : CampaignRow}
    {next : CampaignSnapshot} {effects : List ExternalEffectIntent}
    (h : EventApplied db event row next effects db₁) (after : Frame db₁ db') :
    EventApplied db event row next effects db' :=
  h.around .refl after.lifecycle after.outbox (h.kept.trans after.kept)
    (after.kept.requested h.requested)

theorem Db.persistTransition_eq_ok {db db' : Db} {event : Event} {next : CampaignSnapshot}
    {effects : List ExternalEffectIntent} {digest : String}
    (h : db.persistTransition event next effects digest = .ok db') :
    ∃ row, db.campaigns.get? event.campaignId = some row ∧
      row.storeRevision = event.expectedRevision ∧
      (∀ id, db'.campaigns.get? id = if id = event.campaignId then some (row.advance next)
        else db.campaigns.get? id) ∧
      db'.nodes = db.nodes.upsertAll (nodeRows next) ∧
      (db.findings.delete (·.campaignId == next.spec.campaignId)).insertAll? (findingRows next)
        = some db'.findings ∧
      db.events.insert? (.ofEvent event next digest) = some db'.events ∧
      (∃ before queued : Db, before.outbox = db.outbox ∧
        before.insertEffects effects next.revision = .ok queued ∧
        db'.outbox = settledOutbox queued.outbox event next.revision) ∧
      db'.operations = db.operations ∧
      db'.authority = settledAuthority db.authority event next := by
  simp only [Db.persistTransition, bind_eq_ok, pure_eq_ok] at h
  obtain ⟨dbSwapped, hswap, dbSynced, hsync, dbLogged, hlog, dbQueued, hqueue, dbReviewed, hreview,
    rfl⟩ := h
  obtain ⟨row, hrow, hrevision, campaigns, hcampaigns, hdbSwapped⟩ := Db.swapSnapshot_eq_ok hswap
  obtain ⟨findings, hfindings, hdbSynced⟩ := Db.syncSnapshot_eq_ok hsync
  obtain ⟨-, events, hevents, hdbLogged⟩ := Db.insertEvent_eq_ok hlog
  obtain ⟨telemetry, hdbNoted⟩ := Db.noteTerminal_frame dbLogged event next
  obtain ⟨outbox, hdbQueued⟩ := Db.insertEffects_frame hqueue
  obtain ⟨reviews, hdbReviewed⟩ := Db.openReview_frame hreview
  have hlifecycle : (dbReviewed.settle event next).lifecycle
      = ⟨campaigns, db.nodes.upsertAll (nodeRows next), findings, events⟩ := by
    rw [Db.settle_lifecycle, hdbReviewed, hdbQueued, hdbNoted, hdbLogged, hdbSynced, hdbSwapped]
    rfl
  refine ⟨row, hrow, hrevision, fun id => ?_, congrArg Lifecycle.nodes hlifecycle, ?_, ?_,
    ⟨dbLogged.noteTerminal event next, dbQueued, ?_, hqueue, ?_⟩, ?_, ?_⟩
  · rw [show (dbReviewed.settle event next).campaigns = campaigns from
      congrArg Lifecycle.campaigns hlifecycle]
    exact hcampaigns id
  · rw [show (dbReviewed.settle event next).findings = findings from
      congrArg Lifecycle.findings hlifecycle]
    rw [hdbSwapped] at hfindings
    exact hfindings
  · rw [show (dbReviewed.settle event next).events = events from
      congrArg Lifecycle.events hlifecycle]
    rw [hdbSynced, hdbSwapped] at hevents
    exact hevents
  · rw [hdbNoted, hdbLogged, hdbSynced, hdbSwapped]
  · rw [Db.settle_outbox, hdbReviewed]
  · rw [Db.settle_operations, hdbReviewed, hdbQueued, hdbNoted, hdbLogged, hdbSynced, hdbSwapped]
  · rw [Db.settle_authority, hdbReviewed, hdbQueued, hdbNoted, hdbLogged, hdbSynced, hdbSwapped]
    rfl

theorem Db.loadSnapshot_eq_ok {db : Db} {campaignId : String} {s : CampaignSnapshot}
    (h : db.loadSnapshot campaignId = .ok s) :
    ∃ row, db.campaigns.get? campaignId = some row ∧ s = row.snapshot.reload := by
  simp only [Db.loadSnapshot, bind_eq_ok, orRaise_eq_ok, pure_eq_ok] at h
  obtain ⟨row, hrow, rfl⟩ := h
  exact ⟨row, hrow, rfl⟩

/-- The request row of a new event. -/
def OperationRow.ofEvent (event : Event) (digest : String) (transition : Transition) :
    OperationRow where
  requestId := event.eventId
  campaignId := some event.campaignId
  kind := event.eventType.value
  payloadDigest := digest
  status := .confirmed
  result := some (.transition transition.1 transition.2)
  createdRevision := some event.expectedRevision

/-- **Inversion of a new event.** -/
theorem Db.applyNewEvent_eq_ok {db db' : Db} {event : Event} {digest : String}
    {transition : Transition} (h : db.applyNewEvent event digest = .ok (transition, db')) :
    (∃ row, EventApplied db event row transition.1 transition.2 db') ∧
      db'.authority = settledAuthority db.authority event transition.1 ∧
      Recorded db db' (.ofEvent event digest transition) := by
  simp only [Db.applyNewEvent, bind_eq_ok, pure_eq_ok, Prod.exists, Prod.mk.injEq] at h
  obtain ⟨snapshot, hload, _, -, dbBegun, hbegin, next, effects, hreduce, dbDone, hpersist, rfl,
    rfl⟩ := h
  obtain ⟨row, hrow, rfl⟩ := Db.loadSnapshot_eq_ok hload
  obtain ⟨row', hrow', hrevision, hcampaigns, hnodes, hfindings, hevents, houtbox, hoperations,
    hauthority⟩ := Db.persistTransition_eq_ok hpersist
  have hrecorded := Db.finishOperation_recorded hbegin (Kept.of_eq hoperations)
    (.transition next effects)
  obtain ⟨hbegun, hfresh⟩ := Db.beginOperation_beside hbegin
  obtain ⟨operations, hinsert, rfl⟩ := Db.beginOperation_eq_ok hbegin
  obtain rfl := Option.some.inj (hrow.symm.trans hrow')
  refine ⟨⟨row, {
    row_eq := hrow
    reduced := hreduce
    revision := hrevision
    fresh := hfresh
    kept := hrecorded.kept
    requested := ?_
    campaigns := hcampaigns
    nodes := hnodes
    findings := hfindings
    events := ⟨digest, hevents⟩
    outbox := houtbox }⟩, hauthority, hrecorded⟩
  rw [Db.requested, hrecorded.written]
  rfl

/-- `_apply_event_tx` of an identifier that is used replays its recorded result and writes nothing. -/
theorem Db.applyEventTx_eq_ok {db db' : Db} {event : Event} {digest : Option String}
    {transition : Transition} (h : db.applyEventTx event digest = .ok (transition, db')) :
    (db.operations.get? event.eventId ≠ none ∧ db' = db) ∨
      db.applyNewEvent event (digest.getD (canonicalJsonDigest event.toDict))
        = .ok (transition, db') := by
  simp only [Db.applyEventTx, bind_eq_ok] at h
  obtain ⟨prior, hprior, h⟩ := h
  cases prior with
  | some prior =>
      simp only [bind_eq_ok, pure_eq_ok, Prod.mk.injEq] at h
      obtain ⟨_, -, _, -, -, rfl⟩ := h
      exact .inl ⟨Db.operationResult_used hprior, rfl⟩
  | none => exact .inr h

/-- The external intents of an accepted event: none, or the one intent of `START_PUBLISH`. -/
theorem external_intents {s next : CampaignSnapshot} {event : Event}
    {effects : List ExternalEffectIntent} (h : reduce s event = .ok (next, effects)) :
    (event.eventType ≠ .startPublish ∧ effects.filter (·.external) = []) ∨
      (event.eventType = .startPublish ∧ ∃ intent, effects = [intent] ∧
        ∃ n kind operationId, Names s event n ∧
          PublishGuard s event n kind operationId intent) := by
  obtain ⟨s₁, hstep, rfl⟩ := (reduce_accepted h).step
  by_cases htype : event.eventType = .startPublish
  · obtain ⟨n, kind, operationId, intent, hn, heffects, hguard⟩ := hstep.startPublish htype
    exact .inr ⟨htype, intent, heffects, n, kind, operationId, hn, hguard⟩
  · refine .inl ⟨htype, List.filter_eq_nil_iff.mpr fun i hi => ?_⟩
    cases hstep with
    | cancel _ hinternal => simp [hinternal i hi]
    | dispatch _ _ hdispatch =>
        obtain ⟨_, -, -, hinternal⟩ := dispatchEffect_eq_ok hdispatch
        simp [hinternal i hi]
    | publish _ _ _ hguard => exact absurd hguard.eventType htype
    | _ => cases hi

/-- **The outbox of an event.**  `START_PUBLISH` inserts its intent, or finds a row that replays it;
every other event moves the open rows of the campaign it cancels and writes nothing else. -/
theorem EventApplied.outbox_cases {db db' : Db} {event : Event} {row : CampaignRow}
    {next : CampaignSnapshot} {effects : List ExternalEffectIntent}
    (h : EventApplied db event row next effects db') :
    (event.eventType ≠ .startPublish ∧
        db'.outbox = settledOutbox db.outbox event next.revision) ∨
      (event.eventType = .startPublish ∧ ∃ intent, effects = [intent] ∧
        ((∃ existing, db.outbox.get? intent.operationId = some existing ∧
            existing.replays intent = true ∧ db'.outbox = db.outbox) ∨
          db.outbox.insert? (.ofIntent intent next.revision) = some db'.outbox)) := by
  obtain ⟨start, queued, hstart, hqueued, houtbox⟩ := h.outbox
  unfold Db.insertEffects at hqueued
  rcases external_intents h.reduced with ⟨htype, hinternal⟩ | ⟨htype, intent, rfl, n, kind,
    operationId, -, hguard⟩
  · rw [hinternal] at hqueued
    obtain rfl := Except.ok.inj hqueued
    exact .inl ⟨htype, by rw [houtbox, hstart]⟩
  · obtain ⟨-, -, -, -, -, hexternal, -⟩ := hguard.identity
    have hfilter : [intent].filter (·.external) = [intent] := by simp [hexternal]
    rw [hfilter, List.foldlM_cons, bind_eq_ok] at hqueued
    obtain ⟨inserted, hinsert, hdone⟩ := hqueued
    obtain rfl := Except.ok.inj hdone
    have hsettled : db'.outbox = inserted.outbox := by
      rw [houtbox, settledOutbox, if_neg (by simp [htype])]
    refine .inr ⟨htype, intent, rfl, ?_⟩
    rcases Db.insertEffect_eq_ok hinsert with ⟨existing, hget, hreplays, rfl⟩ | ⟨outbox, hnew, rfl⟩
    · exact .inl ⟨existing, hstart ▸ hget, hreplays, hsettled.trans hstart⟩
    · rw [hsettled, ← hstart]
      exact .inr hnew

/-! ### The transactions beside the lifecycle -/

theorem Db.noteTelemetry_beside (db : Db) (row : TelemetryRow) : Beside db (db.noteTelemetry row) :=
  ⟨⟨rfl, rfl, fun _ _ h => h⟩, rfl⟩

theorem Db.recordRuntimeOperation_beside {db db' : Db} {requestId campaignId kind : String}
    {payload result : Mapping} {revision : Option ℕ} {r : OperationResult}
    (h : db.recordRuntimeOperation requestId campaignId kind payload result revision
      = .ok (r, db')) : Beside db db' := by
  simp only [Db.recordRuntimeOperation, bind_eq_ok] at h
  obtain ⟨prior, -, h⟩ := h
  cases prior with
  | some prior =>
      simp only [pure_eq_ok, Prod.mk.injEq] at h
      obtain ⟨-, rfl⟩ := h
      rfl
  | none =>
      simp only [bind_eq_ok, pure_eq_ok, Prod.mk.injEq] at h
      obtain ⟨dbBegun, hbegin, -, rfl⟩ := h
      exact Db.finishOperation_beside hbegin .refl _

theorem Db.insertEvidence_beside {db db' : Db} {item : Evidence}
    (h : db.insertEvidence item = .ok db') : Beside db db' := by
  unfold Db.insertEvidence at h
  split at h
  · simp only [bind_eq_ok, check_eq_ok, pure_eq_ok, exists_const] at h
    rw [← h.2]
  · simp only [uniqueViolation, bind_eq_ok, orRaise_eq_ok, pure_eq_ok] at h
    obtain ⟨_, -, evidence, -, rfl⟩ := h
    exact ⟨⟨rfl, rfl, fun _ _ h => h⟩, rfl⟩

theorem Db.recordEvidence_beside {db db' : Db} {item : Evidence}
    (h : db.recordEvidence item = .ok db') : Beside db db' := by
  simp only [Db.recordEvidence, bind_eq_ok] at h
  obtain ⟨_, -, h⟩ := h
  exact Db.insertEvidence_beside h

/-- **Inversion of `record_terminal_evidence`.** -/
theorem Db.recordTerminalEvidence_eq_ok {db db' : Db} {item : Evidence}
    (h : db.recordTerminalEvidence item = .ok db') :
    ((item.kind = .git ∨ item.kind = .review) ∧ verifyEvidenceDigest item true = .ok ()) ∧
      (((∃ result, db.operationResult ("attest:" ++ item.evidenceId)
          (canonicalJsonDigest item.toDict) = .ok (some result)) ∧ db' = db) ∨
        (Beside db db' ∧ ∃ row, Recorded db db' row ∧ row.requestId = "attest:" ++ item.evidenceId ∧
          row.payloadDigest = canonicalJsonDigest item.toDict ∧ row.status = .confirmed ∧
          row.result.isSome = true)) := by
  simp only [Db.recordTerminalEvidence, bind_eq_ok, check_eq_ok, exists_const, Bool.or_eq_true,
    beq_iff_eq] at h
  obtain ⟨hkind, ⟨⟩, hverified, prior, hprior, h⟩ := h
  refine ⟨⟨hkind, hverified⟩, ?_⟩
  cases prior with
  | some prior =>
      obtain rfl := pure_eq_ok.mp h
      exact .inl ⟨⟨prior, hprior⟩, rfl⟩
  | none =>
      simp only [bind_eq_ok, pure_eq_ok] at h
      obtain ⟨_, -, _, -, _, -, _, -, _, -, dbBegun, hbegin, dbInserted, hinsert, rfl⟩ := h
      have hinserted := Db.insertEvidence_beside hinsert
      exact .inr ⟨Db.finishOperation_beside hbegin hinserted _, _,
        Db.finishOperation_recorded hbegin hinserted.kept _, rfl, rfl, rfl, rfl⟩

theorem Db.recordTerminalEvidence_beside {db db' : Db} {item : Evidence}
    (h : db.recordTerminalEvidence item = .ok db') : Beside db db' := by
  obtain ⟨-, ⟨-, rfl⟩ | ⟨hbeside, -⟩⟩ := Db.recordTerminalEvidence_eq_ok h
  · exact .refl
  · exact hbeside

theorem Db.recordReview_beside {db db' : Db} {review : ReviewRow}
    (h : db.recordReview review = .ok db') : Beside db db' := by
  unfold Db.recordReview at h
  split at h
  · simp only [bind_eq_ok, pure_eq_ok] at h
    obtain ⟨_, -, _, -, rfl⟩ := h
    exact ⟨⟨rfl, rfl, fun _ _ h => h⟩, rfl⟩
  · simp only [uniqueViolation, bind_eq_ok, orRaise_eq_ok, pure_eq_ok] at h
    obtain ⟨_, -, reviews, -, rfl⟩ := h
    exact ⟨⟨rfl, rfl, fun _ _ h => h⟩, rfl⟩

theorem Db.recordNativeUsage_beside {db db' : Db} {actorId recordedAt : String}
    {notification : Mapping} {report : Value}
    (h : db.recordNativeUsage actorId notification recordedAt = .ok (report, db')) :
    Beside db db' := by
  simp only [Db.recordNativeUsage, bind_eq_ok] at h
  obtain ⟨_, -, _, -, _, -, h⟩ := h
  split at h
  · simp only [pure_eq_ok, Prod.mk.injEq] at h
    obtain ⟨-, rfl⟩ := h
    rfl
  · simp only [uniqueViolation, bind_eq_ok, orRaise_eq_ok, pure_eq_ok, Prod.mk.injEq] at h
    obtain ⟨_, -, telemetry, -, -, rfl⟩ := h
    exact ⟨⟨rfl, rfl, fun _ _ h => h⟩, rfl⟩

/-! ### Creating a campaign -/

/-- **What a new campaign is.** -/
structure Created (db : Db) (spec : CampaignSpec) (snapshot : CampaignSnapshot) (db' : Db) :
    Prop where
  initial : CampaignSnapshot.initial spec = .ok snapshot
  campaigns : db.campaigns.insert? (.ofSpec spec snapshot) = some db'.campaigns
  nodes : db'.nodes = db.nodes.upsertAll (nodeRows snapshot)
  findings : (db.findings.delete (·.campaignId == snapshot.spec.campaignId)).insertAll?
    (findingRows snapshot) = some db'.findings
  events : db'.events = db.events
  outbox : db'.outbox = db.outbox
  kept : Kept db db'
  authority : db'.authority = db.authority

theorem Db.insertDependencies_beside {db db' : Db} {spec : CampaignSpec}
    (h : db.insertDependencies spec = .ok db') : Beside db db' := by
  simp only [Db.insertDependencies, uniqueViolation, bind_eq_ok, orRaise_eq_ok, pure_eq_ok] at h
  obtain ⟨_, -, dependencies, -, rfl⟩ := h
  exact ⟨⟨rfl, rfl, fun _ _ h => h⟩, rfl⟩

/-- `create_campaign` writes a new campaign, or moves none. -/
theorem Db.createCampaign_eq_ok {db db' : Db} {spec : CampaignSpec}
    {requestId payloadDigest : Option String} {s : CampaignSnapshot}
    (h : db.createCampaign spec requestId payloadDigest = .ok (s, db')) :
    Beside db db' ∨ Created db spec s db' := by
  simp only [Db.createCampaign, bind_eq_ok] at h
  obtain ⟨_, -, snapshot, hinitial, _, -, prior, -, h⟩ := h
  cases prior with
  | some prior =>
      simp only [bind_eq_ok, pure_eq_ok, Prod.mk.injEq] at h
      obtain ⟨_, -, -, rfl⟩ := h
      exact .inl .refl
  | none =>
      dsimp only at h
      split at h
      · simp only [bind_eq_ok, pure_eq_ok, Prod.mk.injEq] at h
        obtain ⟨_, -, _, hbegin, -, rfl⟩ := h
        exact .inl (Db.finishOperation_beside hbegin .refl _)
      · simp only [bind_eq_ok, pure_eq_ok, Prod.mk.injEq] at h
        obtain ⟨_, -, dbBegun, hbegin, dbInserted, hinsert, dbSynced, hsync, dbLinked, hlink, rfl,
          rfl⟩ := h
        have hlinked := Db.insertDependencies_beside hlink
        obtain ⟨findings, hfindings, rfl⟩ := Db.syncSnapshot_eq_ok hsync
        simp only [Db.insertCampaign, uniqueViolation, bind_eq_ok, orRaise_eq_ok, pure_eq_ok]
          at hinsert
        obtain ⟨campaigns, hcampaigns, rfl⟩ := hinsert
        have hrecorded := Db.finishOperation_recorded hbegin (show Kept dbBegun dbLinked from
          hlinked.kept) (.transition snapshot [])
        have hbegun := (Db.beginOperation_beside hbegin).1
        have hstart := hbegun.lifecycle
        have hend := hlinked.lifecycle
        simp only [Db.lifecycle, Lifecycle.mk.injEq] at hstart hend
        obtain ⟨hcampaigns₀, hnodes₀, hfindings₀, hevents₀⟩ := hstart
        obtain ⟨hcampaigns₁, hnodes₁, hfindings₁, hevents₁⟩ := hend
        refine .inr ⟨hinitial, ?_, ?_, ?_, ?_, ?_, hrecorded.kept, ?_⟩
        · show _ = some dbLinked.campaigns
          rw [hcampaigns₁, ← hcampaigns₀]
          exact hcampaigns
        · show dbLinked.nodes = _
          rw [hnodes₁, ← hnodes₀]
        · show _ = some dbLinked.findings
          rw [hfindings₁, ← hfindings₀]
          exact hfindings
        · show dbLinked.events = _
          rw [hevents₁, ← hevents₀]
        · exact hlinked.outbox.trans hbegun.outbox
        · exact hlinked.authority.trans hbegun.authority

/-! ### The transactions that carry a caller's event -/

section Carriers

variable {db db' : Db}

theorem Db.applyEvent_eq_ok {event : Event} {transition : Transition}
    (h : db.applyEvent event = .ok (transition, db')) :
    event.eventType ≠ .authorizeRepair ∧ event.eventType ≠ .authorizePublication ∧
      db.applyEventTx event = .ok (transition, db') := by
  simp only [Db.applyEvent, bind_eq_ok, check_eq_ok, exists_const, Bool.and_eq_true, bne_iff_ne]
    at h
  exact ⟨h.1.1, h.1.2, h.2⟩

/-- **What a human receipt does.**  It was valid against the campaign and is consumed, and its event
is applied, unless the identifier of the event was used. -/
structure Authorized (db : Db) (event : Event) (receipt : Mapping) (s : CampaignSnapshot)
    (transition : Transition) (db' : Db) : Prop where
  loaded : db.loadSnapshot event.campaignId = .ok s
  validated : validateHumanAuthorizationReceipt s event receipt
    = .ok ((receipt.getD "receipt_id" (.str "")).stripped, canonicalJsonDigest (.mapping receipt))
  recorded : Recorded db db' {
    requestId := (receipt.getD "receipt_id" (.str "")).stripped
    campaignId := some event.campaignId
    kind := "HUMAN_AUTHORIZATION:" ++ event.eventType.value
    payloadDigest := canonicalJsonDigest (.mapping receipt)
    status := .confirmed
    result := some (.humanAuthorization (canonicalJsonDigest (.mapping receipt)) event.eventId
      transition.1.revision)
    createdRevision := some s.revision }
  applied : Beside db db' ∨ (∃ row, EventApplied db event row transition.1 transition.2 db') ∧
    db'.authority = settledAuthority db.authority event transition.1

theorem Db.applyHumanAuthorizedEvent_eq_ok {event : Event} {receipt : Mapping}
    {transition : Transition}
    (h : db.applyHumanAuthorizedEvent event receipt = .ok (transition, db')) :
    ∃ s, Authorized db event receipt s transition db' := by
  simp only [Db.applyHumanAuthorizedEvent, bind_eq_ok] at h
  obtain ⟨s, hload, _, -, h⟩ := h
  split at h
  · simp only [bind_eq_ok] at h
    obtain ⟨_, -, h⟩ := h
    exact absurd h fail_ne_ok
  · simp only [bind_eq_ok, check_eq_ok, pure_eq_ok, beq_iff_eq, Prod.exists, Prod.mk.injEq,
      exists_const] at h
    obtain ⟨receiptId, digest, hvalid, ⟨rfl, rfl⟩, dbBegun, hbegin, next, effects, dbApplied, happly,
      rfl, rfl⟩ := h
    have hbegun := (Db.beginOperation_beside hbegin).1
    rcases Db.applyEventTx_eq_ok happly with ⟨-, rfl⟩ | hnew
    · exact ⟨s, hload, hvalid, Db.finishOperation_recorded hbegin (fun _ _ h => h) _,
        .inl (Db.finishOperation_beside hbegin .refl _)⟩
    · obtain ⟨⟨row, happlied⟩, hauthority, -⟩ := Db.applyNewEvent_eq_ok hnew
      have hrecorded := Db.finishOperation_recorded hbegin happlied.kept
        (.humanAuthorization (canonicalJsonDigest (.mapping receipt)) event.eventId next.revision)
      refine ⟨s, hload, hvalid, hrecorded, .inr ⟨⟨row, happlied.around hbegun.toFrame rfl rfl
        hrecorded.kept ?_⟩, ?_⟩⟩
      · rw [Db.requested, Db.finishOperation_get?, Option.isSome_map]
        exact happlied.requested
      · exact hauthority.trans (by rw [hbegun.authority])

/-- `reserve_budget_attempt` reserves on a free identifier alone. -/
theorem Db.reserveBudgetAttempt_eq_ok {r : BudgetRequest} {s : CampaignSnapshot} {reserved : Bool}
    (h : db.reserveBudgetAttempt r = .ok ((s, reserved), db')) :
    ∃ event, r.event = .ok event ∧
      ((reserved = false ∧ db.operations.get? r.requestId ≠ none ∧ db' = db) ∨
        (reserved = true ∧ ∃ effects,
          db.applyNewEvent event (canonicalJsonDigest event.toDict) = .ok ((s, effects), db'))) := by
  simp only [Db.reserveBudgetAttempt, bind_eq_ok] at h
  obtain ⟨event, hevent, h⟩ := h
  refine ⟨event, hevent, ?_⟩
  split at h
  · next hused =>
      simp only [bind_eq_ok, pure_eq_ok, Prod.mk.injEq] at h
      obtain ⟨_, -, _, -, ⟨-, rfl⟩, rfl⟩ := h
      exact .inl ⟨rfl, by simp [hused], rfl⟩
  · next hfree =>
      simp only [bind_eq_ok, pure_eq_ok, Prod.exists, Prod.mk.injEq] at h
      obtain ⟨next, effects, dbApplied, happly, ⟨rfl, rfl⟩, rfl⟩ := h
      have hid : event.eventId = r.requestId := by
        rw [EventFields.build_eq_ok hevent]
      rcases Db.applyEventTx_eq_ok happly with ⟨hused, -⟩ | hnew
      · exact absurd (hid ▸ hfree) hused
      · exact .inr ⟨rfl, effects, hnew⟩

end Carriers

end CodingOS.Store
