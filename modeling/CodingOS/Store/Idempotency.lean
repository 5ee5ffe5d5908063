import CodingOS.Store.HumanAuthorization
import CodingOS.Store.LeaseTable

/-!
# Request idempotency

Six operations bear a request: an identifier and a payload, whose digest the request ledger binds to
the identifier.  A committed request replays from then on, whatever was committed in between: called
again it raises nothing and moves nothing.  Under another payload it moves nothing either, and it
raises `RequestConflict`, once the checks an operation makes before it reads the ledger have passed:
`release_lease` asks for its lease first (`unknown_lease_reuse`), `apply_event` for an event that needs
no human receipt, `record_terminal_evidence` for a well formed receipt.
-/

namespace CodingOS.Store

open CodingOS.Python CodingOS.Campaign Systems

theorem humanEvents_not_mem {event : Event} : event.eventType ∉ humanEvents ↔
    event.eventType ≠ .authorizeRepair ∧ event.eventType ≠ .authorizePublication := by
  simp [humanEvents]

theorem bind_ok {α β : Type} {x : Result α} {f : α → Result β} {a : α} (h : x = .ok a) :
    x >>= f = f a := by
  rw [h]
  rfl

theorem bind_error {α β : Type} {x : Result α} {f : α → Result β} {exc : CampaignError}
    (h : x = .error exc) : x >>= f = .error exc := by
  rw [h]
  rfl

theorem map_error {α β : Type} {x : Result α} {f : α → β} {exc : CampaignError}
    (h : x = .error exc) : f <$> x = .error exc := by
  rw [h]
  rfl

theorem toOption_eq_some {α : Type} {x : Result α} {a : α} (h : x.toOption = some a) :
    x = .ok a := by
  cases x with
  | error => cases h
  | ok => rw [Option.some.inj h]

section Idempotency

variable [Runtime]

/-! ### Requests and calls -/

/-- The identifier and the payload of a request. -/
def Transaction.request? : Transaction → Option (String × Value)
  | .applyEvent event => some (event.eventId, event.toDict)
  | .reserveBudgetAttempt r => r.event.toOption.map fun event => (event.eventId, event.toDict)
  | .acquireLease r => some (r.requestId, r.payload)
  | .bindActor r => some (r.requestId, r.payload)
  | .releaseLease r => some (r.requestId, r.payload)
  | .recordTerminalEvidence item => some ("attest:" ++ item.evidenceId, item.toDict)
  | _ => none

/-- What an operation checks before it reads the ledger. -/
def Transaction.Checked (db : Db) : Transaction → Prop
  | .applyEvent event => event.eventType ∉ humanEvents
  | .releaseLease r => (db.leases.get? r.leaseId).isSome
  | .recordTerminalEvidence item =>
      (item.kind = .git ∨ item.kind = .review) ∧ verifyEvidenceDigest item true = .ok ()
  | _ => True

/-- The event whose rejection is recorded when the operation raises. -/
def Transaction.rejected? : Transaction → Option Event
  | .applyEvent event => if event.eventType ∈ humanEvents then none else some event
  | .applyHumanAuthorizedEvent event _ => some event
  | .reserveBudgetAttempt r => r.event.toOption
  | _ => none

/-- A call of an operation: what it raises, and the database it leaves.  An operation that raises is
rolled back; those that apply an event of their caller record its rejection. -/
def Transaction.call (db : Db) (t : Transaction) : Option CampaignError × Db :=
  match t.run db with
  | .ok db' => (none, db')
  | .error exc => (some exc, (t.rejected?.map fun event => db.recordRejection event exc).getD db)

/-- Nothing changed but telemetry. -/
def Unmoved (db db' : Db) : Prop := db' = { db with telemetry := db'.telemetry }

/-! ### The ledger -/

variable {db db' : Db} {t : Transaction} {id digest digest' : String} {result : OperationResult}

theorem Db.operationResult_eq_some : db.operationResult id digest = .ok (some result) ↔
    ∃ row, db.operations.get? id = some row ∧ row.payloadDigest = digest ∧
      row.status = .confirmed ∧ row.result = some result := by
  unfold Db.operationResult
  split
  · next hnone => simp [hnone]
  · next row hrow =>
      simp only [bind_eq_ok, check_eq_ok, beq_iff_eq, exists_const, hrow, Option.some.injEq,
        exists_eq_left']
      refine and_congr_right fun _ => ?_
      cases row.status <;> cases row.result <;> simp [fail]

theorem Kept.operationResult (h : Kept db db')
    (hresult : db.operationResult id digest = .ok (some result)) :
    db'.operationResult id digest = .ok (some result) := by
  obtain ⟨row, hrow, hfields⟩ := Db.operationResult_eq_some.mp hresult
  exact Db.operationResult_eq_some.mpr ⟨row, h id row hrow, hfields⟩

theorem Recorded.operationResult {row : OperationRow} (h : Recorded db db' row)
    (hstatus : row.status = .confirmed) (hresult : row.result = some result) :
    db'.operationResult row.requestId row.payloadDigest = .ok (some result) :=
  Db.operationResult_eq_some.mpr ⟨row, h.written, rfl, hstatus, hresult⟩

theorem exists_operationResult (h : ∃ row, Recorded db db' row ∧ row.requestId = id ∧
    row.payloadDigest = digest ∧ row.status = .confirmed ∧ row.result.isSome = true) :
    ∃ result, db'.operationResult id digest = .ok (some result) := by
  obtain ⟨row, hrecorded, rfl, rfl, hstatus, hsome⟩ := h
  obtain ⟨result, hresult⟩ := Option.isSome_iff_exists.mp hsome
  exact ⟨result, hrecorded.operationResult hstatus hresult⟩

/-- The ledger raises on another payload. -/
theorem Db.operationResult_conflict (h : db.operationResult id digest = .ok (some result))
    (hne : digest' ≠ digest) : ∃ exc, db.operationResult id digest' = .error exc ∧
      exc.kind = .requestConflict := by
  obtain ⟨row, hrow, hdigest, -⟩ := Db.operationResult_eq_some.mp h
  have hother : (row.payloadDigest == digest') = false := by
    rw [hdigest]
    exact beq_false_of_ne (Ne.symm hne)
  refine ⟨⟨.requestConflict,
    "request identifier is already bound to a different payload digest"⟩, ?_, rfl⟩
  rw [Db.operationResult, hrow]
  simp only [hother]
  rfl

/-! ### Replays -/

/-- What a replay reads besides the digest. -/
def Transaction.Reads (db : Db) (result : OperationResult) : Transaction → Prop
  | .applyEvent event => event.eventType ∉ humanEvents ∧
      ∃ s effects, result.snapshot = .ok s ∧ result.effects = .ok effects
  | .reserveBudgetAttempt r => ∃ s, db.loadSnapshot r.campaignId = .ok s
  | .acquireLease r => ∃ row, db.leases.get? r.leaseId = some row
  | .bindActor _ => ∃ actor, result.actor = .ok actor
  | .releaseLease r => (∃ row, db.leases.get? r.leaseId = some row) ∧ ∃ s, result.snapshot = .ok s
  | .recordTerminalEvidence item =>
      (item.kind = .git ∨ item.kind = .review) ∧ verifyEvidenceDigest item true = .ok ()
  | _ => False

/-- The ledger has the request, with a result the operation can read. -/
def Transaction.Replays (db : Db) (t : Transaction) : Prop :=
  ∃ id payload result, t.request? = some (id, payload) ∧
    db.operationResult id (canonicalJsonDigest payload) = .ok (some result) ∧ t.Reads db result

/-- **A replay raises nothing and moves nothing.** -/
theorem Transaction.Replays.run (h : t.Replays db) : t.run db = .ok db := by
  obtain ⟨id, payload, result, hrequest, hresult, hreads⟩ := h
  cases t with
  | applyEvent event =>
      obtain ⟨rfl, rfl⟩ := Prod.mk.inj (Option.some.inj hrequest)
      obtain ⟨hplain, s, effects, hs, heffects⟩ := hreads
      obtain ⟨hrepair, hpublication⟩ := humanEvents_not_mem.mp hplain
      have hreplay : db.applyEventTx event = .ok ((s, effects), db) := by
        rw [Db.applyEventTx, bind_eq_ok]
        exact ⟨some result, hresult, bind_eq_ok.mpr ⟨s, hs, bind_eq_ok.mpr ⟨effects, heffects, rfl⟩⟩⟩
      refine snd_map_eq_ok.mpr ⟨(s, effects), ?_⟩
      rw [Db.applyEvent, bind_eq_ok]
      exact ⟨(), by simp [hrepair, hpublication], hreplay⟩
  | reserveBudgetAttempt r =>
      obtain ⟨event, hevent, hpair⟩ := Option.map_eq_some_iff.mp hrequest
      obtain ⟨rfl, rfl⟩ := Prod.mk.inj hpair
      obtain ⟨s, hs⟩ := hreads
      have hbuilt : r.event = .ok event := toOption_eq_some hevent
      have hid : event.eventId = r.requestId := by rw [EventFields.build_eq_ok hbuilt]
      rw [hid] at hresult
      obtain ⟨row, hrow, -⟩ := Db.operationResult_eq_some.mp hresult
      refine snd_map_eq_ok.mpr ⟨(s, false), ?_⟩
      rw [Db.reserveBudgetAttempt, bind_eq_ok]
      refine ⟨event, hbuilt, ?_⟩
      rw [hrow]
      exact bind_eq_ok.mpr ⟨some result, hresult, bind_eq_ok.mpr ⟨s, hs, rfl⟩⟩
  | acquireLease r =>
      obtain ⟨rfl, rfl⟩ := Prod.mk.inj (Option.some.inj hrequest)
      obtain ⟨row, hrow⟩ := hreads
      refine snd_map_eq_ok.mpr ⟨row.lease.reload, ?_⟩
      rw [Db.acquireLease, bind_eq_ok]
      exact ⟨some result, hresult, bind_eq_ok.mpr ⟨row, orRaise_eq_ok.mpr hrow, rfl⟩⟩
  | bindActor r =>
      obtain ⟨rfl, rfl⟩ := Prod.mk.inj (Option.some.inj hrequest)
      obtain ⟨actor, hactor⟩ := hreads
      refine snd_map_eq_ok.mpr ⟨actor, ?_⟩
      rw [Db.bindActor, bind_eq_ok]
      exact ⟨some result, hresult, bind_eq_ok.mpr ⟨actor, hactor, rfl⟩⟩
  | releaseLease r =>
      obtain ⟨rfl, rfl⟩ := Prod.mk.inj (Option.some.inj hrequest)
      obtain ⟨⟨row, hrow⟩, s, hs⟩ := hreads
      refine snd_map_eq_ok.mpr ⟨s, ?_⟩
      rw [Db.releaseLease, bind_eq_ok]
      exact ⟨row, orRaise_eq_ok.mpr hrow, bind_eq_ok.mpr ⟨some result, hresult,
        bind_eq_ok.mpr ⟨s, hs, rfl⟩⟩⟩
  | recordTerminalEvidence item =>
      obtain ⟨rfl, rfl⟩ := Prod.mk.inj (Option.some.inj hrequest)
      obtain ⟨hkind, hverified⟩ := hreads
      show db.recordTerminalEvidence item = .ok db
      rw [Db.recordTerminalEvidence, bind_eq_ok]
      exact ⟨(), by simpa using hkind, bind_eq_ok.mpr ⟨(), hverified, bind_eq_ok.mpr
        ⟨some result, hresult, rfl⟩⟩⟩
  | _ => exact hreads.elim

/-- A transaction keeps the leases there are. -/
theorem AuthorityStep.lease_kept (h : AuthorityStep db t db') {row : LeaseRow}
    (hrow : db.leases.get? id = some row) : ∃ row', db'.leases.get? id = some row' := by
  cases h with
  | same hsame =>
      rw [show db'.leases = db.leases from congrArg Authority.leases hsame]
      exact ⟨row, hrow⟩
  | settled _ _ hauthority =>
      rw [show db'.leases = _ from congrArg Authority.leases hauthority, settledAuthority]
      split
      · exact Table.exists_get?_update (f := fun row => { row with state := .invalidated })
          (fun _ => rfl) hrow
      · exact ⟨row, hrow⟩
  | granted _ hgranted =>
      obtain ⟨_, -, -, hrows⟩ := hgranted.enrolled.leases
      exact ⟨row, Table.get?_eq_some.mpr ⟨(hrows row).mpr (.inl (Table.mem_of_get? hrow)),
        Table.key_of_get? hrow⟩⟩
  | bound _ hbound =>
      rw [hbound.leases]
      exact ⟨row, hrow⟩
  | retired _ hretired =>
      rw [show db'.leases = _ from congrArg Authority.leases hretired.authority]
      exact Table.exists_get?_update (f := fun row =>
        { row with state := .released, lease := row.lease.withState .released }) (fun _ => rfl) hrow
  | recovered _ hrecovered =>
      rw [show db'.leases = _ from congrArg Authority.leases hrecovered.authority]
      exact Table.exists_get?_update (f := fun row => { row with state := .invalidated })
        (fun _ => rfl) hrow

/-- A transaction keeps the campaigns there are. -/
theorem Committed.campaign_kept (h : Committed db t db') {row : CampaignRow}
    (hrow : db.campaigns.get? id = some row) : ∃ row', db'.campaigns.get? id = some row' := by
  cases h.campaign id with
  | same hsame => exact ⟨row, hsame ▸ hrow⟩
  | created _ hnew => exact ⟨_, hnew⟩
  | applied _ _ hnew => exact ⟨_, hnew⟩

/-- **What has committed replays.** -/
theorem Transaction.Replays.of_run (hsome : t.request?.isSome) (h : t.run db = .ok db') :
    t.Replays db' := by
  cases t with
  | applyEvent event =>
      obtain ⟨⟨s, effects⟩, hok⟩ := snd_map_eq_ok.mp h
      obtain ⟨hrepair, hpublication, happly⟩ := Db.applyEvent_eq_ok hok
      have hplain := humanEvents_not_mem.mpr ⟨hrepair, hpublication⟩
      rw [Db.applyEventTx, bind_eq_ok] at happly
      obtain ⟨prior, hprior, happly⟩ := happly
      cases prior with
      | some result =>
          simp only [bind_eq_ok, pure_eq_ok, Prod.mk.injEq] at happly
          obtain ⟨s, hs, effects, heffects, -, rfl⟩ := happly
          exact ⟨_, _, result, rfl, hprior, hplain, s, effects, hs, heffects⟩
      | none =>
          obtain ⟨-, -, hrecorded⟩ := Db.applyNewEvent_eq_ok happly
          exact ⟨_, _, _, rfl, hrecorded.operationResult rfl rfl, hplain, _, _, rfl, rfl⟩
  | reserveBudgetAttempt r =>
      obtain ⟨⟨s, reserved⟩, hok⟩ := snd_map_eq_ok.mp h
      rw [Db.reserveBudgetAttempt, bind_eq_ok] at hok
      obtain ⟨event, hevent, hok⟩ := hok
      have hid : event.eventId = r.requestId := by rw [EventFields.build_eq_ok hevent]
      have hrequest : (Transaction.reserveBudgetAttempt r).request?
          = some (event.eventId, event.toDict) := by
        rw [Transaction.request?, hevent]
        rfl
      split at hok
      · next row hrow =>
          simp only [bind_eq_ok, pure_eq_ok, Prod.mk.injEq] at hok
          obtain ⟨prior, hprior, s, hs, -, rfl⟩ := hok
          cases prior with
          | some result => exact ⟨_, _, result, hrequest, hid ▸ hprior, s, hs⟩
          | none =>
              rw [Db.operationResult_eq_none hprior] at hrow
              cases hrow
      · next hfree =>
          simp only [bind_eq_ok, pure_eq_ok, Prod.exists, Prod.mk.injEq] at hok
          obtain ⟨next, effects, dbApplied, happly, -, rfl⟩ := hok
          rcases Db.applyEventTx_eq_ok happly with ⟨hused, -⟩ | hnew
          · exact absurd (hid ▸ hfree) hused
          · obtain ⟨⟨row, happlied⟩, -, hrecorded⟩ := Db.applyNewEvent_eq_ok hnew
            have hcampaign : r.campaignId = event.campaignId := by
              rw [EventFields.build_eq_ok hevent]
            refine ⟨_, _, _, hrequest, hrecorded.operationResult rfl rfl,
              (row.advance next).snapshot.reload, ?_⟩
            rw [Db.loadSnapshot, happlied.campaigns, if_pos hcampaign]
            rfl
  | acquireLease r =>
      obtain ⟨lease, hok⟩ := snd_map_eq_ok.mp h
      have hinversion := Db.acquireLease_eq_ok hok
      rw [Db.acquireLease, bind_eq_ok] at hok
      obtain ⟨prior, hprior, hok⟩ := hok
      cases prior with
      | some result =>
          simp only [bind_eq_ok, orRaise_eq_ok, pure_eq_ok, Prod.mk.injEq] at hok
          obtain ⟨row, hrow, -, rfl⟩ := hok
          exact ⟨_, _, result, rfl, hprior, row, hrow⟩
      | none =>
          have hfree := Db.operationResult_eq_none hprior
          rcases hinversion with ⟨hused, -⟩ | ⟨s, n, fence, hgranted⟩
          · exact absurd hfree hused
          · obtain ⟨lease, hgrants, -, hrows⟩ := hgranted.enrolled.leases
            have hlease : db'.leases.get? r.leaseId = some lease :=
              Table.get?_eq_some.mpr ⟨(hrows lease).mpr (.inr rfl), hgrants.leaseId⟩
            obtain ⟨result, hresult⟩ := exists_operationResult hgranted.recorded
            exact ⟨_, _, result, rfl, hresult, lease, hlease⟩
  | bindActor r =>
      obtain ⟨actor, hok⟩ := snd_map_eq_ok.mp h
      have hinversion := Db.bindActor_eq_ok hok
      rw [Db.bindActor, bind_eq_ok] at hok
      obtain ⟨prior, hprior, hok⟩ := hok
      cases prior with
      | some result =>
          simp only [bind_eq_ok, pure_eq_ok, Prod.mk.injEq] at hok
          obtain ⟨actor, hactor, -, rfl⟩ := hok
          exact ⟨_, _, result, rfl, hprior, actor, hactor⟩
      | none =>
          have hfree := Db.operationResult_eq_none hprior
          rcases hinversion with ⟨hused, -⟩ | ⟨lease, row, hbound⟩
          · exact absurd hfree hused
          · obtain ⟨row, hrecorded, hid, hdigest, hstatus, hresult⟩ := hbound.recorded
            have hread := hrecorded.operationResult hstatus hresult
            rw [hid, hdigest] at hread
            exact ⟨_, _, _, rfl, hread, actor, rfl⟩
  | releaseLease r =>
      obtain ⟨s, hok⟩ := snd_map_eq_ok.mp h
      have hinversion := Db.releaseLease_eq_ok hok
      rw [Db.releaseLease, bind_eq_ok] at hok
      obtain ⟨row, hrow, hok⟩ := hok
      rw [bind_eq_ok] at hok
      obtain ⟨prior, hprior, hok⟩ := hok
      rw [orRaise_eq_ok] at hrow
      cases prior with
      | some result =>
          simp only [bind_eq_ok, pure_eq_ok, Prod.mk.injEq] at hok
          obtain ⟨s, hs, -, rfl⟩ := hok
          exact ⟨_, _, result, rfl, hprior, ⟨row, hrow⟩, s, hs⟩
      | none =>
          have hfree := Db.operationResult_eq_none hprior
          rcases hinversion with ⟨hused, -⟩ | ⟨row, actor, hretired⟩
          · exact absurd hfree hused
          · obtain ⟨operation, hrecorded, hid, hdigest, hstatus, s, effects, hresult⟩ :=
              hretired.recorded
            have hread := hrecorded.operationResult hstatus hresult
            rw [hid, hdigest] at hread
            exact ⟨_, _, _, rfl, hread, (AuthorityStep.retired rfl hretired).lease_kept
              hretired.row_eq, s.reload, rfl⟩
  | recordTerminalEvidence item =>
      obtain ⟨hchecked, ⟨⟨result, hresult⟩, rfl⟩ | ⟨-, hrecorded⟩⟩ :=
        Db.recordTerminalEvidence_eq_ok h
      · exact ⟨_, _, result, rfl, hresult, hchecked⟩
      · obtain ⟨result, hresult⟩ := exists_operationResult hrecorded
        exact ⟨_, _, result, rfl, hresult, hchecked⟩
  | _ => cases hsome

/-- What replays now replays after every transaction. -/
theorem Transaction.Replays.keep {other : Transaction} (h : t.Replays db)
    (hstep : Committed db other db') : t.Replays db' := by
  obtain ⟨id, payload, result, hrequest, hresult, hreads⟩ := h
  refine ⟨id, payload, result, hrequest, hstep.kept.operationResult hresult, ?_⟩
  cases t with
  | applyEvent | bindActor | recordTerminalEvidence => exact hreads
  | reserveBudgetAttempt r =>
      obtain ⟨s, hs⟩ := hreads
      obtain ⟨row, hrow, -⟩ := Db.loadSnapshot_eq_ok hs
      obtain ⟨row', hrow'⟩ := hstep.campaign_kept hrow
      refine ⟨row'.snapshot.reload, ?_⟩
      rw [Db.loadSnapshot, hrow']
      rfl
  | acquireLease r =>
      obtain ⟨row, hrow⟩ := hreads
      exact hstep.authority.lease_kept hrow
  | releaseLease r =>
      obtain ⟨⟨row, hrow⟩, hs⟩ := hreads
      exact ⟨hstep.authority.lease_kept hrow, hs⟩
  | _ => exact hreads.elim

/-! ### Identifiers that are taken -/

/-- **An operation whose identifier is taken moves nothing**, whatever its payload. -/
theorem Transaction.taken {payload : Value} (h : t.run db = .ok db')
    (hrequest : t.request? = some (id, payload)) (htaken : db.operations.get? id ≠ none) :
    db' = db := by
  cases t with
  | applyEvent event =>
      obtain ⟨rfl, -⟩ := Prod.mk.inj (Option.some.inj hrequest)
      obtain ⟨_, hok⟩ := snd_map_eq_ok.mp h
      obtain ⟨-, -, happly⟩ := Db.applyEvent_eq_ok hok
      rcases Db.applyEventTx_eq_ok happly with ⟨-, hsame⟩ | hnew
      · exact hsame
      · obtain ⟨⟨_, happlied⟩, -⟩ := Db.applyNewEvent_eq_ok hnew
        exact absurd happlied.fresh htaken
  | reserveBudgetAttempt r =>
      obtain ⟨⟨_, reserved⟩, hok⟩ := snd_map_eq_ok.mp h
      obtain ⟨event, hevent, ⟨-, -, hsame⟩ | ⟨-, effects, hnew⟩⟩ := Db.reserveBudgetAttempt_eq_ok hok
      · exact hsame
      · obtain ⟨⟨_, happlied⟩, -⟩ := Db.applyNewEvent_eq_ok hnew
        obtain ⟨event', hevent', hpair⟩ := Option.map_eq_some_iff.mp hrequest
        obtain rfl := Except.ok.inj (hevent.symm.trans (toOption_eq_some hevent'))
        obtain ⟨rfl, -⟩ := Prod.mk.inj hpair
        exact absurd happlied.fresh htaken
  | acquireLease r =>
      obtain ⟨rfl, -⟩ := Prod.mk.inj (Option.some.inj hrequest)
      obtain ⟨_, hok⟩ := snd_map_eq_ok.mp h
      rcases Db.acquireLease_eq_ok hok with ⟨-, hsame⟩ | ⟨_, _, _, hgranted⟩
      · exact hsame
      · exact absurd hgranted.free htaken
  | bindActor r =>
      obtain ⟨rfl, -⟩ := Prod.mk.inj (Option.some.inj hrequest)
      obtain ⟨_, hok⟩ := snd_map_eq_ok.mp h
      rcases Db.bindActor_eq_ok hok with ⟨-, hsame⟩ | ⟨_, _, hbound⟩
      · exact hsame
      · obtain ⟨row, hrecorded, hid, -⟩ := hbound.recorded
        exact absurd (hid ▸ hrecorded.free) htaken
  | releaseLease r =>
      obtain ⟨rfl, -⟩ := Prod.mk.inj (Option.some.inj hrequest)
      obtain ⟨_, hok⟩ := snd_map_eq_ok.mp h
      rcases Db.releaseLease_eq_ok hok with ⟨-, hsame⟩ | ⟨_, _, hretired⟩
      · exact hsame
      · obtain ⟨row, hrecorded, hid, -⟩ := hretired.recorded
        exact absurd (hid ▸ hrecorded.free) htaken
  | recordTerminalEvidence item =>
      obtain ⟨rfl, -⟩ := Prod.mk.inj (Option.some.inj hrequest)
      obtain ⟨-, ⟨-, hsame⟩ | ⟨-, row, hrecorded, hid, -⟩⟩ := Db.recordTerminalEvidence_eq_ok h
      · exact hsame
      · exact absurd (hid ▸ hrecorded.free) htaken
  | _ => cases hrequest

theorem Unmoved.refl : Unmoved db db := rfl

/-- A call whose identifier is taken moves nothing but telemetry. -/
theorem Transaction.call_taken {payload : Value} (hrequest : t.request? = some (id, payload))
    (htaken : db.operations.get? id ≠ none) : Unmoved db (t.call db).2 := by
  rw [Transaction.call]
  split
  · next db' hrun => rw [Transaction.taken hrun hrequest htaken]; exact .refl
  · next exc _ =>
      cases t.rejected? with
      | none => exact .refl
      | some event => rfl

/-- Reused under another digest, an identifier raises `RequestConflict`. -/
theorem Transaction.run_conflict {payload : Value} (hrequest : t.request? = some (id, payload))
    (hchecked : t.Checked db) (hresult : db.operationResult id digest = .ok (some result))
    (hne : canonicalJsonDigest payload ≠ digest) :
    ∃ exc, t.run db = .error exc ∧ exc.kind = .requestConflict := by
  obtain ⟨exc, hconflict, hkind⟩ := Db.operationResult_conflict hresult hne
  refine ⟨exc, ?_, hkind⟩
  cases t with
  | applyEvent event =>
      obtain ⟨rfl, rfl⟩ := Prod.mk.inj (Option.some.inj hrequest)
      obtain ⟨hrepair, hpublication⟩ := humanEvents_not_mem.mp hchecked
      refine map_error ?_
      rw [Db.applyEvent, bind_ok (a := ()) (by simp [hrepair, hpublication])]
      exact bind_error hconflict
  | reserveBudgetAttempt r =>
      obtain ⟨event, hevent, hpair⟩ := Option.map_eq_some_iff.mp hrequest
      obtain ⟨rfl, rfl⟩ := Prod.mk.inj hpair
      have hbuilt := toOption_eq_some hevent
      obtain ⟨row, hrow, -⟩ := Db.operationResult_eq_some.mp hresult
      rw [EventFields.build_eq_ok hbuilt] at hrow
      refine map_error ?_
      rw [Db.reserveBudgetAttempt, bind_ok hbuilt, hrow]
      rw [EventFields.build_eq_ok hbuilt] at hconflict
      exact bind_error hconflict
  | acquireLease r =>
      obtain ⟨rfl, rfl⟩ := Prod.mk.inj (Option.some.inj hrequest)
      exact map_error (bind_error hconflict)
  | bindActor r =>
      obtain ⟨rfl, rfl⟩ := Prod.mk.inj (Option.some.inj hrequest)
      exact map_error (bind_error hconflict)
  | releaseLease r =>
      obtain ⟨rfl, rfl⟩ := Prod.mk.inj (Option.some.inj hrequest)
      obtain ⟨row, hrow⟩ := Option.isSome_iff_exists.mp hchecked
      refine map_error ?_
      rw [Db.releaseLease, bind_ok (orRaise_eq_ok.mpr hrow)]
      exact bind_error hconflict
  | recordTerminalEvidence item =>
      obtain ⟨rfl, rfl⟩ := Prod.mk.inj (Option.some.inj hrequest)
      obtain ⟨hkind, hverified⟩ := hchecked
      show db.recordTerminalEvidence item = .error exc
      rw [Db.recordTerminalEvidence, bind_ok (a := ()) (by simpa using hkind), bind_ok hverified]
      exact bind_error hconflict
  | _ => cases hrequest

/-! ### The law -/

/-- A call of `reserve_budget_attempt` that returned `True` for `id`. -/
def Reserves (e : Entry Db Transaction) (id : String) : Prop :=
  ∃ r s, e.label = .reserveBudgetAttempt r ∧ r.requestId = id ∧
    e.before.reserveBudgetAttempt r = .ok ((s, true), e.after)

theorem Reserves.free {e : Entry Db Transaction} (h : Reserves e id) :
    e.before.operations.get? id = none ∧ e.after.operations.get? id ≠ none := by
  obtain ⟨r, s, -, rfl, hok⟩ := h
  obtain ⟨event, hevent, ⟨hfalse, -⟩ | ⟨-, effects, hnew⟩⟩ := Db.reserveBudgetAttempt_eq_ok hok
  · cases hfalse
  · obtain ⟨⟨_, happlied⟩, -, hrecorded⟩ := Db.applyNewEvent_eq_ok hnew
    have hid : event.eventId = r.requestId := by rw [EventFields.build_eq_ok hevent]
    rw [← hid]
    refine ⟨happlied.fresh, ?_⟩
    rw [show e.after.operations.get? event.eventId = _ from hrecorded.written]
    simp

/-- **Request idempotency**, in every run: after a committed request, whatever was committed in
between,
* the operation called again raises nothing and moves nothing,
* a call under its identifier and payload moves nothing but telemetry,
* a call under its identifier and another payload moves nothing but telemetry, and raises
  `RequestConflict` unless a check that comes before the ledger raises first,

and one call of `reserve_budget_attempt` at most returns `True` for an identifier. -/
theorem request_idempotency {history : List (Entry Db Transaction)} (h : StoreRun history db) :
    (∀ e ∈ history, e.label.request?.isSome → e.label.call db = (none, db)) ∧
    (∀ e ∈ history, ∀ id payload, e.label.request? = some (id, payload) →
      ∀ (t : Transaction) payload', t.request? = some (id, payload') →
        Unmoved db (t.call db).2 ∧
        (canonicalJson payload' ≠ canonicalJson payload →
          (canonicalJsonDigest payload' = canonicalJsonDigest payload →
            canonicalJson payload' = canonicalJson payload) →
          t.Checked db → ∃ exc : CampaignError, (t.call db).1 = some exc ∧ exc.kind = .requestConflict)) ∧
    ∀ (i j : ℕ) e e' id, history[i]? = some e → history[j]? = some e' → Reserves e id →
      Reserves e' id → i = j := by
  have hreplays : ∀ e ∈ history, e.label.request?.isSome → e.label.Replays db := by
    intro e he hsome
    refine h.stable (P := e.label.Replays) (fun hreplays hstep => ?_) he ?_
    · exact hreplays.keep (Transaction.committed hstep)
    · exact .of_run hsome (Run.step_of_mem h he).2
  refine ⟨fun e he hsome => ?_, fun e he id payload hrequest t payload' hother => ?_,
    fun i j e e' id hi hj hreserves hreserves' => ?_⟩
  · rw [Transaction.call, (hreplays e he hsome).run]
  · obtain ⟨id', payload'', result, hrequest', hresult, -⟩ :=
      hreplays e he (by rw [hrequest]; rfl)
    obtain ⟨rfl, rfl⟩ := Prod.mk.inj (Option.some.inj (hrequest.symm.trans hrequest'))
    refine ⟨Transaction.call_taken hother (Db.operationResult_used hresult),
      fun hne hcollision hchecked => ?_⟩
    obtain ⟨exc, hrun, hkind⟩ := Transaction.run_conflict hother hchecked hresult
      fun hsame => hne (hcollision hsame)
    refine ⟨exc, ?_, hkind⟩
    rw [Transaction.call, hrun]
  · have hlater : ∀ {i j : ℕ} {e e' : Entry Db Transaction}, history[i]? = some e →
        history[j]? = some e' → Reserves e id → Reserves e' id → ¬ i < j := by
      intro i j e e' hi hj hreserves hreserves' hlt
      refine h.stable_between (P := fun db => db.operations.get? id ≠ none) (fun hused hstep => ?_)
        hi hj hlt hreserves.free.2 hreserves'.free.1
      exact fun hfree => hused ((Transaction.committed hstep).kept.free hfree)
    have hij := hlater hi hj hreserves hreserves'
    have hji := hlater hj hi hreserves' hreserves
    omega

end Idempotency

namespace Hashed

/-- The sample process, with the digests `hashlib` gives for the two events below.  Their texts begin
with the key of an actor, and differ in their lengths. -/
scoped instance hashed : Runtime := { Campaign.Sample.runtime with
  sha256 := fun text =>
    if text.toUTF8.data.toList.take 4 = [123, 34, 97, 99] then
      if text.utf8ByteSize = 277 then
        "05a4fea2714162da5b3f5c886eca208ddea84f8aa74fcd7149c35f6efa951073"
      else "387242534af6590cb082f752316b32ee8b72acd7f19f1cc11ed89c83630313f5"
    else Campaign.Sample.runtime.sha256 text }

/-- The sample campaign, in that process. -/
def spec : CampaignSpec where
  toCampaignSpecFields := { Campaign.Sample.fields with
    nodes := [{ Campaign.Sample.node with valid := by decide, deadline_ne_blank := by decide }]
    requiredValidationCommands := [{ Campaign.Sample.command with valid := by decide }] }
  valid := by decide
  deadline_ne_blank := by decide

def event (eventType : EventType) (payload : Mapping) : Event where
  eventId := "e0"
  campaignId := "c"
  eventType
  expectedRevision := 0
  authorityEpoch := 1
  cancellationEpoch := 0
  payload
  event_id_nonblank := Campaign.Sample.e0_nonblank
  campaign_id_nonblank := Campaign.Sample.c_nonblank
  fence_positive := Campaign.Sample.unfenced

def approval : Event :=
  event .approve [("specification_digest",
    .str "8dc417117cb169c69976f3b56f908d591975bc169686c9a4bcbf6892035f4552")]

def transactions : List Transaction := [.createCampaign spec none none, .applyEvent approval]

def run : List (Entry Db Transaction) × Db :=
  (foldTransactions {} transactions).toOption.get (by decide +kernel)

theorem run_fold : foldTransactions {} transactions = .ok run := Campaign.Sample.get_toOption _

/-- A release under the identifier of the approval. -/
def release : ReleaseRequest where
  leaseId := "l"
  requestId := "e0"
  expectedRevision := 1
  authorityEpoch := 1
  cancellationEpoch := 0

/-- Another event under the identifier of the approval raises `RequestConflict`. -/
theorem request_idempotency_sample :
    (∀ e ∈ run.1, e.label.request?.isSome → e.label.call run.2 = (none, run.2)) ∧
      (∃ exc : CampaignError, ((Transaction.applyEvent (event .start [])).call run.2).1 = some exc ∧
        exc.kind = .requestConflict) ∧
      ∀ (i j : ℕ) e e' id, run.1[i]? = some e → run.1[j]? = some e' → Reserves e id →
        Reserves e' id → i = j := by
  obtain ⟨hreplay, hreuse, hreserve⟩ := request_idempotency (foldTransactions_run run_fold)
  refine ⟨hreplay, ?_, hreserve⟩
  obtain ⟨e, he, hlabel⟩ := foldTransactions_entry run_fold
    (show .applyEvent approval ∈ transactions by simp [transactions])
  refine (hreuse e he "e0" approval.toDict (by rw [hlabel]; rfl) (.applyEvent (event .start []))
    _ rfl).2 ?_ ?_ ?_
  · decide +kernel
  · decide +kernel
  · exact humanEvents_not_mem.mpr (by decide)

/-- The lease of a release is looked up before the ledger, so the reused identifier raises no
`RequestConflict`. -/
theorem unknown_lease_reuse : StoreRun run.1 run.2 ∧
    (∃ e ∈ run.1, e.label.request? = some ("e0", approval.toDict)) ∧
    (Transaction.releaseLease release).request? = some ("e0", release.payload) ∧
    canonicalJson release.payload ≠ canonicalJson approval.toDict ∧
    ((Transaction.releaseLease release).call run.2).1 = some ⟨.store, "unknown lease: l"⟩ := by
  refine ⟨foldTransactions_run run_fold, ?_, rfl, by decide +kernel, by decide +kernel⟩
  obtain ⟨e, he, hlabel⟩ := foldTransactions_entry run_fold
    (show .applyEvent approval ∈ transactions by simp [transactions])
  exact ⟨e, he, by rw [hlabel]; rfl⟩

end Hashed

end CodingOS.Store
