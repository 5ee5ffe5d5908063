import CodingOS.Store.Authority

/-!
# Runs of the store

The transactions of `store.py` as the steps of one system.  SQLite serialises them (`BEGIN
IMMEDIATE`), so any interleaving of clients is a sequence of them; one that raises is rolled back and
leaves no step, except that the telemetry of a rejected event is a transaction of its own.
`consume_budget` and `cancel_campaign` are `apply_event` of the event they build, and the queries
write nothing.

`Committed` says once what each transaction can do; the invariants of the store are case analyses
of it.
-/

namespace CodingOS.Store

open CodingOS.Python CodingOS.Campaign Systems

section Transactions

variable [Runtime]

/-- The transactions, with the arguments their callers choose. -/
inductive Transaction
  | createCampaign (spec : CampaignSpec) (requestId payloadDigest : Option String)
  | applyEvent (event : Event)
  | applyHumanAuthorizedEvent (event : Event) (receipt : Mapping)
  | reserveBudgetAttempt (request : BudgetRequest)
  | recordRejection (event : Event) (exc : CampaignError)
  | recordRuntimeOperation (requestId campaignId kind : String) (payload result : Mapping)
      (revision : Option ℕ)
  | acquireLease (request : LeaseRequest)
  | bindActor (request : BindRequest)
  | releaseLease (request : ReleaseRequest)
  | recoverAfterRestart (retained : List String)
  | prepareEffect (operationId campaignId : String) (nodeId : Option String) (kind : EffectKind)
      (payload : Mapping) (payloadDigest : Option String)
  | updateEffect (operationId : String) (target : EffectState) (result : Option Value)
      (expectedState : Option EffectState)
  | recordEvidence (item : Evidence)
  | recordTerminalEvidence (item : Evidence)
  | recordReview (review : ReviewRow)
  | recordNativeUsage (actorId : String) (notification : Mapping) (recordedAt : String)

/-- The database a transaction commits. -/
def Transaction.run (db : Db) : Transaction → Result Db
  | .createCampaign spec requestId payloadDigest =>
      Prod.snd <$> db.createCampaign spec requestId payloadDigest
  | .applyEvent event => Prod.snd <$> db.applyEvent event
  | .applyHumanAuthorizedEvent event receipt =>
      Prod.snd <$> db.applyHumanAuthorizedEvent event receipt
  | .reserveBudgetAttempt request => Prod.snd <$> db.reserveBudgetAttempt request
  | .recordRejection event exc => .ok (db.recordRejection event exc)
  | .recordRuntimeOperation requestId campaignId kind payload result revision =>
      Prod.snd <$> db.recordRuntimeOperation requestId campaignId kind payload result revision
  | .acquireLease request => Prod.snd <$> db.acquireLease request
  | .bindActor request => Prod.snd <$> db.bindActor request
  | .releaseLease request => Prod.snd <$> db.releaseLease request
  | .recoverAfterRestart retained => db.recoverAfterRestart retained
  | .prepareEffect operationId campaignId nodeId kind payload payloadDigest =>
      db.prepareEffect operationId campaignId nodeId kind payload payloadDigest
  | .updateEffect operationId target result expectedState =>
      db.updateEffect operationId target result expectedState
  | .recordEvidence item => db.recordEvidence item
  | .recordTerminalEvidence item => db.recordTerminalEvidence item
  | .recordReview review => db.recordReview review
  | .recordNativeUsage actorId notification recordedAt =>
      Prod.snd <$> db.recordNativeUsage actorId notification recordedAt

/-- A committed transaction. -/
def commits (db : Db) (t : Transaction) (db' : Db) : Prop := t.run db = .ok db'

/-- A run of the store from the empty database. -/
def StoreRun (history : List (Entry Db Transaction)) (db : Db) : Prop := Run commits {} history db

theorem snd_map_eq_ok {α : Type} {x : Result (α × Db)} {db : Db} :
    Prod.snd <$> x = .ok db ↔ ∃ a, x = .ok (a, db) := by
  cases x with
  | error e => simp [Functor.map, Except.map]
  | ok r => simp [Functor.map, Except.map, Prod.ext_iff]

/-! ### What a transaction does -/

/-- The transactions that apply an event of their caller, and the event. -/
def Transaction.carries : Transaction → Event → Prop
  | .applyEvent event, e => e = event ∧ event.eventType ≠ .authorizeRepair ∧
      event.eventType ≠ .authorizePublication
  | .applyHumanAuthorizedEvent event _, e => e = event
  | .reserveBudgetAttempt request, e => request.event = .ok e
  | _, _ => False

/-- The insert of `prepare_effect`. -/
structure Prepared (db : Db) (campaignId : String) (intent : ExternalEffectIntent) (db' : Db) :
    Prop where
  snapshot : ∃ s, db.loadSnapshot campaignId = .ok s ∧ s.state ≠ .cancelled ∧
    intent.authorityEpoch = s.authorityEpoch ∧ intent.cancellationEpoch = s.cancellationEpoch ∧
    ∃ node, preparedNode s intent.nodeId = .ok node ∧
      intent.fencingEpoch = node.map (·.fencingEpoch) ∧
      (∀ n, node = some n →
        checkPreparedNode n intent.operationId intent.kind intent.payload = .ok ()) ∧
      db.outbox.insert? (.ofIntent intent s.revision) = some db'.outbox
  campaign : intent.campaignId = campaignId
  state : intent.state = .prepared
  lifecycle : db'.lifecycle = db.lifecycle
  authority : db'.authority = db.authority
  operations : db'.operations = db.operations

/-- The compare-and-set of `update_effect`. -/
structure Updated (db : Db) (row : EffectRow) (target : EffectState) (result : Option Value)
    (db' : Db) : Prop where
  row_eq : db.outbox.get? row.operationId = some row
  follows : target = row.state ∨ target ∈ effectTransitions row.state
  revision : ∃ s, db.loadSnapshot row.campaignId = .ok s ∧
    (target = .executing → target ≠ row.state → checkExecutable s row = .ok ()) ∧
    db' = db.writeEffect row.operationId row.state target result s.revision

/-- **What a committed transaction did.** -/
inductive Committed (db : Db) : Transaction → Db → Prop
  | beside {t : Transaction} {db' : Db} : Beside db db' → Committed db t db'
  | created {spec : CampaignSpec} {requestId digest : Option String} {s : CampaignSnapshot}
      {db' : Db} : Created db spec s db' → Committed db (.createCampaign spec requestId digest) db'
  | applied {t : Transaction} {event : Event} {row : CampaignRow} {next : CampaignSnapshot}
      {effects : List ExternalEffectIntent} {db' : Db} : t.carries event →
      EventApplied db event row next effects db' →
      db'.authority = settledAuthority db.authority event next → Committed db t db'
  | granted {r : LeaseRequest} {s : CampaignSnapshot} {n : NodeSnapshot} {fence : ℕ} {db' : Db} :
      Granted db r s n fence db' → Committed db (.acquireLease r) db'
  | bound {r : BindRequest} {lease : LeaseRow} {row : ActorRow} {actor : Actor} {db' : Db} :
      Bound db r lease row actor db' → Committed db (.bindActor r) db'
  | retired {r : ReleaseRequest} {row : LeaseRow} {actor : ActorRow} {db' : Db} :
      Retired db r row actor db' → Committed db (.releaseLease r) db'
  | recovered {retained : List String} {db' : Db} : Recovered db retained db' →
      Committed db (.recoverAfterRestart retained) db'
  | prepared {operationId campaignId : String} {nodeId : Option String} {kind : EffectKind}
      {payload : Mapping} {digest : Option String} {intent : ExternalEffectIntent} {db' : Db} :
      Prepared db campaignId intent db' →
      intent.operationId = operationId ∧ intent.nodeId = nodeId ∧ intent.kind = kind ∧
        intent.payload = payload →
      Committed db (.prepareEffect operationId campaignId nodeId kind payload digest) db'
  | updated {operationId : String} {target : EffectState} {result : Option Value}
      {expected : Option EffectState} {row : EffectRow} {db' : Db} :
      Updated db row target result db' → row.operationId = operationId →
      expected = none ∨ expected = some row.state →
      Committed db (.updateEffect operationId target result expected) db'

theorem Db.prepareEffect_eq_ok {db db' : Db} {operationId campaignId : String}
    {nodeId : Option String} {kind : EffectKind} {payload : Mapping} {digest : Option String}
    (h : db.prepareEffect operationId campaignId nodeId kind payload digest = .ok db') :
    db' = db ∨ ∃ intent, Prepared db campaignId intent db' ∧ intent.operationId = operationId ∧
      intent.nodeId = nodeId ∧ intent.kind = kind ∧ intent.payload = payload := by
  simp only [Db.prepareEffect, bind_eq_ok, check_eq_ok, bne_iff_ne, exists_const] at h
  obtain ⟨-, s, hload, hcancelled, node, hnode, _, -, -, h⟩ := h
  have hparts : (∀ n, node = some n → checkPreparedNode n operationId kind payload = .ok ()) ∧
      db.insertEffect {
        operationId, campaignId, nodeId, kind, payload
        state := .prepared
        authorityEpoch := s.authorityEpoch
        cancellationEpoch := s.cancellationEpoch
        fencingEpoch := node.map (·.fencingEpoch) } s.revision = .ok db' := by
    cases node with
    | none =>
        simp only [bind_eq_ok] at h
        obtain ⟨_, -, _, -, hinsert⟩ := h
        exact ⟨fun n hn => (by cases hn), hinsert⟩
    | some node =>
        simp only [bind_eq_ok] at h
        obtain ⟨_, hchecked, _, -, _, -, hinsert⟩ := h
        refine ⟨fun n hn => ?_, hinsert⟩
        obtain rfl := Option.some.inj hn
        exact hchecked
  obtain ⟨hchecked, hinsert⟩ := hparts
  rcases Db.insertEffect_eq_ok hinsert with ⟨_, -, -, rfl⟩ | ⟨outbox, hnew, rfl⟩
  · exact .inl rfl
  · exact .inr ⟨_, ⟨⟨s, hload, hcancelled, rfl, rfl, node, hnode, rfl, hchecked, hnew⟩, rfl, rfl,
      rfl, rfl, rfl⟩, rfl, rfl, rfl, rfl⟩

theorem Db.updateEffect_eq_ok {db db' : Db} {operationId : String} {target : EffectState}
    {result : Option Value} {expected : Option EffectState}
    (h : db.updateEffect operationId target result expected = .ok db') :
    ∃ row, db.outbox.get? operationId = some row ∧ row.operationId = operationId ∧
      (expected = none ∨ expected = some row.state) ∧
      (db' = db ∨ Updated db row target result db') := by
  simp only [Db.updateEffect, Db.getEffect, bind_eq_ok, orRaise_eq_ok, check_eq_ok, exists_const]
    at h
  obtain ⟨row, hrow, hexpected, h⟩ := h
  obtain rfl : row.operationId = operationId := Table.key_of_get? hrow
  refine ⟨row, hrow, rfl, ?_, ?_⟩
  · cases expected with
    | none => exact .inl rfl
    | some state => exact .inr (by simpa using hexpected)
  · split at h
    · next hsame =>
        cases result with
        | none => exact .inl (pure_eq_ok.mp h).symm
        | some result =>
            simp only [bind_eq_ok, pure_eq_ok] at h
            obtain ⟨s, hload, rfl⟩ := h
            refine .inr ⟨hrow, .inl hsame, s, hload, fun _ hne => absurd hsame hne, ?_⟩
            rw [hsame]
    · next hne =>
        simp only [bind_eq_ok, check_eq_ok, exists_const] at h
        obtain ⟨hfollows, s, hload, h⟩ := h
        refine .inr ⟨hrow, .inr (by simpa using hfollows), s, hload, fun htarget _ => ?_, ?_⟩
        · rw [if_pos htarget, bind_eq_ok] at h
          obtain ⟨_, hchecked, -⟩ := h
          exact hchecked
        · split at h
          · simp only [bind_eq_ok] at h
            obtain ⟨_, -, h⟩ := h
            exact (pure_eq_ok.mp h).symm
          · exact (pure_eq_ok.mp h).symm

/-- **Every committed transaction is one of these.** -/
theorem Transaction.committed {t : Transaction} {db db' : Db} (h : t.run db = .ok db') :
    Committed db t db' := by
  cases t with
  | createCampaign spec requestId digest =>
      obtain ⟨s, h⟩ := snd_map_eq_ok.mp h
      rcases Db.createCampaign_eq_ok h with hbeside | hcreated
      · exact .beside hbeside
      · exact .created hcreated
  | applyEvent event =>
      obtain ⟨transition, h⟩ := snd_map_eq_ok.mp h
      obtain ⟨hrepair, hpublication, happly⟩ := Db.applyEvent_eq_ok h
      rcases Db.applyEventTx_eq_ok happly with ⟨-, rfl⟩ | hnew
      · exact .beside .refl
      · obtain ⟨⟨row, happlied⟩, hauthority, -⟩ := Db.applyNewEvent_eq_ok hnew
        exact .applied ⟨rfl, hrepair, hpublication⟩ happlied hauthority
  | applyHumanAuthorizedEvent event receipt =>
      obtain ⟨transition, h⟩ := snd_map_eq_ok.mp h
      obtain ⟨s, hauthorized⟩ := Db.applyHumanAuthorizedEvent_eq_ok h
      rcases hauthorized.applied with hbeside | ⟨⟨row, happlied⟩, hauthority⟩
      · exact .beside hbeside
      · exact .applied rfl happlied hauthority
  | reserveBudgetAttempt request =>
      obtain ⟨⟨s, reserved⟩, h⟩ := snd_map_eq_ok.mp h
      obtain ⟨event, hevent, ⟨-, -, rfl⟩ | ⟨-, effects, hnew⟩⟩ := Db.reserveBudgetAttempt_eq_ok h
      · exact .beside .refl
      · obtain ⟨⟨row, happlied⟩, hauthority, -⟩ := Db.applyNewEvent_eq_ok hnew
        exact .applied hevent happlied hauthority
  | recordRejection event exc =>
      obtain rfl := Except.ok.inj h
      exact .beside (Db.noteTelemetry_beside _ _)
  | recordRuntimeOperation =>
      obtain ⟨_, h⟩ := snd_map_eq_ok.mp h
      exact .beside (Db.recordRuntimeOperation_beside h)
  | acquireLease r =>
      obtain ⟨_, h⟩ := snd_map_eq_ok.mp h
      rcases Db.acquireLease_eq_ok h with ⟨-, rfl⟩ | ⟨s, n, fence, hgranted⟩
      · exact .beside .refl
      · exact .granted hgranted
  | bindActor r =>
      obtain ⟨_, h⟩ := snd_map_eq_ok.mp h
      rcases Db.bindActor_eq_ok h with ⟨-, rfl⟩ | ⟨lease, row, hbound⟩
      · exact .beside .refl
      · exact .bound hbound
  | releaseLease r =>
      obtain ⟨_, h⟩ := snd_map_eq_ok.mp h
      rcases Db.releaseLease_eq_ok h with ⟨-, rfl⟩ | ⟨row, actor, hretired⟩
      · exact .beside .refl
      · exact .retired hretired
  | recoverAfterRestart => exact .recovered (Db.recoverAfterRestart_eq_ok h)
  | prepareEffect =>
      rcases Db.prepareEffect_eq_ok h with rfl | ⟨intent, hprepared, hfields⟩
      · exact .beside .refl
      · exact .prepared hprepared hfields
  | updateEffect =>
      obtain ⟨row, -, hid, hexpected, rfl | hupdated⟩ := Db.updateEffect_eq_ok h
      · exact .beside .refl
      · exact .updated hupdated hid hexpected
  | recordEvidence => exact .beside (Db.recordEvidence_beside h)
  | recordTerminalEvidence => exact .beside (Db.recordTerminalEvidence_beside h)
  | recordReview => exact .beside (Db.recordReview_beside h)
  | recordNativeUsage =>
      obtain ⟨_, h⟩ := snd_map_eq_ok.mp h
      exact .beside (Db.recordNativeUsage_beside h)

/-- **The invariant rule of the store.**  What holds of the empty database and is kept by everything
a committed transaction can do holds of every reached database. -/
theorem StoreRun.invariant (Inv : Db → Prop) {history : List (Entry Db Transaction)} {db : Db}
    (h : StoreRun history db) (start : Inv {})
    (keep : ∀ {db db' : Db} {t : Transaction}, Inv db → Committed db t db' → Inv db') : Inv db :=
  Run.invariant Inv h start fun hinv hstep => keep hinv (Transaction.committed hstep)

/-- **The invariant rule under a condition.**  An invariant kept by the transactions that meet a
condition holds before and after every entry of a run whose transactions all meet it. -/
theorem StoreRun.invariant_under {P : Db → Transaction → Prop} (Inv : Db → Prop)
    {history : List (Entry Db Transaction)} {db : Db} (h : StoreRun history db)
    (hsteps : ∀ e ∈ history, P e.before e.label) (start : Inv {})
    (keep : ∀ {db db' : Db} {t : Transaction}, Inv db → P db t → Committed db t db' → Inv db') :
    Inv db ∧ ∀ e ∈ history, Inv e.before ∧ Committed e.before e.label e.after ∧ Inv e.after := by
  have hrun := Run.restrict h hsteps
  have hkeep : ∀ {db db' : Db} {t : Transaction}, Inv db → commits db t db' ∧ P db t → Inv db' :=
    fun hinv hstep => keep hinv hstep.2 (Transaction.committed hstep.1)
  refine ⟨hrun.invariant Inv start hkeep, fun e he => ?_⟩
  obtain ⟨hreached, hstep⟩ := hrun.step_of_mem he
  have hbefore := hreached.invariant Inv start hkeep
  exact ⟨hbefore, Transaction.committed hstep.1, hkeep hbefore hstep⟩

/-! ### Folding a list of transactions -/

/-- The transactions of a list, one after the other, with the history of the fold. -/
def foldTransactions (db : Db) (ts : List Transaction) :
    Result (List (Entry Db Transaction) × Db) :=
  ts.foldlM (fun acc t => do
    let db' ← t.run acc.2
    return (acc.1 ++ [⟨acc.2, t, db'⟩], db')) ([], db)

/-- A fold that raises nothing is a run. -/
theorem foldTransactions_run {ts : List Transaction} {acc : List (Entry Db Transaction) × Db}
    (h : foldTransactions {} ts = .ok acc) : StoreRun acc.1 acc.2 := by
  have hstart : StoreRun [] {} := .start
  refine foldlM_eq_ok_induct (motive := fun acc => StoreRun acc.1 acc.2) ?_ h hstart
  intro acc t acc' ih hstep
  simp only [bind_eq_ok, pure_eq_ok] at hstep
  obtain ⟨db', hrun, rfl⟩ := hstep
  have hcommits : commits acc.2 t db' := hrun
  exact ih.snoc hcommits

/-- The history of a fold takes the transactions of its list, in order. -/
theorem foldTransactions_map_label {db : Db} {ts : List Transaction}
    {acc : List (Entry Db Transaction) × Db} (h : foldTransactions db ts = .ok acc) :
    acc.1.map (·.label) = ts := by
  have hfold : ∀ (ts : List Transaction) (start : List (Entry Db Transaction) × Db),
      ts.foldlM (fun (acc : List (Entry Db Transaction) × Db) t => do
        let db' ← t.run acc.2
        return (acc.1 ++ [(⟨acc.2, t, db'⟩ : Entry Db Transaction)], db')) start = .ok acc →
      acc.1.map (·.label) = start.1.map (·.label) ++ ts := by
    intro ts
    induction ts with
    | nil =>
        intro start h
        obtain rfl := Except.ok.inj h
        simp
    | cons t ts ih =>
        intro start h
        simp only [List.foldlM_cons, bind_eq_ok, pure_eq_ok] at h
        obtain ⟨_, ⟨db', -, rfl⟩, h⟩ := h
        rw [ih _ h]
        simp
  simpa using hfold ts ([], db) h

theorem foldTransactions_labels {db : Db} {ts : List Transaction}
    {acc : List (Entry Db Transaction) × Db} (h : foldTransactions db ts = .ok acc) :
    ∀ e ∈ acc.1, e.label ∈ ts := by
  intro e he
  rw [← foldTransactions_map_label h]
  exact List.mem_map_of_mem he

/-- Every transaction of the list has its entry. -/
theorem foldTransactions_entry {db : Db} {ts : List Transaction}
    {acc : List (Entry Db Transaction) × Db} (h : foldTransactions db ts = .ok acc)
    {t : Transaction} (ht : t ∈ ts) : ∃ e ∈ acc.1, e.label = t := by
  rw [← foldTransactions_map_label h] at ht
  exact List.mem_map.mp ht

/-! ### What a transaction does to the lifecycle -/

/-- What one transaction does to the lifecycle. -/
inductive LifecycleChange (db db' : Db) : Prop
  | quiet : db'.lifecycle = db.lifecycle → Kept db db' → LifecycleChange db db'
  | created {spec : CampaignSpec} {snapshot : CampaignSnapshot} : Created db spec snapshot db' →
      LifecycleChange db db'
  | applied {event : Event} {row : CampaignRow} {next : CampaignSnapshot}
      {effects : List ExternalEffectIntent} : EventApplied db event row next effects db' →
      LifecycleChange db db'

theorem Frame.quiet {db db' : Db} (h : Frame db db') : LifecycleChange db db' :=
  .quiet h.lifecycle h.kept

theorem Committed.lifecycle {t : Transaction} {db db' : Db} (h : Committed db t db') :
    LifecycleChange db db' := by
  cases h with
  | beside hbeside => exact hbeside.toFrame.quiet
  | created hcreated => exact .created hcreated
  | applied _ happlied => exact .applied happlied
  | granted hgranted =>
      rcases hgranted.transition with ⟨-, -, hframe⟩ | ⟨-, -, _, _, _, _, -, happlied⟩
      · exact hframe.quiet
      · exact .applied happlied
  | bound hbound => exact hbound.frame.quiet
  | retired hretired =>
      rcases hretired.transition with ⟨-, hframe⟩ | ⟨-, _, _, _, _, -, happlied⟩
      · exact hframe.quiet
      · exact .applied happlied
  | recovered hrecovered => exact .quiet hrecovered.lifecycle (.of_eq hrecovered.operations)
  | prepared hprepared => exact .quiet hprepared.lifecycle (.of_eq hprepared.operations)
  | updated hupdated =>
      obtain ⟨_, -, -, rfl⟩ := hupdated.revision
      exact .quiet rfl (.of_eq rfl)

/-- No transaction changes or forgets a request row. -/
theorem Committed.kept {t : Transaction} {db db' : Db} (h : Committed db t db') : Kept db db' := by
  cases h.lifecycle with
  | quiet _ hkept => exact hkept
  | created hcreated => exact hcreated.kept
  | applied happlied => exact happlied.kept

/-! ### What a transaction does to one campaign -/

/-- What one transaction does to the row of campaign `id`: the events of leases apart, a campaign is
moved by the event its caller submitted. -/
inductive CampaignChange (db : Db) (t : Transaction) (db' : Db) (id : String) : Prop
  | same : db'.campaigns.get? id = db.campaigns.get? id → CampaignChange db t db' id
  | created {spec : CampaignSpec} {s : CampaignSnapshot} : Created db spec s db' →
      db'.campaigns.get? id = some (.ofSpec spec s) → CampaignChange db t db' id
  | applied {event : Event} {row : CampaignRow} {next : CampaignSnapshot}
      {effects : List ExternalEffectIntent} : event.campaignId = id →
      EventApplied db event row next effects db' →
      db'.campaigns.get? id = some (row.advance next) →
      t.carries event ∨ event.eventType = .acquireLease ∨ event.eventType = .releaseLease →
      CampaignChange db t db' id

section Change

variable {db db' : Db} {t : Transaction}

theorem CampaignChange.of_lifecycle (h : db'.lifecycle = db.lifecycle) (id : String) :
    CampaignChange db t db' id :=
  .same (by rw [show db'.campaigns = db.campaigns from congrArg Lifecycle.campaigns h])

theorem CampaignChange.of_event {event : Event} {row : CampaignRow} {next : CampaignSnapshot}
    {effects : List ExternalEffectIntent} (h : EventApplied db event row next effects db')
    (hcarries : t.carries event ∨ event.eventType = .acquireLease ∨ event.eventType = .releaseLease)
    (id : String) : CampaignChange db t db' id := by
  by_cases hid : event.campaignId = id
  · exact .applied hid h (by rw [h.campaigns, if_pos hid.symm]) hcarries
  · exact .same (by rw [h.campaigns, if_neg (Ne.symm hid)])

theorem Committed.campaign (h : Committed db t db') (id : String) : CampaignChange db t db' id := by
  cases h with
  | beside hbeside => exact .of_lifecycle hbeside.lifecycle id
  | @created spec _ _ s _ hcreated =>
      by_cases hid : id = (CampaignRow.ofSpec spec s).campaignId
      · exact .created hcreated (by rw [Table.get?_insert? hcreated.campaigns, if_pos hid])
      · exact .same (by rw [Table.get?_insert? hcreated.campaigns, if_neg hid])
  | applied hcarries happlied => exact .of_event happlied (.inl hcarries) id
  | granted hgranted =>
      rcases hgranted.transition with ⟨-, -, hframe⟩ | ⟨-, -, _, _, _, _, hevent, happlied⟩
      · exact .of_lifecycle hframe.lifecycle id
      · exact .of_event happlied (.inr (.inl (LeaseRequest.event_eq_ok hevent).2.2.1)) id
  | bound hbound => exact .of_lifecycle hbound.frame.lifecycle id
  | retired hretired =>
      rcases hretired.transition with ⟨-, hframe⟩ | ⟨-, _, _, _, _, hevent, happlied⟩
      · exact .of_lifecycle hframe.lifecycle id
      · exact .of_event happlied (.inr (.inr (ReleaseRequest.event_eq_ok hevent).2.2.1)) id
  | recovered hrecovered => exact .of_lifecycle hrecovered.lifecycle id
  | prepared hprepared => exact .of_lifecycle hprepared.lifecycle id
  | updated hupdated =>
      obtain ⟨_, -, -, rfl⟩ := hupdated.revision
      exact .same rfl

end Change

end Transactions

end CodingOS.Store

/-! ### The small campaign in a store -/

namespace CodingOS.Store.Sample

open CodingOS.Python CodingOS.Campaign CodingOS.Campaign.Sample Systems

/-- The sample campaign, created and driven to its first publication intent. -/
def transactions : List Transaction :=
  .createCampaign spec none none :: (candidateEvents ++ publicationEvents).map .applyEvent

theorem mem_transactions {t : Transaction} (h : t ∈ transactions) :
    t = .createCampaign spec none none ∨
      ∃ e ∈ candidateEvents ++ publicationEvents, t = .applyEvent e := by
  rw [transactions, List.mem_cons, List.mem_map] at h
  rcases h with h | ⟨e, he, rfl⟩
  · exact .inl h
  · exact .inr ⟨e, he, rfl⟩

def storeRun : List (Entry Db Transaction) × Db :=
  (foldTransactions {} transactions).toOption.get (by decide +kernel)

theorem storeRun_run : StoreRun storeRun.1 storeRun.2 := foldTransactions_run (get_toOption _)

/-- The sample campaign has its intent, and a second campaign is one event short of the same intent. -/
def sharedRun : List (Entry Db Transaction) × Db :=
  (foldTransactions {} (transactions ++ .createCampaign otherSpec none none ::
    otherEvents.dropLast.map .applyEvent)).toOption.get (by decide +kernel)

theorem sharedRun_run : StoreRun sharedRun.1 sharedRun.2 := foldTransactions_run (get_toOption _)

end CodingOS.Store.Sample
