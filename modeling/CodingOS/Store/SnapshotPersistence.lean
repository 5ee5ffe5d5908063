import CodingOS.Campaign.Reloading
import CodingOS.Store.Idempotency

/-!
# Snapshots in the store

The transaction that commits an event returns the snapshot `reduce` made.  Afterwards `get_snapshot` and
every replay of the event return what is read back from the stored JSON.  Both are the same snapshot
exactly when the event did not give an empty reason.
-/

namespace CodingOS.Store

open CodingOS.Python CodingOS.Campaign Systems

section Persistence

variable [Runtime] {db db' : Db} {event : Event} {s : CampaignSnapshot} {effects : List ExternalEffectIntent}

/-! ### One event -/

/-- A new event is applied and its result is recorded. -/
theorem Db.applyEvent_applied (hfresh : db.operations.get? event.eventId = none)
    (h : db.applyEvent event = .ok ((s, effects), db')) :
    event.eventType ∉ humanEvents ∧ (∃ row, EventApplied db event row s effects db') ∧
      db'.operationResult event.eventId (canonicalJsonDigest event.toDict)
        = .ok (some (.transition s effects)) := by
  obtain ⟨hrepair, hpublication, happly⟩ := Db.applyEvent_eq_ok h
  refine ⟨humanEvents_not_mem.mpr ⟨hrepair, hpublication⟩, ?_⟩
  rcases Db.applyEventTx_eq_ok happly with ⟨hused, -⟩ | hnew
  · exact absurd hfresh hused
  · obtain ⟨happlied, -, hrecorded⟩ := Db.applyNewEvent_eq_ok hnew
    exact ⟨happlied, hrecorded.operationResult rfl rfl⟩

/-- A recorded event returns its recorded snapshot as it is read back, and moves nothing. -/
theorem Db.applyEvent_replay (hplain : event.eventType ∉ humanEvents)
    (hresult : db.operationResult event.eventId (canonicalJsonDigest event.toDict)
      = .ok (some (.transition s effects))) :
    db.applyEvent event = .ok ((s.reload, effects), db) := by
  obtain ⟨hrepair, hpublication⟩ := humanEvents_not_mem.mp hplain
  have hreplay : db.applyEventTx event = .ok ((s.reload, effects), db) := by
    rw [Db.applyEventTx, bind_eq_ok]
    exact ⟨some (.transition s effects), hresult, rfl⟩
  rw [Db.applyEvent, bind_eq_ok]
  exact ⟨(), by simp [hrepair, hpublication], hreplay⟩

/-- The snapshot of an applied event extends the run of its campaign. -/
theorem EventApplied.reload_iff {row : CampaignRow} (hsourced : Sourced db)
    (h : EventApplied db event row s effects db') : s.reload = s ↔ ¬ event.EmptyReason := by
  have hfolded := (hsourced.campaigns _ _ h.row_eq).folded
  obtain ⟨history, hrun, -⟩ := replay_run hfolded
  obtain ⟨-, hreduce⟩ := reduce_reload hfolded h.reduced
  have hnone : row.snapshot.failureReason = none := hrun.failureReason (reduce_accepted hreduce).live
  obtain ⟨s₀, hinit, hrun⟩ := hrun
  have hstep : reduceStep row.snapshot ⟨event, effects⟩ s := hreduce
  have hnext : CampaignRun row.spec _ s := ⟨s₀, hinit, hrun.snoc hstep⟩
  rw [hnext.reload_iff, ne_eq, reduce_emptyReason hreduce hnone]

/-! ### Later -/

/-- What the campaign row of a committed snapshot is later: the row itself, or one of a later revision. -/
def RowSince (campaignId : String) (s : CampaignSnapshot) (db : Db) : Prop :=
  ∃ row, db.campaigns.get? campaignId = some row ∧
    (row.snapshot = s ∨ s.revision < row.snapshot.revision)

theorem RowSince.keep {campaignId : String} {t : Transaction} (h : RowSince campaignId s db)
    (hstep : Committed db t db') : RowSince campaignId s db' := by
  obtain ⟨row, hrow, hsince⟩ := h
  cases hstep.campaign campaignId with
  | same hsame => exact ⟨row, hsame.trans hrow, hsince⟩
  | @created spec next hcreated hnew =>
      have hid : (CampaignRow.ofSpec spec next).campaignId = campaignId := Table.key_of_get? hnew
      have hfree := (Table.insert?_eq_some.mp hcreated.campaigns).1
      rw [hid, hrow] at hfree
      cases hfree
  | @applied event row' next effects hid happlied hnew =>
      refine ⟨_, hnew, .inr ?_⟩
      obtain rfl : row = row' := Option.some.inj (hrow.symm.trans (hid ▸ happlied.row_eq))
      have hrevision : next.revision = row.snapshot.revision + 1 :=
        (reduce_accepted happlied.reduced).revision_eq
      show s.revision < next.revision
      rcases hsince with rfl | hlater
      · omega
      · omega

theorem RowSince.run {campaignId : String} {history : List (Entry Db Transaction)}
    (h : RowSince campaignId s db) (hrun : Run commits db history db') : RowSince campaignId s db' :=
  hrun.invariant (RowSince campaignId s) h fun hsince hstep => hsince.keep (Transaction.committed hstep)

/-- What `get_snapshot` returns later, as long as no further event has been applied. -/
theorem RowSince.loadSnapshot {campaignId : String} {r : CampaignSnapshot} (h : RowSince campaignId s db)
    (hload : db.loadSnapshot campaignId = .ok r) (hrevision : r.revision = s.revision) : r = s.reload := by
  obtain ⟨row, hrow, hsince⟩ := h
  obtain ⟨row', hrow', rfl⟩ := Db.loadSnapshot_eq_ok hload
  obtain rfl := Option.some.inj (hrow.symm.trans hrow')
  rcases hsince with rfl | hlater
  · rfl
  · have hsame : row.snapshot.reload.revision = row.snapshot.revision := rfl
    omega

theorem operationResult_run {id digest : String} {result : OperationResult}
    {history : List (Entry Db Transaction)}
    (h : db.operationResult id digest = .ok (some result)) (hrun : Run commits db history db') :
    db'.operationResult id digest = .ok (some result) :=
  hrun.invariant (fun db => db.operationResult id digest = .ok (some result)) h
    fun hresult hstep => (Transaction.committed hstep).kept.operationResult hresult

/-- The snapshot a committed event returns, against what `get_snapshot` and a replay return later. -/
structure PersistedSnapshot (event : Event) (s : CampaignSnapshot) (effects : List ExternalEffectIntent)
    (db : Db) : Prop where
  loaded : ∃ r, db.loadSnapshot event.campaignId = .ok r
  current : ∀ r, db.loadSnapshot event.campaignId = .ok r → r.revision = s.revision →
    (r = s ↔ ¬ event.EmptyReason)
  replayed : ∃ r, db.applyEvent event = .ok ((r, effects), db) ∧ (r = s ↔ ¬ event.EmptyReason)

theorem persisted_snapshot {history later : List (Entry Db Transaction)} {db'' : Db}
    (h : StoreRun history db) (hfresh : db.operations.get? event.eventId = none)
    (happly : db.applyEvent event = .ok ((s, effects), db')) (hlater : Run commits db' later db'') :
    PersistedSnapshot event s effects db'' := by
  obtain ⟨hplain, ⟨row, happlied⟩, hresult⟩ := Db.applyEvent_applied hfresh happly
  have hreload := happlied.reload_iff (sourced_run h)
  have hsince : RowSince event.campaignId s db' :=
    ⟨row.advance s, by rw [happlied.campaigns, if_pos rfl], .inl rfl⟩
  have hsince := hsince.run hlater
  refine ⟨?_, fun r hload hrevision => ?_, s.reload,
    Db.applyEvent_replay hplain (operationResult_run hresult hlater), hreload⟩
  · obtain ⟨row', hrow', -⟩ := hsince
    exact ⟨row'.snapshot.reload, by rw [Db.loadSnapshot, hrow']; rfl⟩
  · rw [hsince.loadSnapshot hload hrevision]
    exact hreload

/-- **Snapshot persistence.**  The JSON of a reached snapshot of an accepted specification is read back
as that snapshot, up to the order of keys, exactly when no event of the run gave an empty reason; and so
does what the store returns later for a committed event. -/
theorem snapshot_persistence [FloatReader] (laws : FloatLaws) :
    (∀ value verifyDigest spec history (s : CampaignSnapshot),
      CampaignSpec.fromDict value verifyDigest = .ok spec → CampaignRun spec history s →
        ((loads (canonicalJson s.toDict)).map CampaignSnapshot.fromDict = some (.ok s.frozen) ↔
          ∀ t ∈ history, ¬ t.label.event.EmptyReason)) ∧
    ∀ history (db : Db) (event : Event) (s : CampaignSnapshot) effects (db' : Db) later (db'' : Db),
      StoreRun history db → db.operations.get? event.eventId = none →
        db.applyEvent event = .ok ((s, effects), db') → Run commits db' later db'' →
          PersistedSnapshot event s effects db'' := by
  refine ⟨fun value verifyDigest spec history s hspec hrun => ?_, ?_⟩
  · exact hrun.loads_iff laws (CampaignSpec.fromDict_eq_ok hspec).1
  · intro history db event s effects db' later db'' h hfresh happly hlater
    exact persisted_snapshot h hfresh happly hlater

end Persistence

/-! ### A cancellation that gives an empty reason -/

section Sample

open CodingOS.Campaign.RecordSample

/-- `CANCEL` of the fresh campaign of the sample specification, with the reason given. -/
def cancelEvent (reason : String) : Event where
  eventId := "e"
  campaignId := RecordSample.spec.campaignId
  eventType := .cancel
  expectedRevision := 0
  authorityEpoch := RecordSample.spec.authorityEpoch
  cancellationEpoch := RecordSample.spec.cancellationEpoch
  payload := [("reason", .str reason)]
  event_id_nonblank := by decide
  campaign_id_nonblank := by decide
  fence_positive := by decide

theorem canonicalJson_mapping_ne_empty (entries : Mapping) : canonicalJson (.mapping entries) ≠ "" := by
  intro h
  rw [canonicalJson, String.append_eq_empty_iff] at h
  exact absurd h.2 (by decide)

theorem recordSpec_verified : RecordSample.spec.verifyDigest = .ok () := by
  have hdigest : RecordSample.spec.specificationDigest = RecordSample.spec.computeDigest := rfl
  have hne : RecordSample.spec.specificationDigest ≠ "" := canonicalJson_mapping_ne_empty _
  refine check_eq_ok.mpr ?_
  rw [← hdigest, beq_self_eq_true, Bool.and_true, bne_iff_ne]
  exact hne

/-- The run that cancels the fresh campaign. -/
theorem cancelled_run (reason : String) : ∃ history s, CampaignRun RecordSample.spec history s ∧
    history.map (·.label.event) = [cancelEvent reason] := by
  obtain ⟨s₀, hinit⟩ : ∃ s₀, CampaignSnapshot.initial RecordSample.spec = .ok s₀ :=
    ⟨_, bind_eq_ok.mpr ⟨(), recordSpec_verified, rfl⟩⟩
  obtain ⟨s', effects, hreduce, -⟩ : ∃ s' effects,
      reduce s₀ (cancelEvent reason) = .ok (s', effects) ∧ s'.state = .cancelled := by
    simp only [CampaignSnapshot.initial, bind_eq_ok, pure_eq_ok] at hinit
    obtain ⟨_, -, rfl⟩ := hinit
    have hlive : CampaignState.draft ∉ terminalCampaignStates := by decide
    exact reduce_cancel rfl hlive rfl rfl rfl rfl rfl
  have hstep : reduceStep s₀ ⟨cancelEvent reason, effects⟩ s' := hreduce
  exact ⟨_, s', ⟨s₀, hinit, .snoc .start hstep⟩, rfl⟩

theorem snapshot_not_read_back :
    ¬ ∀ value spec history (s : CampaignSnapshot),
      CampaignSpec.fromDict value = .ok spec → CampaignRun spec history s →
        (loads (canonicalJson s.toDict)).map CampaignSnapshot.fromDict = some (.ok s.frozen) := by
  intro h
  obtain ⟨history, s, hrun, hevents⟩ := cancelled_run ""
  have hread := h _ _ history s document_accepted hrun
  rw [hrun.loads_iff RecordSample.laws spec_stored] at hread
  obtain ⟨t, ht, hcancel⟩ : ∃ t ∈ history, t.label.event = cancelEvent "" := by
    have hmem : cancelEvent "" ∈ history.map (·.label.event) := by
      rw [hevents]
      exact List.mem_singleton_self _
    exact List.mem_map.mp hmem
  exact hread t ht (hcancel ▸ ⟨"STOP", rfl, rfl⟩)

theorem snapshot_persistence_sample : ∃ history s, CampaignRun RecordSample.spec history s ∧
    history.map (·.label.event) = [cancelEvent "done"] ∧
    (loads (canonicalJson s.toDict)).map CampaignSnapshot.fromDict = some (.ok s.frozen) := by
  obtain ⟨history, s, hrun, hevents⟩ := cancelled_run "done"
  refine ⟨history, s, hrun, hevents, ?_⟩
  refine ((snapshot_persistence RecordSample.laws).1 _ true _ history s document_accepted hrun).mpr ?_
  intro t ht hempty
  have hmem : t.label.event ∈ history.map (·.label.event) := List.mem_map_of_mem ht
  rw [hevents, List.mem_singleton] at hmem
  rw [hmem] at hempty
  obtain ⟨default, -, hreason⟩ := hempty
  exact absurd (show "done" = "" from hreason) (by decide)

end Sample

end CodingOS.Store
