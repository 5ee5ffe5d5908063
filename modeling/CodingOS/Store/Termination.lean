import CodingOS.Store.Effects
import CodingOS.Store.LeaseTable

/-!
# Campaigns that have ended

What a failed or cancelled campaign may still do with its effects and its leases.

A cancellation settles the prepared rows of its campaign; a failure leaves them `PREPARED`.  Before a
row begins to execute, `update_effect` asks for a campaign that is not cancelled, for its epochs and,
when the row has one, for the fence of its node.  A failure changes no epoch, and of the fences only
that of the node that failed.  So a row of a failed campaign can be kept from executing by its fence
alone, and a row without a fence is not: `late_execution` is such a run, and
`no_execution_after_termination` says in which runs there is none.

Both terminal events end the active leases of their campaign.  An exclusive lease cannot be granted
afterwards, because the reducer takes no event in a campaign that has ended; a concurrent read-only
lease does not ask the reducer, and `late_reader` is one granted after the cancellation.
-/

namespace CodingOS.Store

open CodingOS.Python CodingOS.Campaign Systems

/-- The states a campaign ends in without having completed. -/
def deadCampaignStates : List CampaignState := [.failed, .cancelled]

theorem dead_terminal {state : CampaignState} (h : state ∈ deadCampaignStates) :
    state ∈ terminalCampaignStates := by
  revert h
  cases state <;> decide

theorem effectTransitions_prepared (state : EffectState) :
    EffectState.prepared ∉ effectTransitions state := by
  cases state <;> decide

/-- A cancellation leaves no prepared row. -/
theorem settledOutbox_cancel {outbox : Table EffectRow.operationId} {event : Event} {revision : ℕ}
    {row : EffectRow} {id : String} (ht : event.eventType = .cancel)
    (hrow : (settledOutbox outbox event revision).get? id = some row)
    (hcampaign : row.campaignId = event.campaignId) : row.state ≠ .prepared := by
  rw [settledOutbox, if_pos ht, Table.get?_update, Table.get?_update, Option.map_map,
    Option.map_eq_some_iff] at hrow
  obtain ⟨before, -, rfl⟩ := hrow
  have hbefore : before.campaignId = event.campaignId := by
    rw [← hcampaign]
    simp only [Function.comp_apply]
    split_ifs <;> rfl
  cases hstate : before.state <;> simp [hbefore, hstate]

section Termination

variable [Runtime]

/-! ### What `update_effect` reads of a snapshot -/

/-- The fences of a snapshot. -/
def fences (s : CampaignSnapshot) : List (String × ℕ) :=
  s.nodes.map fun n => (n.nodeId, n.fencingEpoch)

theorem node_fence {s : CampaignSnapshot} {k : String} {fence : ℕ} :
    (∃ n, s.node k = .ok n ∧ n.fencingEpoch = fence)
      ↔ ((fences s).find? (·.1 == k)).map (·.2) = some fence := by
  rw [fences, List.find?_map, Option.map_map, Option.map_eq_some_iff]
  simp only [CampaignSnapshot.node, orRaise_eq_ok]
  rfl

theorem checkExecutable_eq_ok {s : CampaignSnapshot} {row : EffectRow} :
    checkExecutable s row = .ok () ↔ s.state ≠ .cancelled ∧
      (row.authorityEpoch = s.authorityEpoch ∧ row.cancellationEpoch = s.cancellationEpoch) ∧
      ∀ k fence, row.nodeId = some k → row.fencingEpoch = some fence →
        ((fences s).find? (·.1 == k)).map (·.2) = some fence := by
  simp only [checkExecutable, bind_eq_ok, check_eq_ok, bne_iff_ne, Bool.and_eq_true, beq_iff_eq,
    exists_const, ← node_fence]
  refine and_congr_right fun _ => and_congr_right fun _ => ?_
  cases row.nodeId with
  | none => simp
  | some k =>
      cases row.fencingEpoch with
      | none => simp
      | some fence =>
          simp only [bind_eq_ok, check_eq_ok, beq_iff_eq, Option.some.injEq]
          constructor
          · rintro ⟨n, hn, hfence⟩ _ _ rfl rfl
            exact ⟨n, hn, hfence.symm⟩
          · intro h
            obtain ⟨n, hn, hfence⟩ := h k fence rfl rfl
            exact ⟨n, hn, hfence.symm⟩

/-- A snapshot that agrees on the state, the epochs and the fences lets the same rows begin. -/
theorem checkExecutable_congr {s s' : CampaignSnapshot}
    (hstate : s'.state = .cancelled ↔ s.state = .cancelled)
    (hauthority : s'.authorityEpoch = s.authorityEpoch)
    (hcancellation : s'.cancellationEpoch = s.cancellationEpoch) (hfences : fences s' = fences s)
    (row : EffectRow) : checkExecutable s' row = .ok () ↔ checkExecutable s row = .ok () := by
  rw [checkExecutable_eq_ok, checkExecutable_eq_ok, hauthority, hcancellation, hfences]
  exact and_congr_left fun _ => not_congr hstate

theorem fences_reload (s : CampaignSnapshot) : fences s.reload = fences s := by
  show (s.nodes.map NodeSnapshot.reload).map _ = _
  rw [List.map_map]
  rfl

/-! ### The condition -/

/-- The snapshot with the fence of `n` advanced, as `_fail_exact_node` advances it. -/
def fenceAdvanced (s : CampaignSnapshot) (n : NodeSnapshot) : CampaignSnapshot :=
  s.replaceNode { n with fencingEpoch := n.fencingEpoch + 1 }

/-- What a campaign that fails leaves executable. -/
theorem failed_executable {s s' : CampaignSnapshot} {e : Event}
    {effects : List ExternalEffectIntent} (h : Accepted s e effects s') (hfailed : s'.state = .failed) :
    ∃ n, Names s e n ∧ ∀ row, checkExecutable s'.reload row = .ok () →
      checkExecutable (fenceAdvanced s n) row = .ok () := by
  obtain ⟨n, closed, reason, hn, hmove, rfl⟩ := h.failed hfailed
  have hclosed : closed.nodeId = n.nodeId ∧ closed.fencingEpoch = n.fencingEpoch := by
    cases hmove <;> exact ⟨rfl, rfl⟩
  refine ⟨n, hn, fun row => (checkExecutable_congr ?_ ?_ ?_ ?_ row).mp⟩
  · have hlive : s.state ≠ .cancelled := by
      intro hcancelled
      exact h.live (by rw [hcancelled]; decide)
    exact ⟨fun hcancelled => (by cases hcancelled), fun hcancelled => absurd hcancelled hlive⟩
  · rfl
  · rfl
  · rw [fences_reload]
    simp only [fences, fenceAdvanced, failExactNode, CampaignSnapshot.replaceNode,
      CampaignSnapshot.mapNodes_nodes, List.map_map]
    refine List.map_congr_left fun m _ => ?_
    simp only [Function.comp_apply, NodeSnapshot.failed, hclosed.1]
    split
    · simp [hclosed]
    · rfl

/-- The transactions that leave a campaign that fails without a row it could still begin. -/
structure Settles (db : Db) (t : Transaction) : Prop where
  /-- A failing event meets no prepared row that the advanced fence lets through. -/
  failing : ∀ event s next effects n row, t.carries event →
    db.loadSnapshot event.campaignId = .ok s → reduce s event = .ok (next, effects) →
    next.state = .failed → Names s event n →
    db.outbox.get? row.operationId = some row → row.campaignId = event.campaignId →
    row.state = .prepared → checkExecutable (fenceAdvanced s n) row ≠ .ok ()
  /-- No new row is prepared for a failed campaign. -/
  preparing : ∀ operationId campaignId nodeId kind payload digest s,
    t = .prepareEffect operationId campaignId nodeId kind payload digest →
    db.outbox.get? operationId = none → db.loadSnapshot campaignId = .ok s → s.state ≠ .failed

/-- Whether a step lets a row of a dead campaign begin to execute. -/
def BeginsLate (e : Entry Db Transaction) : Prop :=
  ∃ campaign row row', e.before.campaigns.get? row.campaignId = some campaign ∧
    campaign.snapshot.state ∈ deadCampaignStates ∧
    e.before.outbox.get? row.operationId = some row ∧ row.state = .prepared ∧
    e.after.outbox.get? row.operationId = some row' ∧ row'.state = .executing

/-! ### The invariant -/

/-- No prepared row of a dead campaign can begin to execute. -/
def Quiet (db : Db) : Prop :=
  ∀ campaign row, db.campaigns.get? row.campaignId = some campaign →
    campaign.snapshot.state ∈ deadCampaignStates → db.outbox.get? row.operationId = some row →
    row.state = .prepared → checkExecutable campaign.snapshot.reload row ≠ .ok ()

variable {db db' : Db} {t : Transaction}

/-- A row that is prepared after a step was prepared before it, with the same guards. -/
theorem RowStep.prepared {row row' : EffectRow} (h : RowStep db t row row')
    (hprepared : row'.state = .prepared) : row.state = .prepared ∧
      row'.campaignId = row.campaignId ∧ row'.operationId = row.operationId ∧
      ∀ s, checkExecutable s row' = checkExecutable s row := by
  cases h with
  | same => exact ⟨hprepared, rfl, rfl, fun _ => rfl⟩
  | cancelled | interrupted | recovered => cases hprepared
  | @updated target _ _ _ _ _ _ hfollows =>
      obtain rfl : target = .prepared := hprepared
      rcases hfollows with hsame | hmem
      · exact ⟨hsame.symm, rfl, rfl, fun _ => rfl⟩
      · exact absurd hmem (effectTransitions_prepared _)

theorem Inserted.live {row : EffectRow} {campaign : CampaignRow} (h : Inserted db t row)
    (hfree : db.outbox.get? row.operationId = none) (hsettles : Settles db t)
    (hcampaign : db.campaigns.get? row.campaignId = some campaign) :
    campaign.snapshot.state ∉ deadCampaignStates := by
  cases h with
  | @published event row' next intent _ ht hrow' hreduce hrow =>
      have haccepted := reduce_accepted hreduce
      rcases external_intents hreduce with ⟨hne, -⟩ | ⟨-, _, heq, _, _, _, -, hguard⟩
      · exact absurd ht hne
      · obtain rfl := List.singleton_inj.mp heq
        obtain ⟨-, -, -, hid, -⟩ := hguard.identity
        rw [hrow, show (EffectRow.ofIntent intent next.revision).campaignId = event.campaignId from
          hid.trans haccepted.campaign.symm, hrow'] at hcampaign
        obtain rfl := Option.some.inj hcampaign
        exact fun hdead => haccepted.live (dead_terminal hdead)
  | @prepared _ campaignId _ _ _ _ intent s _ ht hoperation hload hcancelled hid _ _ _ _ _ hrow =>
      have hrowCampaign : row.campaignId = campaignId := by rw [hrow]; exact hid
      rw [hrow, show (EffectRow.ofIntent intent s.revision).operationId = _ from hoperation] at hfree
      have hfailed := hsettles.preparing _ _ _ _ _ _ s ht hfree hload
      obtain ⟨campaign', hcampaign', rfl⟩ := Db.loadSnapshot_eq_ok hload
      rw [hrowCampaign, hcampaign'] at hcampaign
      obtain rfl := Option.some.inj hcampaign
      have hstate : campaign'.snapshot.state ≠ .failed ∧ campaign'.snapshot.state ≠ .cancelled :=
        ⟨hfailed, hcancelled⟩
      simp [deadCampaignStates, hstate]

/-- A row that is prepared after a step is new, or was prepared before it and is guarded as it was. -/
theorem Committed.prepared_row (h : Committed db t db') {row' : EffectRow}
    (hrow' : db'.outbox.get? row'.operationId = some row') (hprepared : row'.state = .prepared) :
    (db.outbox.get? row'.operationId = none ∧ Inserted db t row') ∨
      ∃ row, db.outbox.get? row.operationId = some row ∧ row.state = .prepared ∧
        row'.campaignId = row.campaignId ∧ ∀ s, checkExecutable s row' = checkExecutable s row := by
  cases hrow : db.outbox.get? row'.operationId with
  | none => exact .inl ⟨rfl, h.outbox.inserted row' hrow hrow'⟩
  | some row =>
      have hid : row.operationId = row'.operationId := Table.key_of_get? hrow
      rw [← hid] at hrow hrow'
      obtain ⟨row'', hrow'', hstepped⟩ := h.outbox.step row hrow
      obtain rfl := Option.some.inj (hrow''.symm.trans hrow')
      obtain ⟨hstate, hcampaign, -, hchecked⟩ := hstepped.prepared hprepared
      exact .inr ⟨row, hrow, hstate, hcampaign, hchecked⟩

/-- **One step keeps the invariant.** -/
theorem Quiet.keep (h : Quiet db) (hsettles : Settles db t) (hstep : Committed db t db') :
    Quiet db' := by
  intro campaign row' hcampaign hdead hrow' hprepared
  have hbefore := hstep.prepared_row hrow' hprepared
  cases hstep.campaign row'.campaignId with
  | same hsame =>
      -- the campaign had ended before the step
      rw [hsame] at hcampaign
      rcases hbefore with ⟨hfree, hinserted⟩ | ⟨row, hrow, hstate, hid, hchecked⟩
      · exact absurd hdead (hinserted.live hfree hsettles hcampaign)
      · rw [hchecked]
        exact h campaign row (hid ▸ hcampaign) hdead hrow hstate
  | @created spec s hcreated hnew =>
      obtain rfl := Option.some.inj (hnew.symm.trans hcampaign)
      obtain ⟨-, -, hdraft, -⟩ := initial_eq_ok hcreated.initial
      rw [show (CampaignRow.ofSpec spec s).snapshot.state = .draft from hdraft] at hdead
      exact absurd hdead (by decide)
  | @applied event before next effects hid happlied hnew hcarries =>
      obtain rfl := Option.some.inj (hnew.symm.trans hcampaign)
      have haccepted := reduce_accepted happlied.reduced
      have hended : next.state = .failed ∨ next.state = .cancelled := by
        have hstate : next.state ∈ deadCampaignStates := hdead
        simpa [deadCampaignStates] using hstate
      rcases hended with hfailed | hcancelled
      · -- the event failed its campaign: it wrote nothing in the outbox
        obtain ⟨_, _, _, -, hmove, -⟩ := haccepted.failed hfailed
        have htype := hmove.eventType_mem
        have houtbox : db'.outbox = db.outbox := by
          rcases happlied.outbox_cases with ⟨-, hsettled⟩ | ⟨hpublish, -⟩
          · rw [hsettled, settledOutbox, if_neg]
            intro hcancel
            simp [hcancel, failingEvents] at htype
          · simp [hpublish, failingEvents] at htype
        have hcarried : t.carries event := by
          rcases hcarries with hcarries | hlease | hlease
          · exact hcarries
          · simp [hlease, failingEvents] at htype
          · simp [hlease, failingEvents] at htype
        obtain ⟨n, hn, hexecutable⟩ := failed_executable haccepted hfailed
        rw [houtbox] at hrow'
        have hload : db.loadSnapshot event.campaignId = .ok before.snapshot.reload := by
          rw [Db.loadSnapshot, happlied.row_eq]
          rfl
        exact fun hok => hsettles.failing event _ next effects n row' hcarried hload happlied.reduced
          hfailed hn hrow' hid.symm hprepared (hexecutable row' hok)
      · -- the event cancelled its campaign: it left no prepared row
        have ht := haccepted.cancelled hcancelled
        rcases happlied.outbox_cases with ⟨-, hsettled⟩ | ⟨hpublish, -⟩
        · rw [hsettled] at hrow'
          exact absurd hprepared (settledOutbox_cancel ht hrow' hid.symm)
        · simp [ht] at hpublish

/-! ### The law -/

/-- A transaction that carries no failing event and prepares no effect. -/
theorem Settles.of_other (hcarries : ∀ event, t.carries event → event.eventType ∉ failingEvents)
    (hprepares : ∀ operationId campaignId nodeId kind payload digest,
      t ≠ .prepareEffect operationId campaignId nodeId kind payload digest) : Settles db t := by
  refine ⟨fun event s next effects n row hcarried _ hreduce hfailed => ?_,
    fun operationId campaignId nodeId kind payload digest s ht => ?_⟩
  · obtain ⟨_, _, _, -, hmove, -⟩ := (reduce_accepted hreduce).failed hfailed
    exact absurd hmove.eventType_mem (hcarries event hcarried)
  · exact absurd ht (hprepares _ _ _ _ _ _)

theorem quiet_start : Quiet {} := by
  intro _ row _ _ hrow
  cases hrow

/-- In a quiet database no transaction lets a row of a dead campaign begin. -/
theorem Quiet.not_late (h : Quiet db) (hstep : Committed db t db') :
    ¬ BeginsLate ⟨db, t, db'⟩ := by
  rintro ⟨campaign, row, row', hcampaign, hdead, hrow, hprepared, hrow', hexecuting⟩
  obtain ⟨row'', hrow'', hstepped⟩ := hstep.outbox.step row hrow
  obtain rfl := Option.some.inj (hrow''.symm.trans hrow')
  cases hstepped with
  | same =>
      rw [hprepared] at hexecuting
      cases hexecuting
  | cancelled | interrupted | recovered => cases hexecuting
  | @updated target _ _ s _ _ _ _ hload hchecked =>
      obtain rfl : target = .executing := hexecuting
      obtain ⟨campaign', hcampaign', rfl⟩ := Db.loadSnapshot_eq_ok hload
      obtain rfl := Option.some.inj (hcampaign.symm.trans hcampaign')
      exact h campaign row hcampaign hdead hrow hprepared
        (hchecked rfl (by rw [hprepared]; decide))

/-- **No execution after termination**, in every run whose transactions settle the campaigns they
fail. -/
theorem no_execution_after_termination {history : List (Entry Db Transaction)}
    (h : StoreRun history db) (hsteps : ∀ e ∈ history, Settles e.before e.label) :
    ∀ e ∈ history, ¬ BeginsLate e := by
  intro e he
  obtain ⟨-, hentries⟩ := h.invariant_under Quiet hsteps quiet_start
    fun hquiet hsettles hstep => hquiet.keep hsettles hstep
  obtain ⟨hquiet, hstep, -⟩ := hentries e he
  exact hquiet.not_late hstep

/-! ### Leases -/

/-- The transactions that grant no read-only lease in a dead campaign. -/
def GrantsLive (db : Db) (t : Transaction) : Prop :=
  ∀ r s, t = .acquireLease r → r.actor.role ∈ concurrentReadOnlyActorRoles →
    db.operations.get? r.requestId = none → db.loadSnapshot r.campaignId = .ok s →
    s.state ∉ deadCampaignStates

/-- No lease of a dead campaign is active. -/
def Released (db : Db) : Prop :=
  ∀ l ∈ db.activeLeases, ∀ campaign, db.campaigns.get? l.campaignId = some campaign →
    campaign.snapshot.state ∉ deadCampaignStates

/-- The events of leases end no campaign. -/
theorem EventApplied.lease_live {event : Event} {row : CampaignRow} {next : CampaignSnapshot}
    {effects : List ExternalEffectIntent} (h : EventApplied db event row next effects db')
    (ht : event.eventType = .acquireLease ∨ event.eventType = .releaseLease) :
    next.state ∉ deadCampaignStates := by
  have haccepted := reduce_accepted h.reduced
  intro hdead
  have hended : next.state = .failed ∨ next.state = .cancelled := by
    simpa [deadCampaignStates] using hdead
  rcases hended with hfailed | hcancelled
  · obtain ⟨_, _, _, -, hmove, -⟩ := haccepted.failed hfailed
    have htype := hmove.eventType_mem
    rcases ht with ht | ht <;> simp [ht, failingEvents] at htype
  · have htype := haccepted.cancelled hcancelled
    rcases ht with ht | ht <;> simp [ht] at htype

/-- An event that leaves its campaign alive keeps the other campaigns as they are. -/
theorem Released.of_event {event : Event} {row : CampaignRow} {next : CampaignSnapshot}
    {effects : List ExternalEffectIntent} (h : Released db)
    (happlied : EventApplied db event row next effects db')
    (hlive : next.state ∉ deadCampaignStates) {l : LeaseRow} (hl : l ∈ db.activeLeases)
    {campaign : CampaignRow} (hcampaign : db'.campaigns.get? l.campaignId = some campaign) :
    campaign.snapshot.state ∉ deadCampaignStates := by
  rw [happlied.campaigns] at hcampaign
  split at hcampaign
  · obtain rfl := Option.some.inj hcampaign
    exact hlive
  · exact h l hl campaign hcampaign

/-- **One step keeps dead campaigns without leases.** -/
theorem Released.keep (h : Released db) (hgrants : GrantsLive db t) (hstep : Committed db t db') :
    Released db' := by
  intro l hl campaign hcampaign
  obtain ⟨hmem, hactive⟩ := Db.mem_activeLeases.mp hl
  have hquiet : db'.lifecycle = db.lifecycle → l ∈ db.leases.rows →
      campaign.snapshot.state ∉ deadCampaignStates := by
    intro hsame hold
    rw [show db'.campaigns = db.campaigns from congrArg Lifecycle.campaigns hsame] at hcampaign
    exact h l (Db.mem_activeLeases.mpr ⟨hold, hactive⟩) campaign hcampaign
  have hevent : ∀ event row next effects, EventApplied db event row next effects db' →
      next.state ∉ deadCampaignStates → l ∈ db.leases.rows →
      campaign.snapshot.state ∉ deadCampaignStates :=
    fun event row next effects happlied hlive hold =>
      h.of_event happlied hlive (Db.mem_activeLeases.mpr ⟨hold, hactive⟩) hcampaign
  cases hstep with
  | beside hbeside =>
      rw [show db'.leases = db.leases from congrArg Authority.leases hbeside.authority] at hmem
      exact hquiet hbeside.lifecycle hmem
  | @created spec _ _ s _ hcreated =>
      rw [show db'.leases = db.leases from congrArg Authority.leases hcreated.authority] at hmem
      rw [Table.get?_insert? hcreated.campaigns] at hcampaign
      split at hcampaign
      · obtain rfl := Option.some.inj hcampaign
        obtain ⟨-, -, hdraft, -⟩ := initial_eq_ok hcreated.initial
        show s.state ∉ deadCampaignStates
        rw [hdraft]
        decide
      · exact h l (Db.mem_activeLeases.mpr ⟨hmem, hactive⟩) campaign hcampaign
  | @applied _ event _ next _ _ _ happlied hauthority =>
      rw [show db'.leases = _ from congrArg Authority.leases hauthority,
        mem_settledAuthority hactive] at hmem
      obtain ⟨hold, hother⟩ := hmem
      by_cases hdead : next.state ∈ deadCampaignStates
      · -- the lease survived the end of the campaign, so it is one of another campaign
        have hended : event.eventType = .cancel ∨ next.state = .failed := by
          have hstates : next.state = .failed ∨ next.state = .cancelled := by
            simpa [deadCampaignStates] using hdead
          rcases hstates with hfailed | hcancelled
          · exact .inr hfailed
          · exact .inl ((reduce_accepted happlied.reduced).cancelled hcancelled)
        rw [happlied.campaigns, if_neg (hother hended)] at hcampaign
        exact h l (Db.mem_activeLeases.mpr ⟨hold, hactive⟩) campaign hcampaign
      · exact hevent _ _ _ _ happlied hdead hold
  | @granted r s n fence _ hgranted =>
      obtain ⟨lease, hlease, -, hrows⟩ := hgranted.enrolled.leases
      rcases hgranted.transition with ⟨hconcurrent, -, hframe⟩ |
        ⟨-, -, event, row, next, effects, hbuilt, happlied⟩
      · rcases (hrows l).mp hmem with hold | rfl
        · exact hquiet hframe.lifecycle hold
        · -- a new read-only lease: the condition speaks of its campaign
          obtain ⟨row, hrow, rfl⟩ := Db.loadSnapshot_eq_ok hgranted.loaded
          rw [show db'.campaigns = db.campaigns from congrArg Lifecycle.campaigns hframe.lifecycle,
            hlease.campaignId, hrow] at hcampaign
          obtain rfl := Option.some.inj hcampaign
          exact hgrants r row.snapshot.reload rfl
            (by simpa [LeaseRequest.concurrentReadOnly] using hconcurrent) hgranted.free hgranted.loaded
      · obtain ⟨-, hid, ht, -⟩ := LeaseRequest.event_eq_ok hbuilt
        have hlive := happlied.lease_live (.inl ht)
        rcases (hrows l).mp hmem with hold | rfl
        · exact hevent _ _ _ _ happlied hlive hold
        · rw [happlied.campaigns, if_pos (hlease.campaignId.trans hid.symm)] at hcampaign
          obtain rfl := Option.some.inj hcampaign
          exact hlive
  | bound hbound =>
      rw [hbound.leases] at hmem
      exact hquiet hbound.frame.lifecycle hmem
  | retired hretired =>
      rw [show db'.leases = _ from congrArg Authority.leases hretired.authority,
        mem_retire hactive] at hmem
      rcases hretired.transition with ⟨-, hframe⟩ | ⟨-, _, _, _, _, hbuilt, happlied⟩
      · exact hquiet hframe.lifecycle hmem.1
      · obtain ⟨-, -, ht, -⟩ := ReleaseRequest.event_eq_ok hbuilt
        exact hevent _ _ _ _ happlied (happlied.lease_live (.inr ht)) hmem.1
  | recovered hrecovered =>
      rw [show db'.leases = _ from congrArg Authority.leases hrecovered.authority,
        mem_recover hactive] at hmem
      exact hquiet hrecovered.lifecycle hmem.1
  | prepared hprepared =>
      rw [show db'.leases = db.leases from congrArg Authority.leases hprepared.authority] at hmem
      exact hquiet hprepared.lifecycle hmem
  | updated hupdated =>
      obtain ⟨_, -, -, rfl⟩ := hupdated.revision
      exact hquiet rfl hmem

/-- A transaction that asks for no read-only lease. -/
theorem GrantsLive.of_other (h : ∀ r, t = .acquireLease r →
    r.actor.role ∉ concurrentReadOnlyActorRoles) : GrantsLive db t :=
  fun r _ ht hread => absurd hread (h r ht)

theorem released_start : Released {} := by
  intro l hl
  cases hl

/-- **Dead campaigns hold no lease**, in every run that grants them no read-only one. -/
theorem dead_campaigns_hold_no_lease {history : List (Entry Db Transaction)}
    (h : StoreRun history db) (hsteps : ∀ e ∈ history, GrantsLive e.before e.label) :
    Released db ∧ ∀ e ∈ history, Released e.after := by
  obtain ⟨hreleased, hentries⟩ := h.invariant_under Released hsteps released_start
    fun hreleased hgrants hstep => hreleased.keep hgrants hstep
  exact ⟨hreleased, fun e he => (hentries e he).2.2⟩

end Termination

namespace Sample

open CodingOS.Campaign.Sample

/-- The sample campaign is cancelled once its first effect is prepared. -/
def cancelTransactions : List Transaction :=
  transactions ++ [.applyEvent (event 11 "e11" .cancel none [] none none (by decide) unfenced)]

def cancelRun : List (Entry Db Transaction) × Db :=
  (foldTransactions {} cancelTransactions).toOption.get (by decide +kernel)

theorem cancelRun_fold : foldTransactions {} cancelTransactions = .ok cancelRun := get_toOption _

/-- Its transactions carry no event that fails a campaign, and prepare no effect. -/
theorem cancelRun_settles : ∀ e ∈ cancelRun.1, Settles e.before e.label := by
  intro e he
  have hlabel := foldTransactions_labels cancelRun_fold e he
  rw [cancelTransactions, List.mem_append, List.mem_singleton] at hlabel
  have hevents : ∀ e ∈ candidateEvents ++ publicationEvents, e.eventType ∉ failingEvents := by decide
  rcases hlabel with hlabel | hlabel
  · rcases mem_transactions hlabel with hcreate | ⟨e', he', happly⟩
    · rw [hcreate]
      exact .of_other (fun _ hcarries => hcarries.elim) (fun _ _ _ _ _ _ => by simp)
    · rw [happly]
      refine .of_other (fun event hcarries => ?_) (fun _ _ _ _ _ _ => by simp)
      rw [hcarries.1]
      exact hevents e' he'
  · rw [hlabel]
    refine .of_other (fun event hcarries => ?_) (fun _ _ _ _ _ _ => by simp)
    rw [hcarries.1]
    decide

/-- The sample campaign fails once its first effect is prepared, and the effect begins to execute. -/
def lateTransactions : List Transaction :=
  transactions ++ [.applyEvent (event 11 "e11" .failNode (some "n") [] none none (by decide) unfenced),
    .updateEffect "o3" .executing none (some .prepared)]

def lateRun : List (Entry Db Transaction) × Db :=
  (foldTransactions {} lateTransactions).toOption.get (by decide +kernel)

theorem lateRun_run : StoreRun lateRun.1 lateRun.2 := foldTransactions_run (get_toOption _)

def lateEntry : Entry Db Transaction := lateRun.1.getLast (by decide +kernel)

/-- The sample campaign is cancelled while its node is leased. -/
def leasedTransactions : List Transaction :=
  leaseTransactions ++ [.applyEvent (event 4 "e4" .cancel none [] none none e4_nonblank unfenced)]

def leasedRun : List (Entry Db Transaction) × Db :=
  (foldTransactions {} leasedTransactions).toOption.get (by decide +kernel)

theorem leasedRun_fold : foldTransactions {} leasedTransactions = .ok leasedRun := get_toOption _

theorem leasedRun_live : ∀ e ∈ leasedRun.1, GrantsLive e.before e.label := by
  intro e he
  have hlabel := foldTransactions_labels leasedRun_fold e he
  simp only [leasedTransactions, leaseTransactions, List.mem_append, List.mem_cons, List.mem_map,
    List.not_mem_nil, or_false] at hlabel
  refine .of_other fun r hr => ?_
  rw [hr] at hlabel
  rcases hlabel with ((hcreate | ⟨_, -, happly⟩) | hacquire) | hcancel
  · cases hcreate
  · cases happly
  · rw [Transaction.acquireLease.inj hacquire]
    decide
  · cases hcancel

/-- A reviewer of the sample node, who quotes the epochs the cancellation left. -/
def reviewer : Actor where
  actorId := "r"
  campaignId := "c"
  nodeId := some "n"
  role := .reviewer
  nativeThreadId := "UNBOUND"
  authorityEpoch := 1
  canWrite := false
  valid := by decide

def lateRequest : LeaseRequest where
  campaignId := "c"
  nodeId := "n"
  resourceKey := "/r"
  actor := reviewer
  leaseId := "l2"
  requestId := "q2"
  expectedRevision := 12
  authorityEpoch := 1
  cancellationEpoch := 1

def readerRun : List (Entry Db Transaction) × Db :=
  (foldTransactions {} (cancelTransactions ++ [.acquireLease lateRequest])).toOption.get
    (by decide +kernel)

theorem readerRun_run : StoreRun readerRun.1 readerRun.2 := foldTransactions_run (get_toOption _)

end Sample

open Sample in
theorem no_execution_after_termination_sample :
    StoreRun cancelRun.1 cancelRun.2 ∧ ∀ e ∈ cancelRun.1, ¬ BeginsLate e :=
  ⟨foldTransactions_run cancelRun_fold,
    no_execution_after_termination (foldTransactions_run cancelRun_fold) cancelRun_settles⟩

open Sample in
/-- The campaign has failed, and its prepared row begins to execute. -/
theorem late_execution : StoreRun lateRun.1 lateRun.2 ∧ ∃ e ∈ lateRun.1, BeginsLate e := by
  refine ⟨lateRun_run, lateEntry, List.getLast_mem _, ?_⟩
  have hrows : (lateEntry.before.campaigns.get? "c").map (·.snapshot.state) = some .failed ∧
      (lateEntry.before.outbox.get? "o3").map (fun r => (r.campaignId, r.state))
        = some ("c", .prepared) ∧
      (lateEntry.after.outbox.get? "o3").map (·.state) = some .executing := by decide +kernel
  obtain ⟨hcampaign, hbefore, hafter⟩ := hrows
  obtain ⟨campaign, hcampaign, hfailed⟩ := Option.map_eq_some_iff.mp hcampaign
  obtain ⟨row, hrow, hfields⟩ := Option.map_eq_some_iff.mp hbefore
  obtain ⟨row', hrow', hexecuting⟩ := Option.map_eq_some_iff.mp hafter
  rw [Prod.mk.injEq] at hfields
  have hid : row.operationId = "o3" := Table.key_of_get? hrow
  exact ⟨campaign, row, row', by rw [hfields.1, hcampaign], by rw [hfailed]; decide,
    by rw [hid, hrow], hfields.2, by rw [hid, hrow'], hexecuting⟩

open Sample in
theorem dead_campaigns_hold_no_lease_sample :
    Released leasedRun.2 ∧ ∀ e ∈ leasedRun.1, Released e.after :=
  dead_campaigns_hold_no_lease (foldTransactions_run leasedRun_fold) leasedRun_live

open Sample in
/-- A read-only lease is granted after the campaign was cancelled. -/
theorem late_reader : StoreRun readerRun.1 readerRun.2 ∧ ¬ Released readerRun.2 := by
  refine ⟨readerRun_run, fun hreleased => ?_⟩
  have hrows : (readerRun.2.campaigns.get? "c").map (·.snapshot.state) = some .cancelled ∧
      (readerRun.2.activeLeases.map fun l => (l.leaseId, l.campaignId)) = [("l2", "c")] := by
    decide +kernel
  obtain ⟨hcampaign, hleases⟩ := hrows
  obtain ⟨campaign, hcampaign, hcancelled⟩ := Option.map_eq_some_iff.mp hcampaign
  obtain ⟨l, hl, hfields⟩ := List.mem_map.mp (hleases ▸ List.mem_singleton_self ("l2", "c"))
  rw [Prod.mk.injEq] at hfields
  refine hreleased l hl campaign (by rw [hfields.2, hcampaign]) ?_
  rw [hcancelled]
  decide

end CodingOS.Store
