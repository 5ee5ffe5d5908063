import CodingOS.Campaign.Projection
import CodingOS.Store.Run

/-!
# Event sourcing

The log of a campaign is the whole truth about it: in every reached database the stored snapshot is
the fold of `reduce` over the events of the campaign, their revisions count from one without a gap,
and the rows of nodes and findings are the projection of that snapshot.

`Sourced` is the invariant.  It is kept by the three things a transaction can do to the lifecycle
(`LifecycleChange`), whichever transaction does it.
-/

namespace CodingOS.Store

open CodingOS.Python CodingOS.Campaign Systems

theorem fst_map_eq_ok {α β : Type} {x : Result (α × β)} {a : α} :
    Prod.fst <$> x = .ok a ↔ ∃ b, x = .ok (a, b) := by
  cases x with
  | error e => simp [Functor.map, Except.map]
  | ok r => simp [Functor.map, Except.map, Prod.ext_iff]

section Sourcing

variable [Runtime]

/-! ### Folding the log -/

/-- The event rows of a campaign, in the order they were inserted. -/
def Db.eventLog (db : Db) (campaignId : String) : List EventRow :=
  db.events.rows.filter (·.campaignId == campaignId)

/-- `reduce` folded over events, from the initial snapshot of a specification. -/
def replay (spec : CampaignSpec) (events : List Event) : Result CampaignSnapshot := do
  let snapshot ← CampaignSnapshot.initial spec
  events.foldlM (fun snapshot event => Prod.fst <$> reduce snapshot event) snapshot

section Replay

variable {spec : CampaignSpec} {events : List Event} {s s' : CampaignSnapshot} {e : Event}
  {effects : List ExternalEffectIntent}

theorem replay_eq_ok : replay spec events = .ok s ↔ ∃ s₀, CampaignSnapshot.initial spec = .ok s₀ ∧
    events.foldlM (fun snapshot event => Prod.fst <$> reduce snapshot event) s₀ = .ok s := by
  simp only [replay, bind_eq_ok]

theorem replay_snoc : replay spec (events ++ [e]) = .ok s' ↔
    ∃ s effects, replay spec events = .ok s ∧ reduce s e = .ok (s', effects) := by
  simp only [replay_eq_ok, List.foldlM_append, List.foldlM_cons, List.foldlM_nil, bind_eq_ok,
    pure_eq_ok, fst_map_eq_ok]
  constructor
  · rintro ⟨s₀, hinit, s, hfold, _, ⟨effects, hreduce⟩, rfl⟩
    exact ⟨s, effects, ⟨s₀, hinit, hfold⟩, hreduce⟩
  · rintro ⟨s, effects, ⟨s₀, hinit, hfold⟩, hreduce⟩
    exact ⟨s₀, hinit, s, hfold, s', ⟨effects, hreduce⟩, rfl⟩

/-- A fold that raised nothing is a run of the reducer over its events. -/
theorem replay_run (h : replay spec events = .ok s) :
    ∃ history, CampaignRun spec history s ∧ history.map (·.label.event) = events := by
  induction events using List.reverseRecOn generalizing s with
  | nil =>
      obtain ⟨s₀, hinit, hfold⟩ := replay_eq_ok.mp h
      obtain rfl := pure_eq_ok.mp hfold
      exact ⟨[], ⟨s₀, hinit, .start⟩, rfl⟩
  | append_singleton events e ih =>
      obtain ⟨s₁, effects, hreplay, hreduce⟩ := replay_snoc.mp h
      obtain ⟨history, ⟨s₀, hinit, hrun⟩, hevents⟩ := ih hreplay
      have hstep : reduceStep s₁ ⟨e, effects⟩ s := hreduce
      exact ⟨_, ⟨s₀, hinit, hrun.snoc hstep⟩, by simp [hevents]⟩

/-- The reducer accepts the reloaded snapshot exactly as the one that was stored. -/
theorem reduce_reload (h : replay spec events = .ok s)
    (hreduce : reduce s.reload e = .ok (s', effects)) :
    s.reload = s ∧ reduce s e = .ok (s', effects) := by
  obtain ⟨history, hrun, -⟩ := replay_run h
  have hlive : s.state ∉ terminalCampaignStates := (reduce_accepted hreduce).live
  have hreload := hrun.reload_eq hlive
  exact ⟨hreload, hreload ▸ hreduce⟩

end Replay

/-! ### The projections -/

section Projections

variable {s : CampaignSnapshot} {nodes : Table NodeRow.key} {findings findings' : Table FindingRow.key}

theorem nodeRows_keys :
    (nodeRows s).map NodeRow.key = s.nodes.map fun n => (s.spec.campaignId, n.nodeId) := by
  simp [nodeRows, NodeRow.key, NodeRow.project, Function.comp_def]

theorem nodeRows_nodup : ((nodeRows s).map NodeRow.key).Nodup := by
  have hpair : s.nodes.map (fun n => (s.spec.campaignId, n.nodeId))
      = (s.nodes.map (·.nodeId)).map fun id => (s.spec.campaignId, id) := by simp
  rw [nodeRows_keys, hpair]
  exact s.nodes_nodup.map fun a b h => (Prod.mk.inj h).2

theorem campaignId_of_nodeRows {r : NodeRow} (hr : r ∈ nodeRows s) :
    r.campaignId = s.spec.campaignId := by
  obtain ⟨n, -, rfl⟩ := List.mem_map.mp hr
  rfl

theorem campaignId_of_findingRows {r : FindingRow} (hr : r ∈ findingRows s) :
    r.campaignId = s.spec.campaignId := by
  simp only [findingRows, List.mem_flatMap, List.mem_map] at hr
  obtain ⟨n, -, f, -, rfl⟩ := hr
  rfl

/-- `_sync_snapshot` leaves exactly the rows of the snapshot for its campaign, provided the rows that
were there are of nodes the snapshot has, and touches no other campaign. -/
theorem mem_upsert_nodeRows (hold : ∀ r ∈ nodes.rows, r.campaignId = s.spec.campaignId →
      r.nodeId ∈ s.nodes.map (·.nodeId)) (r : NodeRow) :
    r ∈ (nodes.upsertAll (nodeRows s)).rows ↔
      if r.campaignId = s.spec.campaignId then r ∈ nodeRows s else r ∈ nodes.rows := by
  rw [Table.mem_upsertAll nodeRows_nodup, nodeRows_keys]
  split
  · next hcampaign =>
      refine ⟨fun h => ?_, .inl⟩
      rcases h with hr | ⟨hr, hnew⟩
      · exact hr
      · obtain ⟨n, hn, hid⟩ := List.mem_map.mp (hold r hr hcampaign)
        exact absurd (List.mem_map.mpr ⟨n, hn, by rw [NodeRow.key, hcampaign, hid]⟩) hnew
  · next hcampaign =>
      refine ⟨fun h => ?_, fun hr => .inr ⟨hr, fun hkey => ?_⟩⟩
      · rcases h with hr | ⟨hr, -⟩
        · exact absurd (campaignId_of_nodeRows hr) hcampaign
        · exact hr
      · obtain ⟨n, -, hkey⟩ := List.mem_map.mp hkey
        exact hcampaign (congrArg Prod.fst hkey).symm

theorem mem_replace_findingRows
    (h : (findings.delete (·.campaignId == s.spec.campaignId)).insertAll? (findingRows s)
      = some findings') (r : FindingRow) :
    r ∈ findings'.rows ↔
      if r.campaignId = s.spec.campaignId then r ∈ findingRows s else r ∈ findings.rows := by
  rw [Table.insertAll?_eq_some h, List.mem_append, Table.mem_delete]
  split
  · next hcampaign => simp [hcampaign]
  · next hcampaign =>
      have hother : r ∉ findingRows s := fun hr => hcampaign (campaignId_of_findingRows hr)
      simp [hcampaign, hother]

/-- The findings of one node have distinct keys. -/
theorem findingKeys_nodup {n : NodeSnapshot} (hn : Stored n) :
    ((n.findings ++ n.closureFindings).map fun f =>
      (s.spec.campaignId, n.nodeId, f.findingId, f.origin)).Nodup := by
  have hphase : ∀ {origin : FindingOrigin} {fs : List Finding}, OfPhase origin fs →
      (fs.map fun f => (s.spec.campaignId, n.nodeId, f.findingId, f.origin)).Nodup := by
    intro origin fs hfs
    refine List.Nodup.of_map (fun key => key.2.2.1) ?_
    rw [List.map_map]
    exact hfs.nodup
  rw [List.map_append]
  refine (hphase hn.findings).append (hphase hn.closureFindings) fun key hkey hkey' => ?_
  obtain ⟨f, hf, rfl⟩ := List.mem_map.mp hkey
  obtain ⟨f', hf', heq⟩ := List.mem_map.mp hkey'
  have horigin : f'.origin = f.origin := congrArg (fun key => key.2.2.2) heq
  rw [hn.findings.origin_eq f hf, hn.closureFindings.origin_eq f' hf'] at horigin
  cases horigin

theorem findingRows_nodup (hstored : ∀ n ∈ s.nodes, Stored n) :
    ((findingRows s).map FindingRow.key).Nodup := by
  rw [findingRows, List.map_flatMap]
  refine List.nodup_flatMap.mpr ⟨fun n hn => ?_, ?_⟩
  · rw [List.map_map]
    exact findingKeys_nodup (hstored n hn)
  · have hids := s.nodes_nodup
    rw [List.Nodup, List.pairwise_map] at hids
    refine hids.imp fun hne key hkey hkey' => hne ?_
    simp only [List.map_map, List.mem_map] at hkey hkey'
    obtain ⟨f, -, rfl⟩ := hkey
    obtain ⟨f', -, heq⟩ := hkey'
    exact (congrArg (fun key => key.2.1) heq).symm

/-- **The findings of a reached snapshot never collide**: their insert succeeds. -/
theorem insert_findings (findings : Table FindingRow.key) (hstored : ∀ n ∈ s.nodes, Stored n) :
    ∃ findings', (findings.delete (·.campaignId == s.spec.campaignId)).insertAll? (findingRows s)
      = some findings' := by
  obtain ⟨findings', h, -⟩ := Table.exists_insertAll? (findingRows_nodup hstored)
    (t := findings.delete (·.campaignId == s.spec.campaignId)) (fun r hr => by
      rw [Table.get?_eq_none]
      intro old hold hkey
      rw [Table.mem_delete] at hold
      have hcampaign : old.campaignId = s.spec.campaignId :=
        (congrArg Prod.fst hkey).trans (campaignId_of_findingRows hr)
      simp [hcampaign] at hold)
  exact ⟨findings', h⟩

end Projections

/-! ### The invariant -/

/-- A campaign row against the log and the projections. -/
structure SourcedRow (db : Db) (row : CampaignRow) : Prop where
  identity : row.spec.campaignId = row.campaignId
  folded : replay row.spec ((db.eventLog row.campaignId).map (·.event)) = .ok row.snapshot
  revisions : (db.eventLog row.campaignId).map (·.revision) = List.range' 1 row.storeRevision
  state : row.state = row.snapshot.state
  revision : row.storeRevision = row.snapshot.revision
  authority : row.authorityEpoch = row.snapshot.authorityEpoch
  cancellation : row.cancellationEpoch = row.snapshot.cancellationEpoch
  nodes : ∀ r : NodeRow, r.campaignId = row.campaignId →
    (r ∈ db.nodes.rows ↔ r ∈ nodeRows row.snapshot)
  findings : ∀ r : FindingRow, r.campaignId = row.campaignId →
    (r ∈ db.findings.rows ↔ r ∈ findingRows row.snapshot)

/-- Every row of the lifecycle belongs to a campaign, and every campaign follows its log. -/
structure Sourced (db : Db) : Prop where
  requested : ∀ r ∈ db.events.rows, db.requested r.eventId
  events : ∀ r ∈ db.events.rows, (db.campaigns.get? r.campaignId).isSome
  nodes : ∀ r ∈ db.nodes.rows, (db.campaigns.get? r.campaignId).isSome
  findings : ∀ r ∈ db.findings.rows, (db.campaigns.get? r.campaignId).isSome
  campaigns : ∀ id row, db.campaigns.get? id = some row → SourcedRow db row

section Invariant

variable {db db' : Db} {row : CampaignRow} {event : Event} {next : CampaignSnapshot}
  {effects : List ExternalEffectIntent}

theorem SourcedRow.run (h : SourcedRow db row) :
    ∃ history, CampaignRun row.spec history row.snapshot ∧
      history.map (·.label.event) = (db.eventLog row.campaignId).map (·.event) := replay_run h.folded

theorem SourcedRow.spec_eq (h : SourcedRow db row) : row.snapshot.spec = row.spec := by
  obtain ⟨history, hrun, -⟩ := h.run
  exact hrun.spec_eq

theorem SourcedRow.campaignId_eq (h : SourcedRow db row) :
    row.snapshot.spec.campaignId = row.campaignId := by
  rw [h.spec_eq, h.identity]

/-- A row of a campaign whose log and projections a transaction left alone. -/
theorem SourcedRow.congr (h : SourcedRow db row)
    (hevents : db'.eventLog row.campaignId = db.eventLog row.campaignId)
    (hnodes : ∀ r : NodeRow, r.campaignId = row.campaignId →
      (r ∈ db'.nodes.rows ↔ r ∈ db.nodes.rows))
    (hfindings : ∀ r : FindingRow, r.campaignId = row.campaignId →
      (r ∈ db'.findings.rows ↔ r ∈ db.findings.rows)) : SourcedRow db' row where
  identity := h.identity
  folded := hevents ▸ h.folded
  revisions := hevents ▸ h.revisions
  state := h.state
  revision := h.revision
  authority := h.authority
  cancellation := h.cancellation
  nodes r hr := (hnodes r hr).trans (h.nodes r hr)
  findings r hr := (hfindings r hr).trans (h.findings r hr)

theorem Sourced.quiet (h : Sourced db) (hsame : db'.lifecycle = db.lifecycle) (hkept : Kept db db') :
    Sourced db' := by
  simp only [Db.lifecycle, Lifecycle.mk.injEq] at hsame
  obtain ⟨hcampaigns, hnodes, hfindings, hevents⟩ := hsame
  refine ⟨fun r hr => ?_, ?_, ?_, ?_, fun id row hrow => ?_⟩
  · rw [hevents] at hr
    exact hkept.requested (h.requested r hr)
  · rw [hevents, hcampaigns]
    exact h.events
  · rw [hnodes, hcampaigns]
    exact h.nodes
  · rw [hfindings, hcampaigns]
    exact h.findings
  · rw [hcampaigns] at hrow
    refine (h.campaigns id row hrow).congr ?_ (fun r _ => by rw [hnodes]) fun r _ => by rw [hfindings]
    rw [Db.eventLog, Db.eventLog, hevents]

/-- The rows `_sync_snapshot` leaves belong to campaigns. -/
theorem synced_owned {nodes : Table NodeRow.key} {findings findings' : Table FindingRow.key}
    {P : String → Prop} (hnodes : ∀ r ∈ nodes.rows, P r.campaignId)
    (hfindings : ∀ r ∈ findings.rows, P r.campaignId) (hP : P next.spec.campaignId)
    (hinsert : (findings.delete (·.campaignId == next.spec.campaignId)).insertAll?
      (findingRows next) = some findings') :
    (∀ r ∈ (nodes.upsertAll (nodeRows next)).rows, P r.campaignId) ∧
      ∀ r ∈ findings'.rows, P r.campaignId := by
  constructor
  · intro r hr
    rw [Table.mem_upsertAll nodeRows_nodup] at hr
    rcases hr with hr | ⟨hr, -⟩
    · rw [campaignId_of_nodeRows hr]
      exact hP
    · exact hnodes r hr
  · intro r hr
    rw [mem_replace_findingRows hinsert] at hr
    split at hr
    · next hcampaign =>
        rw [hcampaign]
        exact hP
    · exact hfindings r hr

theorem Sourced.created {spec : CampaignSpec} (h : Sourced db) (hc : Created db spec next db') :
    Sourced db' := by
  have hspec := (initial_eq_ok hc.initial).1
  obtain ⟨hfree, -⟩ := Table.insert?_eq_some.mp hc.campaigns
  have hcampaigns : ∀ id, db'.campaigns.get? id = if id = spec.campaignId then
      some (.ofSpec spec next) else db.campaigns.get? id := fun id => Table.get?_insert? hc.campaigns
  have hgrown : ∀ id, (db.campaigns.get? id).isSome → (db'.campaigns.get? id).isSome := by
    intro id hid
    rw [hcampaigns]
    split
    · rfl
    · exact hid
  have hnone : ∀ id, (db.campaigns.get? id).isSome → id ≠ spec.campaignId := by
    rintro id hid rfl
    have hfree' : db.campaigns.get? spec.campaignId = none := hfree
    rw [hfree'] at hid
    cases hid
  have hnodes : ∀ r : NodeRow, r ∈ db'.nodes.rows ↔
      if r.campaignId = spec.campaignId then r ∈ nodeRows next else r ∈ db.nodes.rows := by
    intro r
    rw [hc.nodes, mem_upsert_nodeRows, hspec]
    intro r hr hcampaign
    exact absurd (hspec ▸ hcampaign) (hnone _ (h.nodes r hr))
  have hfindings : ∀ r : FindingRow, r ∈ db'.findings.rows ↔
      if r.campaignId = spec.campaignId then r ∈ findingRows next else r ∈ db.findings.rows := by
    intro r
    rw [mem_replace_findingRows hc.findings, hspec]
  have hnew : (db'.campaigns.get? next.spec.campaignId).isSome := by
    rw [hspec, hcampaigns, if_pos rfl]
    rfl
  have howned := synced_owned (P := fun id => (db'.campaigns.get? id).isSome)
    (fun r hr => hgrown _ (h.nodes r hr)) (fun r hr => hgrown _ (h.findings r hr)) hnew hc.findings
  refine ⟨fun r hr => ?_, fun r hr => ?_, hc.nodes ▸ howned.1, howned.2, fun id row hrow => ?_⟩
  · rw [hc.events] at hr
    exact hc.kept.requested (h.requested r hr)
  · rw [hc.events] at hr
    exact hgrown _ (h.events r hr)
  · have hlog : ∀ campaignId, db'.eventLog campaignId = db.eventLog campaignId := fun campaignId => by
      rw [Db.eventLog, Db.eventLog, hc.events]
    rw [hcampaigns] at hrow
    split at hrow
    · -- the new campaign has no event yet
      obtain rfl := Option.some.inj hrow
      have hempty : db'.eventLog spec.campaignId = [] := by
        rw [hlog, Db.eventLog, List.filter_eq_nil_iff]
        intro r hr hcampaign
        exact hnone _ (h.events r hr) (by simpa using hcampaign)
      have hrevision := (initial_eq_ok hc.initial).2.1
      refine ⟨rfl, ?_, ?_, rfl, rfl, rfl, rfl, fun r hr => ?_, fun r hr => ?_⟩
      · show replay spec ((db'.eventLog spec.campaignId).map (·.event)) = .ok next
        rw [hempty]
        exact replay_eq_ok.mpr ⟨next, hc.initial, rfl⟩
      · show (db'.eventLog spec.campaignId).map (·.revision) = List.range' 1 next.revision
        rw [hempty, hrevision]
        rfl
      · rw [hnodes, if_pos (show r.campaignId = spec.campaignId from hr)]
        rfl
      · rw [hfindings, if_pos (show r.campaignId = spec.campaignId from hr)]
        rfl
    · next hid =>
        have hother : row.campaignId ≠ spec.campaignId := by
          rw [Table.key_of_get? hrow]
          exact hid
        refine (h.campaigns id row hrow).congr (hlog _) (fun r hr => ?_) fun r hr => ?_
        · rw [hnodes, if_neg (hr ▸ hother)]
        · rw [hfindings, if_neg (hr ▸ hother)]

theorem EventApplied.log (h : EventApplied db event row next effects db') (campaignId : String) :
    ∃ digest, db'.eventLog campaignId = if event.campaignId = campaignId then
      db.eventLog campaignId ++ [.ofEvent event next digest] else db.eventLog campaignId := by
  obtain ⟨digest, hevents⟩ := h.events
  refine ⟨digest, ?_⟩
  rw [Db.eventLog, (Table.insert?_eq_some.mp hevents).2, List.filter_append, ← Db.eventLog]
  split
  · next hcampaign => simp [EventRow.ofEvent, hcampaign]
  · next hcampaign => simp [EventRow.ofEvent, hcampaign]

theorem Sourced.applied (h : Sourced db) (ha : EventApplied db event row next effects db') :
    Sourced db' := by
  have hrow := h.campaigns _ _ ha.row_eq
  have hid : row.campaignId = event.campaignId := Table.key_of_get? ha.row_eq
  obtain ⟨-, hreduce⟩ := reduce_reload hrow.folded ha.reduced
  have haccepted := reduce_accepted hreduce
  have hcampaign : next.spec.campaignId = event.campaignId := by
    rw [haccepted.spec_eq, hrow.campaignId_eq, hid]
  have hgrown : ∀ id, (db.campaigns.get? id).isSome → (db'.campaigns.get? id).isSome := by
    intro id hsome
    rw [ha.campaigns]
    split
    · rfl
    · exact hsome
  have hnew : (db'.campaigns.get? next.spec.campaignId).isSome := by
    rw [hcampaign, ha.campaigns, if_pos rfl]
    rfl
  have hnodes : ∀ r : NodeRow, r ∈ db'.nodes.rows ↔
      if r.campaignId = event.campaignId then r ∈ nodeRows next else r ∈ db.nodes.rows := by
    intro r
    rw [ha.nodes, mem_upsert_nodeRows, hcampaign]
    intro r hr hcampaign'
    obtain ⟨n, hn, rfl⟩ := List.mem_map.mp ((hrow.nodes r
      (by rw [hcampaign', hcampaign, hid])).mp hr)
    show n.nodeId ∈ next.nodes.map (·.nodeId)
    rw [next.node_ids, haccepted.spec_eq, ← row.snapshot.node_ids]
    exact List.mem_map_of_mem hn
  have hfindings : ∀ r : FindingRow, r ∈ db'.findings.rows ↔
      if r.campaignId = event.campaignId then r ∈ findingRows next else r ∈ db.findings.rows := by
    intro r
    rw [mem_replace_findingRows ha.findings, hcampaign]
  have howned := synced_owned (P := fun id => (db'.campaigns.get? id).isSome)
    (fun r hr => hgrown _ (h.nodes r hr)) (fun r hr => hgrown _ (h.findings r hr)) hnew ha.findings
  obtain ⟨digest, hevents⟩ := ha.events
  refine ⟨fun r hr => ?_, fun r hr => ?_, ha.nodes ▸ howned.1, howned.2, fun id row' hrow' => ?_⟩
  · rcases (Table.mem_insert? hevents).mp hr with hr | rfl
    · exact ha.kept.requested (h.requested r hr)
    · exact ha.requested
  · rcases (Table.mem_insert? hevents).mp hr with hr | rfl
    · exact hgrown _ (h.events r hr)
    · show (db'.campaigns.get? event.campaignId).isSome
      rw [ha.campaigns, if_pos rfl]
      rfl
  · rw [ha.campaigns] at hrow'
    split at hrow'
    · obtain rfl := Option.some.inj hrow'
      obtain ⟨digest, hlog⟩ := ha.log row.campaignId
      rw [if_pos hid.symm] at hlog
      have hlog' : db'.eventLog (row.advance next).campaignId
          = db.eventLog row.campaignId ++ [.ofEvent event next digest] := hlog
      refine ⟨hrow.identity, ?_, ?_, rfl, rfl, rfl, rfl, fun r hr => ?_, fun r hr => ?_⟩
      · rw [hlog', List.map_append]
        exact replay_snoc.mpr ⟨row.snapshot, effects, hrow.folded, hreduce⟩
      · rw [hlog', List.map_append, hrow.revisions, hrow.revision]
        show List.range' 1 row.snapshot.revision ++ [next.revision] = List.range' 1 next.revision
        rw [haccepted.revision_eq, List.range'_concat, Nat.one_mul, Nat.add_comm 1]
      · rw [hnodes, if_pos (hr.trans hid)]
        rfl
      · rw [hfindings, if_pos (hr.trans hid)]
        rfl
    · next hne =>
        have hother : row'.campaignId ≠ event.campaignId := by
          rw [Table.key_of_get? hrow']
          exact hne
        refine (h.campaigns id row' hrow').congr ?_ (fun r hr => ?_) fun r hr => ?_
        · obtain ⟨digest, hlog⟩ := ha.log row'.campaignId
          rw [hlog, if_neg (Ne.symm hother)]
        · rw [hnodes, if_neg (hr ▸ hother)]
        · rw [hfindings, if_neg (hr ▸ hother)]

/-- **Every transaction keeps the invariant.** -/
theorem Sourced.keep (h : Sourced db) (hchange : LifecycleChange db db') : Sourced db' := by
  cases hchange with
  | quiet hsame hkept => exact h.quiet hsame hkept
  | created hcreated => exact h.created hcreated
  | applied happlied => exact h.applied happlied

theorem sourced_run {history : List (Entry Db Transaction)} (h : StoreRun history db) :
    Sourced db := by
  refine h.invariant Sourced ?_ fun hinv hcommitted => hinv.keep hcommitted.lifecycle
  refine ⟨fun r hr => ?_, fun r hr => ?_, fun r hr => ?_, fun r hr => ?_, fun id row hrow => ?_⟩
  · cases hr
  · cases hr
  · cases hr
  · cases hr
  · cases hrow

end Invariant

/-! ### The law -/

/-- **Event sourcing** of one campaign. -/
structure EventSourced (db : Db) (row : CampaignRow) : Prop where
  /-- The revisions of its events count from one. -/
  revisions : (db.eventLog row.campaignId).map (·.revision)
    = List.range' 1 (db.eventLog row.campaignId).length
  /-- The stored snapshot is the fold of the log, and the projections are those of the fold. -/
  snapshot : ∃ s, replay row.spec ((db.eventLog row.campaignId).map (·.event)) = .ok s ∧
    row.snapshotJson = canonicalJson s.toDict ∧
    (row.state = s.state ∧ row.storeRevision = s.revision ∧ row.authorityEpoch = s.authorityEpoch ∧
      row.cancellationEpoch = s.cancellationEpoch) ∧
    (∀ r : NodeRow, r ∈ db.nodes.rows ∧ r.campaignId = row.campaignId ↔ r ∈ nodeRows s) ∧
    (∀ r : FindingRow, r ∈ db.findings.rows ∧ r.campaignId = row.campaignId ↔ r ∈ findingRows s)
  /-- What the reducer accepts can be projected: no finding collides. -/
  projects : ∀ event next effects, reduce row.snapshot.reload event = .ok (next, effects) →
    ∃ db', db.syncSnapshot next = .ok db'

/-- Event sourcing of a whole database. -/
structure StoreSourced (db : Db) : Prop where
  event_ids : (db.events.rows.map (·.eventId)).Nodup
  request_ids : (db.operations.rows.map (·.requestId)).Nodup
  requested : ∀ r ∈ db.events.rows, db.requested r.eventId
  nodes : ∀ r ∈ db.nodes.rows, ∃ row ∈ db.campaigns.rows, row.campaignId = r.campaignId
  findings : ∀ r ∈ db.findings.rows, ∃ row ∈ db.campaigns.rows, row.campaignId = r.campaignId
  events : ∀ r ∈ db.events.rows, ∃ row ∈ db.campaigns.rows, row.campaignId = r.campaignId
  campaigns : ∀ row ∈ db.campaigns.rows, EventSourced db row

theorem exists_row_of_isSome {db : Db} {id : String} (h : (db.campaigns.get? id).isSome) :
    ∃ row ∈ db.campaigns.rows, row.campaignId = id := by
  obtain ⟨row, hrow⟩ := Option.isSome_iff_exists.mp h
  exact ⟨row, Table.mem_of_get? hrow, Table.key_of_get? hrow⟩

theorem SourcedRow.eventSourced {db : Db} {row : CampaignRow} (h : SourcedRow db row) :
    EventSourced db row where
  revisions := by
    have hlength := congrArg List.length h.revisions
    rw [List.length_map, List.length_range'] at hlength
    rw [h.revisions, hlength]
  snapshot := by
    refine ⟨row.snapshot, h.folded, rfl, ⟨h.state, h.revision, h.authority, h.cancellation⟩,
      fun r => ⟨fun hr => (h.nodes r hr.2).mp hr.1, fun hr => ?_⟩,
      fun r => ⟨fun hr => (h.findings r hr.2).mp hr.1, fun hr => ?_⟩⟩
    · have hcampaign := (campaignId_of_nodeRows hr).trans h.campaignId_eq
      exact ⟨(h.nodes r hcampaign).mpr hr, hcampaign⟩
    · have hcampaign := (campaignId_of_findingRows hr).trans h.campaignId_eq
      exact ⟨(h.findings r hcampaign).mpr hr, hcampaign⟩
  projects := by
    intro event next effects hreduce
    obtain ⟨-, hreduce'⟩ := reduce_reload h.folded hreduce
    have hreplayed : replay row.spec ((db.eventLog row.campaignId).map (·.event) ++ [event])
        = .ok next := replay_snoc.mpr ⟨_, effects, h.folded, hreduce'⟩
    obtain ⟨history, hrun, -⟩ := replay_run hreplayed
    obtain ⟨findings', hfindings⟩ := insert_findings db.findings (stored_run hrun)
    refine ⟨{ db with nodes := db.nodes.upsertAll (nodeRows next), findings := findings' }, ?_⟩
    simp only [Db.syncSnapshot, uniqueViolation, hfindings, orRaise]
    rfl

/-- **Event sourcing of every reached database.** -/
theorem event_sourcing {history : List (Entry Db Transaction)} {db : Db} (h : StoreRun history db) :
    StoreSourced db where
  event_ids := db.events.keys_nodup
  request_ids := db.operations.keys_nodup
  requested := (sourced_run h).requested
  nodes r hr := exists_row_of_isSome ((sourced_run h).nodes r hr)
  findings r hr := exists_row_of_isSome ((sourced_run h).findings r hr)
  events r hr := exists_row_of_isSome ((sourced_run h).events r hr)
  campaigns row hrow := ((sourced_run h).campaigns _ row (Table.get?_key hrow)).eventSourced

end Sourcing

open Sample Campaign.Sample in
theorem event_sourcing_sample : StoreSourced storeRun.2 := event_sourcing storeRun_run

end CodingOS.Store
