import CodingOS.Campaign.Fencing
import CodingOS.Store.EventSourcing
import CodingOS.Store.Termination

/-!
# The lease table and the snapshots

The exclusive lease of a node is kept twice: in the snapshot of its campaign, as the actor and the
fence of the node, and in the table of leases, as an active row.  `acquire_lease` and `release_lease`
write both.  Some transactions write one side only: an event of a lease submitted by hand and
`ADVANCE_AUTHORITY` write the snapshot, a recovery writes the table, and the terminal events end all
rows of the campaign but clear only some of its nodes.

`lease_table_agrees`: the sides agree in every run in which those transactions meet no lease.
-/

namespace CodingOS.Store

open CodingOS.Python CodingOS.Campaign Systems

theorem not_dead_iff {state : CampaignState} :
    state ∉ deadCampaignStates ↔ state ≠ .failed ∧ state ≠ .cancelled := by
  cases state <;> decide

section Agreement

variable [Runtime]

/-! ### Leases across an event -/

section Events

variable {s s' : CampaignSnapshot} {e : Event} {effects : List ExternalEffectIntent}
  {m' : NodeSnapshot}

/-- While the campaign lives, the lease of every node follows `leaseOp`. -/
theorem lease_of_live (h : Accepted s e effects s') (hlive : s'.state ∉ deadCampaignStates)
    (hm' : m' ∈ s'.nodes) : ∃ m ∈ s.nodes, m.nodeId = m'.nodeId ∧
      m'.lease = LeaseOp.apply m.lease (leaseOp m.nodeId ⟨s, ⟨e, effects⟩, s'⟩) := by
  obtain ⟨s₁, hstep, rfl⟩ := h.step
  exact hstep.lease rfl (not_dead_iff.mp hlive) hm'

/-- A lease the snapshot of a dead campaign keeps is one of a node that had ended, or of a node other
than the one that failed. -/
theorem lease_of_dead (h : Accepted s e effects s') (hdead : s'.state ∈ deadCampaignStates)
    (hm' : m' ∈ s'.nodes) (hlease : m'.leaseActorId ≠ none) :
    ∃ m ∈ s.nodes, m.leaseActorId ≠ none ∧
      ((e.eventType = .cancel ∧ m.state ∈ terminalNodeStates) ∨
        (s'.state = .failed ∧ ∃ n, Names s e n ∧ m.nodeId ≠ n.nodeId)) := by
  have hended : s'.state = .failed ∨ s'.state = .cancelled := by
    simpa [deadCampaignStates] using hdead
  rcases hended with hfailed | hcancelled
  · obtain ⟨n, closed, reason, hn, hmove, heq⟩ := h.failed hfailed
    have hnodes : s'.nodes = (s.replaceNode (closed.failed reason)).nodes := by rw [heq]; rfl
    rw [hnodes] at hm'
    rcases CampaignSnapshot.mem_replaceNode hm' with rfl | ⟨hm, hne⟩
    · exact absurd rfl hlease
    · have hid : (closed.failed reason).nodeId = n.nodeId := by cases hmove <;> rfl
      exact ⟨m', hm, hlease, .inr ⟨hfailed, n, hn, hid ▸ hne⟩⟩
  · have ht := h.cancelled hcancelled
    rw [(h.cancel_eq ht).2] at hm'
    obtain ⟨m, hm, rfl⟩ := List.mem_map.mp hm'
    unfold cancelNode at hlease
    split at hlease
    · next hterminal => exact ⟨m, hm, hlease, .inl ⟨ht, by simpa using hterminal⟩⟩
    · exact absurd rfl hlease

end Events

/-! ### The two sides -/

/-- `l` is active, and the role of its actor is exclusive. -/
structure ExclusiveLease (db : Db) (l : LeaseRow) : Prop where
  active : l ∈ db.activeLeases
  role : ∃ role ∈ exclusiveActorRoles, db.leaseRole l = some role

/-- The table of leases says that `g.1` holds a node with fence `g.2`. -/
def HeldBy (db : Db) (campaignId nodeId : String) (g : String × ℕ) : Prop :=
  ∃ l, ExclusiveLease db l ∧ l.campaignId = campaignId ∧ l.nodeId = nodeId ∧
    (l.actorId, l.fencingEpoch) = g

/-- Every active lease is one of a campaign, and the exclusive ones are those of the snapshots. -/
structure Agree (db : Db) : Prop where
  housed : ∀ l ∈ db.activeLeases, (db.campaigns.get? l.campaignId).isSome
  leases : ∀ id row, db.campaigns.get? id = some row → ∀ n ∈ row.snapshot.nodes, ∀ g,
    n.lease = some g ↔ HeldBy db id n.nodeId g

/-- The transactions that write one side of a lease meet none. -/
structure KeepsLeases (db : Db) (t : Transaction) : Prop where
  /-- The events of leases come from `acquire_lease` and `release_lease`. -/
  plain : ∀ event, t.carries event → db.operations.get? event.eventId = none →
    event.eventType ≠ .acquireLease ∧ event.eventType ≠ .releaseLease
  /-- The authority epoch advances while no node is leased. -/
  advancing : ∀ event s m, t.carries event → db.operations.get? event.eventId = none →
    event.eventType = .advanceAuthority → db.loadSnapshot event.campaignId = .ok s → m ∈ s.nodes →
    m.leaseActorId = none
  /-- A campaign fails while no other node than the failing one is leased. -/
  failing : ∀ event s next effects n m, t.carries event →
    db.operations.get? event.eventId = none → db.loadSnapshot event.campaignId = .ok s →
    reduce s event = .ok (next, effects) → next.state = .failed → Names s event n → m ∈ s.nodes →
    m.nodeId ≠ n.nodeId → m.leaseActorId = none
  /-- A campaign is cancelled while no node that has ended is leased. -/
  cancelling : ∀ event s m, t.carries event → db.operations.get? event.eventId = none →
    event.eventType = .cancel → db.loadSnapshot event.campaignId = .ok s → m ∈ s.nodes →
    m.state ∈ terminalNodeStates → m.leaseActorId = none
  /-- A recovery finds no exclusive lease. -/
  recovering : ∀ retained l, t = .recoverAfterRestart retained → ¬ ExclusiveLease db l

variable {db db' : Db} {t : Transaction}

/-- A lease that stays active stays exclusive, or not. -/
theorem AuthorityStep.exclusive_iff (h : AuthorityStep db t db') (hstaffed : Staffed db) {l : LeaseRow}
    (hl : l ∈ db.activeLeases) (hl' : l ∈ db'.activeLeases) :
    ExclusiveLease db' l ↔ ExclusiveLease db l := by
  obtain ⟨role, hrole⟩ := hstaffed.held l hl
  have hrole' := h.leaseRole hrole
  constructor
  · rintro ⟨-, other, hmem, heq⟩
    rw [hrole', Option.some.injEq] at heq
    exact ⟨hl, role, heq ▸ hmem, hrole⟩
  · rintro ⟨-, other, hmem, heq⟩
    rw [hrole, Option.some.injEq] at heq
    exact ⟨hl', role, heq ▸ hmem, hrole'⟩

/-- The table's side after a step that grants nothing: the rows it left active are those `p` tells. -/
theorem AuthorityStep.heldBy_iff (h : AuthorityStep db t db') (hstaffed : Staffed db)
    {p : LeaseRow → Prop} (hrows : ∀ l, l ∈ db'.activeLeases ↔ l ∈ db.activeLeases ∧ p l)
    (id k : String) (g : String × ℕ) : HeldBy db' id k g ↔
      ∃ l, (ExclusiveLease db l ∧ p l) ∧ l.campaignId = id ∧ l.nodeId = k ∧
        (l.actorId, l.fencingEpoch) = g := by
  constructor
  · rintro ⟨l, hl, hplace⟩
    obtain ⟨hold, hp⟩ := (hrows l).mp hl.active
    exact ⟨l, ⟨(h.exclusive_iff hstaffed hold hl.active).mp hl, hp⟩, hplace⟩
  · rintro ⟨l, ⟨hl, hp⟩, hplace⟩
    have hnew := (hrows l).mpr ⟨hl.active, hp⟩
    exact ⟨l, (h.exclusive_iff hstaffed hl.active hnew).mpr hl, hplace⟩

/-- A step that ends no exclusive lease and grants none leaves the table's side alone. -/
theorem AuthorityStep.heldBy_same (h : AuthorityStep db t db') (hstaffed : Staffed db)
    {p : LeaseRow → Prop} (hrows : ∀ l, l ∈ db'.activeLeases ↔ l ∈ db.activeLeases ∧ p l)
    (hkept : ∀ l, ExclusiveLease db l → p l) (id k : String) (g : String × ℕ) :
    HeldBy db' id k g ↔ HeldBy db id k g := by
  rw [h.heldBy_iff hstaffed hrows]
  exact exists_congr fun l => and_congr_left fun _ => ⟨And.left, fun hl => ⟨hl, hkept l hl⟩⟩

/-- The table's side after a grant. -/
theorem Granted.heldBy_iff {r : LeaseRequest} {s : CampaignSnapshot} {n : NodeSnapshot} {fence : ℕ}
    (hgranted : Granted db r s n fence db') (hstaffed : Staffed db) (id k : String)
    (g : String × ℕ) : HeldBy db' id k g ↔ HeldBy db id k g ∨
      (r.actor.role ∈ exclusiveActorRoles ∧ r.campaignId = id ∧ r.nodeId = k ∧
        (r.actor.actorId, fence) = g) := by
  have hstep : AuthorityStep db (.acquireLease r) db' := .granted rfl hgranted
  obtain ⟨lease, hgrants, hfree, hrows⟩ := hgranted.enrolled.leases
  have hrole := hgranted.leaseRole hstaffed hgrants
  have hnew : lease ∈ db'.activeLeases :=
    Db.mem_activeLeases.mpr ⟨(hrows lease).mpr (.inr rfl), hgrants.state⟩
  have hstays : ∀ l ∈ db.activeLeases, l ∈ db'.activeLeases := fun l hl =>
    Db.mem_activeLeases.mpr ⟨(hrows l).mpr (.inl (Db.mem_activeLeases.mp hl).1),
      (Db.mem_activeLeases.mp hl).2⟩
  constructor
  · rintro ⟨l, hl, hcampaign, hnode, hg⟩
    rcases (hrows l).mp (Db.mem_activeLeases.mp hl.active).1 with hold | rfl
    · have hactive : l ∈ db.activeLeases :=
        Db.mem_activeLeases.mpr ⟨hold, (Db.mem_activeLeases.mp hl.active).2⟩
      exact .inl ⟨l, (hstep.exclusive_iff hstaffed hactive hl.active).mp hl, hcampaign, hnode, hg⟩
    · obtain ⟨role, hmem, heq⟩ := hl.role
      rw [hrole, Option.some.injEq] at heq
      exact .inr ⟨heq ▸ hmem, hgrants.campaignId.symm.trans hcampaign, hgrants.nodeId.symm.trans hnode,
        by rw [← hg, hgrants.actorId, hgrants.fencingEpoch]⟩
  · rintro (⟨l, hl, hplace⟩ | ⟨hexclusive, hcampaign, hnode, hg⟩)
    · exact ⟨l, (hstep.exclusive_iff hstaffed hl.active (hstays l hl.active)).mpr hl, hplace⟩
    · exact ⟨lease, ⟨hnew, _, hexclusive, hrole⟩, hgrants.campaignId.trans hcampaign,
        hgrants.nodeId.trans hnode, by rw [← hg, hgrants.actorId, hgrants.fencingEpoch]⟩

/-! ### One step -/

/-- A step that moves no campaign. -/
theorem Agree.of_quiet (h : Agree db) (hsame : db'.lifecycle = db.lifecycle)
    (hactive : ∀ l ∈ db'.activeLeases, l ∈ db.activeLeases ∨ (db.campaigns.get? l.campaignId).isSome)
    (hheld : ∀ id k g, HeldBy db' id k g ↔ HeldBy db id k g) : Agree db' := by
  have hcampaigns : db'.campaigns = db.campaigns := congrArg Lifecycle.campaigns hsame
  refine ⟨fun l hl => ?_, fun id row hrow n hn g => ?_⟩
  · rw [hcampaigns]
    exact (hactive l hl).elim (h.housed l) fun hsome => hsome
  · rw [hheld]
    exact h.leases id row (hcampaigns ▸ hrow) n hn g

/-- A step that applies an event. -/
theorem Agree.of_event (h : Agree db) {event : Event} {row : CampaignRow} {next : CampaignSnapshot}
    {effects : List ExternalEffectIntent} (happlied : EventApplied db event row next effects db')
    (hactive : ∀ l ∈ db'.activeLeases, l ∈ db.activeLeases ∨ l.campaignId = event.campaignId)
    (hother : ∀ id k g, id ≠ event.campaignId → (HeldBy db' id k g ↔ HeldBy db id k g))
    (hnodes : ∀ n ∈ next.nodes, ∀ g, n.lease = some g ↔ HeldBy db' event.campaignId n.nodeId g) :
    Agree db' := by
  refine ⟨fun l hl => ?_, fun id row' hrow' n hn g => ?_⟩
  · rw [happlied.campaigns]
    split
    · rfl
    · next hne => exact (hactive l hl).elim (h.housed l) fun heq => absurd heq hne
  · rw [happlied.campaigns] at hrow'
    split at hrow'
    · next heq =>
        obtain rfl := Option.some.inj hrow'
        rw [heq]
        exact hnodes n hn g
    · next hne =>
        rw [hother id _ g hne]
        exact h.leases id row' hrow' n hn g

theorem activeLeases_iff {p : LeaseRow → Prop}
    (h : ∀ l : LeaseRow, l.state = .active → (l ∈ db'.leases.rows ↔ l ∈ db.leases.rows ∧ p l))
    (l : LeaseRow) : l ∈ db'.activeLeases ↔ l ∈ db.activeLeases ∧ p l := by
  rw [Db.mem_activeLeases, Db.mem_activeLeases]
  constructor
  · rintro ⟨hmem, hactive⟩
    obtain ⟨hold, hp⟩ := (h l hactive).mp hmem
    exact ⟨⟨hold, hactive⟩, hp⟩
  · rintro ⟨⟨hold, hactive⟩, hp⟩
    exact ⟨(h l hactive).mpr ⟨hold, hp⟩, hactive⟩

/-- A step that moves no campaign and leaves the rows of leases alone. -/
theorem Agree.of_frame (h : Agree db) (hstaffed : Staffed db) (hstep : AuthorityStep db t db')
    (hsame : db'.lifecycle = db.lifecycle) (hleases : db'.leases = db.leases) : Agree db' := by
  have hrows : ∀ l, l ∈ db'.activeLeases ↔ l ∈ db.activeLeases ∧ True := by
    intro l
    rw [Db.activeLeases, hleases, and_true, Db.activeLeases]
  exact h.of_quiet hsame (fun l hl => .inl ((hrows l).mp hl).1)
    (hstep.heldBy_same hstaffed hrows fun _ _ => trivial)

/-- The event was accepted in the stored snapshot, which is the reloaded one. -/
theorem Sourced.accepted (h : Sourced db) {event : Event} {row : CampaignRow}
    {next : CampaignSnapshot} {effects : List ExternalEffectIntent}
    (happlied : EventApplied db event row next effects db') :
    db.loadSnapshot event.campaignId = .ok row.snapshot ∧
      reduce row.snapshot event = .ok (next, effects) := by
  obtain ⟨hreload, hreduce⟩ :=
    reduce_reload (h.campaigns _ _ happlied.row_eq).folded happlied.reduced
  refine ⟨?_, hreduce⟩
  rw [Db.loadSnapshot, happlied.row_eq]
  exact congrArg Except.ok hreload

/-- A carried event keeps the sides together. -/
theorem Agree.applied (h : Agree db) (hsourced : Sourced db) (hstaffed : Staffed db)
    (hkeeps : KeepsLeases db t) {event : Event} {row : CampaignRow} {next : CampaignSnapshot}
    {effects : List ExternalEffectIntent} (hcarries : t.carries event)
    (happlied : EventApplied db event row next effects db')
    (hauthority : db'.authority = settledAuthority db.authority event next) : Agree db' := by
  have hstep : AuthorityStep db t db' := .settled hcarries happlied hauthority
  obtain ⟨hload, hreduce⟩ := hsourced.accepted happlied
  have haccepted := reduce_accepted hreduce
  have hrows : ∀ l, l ∈ db'.activeLeases ↔ l ∈ db.activeLeases ∧
      (event.eventType = .cancel ∨ next.state = .failed → l.campaignId ≠ event.campaignId) :=
    activeLeases_iff fun l hl => by
      rw [show db'.leases = _ from congrArg Authority.leases hauthority]
      exact mem_settledAuthority hl
  refine h.of_event happlied (fun l hl => .inl ((hrows l).mp hl).1) (fun id k g hid => ?_)
    fun n hn g => ?_
  · rw [hstep.heldBy_iff hstaffed hrows]
    refine exists_congr fun l => ⟨fun hheld => hheld.imp_left And.left, fun hheld => ?_⟩
    exact ⟨⟨hheld.1, fun _ => by rw [hheld.2.1]; exact hid⟩, hheld.2⟩
  · by_cases hdead : next.state ∈ deadCampaignStates
    · -- the campaign ended: neither side has a lease of it
      have hended : event.eventType = .cancel ∨ next.state = .failed := by
        have hstates : next.state = .failed ∨ next.state = .cancelled := by
          simpa [deadCampaignStates] using hdead
        exact hstates.symm.imp haccepted.cancelled fun hfailed => hfailed
      rw [hstep.heldBy_iff hstaffed hrows]
      refine ⟨fun hlease => ?_, ?_⟩
      swap
      · rintro ⟨_, ⟨_, hp⟩, hcampaign, -⟩
        exact absurd hcampaign (hp hended)
      have hheld : n.leaseActorId ≠ none := by
        intro hnone
        rw [NodeSnapshot.lease, hnone] at hlease
        cases hlease
      obtain ⟨m, hm, hmheld, ⟨ht, hterminal⟩ | ⟨hfailed, k, hk, hne⟩⟩ :=
        lease_of_dead haccepted hdead hn hheld
      · exact absurd (hkeeps.cancelling event _ m hcarries happlied.fresh ht hload hm hterminal) hmheld
      · exact absurd (hkeeps.failing event _ next effects k m hcarries happlied.fresh hload hreduce
          hfailed hk hm hne) hmheld
    · -- the campaign lives on: neither side moves
      obtain ⟨m, hm, hid, hlease⟩ := lease_of_live haccepted hdead hn
      obtain ⟨hacquire, hrelease⟩ := hkeeps.plain event hcarries happlied.fresh
      have hsame : n.lease = m.lease := by
        by_cases hadvance : event.eventType = .advanceAuthority
        · have hnone := hkeeps.advancing event _ m hcarries happlied.fresh hadvance hload hm
          rw [hlease, NodeSnapshot.lease, hnone]
          simp [leaseOp, hadvance, LeaseOp.apply, not_dead_iff.mp hdead]
        · rw [hlease, leaseOp_skip (not_dead_iff.mp hdead) hadvance (.inl ⟨hrelease, hacquire⟩)]
          rfl
      have hlive : ¬ (event.eventType = .cancel ∨ next.state = .failed) := by
        rintro (hcancel | hfailed)
        · exact (not_dead_iff.mp hdead).2 (haccepted.cancel_eq hcancel).1
        · exact (not_dead_iff.mp hdead).1 hfailed
      rw [hstep.heldBy_same hstaffed hrows fun l _ hended => absurd hended hlive, hsame, ← hid]
      exact h.leases _ row happlied.row_eq m hm g

/-- The lease operation of an event of a lease. -/
theorem leaseOp_of_lease {s s' : CampaignSnapshot} {e : Event} {effects : List ExternalEffectIntent}
    {k : String} (hlive : s'.state ∉ deadCampaignStates)
    (ht : e.eventType = .acquireLease ∨ e.eventType = .releaseLease) :
    leaseOp k ⟨s, ⟨e, effects⟩, s'⟩ = if e.nodeId = some k then
      if e.eventType = .acquireLease then .grant (e.actorId.getD "") (e.fencingEpoch.getD 0) else .finish
      else .skip := by
  have hopen := not_dead_iff.mp hlive
  rcases ht with ht | ht <;> by_cases hk : e.nodeId = some k <;> simp [leaseOp, hopen, ht, hk]

/-- A grant keeps the sides together. -/
theorem Agree.granted (h : Agree db) (hsourced : Sourced db) (hstaffed : Staffed db)
    {r : LeaseRequest} {s : CampaignSnapshot} {n : NodeSnapshot} {fence : ℕ}
    (hgranted : Granted db r s n fence db') : Agree db' := by
  obtain ⟨lease, hgrants, -, hrows⟩ := hgranted.enrolled.leases
  have hactive : ∀ l ∈ db'.activeLeases, l ∈ db.activeLeases ∨ l.campaignId = r.campaignId := by
    intro l hl
    obtain ⟨hmem, hstate⟩ := Db.mem_activeLeases.mp hl
    rcases (hrows l).mp hmem with hold | rfl
    · exact .inl (Db.mem_activeLeases.mpr ⟨hold, hstate⟩)
    · exact .inr hgrants.campaignId
  rcases hgranted.transition with ⟨hconcurrent, -, hframe⟩ |
    ⟨hexclusive, -, event, row, next, effects, hbuilt, happlied⟩
  · have hread : r.actor.role ∉ exclusiveActorRoles := by
      rw [exclusive_or_concurrent, not_not]
      simpa [LeaseRequest.concurrentReadOnly] using hconcurrent
    refine h.of_quiet hframe.lifecycle (fun l hl => (hactive l hl).imp_right fun hid => ?_)
      fun id k g => ?_
    · obtain ⟨row, hrow, -⟩ := Db.loadSnapshot_eq_ok hgranted.loaded
      rw [hid, hrow]
      rfl
    · rw [hgranted.heldBy_iff hstaffed]
      exact or_iff_left fun hnew => hread hnew.1
  · have hrole : r.actor.role ∈ exclusiveActorRoles := by
      rw [exclusive_or_concurrent]
      simpa [LeaseRequest.concurrentReadOnly] using hexclusive
    obtain ⟨-, hcampaign, ht, hnode, hactor, hfence⟩ := LeaseRequest.event_eq_ok hbuilt
    have hlive := happlied.lease_live (.inl ht)
    have haccepted := reduce_accepted (hsourced.accepted happlied).2
    refine h.of_event happlied (fun l hl => (hactive l hl).imp_right fun hid => hid.trans
      hcampaign.symm) (fun id k g hid => ?_) fun n' hn' g => ?_
    · rw [hgranted.heldBy_iff hstaffed]
      exact or_iff_left fun hnew => hid (hnew.2.1.symm.trans hcampaign.symm)
    · obtain ⟨m, hm, hid, hlease⟩ := lease_of_live haccepted hlive hn'
      rw [leaseOp_of_lease hlive (.inl ht), hnode, hactor, hfence, if_pos ht] at hlease
      rw [hgranted.heldBy_iff hstaffed, hlease, ← hid]
      by_cases hk : r.nodeId = m.nodeId
      · -- the node of the grant had no active lease at all
        have hfree : ¬ HeldBy db event.campaignId m.nodeId g := by
          rintro ⟨l, hl, hlc, hln, -⟩
          obtain ⟨hread, -⟩ := hgranted.node_free hstaffed hl.active
            ⟨hlc.trans hcampaign, hln.trans hk.symm⟩
          exact (exclusive_or_concurrent _).mp hrole hread
        rw [hcampaign] at hfree
        simp [hk, hfree, hrole, hcampaign, LeaseOp.apply]
      · have hskip : ¬ (some r.nodeId = some m.nodeId) := by simpa using hk
        rw [if_neg hskip]
        simp only [LeaseOp.apply, hk, false_and, and_false, or_false]
        exact h.leases _ row happlied.row_eq m hm g

/-- A release keeps the sides together. -/
theorem Agree.retired (h : Agree db) (hsourced : Sourced db) (hexclusive : Exclusive db)
    {r : ReleaseRequest} {row : LeaseRow} {actor : ActorRow} (hretired : Retired db r row actor db') :
    Agree db' := by
  have hstaffed := hexclusive.toStaffed
  have hstep : AuthorityStep db (.releaseLease r) db' := .retired rfl hretired
  have hrows : ∀ l, l ∈ db'.activeLeases ↔ l ∈ db.activeLeases ∧ l.leaseId ≠ r.leaseId :=
    activeLeases_iff fun l hl => by
      rw [show db'.leases = _ from congrArg Authority.leases hretired.authority]
      exact mem_retire hl
  have hmem : row ∈ db.activeLeases :=
    Db.mem_activeLeases.mpr ⟨Table.mem_of_get? hretired.row_eq, hretired.active⟩
  have hrole : db.leaseRole row = some actor.role := by
    rw [Db.leaseRole, hretired.actor_eq, Option.map_some]
  have honly : ∀ l, ExclusiveLease db l → l.leaseId = r.leaseId → l = row := fun l hl hid =>
    Table.eq_of_key (Db.mem_activeLeases.mp hl.active).1 (Table.mem_of_get? hretired.row_eq)
      (hid.trans (Table.key_of_get? hretired.row_eq).symm)
  rcases hretired.transition with ⟨hread, hframe⟩ |
    ⟨hwrites, event, campaign, next, effects, hbuilt, happlied⟩
  · refine h.of_quiet hframe.lifecycle (fun l hl => .inl ((hrows l).mp hl).1)
      (hstep.heldBy_same hstaffed hrows fun l hl hid => ?_)
    obtain ⟨role, hmem', heq⟩ := hl.role
    rw [honly l hl hid, hrole, Option.some.injEq] at heq
    exact (exclusive_or_concurrent role).mp hmem' (heq ▸ hread)
  · have hrowExclusive : actor.role ∈ exclusiveActorRoles := (exclusive_or_concurrent _).mpr hwrites
    obtain ⟨-, hcampaign, ht, hnode, -⟩ := ReleaseRequest.event_eq_ok hbuilt
    have hlive := happlied.lease_live (.inr ht)
    have haccepted := reduce_accepted (hsourced.accepted happlied).2
    refine h.of_event happlied (fun l hl => .inl ((hrows l).mp hl).1) (fun id k g hid => ?_)
      fun n' hn' g => ?_
    · rw [hstep.heldBy_iff hstaffed hrows]
      refine exists_congr fun l => ⟨fun hheld => hheld.imp_left And.left, fun hheld => ?_⟩
      refine ⟨⟨hheld.1, fun hsame => hid ?_⟩, hheld.2⟩
      rw [← hheld.2.1, honly l hheld.1 hsame, hcampaign]
    · obtain ⟨m, hm, hid, hlease⟩ := lease_of_live haccepted hlive hn'
      rw [leaseOp_of_lease hlive (.inr ht), hnode, if_neg (show event.eventType ≠ .acquireLease by
        simp [ht])] at hlease
      rw [hstep.heldBy_iff hstaffed hrows, hlease, ← hid]
      by_cases hk : row.nodeId = m.nodeId
      · -- the released lease was the only one of its node
        rw [if_pos (congrArg some hk)]
        refine ⟨fun hg => (by cases hg), ?_⟩
        rintro ⟨l, ⟨hl, hne⟩, hlc, hln, -⟩
        have hnodeLeases := hexclusive.nodeLeases_eq hmem hrole hrowExclusive
        have hlisted : l ∈ db.nodeLeases row.campaignId row.nodeId :=
          Db.mem_nodeLeases.mpr ⟨hl.active, hlc.trans hcampaign, hln.trans hk.symm⟩
        rw [hnodeLeases, List.mem_singleton] at hlisted
        rw [hlisted] at hne
        exact absurd (Table.key_of_get? hretired.row_eq) hne
      · rw [if_neg (by simpa using hk)]
        show m.lease = some g ↔ _
        rw [h.leases _ campaign happlied.row_eq m hm g]
        refine exists_congr fun l => ⟨fun hheld => ⟨⟨hheld.1, fun hsame => hk ?_⟩, hheld.2⟩,
          fun hheld => hheld.imp_left And.left⟩
        rw [← hheld.2.2.1, honly l hheld.1 hsame]

/-- A new campaign: its nodes are free, and no lease was one of it. -/
theorem Agree.created (h : Agree db) (hstaffed : Staffed db) (hstep : AuthorityStep db t db')
    {spec : CampaignSpec} {s : CampaignSnapshot} (hcreated : Created db spec s db') : Agree db' := by
  have hleases : db'.leases = db.leases := congrArg Authority.leases hcreated.authority
  have hrows : ∀ l, l ∈ db'.activeLeases ↔ l ∈ db.activeLeases ∧ True := by
    intro l
    rw [Db.activeLeases, hleases, and_true, Db.activeLeases]
  refine ⟨fun l hl => ?_, fun id row hrow n hn g => ?_⟩
  · rw [Table.get?_insert? hcreated.campaigns]
    split
    · rfl
    · exact h.housed l ((hrows l).mp hl).1
  · rw [hstep.heldBy_same hstaffed hrows fun _ _ => trivial]
    rw [Table.get?_insert? hcreated.campaigns] at hrow
    split at hrow
    · next hid =>
        obtain rfl := Option.some.inj hrow
        have hnode := initial_node hcreated.initial hn
        rw [hnode]
        refine ⟨fun hg => (by cases hg), ?_⟩
        rintro ⟨l, hl, hcampaign, -⟩
        -- a lease of the new campaign would have been housed before
        have hhoused := h.housed l hl.active
        rw [hcampaign, hid, (Table.insert?_eq_some.mp hcreated.campaigns).1] at hhoused
        exact absurd hhoused (by simp)
    · exact h.leases id row hrow n hn g

/-- A recovery that meets no exclusive lease. -/
theorem Agree.recovered (h : Agree db) (hstaffed : Staffed db) {retained : List String}
    (hkeeps : KeepsLeases db (.recoverAfterRestart retained)) (hrecovered : Recovered db retained db') :
    Agree db' := by
  have hstep : AuthorityStep db (.recoverAfterRestart retained) db' := .recovered rfl hrecovered
  have hrows : ∀ l, l ∈ db'.activeLeases ↔ l ∈ db.activeLeases ∧ l.leaseId ∈ retained :=
    activeLeases_iff fun l hl => by
      rw [show db'.leases = _ from congrArg Authority.leases hrecovered.authority]
      exact mem_recover hl
  refine h.of_quiet hrecovered.lifecycle (fun l hl => .inl ((hrows l).mp hl).1)
    (hstep.heldBy_same hstaffed hrows fun l hl => ?_)
  exact absurd hl (hkeeps.recovering retained l rfl)

/-- **Every transaction** that meets no lease it would leave on one side keeps the sides together. -/
theorem Agree.keep (h : Agree db) (hsourced : Sourced db) (hexclusive : Exclusive db)
    (hkeeps : KeepsLeases db t) (hstep : Committed db t db') : Agree db' := by
  have hstaffed := hexclusive.toStaffed
  have hauthority := hstep.authority
  cases hstep with
  | beside hbeside =>
      exact h.of_frame hstaffed hauthority hbeside.lifecycle
        (congrArg Authority.leases hbeside.authority)
  | created hcreated => exact h.created hstaffed hauthority hcreated
  | applied hcarries happlied hsettled =>
      exact h.applied hsourced hstaffed hkeeps hcarries happlied hsettled
  | granted hgranted => exact h.granted hsourced hstaffed hgranted
  | bound hbound => exact h.of_frame hstaffed hauthority hbound.frame.lifecycle hbound.leases
  | retired hretired => exact h.retired hsourced hexclusive hretired
  | recovered hrecovered => exact h.recovered hstaffed hkeeps hrecovered
  | prepared hprepared =>
      exact h.of_frame hstaffed hauthority hprepared.lifecycle
        (congrArg Authority.leases hprepared.authority)
  | updated hupdated =>
      obtain ⟨_, -, -, rfl⟩ := hupdated.revision
      exact h.of_frame hstaffed hauthority rfl rfl

/-! ### The law -/

/-- The active leases of a node whose role is exclusive. -/
def Db.exclusiveLeases (db : Db) (campaignId nodeId : String) : List LeaseRow :=
  (db.nodeLeases campaignId nodeId).filter fun l =>
    (db.leaseRole l).any fun role => exclusiveActorRoles.contains role

/-- The snapshots and the table tell the same leases. -/
def LeaseTableAgrees (db : Db) : Prop :=
  ∀ id row, db.campaigns.get? id = some row → ∀ n ∈ row.snapshot.nodes, ∀ a f,
    (n.leaseActorId = some a ∧ n.fencingEpoch = f) ↔
      ∃ l, db.exclusiveLeases id n.nodeId = [l] ∧ l.actorId = a ∧ l.fencingEpoch = f

theorem Db.mem_exclusiveLeases {campaignId nodeId : String} {l : LeaseRow} :
    l ∈ db.exclusiveLeases campaignId nodeId ↔
      ExclusiveLease db l ∧ l.campaignId = campaignId ∧ l.nodeId = nodeId := by
  have hrole : (db.leaseRole l).any (fun role => exclusiveActorRoles.contains role) = true ↔
      ∃ role ∈ exclusiveActorRoles, db.leaseRole l = some role := by
    simp [Option.any_eq_true, and_comm]
  rw [Db.exclusiveLeases, List.mem_filter, hrole, Db.mem_nodeLeases]
  exact ⟨fun ⟨⟨hactive, hplace⟩, hrole⟩ => ⟨⟨hactive, hrole⟩, hplace⟩,
    fun ⟨hl, hplace⟩ => ⟨⟨hl.active, hplace⟩, hl.role⟩⟩

/-- An exclusive lease is the only one of its node. -/
theorem Exclusive.exclusiveLeases_eq (h : Exclusive db) {l : LeaseRow} (hl : ExclusiveLease db l) :
    db.exclusiveLeases l.campaignId l.nodeId = [l] := by
  obtain ⟨role, hmem, hrole⟩ := hl.role
  rw [Db.exclusiveLeases, h.nodeLeases_eq hl.active hrole hmem]
  simp [hrole, hmem]

theorem Agree.agrees (h : Agree db) (hexclusive : Exclusive db) : LeaseTableAgrees db := by
  intro id row hrow n hn a f
  have hlease : (n.leaseActorId = some a ∧ n.fencingEpoch = f) ↔ n.lease = some (a, f) := by
    simp [NodeSnapshot.lease]
  rw [hlease, h.leases id row hrow n hn]
  constructor
  · rintro ⟨l, hl, rfl, hnode, hg⟩
    rw [Prod.mk.injEq] at hg
    rw [← hnode]
    exact ⟨l, hexclusive.exclusiveLeases_eq hl, hg.1, hg.2⟩
  · rintro ⟨l, hlist, rfl, rfl⟩
    obtain ⟨hl, hplace⟩ := Db.mem_exclusiveLeases.mp (hlist ▸ List.mem_singleton_self l)
    exact ⟨l, hl, hplace.1, hplace.2, rfl⟩

/-- The events that may meet a lease they do not end on both sides. -/
def leaseEvents : List EventType :=
  .acquireLease :: .releaseLease :: .advanceAuthority :: .cancel :: failingEvents

/-- A transaction that carries none of those events and recovers nothing. -/
theorem KeepsLeases.of_other
    (hcarries : ∀ event, t.carries event → event.eventType ∉ leaseEvents)
    (hrecovers : ∀ retained, t ≠ .recoverAfterRestart retained) : KeepsLeases db t := by
  have hother : ∀ event, t.carries event → ∀ ht ∈ leaseEvents, event.eventType ≠ ht := by
    rintro event hcarried _ hmem rfl
    exact hcarries event hcarried hmem
  refine ⟨fun event hcarried _ => ⟨hother event hcarried _ (by decide), hother event hcarried _
      (by decide)⟩,
    fun event _ _ hcarried _ ht => absurd ht (hother event hcarried _ (by decide)),
    fun event s next effects n m hcarried _ _ hreduce hfailed => ?_,
    fun event _ _ hcarried _ ht => absurd ht (hother event hcarried _ (by decide)),
    fun retained _ ht => absurd ht (hrecovers retained)⟩
  obtain ⟨_, _, _, -, hmove, -⟩ := (reduce_accepted hreduce).failed hfailed
  have hmem : event.eventType ∈ leaseEvents := by simp [leaseEvents, hmove.eventType_mem]
  exact absurd hmem (hcarries event hcarried)

/-- **The lease table agrees with the snapshots**, in every run whose steps keep them together. -/
theorem lease_table_agrees {history : List (Entry Db Transaction)} (h : StoreRun history db)
    (hsteps : ∀ e ∈ history, KeepsLeases e.before e.label) :
    LeaseTableAgrees db ∧ ∀ e ∈ history, LeaseTableAgrees e.after := by
  have hstart : Sourced {} ∧ Exclusive {} ∧ Agree {} := by
    refine ⟨sourced_run .start, exclusive_run .start, fun l hl => ?_, fun id row hrow => ?_⟩
    · cases hl
    · cases hrow
  obtain ⟨⟨-, hexclusive, hagree⟩, hentries⟩ :=
    h.invariant_under (fun db => Sourced db ∧ Exclusive db ∧ Agree db) hsteps hstart
      fun ⟨hsourced, hexclusive, hagree⟩ hkeeps hstep => ⟨hsourced.keep hstep.lifecycle,
        hexclusive.keep hstep.authority, hagree.keep hsourced hexclusive hkeeps hstep⟩
  refine ⟨hagree.agrees hexclusive, fun e he => ?_⟩
  obtain ⟨-, -, -, hexclusive', hagree'⟩ := hentries e he
  exact hagree'.agrees hexclusive'

end Agreement

namespace Sample

open CodingOS.Campaign.Sample

theorem leaseRun_keeps : ∀ e ∈ leaseRun.1, KeepsLeases e.before e.label := by
  intro e he
  have hlabel := foldTransactions_labels leaseRun_fold e he
  simp only [leaseTransactions, List.cons_append, List.mem_append, List.mem_cons, List.mem_map,
    List.not_mem_nil, or_false] at hlabel
  rcases hlabel with hcreate | ⟨e', he', happly⟩ | hacquire
  · rw [hcreate]
    exact .of_other (fun _ hcarries => hcarries.elim) fun _ => by simp
  · rw [← happly]
    refine .of_other (fun event hcarries => ?_) fun _ => by simp
    rw [hcarries.1]
    have hevents : ∀ e ∈ candidateEvents.take 3, e.eventType ∉ leaseEvents := by decide
    exact hevents e' he'
  · rw [hacquire]
    exact .of_other (fun _ hcarries => hcarries.elim) fun _ => by simp

/-- The service restarts while the sample node is leased. -/
def strandedRun : List (Entry Db Transaction) × Db :=
  (foldTransactions {} (leaseTransactions ++ [.recoverAfterRestart []])).toOption.get
    (by decide +kernel)

theorem strandedRun_run : StoreRun strandedRun.1 strandedRun.2 :=
  foldTransactions_run (get_toOption _)

end Sample

open Sample in
theorem lease_table_agrees_sample :
    (leaseRun.2.exclusiveLeases "c" "n").map (fun l => (l.actorId, l.fencingEpoch)) = [("a", 1)] ∧
      LeaseTableAgrees leaseRun.2 ∧ ∀ e ∈ leaseRun.1, LeaseTableAgrees e.after :=
  ⟨by decide +kernel, lease_table_agrees leaseRun_run leaseRun_keeps⟩

open Sample in
/-- The recovery ended the lease row, and the snapshot still names its holder. -/
theorem stranded_lease : StoreRun strandedRun.1 strandedRun.2 ∧ ¬ LeaseTableAgrees strandedRun.2 := by
  refine ⟨strandedRun_run, fun hagrees => ?_⟩
  have hsides : (strandedRun.2.campaigns.get? "c").map (fun row => row.snapshot.nodes.map
      fun n => (n.nodeId, n.leaseActorId, n.fencingEpoch)) = some [("n", some "a", 1)] ∧
      strandedRun.2.exclusiveLeases "c" "n" = [] := by decide +kernel
  obtain ⟨hsnapshot, htable⟩ := hsides
  obtain ⟨row, hrow, hnodes⟩ := Option.map_eq_some_iff.mp hsnapshot
  obtain ⟨n, hn, hfields⟩ := List.mem_map.mp (hnodes ▸ List.mem_singleton_self ("n", some "a", 1))
  simp only [Prod.mk.injEq] at hfields
  obtain ⟨hid, hactor, hfence⟩ := hfields
  obtain ⟨l, hlist, -⟩ := (hagrees "c" row hrow n hn "a" 1).mp ⟨hactor, hfence⟩
  rw [hid, htable] at hlist
  cases hlist

end CodingOS.Store
