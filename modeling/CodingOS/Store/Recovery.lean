import CodingOS.Store.EventSourcing
import CodingOS.Store.LeaseTable

/-!
# Restart recovery

`recover_after_restart` as the statements its transaction executes, on a connection that keeps what was
written when one of them raises.  Every check comes before the first write, so a refused list of leases
leaves nothing to roll back; and what an accepted list leaves passes the same checks again.
-/

namespace CodingOS.Store

open CodingOS.Python CodingOS.Campaign Systems

theorem forEach_of_forall {α : Type} {items : List α} {body : α → Result Unit}
    (h : ∀ item ∈ items, body item = .ok ()) : forEach items body = .ok () := by
  induction items with
  | nil => rfl
  | cons x xs ih =>
      obtain ⟨hx, hxs⟩ := List.forall_mem_cons.mp h
      rw [forEach, List.foldlM_cons, hx]
      exact ih hxs

section Recovery

variable [Runtime]

/-! ### Statements -/

/-- What the statements of one transaction do to the database of their connection.  An exception leaves
what was written before it. -/
abbrev Statements (α : Type) : Type := EStateM CampaignError Db α

/-- A `SELECT`, and what is checked of its rows. -/
def query {α : Type} (read : Db → Result α) : Statements α := fun db =>
  match read db with
  | .ok a => .ok a db
  | .error e => .error e db

/-- `try: …; connection.commit()` and `except Exception: connection.rollback(); raise`. -/
def transact {α : Type} (statements : Statements α) (db : Db) : Result α × Db :=
  match statements db with
  | .ok a db' => (.ok a, db')
  | .error e _ => (.error e, db)

/-- The counts `recover_after_restart` returns. -/
structure RecoveryCounts where
  ambiguousEffects : ℕ
  invalidatedLeases : ℕ
deriving DecidableEq

theorem ambiguous_key (row : EffectRow) : { row with state := .ambiguous }.operationId = row.operationId := rfl

/-- `UPDATE external_effect_outbox SET state='AMBIGUOUS' WHERE state='EXECUTING'`. -/
def markAmbiguous : Statements ℕ := fun db =>
  .ok (db.outbox.countWhere (·.state == .executing)) { db with
    outbox := db.outbox.update (·.state == .executing)
      (fun row => { row with state := .ambiguous }) ambiguous_key }

/-- `UPDATE leases SET state='INVALIDATED' WHERE state='ACTIVE' AND lease_id NOT IN (…)`. -/
def invalidateLeases (retained : List String) : Statements ℕ := fun db =>
  .ok (db.leases.countWhere fun row => row.state == .active && !retained.contains row.leaseId) { db with
    leases := db.leases.update (fun row => row.state == .active && !retained.contains row.leaseId)
      (fun row => { row with state := .invalidated }) LeaseRow.invalidated_key }

/-- `UPDATE resource_locks SET lease_id=NULL` for the locks whose lease is not active. -/
def unlockResources : Statements Unit := fun db =>
  .ok () { db with
    resourceLocks := db.resourceLocks.update
      (fun lock => lock.leaseId.any fun leaseId =>
        (db.leases.get? leaseId).any fun lease => lease.state != .active)
      (fun lock => { lock with leaseId := none }) LockRow.unlocked_key }

/-- `for lease_id in retained`, with the checks of one lease. -/
def checkRetainedLeases (retained : List String) : Statements Unit :=
  retained.foldlM (fun _ leaseId => query fun db => db.checkRetained retained leaseId) ()

/-- `recover_after_restart`, statement by statement. -/
def recoverStatements (retained : List String) : Statements RecoveryCounts := do
  query fun _ => check .store (decide retained.Nodup) "read-only recovery contains duplicate leases"
  checkRetainedLeases retained
  let ambiguous ← markAmbiguous
  let invalidated ← invalidateLeases retained
  unlockResources
  return ⟨ambiguous, invalidated⟩

/-- The counts of a recovery. -/
def Db.recoveryCounts (db : Db) (retained : List String) : RecoveryCounts where
  ambiguousEffects := db.outbox.countWhere (·.state == .executing)
  invalidatedLeases :=
    db.leases.countWhere fun row => row.state == .active && !retained.contains row.leaseId

theorem query_bind {α β : Type} {read : Db → Result α} {next : α → Statements β} {db : Db} :
    (query read >>= next) db = match read db with
      | .ok a => next a db
      | .error e => .error e db := by
  show EStateM.bind (query read) next db = _
  rw [EStateM.bind, query]
  cases read db <;> rfl

/-- A loop of queries raises what the first failing one raises, and writes nothing. -/
theorem foldlM_query {β : Type} {ids : List String} {read : String → Db → Result Unit}
    {next : Unit → Statements β} {db : Db} :
    ((ids.foldlM (fun _ id => query (read id)) ()) >>= next) db =
      match forEach ids fun id => read id db with
      | .ok u => next u db
      | .error e => .error e db := by
  induction ids with
  | nil => rfl
  | cons id ids ih =>
      rw [List.foldlM_cons, bind_assoc, query_bind, forEach, List.foldlM_cons]
      cases read id db with
      | error e => rfl
      | ok u => exact ih

/-- **The statements refine the transaction.**  They commit what `recoverAfterRestart` commits, and
raise before the first of them writes. -/
theorem recoverStatements_eq (retained : List String) (db : Db) :
    recoverStatements retained db = match db.recoverAfterRestart retained with
      | .ok db' => .ok (db.recoveryCounts retained) db'
      | .error e => .error e db := by
  rw [recoverStatements, query_bind, Db.recoverAfterRestart]
  cases check .store (decide retained.Nodup) "read-only recovery contains duplicate leases" with
  | error e => rfl
  | ok u =>
      rw [checkRetainedLeases, foldlM_query]
      cases forEach retained (db.checkRetained retained) with
      | error e => rfl
      | ok u => rfl

/-! ### What survives -/

/-- What `recover_after_restart` asks of a lease it retains: a bound reviewer that cannot write, under the
current authority, cancellation and fence, at work on its node in the running campaign. -/
structure Surviving (db : Db) (lease : LeaseRow) (actor : ActorRow) (s : CampaignSnapshot)
    (n : NodeSnapshot) : Prop where
  active : lease.state = .active
  actor_eq : db.actors.get? lease.actorId = some actor
  loaded : db.loadSnapshot lease.campaignId = .ok s
  node_eq : s.node lease.nodeId = .ok n
  reviewer : actor.role = .reviewer ∨ actor.role = .closureReviewer
  denied : actor.canWrite = false
  used : actor.used = true
  bound : ∃ requestId, actor.boundRequestId = some requestId ∧ requestId ≠ ""
  thread : actor.nativeThreadId ≠ "UNBOUND"
  identity : ∃ digest, actor.identityDigest = some digest ∧ digest ≠ "" ∧
    digest = canonicalJsonDigest (.mapping actor.nativeIdentity)
  principal : ∃ p, actor.actor.principalId = some p ∧ p ∈ s.spec.requiredReviewCohort
  running : s.state = .running
  reviewing : n.state = reviewingState actor.role
  activeNode : s.activeNodeId = some n.nodeId
  authority : actor.authorityEpoch = s.authorityEpoch
  cancellation : lease.cancellationEpoch = s.cancellationEpoch
  fence : lease.fencingEpoch = n.fencingEpoch

variable {db db' : Db} {retained : List String}

/-- **What the checks of one lease accept.** -/
theorem Db.checkRetained_eq_ok {leaseId : String} : db.checkRetained retained leaseId = .ok () ↔
    ∃ lease actor s n, db.leases.get? leaseId = some lease ∧ Surviving db lease actor s n ∧
      ∀ row ∈ db.leases.rows, row.campaignId = s.spec.campaignId → row.state = .active →
        row.leaseId ∈ retained := by
  simp only [Db.checkRetained, bind_eq_ok, orRaise_eq_ok, check_eq_ok, exists_const, Bool.and_eq_true,
    beq_iff_eq, bne_iff_ne, Bool.not_eq_true', Option.any_eq_true, List.contains_iff_mem, List.all_eq_true,
    List.mem_filter, List.mem_cons, List.not_mem_nil, or_false, and_imp]
  constructor
  · rintro ⟨lease, hlease, actor, hactor, ⟨⟨⟨⟨⟨⟨hactive, hdenied⟩, hused⟩, ⟨digest, hdigest, hne⟩⟩, hbound⟩, hrole⟩,
      hthread⟩, s, hload, n, hnode, ⟨⟨⟨⟨⟨⟨⟨hrunning, hstate⟩, hactiveNode⟩, hprincipal⟩, hauthority⟩, hcancellation⟩,
      hfence⟩, hidentity⟩, hcohort⟩
    refine ⟨lease, actor, s, n, hlease, ?_, fun row hrow hcampaign hrowActive => ?_⟩
    · exact ⟨hactive, hactor, hload, hnode, hrole, hdenied, hused, hbound, hthread,
        ⟨digest, hdigest, hne, (Option.some.inj (hidentity.trans hdigest)).symm⟩, hprincipal, hrunning, hstate,
        hactiveNode, hauthority, hcancellation, hfence⟩
    · exact hcohort row hrow hcampaign hrowActive
  · rintro ⟨lease, actor, s, n, hlease, h, hcohort⟩
    obtain ⟨digest, hdigest, hne, heq⟩ := h.identity
    exact ⟨lease, hlease, actor, h.actor_eq, ⟨⟨⟨⟨⟨⟨h.active, h.denied⟩, h.used⟩, ⟨digest, hdigest, hne⟩⟩, h.bound⟩,
      h.reviewer⟩, h.thread⟩, s, h.loaded, n, h.node_eq, ⟨⟨⟨⟨⟨⟨⟨h.running, h.reviewing⟩, h.activeNode⟩, h.principal⟩,
      h.authority⟩, h.cancellation⟩, h.fence⟩, by rw [hdigest, heq]⟩, fun row hrow => hcohort row hrow⟩

theorem Surviving.congr {lease : LeaseRow} {actor : ActorRow} {s : CampaignSnapshot} {n : NodeSnapshot}
    (h : Surviving db lease actor s n) (hactors : db'.actors = db.actors)
    (hcampaigns : db'.campaigns = db.campaigns) : Surviving db' lease actor s n := by
  have hload : db'.loadSnapshot lease.campaignId = db.loadSnapshot lease.campaignId := by
    rw [Db.loadSnapshot, hcampaigns]
    rfl
  exact { h with
    actor_eq := by rw [hactors, h.actor_eq]
    loaded := hload.trans h.loaded }

/-! ### What a recovery leaves -/

theorem Recovered.leases_eq (h : Recovered db retained db') : db'.leases =
    db.leases.update (fun row => row.state == .active && !retained.contains row.leaseId)
      (fun row => { row with state := .invalidated }) LeaseRow.invalidated_key :=
  congrArg Authority.leases h.authority

/-- A retained lease keeps its row. -/
theorem Recovered.lease_kept (h : Recovered db retained db') {leaseId : String} (hid : leaseId ∈ retained) :
    db'.leases.get? leaseId = db.leases.get? leaseId := by
  rw [h.leases_eq, Table.get?_update]
  cases hrow : db.leases.get? leaseId with
  | none => rfl
  | some row =>
      have hkey : row.leaseId = leaseId := Table.key_of_get? hrow
      simp [hkey, hid]

/-- The active leases afterwards are the retained ones of before. -/
theorem Recovered.mem_activeLeases (h : Recovered db retained db') {l : LeaseRow} :
    l ∈ db'.activeLeases ↔ l ∈ db.activeLeases ∧ l.leaseId ∈ retained := by
  rw [Db.mem_activeLeases, Db.mem_activeLeases, show db'.leases = _ from congrArg Authority.leases h.authority]
  constructor
  · rintro ⟨hmem, hactive⟩
    obtain ⟨hold, hid⟩ := (mem_recover hactive).mp hmem
    exact ⟨⟨hold, hactive⟩, hid⟩
  · rintro ⟨⟨hold, hactive⟩, hid⟩
    exact ⟨(mem_recover hactive).mpr ⟨hold, hid⟩, hactive⟩

/-- Every retained lease passed its checks, and is read as it was. -/
theorem Recovered.survives (h : Recovered db retained db') {leaseId : String} (hid : leaseId ∈ retained) :
    ∃ lease actor s n, db'.leases.get? leaseId = some lease ∧ Surviving db' lease actor s n ∧
      ∀ row ∈ db.leases.rows, row.campaignId = s.spec.campaignId → row.state = .active →
        row.leaseId ∈ retained := by
  obtain ⟨lease, actor, s, n, hlease, hsurviving, hcohort⟩ := Db.checkRetained_eq_ok.mp (h.checked leaseId hid)
  exact ⟨lease, actor, s, n, (h.lease_kept hid).trans hlease,
    hsurviving.congr (congrArg Authority.actors h.authority) (congrArg Lifecycle.campaigns h.lifecycle), hcohort⟩

theorem Recovered.no_executing (h : Recovered db retained db') :
    ∀ row ∈ db'.outbox.rows, (row.state == .executing) = false := by
  intro row hrow
  rw [h.outbox, Table.mem_update] at hrow
  rcases hrow with ⟨-, hstate⟩ | ⟨_, -, -, rfl⟩
  · exact hstate
  · rfl

/-- **What an accepted list leaves.** -/
structure Restarted (db : Db) (retained : List String) (db' : Db) : Prop where
  effects : ∀ row ∈ db'.outbox.rows, row.state ≠ .executing
  leases : ∀ leaseId, (∃ l ∈ db'.activeLeases, l.leaseId = leaseId) ↔ leaseId ∈ retained
  surviving : ∀ l ∈ db'.activeLeases, ∃ actor s n, Surviving db' l actor s n
  cohort : ∀ l ∈ db'.activeLeases, ∀ l' ∈ db.activeLeases, l'.campaignId = l.campaignId →
    l'.leaseId ∈ retained

/-- The snapshot a campaign loads is that of the campaign. -/
theorem Sourced.campaignId_of_load (h : Sourced db) {campaignId : String} {s : CampaignSnapshot}
    (hload : db.loadSnapshot campaignId = .ok s) : s.spec.campaignId = campaignId := by
  obtain ⟨row, hrow, rfl⟩ := Db.loadSnapshot_eq_ok hload
  have hkey : row.campaignId = campaignId := Table.key_of_get? hrow
  rw [← hkey]
  exact (h.campaigns campaignId row hrow).campaignId_eq

theorem Recovered.restarted (h : Recovered db retained db') (hsourced : Sourced db) :
    Restarted db retained db' := by
  have hlease : ∀ l ∈ db'.activeLeases, ∃ actor s n, Surviving db' l actor s n ∧
      ∀ row ∈ db.leases.rows, row.campaignId = s.spec.campaignId → row.state = .active →
        row.leaseId ∈ retained := by
    intro l hl
    obtain ⟨lease, actor, s, n, hget, hsurviving, hcohort⟩ := h.survives (h.mem_activeLeases.mp hl).2
    obtain rfl := Option.some.inj ((Table.get?_key (Db.mem_activeLeases.mp hl).1).symm.trans hget)
    exact ⟨actor, s, n, hsurviving, hcohort⟩
  refine ⟨fun row hrow => ?_, fun leaseId => ⟨?_, fun hid => ?_⟩, fun l hl => ?_, fun l hl l' hl' hsame => ?_⟩
  · exact beq_eq_false_iff_ne.mp (h.no_executing row hrow)
  · rintro ⟨l, hl, rfl⟩
    exact (h.mem_activeLeases.mp hl).2
  · obtain ⟨lease, _, _, _, hget, hsurviving, -⟩ := h.survives hid
    exact ⟨lease, Db.mem_activeLeases.mpr ⟨Table.mem_of_get? hget, hsurviving.active⟩, Table.key_of_get? hget⟩
  · obtain ⟨actor, s, n, hsurviving, -⟩ := hlease l hl
    exact ⟨actor, s, n, hsurviving⟩
  · obtain ⟨actor, s, n, hsurviving, hcohort⟩ := hlease l hl
    obtain ⟨hmem, hactive⟩ := Db.mem_activeLeases.mp hl'
    have hload : db.loadSnapshot l.campaignId = .ok s := by
      rw [← hsurviving.loaded, Db.loadSnapshot, Db.loadSnapshot,
        show db'.campaigns = db.campaigns from congrArg Lifecycle.campaigns h.lifecycle]
    exact hcohort l' hmem (hsame.trans (hsourced.campaignId_of_load hload).symm) hactive

/-! ### Once more -/

theorem Recovered.no_orphan (h : Recovered db retained db') :
    ∀ row ∈ db'.leases.rows, (row.state == .active && !retained.contains row.leaseId) = false := by
  intro row hrow
  by_cases hactive : row.state = .active
  · have hid := (h.mem_activeLeases.mp (Db.mem_activeLeases.mpr ⟨hrow, hactive⟩)).2
    rw [List.contains_iff_mem.mpr hid, Bool.not_true, Bool.and_false]
  · rw [beq_false_of_ne hactive, Bool.false_and]

theorem Recovered.no_stale_lock (h : Recovered db retained db') :
    ∀ lock ∈ db'.resourceLocks.rows, (lock.leaseId.any fun leaseId =>
      (db'.leases.get? leaseId).any fun lease => lease.state != .active) = false := by
  intro lock hlock
  rw [show db'.resourceLocks = (db.authority.recover retained).locks from congrArg Authority.locks h.authority,
    Authority.recover, Table.mem_update] at hlock
  rcases hlock with ⟨-, hlive⟩ | ⟨_, -, -, rfl⟩
  · rw [h.leases_eq]
    exact hlive
  · rfl

/-- A recovery finds nothing to do in what it left. -/
theorem Db.recoverAfterRestart_again (h : db.recoverAfterRestart retained = .ok db') :
    db'.recoverAfterRestart retained = .ok db' ∧ db'.recoveryCounts retained = ⟨0, 0⟩ := by
  have hrecovered := Db.recoverAfterRestart_eq_ok h
  have hchecked : forEach retained (db'.checkRetained retained) = .ok () := by
    refine forEach_of_forall fun leaseId hid => Db.checkRetained_eq_ok.mpr ?_
    obtain ⟨lease, actor, s, n, hget, hsurviving, -⟩ := hrecovered.survives hid
    refine ⟨lease, actor, s, n, hget, hsurviving, fun row hrow _ hactive => ?_⟩
    exact (hrecovered.mem_activeLeases.mp (Db.mem_activeLeases.mpr ⟨hrow, hactive⟩)).2
  constructor
  · simp only [Db.recoverAfterRestart, bind_eq_ok] at h ⊢
    obtain ⟨_, hnodup, -⟩ := h
    refine ⟨(), hnodup, (), hchecked, ?_⟩
    simp only [Table.update_eq_self _ hrecovered.no_executing, Table.update_eq_self _ hrecovered.no_orphan,
      Table.update_eq_self _ hrecovered.no_stale_lock]
    rfl
  · rw [Db.recoveryCounts, Table.countWhere, Table.countWhere,
      List.countP_eq_zero.mpr fun row hrow => ne_true_of_eq_false (hrecovered.no_executing row hrow),
      List.countP_eq_zero.mpr fun row hrow => ne_true_of_eq_false (hrecovered.no_orphan row hrow)]

/-- **Restart recovery.**  In every reached store and for every list of leases, `recover_after_restart`
raises before it wrote anything, or it leaves no effect executing and exactly the listed leases active,
each of them fit to survive and the whole active cohort of its campaign among them; then running it again
changes nothing. -/
theorem restart_recovery {history : List (Entry Db Transaction)} (h : StoreRun history db)
    (retained : List String) :
    (∃ e, recoverStatements retained db = .error e db ∧
      transact (recoverStatements retained) db = (.error e, db)) ∨
    ∃ counts db', transact (recoverStatements retained) db = (.ok counts, db') ∧
      Restarted db retained db' ∧ transact (recoverStatements retained) db' = (.ok ⟨0, 0⟩, db') := by
  cases hrun : db.recoverAfterRestart retained with
  | error e =>
      have hstatements : recoverStatements retained db = .error e db := by
        rw [recoverStatements_eq, hrun]
      exact .inl ⟨e, hstatements, by rw [transact, hstatements]⟩
  | ok db' =>
      obtain ⟨hagain, hcounts⟩ := Db.recoverAfterRestart_again hrun
      refine .inr ⟨db.recoveryCounts retained, db', ?_,
        (Db.recoverAfterRestart_eq_ok hrun).restarted (sourced_run h), ?_⟩
      · rw [transact, recoverStatements_eq, hrun]
      · rw [transact, recoverStatements_eq, hagain, hcounts]

end Recovery

open Sample in
/-- A restart that retains nothing ends the lease of the sample. -/
theorem restart_recovery_sample :
    ((transact (recoverStatements []) leaseRun.2).1.toOption = some ⟨0, 1⟩) ∧
    ((∃ e, recoverStatements [] leaseRun.2 = .error e leaseRun.2 ∧
        transact (recoverStatements []) leaseRun.2 = (.error e, leaseRun.2)) ∨
      ∃ counts db', transact (recoverStatements []) leaseRun.2 = (.ok counts, db') ∧
        Restarted leaseRun.2 [] db' ∧ transact (recoverStatements []) db' = (.ok ⟨0, 0⟩, db')) :=
  ⟨by decide +kernel, restart_recovery leaseRun_run []⟩

end CodingOS.Store
