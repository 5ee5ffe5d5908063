import CodingOS.Campaign.Lifecycle
import CodingOS.Store.Frames

/-!
# What the lease transactions write

`acquire_lease`, `bind_actor`, `release_lease` and `recover_after_restart`, each inverted once: the
guards that passed, the event it carried when its role is exclusive, and the rows of actor, lease and
lock it left.
-/

namespace CodingOS.Store

open CodingOS.Python CodingOS.Campaign Systems

variable [Runtime]

/-! ### Rows -/

/-- The row `_insert_actor_record` writes. -/
def ActorRow.ofActor (actor : Actor) : ActorRow where
  actorId := actor.actorId
  campaignId := actor.campaignId
  nodeId := actor.nodeId
  role := actor.role
  nativeThreadId := actor.nativeThreadId
  nativeIdentity := actor.nativeIdentity
  hostPid := actor.hostPid
  authorityEpoch := actor.authorityEpoch
  canWrite := actor.canWrite
  actor

/-- The row `acquire_lease` writes. -/
def LeaseRow.ofLease (lease : Lease) : LeaseRow where
  leaseId := lease.leaseId
  campaignId := lease.campaignId
  nodeId := lease.nodeId
  resourceKey := lease.resourceKey
  actorId := lease.actorId
  fencingEpoch := lease.fencingEpoch
  cancellationEpoch := lease.cancellationEpoch
  state := lease.state
  expiresAt := lease.expiresAt
  lease

/-- The lock `acquire_lease` leaves on the resource. -/
def LockRow.ofRequest (r : LeaseRequest) (fence : ℕ) : LockRow where
  resourceKey := r.resourceKey
  fencingEpoch := fence
  leaseId := some r.leaseId
  campaignId := some r.campaignId
  nodeId := some r.nodeId

/-- The fence of the lock on a resource, zero when there is none. -/
def Authority.lockFence (a : Authority) (resourceKey : String) : ℕ :=
  ((a.locks.get? resourceKey).map (·.fencingEpoch)).getD 0

/-! ### Acquiring -/

/-- The rows of a lease that was granted. -/
structure Enrolled (a : Authority) (r : LeaseRequest) (fence : ℕ) (a' : Authority) : Prop where
  lease : ∃ (l : Lease) (epoch : ℕ), l.toLeaseFields = {
      leaseId := r.leaseId
      campaignId := r.campaignId
      nodeId := r.nodeId
      resourceKey := r.resourceKey
      actorId := r.actor.actorId
      fencingEpoch := fence
      cancellationEpoch := epoch
      expiresAt := r.expiresAt } ∧
    a.leases.insert? (.ofLease l) = some a'.leases
  actor : (∃ row, a.actors.get? r.actor.actorId = some row ∧
      canonicalJson row.actor.toDict = canonicalJson r.actor.toDict ∧ a'.actors = a.actors) ∨
    a.actors.insert? (.ofActor r.actor) = some a'.actors
  locks : a'.locks = a.locks.upsert (.ofRequest r fence)

theorem LeaseFields.build_eq_ok {l : LeaseFields} {lease : Lease} (h : l.build = .ok lease) :
    lease.toLeaseFields = l := by
  unfold LeaseFields.build at h
  split at h
  · obtain rfl := Except.ok.inj h
    rfl
  · cases h

theorem ActorFields.build_eq_ok {a : ActorFields} {actor : Actor} (h : a.build = .ok actor) :
    actor.toActorFields = a := by
  unfold ActorFields.build at h
  split at h
  · obtain rfl := Except.ok.inj h
    rfl
  · cases h

theorem Db.insertActorRecord_eq_ok {db db' : Db} {actor : Actor}
    (h : db.insertActorRecord actor = .ok db') :
    ∃ actors, db' = { db with actors } ∧
      ((∃ row, db.actors.get? actor.actorId = some row ∧
          canonicalJson row.actor.toDict = canonicalJson actor.toDict ∧ actors = db.actors) ∨
        db.actors.insert? (.ofActor actor) = some actors) := by
  unfold Db.insertActorRecord at h
  split at h
  · next row hrow =>
      simp only [bind_eq_ok, check_eq_ok, pure_eq_ok, exists_const, beq_iff_eq] at h
      exact ⟨db.actors, h.2.symm, .inl ⟨row, hrow, h.1, rfl⟩⟩
  · simp only [uniqueViolation, bind_eq_ok, orRaise_eq_ok, pure_eq_ok] at h
    obtain ⟨_, -, _, -, actors, hinsert, rfl⟩ := h
    exact ⟨actors, rfl, .inr hinsert⟩

theorem Db.insertLease_eq_ok {db db' : Db} {lease : Lease} (h : db.insertLease lease = .ok db') :
    ∃ leases, db.leases.insert? (.ofLease lease) = some leases ∧ db' = { db with leases } := by
  simp only [Db.insertLease, uniqueViolation, bind_eq_ok, orRaise_eq_ok, pure_eq_ok] at h
  obtain ⟨_, -, _, -, _, -, leases, hinsert, rfl⟩ := h
  exact ⟨leases, hinsert, rfl⟩

/-- The last part of `acquire_lease` writes the three rows, and for a concurrent read-only lease
finishes its request. -/
theorem Db.recordLease_eq_ok {db db' : Db} {r : LeaseRequest} {fence : ℕ}
    {next : CampaignSnapshot} {lease : Lease} (h : db.recordLease r fence next = .ok (lease, db')) :
    ∃ rows : Db, Frame db rows ∧ Enrolled db.authority r fence rows.authority ∧
      db' = if r.concurrentReadOnly then
        rows.finishOperation r.requestId (.readOnlyLease lease next) else rows := by
  simp only [Db.recordLease, bind_eq_ok] at h
  obtain ⟨dbActor, hactor, built, hbuilt, dbLease, hlease, h⟩ := h
  obtain ⟨actors, rfl, hactors⟩ := Db.insertActorRecord_eq_ok hactor
  obtain ⟨leases, hinsert, rfl⟩ := Db.insertLease_eq_ok hlease
  refine ⟨{ db with
    actors, leases, resourceLocks := db.resourceLocks.upsert (.ofRequest r fence) },
    ⟨rfl, rfl, fun _ _ h => h⟩, ⟨⟨built, _, LeaseFields.build_eq_ok hbuilt, hinsert⟩, ?_, rfl⟩, ?_⟩
  · exact hactors
  · split at h
    · next hconcurrent =>
        simp only [pure_eq_ok, Prod.mk.injEq] at h
        obtain ⟨rfl, rfl⟩ := h
        rw [if_pos hconcurrent]
        rfl
    · next hexclusive =>
        simp only [pure_eq_ok, Prod.mk.injEq] at h
        obtain ⟨-, rfl⟩ := h
        rw [if_neg hexclusive]
        rfl

/-- **What a fresh `acquire_lease` does.** -/
structure Granted (db : Db) (r : LeaseRequest) (s : CampaignSnapshot) (n : NodeSnapshot) (fence : ℕ)
    (db' : Db) : Prop where
  free : db.operations.get? r.requestId = none
  loaded : db.loadSnapshot r.campaignId = .ok s
  requested : checkLeaseRequest s r = .ok ()
  compatible : db.checkLeaseConflicts r = .ok ()
  node : s.node r.nodeId = .ok n
  enrolled : Enrolled db.authority r fence db'.authority
  transition :
    (r.concurrentReadOnly = true ∧ fence = n.fencingEpoch ∧ Frame db db') ∨
    (r.concurrentReadOnly = false ∧
      fence = max (db.authority.lockFence r.resourceKey) n.fencingEpoch + 1 ∧
      ∃ event row next effects, r.event fence = .ok event ∧
        EventApplied db event row next effects db')
  recorded : ∃ row, Recorded db db' row ∧ row.requestId = r.requestId ∧
    row.payloadDigest = r.digest ∧ row.status = .confirmed ∧ row.result.isSome = true

/-- The two events of leases leave the authority tables alone. -/
theorem settledAuthority_lease {a : Authority} {s next : CampaignSnapshot} {event : Event}
    {effects : List ExternalEffectIntent} (h : reduce s event = .ok (next, effects))
    (ht : event.eventType = .acquireLease ∨ event.eventType = .releaseLease) :
    settledAuthority a event next = a := by
  unfold settledAuthority
  rw [if_neg]
  rintro (hcancel | hfailed)
  · simp [hcancel] at ht
  · obtain ⟨_, _, _, -, hmove, -⟩ := (reduce_accepted h).failed hfailed
    have hmem := hmove.eventType_mem
    rcases ht with ht | ht <;> simp [ht, failingEvents] at hmem

theorem LeaseRequest.event_eq_ok {r : LeaseRequest} {fence : ℕ} {event : Event}
    (h : r.event fence = .ok event) :
    event.eventId = r.requestId ∧ event.campaignId = r.campaignId ∧
      event.eventType = .acquireLease ∧ event.nodeId = some r.nodeId ∧
      event.actorId = some r.actor.actorId ∧ event.fencingEpoch = some fence := by
  have hfields := EventFields.build_eq_ok h
  rw [hfields]
  exact ⟨rfl, rfl, rfl, rfl, rfl, rfl⟩

/-- **Inversion of `acquire_lease`.** -/
theorem Db.acquireLease_eq_ok {db db' : Db} {r : LeaseRequest} {lease : Lease}
    (h : db.acquireLease r = .ok (lease, db')) :
    (db.operations.get? r.requestId ≠ none ∧ db' = db) ∨ ∃ s n fence, Granted db r s n fence db' := by
  simp only [Db.acquireLease, bind_eq_ok] at h
  obtain ⟨prior, hprior, h⟩ := h
  cases prior with
  | some prior =>
      simp only [bind_eq_ok, pure_eq_ok, Prod.mk.injEq] at h
      obtain ⟨_, -, -, rfl⟩ := h
      exact .inl ⟨Db.operationResult_used hprior, rfl⟩
  | none =>
      have hfree := Db.operationResult_eq_none hprior
      simp only [bind_eq_ok, Prod.exists] at h
      obtain ⟨s, hload, _, hrequest, _, hconflicts, fence, next, dbFenced, hfence, hrecord⟩ := h
      obtain ⟨rows, hframe, henrolled, rfl⟩ := Db.recordLease_eq_ok hrecord
      simp only [Db.fenceLease, bind_eq_ok] at hfence
      obtain ⟨n, hnode, hfence⟩ := hfence
      refine .inr ⟨s, n, fence, ?_⟩
      cases hconcurrent : r.concurrentReadOnly with
      | true =>
          rw [if_pos hconcurrent] at hfence
          simp only [bind_eq_ok, pure_eq_ok, Prod.mk.injEq] at hfence
          obtain ⟨dbBegun, hbegin, rfl, rfl, rfl⟩ := hfence
          have hbegun := (Db.beginOperation_beside hbegin).1
          rw [hbegun.authority] at henrolled
          exact ⟨hfree, hload, hrequest, hconflicts, hnode, henrolled,
            .inl ⟨hconcurrent, rfl, Db.finishOperation_frame hbegin hframe _⟩,
            ⟨_, Db.finishOperation_recorded hbegin hframe.kept _, rfl, rfl, rfl, rfl⟩⟩
      | false =>
          rw [if_neg (by simp [hconcurrent])] at hfence
          simp only [bind_eq_ok, pure_eq_ok, Prod.exists, Prod.mk.injEq] at hfence
          obtain ⟨event, hevent, next', effects, dbApplied, happly, hfence', -, rfl⟩ := hfence
          obtain ⟨hid, -, ht, -⟩ := LeaseRequest.event_eq_ok hevent
          rcases Db.applyEventTx_eq_ok happly with ⟨hused, -⟩ | hnew
          · exact absurd (hid ▸ hfree) hused
          · obtain ⟨⟨row, happlied⟩, hauthority, hrecorded⟩ := Db.applyNewEvent_eq_ok hnew
            rw [hauthority, settledAuthority_lease happlied.reduced (.inl ht)] at henrolled
            rw [hfence'] at hevent
            refine ⟨hfree, hload, hrequest, hconflicts, hnode, henrolled,
              .inr ⟨hconcurrent, hfence'.symm, event, row, next', effects, hevent,
                happlied.trans hframe⟩,
              ⟨_, ⟨hrecorded.free, hrecorded.kept.trans hframe.kept,
                hframe.kept _ _ hrecorded.written⟩, hid, rfl, rfl, rfl⟩⟩

/-! ### Binding -/

/-- The row of an actor once it is bound. -/
def ActorRow.bind (row : ActorRow) (r : BindRequest) (actor : Actor) : ActorRow :=
  { row with
    role := r.role
    nativeThreadId := r.nativeThreadId
    identityDigest := some r.identityDigest
    nativeIdentity := r.nativeIdentity
    hostPid := r.hostPid
    canWrite := r.canWrite
    boundRequestId := some r.requestId
    used := true
    actor }

/-- **What a fresh `bind_actor` does.** -/
structure Bound (db : Db) (r : BindRequest) (lease : LeaseRow) (row : ActorRow) (actor : Actor)
    (db' : Db) : Prop where
  lease_eq : db.leases.get? r.leaseId = some lease
  active : lease.state = .active
  holder : lease.actorId = r.actorId
  fence : lease.fencingEpoch = r.fencingEpoch
  row_eq : db.actors.get? r.actorId = some row
  role : row.role = r.role
  unused : row.used = false
  identified : ∃ s, db.loadSnapshot lease.campaignId = .ok s ∧ s.authorityEpoch = r.authorityEpoch ∧
    s.cancellationEpoch = r.cancellationEpoch ∧ checkNativeIdentity s lease.nodeId r = .ok ()
  actor_eq : actor.toActorFields = {
    actorId := r.actorId
    campaignId := lease.campaignId
    nodeId := some lease.nodeId
    role := r.role
    nativeThreadId := r.nativeThreadId
    authorityEpoch := r.authorityEpoch
    canWrite := r.canWrite
    nativeIdentity := r.nativeIdentity
    hostPid := r.hostPid
    principalId := row.actor.principalId }
  frame : Frame db db'
  actors : db'.actors = db.actors.update (·.actorId == r.actorId) (·.bind r actor) fun _ => rfl
  leases : db'.leases = db.leases
  locks : db'.resourceLocks = db.resourceLocks
  recorded : ∃ row, Recorded db db' row ∧ row.requestId = r.requestId ∧
    row.payloadDigest = r.digest ∧ row.status = .confirmed ∧
    row.result = some (.boundActor actor)

/-- **Inversion of `bind_actor`.** -/
theorem Db.bindActor_eq_ok {db db' : Db} {r : BindRequest} {actor : Actor}
    (h : db.bindActor r = .ok (actor, db')) :
    (db.operations.get? r.requestId ≠ none ∧ db' = db) ∨
      ∃ lease row, Bound db r lease row actor db' := by
  simp only [Db.bindActor, bind_eq_ok] at h
  obtain ⟨prior, hprior, h⟩ := h
  cases prior with
  | some prior =>
      simp only [bind_eq_ok, pure_eq_ok, Prod.mk.injEq] at h
      obtain ⟨_, -, -, rfl⟩ := h
      exact .inl ⟨Db.operationResult_used hprior, rfl⟩
  | none =>
      simp only [bind_eq_ok, check_eq_ok, orRaise_eq_ok, pure_eq_ok, Prod.mk.injEq, exists_const,
        Bool.and_eq_true, beq_iff_eq, Bool.not_eq_true', Option.filter_eq_some_iff] at h
      obtain ⟨lease, ⟨hlease, hactive⟩, hholder, s, hload, ⟨⟨hauthority, hcancellation⟩, hfence⟩,
        row, hrow, hrole, ⟨hunused, -⟩, _, hidentity, built, hbuilt, dbBegun, hbegin, -, rfl, rfl⟩ := h
      obtain ⟨hbegun, -⟩ := Db.beginOperation_beside hbegin
      have hauthority' := hbegun.authority
      simp only [Db.authority, Authority.mk.injEq] at hauthority'
      obtain ⟨hactors, hleases, hlocks⟩ := hauthority'
      have hwritten : Frame dbBegun { dbBegun with
          actors := dbBegun.actors.update (·.actorId == r.actorId) (·.bind r built) fun _ => rfl } := ⟨rfl, rfl, fun _ _ h => h⟩
      refine .inr ⟨lease, row, hlease, hactive, hholder, hfence, hrow, hrole, hunused,
        ⟨s, hload, hauthority, hcancellation, hidentity⟩, ActorFields.build_eq_ok hbuilt,
        Db.finishOperation_frame hbegin hwritten _, ?_, hleases, hlocks,
        ⟨_, Db.finishOperation_recorded hbegin hwritten.kept _, rfl, rfl, rfl, rfl⟩⟩
      show dbBegun.actors.update _ (·.bind r built) (fun _ => rfl) = _
      rw [hactors]

/-! ### Releasing -/

/-- The authority tables after a lease was retired. -/
def Authority.retire (a : Authority) (leaseId : String) : Authority :=
  { a with
    leases := a.leases.update (·.leaseId == leaseId)
      (fun row => { row with state := .released, lease := row.lease.withState .released })
      LeaseRow.released_key
    locks := a.locks.update (·.leaseId == some leaseId)
      (fun row => { row with leaseId := none }) LockRow.unlocked_key }

/-- **What a fresh `release_lease` does.** -/
structure Retired (db : Db) (r : ReleaseRequest) (row : LeaseRow) (actor : ActorRow) (db' : Db) :
    Prop where
  row_eq : db.leases.get? r.leaseId = some row
  active : row.state = .active
  actor_eq : db.actors.get? row.actorId = some actor
  authority : db'.authority = db.authority.retire r.leaseId
  transition :
    (actor.role ∈ concurrentReadOnlyActorRoles ∧ Frame db db') ∨
    (actor.role ∉ concurrentReadOnlyActorRoles ∧ ∃ event campaign next effects,
      r.event row = .ok event ∧ EventApplied db event campaign next effects db')
  recorded : ∃ operation, Recorded db db' operation ∧ operation.requestId = r.requestId ∧
    operation.payloadDigest = r.digest ∧ operation.status = .confirmed ∧
    ∃ s effects, operation.result = some (.transition s effects)

theorem ReleaseRequest.event_eq_ok {r : ReleaseRequest} {row : LeaseRow} {event : Event}
    (h : r.event row = .ok event) :
    event.eventId = r.requestId ∧ event.campaignId = row.campaignId ∧
      event.eventType = .releaseLease ∧ event.nodeId = some row.nodeId ∧
      event.actorId = some row.actorId ∧ event.fencingEpoch = some row.fencingEpoch := by
  have hfields := EventFields.build_eq_ok h
  rw [hfields]
  exact ⟨rfl, rfl, rfl, rfl, rfl, rfl⟩

/-- **Inversion of `release_lease`.** -/
theorem Db.releaseLease_eq_ok {db db' : Db} {r : ReleaseRequest} {s : CampaignSnapshot}
    (h : db.releaseLease r = .ok (s, db')) :
    (db.operations.get? r.requestId ≠ none ∧ db' = db) ∨
      ∃ row actor, Retired db r row actor db' := by
  simp only [Db.releaseLease, bind_eq_ok, orRaise_eq_ok] at h
  obtain ⟨row, hrow, prior, hprior, h⟩ := h
  cases prior with
  | some prior =>
      simp only [bind_eq_ok, pure_eq_ok, Prod.mk.injEq] at h
      obtain ⟨_, -, -, rfl⟩ := h
      exact .inl ⟨Db.operationResult_used hprior, rfl⟩
  | none =>
      have hfree := Db.operationResult_eq_none hprior
      simp only [Db.releaseActive, bind_eq_ok, check_eq_ok, orRaise_eq_ok, beq_iff_eq, exists_const]
        at h
      obtain ⟨hactive, actor, hactor, h⟩ := h
      refine .inr ⟨row, actor, ?_⟩
      split at h
      · next hconcurrent =>
          simp only [bind_eq_ok, pure_eq_ok, Prod.mk.injEq] at h
          obtain ⟨snapshot, -, _, -, _, -, dbBegun, hbegin, rfl, rfl⟩ := h
          have hretired : Frame dbBegun (dbBegun.retireLease r.leaseId) :=
            ⟨rfl, rfl, fun _ _ h => h⟩
          refine ⟨hrow, hactive, hactor, ?_, .inl ⟨by simpa using hconcurrent,
            Db.finishOperation_frame hbegin hretired _⟩,
            ⟨_, Db.finishOperation_recorded hbegin hretired.kept _, rfl, rfl, rfl, _, _, rfl⟩⟩
          show dbBegun.authority.retire r.leaseId = _
          rw [(Db.beginOperation_beside hbegin).1.authority]
      · next hexclusive =>
          simp only [bind_eq_ok, pure_eq_ok, Prod.exists, Prod.mk.injEq] at h
          obtain ⟨event, hevent, next, effects, dbApplied, happly, -, rfl⟩ := h
          have hretired : Frame dbApplied (dbApplied.retireLease r.leaseId) :=
            ⟨rfl, rfl, fun _ _ h => h⟩
          obtain ⟨hid, -, ht, -⟩ := ReleaseRequest.event_eq_ok hevent
          rcases Db.applyEventTx_eq_ok happly with ⟨hused, -⟩ | hnew
          · exact absurd (hid ▸ hfree) hused
          · obtain ⟨⟨campaign, happlied⟩, hauthority, hrecorded⟩ := Db.applyNewEvent_eq_ok hnew
            refine ⟨hrow, hactive, hactor, ?_, .inr ⟨by simpa using hexclusive, event, campaign, next,
              effects, hevent, happlied.trans hretired⟩,
              ⟨_, ⟨hrecorded.free, hrecorded.kept.trans hretired.kept,
                hretired.kept _ _ hrecorded.written⟩, hid, rfl, rfl, _, _, rfl⟩⟩
            show dbApplied.authority.retire r.leaseId = _
            rw [hauthority, settledAuthority_lease happlied.reduced (.inr ht)]

/-! ### Recovery -/

/-- The authority tables after a restart that retained some leases. -/
def Authority.recover (a : Authority) (retained : List String) : Authority :=
  let leases := a.leases.update (fun row => row.state == .active && !retained.contains row.leaseId)
    (fun row => { row with state := .invalidated }) LeaseRow.invalidated_key
  { a with
    leases
    locks := a.locks.update
      (fun lock => lock.leaseId.any fun leaseId =>
        (leases.get? leaseId).any fun lease => lease.state != .active)
      (fun lock => { lock with leaseId := none }) LockRow.unlocked_key }

/-- **What `recover_after_restart` does.** -/
structure Recovered (db : Db) (retained : List String) (db' : Db) : Prop where
  checked : ∀ leaseId ∈ retained, db.checkRetained retained leaseId = .ok ()
  lifecycle : db'.lifecycle = db.lifecycle
  operations : db'.operations = db.operations
  authority : db'.authority = db.authority.recover retained
  outbox : db'.outbox = db.outbox.update (·.state == .executing)
    (fun row => { row with state := .ambiguous }) fun _ => rfl

theorem Db.recoverAfterRestart_eq_ok {db db' : Db} {retained : List String}
    (h : db.recoverAfterRestart retained = .ok db') : Recovered db retained db' := by
  simp only [Db.recoverAfterRestart, bind_eq_ok, pure_eq_ok] at h
  obtain ⟨_, -, _, hchecked, rfl⟩ := h
  exact ⟨forEach_eq_ok hchecked, rfl, rfl, rfl, rfl⟩

end CodingOS.Store
