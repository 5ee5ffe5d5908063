import CodingOS.Store.Run

/-!
# The rows of leases

Leases are granted by `acquire_lease` and ended by `release_lease`, by recovery and by the terminal
events.  `AuthorityStep` says what a transaction does to the tables of actors, leases and locks.  A row
that is active was active before, as it is, or was granted by this transaction, so what holds of
active leases rests on what `acquire_lease` checked.

Whether a lease is exclusive is read from the row of its actor, which other transactions write: an
actor keeps its role, also when it is presented again under another lease, because `actor_json` ends
with the role.
-/

namespace CodingOS.Store

open CodingOS.Python CodingOS.Campaign Systems

/-- The roles whose leases are exclusive. -/
def exclusiveActorRoles : List ActorRole := [.implementer, .repairer, .validator]

theorem exclusive_or_concurrent (role : ActorRole) :
    role ∈ exclusiveActorRoles ↔ role ∉ concurrentReadOnlyActorRoles := by
  cases role <;> decide

theorem eq_singleton {α : Type} {a : α} {l : List α} (ha : a ∈ l) (hnodup : l.Nodup)
    (h : ∀ b ∈ l, b = a) : l = [a] := by
  cases l with
  | nil => cases ha
  | cons b l =>
      obtain rfl := h b List.mem_cons_self
      cases l with
      | nil => rfl
      | cons c l =>
          obtain rfl := h c (List.mem_cons_of_mem _ List.mem_cons_self)
          simp at hnodup

section Leases

variable [Runtime]

/-! ### Leases that stay active -/

/-- A retirement ends one lease. -/
theorem mem_retire {a : Authority} {leaseId : String} {l : LeaseRow} (hl : l.state = .active) :
    l ∈ (a.retire leaseId).leases.rows ↔ l ∈ a.leases.rows ∧ l.leaseId ≠ leaseId := by
  have hleases : (a.retire leaseId).leases = a.leases.update (·.leaseId == leaseId)
      (fun row => { row with state := .released, lease := row.lease.withState .released })
      fun _ => rfl := rfl
  rw [hleases, Table.mem_update_of_not _ (Q := fun l => l.state = .active) (fun _ h => by cases h) hl]
  simp

/-- A recovery ends the leases it does not retain. -/
theorem mem_recover {a : Authority} {retained : List String} {l : LeaseRow} (hl : l.state = .active) :
    l ∈ (a.recover retained).leases.rows ↔ l ∈ a.leases.rows ∧ l.leaseId ∈ retained := by
  have hleases : (a.recover retained).leases = a.leases.update
      (fun row => row.state == .active && !retained.contains row.leaseId)
      (fun row => { row with state := .invalidated }) fun _ => rfl := rfl
  rw [hleases, Table.mem_update_of_not _ (Q := fun l => l.state = .active) (fun _ h => by cases h) hl]
  simp [hl]

/-- A terminal event ends the leases of its campaign. -/
theorem mem_settledAuthority {a : Authority} {event : Event} {next : CampaignSnapshot} {l : LeaseRow}
    (hl : l.state = .active) : l ∈ (settledAuthority a event next).leases.rows ↔
      l ∈ a.leases.rows ∧
        (event.eventType = .cancel ∨ next.state = .failed → l.campaignId ≠ event.campaignId) := by
  by_cases hend : event.eventType = .cancel ∨ next.state = .failed
  · have hleases : (settledAuthority a event next).leases = a.leases.update
        (fun row => row.campaignId == event.campaignId && row.state == .active)
        (fun row => { row with state := .invalidated }) fun _ => rfl := by
      rw [settledAuthority, if_pos hend]
    rw [hleases, Table.mem_update_of_not _ (Q := fun l => l.state = .active) (fun _ h => by cases h) hl]
    simp [hl, hend]
  · rw [settledAuthority, if_neg hend]
    exact ⟨fun hmem => ⟨hmem, fun h => absurd h hend⟩, And.left⟩

/-! ### What a transaction does to the tables of authority -/

/-- What one transaction does to actors, leases and locks. -/
inductive AuthorityStep (db : Db) (t : Transaction) (db' : Db) : Prop
  | same : db'.authority = db.authority → AuthorityStep db t db'
  | settled {event : Event} {row : CampaignRow} {next : CampaignSnapshot}
      {effects : List ExternalEffectIntent} : t.carries event →
      EventApplied db event row next effects db' →
      db'.authority = settledAuthority db.authority event next → AuthorityStep db t db'
  | granted {r : LeaseRequest} {s : CampaignSnapshot} {n : NodeSnapshot} {fence : ℕ} :
      t = .acquireLease r → Granted db r s n fence db' → AuthorityStep db t db'
  | bound {r : BindRequest} {lease : LeaseRow} {row : ActorRow} {actor : Actor} :
      t = .bindActor r → Bound db r lease row actor db' → AuthorityStep db t db'
  | retired {r : ReleaseRequest} {row : LeaseRow} {actor : ActorRow} :
      t = .releaseLease r → Retired db r row actor db' → AuthorityStep db t db'
  | recovered {retained : List String} :
      t = .recoverAfterRestart retained → Recovered db retained db' → AuthorityStep db t db'

variable {db db' : Db} {t : Transaction}

theorem Committed.authority (h : Committed db t db') : AuthorityStep db t db' := by
  cases h with
  | beside hbeside => exact .same hbeside.authority
  | created hcreated => exact .same hcreated.authority
  | applied hcarries happlied hauthority => exact .settled hcarries happlied hauthority
  | granted hgranted => exact .granted rfl hgranted
  | bound hbound => exact .bound rfl hbound
  | retired hretired => exact .retired rfl hretired
  | recovered hrecovered => exact .recovered rfl hrecovered
  | prepared hprepared => exact .same hprepared.authority
  | updated hupdated =>
      obtain ⟨_, -, -, rfl⟩ := hupdated.revision
      exact .same rfl

/-- `lease` is the row `acquire_lease` writes for the request. -/
structure Grants (r : LeaseRequest) (fence : ℕ) (lease : LeaseRow) : Prop where
  leaseId : lease.leaseId = r.leaseId
  campaignId : lease.campaignId = r.campaignId
  nodeId : lease.nodeId = r.nodeId
  resourceKey : lease.resourceKey = r.resourceKey
  actorId : lease.actorId = r.actor.actorId
  fencingEpoch : lease.fencingEpoch = fence
  state : lease.state = .active

/-- The new row of a granted lease, and the old ones. -/
theorem Enrolled.leases {a a' : Authority} {r : LeaseRequest} {fence : ℕ}
    (h : Enrolled a r fence a') : ∃ lease, Grants r fence lease ∧
      a.leases.get? lease.leaseId = none ∧
      ∀ l, l ∈ a'.leases.rows ↔ l ∈ a.leases.rows ∨ l = lease := by
  obtain ⟨l, epoch, hfields, hinsert⟩ := h.lease
  refine ⟨.ofLease l, ?_, (Table.insert?_eq_some.mp hinsert).1, fun l' => Table.mem_insert? hinsert⟩
  have hlease : ∀ l' : LeaseFields, l.toLeaseFields = l' → (LeaseRow.ofLease l).leaseId = l'.leaseId ∧
      (LeaseRow.ofLease l).campaignId = l'.campaignId ∧ (LeaseRow.ofLease l).nodeId = l'.nodeId ∧
      (LeaseRow.ofLease l).resourceKey = l'.resourceKey ∧
      (LeaseRow.ofLease l).actorId = l'.actorId ∧
      (LeaseRow.ofLease l).fencingEpoch = l'.fencingEpoch ∧
      (LeaseRow.ofLease l).state = l'.state := by
    rintro _ rfl
    exact ⟨rfl, rfl, rfl, rfl, rfl, rfl, rfl⟩
  obtain ⟨h₁, h₂, h₃, h₄, h₅, h₆, h₇⟩ := hlease _ hfields
  exact ⟨h₁, h₂, h₃, h₄, h₅, h₆, h₇⟩

/-- **An active lease was active before, as it is, or was just granted.** -/
theorem AuthorityStep.active (h : AuthorityStep db t db') {l : LeaseRow} (hl : l ∈ db'.leases.rows)
    (hactive : l.state = .active) : l ∈ db.leases.rows ∨
      ∃ r s n fence, t = .acquireLease r ∧ Granted db r s n fence db' ∧ Grants r fence l := by
  cases h with
  | same hsame =>
      rw [show db'.leases = db.leases from congrArg Authority.leases hsame] at hl
      exact .inl hl
  | settled _ _ hauthority =>
      rw [show db'.leases = _ from congrArg Authority.leases hauthority,
        mem_settledAuthority hactive] at hl
      exact .inl hl.1
  | @granted r s n fence ht hgranted =>
      obtain ⟨lease, hgrants, -, hrows⟩ := hgranted.enrolled.leases
      rcases (hrows l).mp hl with hold | rfl
      · exact .inl hold
      · exact .inr ⟨r, s, n, fence, ht, hgranted, hgrants⟩
  | bound _ hbound =>
      rw [hbound.leases] at hl
      exact .inl hl
  | retired _ hretired =>
      rw [show db'.leases = _ from congrArg Authority.leases hretired.authority,
        mem_retire hactive] at hl
      exact .inl hl.1
  | recovered _ hrecovered =>
      rw [show db'.leases = _ from congrArg Authority.leases hrecovered.authority,
        mem_recover hactive] at hl
      exact .inl hl.1

/-! ### Actors -/

theorem optionalText_suffix {o o' : Option String} {u v : List Char}
    (h : u ++ ':' :: (canonicalJson (optionalText o)).toList
      = v ++ ':' :: (canonicalJson (optionalText o')).toList) : u = v ∧ o = o' := by
  have hcolon : ':' ≠ '\\' := by decide
  have hlast := congrArg List.getLast? h
  cases o with
  | none =>
      cases o' with
      | none => exact ⟨List.append_cancel_right h, rfl⟩
      | some t => simp [optionalText, canonicalJson, jsonText_toList, List.getLast?_cons] at hlast
  | some s =>
      cases o' with
      | none => simp [optionalText, canonicalJson, jsonText_toList, List.getLast?_cons] at hlast
      | some t =>
          obtain ⟨hfront, rfl⟩ := jsonText_suffix hcolon hcolon h
          exact ⟨List.append_cancel_right hfront, rfl⟩

/-- How `actor_json` begins: the campaign comes after the identifier and a number. -/
theorem actor_json_head (a : ActorFields) :
    '\x7b' :: ((jsonText "actor_id").toList ++ ':' :: ((jsonText a.actorId).toList ++
      ',' :: ((jsonText "authority_epoch").toList ++ ':' :: ((intText a.authorityEpoch).toList ++
        ',' :: ((jsonText "campaign_id").toList ++ ':' :: (jsonText a.campaignId).toList)))))
      <+: (canonicalJson a.toDict).toList := by
  simp [ActorFields.toDict, canonicalJson, jsonEntries, sortByKey, String.toList_append]

/-- How `actor_json` ends: after the node come the principal and the role. -/
theorem actor_json_tail (a : ActorFields) : ∃ front, (canonicalJson a.toDict).toList =
    front ++ ':' :: (canonicalJson (optionalText a.nodeId)).toList
      ++ ',' :: (jsonText "principal_id").toList
      ++ ':' :: (canonicalJson (optionalText a.principalId)).toList
      ++ ',' :: (jsonText "role").toList
      ++ ':' :: (canonicalJson (optionalText (some a.role.value))).toList ++ ['\x7d'] := by
  obtain ⟨front, hfront⟩ := canonicalJson_suffix (List.drop_suffix 7 (sortByKey (jsonEntries [
    ("actor_id", .str a.actorId),
    ("campaign_id", .str a.campaignId),
    ("node_id", optionalText a.nodeId),
    ("role", .str a.role.value),
    ("native_thread_id", .str a.nativeThreadId),
    ("authority_epoch", .int a.authorityEpoch),
    ("can_write", .bool a.canWrite),
    ("native_identity", .mapping a.nativeIdentity),
    ("host_pid", (a.hostPid.map Value.int).getD .null),
    ("principal_id", optionalText a.principalId)]))) (by simp [jsonEntries, sortByKey])
  refine ⟨front ++ (jsonText "node_id").toList, ?_⟩
  rw [ActorFields.toDict, ← hfront]
  simp [jsonEntries, sortByKey, canonicalJson, String.toList_append]
  

/-- `actor_json` tells campaigns, nodes and roles apart. -/
theorem actor_json_binding {a b : ActorFields} (h : canonicalJson a.toDict = canonicalJson b.toDict) :
    a.campaignId = b.campaignId ∧ a.nodeId = b.nodeId ∧ a.role = b.role := by
  have hcampaign : a.campaignId = b.campaignId := by
    obtain ⟨rest, hrest⟩ := actor_json_head a
    obtain ⟨rest', hrest'⟩ := actor_json_head b
    rw [h, ← hrest'] at hrest
    simp only [List.cons_append, List.append_assoc, List.cons.injEq, true_and,
      List.append_cancel_left_eq] at hrest
    have hid := (List.cons.inj (jsonText_front hrest).2).2
    simp only [List.append_cancel_left_eq, List.cons.injEq, true_and] at hid
    have hepoch := (eq_of_append_cons (comma_not_mem_intText _) (comma_not_mem_intText _) hid).2
    simp only [List.append_cancel_left_eq, List.cons.injEq, true_and] at hepoch
    exact (jsonText_front hepoch).1
  obtain ⟨front, hfront⟩ := actor_json_tail a
  obtain ⟨front', hfront'⟩ := actor_json_tail b
  rw [h, hfront'] at hfront
  obtain ⟨hprincipal, hrole⟩ := optionalText_suffix (List.append_cancel_right hfront)
  obtain ⟨hnode, -⟩ := optionalText_suffix (List.append_cancel_right hprincipal)
  refine ⟨hcampaign, (optionalText_suffix (List.append_cancel_right hnode)).2.symm, ?_⟩
  have hvalue := Option.some.inj hrole
  revert hvalue
  generalize a.role = x
  generalize b.role = y
  cases x <;> cases y <;> decide

/-- The row of an actor says of its role and its write permission what its record says. -/
structure ActorRow.Sound (row : ActorRow) : Prop where
  role : row.actor.role = row.role
  canWrite : row.canWrite = !readOnlyActorRoles.contains row.role

/-- The role of the actor of a lease. -/
def Db.leaseRole (db : Db) (lease : LeaseRow) : Option ActorRole :=
  (db.actors.get? lease.actorId).map (·.role)

/-- The active leases. -/
def Db.activeLeases (db : Db) : List LeaseRow := db.leases.rows.filter (·.state = .active)

theorem Db.mem_activeLeases {db : Db} {l : LeaseRow} :
    l ∈ db.activeLeases ↔ l ∈ db.leases.rows ∧ l.state = .active := by
  rw [Db.activeLeases, List.mem_filter, decide_eq_true_iff]

/-- The actors of a database are sound, and every active lease has its actor. -/
structure Staffed (db : Db) : Prop where
  sound : ∀ id row, db.actors.get? id = some row → row.Sound
  held : ∀ l ∈ db.activeLeases, ∃ role, db.leaseRole l = some role

theorem ActorRow.bind_actorId (row : ActorRow) (r : BindRequest) (actor : Actor) :
    (row.bind r actor).actorId = row.actorId := rfl

theorem Bound.sound {r : BindRequest} {lease : LeaseRow} {row : ActorRow} {actor : Actor}
    (h : Bound db r lease row actor db') (old : ActorRow) : (old.bind r actor).Sound := by
  constructor
  · show actor.role = r.role
    rw [h.actor_eq]
  · rfl

/-- The actor a lease was granted to: a row that was there with this `actor_json`, or the row of the
request. -/
theorem Granted.actor_row {r : LeaseRequest} {s : CampaignSnapshot} {n : NodeSnapshot} {fence : ℕ}
    (h : Granted db r s n fence db') : ∃ row, db'.actors.get? r.actor.actorId = some row ∧
      ((db.actors.get? r.actor.actorId = some row ∧
          canonicalJson row.actor.toDict = canonicalJson r.actor.toDict) ∨
        row = .ofActor r.actor) := by
  rcases h.enrolled.actor with ⟨row, hrow, hjson, hsame⟩ | hinsert
  · have hactors : db'.actors = db.actors := hsame
    exact ⟨row, by rw [hactors]; exact hrow, .inl ⟨hrow, hjson⟩⟩
  · have hinsert' : db.actors.insert? (.ofActor r.actor) = some db'.actors := hinsert
    refine ⟨.ofActor r.actor, ?_, .inr rfl⟩
    rw [Table.get?_insert? hinsert']
    exact if_pos rfl

/-- The actor a lease was granted to keeps the role the request names. -/
theorem Granted.actor {r : LeaseRequest} {s : CampaignSnapshot} {n : NodeSnapshot} {fence : ℕ}
    (hgranted : Granted db r s n fence db') (h : Staffed db) :
    ∃ row, db'.actors.get? r.actor.actorId = some row ∧ row.role = r.actor.role ∧ row.Sound := by
  obtain ⟨row, hrow, ⟨hold, hjson⟩ | rfl⟩ := hgranted.actor_row
  · have hsound := h.sound _ _ hold
    refine ⟨row, hrow, ?_, hsound⟩
    rw [← hsound.role]
    exact (actor_json_binding hjson).2.2
  · refine ⟨_, hrow, rfl, rfl, ?_⟩
    have hrequest := hgranted.requested
    simp only [checkLeaseRequest, bind_eq_ok, check_eq_ok, exists_const, LeaseRequest.readOnly]
      at hrequest
    obtain ⟨-, -, -, -, -, hdenied, hcapable⟩ := hrequest
    show r.actor.canWrite = !readOnlyActorRoles.contains r.actor.role
    cases hread : readOnlyActorRoles.contains r.actor.role <;> simp_all

/-- **The row of an actor stays as it is, or is bound.** -/
theorem AuthorityStep.actor_row (h : AuthorityStep db t db') {id : String} {row : ActorRow}
    (hrow : db.actors.get? id = some row) : db'.actors.get? id = some row ∨
      ∃ r lease actor, t = .bindActor r ∧ Bound db r lease row actor db' ∧ id = r.actorId ∧
        db'.actors.get? id = some (row.bind r actor) := by
  cases h with
  | same hsame =>
      exact .inl (by rw [show db'.actors = db.actors from congrArg Authority.actors hsame, hrow])
  | @settled event _ next _ _ _ hauthority =>
      have hactors : db'.actors = db.actors := by
        rw [show db'.actors = _ from congrArg Authority.actors hauthority, settledAuthority]
        split <;> rfl
      exact .inl (by rw [hactors, hrow])
  | @granted r _ _ _ _ hgranted =>
      rcases hgranted.enrolled.actor with ⟨-, -, -, hsame⟩ | hinsert
      · exact .inl (by rw [show db'.actors = db.actors from hsame, hrow])
      · have hinsert' : db.actors.insert? (.ofActor r.actor) = some db'.actors := hinsert
        refine .inl ?_
        rw [Table.get?_insert? hinsert', if_neg ?_, hrow]
        rintro rfl
        have hfree : db.actors.get? (ActorRow.ofActor r.actor).actorId = none :=
          (Table.insert?_eq_some.mp hinsert').1
        rw [hfree] at hrow
        cases hrow
  | @bound r lease old actor ht hbound =>
      have hactors : db'.actors = db.actors.update (·.actorId == r.actorId) (·.bind r actor)
          fun row => row.bind_actorId r actor := hbound.actors
      have hkey : row.actorId = id := Table.key_of_get? hrow
      by_cases hid : id = r.actorId
      · have hold := hbound.row_eq
        rw [← hid, hrow] at hold
        obtain rfl := Option.some.inj hold
        refine .inr ⟨r, lease, actor, ht, hbound, hid, ?_⟩
        rw [hactors, Table.get?_update, hrow, Option.map_some, if_pos (by simp [hkey, hid])]
      · refine .inl ?_
        rw [hactors, Table.get?_update, hrow, Option.map_some, if_neg (by simp [hkey, hid])]
  | retired _ hretired =>
      exact .inl (by rw [show db'.actors = db.actors from congrArg Authority.actors
        hretired.authority, hrow])
  | recovered _ hrecovered =>
      exact .inl (by rw [show db'.actors = db.actors from congrArg Authority.actors
        hrecovered.authority, hrow])

/-- An actor keeps its role. -/
theorem AuthorityStep.role (h : AuthorityStep db t db') {id : String} {row : ActorRow}
    (hrow : db.actors.get? id = some row) :
    ∃ row', db'.actors.get? id = some row' ∧ row'.role = row.role := by
  rcases h.actor_row hrow with hsame | ⟨r, _, actor, -, hbound, -, hrow'⟩
  · exact ⟨row, hsame, rfl⟩
  · exact ⟨row.bind r actor, hrow', hbound.role.symm⟩

theorem AuthorityStep.leaseRole (h : AuthorityStep db t db') {l : LeaseRow} {role : ActorRole}
    (hrole : db.leaseRole l = some role) : db'.leaseRole l = some role := by
  obtain ⟨row, hrow, rfl⟩ := Option.map_eq_some_iff.mp hrole
  obtain ⟨row', hrow', hsame⟩ := h.role hrow
  rw [Db.leaseRole, hrow', Option.map_some, hsame]

/-- The role of a lease that was just granted. -/
theorem Granted.leaseRole {r : LeaseRequest} {s : CampaignSnapshot} {n : NodeSnapshot} {fence : ℕ}
    {l : LeaseRow} (hgranted : Granted db r s n fence db') (hstaffed : Staffed db)
    (hl : Grants r fence l) : db'.leaseRole l = some r.actor.role := by
  obtain ⟨row, hrow, hrole, -⟩ := hgranted.actor hstaffed
  rw [Db.leaseRole, hl.actorId, hrow, Option.map_some, hrole]

/-- **One step keeps the actors sound.** -/
theorem Staffed.keep (hstaffed : Staffed db) (h : AuthorityStep db t db') : Staffed db' := by
  constructor
  · intro id row' hrow'
    cases h with
    | same hsame =>
        rw [show db'.actors = db.actors from congrArg Authority.actors hsame] at hrow'
        exact hstaffed.sound id row' hrow'
    | @settled event _ next _ _ _ hauthority =>
        have hactors : db'.actors = db.actors := by
          rw [show db'.actors = _ from congrArg Authority.actors hauthority, settledAuthority]
          split <;> rfl
        exact hstaffed.sound id row' (hactors ▸ hrow')
    | @granted r _ _ _ _ hgranted =>
        obtain ⟨row, hrow, -, hsound⟩ := hgranted.actor hstaffed
        rcases hgranted.enrolled.actor with ⟨-, -, -, hsame⟩ | hinsert
        · rw [show db'.actors = db.actors from hsame] at hrow'
          exact hstaffed.sound id row' hrow'
        · have hinsert' : db.actors.insert? (.ofActor r.actor) = some db'.actors := hinsert
          by_cases hid : id = r.actor.actorId
          · rw [hid, hrow] at hrow'
            obtain rfl := Option.some.inj hrow'
            exact hsound
          · rw [Table.get?_insert? hinsert',
              if_neg (show ¬ id = (ActorRow.ofActor r.actor).actorId from hid)] at hrow'
            exact hstaffed.sound id row' hrow'
    | @bound r _ _ actor _ hbound =>
        have hactors : db'.actors = db.actors.update (·.actorId == r.actorId) (·.bind r actor)
            fun row => row.bind_actorId r actor := hbound.actors
        rw [hactors, Table.get?_update] at hrow'
        obtain ⟨row, hrow, rfl⟩ := Option.map_eq_some_iff.mp hrow'
        split
        · exact hbound.sound row
        · exact hstaffed.sound id row hrow
    | retired _ hretired =>
        rw [show db'.actors = db.actors from congrArg Authority.actors hretired.authority] at hrow'
        exact hstaffed.sound id row' hrow'
    | recovered _ hrecovered =>
        rw [show db'.actors = db.actors from congrArg Authority.actors hrecovered.authority] at hrow'
        exact hstaffed.sound id row' hrow'
  · intro l hl
    obtain ⟨hmem, hactive⟩ := Db.mem_activeLeases.mp hl
    rcases h.active hmem hactive with hold | ⟨r, s, n, fence, -, hgranted, hgrants⟩
    · obtain ⟨role, hrole⟩ := hstaffed.held l (Db.mem_activeLeases.mpr ⟨hold, hactive⟩)
      exact ⟨role, h.leaseRole hrole⟩
    · exact ⟨_, hgranted.leaseRole hstaffed hgrants⟩

/-! ### Mutual exclusion -/

/-- What `acquire_lease` checked of the active leases. -/
theorem Granted.resource_free {r : LeaseRequest} {s : CampaignSnapshot} {n : NodeSnapshot} {fence : ℕ}
    (h : Granted db r s n fence db') {l : LeaseRow} (hl : l ∈ db.activeLeases) :
    l.resourceKey ≠ r.resourceKey := by
  obtain ⟨hmem, hactive⟩ := Db.mem_activeLeases.mp hl
  have hcompatible := h.compatible
  simp only [Db.checkLeaseConflicts, bind_eq_ok, check_eq_ok, exists_const, Bool.not_eq_true',
    List.any_eq_false] at hcompatible
  intro hkey
  have hfree := hcompatible.1 l hmem
  simp [hkey, hactive] at hfree

theorem Granted.node_free {r : LeaseRequest} {s : CampaignSnapshot} {n : NodeSnapshot} {fence : ℕ}
    (h : Granted db r s n fence db') (hstaffed : Staffed db) {l : LeaseRow} (hl : l ∈ db.activeLeases)
    (hnode : l.campaignId = r.campaignId ∧ l.nodeId = r.nodeId) :
    r.actor.role ∈ concurrentReadOnlyActorRoles ∧
      ∃ role ∈ concurrentReadOnlyActorRoles, db.leaseRole l = some role := by
  obtain ⟨hmem, hactive⟩ := Db.mem_activeLeases.mp hl
  obtain ⟨role, hrole⟩ := hstaffed.held l hl
  obtain ⟨row, hrow, hrowRole⟩ := Option.map_eq_some_iff.mp hrole
  have hlisted : (l, row) ∈ db.activeNodeLeases r.campaignId r.nodeId := by
    refine List.mem_filterMap.mpr ⟨l, List.mem_filter.mpr ⟨hmem, ?_⟩, ?_⟩
    · simp [hnode, hactive]
    · rw [hrow, Option.map_some]
  have hcompatible := h.compatible
  simp only [Db.checkLeaseConflicts, bind_eq_ok, check_eq_ok, exists_const] at hcompatible
  have hchecked := hcompatible.2
  split at hchecked
  · next hconcurrent =>
      simp only [check_eq_ok, Bool.not_eq_true', List.any_eq_false] at hchecked
      have hreads := hchecked _ hlisted
      simp only [Bool.or_eq_true, beq_iff_eq, not_or, Bool.not_eq_true] at hreads
      refine ⟨by simpa [LeaseRequest.concurrentReadOnly] using hconcurrent, role, ?_, hrole⟩
      -- the write permission of a sound row tells read-only roles from the others
      have hdenied := (hstaffed.sound _ _ hrow).canWrite
      rw [hreads.1, hrowRole] at hdenied
      have hvalidator : role ≠ .validator := hrowRole ▸ hreads.2
      revert hdenied hvalidator
      cases role <;> decide
  · rw [check_eq_ok, List.isEmpty_iff] at hchecked
    rw [hchecked] at hlisted
    cases hlisted

/-- No two active leases hold one resource, and two active leases of one node are both read-only. -/
structure Exclusive (db : Db) : Prop extends Staffed db where
  resource : ∀ l ∈ db.activeLeases, ∀ l' ∈ db.activeLeases, l.resourceKey = l'.resourceKey → l = l'
  node : ∀ l ∈ db.activeLeases, ∀ l' ∈ db.activeLeases,
    l.campaignId = l'.campaignId ∧ l.nodeId = l'.nodeId → l ≠ l' →
      ∃ role ∈ concurrentReadOnlyActorRoles, db.leaseRole l = some role

/-- Two rows one request could have granted are one row. -/
theorem Grants.unique {r : LeaseRequest} {fence fence' : ℕ} {l l' : LeaseRow} (h : Grants r fence l)
    (h' : Grants r fence' l') (hl : l ∈ db.leases.rows) (hl' : l' ∈ db.leases.rows) : l = l' :=
  Table.eq_of_key hl hl' (h.leaseId.trans h'.leaseId.symm)

/-- **One step keeps the leases exclusive.** -/
theorem Exclusive.keep (h : Exclusive db) (hstep : AuthorityStep db t db') : Exclusive db' := by
  have hstaffed := h.toStaffed
  have hactive : ∀ l ∈ db'.activeLeases, l ∈ db.activeLeases ∨
      ∃ r s n fence, t = .acquireLease r ∧ Granted db r s n fence db' ∧ Grants r fence l := by
    intro l hl
    obtain ⟨hmem, hactive⟩ := Db.mem_activeLeases.mp hl
    rcases hstep.active hmem hactive with hold | hnew
    · exact .inl (Db.mem_activeLeases.mpr ⟨hold, hactive⟩)
    · exact .inr hnew
  refine ⟨hstaffed.keep hstep, fun l hl l' hl' hkey => ?_, fun l hl l' hl' hnode hne => ?_⟩
  · rcases hactive l hl with hold | ⟨r, s, n, fence, ht, hgranted, hgrants⟩
    · rcases hactive l' hl' with hold' | ⟨r', _, _, _, -, hgranted', hgrants'⟩
      · exact h.resource l hold l' hold' hkey
      · exact absurd (hkey.trans hgrants'.resourceKey) (hgranted'.resource_free hold)
    · rcases hactive l' hl' with hold' | ⟨r', _, _, _, ht', -, hgrants'⟩
      · exact absurd (hkey.symm.trans hgrants.resourceKey) (hgranted.resource_free hold')
      · obtain rfl := Transaction.acquireLease.inj (ht.symm.trans ht')
        exact hgrants.unique hgrants' (Db.mem_activeLeases.mp hl).1 (Db.mem_activeLeases.mp hl').1
  · rcases hactive l hl with hold | ⟨r, s, n, fence, ht, hgranted, hgrants⟩
    · rcases hactive l' hl' with hold' | ⟨r', _, _, _, -, hgranted', hgrants'⟩
      · obtain ⟨role, hread, hrole⟩ := h.node l hold l' hold' hnode hne
        exact ⟨role, hread, hstep.leaseRole hrole⟩
      · obtain ⟨-, role, hread, hrole⟩ := hgranted'.node_free hstaffed hold
          ⟨hnode.1.trans hgrants'.campaignId, hnode.2.trans hgrants'.nodeId⟩
        exact ⟨role, hread, hstep.leaseRole hrole⟩
    · rcases hactive l' hl' with hold' | ⟨r', _, _, _, ht', -, hgrants'⟩
      · obtain ⟨hread, -⟩ := hgranted.node_free hstaffed hold'
          ⟨hnode.1.symm.trans hgrants.campaignId, hnode.2.symm.trans hgrants.nodeId⟩
        exact ⟨_, hread, hgranted.leaseRole hstaffed hgrants⟩
      · obtain rfl := Transaction.acquireLease.inj (ht.symm.trans ht')
        exact absurd (hgrants.unique hgrants' (Db.mem_activeLeases.mp hl).1
          (Db.mem_activeLeases.mp hl').1) hne

theorem exclusive_run {history : List (Entry Db Transaction)} (h : StoreRun history db) :
    Exclusive db := by
  refine h.invariant Exclusive ⟨⟨fun _ _ hrow => ?_, fun l hl => ?_⟩, fun l hl => ?_, fun l hl => ?_⟩
    fun hexclusive hstep => hexclusive.keep hstep.authority
  · cases hrow
  · cases hl
  · cases hl
  · cases hl

/-- The active leases of a node. -/
def Db.nodeLeases (db : Db) (campaignId nodeId : String) : List LeaseRow :=
  db.activeLeases.filter fun l => l.campaignId = campaignId ∧ l.nodeId = nodeId

theorem Db.mem_nodeLeases {campaignId nodeId : String} {l : LeaseRow} :
    l ∈ db.nodeLeases campaignId nodeId ↔
      l ∈ db.activeLeases ∧ l.campaignId = campaignId ∧ l.nodeId = nodeId := by
  rw [Db.nodeLeases, List.mem_filter, decide_eq_true_iff]

theorem Db.nodeLeases_nodup (campaignId nodeId : String) :
    (db.nodeLeases campaignId nodeId).Nodup :=
  ((db.leases.keys_nodup.of_map _).filter _).filter _

/-- A node with an exclusive lease has no other. -/
theorem Exclusive.nodeLeases_eq (h : Exclusive db) {l : LeaseRow} {role : ActorRole}
    (hl : l ∈ db.activeLeases) (hrole : db.leaseRole l = some role) (hexclusive : role ∈ exclusiveActorRoles) :
    db.nodeLeases l.campaignId l.nodeId = [l] := by
  refine eq_singleton (Db.mem_nodeLeases.mpr ⟨hl, rfl, rfl⟩) (Db.nodeLeases_nodup _ _) fun l' hl' => ?_
  obtain ⟨hactive, hcampaign, hnode⟩ := Db.mem_nodeLeases.mp hl'
  by_contra hne
  obtain ⟨role', hread, hrole'⟩ := h.node l hl l' hactive ⟨hcampaign.symm, hnode.symm⟩ (Ne.symm hne)
  obtain rfl := Option.some.inj (hrole.symm.trans hrole')
  exact (exclusive_or_concurrent role).mp hexclusive hread

/-- **Lease mutual exclusion.**  In every reached store a resource has at most one active lease,
exclusive or not, and the active leases of a node are one exclusive lease and nothing else, or all of
them are concurrent read-only. -/
theorem lease_mutual_exclusion {history : List (Entry Db Transaction)} (h : StoreRun history db) :
    (∀ l ∈ db.activeLeases, ∀ l' ∈ db.activeLeases, l.resourceKey = l'.resourceKey → l = l') ∧
      ∀ campaignId nodeId,
        (∃ l role, db.nodeLeases campaignId nodeId = [l] ∧ db.leaseRole l = some role ∧
          role ∈ exclusiveActorRoles) ∨
        ∀ l ∈ db.nodeLeases campaignId nodeId, ∃ role, db.leaseRole l = some role ∧
          role ∈ concurrentReadOnlyActorRoles := by
  have hexclusive := exclusive_run h
  refine ⟨hexclusive.resource, fun campaignId nodeId => ?_⟩
  by_cases hreads : ∀ l ∈ db.nodeLeases campaignId nodeId, ∃ role, db.leaseRole l = some role ∧
      role ∈ concurrentReadOnlyActorRoles
  · exact .inr hreads
  · push Not at hreads
    obtain ⟨l, hl, hwrites⟩ := hreads
    obtain ⟨hactive, rfl, rfl⟩ := Db.mem_nodeLeases.mp hl
    obtain ⟨role, hrole⟩ := hexclusive.held l hactive
    have hrole' := (exclusive_or_concurrent role).mpr (hwrites role hrole)
    exact .inl ⟨l, role, hexclusive.nodeLeases_eq hactive hrole hrole', hrole, hrole'⟩

end Leases

namespace Sample

open CodingOS.Campaign.Sample

/-- The implementer of the sample node. -/
def implementer : Actor where
  actorId := "a"
  campaignId := "c"
  nodeId := some "n"
  role := .implementer
  nativeThreadId := "UNBOUND"
  authorityEpoch := 1
  canWrite := true
  valid := by decide

/-- The lease of the sample node, at the revision its admission left. -/
def leaseRequest : LeaseRequest where
  campaignId := "c"
  nodeId := "n"
  resourceKey := "/w"
  actor := implementer
  leaseId := "l1"
  requestId := "q1"
  expectedRevision := 3
  authorityEpoch := 1
  cancellationEpoch := 0

/-- The sample campaign up to the lease of its node. -/
def leaseTransactions : List Transaction :=
  .createCampaign spec none none :: (candidateEvents.take 3).map .applyEvent
    ++ [.acquireLease leaseRequest]

def leaseRun : List (Entry Db Transaction) × Db :=
  (foldTransactions {} leaseTransactions).toOption.get (by decide +kernel)

theorem leaseRun_fold : foldTransactions {} leaseTransactions = .ok leaseRun := get_toOption _

theorem leaseRun_run : StoreRun leaseRun.1 leaseRun.2 := foldTransactions_run leaseRun_fold

end Sample

open Sample in
/-- The store of the run holds one active lease, and it is exclusive. -/
theorem lease_mutual_exclusion_sample :
    (leaseRun.2.activeLeases.map fun l => (l.leaseId, leaseRun.2.leaseRole l))
        = [("l1", some .implementer)] ∧
      (∀ l ∈ leaseRun.2.activeLeases, ∀ l' ∈ leaseRun.2.activeLeases,
        l.resourceKey = l'.resourceKey → l = l') ∧
      ∀ campaignId nodeId,
        (∃ l role, leaseRun.2.nodeLeases campaignId nodeId = [l] ∧
          leaseRun.2.leaseRole l = some role ∧ role ∈ exclusiveActorRoles) ∨
        ∀ l ∈ leaseRun.2.nodeLeases campaignId nodeId, ∃ role, leaseRun.2.leaseRole l = some role ∧
          role ∈ concurrentReadOnlyActorRoles :=
  ⟨by decide +kernel, lease_mutual_exclusion leaseRun_run⟩

end CodingOS.Store
