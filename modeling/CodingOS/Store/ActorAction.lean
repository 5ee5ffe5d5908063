import CodingOS.Python.Glob
import CodingOS.Store.LeaseTable

/-!
# One-use lease bindings

`verify_actor_action` authorizes one write of a native actor.  It asks for an active lease of the actor
and for an actor that was bound, but not under which lease: the row of an actor keeps the binding when
its lease ends.  An actor that acquires a second lease with its bound record is authorized under it
without a second `bind_actor` (`second_lease_action`).

`one_use_binding`: where no exclusive lease is granted to such an actor, every action is authorized
under the lease that was bound.
-/

namespace CodingOS.Store

open CodingOS.Python CodingOS.Campaign Systems

/-- What `pathlib` takes from the file system of the process. -/
class Filesystem where
  /-- `str(Path(text).expanduser().resolve(strict=False))`. -/
  expandedPath : String → String
  /-- `str(candidate)`, for the path given below a resolved root unless it is absolute, resolved. -/
  candidatePath : String → String → String
  /-- `Path(candidate).relative_to(root).as_posix()`, where it raises nothing. -/
  relativePath : String → String → Option String

section Action

variable [Runtime] [Filesystem]

/-- The arguments of `verify_actor_action`. -/
structure ActionRequest where
  campaignId : String
  actorId : String
  leaseId : String
  authorityEpoch : ℕ
  cancellationEpoch : ℕ
  fencingEpoch : ℕ
  repositoryRoot : String
  action : String
  path : Option String := none

/-- The checks of `verify_actor_action` on the actor and its lease. -/
def checkActionBinding (r : ActionRequest) (actor : ActorRow) (lease : LeaseRow) : Result Unit := do
  check .authority
    (lease.state == .active && lease.campaignId == r.campaignId && actor.used
      && actor.boundRequestId.any (· != "") && actor.nativeThreadId != "UNBOUND"
      && actor.identityDigest.any (· != ""))
    "actor lease is not active and natively bound"
  check .authority (!readOnlyActorRoles.contains actor.role && actor.canWrite)
    (actor.role.value ++ " actor is write denied")
  check .authority
    (actor.authorityEpoch == r.authorityEpoch && lease.cancellationEpoch == r.cancellationEpoch
      && lease.fencingEpoch == r.fencingEpoch)
    "actor lease epochs or fence are stale"

/-- The path of an action, relative to the repository root and within the allowed scope. -/
def actionPath (snapshot : CampaignSnapshot) (nodeId root path : String) : Result String := do
  let relative ← orRaise
    (Filesystem.relativePath (Filesystem.candidatePath root path) root) .authority
    "actor path escapes the admitted repository root"
  let nodeSpec ← snapshot.nodeSpec nodeId
  let allowedPaths :=
    if nodeSpec.allowedPaths.isEmpty then snapshot.spec.allowedPaths else nodeSpec.allowedPaths
  check .authority
    (allowedPaths.any fun pattern => fnmatchcase (casefold relative) (casefold pattern))
    "actor path is outside the immutable allowed scope"
  return relative

/-- `verify_actor_action`: the authorization it returns.  It writes nothing. -/
def Db.verifyActorAction (db : Db) (r : ActionRequest) : Result Mapping := do
  let action := strip r.action
  check .authority (action != "") "actor action must not be empty"
  let snapshot ← db.loadSnapshot r.campaignId
  check .authority (!([CampaignState.cancelled, .completed, .failed].contains snapshot.state))
    "terminal campaign cannot authorize actor writes"
  check .authority
    (snapshot.authorityEpoch == r.authorityEpoch && snapshot.cancellationEpoch == r.cancellationEpoch)
    "actor action epochs are stale"
  let unbound := "actor and lease are not bound to each other"
  let actor ← orRaise (db.actors.get? r.actorId) .authority unbound
  let lease ← orRaise ((db.leases.get? r.leaseId).filter (·.actorId == r.actorId)) .authority unbound
  checkActionBinding r actor lease
  let node ← snapshot.node lease.nodeId
  check .authority (node.fencingEpoch == r.fencingEpoch && node.leaseActorId == some r.actorId)
    "node no longer recognizes the actor lease fence"
  let suppliedRoot := Filesystem.expandedPath r.repositoryRoot
  let expectedRoot := Filesystem.expandedPath snapshot.spec.gitRoot
  check .authority (casefold suppliedRoot == casefold expectedRoot)
    "actor repository root differs from admitted exact Git root"
  let relativePath ← match r.path with
    | none => pure none
    | some path => some <$> actionPath snapshot lease.nodeId suppliedRoot path
  let authorization : Mapping := [
    ("campaign_id", .str r.campaignId),
    ("actor_id", .str r.actorId),
    ("lease_id", .str r.leaseId),
    ("node_id", .str lease.nodeId),
    ("role", .str actor.role.value),
    ("native_thread_id", .str actor.nativeThreadId),
    ("identity_digest", optionalText actor.identityDigest),
    ("authority_epoch", .int r.authorityEpoch),
    ("cancellation_epoch", .int r.cancellationEpoch),
    ("fencing_epoch", .int r.fencingEpoch),
    ("repository_root", .str expectedRoot),
    ("action", .str action),
    ("path", optionalText relativePath)]
  return authorization ++ [("authorization_digest", .str (canonicalJsonDigest (.mapping authorization)))]

/-- What an accepted action rests on: an active lease of the actor, and an actor that is bound. -/
theorem Db.verifyActorAction_eq_ok {db : Db} {r : ActionRequest} {authorization : Mapping}
    (h : db.verifyActorAction r = .ok authorization) :
    ∃ actor lease, db.actors.get? r.actorId = some actor ∧ actor.used = true ∧
      actor.role ∉ readOnlyActorRoles ∧ db.leases.get? r.leaseId = some lease ∧
        lease.state = .active ∧ lease.actorId = r.actorId := by
  simp only [Db.verifyActorAction, bind_eq_ok, check_eq_ok, orRaise_eq_ok, exists_const,
    Option.filter_eq_some_iff, beq_iff_eq] at h
  obtain ⟨-, _, -, -, -, actor, hactor, lease, ⟨hlease, hholder⟩, _, hbinding, -⟩ := h
  simp only [checkActionBinding, bind_eq_ok, check_eq_ok, exists_const, Bool.and_eq_true,
    beq_iff_eq, Bool.not_eq_true', List.contains_eq_mem, decide_eq_false_iff_not] at hbinding
  obtain ⟨⟨⟨⟨⟨⟨hactive, -⟩, hused⟩, -⟩, -⟩, -⟩, ⟨hwriter, -⟩, -⟩ := hbinding
  exact ⟨actor, lease, hactor, hused, hwriter, hlease, hactive, hholder⟩

end Action

section Bindings

variable [Runtime] {db db' : Db} {t : Transaction}

/-! ### Bindings -/

/-- `bind_actor` committed for a lease of the actor that was active: the actor was not used, now it is. -/
structure Binding (e : Entry Db Transaction) (actorId leaseId : String) : Prop where
  call : ∃ r : BindRequest, e.label = .bindActor r ∧ r.actorId = actorId ∧ r.leaseId = leaseId
  active : ∃ lease, e.before.leases.get? leaseId = some lease ∧ lease.state = .active ∧
    lease.actorId = actorId
  unused : ∃ row, e.before.actors.get? actorId = some row ∧ row.used = false
  used : ∃ row, e.after.actors.get? actorId = some row ∧ row.used = true

/-- A fresh `acquire_lease` for a writing role meets no actor that was bound before. -/
def OneUse (db : Db) (t : Transaction) : Prop :=
  ∀ r : LeaseRequest, t = .acquireLease r → db.operations.get? r.requestId = none →
    r.actor.role ∉ readOnlyActorRoles →
      ∀ row, db.actors.get? r.actor.actorId = some row → row.used = false

/-- The record of an actor names the campaign and the node of its active leases. -/
def Seated (db : Db) : Prop :=
  ∀ l ∈ db.activeLeases, ∃ row, db.actors.get? l.actorId = some row ∧
    row.actor.campaignId = l.campaignId ∧ row.actor.nodeId = some l.nodeId

/-- The actor of a lease that was just granted. -/
theorem Granted.seated {r : LeaseRequest} {s : CampaignSnapshot} {n : NodeSnapshot} {fence : ℕ}
    (h : Granted db r s n fence db') : ∃ row, db'.actors.get? r.actor.actorId = some row ∧
      row.actor.campaignId = r.campaignId ∧ row.actor.nodeId = some r.nodeId ∧
        (row.used = true → db.actors.get? r.actor.actorId = some row) := by
  have hrequest := h.requested
  simp only [checkLeaseRequest, bind_eq_ok, check_eq_ok, exists_const, Bool.and_eq_true,
    beq_iff_eq] at hrequest
  obtain ⟨⟨hcampaign, hnode⟩, -⟩ := hrequest
  obtain ⟨row, hrow, ⟨hold, hjson⟩ | rfl⟩ := h.actor_row
  · obtain ⟨hsameCampaign, hsameNode, -⟩ := actor_json_binding hjson
    exact ⟨row, hrow, hsameCampaign.trans hcampaign, hsameNode.trans hnode, fun _ => hold⟩
  · exact ⟨_, hrow, hcampaign, hnode, fun hused => by cases hused⟩

/-- The row of a bound actor names the campaign and the node it named before. -/
theorem Bound.seated {r : BindRequest} {lease : LeaseRow} {row : ActorRow} {actor : Actor}
    (h : Bound db r lease row actor db') (hseated : Seated db) :
    (row.bind r actor).actor.campaignId = row.actor.campaignId ∧
      (row.bind r actor).actor.nodeId = row.actor.nodeId := by
  obtain ⟨old, hold, hcampaign, hnode⟩ := hseated lease
    (Db.mem_activeLeases.mpr ⟨Table.mem_of_get? h.lease_eq, h.active⟩)
  rw [h.holder, h.row_eq] at hold
  obtain rfl := Option.some.inj hold
  show actor.campaignId = _ ∧ actor.nodeId = _
  rw [h.actor_eq, hcampaign, hnode]
  exact ⟨rfl, rfl⟩

/-- One step keeps the actors at the nodes of their leases. -/
theorem Seated.keep (h : Seated db) (hstep : AuthorityStep db t db') : Seated db' := by
  intro l hl
  obtain ⟨hmem, hactive⟩ := Db.mem_activeLeases.mp hl
  rcases hstep.active hmem hactive with hold | ⟨r, s, n, fence, -, hgranted, hgrants⟩
  · obtain ⟨row, hrow, hcampaign, hnode⟩ := h l (Db.mem_activeLeases.mpr ⟨hold, hactive⟩)
    rcases hstep.actor_row hrow with hsame | ⟨r, _, actor, -, hbound, -, hrow'⟩
    · exact ⟨row, hsame, hcampaign, hnode⟩
    · obtain ⟨hsameCampaign, hsameNode⟩ := hbound.seated h
      exact ⟨_, hrow', hsameCampaign.trans hcampaign, hsameNode.trans hnode⟩
  · obtain ⟨row, hrow, hcampaign, hnode, -⟩ := hgranted.seated
    refine ⟨row, hgrants.actorId ▸ hrow, ?_, ?_⟩
    · rw [hcampaign, hgrants.campaignId]
    · rw [hnode, hgrants.nodeId]

theorem seated_run {history : List (Entry Db Transaction)} (h : StoreRun history db) : Seated db := by
  refine h.invariant Seated (fun l hl => ?_) fun hseated hstep => hseated.keep hstep.authority
  cases hl

/-- Two active leases of one actor, one of them exclusive, are one lease. -/
theorem Seated.eq_of_actor (h : Seated db) (hexclusive : Exclusive db) {l l' : LeaseRow}
    {row : ActorRow} (hl : l ∈ db.activeLeases) (hl' : l' ∈ db.activeLeases)
    (hactor : l.actorId = l'.actorId) (hrow : db.actors.get? l.actorId = some row)
    (hrole : row.role ∉ readOnlyActorRoles) : l = l' := by
  by_contra hne
  obtain ⟨old, hold, hcampaign, hnode⟩ := h l hl
  obtain ⟨old', hold', hcampaign', hnode'⟩ := h l' hl'
  rw [← hactor] at hold'
  obtain rfl := Option.some.inj (hold.symm.trans hold')
  have hsame : l.campaignId = l'.campaignId ∧ l.nodeId = l'.nodeId :=
    ⟨hcampaign.symm.trans hcampaign', Option.some.inj (hnode.symm.trans hnode')⟩
  obtain ⟨role, hread, hleaseRole⟩ := hexclusive.node l hl l' hl' hsame hne
  rw [Db.leaseRole, hrow, Option.map_some, Option.some.injEq] at hleaseRole
  subst hleaseRole
  -- the concurrent read-only roles are read-only
  revert hread hrole
  generalize row.role = role
  cases role <;> decide

/-- A used actor stays used. -/
theorem AuthorityStep.used (h : AuthorityStep db t db') {id : String}
    (hused : ∃ row, db.actors.get? id = some row ∧ row.used = true) :
    ∃ row, db'.actors.get? id = some row ∧ row.used = true := by
  obtain ⟨row, hrow, hused⟩ := hused
  rcases h.actor_row hrow with hsame | ⟨r, _, actor, -, -, -, hrow'⟩
  · exact ⟨row, hsame, hused⟩
  · exact ⟨row.bind r actor, hrow', rfl⟩

/-- The entry of a fresh `bind_actor`. -/
theorem Bound.binding {r : BindRequest} {lease : LeaseRow} {row : ActorRow} {actor : Actor}
    (h : Bound db r lease row actor db')
    (hrow' : db'.actors.get? r.actorId = some (row.bind r actor)) :
    Binding ⟨db, .bindActor r, db'⟩ r.actorId r.leaseId where
  call := ⟨r, rfl, rfl, rfl⟩
  active := ⟨lease, h.lease_eq, h.active, h.holder⟩
  unused := ⟨row, h.row_eq, h.unused⟩
  used := ⟨row.bind r actor, hrow', rfl⟩

/-- What a history says of bindings: a used actor was bound under its active lease, and an actor is
bound once. -/
structure BoundOnce (history : List (Entry Db Transaction)) (db : Db) : Prop where
  held : ∀ l ∈ db.activeLeases, ∀ row, db.actors.get? l.actorId = some row → row.used = true →
    row.role ∉ readOnlyActorRoles → ∃ e ∈ history, Binding e l.actorId l.leaseId
  used : ∀ e ∈ history, ∀ id leaseId, Binding e id leaseId →
    ∃ row, db.actors.get? id = some row ∧ row.used = true
  once : ∀ e ∈ history, ∀ e' ∈ history, ∀ id leaseId leaseId', Binding e id leaseId →
    Binding e' id leaseId' → leaseId = leaseId'

/-- **One step keeps the bindings.** -/
theorem BoundOnce.keep {history : List (Entry Db Transaction)} (h : BoundOnce history db)
    (hexclusive : Exclusive db) (hseated : Seated db) (honce : OneUse db t)
    (hstep : AuthorityStep db t db') : BoundOnce (history ++ [⟨db, t, db'⟩]) db' := by
  constructor
  · intro l hl row' hrow' hused hrole
    obtain ⟨hmem, hactive⟩ := Db.mem_activeLeases.mp hl
    rcases hstep.active hmem hactive with hold | ⟨r, s, n, fence, ht, hgranted, hgrants⟩
    · have hl' := Db.mem_activeLeases.mpr ⟨hold, hactive⟩
      obtain ⟨row, hrow, -⟩ := hseated l hl'
      rcases hstep.actor_row hrow with hsame | ⟨r, lease, actor, ht, hbound, hid, hrow''⟩
      · obtain rfl := Option.some.inj (hsame.symm.trans hrow')
        obtain ⟨e, he, hbinding⟩ := h.held l hl' row hrow hused hrole
        exact ⟨e, List.mem_append_left _ he, hbinding⟩
      · -- the lease that is bound is the only one of this actor
        obtain rfl := Option.some.inj (hrow''.symm.trans hrow')
        have hlease := Db.mem_activeLeases.mpr ⟨Table.mem_of_get? hbound.lease_eq, hbound.active⟩
        have hwriter : row.role ∉ readOnlyActorRoles := hbound.role ▸ hrole
        obtain rfl := hseated.eq_of_actor hexclusive hl' hlease (hid.trans hbound.holder.symm) hrow
          hwriter
        have hid' : l.leaseId = r.leaseId := Table.key_of_get? hbound.lease_eq
        refine ⟨_, List.mem_append_right _ List.mem_cons_self, ?_⟩
        rw [ht, hid, hid']
        exact hbound.binding (hid ▸ hrow')
    · obtain ⟨row, hrow, -, -, hbefore⟩ := hgranted.seated
      rw [hgrants.actorId, hrow] at hrow'
      obtain rfl := Option.some.inj hrow'
      have hsame : row.role = r.actor.role := by
        obtain ⟨row', hrow', hrole', -⟩ := hgranted.actor hexclusive.toStaffed
        obtain rfl := Option.some.inj (hrow.symm.trans hrow')
        exact hrole'
      have hunused := honce r ht hgranted.free (hsame ▸ hrole) row (hbefore hused)
      rw [hused] at hunused
      cases hunused
  · intro e he id leaseId hbinding
    rcases List.mem_append.mp he with he | he
    · exact hstep.used (h.used e he id leaseId hbinding)
    · obtain rfl := List.mem_singleton.mp he
      exact hbinding.used
  · -- an actor that an earlier entry bound is used, so no later entry binds it
    have hlater : ∀ e ∈ history, ∀ id leaseId leaseId', Binding e id leaseId →
        ¬ Binding ⟨db, t, db'⟩ id leaseId' := by
      intro e he id leaseId leaseId' hbinding hbinding'
      obtain ⟨row, hrow, hused⟩ := h.used e he id leaseId hbinding
      obtain ⟨row', hrow', hunused⟩ := hbinding'.unused
      obtain rfl := Option.some.inj (hrow.symm.trans hrow')
      rw [hused] at hunused
      cases hunused
    intro e he e' he' id leaseId leaseId' hbinding hbinding'
    rcases List.mem_append.mp he with he | he
    · rcases List.mem_append.mp he' with he' | he'
      · exact h.once e he e' he' id leaseId leaseId' hbinding hbinding'
      · obtain rfl := List.mem_singleton.mp he'
        exact absurd hbinding' (hlater e he id leaseId leaseId' hbinding)
    · obtain rfl := List.mem_singleton.mp he
      rcases List.mem_append.mp he' with he' | he'
      · exact absurd hbinding (hlater e' he' id leaseId' leaseId hbinding')
      · obtain rfl := List.mem_singleton.mp he'
        obtain ⟨r, hcall, -, rfl⟩ := hbinding.call
        obtain ⟨r', hcall', -, rfl⟩ := hbinding'.call
        rw [Transaction.bindActor.inj (hcall.symm.trans hcall')]

theorem boundOnce_run {history : List (Entry Db Transaction)} (h : StoreRun history db)
    (hsteps : ∀ e ∈ history, OneUse e.before e.label) : BoundOnce history db := by
  induction h with
  | start =>
      refine ⟨fun l hl => ?_, fun e he => ?_, fun e he => ?_⟩
      · cases hl
      · cases he
      · cases he
  | @snoc history db db' t hrun hstep ih =>
      simp only [List.forall_mem_append, List.forall_mem_singleton] at hsteps
      exact (ih hsteps.1).keep (exclusive_run hrun) (seated_run hrun) hsteps.2
        (Transaction.committed hstep).authority

/-- **One-use binding.**  In a run in which no writing role leases an actor that was bound before,
`verify_actor_action` accepts an actor under a lease only if `bind_actor` committed for that lease while
it was active, and this was the only lease the actor was ever bound under. -/
theorem one_use_binding [Filesystem] {history : List (Entry Db Transaction)} {r : ActionRequest}
    {authorization : Mapping} (h : StoreRun history db)
    (hsteps : ∀ e ∈ history, OneUse e.before e.label)
    (haccepted : db.verifyActorAction r = .ok authorization) :
    (∃ e ∈ history, Binding e r.actorId r.leaseId) ∧
      ∀ e ∈ history, ∀ leaseId, Binding e r.actorId leaseId → leaseId = r.leaseId := by
  have hbound := boundOnce_run h hsteps
  obtain ⟨actor, lease, hactor, hused, hrole, hlease, hactive, hholder⟩ :=
    Db.verifyActorAction_eq_ok haccepted
  have hid : lease.leaseId = r.leaseId := Table.key_of_get? hlease
  obtain ⟨e, he, hbinding⟩ := hbound.held lease
    (Db.mem_activeLeases.mpr ⟨Table.mem_of_get? hlease, hactive⟩) actor (hholder ▸ hactor) hused hrole
  rw [hholder, hid] at hbinding
  exact ⟨⟨e, he, hbinding⟩, fun e' he' leaseId hbinding' =>
    hbound.once e' he' e he r.actorId leaseId r.leaseId hbinding' hbinding⟩

end Bindings

namespace Sample

open CodingOS.Campaign.Sample

def taskDigest : String := "8dc417117cb169c69976f3b56f908d591975bc169686c9a4bcbf6892035f4552"

/-- The implementer is bound to its native task under its first lease. -/
def bindRequest : BindRequest where
  leaseId := "l1"
  actorId := "a"
  role := .implementer
  nativeThreadId := "t"
  identityDigest := taskDigest
  authorityEpoch := 1
  cancellationEpoch := 0
  fencingEpoch := 1
  requestId := "q2"
  nativeIdentity := [
    ("thread_id", .str "t"),
    ("cwd", .str spec.worktree),
    ("source_digest", .str taskDigest),
    ("sandbox_type", .str "read-only"),
    ("writable_roots", .tuple []),
    ("mediated_write_scope", .tuple [.str "a.py"]),
    ("dynamic_tool_digest", .str taskDigest),
    ("native_write_mode", .str "scoped-dynamic-tools"),
    ("role", .str ActorRole.implementer.value),
    ("lease_digest", .str taskDigest),
    ("thread_created_idle", .bool true)]

/-- The actor `bind_actor` returns. -/
def boundActor : Actor where
  actorId := "a"
  campaignId := "c"
  nodeId := some "n"
  role := .implementer
  nativeThreadId := "t"
  authorityEpoch := 1
  canWrite := true
  nativeIdentity := bindRequest.nativeIdentity
  valid := by decide

def firstRelease : ReleaseRequest where
  leaseId := "l1"
  requestId := "q3"
  expectedRevision := 4
  authorityEpoch := 1
  cancellationEpoch := 0

/-- The bound actor asks for a second lease of its node. -/
def secondLease : LeaseRequest :=
  { leaseRequest with
    actor := boundActor
    leaseId := "l2"
    requestId := "q4"
    expectedRevision := 5 }

/-- A file system without links, for paths below their root. -/
scoped instance plainFiles : Filesystem where
  expandedPath := id
  candidatePath root path := root ++ "/" ++ path
  relativePath candidate root :=
    if (root ++ "/").toList.isPrefixOf candidate.toList then
      some (String.ofList (candidate.toList.drop (root.toList.length + 1)))
    else none

def writeAction : ActionRequest where
  campaignId := "c"
  actorId := "a"
  leaseId := "l1"
  authorityEpoch := 1
  cancellationEpoch := 0
  fencingEpoch := 1
  repositoryRoot := spec.gitRoot
  action := "write"
  path := some "a.py"

def bindTransactions : List Transaction := leaseTransactions ++ [.bindActor bindRequest]

def bindRun : List (Entry Db Transaction) × Db :=
  (foldTransactions {} bindTransactions).toOption.get (by decide +kernel)

theorem bindRun_fold : foldTransactions {} bindTransactions = .ok bindRun := get_toOption _

/-- The one lease of the run is granted while no actor has a row. -/
theorem bindRun_oneUse : ∀ e ∈ bindRun.1, OneUse e.before e.label := by
  have hleases : bindRun.1.all (fun e => match e.label with
      | .acquireLease _ => e.before.actors.rows.isEmpty
      | _ => true) = true := by decide +kernel
  intro e he r ht _ _ row hrow
  have hnone := List.all_eq_true.mp hleases e he
  rw [ht] at hnone
  have hmem := Table.mem_of_get? hrow
  rw [List.isEmpty_iff.mp hnone] at hmem
  cases hmem

def releasedTransactions : List Transaction :=
  bindTransactions ++ [.releaseLease firstRelease, .acquireLease secondLease]

def releasedRun : List (Entry Db Transaction) × Db :=
  (foldTransactions {} releasedTransactions).toOption.get (by decide +kernel)

theorem releasedRun_fold : foldTransactions {} releasedTransactions = .ok releasedRun :=
  get_toOption _

end Sample

open Sample in
theorem one_use_binding_sample : ∃ authorization,
    bindRun.2.verifyActorAction writeAction = .ok authorization ∧
      (∃ e ∈ bindRun.1, Binding e "a" "l1") ∧
      ∀ e ∈ bindRun.1, ∀ leaseId, Binding e "a" leaseId → leaseId = "l1" := by
  have haccepted : (bindRun.2.verifyActorAction writeAction).toOption.isSome = true := by
    decide +kernel
  have hok := get_toOption haccepted
  exact ⟨_, hok, one_use_binding (foldTransactions_run bindRun_fold) bindRun_oneUse hok⟩

open Sample in
/-- The actor bound under the first lease is authorized under the second, which no `bind_actor` names. -/
theorem second_lease_action : ∃ authorization,
    StoreRun releasedRun.1 releasedRun.2 ∧
      releasedRun.2.verifyActorAction { writeAction with leaseId := "l2", fencingEpoch := 2 }
        = .ok authorization ∧
      ¬ ∃ e ∈ releasedRun.1, Binding e "a" "l2" := by
  have haccepted : (releasedRun.2.verifyActorAction
      { writeAction with leaseId := "l2", fencingEpoch := 2 }).toOption.isSome = true := by
    decide +kernel
  refine ⟨_, foldTransactions_run releasedRun_fold, get_toOption haccepted, ?_⟩
  rintro ⟨e, he, hbinding⟩
  obtain ⟨r, hcall, -, hlease⟩ := hbinding.call
  have hlabel := foldTransactions_labels releasedRun_fold e he
  rw [hcall] at hlabel
  have hbind : ∀ t ∈ releasedTransactions, ∀ r, t = .bindActor r → r.leaseId = "l1" := by
    intro t ht r hr
    subst hr
    simp only [releasedTransactions, bindTransactions, leaseTransactions, List.mem_append,
      List.mem_cons, List.mem_map, List.not_mem_nil, reduceCtorEq, Transaction.bindActor.injEq,
      false_or, or_false, and_false, exists_false] at ht
    rw [ht]
    rfl
  have hfirst := hbind _ hlabel r rfl
  rw [hlease] at hfirst
  exact absurd hfirst (by decide)

end CodingOS.Store
