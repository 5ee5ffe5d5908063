import CodingOS.Store.LeaseTable
import CodingOS.Systems.Fence

/-!
# The fence of a resource

A resource keeps the fence of its latest lease in `resource_locks`.  An exclusive lease takes a fence
beyond that one, so exclusive holders of a resource are told apart by their fences.  A concurrent
read-only lease takes the fence of its node and writes it over the fence of the resource, which may
be greater.  `resource_fences_iff`: fences only grow exactly in the runs in which no read-only lease
finds a resource fence beyond that of its node.
-/

namespace CodingOS.Store

open CodingOS.Python CodingOS.Campaign Systems

section Fences

variable [Runtime]

/-- The stored fence of a resource, zero when it has none. -/
def Db.resourceFence (db : Db) (resourceKey : String) : ℕ := db.authority.lockFence resourceKey

/-- The fence of the exclusive lease an entry granted on a resource. -/
def exclusiveFence (resourceKey : String) (e : Entry Db Transaction) : Option ℕ :=
  match e.label with
  | .acquireLease r =>
      if r.resourceKey = resourceKey ∧ r.actor.role ∈ exclusiveActorRoles ∧
          (e.before.operations.get? r.requestId).isNone then
        (e.after.leases.get? r.leaseId).map (·.fencingEpoch)
      else none
  | _ => none

/-- The transactions whose read-only leases find no resource fence beyond that of their node. -/
def ReadsFenced (db : Db) (t : Transaction) : Prop :=
  ∀ r s n, t = .acquireLease r → r.actor.role ∈ concurrentReadOnlyActorRoles →
    db.operations.get? r.requestId = none → db.loadSnapshot r.campaignId = .ok s →
    s.node r.nodeId = .ok n → db.resourceFence r.resourceKey ≤ n.fencingEpoch

/-- Fences of resources only grow, and the exclusive leases of a resource have increasing fences. -/
structure FencesGrow (history : List (Entry Db Transaction)) : Prop where
  stored : ∀ e ∈ history, ∀ k, e.before.resourceFence k ≤ e.after.resourceFence k
  exclusive : ∀ k, (history.filterMap (exclusiveFence k)).Pairwise (· < ·)

variable {db db' : Db} {t : Transaction}

theorem Granted.resourceFence {r : LeaseRequest} {s : CampaignSnapshot} {n : NodeSnapshot}
    {fence : ℕ} (h : Granted db r s n fence db') (k : String) :
    db'.resourceFence k = if k = r.resourceKey then fence else db.resourceFence k := by
  rw [Db.resourceFence, Authority.lockFence, h.enrolled.locks, Table.get?_upsert]
  show (Option.map _ (if k = r.resourceKey then some (LockRow.ofRequest r fence)
    else db.authority.locks.get? k)).getD 0 = _
  by_cases hk : k = r.resourceKey
  · rw [if_pos hk, if_pos hk]
    rfl
  · rw [if_neg hk, if_neg hk]
    rfl

/-- A step leaves the fence of a resource, or grants a lease on it. -/
theorem AuthorityStep.resourceFence (h : AuthorityStep db t db') (k : String) :
    db'.resourceFence k = db.resourceFence k ∨
      ∃ r s n fence, t = .acquireLease r ∧ Granted db r s n fence db' ∧ r.resourceKey = k := by
  -- the other statements clear the holder of a lock, not its fence
  have hcleared : ∀ (locks : Table LockRow.resourceKey) (p : LockRow → Bool),
      ((locks.update p (fun row => { row with leaseId := none }) fun _ => rfl).get? k).map
        (·.fencingEpoch) = (locks.get? k).map (·.fencingEpoch) := by
    intro locks p
    rw [Table.get?_update, Option.map_map]
    congr 1
    funext row
    simp only [Function.comp_apply]
    split <;> rfl
  have hsame : (db'.resourceLocks.get? k).map (·.fencingEpoch)
      = (db.resourceLocks.get? k).map (·.fencingEpoch) →
      db'.resourceFence k = db.resourceFence k := fun heq => congrArg (Option.getD · 0) heq
  cases h with
  | same heq =>
      exact .inl (hsame (by rw [show db'.resourceLocks = db.resourceLocks from
        congrArg Authority.locks heq]))
  | @settled event _ next _ _ _ heq =>
      refine .inl (hsame ?_)
      rw [show db'.resourceLocks = _ from congrArg Authority.locks heq, settledAuthority]
      split
      · exact hcleared _ _
      · rfl
  | @granted r s n fence ht hgranted =>
      by_cases hk : k = r.resourceKey
      · exact .inr ⟨r, s, n, fence, ht, hgranted, hk.symm⟩
      · exact .inl (by rw [hgranted.resourceFence, if_neg hk])
  | bound _ hbound => exact .inl (hsame (by rw [hbound.locks]))
  | retired _ hretired =>
      refine .inl (hsame ?_)
      rw [show db'.resourceLocks = _ from congrArg Authority.locks hretired.authority]
      exact hcleared _ _
  | recovered _ hrecovered =>
      refine .inl (hsame ?_)
      rw [show db'.resourceLocks = _ from congrArg Authority.locks hrecovered.authority]
      exact hcleared _ _

/-- **One step keeps the fences growing** exactly when it meets the condition. -/
theorem resourceFence_le_iff (h : commits db t db') :
    (∀ k, db.resourceFence k ≤ db'.resourceFence k) ↔ ReadsFenced db t := by
  constructor
  · rintro hle r s n rfl hread hfree hload hnode
    obtain ⟨lease, hacquire⟩ := snd_map_eq_ok.mp h
    rcases Db.acquireLease_eq_ok hacquire with ⟨hused, -⟩ | ⟨s', n', fence, hgranted⟩
    · exact absurd hfree hused
    · obtain rfl := Except.ok.inj (hload.symm.trans hgranted.loaded)
      obtain rfl := Except.ok.inj (hnode.symm.trans hgranted.node)
      have hfence := hle r.resourceKey
      rw [hgranted.resourceFence, if_pos rfl] at hfence
      rcases hgranted.transition with ⟨-, rfl, -⟩ | ⟨hexclusive, -⟩
      · exact hfence
      · simp [LeaseRequest.concurrentReadOnly, hread] at hexclusive
  · intro hreads k
    rcases (Transaction.committed h).authority.resourceFence k with hsame |
      ⟨r, s, n, fence, rfl, hgranted, rfl⟩
    · exact hsame.ge
    · rw [hgranted.resourceFence, if_pos rfl]
      rcases hgranted.transition with ⟨hconcurrent, rfl, -⟩ | ⟨-, hfence, -⟩
      · exact hreads r s n rfl (by simpa [LeaseRequest.concurrentReadOnly] using hconcurrent)
          hgranted.free hgranted.loaded hgranted.node
      · rw [hfence, Db.resourceFence]
        omega

/-- An exclusive lease takes a fence beyond the one its resource had, and leaves it there. -/
theorem exclusiveFence_eq_some {k : String} {fence : ℕ} (h : commits db t db')
    (hfence : exclusiveFence k ⟨db, t, db'⟩ = some fence) :
    db.resourceFence k < fence ∧ fence ≤ db'.resourceFence k := by
  cases t with
  | acquireLease r =>
      simp only [exclusiveFence] at hfence
      split at hfence
      · next hasked =>
          obtain ⟨rfl, hrole, hfree⟩ := hasked
          obtain ⟨l, hl, rfl⟩ := Option.map_eq_some_iff.mp hfence
          obtain ⟨_, hacquire⟩ := snd_map_eq_ok.mp h
          rcases Db.acquireLease_eq_ok hacquire with ⟨hused, -⟩ | ⟨s, n, fence, hgranted⟩
          · exact absurd (Option.isNone_iff_eq_none.mp hfree) hused
          · obtain ⟨lease, hlease, -, hrows⟩ := hgranted.enrolled.leases
            have hlease' : l = lease := Table.eq_of_key (Table.mem_of_get? hl)
              ((hrows lease).mpr (.inr rfl)) ((Table.key_of_get? hl).trans hlease.leaseId.symm)
            rw [hlease', hlease.fencingEpoch, hgranted.resourceFence, if_pos rfl]
            rcases hgranted.transition with ⟨hconcurrent, -⟩ | ⟨-, hbeyond, -⟩
            · have hread : r.actor.role ∈ concurrentReadOnlyActorRoles := by
                simpa [LeaseRequest.concurrentReadOnly] using hconcurrent
              exact absurd hread ((exclusive_or_concurrent _).mp hrole)
            · rw [Db.resourceFence]
              omega
      · cases hfence
  | _ => cases hfence

/-- **Resource fence monotonicity, exactly.**  In every run the stored fences never decrease and the
fences of successive exclusive leases on a resource are increasing, if and only if no read-only lease
found a resource fence beyond that of its node. -/
theorem resource_fences_iff {history : List (Entry Db Transaction)} (h : StoreRun history db) :
    FencesGrow history ↔ ∀ e ∈ history, ReadsFenced e.before e.label := by
  constructor
  · intro hgrow e he
    exact (resourceFence_le_iff (h.step_of_mem he).2).mp (hgrow.stored e he)
  · intro hsteps
    have hrun := Run.restrict h hsteps
    refine ⟨fun e he => (resourceFence_le_iff (h.step_of_mem he).2).mpr (hsteps e he), fun k => ?_⟩
    refine (hrun.tokens_increasing (·.resourceFence k) (exclusiveFence k) ?_ ?_).1
    · intro s l s' hstep
      exact (resourceFence_le_iff hstep.1).mpr hstep.2 k
    · intro s l s' g hstep hfence
      exact exclusiveFence_eq_some hstep.1 hfence

end Fences

namespace Sample

open CodingOS.Campaign.Sample

/-- The only lease of the run is exclusive. -/
theorem leaseRun_fenced : ∀ e ∈ leaseRun.1, ReadsFenced e.before e.label := by
  intro e he r s n hr hread
  have hlabel := foldTransactions_labels leaseRun_fold e he
  simp only [hr, leaseTransactions, List.mem_append, List.mem_cons, List.mem_map,
    List.not_mem_nil, or_false, Transaction.acquireLease.injEq, reduceCtorEq, false_or, and_false,
    exists_false] at hlabel
  rw [hlabel] at hread
  exact absurd hread (by decide)

/-- The worker and the reviewer of the node of the second campaign. -/
def otherWorker : Actor :=
  { implementer with actorId := "b", campaignId := "d", valid := by decide }

def otherReader : Actor where
  actorId := "s"
  campaignId := "d"
  nodeId := some "n"
  role := .reviewer
  nativeThreadId := "UNBOUND"
  authorityEpoch := 1
  canWrite := false
  valid := by decide

/-- The resource of the sample lease goes to the second campaign, first to its reader and then to its
worker. -/
def reusedTransactions : List Transaction :=
  leaseTransactions ++ .releaseLease ⟨"l1", "q3", 4, 1, 0⟩ :: .createCampaign otherSpec none none ::
    (otherEvents.take 3).map .applyEvent ++ [
    .acquireLease { leaseRequest with
      campaignId := "d", actor := otherReader, leaseId := "l4", requestId := "q4" },
    .releaseLease ⟨"l4", "q5", 3, 1, 0⟩,
    .acquireLease { leaseRequest with
      campaignId := "d", actor := otherWorker, leaseId := "l6", requestId := "q6" }]

def reusedRun : List (Entry Db Transaction) × Db :=
  (foldTransactions {} reusedTransactions).toOption.get (by decide +kernel)

theorem reusedRun_run : StoreRun reusedRun.1 reusedRun.2 := foldTransactions_run (get_toOption _)

end Sample

open Sample in
theorem resource_fences_iff_sample :
    leaseRun.1.filterMap (exclusiveFence "/w") = [1] ∧ FencesGrow leaseRun.1 :=
  ⟨by decide +kernel, (resource_fences_iff leaseRun_run).mpr leaseRun_fenced⟩

open Sample in
/-- The read-only lease takes the resource back to fence zero, and two exclusive leases on it get
fence one. -/
theorem reused_fence : StoreRun reusedRun.1 reusedRun.2 ∧
    (reusedRun.1.map fun e => (e.before.resourceFence "/w", e.after.resourceFence "/w"))
      = [(0, 0), (0, 0), (0, 0), (0, 0), (0, 1), (1, 1), (1, 1), (1, 1), (1, 1), (1, 1), (1, 0),
        (0, 0), (0, 1)] ∧
    reusedRun.1.filterMap (exclusiveFence "/w") = [1, 1] ∧ ¬ FencesGrow reusedRun.1 := by
  have hfences : reusedRun.1.filterMap (exclusiveFence "/w") = [1, 1] := by decide +kernel
  refine ⟨reusedRun_run, by decide +kernel, hfences, fun hgrow => ?_⟩
  have hincreasing := hgrow.exclusive "/w"
  rw [hfences] at hincreasing
  revert hincreasing
  decide

end CodingOS.Store
