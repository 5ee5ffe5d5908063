import CodingOS.Effects.Driver

/-!
# The contract of the external-effect driver

What a process has learnt from the store and from the backend, and which operations it may perform with that:
it asks and executes rows it has read, executes an operation only after it moved its row from `PREPARED` to
`EXECUTING` itself, records a failure only of an operation it has not executed or saw refused, a cancellation
only in place of an execution, and a confirmation only of a row the backend confirmed to it.
-/

namespace CodingOS.Effects.ExternalEffectDriver

open CodingOS.Python CodingOS.Campaign CodingOS.Store Systems

/-- What a process has learnt: the rows it has read, the operations it moved to `EXECUTING` and has not executed,
those whose execution was refused, and the rows the backend confirmed. -/
structure Known where
  seen : Set EffectRow
  granted : Set String
  refused : Set String
  confirmed : Set EffectRow

def Known.fresh : Known := ⟨∅, ∅, ∅, ∅⟩

/-- An execution that raised anything but `AmbiguousMutation`. -/
def isRefusal {α : Type} : Except DriverException α → Bool
  | .ok _ | .error (.ambiguous _) => false
  | .error _ => true

/-- The backend says that the effect is there. -/
def answersConfirmed : Except DriverException Mapping → Bool
  | .ok query => isConfirmed query
  | .error _ => false

section Contract

variable [Runtime]

/-- A row that is read. -/
def Known.sees (k : Known) : Option EffectRow → Known
  | some row => { k with seen := insert row k.seen }
  | none => k

def learn (k : Known) : (op : DriverOp) → DriverAnswer op → Known
  | .getEffect _, answer => k.sees answer.toOption
  | .updateEffect operationId expected target _, answer =>
      let k := k.sees (answer.toOption.bind id)
      if target = .failed then
        { k with granted := k.granted \ {operationId}, refused := k.refused \ {operationId} }
      else if expected = .prepared ∧ target = .executing ∧ answer.toOption.isSome then
        { k with granted := insert operationId k.granted }
      else k
  | .query record, answer =>
      if answersConfirmed answer then { k with confirmed := insert record k.confirmed } else k
  | .execute record, answer =>
      { k with
        granted := k.granted \ {record.operationId}
        refused := if isRefusal answer then insert record.operationId k.refused else k.refused \ {record.operationId} }
  | .getSnapshot _, _ | .verifySources _ _, _ => k

def allowed (k : Known) : DriverOp → Prop
  | .query record => record ∈ k.seen
  | .execute record => record ∈ k.seen ∧ record.operationId ∈ k.granted
  | .updateEffect operationId expected target _ =>
      (target = .failed → operationId ∈ k.granted ∪ k.refused) ∧ (target = .cancelled → expected = .prepared) ∧
        (target = .confirmed → ∃ record ∈ k.confirmed, record.operationId = operationId)
  | .getEffect _ | .getSnapshot _ | .verifySources _ _ => True

/-- The rule of the driver. -/
abbrev Meets {α : Type} (p : Task α) (Q : α → Known → Prop) (E : DriverException → Known → Prop) (k : Known) :
    Prop :=
  p.wp (learning driverMachine learn) (fun k op _ => allowed k op) Q E k

variable {α β : Type} {Q : α → Known → Prop} {E : DriverException → Known → Prop} {k : Known}

/-! ### Rules -/

theorem meets_ensure {condition : Bool} {exc : DriverException} {Q : Unit → Known → Prop}
    (hok : Q () k) (herror : E exc k) : Meets (ensure condition exc) Q E k := by
  cases condition with
  | true => exact hok
  | false => exact herror

theorem meets_ask {op : DriverOp} {Q : DriverResult op → Known → Prop} (hallowed : allowed k op)
    (hok : ∀ result, (∃ db db', driverMachine.step op db (.ok result) db') → Q result (learn k op (.ok result)))
    (herror : ∀ exc, E exc (learn k op (.error exc))) : Meets (ask op) Q E k := by
  refine wp_learning hallowed fun db answer db' hstep => ?_
  cases answer with
  | ok result => exact hok result ⟨db, db', hstep⟩
  | error exc => exact herror exc

theorem meets_attempt {p : Task α} {Q : Except DriverException α → Known → Prop}
    (h : Meets p (fun a => Q (.ok a)) (fun exc => Q (.error exc)) k) : Meets (attempt p) Q E k :=
  Program.wp_handle.mpr (Program.wp_bind.mpr h)

/-- What is read is of the operation that was asked for. -/
theorem meets_getEffect {operationId : String} {Q : EffectRow → Known → Prop} (hraise : ∀ exc k, E exc k)
    (h : ∀ row, row.operationId = operationId → Q row { k with seen := insert row k.seen }) :
    Meets (ask (.getEffect operationId)) Q E k := by
  refine meets_ask trivial (fun row ⟨db, db', hstep⟩ => h row ?_) fun _ => hraise _ _
  obtain ⟨hanswer, -⟩ | ⟨⟨_, _, hanswer⟩, -⟩ := hstep
  · rw [Db.getEffect] at hanswer
    cases hrow : db.outbox.get? operationId with
    | none =>
        rw [hrow] at hanswer
        cases hanswer
    | some found =>
        rw [hrow] at hanswer
        obtain rfl : row = found := Except.ok.inj hanswer
        exact Table.key_of_get? hrow
  · cases hanswer

/-- What `update_effect` leaves known: more rows, and the operation that was granted. -/
structure Updates (k : Known) (operationId : String) (expected target : EffectState) (k' : Known) : Prop where
  seen : k.seen ⊆ k'.seen
  confirmed : k'.confirmed = k.confirmed
  granted : expected = .prepared → target = .executing → operationId ∈ k'.granted

theorem meets_updateEffect {operationId : String} {expected target : EffectState} {result : Option Value}
    {Q : EffectRow → Known → Prop} (hraise : ∀ exc k, E exc k)
    (hallowed : allowed k (.updateEffect operationId expected target result))
    (h : ∀ row k', row.operationId = operationId → row ∈ k'.seen → Updates k operationId expected target k' →
      Q row k') : Meets (updateEffect operationId expected target result) Q E k := by
  have hupdates : ∀ answer : Option EffectRow,
      Updates k operationId expected target (learn k (.updateEffect operationId expected target result) (.ok answer)) := by
    intro answer
    have hseen : k.seen ⊆ (k.sees answer).seen := by
      cases answer with
      | none => exact subset_rfl
      | some row => exact Set.subset_insert _ _
    have hconfirmed : (k.sees answer).confirmed = k.confirmed := by cases answer <;> rfl
    rw [learn]
    by_cases hfailed : target = .failed
    · simp only [if_pos hfailed]
      exact ⟨hseen, hconfirmed, fun _ htarget => by rw [hfailed] at htarget; cases htarget⟩
    · simp only [if_neg hfailed]
      by_cases hgrant : expected = .prepared ∧ target = .executing
      · rw [if_pos ⟨hgrant.1, hgrant.2, rfl⟩]
        exact ⟨hseen, hconfirmed, fun _ _ => Set.mem_insert _ _⟩
      · rw [if_neg fun hall => hgrant ⟨hall.1, hall.2.1⟩]
        exact ⟨hseen, hconfirmed, fun hexpected htarget => absurd ⟨hexpected, htarget⟩ hgrant⟩
  rw [updateEffect]
  refine Program.wp_bind.mpr (meets_ask hallowed (fun answer ⟨db, db', hstep⟩ => ?_) fun _ => hraise _ _)
  have hknown := hupdates answer
  cases answer with
  | some row =>
      refine h row _ ?_ ?_ hknown
      · obtain (⟨_, -, hanswer, -⟩ | ⟨-, hanswer⟩) | ⟨⟨_, _, hanswer⟩, -⟩ := hstep
        · cases hanswer
        · have hrow := Except.ok.inj hanswer
          split at hrow
          · exact Table.key_of_get? hrow.symm
          · cases hrow
        · cases hanswer
      · rw [learn]
        show row ∈ Known.seen (if _ then _ else _)
        split
        · exact Set.mem_insert _ _
        · split <;> exact Set.mem_insert _ _
  | none =>
      refine meets_getEffect hraise fun row hid => h row _ hid (Set.mem_insert _ _) ?_
      exact ⟨hknown.seen.trans (Set.subset_insert _ _), hknown.confirmed, hknown.granted⟩

/-- An update that records neither an end nor a confirmation. -/
theorem allowed_move {operationId : String} {expected target : EffectState} {result : Option Value}
    (h : target ∉ [EffectState.failed, .cancelled, .confirmed]) :
    allowed k (.updateEffect operationId expected target result) := by
  simp only [List.mem_cons, List.not_mem_nil, or_false, not_or] at h
  exact ⟨fun htarget => absurd htarget h.1, fun htarget => absurd htarget h.2.1, fun htarget => absurd htarget h.2.2⟩

/-- The last update of a call. -/
theorem meets_move {operationId : String} {expected target : EffectState} {result : Option Value}
    (h : target ∉ [EffectState.failed, .cancelled, .confirmed]) :
    Meets (updateEffect operationId expected target result) (fun _ _ => True) (fun _ _ => True) k :=
  meets_updateEffect (fun _ _ => trivial) (allowed_move h) fun _ _ _ _ _ => trivial

theorem meets_fail {operationId : String} {expected : EffectState} {result : Option Value}
    (h : operationId ∈ k.granted ∪ k.refused) :
    Meets (updateEffect operationId expected .failed result) (fun _ _ => True) (fun _ _ => True) k :=
  meets_updateEffect (fun _ _ => trivial) ⟨fun _ => h, nofun, nofun⟩ fun _ _ _ _ _ => trivial

theorem meets_confirmed {operationId : String} {expected : EffectState} {result : Option Value}
    (h : ∃ record ∈ k.confirmed, record.operationId = operationId) :
    Meets (updateEffect operationId expected .confirmed result) (fun _ _ => True) (fun _ _ => True) k :=
  meets_updateEffect (fun _ _ => trivial) ⟨nofun, nofun, fun _ => h⟩ fun _ _ _ _ _ => trivial

/-! ### The calls -/

theorem meets_stableId {operationId : String} {Q : String → Known → Prop} (hraise : ∀ exc k, E exc k)
    (h : ∀ operation, Q operation k) : Meets (stableId operationId) Q E k := by
  rw [stableId]
  generalize isStableId (strip operationId) = stable
  exact Program.wp_bind.mpr (meets_ensure (h _) (hraise _ _))

theorem meets_assertRecord {record : EffectRow} {Q : Unit → Known → Prop} (hraise : ∀ exc k, E exc k)
    (h : Q () k) : Meets (assertRecord record) Q E k := by
  rw [assertRecord]
  generalize canonicalJsonDigest (.mapping record.payload) = digest
  exact meets_ensure h (hraise _ _)

/-- `_confirm_from_query` of a row that was read. -/
theorem meets_confirmFromQuery {record : EffectRow} {expected : EffectState} (hseen : record ∈ k.seen) :
    Meets (confirmFromQuery record expected) (fun _ _ => True) (fun _ _ => True) k := by
  rw [confirmFromQuery]
  refine Program.wp_bind.mpr (meets_ask hseen (fun query _ => ?_) fun _ => trivial)
  by_cases hquery : isConfirmed query = true
  · rw [if_pos hquery]
    have hknown : record ∈ (learn k (.query record) (.ok query)).confirmed := by
      rw [learn, answersConfirmed, if_pos hquery]
      exact Set.mem_insert _ _
    by_cases hexpected : expected = .prepared
    · rw [if_pos hexpected]
      refine Program.wp_bind.mpr (Program.wp_bind.mpr (meets_updateEffect (fun _ _ => trivial)
        (allowed_move (by decide)) fun row k' _ _ hupdates => ?_))
      exact Program.wp_bind.mpr (Program.wp_mono (meets_confirmed ⟨record, hupdates.confirmed ▸ hknown, rfl⟩)
        (fun _ _ _ => trivial) fun _ _ => id)
    · rw [if_neg hexpected]
      exact Program.wp_bind.mpr (Program.wp_bind.mpr (Program.wp_mono (meets_confirmed ⟨record, hknown, rfl⟩)
        (fun _ _ _ => trivial) fun _ _ => id))
  · rw [if_neg hquery]
    trivial

/-- `_assert_campaign_contract` teaches nothing. -/
theorem meets_assertCampaignContract {record : EffectRow} {checkSources : Bool} :
    Meets (assertCampaignContract record checkSources) (fun _ k' => k' = k) (fun _ k' => k' = k) k := by
  rw [assertCampaignContract]
  refine Program.wp_bind.mpr (meets_ask trivial (fun snapshot _ => ?_) fun _ => rfl)
  refine Program.wp_bind.mpr (meets_ensure ?_ rfl)
  have hsources : Meets (if checkSources then ask (.verifySources snapshot.spec record.nodeId) else pure ())
      (fun _ k' => k' = k) (fun _ k' => k' = k) k := by
    cases checkSources with
    | true => exact meets_ask trivial (fun _ _ => rfl) fun _ => rfl
    | false => rfl
  refine Program.wp_bind.mpr ?_
  have hcandidate : Meets (assertCandidate snapshot record) (fun _ k' => k' = k) (fun _ k' => k' = k) k := by
    rw [assertCandidate]
    cases record.nodeId with
    | none => rfl
    | some nodeId =>
        refine Program.wp_bind.mpr ?_
        cases storeAnswer (snapshot.node nodeId) with
        | error exc => rfl
        | ok node =>
            show Meets (refuseField _) _ _ _
            generalize (expectedFields snapshot.spec node).find? _ = refused
            cases refused <;> rfl
  by_cases hkind : record.kind = .createPullRequest ∨ record.kind = .merge
  · rw [if_pos hkind]
    exact Program.wp_mono hcandidate (fun _ k' hk => hk ▸ hsources) fun _ _ => id
  · rw [if_neg hkind]
    exact hsources

theorem meets_reconcile {operationId : String} :
    Meets (reconcile operationId) (fun _ _ => True) (fun _ _ => True) k := by
  rw [reconcile]
  refine Program.wp_bind.mpr (meets_stableId (fun _ _ => trivial) fun operation => ?_)
  refine Program.wp_bind.mpr (meets_getEffect (fun _ _ => trivial) fun record _ => ?_)
  refine Program.wp_bind.mpr (meets_assertRecord (fun _ _ => trivial) ?_)
  by_cases hstate : record.state = .confirmed
  · rw [if_pos hstate]
    trivial
  · rw [if_neg hstate]
    refine Program.wp_bind.mpr (meets_ensure ?_ trivial)
    refine Program.wp_bind.mpr (meets_attempt ?_)
    refine Program.wp_mono (meets_confirmFromQuery (Set.mem_insert _ _)) (fun answer k' _ => ?_)
      fun exc k' _ => meets_move (by decide)
    cases answer with
    | some row => trivial
    | none => exact meets_move (by decide)

theorem meets_runCancelled {operation : String} {state : EffectState} :
    Meets (runCancelled operation state) (fun _ _ => True) (fun _ _ => True) k := by
  rw [runCancelled]
  split
  · exact meets_move (by decide)
  · split
    · exact meets_reconcile
    · exact meets_updateEffect (fun _ _ => trivial) ⟨nofun, fun _ => rfl, nofun⟩ fun _ _ _ _ _ => trivial

theorem meets_confirm {operation : String} {executing : EffectRow} {result : Mapping}
    (hid : executing.operationId = operation) (hseen : executing ∈ k.seen) :
    Meets (confirm operation executing result) (fun _ _ => True) (fun _ _ => True) k := by
  rw [confirm]
  refine Program.wp_bind.mpr (meets_attempt (meets_ask hseen (fun query _ => ?_) fun exc => ?_))
  · show Meets (if isConfirmed query then _ else _) _ _ _
    by_cases hquery : isConfirmed query = true
    · rw [if_pos hquery]
      refine meets_confirmed ⟨executing, ?_, hid⟩
      rw [learn, answersConfirmed, if_pos hquery]
      exact Set.mem_insert _ _
    · rw [if_neg hquery]
      exact meets_move (by decide)
  · exact meets_move (by decide)

/-- **The mutation.** -/
theorem meets_mutate {operation : String} :
    Meets (mutate operation) (fun _ _ => True) (fun _ _ => True) k := by
  rw [mutate]
  refine Program.wp_bind.mpr (meets_updateEffect (fun _ _ => trivial) (allowed_move (by decide)) ?_)
  intro executing k' hid hseen hupdates
  have hgranted : operation ∈ k'.granted := hupdates.granted rfl rfl
  -- what raised before the execution leaves the operation granted, and what the execution raised refuses it
  have htried : Meets (attempt (do assertCampaignContract executing true; ask (.execute executing)))
      (fun outcome known => executing ∈ known.seen ∧
        ∀ exc, outcome = .error exc → (∃ message, exc = .ambiguous message) ∨
          operation ∈ known.granted ∪ known.refused) (fun _ _ => True) k' := by
    refine meets_attempt (Program.wp_bind.mpr (Program.wp_mono meets_assertCampaignContract ?_ ?_))
    · intro _ known hknown
      obtain rfl : known = k' := hknown
      refine meets_ask ⟨hseen, hid ▸ hgranted⟩ (fun result _ => ⟨hseen, nofun⟩) fun exc => ⟨hseen, fun exc' hexc => ?_⟩
      obtain rfl := Except.error.inj hexc
      cases exc with
      | ambiguous message => exact .inl ⟨message, rfl⟩
      | store | effect | conflict | sourceDrift | other =>
          exact .inr (.inr (hid ▸ Set.mem_insert _ _))
    · intro exc known hknown
      obtain rfl : known = k' := hknown
      exact ⟨hseen, fun _ _ => .inr (.inl hgranted)⟩
  refine Program.wp_bind.mpr (Program.wp_mono htried ?_ fun _ _ => id)
  intro outcome known ⟨hknown, herror⟩
  cases outcome with
  | ok result => exact meets_confirm hid hknown
  | error exc =>
      have hmay := herror exc rfl
      cases exc with
      | ambiguous message =>
          refine Program.wp_bind.mpr (meets_updateEffect (fun _ _ => trivial) (allowed_move (by decide)) ?_)
          exact fun _ _ _ _ _ => meets_reconcile
      | sourceDrift message =>
          have hmem := hmay.resolve_left nofun
          exact Program.wp_bind.mpr (Program.wp_mono (meets_fail hmem) (fun _ _ _ => trivial) fun _ _ => id)
      | store | effect | conflict | other => exact meets_fail (hmay.resolve_left nofun)

theorem meets_runPrepared {operation : String} {record : EffectRow} (hseen : record ∈ k.seen) :
    Meets (runPrepared operation record) (fun _ _ => True) (fun _ _ => True) k := by
  rw [runPrepared]
  refine Program.wp_bind.mpr (meets_attempt (Program.wp_bind.mpr (Program.wp_mono meets_assertCampaignContract ?_ ?_)))
  · intro _ known hknown
    obtain rfl : known = k := hknown
    refine Program.wp_mono (meets_confirmFromQuery hseen) (fun answer _ _ => ?_) fun exc known _ => ?_
    · cases answer with
      | some already => trivial
      | none => exact meets_mutate
    · refine Program.wp_bind.mpr (meets_updateEffect (fun _ _ => trivial) (allowed_move (by decide)) ?_)
      exact fun row known' _ _ hupdates => meets_fail (.inl (hupdates.granted rfl rfl))
  · intro exc known _
    refine Program.wp_bind.mpr (meets_updateEffect (fun _ _ => trivial) (allowed_move (by decide)) ?_)
    exact fun row known' _ _ hupdates => meets_fail (.inl (hupdates.granted rfl rfl))

theorem meets_run {operationId : String} {cancelled : Bool} :
    Meets (run operationId cancelled) (fun _ _ => True) (fun _ _ => True) k := by
  rw [run]
  refine Program.wp_bind.mpr (meets_stableId (fun _ _ => trivial) fun operation => ?_)
  refine Program.wp_bind.mpr (meets_getEffect (fun _ _ => trivial) fun record _ => ?_)
  refine Program.wp_bind.mpr (meets_assertRecord (fun _ _ => trivial) ?_)
  have hseen : record ∈ insert record k.seen := Set.mem_insert _ _
  have hcancelled : ∀ {p : Task EffectRow} {state : EffectState} {k : Known},
      Meets p (fun _ _ => True) (fun _ _ => True) k →
      Meets (if cancelled then runCancelled operation state else p) (fun _ _ => True) (fun _ _ => True) k := by
    intro p state k hp
    cases cancelled with
    | true => exact meets_runCancelled
    | false => exact hp
  cases hstate : record.state with
  | confirmed | failed | cancelled => trivial
  | prepared => exact hcancelled (meets_runPrepared hseen)
  | ambiguous => exact hcancelled meets_reconcile
  | executing =>
      refine hcancelled (Program.wp_bind.mpr (meets_updateEffect (fun _ _ => trivial) (allowed_move (by decide)) ?_))
      exact fun _ _ _ _ _ => meets_reconcile

/-- **Every call keeps the contract.** -/
theorem Calls.contract {p : Task EffectRow} (h : Calls p) : p.Contract driverMachine learn allowed .fresh := by
  obtain ⟨operationId, cancelled, rfl⟩ | ⟨operationId, rfl⟩ := h
  · exact meets_run
  · exact meets_reconcile

end Contract

end CodingOS.Effects.ExternalEffectDriver
