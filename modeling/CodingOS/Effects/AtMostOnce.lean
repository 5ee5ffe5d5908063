import CodingOS.Effects.DriverContract

/-!
# Driver processes over one store

Any number of processes run and reconcile effects over one store, and all the other transactions of the store
take place between their operations.  Of one operation at most one execution starts, by the process whose
compare-and-set began it; an operation that may have taken effect outside never becomes `FAILED` or `CANCELLED`;
and a confirmed row is one the backend confirmed.
-/

namespace CodingOS.Effects.ExternalEffectDriver

open CodingOS.Python CodingOS.Campaign CodingOS.Store Systems

section System

variable [Runtime]

/-- The other transactions of the store: only the driver calls `update_effect`. -/
def surroundings (db : Db) (t : Transaction) (db' : Db) : Prop :=
  commits db t db' ∧ ∀ operationId target result expected, t ≠ .updateEffect operationId target result expected

abbrev DriverPool := Pool DriverAnswer Db DriverException EffectRow

abbrev DriverEvent := PoolEvent DriverAnswer DriverException EffectRow Transaction

/-- A run of driver processes, from the empty store. -/
def DriverRun (history : List (Entry DriverPool DriverEvent)) (s : DriverPool) : Prop :=
  Run (PoolStep driverMachine surroundings Calls) ⟨{}, fun _ => none⟩ history s

/-! ### Events -/

/-- An execution that starts: its process and its row. -/
def executionOf : DriverEvent → Option (ℕ × EffectRow)
  | .perform i (.execute record) _ | .torn i (.execute record) => some (i, record)
  | _ => none

def executes (operation : String) (e : DriverEvent) : Bool := (executionOf e).any (·.2.operationId == operation)

/-- An execution that was not refused, and may have taken effect. -/
def escapeOf : DriverEvent → Option String
  | .perform _ (.execute record) answer => if isRefusal answer then none else some record.operationId
  | .torn _ (.execute record) => some record.operationId
  | _ => none

/-- A compare-and-set from `PREPARED` to `EXECUTING`. -/
def grantOf : DriverEvent → Option (ℕ × String)
  | .perform i (.updateEffect operationId .prepared .executing _) (.ok _) => some (i, operationId)
  | _ => none

/-- A row the backend confirmed. -/
def confirmationOf : DriverEvent → Option EffectRow
  | .perform _ (.query record) answer => if answersConfirmed answer then some record else none
  | _ => none

theorem executes_iff {operation : String} {e : DriverEvent} :
    executes operation e = true ↔ ∃ i record, executionOf e = some (i, record) ∧ record.operationId = operation := by
  rw [executes]
  cases executionOf e with
  | none => simp
  | some x => simp [Prod.ext_iff]

theorem executed_of_escaped {operation : String} {e : DriverEvent} (h : escapeOf e = some operation) :
    executes operation e = true := by
  rw [executes_iff]
  cases e with
  | start | stop | surround => cases h
  | perform i op answer =>
      cases op with
      | execute record =>
          refine ⟨i, record, rfl, ?_⟩
          rw [escapeOf] at h
          split at h
          · cases h
          · exact Option.some.inj h
      | _ => cases h
  | torn i op =>
      cases op with
      | execute record => exact ⟨i, record, rfl, Option.some.inj h⟩
      | _ => cases h

/-! ### Rows -/

/-- The states of an effect that may have taken place. -/
def liveStates : List EffectState := [.executing, .ambiguous, .confirmed]

/-- The states no transition leaves. -/
def finalStates : List EffectState := [.confirmed, .failed, .cancelled]

/-- The row of an operation, and its state. -/
def StateIn (db : Db) (operation : String) (states : List EffectState) : Prop :=
  ∃ row, db.outbox.get? operation = some row ∧ row.state ∈ states

/-- The row was prepared with this kind and payload. -/
def Stored (db : Db) (record : EffectRow) : Prop :=
  ∃ row, db.outbox.get? record.operationId = some row ∧ row.kind = record.kind ∧ row.payload = record.payload

/-- The states behind `PREPARED`. -/
def begunStates : List EffectState := [.executing, .confirmed, .failed, .ambiguous, .cancelled]

omit [Runtime] in
theorem mem_begunStates {state : EffectState} : state ∈ begunStates ↔ state ≠ .prepared := by
  cases state <;> decide

omit [Runtime] in
theorem live_begun {state : EffectState} (h : state ∈ liveStates) : state ∈ begunStates := by
  revert h
  cases state <;> decide

variable {db db' : Db} {record : EffectRow} {operation : String}

/-- What every step does to a row. -/
structure Moved (row row' : EffectRow) : Prop where
  kind : row'.kind = row.kind
  payload : row'.payload = row.payload
  begun : row.state ∈ begunStates → row'.state ∈ begunStates
  final : row.state ∈ finalStates → row'.state = row.state

omit [Runtime] in
theorem Moved.refl (row : EffectRow) : Moved row row := ⟨rfl, rfl, id, fun _ => rfl⟩

/-- What a step does to the rows that were there. -/
def OutboxMoved (db db' : Db) : Prop :=
  ∀ operation row, db.outbox.get? operation = some row →
    ∃ row', db'.outbox.get? operation = some row' ∧ Moved row row'

theorem OutboxMoved.stored (h : OutboxMoved db db') (hstored : Stored db record) : Stored db' record := by
  obtain ⟨row, hrow, hkind, hpayload⟩ := hstored
  obtain ⟨row', hrow', hmoved⟩ := h _ row hrow
  exact ⟨row', hrow', hmoved.kind.trans hkind, hmoved.payload.trans hpayload⟩

theorem OutboxMoved.begun (h : OutboxMoved db db') (hbegun : StateIn db operation begunStates) :
    StateIn db' operation begunStates := by
  obtain ⟨row, hrow, hstate⟩ := hbegun
  obtain ⟨row', hrow', hmoved⟩ := h _ row hrow
  exact ⟨row', hrow', hmoved.begun hstate⟩

omit [Runtime] in
/-- A transition is to a state behind `PREPARED`, and no transition leaves a final state. -/
theorem moved_of_follows {row row' : EffectRow} (hkind : row'.kind = row.kind)
    (hpayload : row'.payload = row.payload)
    (h : row'.state = row.state ∨ row'.state ∈ effectTransitions row.state) : Moved row row' := by
  refine ⟨hkind, hpayload, fun hbegun => ?_, fun hfinal => ?_⟩
  · rcases h with hsame | hnext
    · rwa [hsame]
    · revert hnext
      cases row.state <;> cases row'.state <;> decide
  · rcases h with hsame | hnext
    · exact hsame
    · revert hfinal hnext
      cases row.state <;> cases row'.state <;> decide

/-! ### The other transactions -/

/-- What the other transactions keep besides. -/
structure Surrounded (db db' : Db) : Prop where
  moved : OutboxMoved db db'
  live : ∀ operation, StateIn db operation liveStates → StateIn db' operation liveStates
  confirmed : ∀ operation row', db'.outbox.get? operation = some row' → row'.state = .confirmed →
    ∃ row, db.outbox.get? operation = some row ∧ row.state = .confirmed ∧ row'.kind = row.kind ∧
      row'.payload = row.payload

/-- A row the other transactions insert is prepared. -/
theorem Inserted.prepared {t : Transaction} {row : EffectRow} (h : Inserted db t row) : row.state = .prepared := by
  cases h with
  | published _ _ _ hreduce hrow =>
      rcases external_intents hreduce with ⟨hne, -⟩ | ⟨-, intent, heq, _, _, _, -, hguard⟩
      · contradiction
      · obtain rfl := List.singleton_inj.mp heq
        rw [hrow]
        exact hguard.identity.2.2.2.2.1
  | prepared _ _ _ _ _ hstate _ _ _ _ hrow =>
      rw [hrow]
      exact hstate

theorem surroundings_keep {t : Transaction} (h : surroundings db t db') : Surrounded db db' := by
  obtain ⟨hcommits, hother⟩ := h
  have hchange := (Transaction.committed hcommits).outbox
  have hstep : ∀ operation row, db.outbox.get? operation = some row → ∃ row',
      db'.outbox.get? operation = some row' ∧ RowStep db t row row' := by
    intro operation row hrow
    obtain rfl : row.operationId = operation := Table.key_of_get? hrow
    exact hchange.step row hrow
  refine ⟨fun operation row hrow => ?_, fun operation ⟨row, hrow, hlive⟩ => ?_, fun operation row' hrow' hstate => ?_⟩
  · obtain ⟨row', hrow', hstepped⟩ := hstep operation row hrow
    refine ⟨row', hrow', ?_⟩
    cases hstepped with
    | same => exact .refl row
    | cancelled _ _ _ hstate =>
        have hnext : EffectState.cancelled ∈ effectTransitions .prepared := by decide
        exact moved_of_follows rfl rfl (.inr (hstate ▸ hnext))
    | interrupted _ _ _ hstate | recovered _ hstate =>
        have hnext : EffectState.ambiguous ∈ effectTransitions .executing := by decide
        exact moved_of_follows rfl rfl (.inr (hstate ▸ hnext))
    | updated ht => exact absurd ht (hother _ _ _ _)
  · obtain ⟨row', hrow', hstepped⟩ := hstep operation row hrow
    refine ⟨row', hrow', ?_⟩
    cases hstepped with
    | same => exact hlive
    | cancelled _ _ _ hstate =>
        have hnot : EffectState.prepared ∉ liveStates := by decide
        exact absurd (hstate ▸ hlive) hnot
    | interrupted | recovered => exact (by decide : EffectState.ambiguous ∈ liveStates)
    | updated ht => exact absurd ht (hother _ _ _ _)
  · cases hrow : db.outbox.get? operation with
    | none =>
        obtain rfl : row'.operationId = operation := Table.key_of_get? hrow'
        have hprepared := Inserted.prepared (hchange.inserted row' hrow hrow')
        rw [hstate] at hprepared
        cases hprepared
    | some row =>
        obtain ⟨row'', hrow'', hstepped⟩ := hstep operation row hrow
        obtain rfl := Option.some.inj (hrow''.symm.trans hrow')
        cases hstepped with
        | same => exact ⟨row, rfl, hstate, rfl, rfl⟩
        | cancelled | interrupted | recovered => cases hstate
        | updated ht => exact absurd ht (hother _ _ _ _)

/-! ### The compare-and-set -/

/-- What `update_effect` does to its row. -/
structure EffectUpdated (db : Db) (operation : String) (expected target : EffectState) (row row' : EffectRow)
    (db' : Db) : Prop where
  before : db.outbox.get? operation = some row
  state_eq : row.state = expected
  after : db'.outbox.get? operation = some row'
  target_eq : row'.state = target
  kind : row'.kind = row.kind
  payload : row'.payload = row.payload
  follows : target = expected ∨ target ∈ effectTransitions expected
  others : ∀ other, other ≠ operation → db'.outbox.get? other = db.outbox.get? other

theorem updateEffect_updated {expected target : EffectState} {result : Option Value}
    (h : db.updateEffect operation target result (some expected) = .ok db') :
    ∃ row row', EffectUpdated db operation expected target row row' db' := by
  simp only [Db.updateEffect, Db.getEffect, bind_eq_ok, orRaise_eq_ok, check_eq_ok, exists_const] at h
  obtain ⟨row, hrow, hexpected, h⟩ := h
  have hid : row.operationId = operation := Table.key_of_get? hrow
  have hstate : row.state = expected := Eq.symm (by simpa using hexpected)
  have hwrite : ∀ (target : EffectState) (result : Option Value) (revision : ℕ),
      target = expected ∨ target ∈ effectTransitions expected →
      ∃ row', EffectUpdated db operation expected target row row'
        (db.writeEffect operation row.state target result revision) := by
    intro target result revision hfollows
    have hget : ∀ other, (db.writeEffect operation row.state target result revision).outbox.get? other
        = (db.outbox.get? other).map fun r =>
          if (r.operationId == operation && r.state == row.state) = true then
            { r with state := target, result, updatedRevision := revision } else r := by
      intro other
      rw [Db.writeEffect, Table.get?_update]
    refine ⟨{ row with state := target, result, updatedRevision := revision }, hrow, hstate, ?_, rfl, rfl, rfl,
      hfollows, fun other hne => ?_⟩
    · rw [hget, hrow, Option.map_some, if_pos (by simp [hid])]
    · rw [hget]
      cases hother : db.outbox.get? other with
      | none => rfl
      | some r =>
          have hr : r.operationId = other := Table.key_of_get? hother
          rw [Option.map_some, if_neg]
          simp [hr, hne]
  split at h
  · next hsame =>
      have htarget : target = expected := hsame.trans hstate
      cases result with
      | none =>
          obtain rfl := pure_eq_ok.mp h
          exact ⟨row, row, hrow, hstate, hrow, htarget ▸ hstate, rfl, rfl, .inl htarget, fun _ _ => rfl⟩
      | some result =>
          simp only [bind_eq_ok, pure_eq_ok] at h
          obtain ⟨s, -, rfl⟩ := h
          obtain ⟨row', hupdated⟩ := hwrite row.state (some result) s.revision (.inl hstate)
          exact ⟨row, row', htarget.trans hstate.symm ▸ hupdated⟩
  · simp only [bind_eq_ok, check_eq_ok, exists_const] at h
    obtain ⟨hfollows, s, -, h⟩ := h
    obtain ⟨row', hupdated⟩ := hwrite target result s.revision
      (.inr (by rw [← hstate]; simpa using hfollows))
    refine ⟨row, row', ?_⟩
    split at h
    · simp only [bind_eq_ok] at h
      obtain ⟨_, -, h⟩ := h
      obtain rfl := pure_eq_ok.mp h
      exact hupdated
    · obtain rfl := pure_eq_ok.mp h
      exact hupdated

theorem EffectUpdated.moved {expected target : EffectState} {row row' : EffectRow}
    (h : EffectUpdated db operation expected target row row' db') : OutboxMoved db db' := by
  intro other r hr
  by_cases hother : other = operation
  · subst hother
    obtain rfl := Option.some.inj (h.before.symm.trans hr)
    refine ⟨row', h.after, moved_of_follows h.kind h.payload ?_⟩
    rw [h.target_eq, h.state_eq]
    exact h.follows
  · exact ⟨r, (h.others other hother).trans hr, .refl r⟩

/-! ### The invariant -/

/-- What holds of the events so far, the store and the knowledge of the processes. -/
structure Safe (events : List DriverEvent) (db : Db) (k : ℕ → Known) : Prop where
  seen : ∀ i, ∀ record ∈ (k i).seen, Stored db record
  granted : ∀ i, ∀ operation ∈ (k i).granted, StateIn db operation liveStates ∧
    events.countP (executes operation) = 0 ∧ ∃ e ∈ events, grantOf e = some (i, operation)
  refused : ∀ i, ∀ operation ∈ (k i).refused, StateIn db operation begunStates ∧
    ∀ e ∈ events, escapeOf e ≠ some operation
  unique : ∀ i j operation, operation ∈ (k i).granted ∪ (k i).refused →
    operation ∈ (k j).granted ∪ (k j).refused → i = j
  confirmed : ∀ i, ∀ record ∈ (k i).confirmed, Stored db record ∧ ∃ e ∈ events, confirmationOf e = some record
  once : ∀ operation, events.countP (executes operation) ≤ 1
  begun : ∀ operation, 0 < events.countP (executes operation) → StateIn db operation begunStates
  live : ∀ operation, ∀ e ∈ events, escapeOf e = some operation → StateIn db operation liveStates
  observed : ∀ operation row, db.outbox.get? operation = some row → row.state = .confirmed →
    ∃ record, record.operationId = operation ∧ record.kind = row.kind ∧ record.payload = row.payload ∧
      ∃ e ∈ events, confirmationOf e = some record
  owned : ∀ earlier e later i record, events = earlier ++ e :: later → executionOf e = some (i, record) →
    Stored db record ∧ ∃ g ∈ earlier, grantOf g = some (i, record.operationId)

variable {events : List DriverEvent} {k : ℕ → Known}

/-- An operation a process may still record as failed has not escaped. -/
theorem Safe.not_escaped (h : Safe events db k) {i : ℕ} (hmem : operation ∈ (k i).granted ∪ (k i).refused) :
    ∀ e ∈ events, escapeOf e ≠ some operation := by
  intro e he hescaped
  rcases hmem with hgranted | hrefused
  · have hcount := (h.granted i operation hgranted).2.1
    exact absurd (executed_of_escaped hescaped) (List.countP_eq_zero.mp hcount e he)
  · exact (h.refused i operation hrefused).2 e he hescaped

theorem StateIn.begun (h : StateIn db operation liveStates) : StateIn db operation begunStates := by
  obtain ⟨row, hrow, hstate⟩ := h
  exact ⟨row, hrow, live_begun hstate⟩

theorem Safe.begun_of_mem (h : Safe events db k) {i : ℕ} (hmem : operation ∈ (k i).granted ∪ (k i).refused) :
    StateIn db operation begunStates := by
  rcases hmem with hgranted | hrefused
  · exact (h.granted i operation hgranted).1.begun
  · exact (h.refused i operation hrefused).1

/-- The store moves. -/
theorem Safe.world (h : Safe events db k) (hmoved : OutboxMoved db db')
    (hlive : ∀ operation, (∃ e ∈ events, escapeOf e = some operation) ∨ (∃ i, operation ∈ (k i).granted) →
      StateIn db operation liveStates → StateIn db' operation liveStates)
    (hobserved : ∀ operation row', db'.outbox.get? operation = some row' → row'.state = .confirmed →
      ∃ record, record.operationId = operation ∧ record.kind = row'.kind ∧ record.payload = row'.payload ∧
        ∃ e ∈ events, confirmationOf e = some record) : Safe events db' k where
  seen i record hrecord := hmoved.stored (h.seen i record hrecord)
  granted i operation hmem :=
    have hgranted := h.granted i operation hmem
    ⟨hlive operation (.inr ⟨i, hmem⟩) hgranted.1, hgranted.2⟩
  refused i operation hmem :=
    have hrefused := h.refused i operation hmem
    ⟨hmoved.begun hrefused.1, hrefused.2⟩
  unique := h.unique
  confirmed i record hrecord :=
    have hconfirmed := h.confirmed i record hrecord
    ⟨hmoved.stored hconfirmed.1, hconfirmed.2⟩
  once := h.once
  begun operation hcount := hmoved.begun (h.begun operation hcount)
  live operation e he hescaped := hlive operation (.inl ⟨e, he, hescaped⟩) (h.live operation e he hescaped)
  observed := hobserved
  owned earlier e later i record hsplit hexecuted :=
    have howned := h.owned earlier e later i record hsplit hexecuted
    ⟨hmoved.stored howned.1, howned.2⟩

/-- An event that executes nothing. -/
theorem Safe.event (h : Safe events db k) {e : DriverEvent} (hexecuted : executionOf e = none) :
    Safe (events ++ [e]) db k := by
  have hcount : ∀ operation, (events ++ [e]).countP (executes operation) = events.countP (executes operation) := by
    intro operation
    rw [List.countP_append, List.countP_singleton, executes, hexecuted]
    rfl
  have hescaped : ∀ operation, escapeOf e ≠ some operation := fun operation hescaped => by
    have hexecutes := executed_of_escaped hescaped
    rw [executes, hexecuted] at hexecutes
    cases hexecutes
  have hlater : ∀ {α : Type} {f : DriverEvent → Option α} {a : α}, (∃ g ∈ events, f g = some a) →
      ∃ g ∈ events ++ [e], f g = some a := fun ⟨g, hg, ha⟩ => ⟨g, List.mem_append_left _ hg, ha⟩
  refine ⟨h.seen, fun i operation hmem => ?_, fun i operation hmem => ?_, h.unique, fun i record hrecord => ?_,
    fun operation => ?_, fun operation hpos => ?_, fun operation g hg hg' => ?_, fun operation row hrow hstate => ?_,
    fun earlier g later i record hsplit hg => ?_⟩
  · obtain ⟨hbegun, hzero, hgrant⟩ := h.granted i operation hmem
    exact ⟨hbegun, (hcount operation).trans hzero, hlater hgrant⟩
  · obtain ⟨hbegun, hnone⟩ := h.refused i operation hmem
    refine ⟨hbegun, fun g hg => ?_⟩
    rcases List.mem_append.mp hg with hg | hg
    · exact hnone g hg
    · rw [List.mem_singleton.mp hg]
      exact hescaped operation
  · obtain ⟨hstored, hquery⟩ := h.confirmed i record hrecord
    exact ⟨hstored, hlater hquery⟩
  · rw [hcount]
    exact h.once operation
  · rw [hcount] at hpos
    exact h.begun operation hpos
  · rcases List.mem_append.mp hg with hg | hg
    · exact h.live operation g hg hg'
    · rw [List.mem_singleton.mp hg] at hg'
      exact absurd hg' (hescaped operation)
  · obtain ⟨record, hid, hkind, hpayload, hquery⟩ := h.observed operation row hrow hstate
    exact ⟨record, hid, hkind, hpayload, hlater hquery⟩
  · rcases List.eq_nil_or_concat later with rfl | ⟨later, last, rfl⟩
    · obtain ⟨-, hlast⟩ := List.append_inj' hsplit rfl
      rw [← List.singleton_inj.mp hlast, hexecuted] at hg
      cases hg
    · have hrest : events ++ [e] = (earlier ++ g :: later) ++ [last] := by
        rw [hsplit, List.concat_eq_append, List.append_assoc, List.cons_append]
      obtain ⟨hevents, -⟩ := List.append_inj' hrest rfl
      exact h.owned earlier g later i record hevents hg

/-- A process learns. -/
theorem Safe.known (h : Safe events db k) {i : ℕ} {known : Known}
    (hseen : ∀ record ∈ known.seen, Stored db record)
    (hgranted : ∀ operation ∈ known.granted, StateIn db operation liveStates ∧
      events.countP (executes operation) = 0 ∧ ∃ e ∈ events, grantOf e = some (i, operation))
    (hrefused : ∀ operation ∈ known.refused, StateIn db operation begunStates ∧
      ∀ e ∈ events, escapeOf e ≠ some operation)
    (hunique : ∀ j operation, operation ∈ known.granted ∪ known.refused →
      operation ∈ (k j).granted ∪ (k j).refused → i = j)
    (hconfirmed : ∀ record ∈ known.confirmed, Stored db record ∧ ∃ e ∈ events, confirmationOf e = some record) :
    Safe events db (Function.update k i known) := by
  have hother : ∀ {j : ℕ}, j ≠ i → Function.update k i known j = k j := fun hj => Function.update_of_ne hj ..
  have hself : Function.update k i known i = known := Function.update_self ..
  refine { h with
    seen := fun j => ?_, granted := fun j => ?_, refused := fun j => ?_, unique := fun j j' operation => ?_,
    confirmed := fun j => ?_ }
  · by_cases hj : j = i
    · rw [hj, hself]
      exact hseen
    · rw [hother hj]
      exact h.seen j
  · by_cases hj : j = i
    · rw [hj, hself]
      exact hgranted
    · rw [hother hj]
      exact h.granted j
  · by_cases hj : j = i
    · rw [hj, hself]
      exact hrefused
    · rw [hother hj]
      exact h.refused j
  · by_cases hj : j = i
    · by_cases hj' : j' = i
      · intro _ _
        rw [hj, hj']
      · rw [hj, hself, hother hj']
        exact hunique j' operation
    · by_cases hj' : j' = i
      · rw [hj', hself, hother hj]
        exact fun hmem hmem' => (hunique j operation hmem' hmem).symm
      · rw [hother hj, hother hj']
        exact h.unique j j' operation
  · by_cases hj : j = i
    · rw [hj, hself]
      exact hconfirmed
    · rw [hother hj]
      exact h.confirmed j

/-- A process that starts or ends knows nothing. -/
theorem Safe.fresh (h : Safe events db k) {i : ℕ} : Safe events db (Function.update k i .fresh) :=
  h.known (fun _ hmem => hmem.elim) (fun _ hmem => hmem.elim) (fun _ hmem => hmem.elim)
    (fun _ _ hmem => (hmem.elim False.elim False.elim)) (fun _ hmem => hmem.elim)

/-- A process knows no more than it did, but for rows it has read. -/
theorem Safe.shrink (h : Safe events db k) {i : ℕ} {known : Known} (hseen : ∀ record ∈ known.seen, Stored db record)
    (hgranted : known.granted ⊆ (k i).granted) (hrefused : known.refused ⊆ (k i).refused)
    (hconfirmed : known.confirmed ⊆ (k i).confirmed) : Safe events db (Function.update k i known) :=
  h.known hseen (fun operation hmem => h.granted i operation (hgranted hmem))
    (fun operation hmem => h.refused i operation (hrefused hmem))
    (fun j operation hmem => h.unique i j operation (Set.union_subset_union hgranted hrefused hmem))
    fun record hmem => h.confirmed i record (hconfirmed hmem)

/-- What a process knows that has recorded a failure. -/
def Known.without (k : Known) (operation : String) (target : EffectState) : Known :=
  if target = .failed then { k with granted := k.granted \ {operation}, refused := k.refused \ {operation} } else k

omit [Runtime] in
theorem Known.without_subset (k : Known) (operation : String) (target : EffectState) :
    (k.without operation target).seen = k.seen ∧ (k.without operation target).confirmed = k.confirmed ∧
      (k.without operation target).granted ⊆ k.granted ∧ (k.without operation target).refused ⊆ k.refused := by
  rw [Known.without]
  split
  · exact ⟨rfl, rfl, Set.sdiff_subset, Set.sdiff_subset⟩
  · exact ⟨rfl, rfl, subset_rfl, subset_rfl⟩

/-- **The compare-and-set keeps the invariant.** -/
theorem Safe.updated (h : Safe events db k) {i : ℕ} {expected target : EffectState} {result : Option Value}
    {row row' : EffectRow} (hallowed : allowed (k i) (.updateEffect operation expected target result))
    (hupdated : EffectUpdated db operation expected target row row' db') :
    Safe events db' (Function.update k i ((k i).without operation target)) := by
  obtain ⟨hfail, hcancel, hconfirm⟩ := hallowed
  obtain ⟨hseen, hconfirmed, hgranted, hrefused⟩ := (k i).without_subset operation target
  have hshrunk : Safe events db (Function.update k i ((k i).without operation target)) :=
    h.shrink (fun record hmem => h.seen i record (hseen ▸ hmem)) hgranted hrefused hconfirmed.subset
  refine hshrunk.world hupdated.moved (fun other hheld ⟨r, hr, hlive⟩ => ?_) fun other row'' hrow'' hstate => ?_
  · by_cases hother : other = operation
    · subst hother
      obtain rfl := Option.some.inj (hupdated.before.symm.trans hr)
      refine ⟨row', hupdated.after, ?_⟩
      rw [hupdated.state_eq] at hlive
      rw [hupdated.target_eq]
      rcases hupdated.follows with hsame | hnext
      · rwa [hsame]
      cases htarget : target with
      | executing | ambiguous | confirmed => decide
      | prepared =>
          rw [htarget] at hnext
          exact absurd hnext (by cases expected <;> decide)
      | cancelled =>
          rw [hcancel htarget] at hlive
          exact absurd hlive (by decide)
      | failed =>
          have hmem := hfail htarget
          rcases hheld with ⟨e, he, hescaped⟩ | ⟨j, hj⟩
          · exact absurd hescaped (h.not_escaped hmem e he)
          · by_cases hji : j = i
            · rw [hji, Function.update_self, Known.without, if_pos htarget] at hj
              exact absurd rfl hj.2
            · rw [Function.update_of_ne hji] at hj
              exact absurd (h.unique j i other (.inl hj) hmem) hji
    · exact ⟨r, (hupdated.others other hother).trans hr, hlive⟩
  · by_cases hother : other = operation
    · subst hother
      obtain rfl := Option.some.inj (hupdated.after.symm.trans hrow'')
      rw [hupdated.target_eq] at hstate
      obtain ⟨record, hrecord, hid⟩ := hconfirm hstate
      obtain ⟨⟨stored, hstored, hkind, hpayload⟩, hquery⟩ := h.confirmed i record hrecord
      rw [hid, hupdated.before] at hstored
      obtain rfl := Option.some.inj hstored
      exact ⟨record, hid, hkind.symm.trans hupdated.kind.symm, hpayload.symm.trans hupdated.payload.symm, hquery⟩
    · exact h.observed other row'' ((hupdated.others other hother).symm.trans hrow'') hstate

/-- **An execution keeps the invariant.** -/
theorem Safe.executed (h : Safe events db k) {i : ℕ} {e : DriverEvent} {known : Known}
    (hallowed : allowed (k i) (.execute record)) (he : executionOf e = some (i, record))
    (hseen : known.seen ⊆ (k i).seen) (hconfirmed : known.confirmed ⊆ (k i).confirmed)
    (hgranted : known.granted ⊆ (k i).granted \ {record.operationId})
    (hrefused : known.refused ⊆ insert record.operationId (k i).refused)
    (hescaped : record.operationId ∈ known.refused → escapeOf e = none) :
    Safe (events ++ [e]) db (Function.update k i known) := by
  obtain ⟨hread, hmem⟩ := hallowed
  obtain ⟨hlive, hzero, hgrant⟩ := h.granted i _ hmem
  have hexecutes : ∀ operation, executes operation e = (record.operationId == operation) := fun operation => by
    rw [executes, he]
    rfl
  have hcount : ∀ operation, (events ++ [e]).countP (executes operation)
      = events.countP (executes operation) + if record.operationId = operation then 1 else 0 := by
    intro operation
    rw [List.countP_append, List.countP_singleton, hexecutes]
    simp
  have hescape : ∀ operation, escapeOf e = some operation → record.operationId = operation := by
    intro operation hsome
    have hexecuted := executed_of_escaped hsome
    rwa [hexecutes, beq_iff_eq] at hexecuted
  have hunion : known.granted ∪ known.refused ⊆ (k i).granted ∪ (k i).refused := by
    rintro operation (hold | hold)
    · exact .inl (hgranted hold).1
    · rcases hrefused hold with rfl | hold
      · exact .inl hmem
      · exact .inr hold
  -- no other process holds the operation that is executed
  have hother : ∀ j operation, j ≠ i → operation ∈ (k j).granted ∪ (k j).refused →
      record.operationId ≠ operation := by
    intro j operation hj hheld hid
    exact hj (h.unique j i operation hheld (hid ▸ .inl hmem))
  have hsame : ∀ {operation}, record.operationId ≠ operation →
      (events ++ [e]).countP (executes operation) = events.countP (executes operation) ∧
        ∀ g ∈ events ++ [e], escapeOf g = some operation → g ∈ events := by
    intro operation hne
    rw [hcount, if_neg hne]
    refine ⟨rfl, fun g hg hsome => ?_⟩
    rcases List.mem_append.mp hg with hg | hg
    · exact hg
    · rw [List.mem_singleton.mp hg] at hsome
      exact absurd (hescape operation hsome) hne
  have hlater : ∀ {α : Type} {f : DriverEvent → Option α} {a : α}, (∃ g ∈ events, f g = some a) →
      ∃ g ∈ events ++ [e], f g = some a := fun ⟨g, hg, ha⟩ => ⟨g, List.mem_append_left _ hg, ha⟩
  have hself : Function.update k i known i = known := Function.update_self ..
  refine ⟨fun j r hr => ?_, fun j operation hheld => ?_, fun j operation hheld => ?_, fun j j' operation hj hj' => ?_,
    fun j r hr => ?_, fun operation => ?_, fun operation hpos => ?_, fun operation g hg hsome => ?_,
    fun operation row hrow hstate => ?_, fun earlier g later j r hsplit hg => ?_⟩
  · by_cases hj : j = i
    · rw [hj, hself] at hr
      exact h.seen i r (hseen hr)
    · rw [Function.update_of_ne hj] at hr
      exact h.seen j r hr
  · have hold : operation ∈ (k j).granted ∧ record.operationId ≠ operation := by
      by_cases hj : j = i
      · rw [hj, hself] at hheld
        exact ⟨hj ▸ (hgranted hheld).1, fun hid => (hgranted hheld).2 hid.symm⟩
      · rw [Function.update_of_ne hj] at hheld
        exact ⟨hheld, hother j operation hj (.inl hheld)⟩
    obtain ⟨hstate, hnone, hfirst⟩ := h.granted j operation hold.1
    exact ⟨hstate, (hsame hold.2).1.trans hnone, hlater hfirst⟩
  · by_cases hid : record.operationId = operation
    · subst hid
      by_cases hj : j = i
      · rw [hj, hself] at hheld
        refine ⟨hlive.begun, fun g hg => ?_⟩
        rcases List.mem_append.mp hg with hg | hg
        · exact h.not_escaped (.inl hmem) g hg
        · rw [List.mem_singleton.mp hg, hescaped hheld]
          nofun
      · rw [Function.update_of_ne hj] at hheld
        exact absurd rfl (hother j _ hj (.inr hheld))
    · have hold : operation ∈ (k j).refused := by
        by_cases hj : j = i
        · rw [hj, hself] at hheld
          rw [hj]
          exact (hrefused hheld).resolve_left fun heq => hid heq.symm
        · rwa [Function.update_of_ne hj] at hheld
      obtain ⟨hbegun, hnone⟩ := h.refused j operation hold
      exact ⟨hbegun, fun g hg hsome => hnone g ((hsame hid).2 g hg hsome) hsome⟩
  · have hold : ∀ {j}, operation ∈ (Function.update k i known j).granted ∪ (Function.update k i known j).refused →
        operation ∈ (k j).granted ∪ (k j).refused := by
      intro j hheld
      by_cases hji : j = i
      · rw [hji, hself] at hheld
        exact hji ▸ hunion hheld
      · rwa [Function.update_of_ne hji] at hheld
    exact h.unique j j' operation (hold hj) (hold hj')
  · have hold : r ∈ (k j).confirmed := by
      by_cases hj : j = i
      · rw [hj, hself] at hr
        exact hj ▸ hconfirmed hr
      · rwa [Function.update_of_ne hj] at hr
    obtain ⟨hstored, hquery⟩ := h.confirmed j r hold
    exact ⟨hstored, hlater hquery⟩
  · by_cases hid : record.operationId = operation
    · rw [hcount, ← hid, hzero, if_pos rfl]
    · rw [(hsame hid).1]
      exact h.once operation
  · by_cases hid : record.operationId = operation
    · exact hid ▸ hlive.begun
    · rw [(hsame hid).1] at hpos
      exact h.begun operation hpos
  · by_cases hid : record.operationId = operation
    · exact hid ▸ hlive
    · exact h.live operation g ((hsame hid).2 g hg hsome) hsome
  · obtain ⟨r, hid, hkind, hpayload, hquery⟩ := h.observed operation row hrow hstate
    exact ⟨r, hid, hkind, hpayload, hlater hquery⟩
  · rcases List.eq_nil_or_concat later with rfl | ⟨later, last, rfl⟩
    · obtain ⟨hevents, hlast⟩ := List.append_inj' hsplit rfl
      rw [← List.singleton_inj.mp hlast, he] at hg
      obtain ⟨rfl, rfl⟩ := Prod.mk.inj (Option.some.inj hg)
      exact ⟨h.seen i record hread, hevents ▸ hgrant⟩
    · have hrest : events ++ [e] = (earlier ++ g :: later) ++ [last] := by
        rw [hsplit, List.concat_eq_append, List.append_assoc, List.cons_append]
      obtain ⟨hevents, -⟩ := List.append_inj' hrest rfl
      exact h.owned earlier g later j r hevents hg

/-- **A grant keeps the invariant.**  The row was `PREPARED`, so no other process holds the operation and nobody
has executed it. -/
theorem Safe.granting (h : Safe events db k) {i : ℕ} {e : DriverEvent} {known : Known} {row row' : EffectRow}
    (hupdated : EffectUpdated db operation .prepared .executing row row' db')
    (hmoved : Safe (events ++ [e]) db' (Function.update k i known)) (he : executionOf e = none)
    (hgrant : grantOf e = some (i, operation)) :
    Safe (events ++ [e]) db'
      (Function.update k i { known with granted := insert operation known.granted }) := by
  have hunbegun : ¬StateIn db operation begunStates := fun ⟨r, hr, hbegun⟩ => by
    obtain rfl := Option.some.inj (hupdated.before.symm.trans hr)
    exact mem_begunStates.mp hbegun hupdated.state_eq
  have hzero : events.countP (executes operation) = 0 :=
    Nat.eq_zero_of_not_pos fun hpos => hunbegun (h.begun operation hpos)
  have hself : Function.update k i known i = known := Function.update_self ..
  rw [← Function.update_idem (f := k) (a := i) known]
  refine hmoved.known (fun record hmem => hmoved.seen i record (hself.symm ▸ hmem)) (fun other hmem => ?_)
    (fun other hmem => hmoved.refused i other (hself.symm ▸ hmem)) (fun j other hmem hmem' => ?_)
    fun record hmem => hmoved.confirmed i record (hself.symm ▸ hmem)
  · rcases hmem with rfl | hmem
    · refine ⟨⟨row', hupdated.after, ?_⟩, ?_, e, List.mem_append_right _ (List.mem_singleton_self e), hgrant⟩
      · rw [hupdated.target_eq]
        decide
      · rw [List.countP_append, hzero, List.countP_singleton, executes, he]
        rfl
    · exact hmoved.granted i other (hself.symm ▸ hmem)
  · by_cases hji : j = i
    · exact hji.symm
    · by_cases hother : other = operation
      · subst hother
        rw [Function.update_of_ne hji] at hmem'
        exact absurd (h.begun_of_mem hmem') hunbegun
      · refine hmoved.unique i j other ?_ hmem'
        rw [hself]
        rcases hmem with (heq | hmem) | hmem
        · exact absurd heq hother
        · exact .inl hmem
        · exact .inr hmem

/-! ### The steps -/

variable {i : ℕ}

/-- A process reads a row. -/
theorem Safe.sees (h : Safe events db k) {known : Known} (hself : k i = known) {answer : Option EffectRow}
    (hread : ∀ row, answer = some row → db.outbox.get? row.operationId = some row) :
    Safe events db (Function.update k i (known.sees answer)) := by
  subst hself
  cases answer with
  | none =>
      rw [Known.sees, Function.update_eq_self]
      exact h
  | some row =>
      refine h.shrink (fun record hmem => ?_) subset_rfl subset_rfl subset_rfl
      rcases hmem with rfl | hmem
      · exact ⟨record, hread record rfl, rfl, rfl⟩
      · exact h.seen i record hmem

omit [Runtime] in
theorem Known.without_sees (known : Known) (target : EffectState) (answer : Option EffectRow) :
    (known.sees answer).without operation target = (known.without operation target).sees answer := by
  cases answer with
  | none => rfl
  | some row =>
      rw [Known.without, Known.without]
      split <;> rfl

/-- **`update_effect` of a process.** -/
theorem Safe.performed_update (h : Safe events db k) {expected target : EffectState} {result : Option Value}
    {answer : Except DriverException (Option EffectRow)}
    (hallowed : allowed (k i) (.updateEffect operation expected target result))
    (hstep : driverMachine.step (.updateEffect operation expected target result) db answer db') :
    Safe (events ++ [.perform i (.updateEffect operation expected target result) answer]) db'
      (Function.update k i (learn (k i) (.updateEffect operation expected target result) answer)) := by
  set e : DriverEvent := .perform i (.updateEffect operation expected target result) answer with he
  have hnone : executionOf e = none := rfl
  obtain ⟨hseen, hconfirmed, hgranted, hrefused⟩ := (k i).without_subset operation target
  have hfailed : ∀ exc, answer = .error exc → db' = db →
      Safe (events ++ [e]) db'
        (Function.update k i (learn (k i) (.updateEffect operation expected target result) answer)) := by
    rintro exc rfl rfl
    have hlearn : learn (k i) (.updateEffect operation expected target result) (.error exc)
        = (k i).without operation target := by
      rw [learn, Known.without]
      split
      · rfl
      · rw [if_neg fun hall => Bool.false_ne_true hall.2.2]
        rfl
    rw [hlearn]
    exact (h.event hnone).shrink (fun record hmem => h.seen i record (hseen ▸ hmem)) hgranted hrefused
      hconfirmed.subset
  obtain (⟨exc, -, hanswer, hdb⟩ | ⟨hupdate, hanswer⟩) | ⟨⟨name, message, hanswer⟩, hdb⟩ := hstep
  · exact hfailed _ hanswer hdb
  · obtain ⟨row, row', hupdated⟩ := updateEffect_updated hupdate
    have hread : ∀ r, (if expected = target then db'.outbox.get? operation else none) = some r →
        db'.outbox.get? r.operationId = some r := by
      intro r hr
      split at hr
      · rwa [Table.key_of_get? hr]
      · cases hr
    have hmoved := ((h.updated hallowed hupdated).event hnone).sees (Function.update_self i _ k) hread
    rw [Function.update_idem] at hmoved
    rw [hanswer, learn]
    by_cases hfail : target = .failed
    · rw [if_pos hfail]
      rw [← Known.without_sees, Known.without, if_pos hfail] at hmoved
      exact hmoved
    · rw [if_neg hfail]
      rw [← Known.without_sees, Known.without, if_neg hfail] at hmoved
      by_cases hgrant : expected = .prepared ∧ target = .executing
      · rw [if_pos ⟨hgrant.1, hgrant.2, rfl⟩]
        obtain ⟨rfl, rfl⟩ := hgrant
        exact h.granting hupdated hmoved hnone (by rw [he, hanswer]; rfl)
      · rw [if_neg fun hall => hgrant ⟨hall.1, hall.2.1⟩]
        exact hmoved
  · exact hfailed _ hanswer hdb

/-- **An operation of a process.** -/
theorem Safe.performed (h : Safe events db k) {op : DriverOp} {answer : DriverAnswer op} (hallowed : allowed (k i) op)
    (hstep : driverMachine.step op db answer db') :
    Safe (events ++ [.perform i op answer]) db' (Function.update k i (learn (k i) op answer)) := by
  cases op with
  | getEffect operation =>
      have hsame : db' = db := by
        obtain ⟨-, hdb⟩ | ⟨-, hdb⟩ := hstep
        · exact hdb
        · exact hdb
      subst hsame
      refine (h.event rfl).sees rfl fun row hrow => ?_
      obtain ⟨hanswer, -⟩ | ⟨⟨_, _, hanswer⟩, -⟩ := hstep
      · rw [hanswer, Db.getEffect] at hrow
        cases hget : db'.outbox.get? operation with
        | none =>
            rw [hget] at hrow
            cases hrow
        | some found =>
            rw [hget] at hrow
            obtain rfl : found = row := Option.some.inj hrow
            rwa [Table.key_of_get? hget]
      · rw [hanswer] at hrow
        cases hrow
  | getSnapshot | verifySources =>
      have hsame : db' = db := by
        rcases hstep with hstep | ⟨-, hdb⟩
        · first | exact hstep | exact hstep.2
        · exact hdb
      subst hsame
      rw [learn, Function.update_eq_self]
      exact h.event rfl
  | query record =>
      obtain rfl : db' = db := hstep.elim id And.right
      have hnext := h.event (e := .perform i (.query record) answer) rfl
      rw [learn]
      by_cases hquery : answersConfirmed answer = true
      · rw [if_pos hquery]
        refine hnext.known (hnext.seen i) (hnext.granted i) (hnext.refused i) (hnext.unique i) fun r hr => ?_
        rcases hr with rfl | hr
        · refine ⟨h.seen i r hallowed, _, List.mem_append_right _ (List.mem_singleton_self _), ?_⟩
          rw [confirmationOf, if_pos hquery]
        · exact hnext.confirmed i r hr
      · rw [if_neg hquery, Function.update_eq_self]
        exact hnext
  | execute record =>
      obtain rfl : db' = db := hstep.elim id And.right
      refine h.executed hallowed rfl subset_rfl subset_rfl subset_rfl ?_ ?_
      · rw [learn]
        split
        · exact subset_rfl
        · exact Set.sdiff_subset.trans (Set.subset_insert _ _)
      · intro hmem
        by_cases hrefusal : isRefusal answer = true
        · rw [escapeOf, if_pos hrefusal]
        · rw [learn, if_neg hrefusal] at hmem
          exact absurd rfl hmem.2
  | updateEffect operation expected target result => exact h.performed_update hallowed hstep

/-- **A death inside an operation.** -/
theorem Safe.died (h : Safe events db k) {op : DriverOp} (hallowed : allowed (k i) op)
    (htorn : driverMachine.torn op db db') :
    Safe (events ++ [.torn i op]) db' (Function.update k i .fresh) := by
  cases op with
  | getEffect | getSnapshot | verifySources | query =>
      have hsame : db' = db := by
        rcases htorn with hdb | ⟨answer, hstep⟩
        · exact hdb
        · first | exact hstep | exact hstep.2
      subst hsame
      exact (h.event rfl).fresh
  | execute record =>
      obtain rfl : db' = db := htorn.elim id fun ⟨_, hstep⟩ => hstep
      exact h.executed hallowed rfl (Set.empty_subset _) (Set.empty_subset _) (Set.empty_subset _)
        (Set.empty_subset _) fun hmem => hmem.elim
  | updateEffect operation expected target result =>
      rcases htorn with rfl | ⟨answer, ⟨_, -, -, rfl⟩ | ⟨hupdate, -⟩⟩
      · exact (h.event rfl).fresh
      · exact (h.event rfl).fresh
      · obtain ⟨row, row', hupdated⟩ := updateEffect_updated hupdate
        have hnext := ((h.updated hallowed hupdated).event
          (e := .torn i (.updateEffect operation expected target result)) rfl).fresh (i := i)
        rwa [Function.update_idem] at hnext

/-- **The invariant of the driver.** -/
theorem safe_invariant : PoolInvariant (ε := DriverException) (α := EffectRow) driverMachine surroundings learn allowed
    .fresh Safe where
  start h := (h.event rfl).fresh
  perform h hallowed hstep := h.performed hallowed hstep
  torn h hallowed htorn := h.died hallowed htorn
  stop h := (h.event rfl).fresh
  surround := by
    intro events db k t db' h hsurround
    have hkeep := surroundings_keep hsurround
    have hnext : Safe (events ++ [.surround t]) db k := h.event rfl
    refine hnext.world hkeep.moved (fun operation _ => hkeep.live operation) fun operation row' hrow' hstate => ?_
    obtain ⟨row, hrow, hconfirmed, hkind, hpayload⟩ := hkeep.confirmed operation row' hrow' hstate
    obtain ⟨record, hid, hk, hp, hquery⟩ := hnext.observed operation row hrow hconfirmed
    exact ⟨record, hid, hk.trans hkind.symm, hp.trans hpayload.symm, hquery⟩

/-! ### Runs -/

variable {history : List (Entry DriverPool DriverEvent)} {s : DriverPool}

theorem safe_start : Safe [] {} fun _ => .fresh where
  seen _ _ hmem := hmem.elim
  granted _ _ hmem := hmem.elim
  refused _ _ hmem := hmem.elim
  unique _ _ _ hmem := hmem.elim False.elim False.elim
  confirmed _ _ hmem := hmem.elim
  once _ := Nat.zero_le 1
  begun _ hpos := absurd hpos (lt_irrefl 0)
  live _ _ hmem := absurd hmem List.not_mem_nil
  observed _ _ hrow := nomatch hrow
  owned _ _ _ _ _ hsplit := absurd hsplit.symm (by simp)

/-- What the processes know in a run, and what holds then. -/
theorem DriverRun.safe (h : DriverRun history s) :
    ∃ k, (∀ i p, s.processes i = some p → p.Contract driverMachine learn allowed (k i)) ∧
      Safe (history.map (·.label)) s.world k :=
  safe_invariant.run (fun _ => Calls.contract) (fun _ => rfl) safe_start h

/-- No step takes a row away, changes what it says, or leaves a final state. -/
theorem outboxMoved_of_performs {op : DriverOp} {answer : DriverAnswer op} (h : Performs op db answer db') :
    OutboxMoved db db' := by
  have hsame : db' = db → OutboxMoved db db' := by
    rintro rfl operation row hrow
    exact ⟨row, hrow, .refl row⟩
  cases op with
  | getEffect | getSnapshot => exact hsame h.2
  | verifySources | query | execute => exact hsame h
  | updateEffect operation expected target result =>
      obtain ⟨_, -, -, hdb⟩ | ⟨hupdate, -⟩ := h
      · exact hsame hdb
      · obtain ⟨row, row', hupdated⟩ := updateEffect_updated hupdate
        exact hupdated.moved

theorem poolStep_moved {s s' : DriverPool} {e : DriverEvent}
    (h : PoolStep driverMachine surroundings Calls s e s') : OutboxMoved s.world s'.world := by
  have hsame : OutboxMoved s.world s.world := fun operation row hrow => ⟨row, hrow, .refl row⟩
  cases h with
  | start | stop => exact hsame
  | perform hprocess hstep =>
      obtain hstep | ⟨-, rfl⟩ := hstep
      · exact outboxMoved_of_performs hstep
      · exact hsame
  | torn hprocess htorn =>
      obtain rfl | ⟨answer, hstep⟩ := htorn
      · exact hsame
      · exact outboxMoved_of_performs hstep
  | surround hsurround => exact (surroundings_keep hsurround).moved

/-- A final state is there ever after. -/
theorem DriverRun.final (h : DriverRun history s) {e : Entry DriverPool DriverEvent} (he : e ∈ history)
    {state : EffectState} (hfinal : state ∈ finalStates) (hstate : StateIn e.after.world operation [state]) :
    StateIn s.world operation [state] := by
  induction h with
  | start => exact absurd he List.not_mem_nil
  | @snoc history s s' l _ hstep ih =>
      rcases List.mem_append.mp he with hmem | hmem
      · obtain ⟨row, hrow, hrowstate⟩ := ih hmem
        obtain ⟨row', hrow', hmoved⟩ := poolStep_moved hstep operation row hrow
        rw [List.mem_singleton] at hrowstate
        refine ⟨row', hrow', List.mem_singleton.mpr ?_⟩
        rw [hmoved.final (hrowstate ▸ hfinal), hrowstate]
      · rw [List.mem_singleton.mp hmem] at hstate
        exact hstate

/-- **At most one execution.**  In every run, however the processes interleave, die and start again, each
operation is executed at most once; and whoever executes it moved its row from `PREPARED` to `EXECUTING` itself
before, and executes the kind and the payload the row was prepared with. -/
theorem at_most_one_execution (h : DriverRun history s) :
    (∀ operation, history.countP (fun e => executes operation e.label) ≤ 1) ∧
      ∀ earlier e later i record, history = earlier ++ e :: later → executionOf e.label = some (i, record) →
        Stored e.after.world record ∧ ∃ g ∈ earlier, grantOf g.label = some (i, record.operationId) := by
  refine ⟨fun operation => ?_, fun earlier e later i record hsplit hexecuted => ?_⟩
  · obtain ⟨k, -, hsafe⟩ := h.safe
    have honce := hsafe.once operation
    rwa [List.countP_map] at honce
  · subst hsplit
    obtain ⟨k, -, hsafe⟩ := DriverRun.safe (Run.run_upto h)
    have hevents : (earlier ++ [e]).map (·.label) = earlier.map (·.label) ++ e.label :: [] := by
      rw [List.map_append, List.map_singleton]
    obtain ⟨hstored, g, hg, hgrant⟩ := hsafe.owned _ _ _ _ _ hevents hexecuted
    obtain ⟨entry, hentry, rfl⟩ := List.mem_map.mp hg
    exact ⟨hstored, entry, hentry, hgrant⟩

/-- **No effect behind a failure.**  An operation whose row ever reads `FAILED` or `CANCELLED` has no execution,
before or after, that may have taken effect. -/
theorem no_effect_behind_failure (h : DriverRun history s) {e : Entry DriverPool DriverEvent} (he : e ∈ history)
    {row : EffectRow} (hrow : e.after.world.outbox.get? operation = some row)
    (hstate : row.state = .failed ∨ row.state = .cancelled) :
    ∀ g ∈ history, escapeOf g.label ≠ some operation := by
  intro g hg hescaped
  have hfinal : row.state ∈ finalStates := by
    rcases hstate with hstate | hstate <;> rw [hstate] <;> decide
  obtain ⟨row', hrow', hlast⟩ := h.final he hfinal ⟨row, hrow, List.mem_singleton_self _⟩
  obtain ⟨k, -, hsafe⟩ := h.safe
  obtain ⟨row'', hrow'', hlive⟩ := hsafe.live operation g.label (List.mem_map_of_mem hg) hescaped
  obtain rfl := Option.some.inj (hrow'.symm.trans hrow'')
  rw [List.mem_singleton.mp hlast] at hlive
  rcases hstate with hstate | hstate
  · rw [hstate] at hlive
    exact absurd hlive (by decide)
  · rw [hstate] at hlive
    exact absurd hlive (by decide)

/-- **A confirmed row was confirmed by the backend**, asked about its own kind and payload. -/
theorem confirmed_by_backend (h : DriverRun history s) {row : EffectRow}
    (hrow : s.world.outbox.get? operation = some row) (hstate : row.state = .confirmed) :
    ∃ e ∈ history, ∃ record, confirmationOf e.label = some record ∧ record.operationId = operation ∧
      record.kind = row.kind ∧ record.payload = row.payload := by
  obtain ⟨k, -, hsafe⟩ := h.safe
  obtain ⟨record, hid, hkind, hpayload, event, hmem, hquery⟩ := hsafe.observed operation row hrow hstate
  obtain ⟨e, he, rfl⟩ := List.mem_map.mp hmem
  exact ⟨e, he, record, hquery, hid, hkind, hpayload⟩

end System

end CodingOS.Effects.ExternalEffectDriver

/-! ### A publication -/

namespace CodingOS.Effects.ExternalEffectDriver.Sample

open CodingOS.Python CodingOS.Campaign CodingOS.Campaign.Sample CodingOS.Store Systems

/-- The store, and a backend that confirms what is no longer prepared. -/
def perform (execution : Except DriverException Mapping) : (op : DriverOp) → Db → DriverAnswer op × Db
  | .getEffect operationId, db => (storeAnswer (db.getEffect operationId), db)
  | .getSnapshot campaignId, db => (storeAnswer (db.loadSnapshot campaignId), db)
  | .updateEffect operationId expected target result, db =>
      match db.updateEffect operationId target result (some expected) with
      | .error exc => (.error (.store exc), db)
      | .ok db' => (.ok (if expected = target then db'.outbox.get? operationId else none), db')
  | .verifySources _ _, db => (.ok (), db)
  | .query record, db =>
      (.ok [("confirmed", .bool ((db.outbox.get? record.operationId).any (·.state ≠ .prepared)))], db)
  | .execute _, db => (execution, db)

theorem perform_step {execution : Except DriverException Mapping} (op : DriverOp) (db : Db) :
    driverMachine.step op db (perform execution op db).1 (perform execution op db).2 := by
  refine .inl ?_
  cases op with
  | getEffect | getSnapshot => exact ⟨rfl, rfl⟩
  | verifySources | query | execute => exact rfl
  | updateEffect operationId expected target result =>
      rw [perform]
      split
      · next exc hupdate => exact .inl ⟨exc, hupdate, rfl, rfl⟩
      · next db' hupdate => exact .inr ⟨hupdate, rfl⟩

/-- A store, and one process that runs a publication. -/
def started (history : List (Entry Db Transaction)) (db : Db) : List (Entry DriverPool DriverEvent) × DriverPool :=
  let idle : DriverPool := ⟨db, fun _ => none⟩
  let s : DriverPool := { idle with processes := Function.update idle.processes 0 (some (run "o3" false)) }
  (history.map (fun e => ⟨⟨e.before, fun _ => none⟩, .surround e.label, ⟨e.after, fun _ => none⟩⟩)
    ++ [⟨idle, .start 0 (run "o3" false), s⟩], s)

theorem started_run {history : List (Entry Db Transaction)} {db : Db} (h : Run surroundings {} history db) :
    DriverRun (started history db).1 (started history db).2 :=
  (surround_run h).snoc (.start (.inl ⟨"o3", false, rfl⟩))

/-- What comes of the publication, by what the backend answers. -/
def published (execution : Except DriverException Mapping) (history : List (Entry Db Transaction)) (db : Db) :
    List (Entry DriverPool DriverEvent) × DriverPool :=
  let rest := (started history db).2.advance (perform execution) 0 11
  ((started history db).1 ++ rest.1, rest.2)

theorem published_run {execution : Except DriverException Mapping} {history : List (Entry Db Transaction)} {db : Db}
    (h : Run surroundings {} history db) :
    DriverRun (published execution history db).1 (published execution history db).2 :=
  Pool.advance_run perform_step (started_run h) rfl

theorem storeRun_fold : foldTransactions {} Store.Sample.transactions = .ok Store.Sample.storeRun := get_toOption _

theorem storeRun_surroundings : Run surroundings {} Store.Sample.storeRun.1 Store.Sample.storeRun.2 := by
  refine Run.restrict (P := fun _ t => ∀ operationId target result expected,
    t ≠ .updateEffect operationId target result expected) Store.Sample.storeRun_run fun e he => ?_
  have hlabel := foldTransactions_labels storeRun_fold e he
  rcases Store.Sample.mem_transactions hlabel with h | ⟨_, -, h⟩
  · rw [h]
    nofun
  · rw [h]
    nofun

/-- The backend executes the publication. -/
def publishedRun : List (Entry DriverPool DriverEvent) × DriverPool :=
  published (.ok []) Store.Sample.storeRun.1 Store.Sample.storeRun.2

/-- The backend refuses it. -/
def refusedRun : List (Entry DriverPool DriverEvent) × DriverPool :=
  published (.error (.effect "refused")) Store.Sample.storeRun.1 Store.Sample.storeRun.2

theorem publishedRun_run : DriverRun publishedRun.1 publishedRun.2 := published_run storeRun_surroundings

theorem refusedRun_run : DriverRun refusedRun.1 refusedRun.2 := published_run storeRun_surroundings

theorem runs_end :
    publishedRun.1.countP (fun e => executes "o3" e.label) = 1 ∧
      (publishedRun.2.world.outbox.get? "o3").any (·.state == .confirmed) ∧
      refusedRun.1.any (fun e => (e.after.world.outbox.get? "o3").any (·.state == .failed)) := by
  decide +kernel

theorem at_most_one_execution_sample :
    publishedRun.1.countP (fun e => executes "o3" e.label) = 1 ∧
      (∀ operation, publishedRun.1.countP (fun e => executes operation e.label) ≤ 1) ∧
      ∀ earlier e later i record, publishedRun.1 = earlier ++ e :: later → executionOf e.label = some (i, record) →
        Stored e.after.world record ∧ ∃ g ∈ earlier, grantOf g.label = some (i, record.operationId) :=
  ⟨runs_end.1, at_most_one_execution publishedRun_run⟩

theorem no_effect_behind_failure_sample :
    ∃ e ∈ refusedRun.1, (∃ row, e.after.world.outbox.get? "o3" = some row ∧ row.state = .failed) ∧
      ∀ g ∈ refusedRun.1, escapeOf g.label ≠ some "o3" := by
  obtain ⟨e, he, hfailed⟩ := List.any_eq_true.mp runs_end.2.2
  obtain ⟨row, hrow, hstate⟩ := (Option.any_eq_true _ _).mp hfailed
  have hstate := beq_iff_eq.mp hstate
  exact ⟨e, he, ⟨row, hrow, hstate⟩, no_effect_behind_failure refusedRun_run he hrow (.inl hstate)⟩

theorem confirmed_by_backend_sample :
    ∃ row, publishedRun.2.world.outbox.get? "o3" = some row ∧ row.state = .confirmed ∧
      ∃ e ∈ publishedRun.1, ∃ record, confirmationOf e.label = some record ∧ record.operationId = "o3" ∧
        record.kind = row.kind ∧ record.payload = row.payload := by
  obtain ⟨row, hrow, hstate⟩ := (Option.any_eq_true _ _).mp runs_end.2.1
  have hstate := beq_iff_eq.mp hstate
  exact ⟨row, hrow, hstate, confirmed_by_backend publishedRun_run hrow hstate⟩

end CodingOS.Effects.ExternalEffectDriver.Sample
