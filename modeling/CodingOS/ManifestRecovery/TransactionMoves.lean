import CodingOS.ManifestRecovery.CommitChain
import CodingOS.ManifestRecovery.OperatorTransaction

/-!
# What a transaction does to the routing directory

`Steps` says once what a run of `operator_rebaseline` or `attempt_recovery` can do: open its transaction,
promote under its open record, and write its terminal record.  What an operator's terminal record says of
the commit is backed by what the run found: a committed one by a pointer of the transaction, and one that
says it was not committed by a pointer that has not moved, of a transaction that was not open or is not
the current one.
-/

namespace CodingOS.ManifestRecovery

open CodingOS.Python Systems

/-! ### Calls -/

inductive TransactionCall
  | operator (t : OperatorTransaction) (reviewed : Bool)
  | recovery (transactionId : String)

def TransactionCall.transactionId : TransactionCall → String
  | .operator t _ => t.transactionId
  | .recovery transactionId => transactionId

def TransactionCall.isOperator : TransactionCall → Bool
  | .operator _ _ => true
  | .recovery _ => false

def commitUnproven : String := "AUTHORITY_TRANSACTION_COMMIT_UNPROVEN"

/-! ### Steps -/

/-- The pointer, the generations and the transaction records are the same. -/
structure SameRecords (f f' : Files) : Prop where
  pointer : f'.pointer = f.pointer
  generation : f'.generation = f.generation
  opening : f'.opening = f.opening
  terminal : f'.terminal = f.terminal

instance : IsPreorder Files SameRecords where
  refl _ := ⟨rfl, rfl, rfl, rfl⟩
  trans _ _ _ h h' := ⟨h'.pointer.trans h.pointer, h'.generation.trans h.generation,
    h'.opening.trans h.opening, h'.terminal.trans h.terminal⟩

theorem SameRecords.refl (f : Files) : SameRecords f f := ⟨rfl, rfl, rfl, rfl⟩

theorem SameRecords.trans {f f' f'' : Files} (h : SameRecords f f') (h' : SameRecords f' f'') :
    SameRecords f f'' := trans_of SameRecords h h'

/-- A record opens a transaction of the call's own kind. -/
def BeginRecord.Suits (b : BeginRecord) (c : TransactionCall) : Prop :=
  b.lane = .operatorRebaseline ↔ c.isOperator = true

/-- The transaction of a call is open. -/
def Opened (c : TransactionCall) (f : Files) : Prop :=
  ∃ b at', f.opening c.transactionId = some (.record b at') ∧ b.Suits c

/-- An operator's transaction is open. -/
def OpenedByOperator (f : Files) (transactionId : String) : Prop :=
  ∃ b at', f.opening transactionId = some (.record b at') ∧ b.lane = .operatorRebaseline

theorem Opened.byOperator {c : TransactionCall} {f : Files} (h : Opened c f)
    (hoperator : c.isOperator = true) : OpenedByOperator f c.transactionId := by
  obtain ⟨b, at', hb, hsuits⟩ := h
  exact ⟨b, at', hb, hsuits.mpr hoperator⟩

theorem Opened.of_opening {c : TransactionCall} {f f' : Files} (h : Opened c f)
    (hsame : f'.opening = f.opening) : Opened c f' := by
  obtain ⟨b, at', hb, hsuits⟩ := h
  exact ⟨b, at', by rw [hsame, hb], hsuits⟩

theorem Opened.of_same {c : TransactionCall} {f f' : Files} (h : Opened c f) (hsame : SameRecords f f') :
    Opened c f' := h.of_opening hsame.opening

/-- The current pointer was committed under a transaction. -/
def Current (f : Files) (transactionId : String) : Prop :=
  ∃ p, f.pointer = some p ∧ p.transactionId = transactionId

/-- In a call that found the files `f₀`, what shows that a transaction has not been committed. -/
structure Uncommitted (f₀ f : Files) (transactionId : String) : Prop where
  pointer : f.pointer = f₀.pointer
  found : f₀.opening transactionId = none ∨
    f₀.terminal transactionId = none ∧ ¬ Current f₀ transactionId

theorem Current.of_pointer {f f' : Files} {transactionId : String} (h : Current f transactionId)
    (hpointer : f'.pointer = f.pointer) : Current f' transactionId := by
  obtain ⟨p, hp, hid⟩ := h
  exact ⟨p, hpointer.trans hp, hid⟩

theorem Uncommitted.of_pointer {f₀ f f' : Files} {transactionId : String} (h : Uncommitted f₀ f transactionId)
    (hpointer : f'.pointer = f.pointer) : Uncommitted f₀ f' transactionId :=
  ⟨hpointer.trans h.pointer, h.found⟩

/-- What an operator's terminal record says is so. -/
structure TerminalRecord.Backed (r : TerminalRecord) (f₀ f : Files) (transactionId : String) : Prop where
  committed : r.status = .committed → Current f transactionId
  uncommitted : r.status ≠ .committed → r.reasonCode ≠ commitUnproven → Uncommitted f₀ f transactionId

/-- The steps of a call that found the files `f₀`. -/
inductive Steps [Runtime] [FileDigest] [Decoder] (c : TransactionCall) (f₀ : Files) :
    Files → RoutingOp → Files → Prop
  | quiet {f f' : Files} {op : RoutingOp} : SameRecords f f' → op.commits = none → Steps c f₀ f op f'
  | opening {f : Files} {op : RoutingOp} {stored : Stored BeginRecord} :
      f₀.opening c.transactionId = none → f.opening c.transactionId = none →
      (∀ b at', stored = .record b at' → b.Suits c) → op.commits = none →
      Steps c f₀ f op (f.setBegin c.transactionId stored)
  | promote {f f' : Files} {op : RoutingOp} {candidate : Option (List UInt8)} {o : PromoteOptions} :
      Moves candidate o f op f' → o.transactionId = c.transactionId → Opened c f →
      (c.isOperator = true → f₀.opening c.transactionId = none ∧ f.terminal c.transactionId = none) →
      Steps c f₀ f op f'
  | terminal {f : Files} {op : RoutingOp} {stored : Stored TerminalRecord} :
      f.terminal c.transactionId = none → Opened c f →
      (∀ r at', stored = .record r at' → (r.lane = .operatorRebaseline ↔ c.isOperator = true) ∧
        (c.isOperator = true → r.Backed f₀ f c.transactionId)) → op.commits = none →
      Steps c f₀ f op (f.setTerminal c.transactionId stored)

/-- What the end of an operator's run says is so. -/
structure Concluded.Backed (d : Concluded) (f₀ f : Files) (transactionId : String) : Prop where
  committed : d.ending.status = .committed → Current f transactionId
  uncommitted : d.ending.status ≠ .committed → Uncommitted f₀ f transactionId
  reply : ∀ reply, d.outcome = .ok reply → (reply.status = .rebuilt ↔ d.ending.status = .committed)

theorem committedAs_backed {f₀ f : Files} {ending : Ending}
    {transactionId id reasonCode generationId : String} (h : Current f transactionId) :
    (committedAs ending id reasonCode generationId).Backed f₀ f transactionId where
  committed _ := h
  uncommitted hstatus := absurd rfl hstatus
  reply reply hreply := by
    obtain rfl := Except.ok.inj hreply
    exact iff_of_true rfl rfl

/-- The reasons of the replies that refuse a request or leave its commit open. -/
def silentReasons : List String := [
  "OPERATOR_AUTHORIZATION_REQUIRED", "OPERATOR_EXPECTED_AUTHORITY_SNAPSHOT_SHA256_REQUIRED",
  "OPERATOR_EXPECTED_CANDIDATE_SHA256_REQUIRED", "AUTHORITY_TRANSACTION_ID_INVALID",
  "OPERATOR_REVIEWED_CANDIDATE_REQUIRED", "AUTHORITY_TRANSACTION_REPLAY_CONFLICT", commitUnproven]

/-- The terminal record of a transaction says that it was not committed. -/
def EndedUncommitted (f : Files) (transactionId : String) : Prop :=
  ∃ r at', f.terminal transactionId = some (.record r at') ∧ r.lane = .operatorRebaseline ∧
    r.status ≠ .committed ∧ r.reasonCode ≠ commitUnproven

/-- What a reply says of the commit is so. -/
structure Reply.Backed (reply : Reply) (f₀ f : Files) (transactionId : String) : Prop where
  rebuilt : reply.status = .rebuilt → Current f transactionId ∧ OpenedByOperator f transactionId
  other : reply.status ≠ .rebuilt → reply.reasonCode ∉ silentReasons →
    Uncommitted f₀ f transactionId ∨ EndedUncommitted f transactionId

/-- A replay answers what is so, or has found no transaction and done nothing. -/
def ReplayBacked (f₀ f : Files) (transactionId : String) : Option Reply → Prop
  | none => f = f₀ ∧ f₀.opening transactionId = none
  | some reply => reply.Backed f₀ f transactionId

section Replies

variable {reply : Reply} {f₀ f : Files} {transactionId : String}

theorem Reply.Backed.of_silent (hstatus : reply.status ≠ .rebuilt)
    (hsilent : reply.reasonCode ∈ silentReasons) : reply.Backed f₀ f transactionId :=
  ⟨fun h => absurd h hstatus, fun _ h => absurd hsilent h⟩

theorem Reply.Backed.of_uncommitted (hstatus : reply.status ≠ .rebuilt)
    (h : Uncommitted f₀ f transactionId) : reply.Backed f₀ f transactionId :=
  ⟨fun h => absurd h hstatus, fun _ _ => .inl h⟩

theorem Reply.Backed.of_current (hstatus : reply.status = .rebuilt) (h : Current f transactionId)
    (hopened : OpenedByOperator f transactionId) : reply.Backed f₀ f transactionId :=
  ⟨fun _ => ⟨h, hopened⟩, fun hother => absurd hstatus hother⟩

end Replies

/-! ### Rules -/

section Rules

variable [Runtime] [FileDigest] [Decoder] {c : TransactionCall} {f₀ f f' : Files}
  {E : AuthorityError → Files → Prop}

theorem wp_attempt {α : Type} {G : Files → RoutingOp → Files → Prop} {p : Task α}
    {Q : Except AuthorityError α → Files → Prop}
    (h : p.wp routingMachine G (fun a t => Q (.ok a) t)
      (fun e t => (e.caught = true → Q (.error e) t) ∧ (e.caught = false → E e t)) f) :
    (attempt p).wp routingMachine G Q E f := by
  refine Program.wp_handle.mpr (Program.wp_bind.mpr (Program.wp_mono h (fun _ _ hq => hq) ?_))
  intro e t he
  cases hcaught : e.caught with
  | true => exact he.1 hcaught
  | false => exact he.2 hcaught

theorem wp_settle {α : Type} {G : Files → RoutingOp → Files → Prop} {p : Task α}
    {Q : Except AuthorityError α → Files → Prop}
    (h : p.wp routingMachine G (fun a t => Q (.ok a) t) (fun e t => Q (.error e) t) f) :
    (settle p).wp routingMachine G Q E f :=
  Program.wp_handle.mpr (Program.wp_bind.mpr (Program.wp_mono h (fun _ _ hq => hq) fun _ _ hq => hq))

theorem wp_requireValue {G : Files → RoutingOp → Files → Prop} {condition : Bool} {message : String}
    {Q : Unit → Files → Prop} (hvalue : Q () f) (hraise : E ⟨.value, message⟩ f) :
    (requireValue condition message).wp routingMachine G Q E f := by
  unfold requireValue
  cases condition with
  | true => exact hvalue
  | false => exact hraise

/-- A question that changes nothing. -/
theorem wp_observe {op : RoutingOp} {Q : RoutingAnswer op → Files → Prop} (hop : op.commits = none)
    (htorn : ∀ t, ¬ routingMachine.torn op f t)
    (hsame : ∀ answer t, routingMachine.step op f answer t → t = f)
    (h : ∀ answer, routingMachine.step op f answer f → Q answer f) :
    (ask op).wp routingMachine (Steps c f₀) Q E f := by
  refine ⟨fun t ht => absurd ht (htorn t), fun answer t hstep => ?_⟩
  obtain rfl := hsame answer t hstep
  exact ⟨.quiet (.refl t) hop, h answer hstep⟩

/-! ### Replays -/

theorem wp_provenGeneration (hf : f.Accepted) {b : BeginRecord} {transactionId terminalId : String}
    {Q : Option String → Files → Prop} (hnone : ∀ t, SameRecords f t → Q none t)
    (hsome : ∀ generationId t, SameRecords f t → Current f transactionId → Q (some generationId) t) :
    (provenGeneration b transactionId terminalId).wp routingMachine (Steps c f₀) Q E f := by
  rw [provenGeneration, Program.wp_bind]
  refine wp_currentPointer hf (.quiet (.refl f) rfl) ?_
  cases hpointer : f.pointer with
  | none => exact hnone f (.refl f)
  | some p =>
      dsimp only
      split
      · exact hnone f (.refl f)
      · next hmatches =>
          simp only [Bool.or_eq_true, bne_iff_ne, not_or, not_not] at hmatches
          rw [Program.wp_bind]
          refine wp_observe rfl (fun _ => id) (fun _ _ h => h.2) fun stored _ => ?_
          cases stored with
          | none => exact hnone f (.refl f)
          | some content =>
              dsimp only
              split
              · exact hnone f (.refl f)
              · rw [Program.wp_bind]
                refine wp_observe rfl (fun _ => id) (fun _ _ h => h) fun fresh _ => ?_
                cases fresh with
                | false => exact hnone f (.refl f)
                | true =>
                    rw [if_pos rfl, Program.wp_bind]
                    refine ⟨nofun, ?_⟩
                    rintro answer t (⟨rfl, rfl⟩ | ⟨-, rfl⟩)
                    · exact ⟨.quiet ⟨rfl, rfl, rfl, rfl⟩ rfl,
                        hsome _ _ ⟨rfl, rfl, rfl, rfl⟩ ⟨p, hpointer, hmatches.1.1⟩⟩
                    · exact ⟨.quiet (.refl t) rfl, hsome _ _ (.refl t) ⟨p, hpointer, hmatches.1.1⟩⟩

theorem wp_committedGeneration (hf : f.Accepted) {b : BeginRecord} {transactionId terminalId : String}
    {Q : Option String → Files → Prop} (hnone : ∀ t, SameRecords f t → Q none t)
    (hsome : ∀ generationId t, SameRecords f t → Current f transactionId → Q (some generationId) t) :
    (committedGenerationMatchesTransaction b transactionId terminalId).wp routingMachine (Steps c f₀) Q
      (fun _ _ => True) f := by
  exact Program.wp_handle.mpr (wp_provenGeneration hf hnone hsome)

/-! ### Records -/

/-- A terminal record is written, was there before, or is refused; the pointer stays. -/
theorem wp_writeTerminal {lane : Lane} {ending : Ending} {Q : Unit → Files → Prop}
    (hopened : Opened c f) (hlane : lane = .operatorRebaseline ↔ c.isOperator = true)
    (hbacked : c.isOperator = true →
      (ending.record c.transactionId lane).Backed f₀ f c.transactionId)
    (hvalue : ∀ t, t.pointer = f.pointer → Opened c t → Q () t)
    (hraise : ∀ e t, t.pointer = f.pointer → Opened c t → E e t) :
    (writeAuthorityTransactionTerminal c.transactionId lane ending).wp routingMachine (Steps c f₀) Q E f := by
  have hcheck : ∀ {R : Unit → Files → Prop}, R () f →
      (ending.check lane).wp routingMachine (Steps c f₀) R E f := by
    intro R hR
    rw [Ending.check]
    split
    · rw [Program.wp_bind]
      refine wp_requireValue ?_ (hraise _ f rfl hopened)
      rw [Program.wp_bind]
      refine wp_requireValue ?_ (hraise _ f rfl hopened)
      rw [Program.wp_bind]
      exact wp_requireValue (wp_requireValue hR (hraise _ f rfl hopened)) (hraise _ f rfl hopened)
    · exact wp_requireValue hR (hraise _ f rfl hopened)
  rw [writeAuthorityTransactionTerminal, Program.wp_bind]
  refine hcheck ?_
  rw [Program.wp_bind]
  refine wp_requireValue ?_ (hraise _ f rfl hopened)
  rw [writeIdempotentTransactionRecord, Program.wp_bind]
  refine wp_observe rfl (fun _ => id) (fun _ _ h => h) fun recordedAt _ => ?_
  rw [Program.wp_bind]
  refine wp_observe rfl (fun _ => id) (fun _ _ h => h.2) fun stored hread => ?_
  obtain rfl := hread.1
  cases hstored : f.terminal c.transactionId with
  | some old => exact wp_require (fun _ => hvalue f rfl hopened) fun _ => hraise _ f rfl hopened
  | none =>
      dsimp only
      rw [Program.wp_bind]
      refine ⟨?_, ?_⟩
      · rintro t ⟨-, rfl⟩
        exact .terminal hstored hopened (fun _ _ h => by cases h) rfl
      · rintro answer t ⟨rfl, rfl⟩
        rw [hstored]
        refine ⟨.terminal hstored hopened ?_ rfl,
          wp_require (fun _ => hvalue _ rfl (hopened.of_opening rfl)) fun h => by cases h⟩
        rintro r at' hr
        obtain ⟨rfl, -⟩ := Stored.record.inj hr
        exact ⟨hlane, hbacked⟩

/-- A transaction is opened, was open before, or is refused. -/
theorem wp_writeBegin {lane : Lane} {previous : Option String} {authority candidate authorization : String}
    {Q : Unit → Files → Prop} (hlane : lane = .operatorRebaseline ↔ c.isOperator = true)
    (hfound : f₀.opening c.transactionId = f.opening c.transactionId)
    (hvalue : ∀ t, t.pointer = f.pointer → t.generation = f.generation → t.terminal = f.terminal →
      Opened c t → Q () t)
    (hraise : ∀ e t, t.pointer = f.pointer → E e t) :
    (writeAuthorityTransactionBegin c.transactionId lane previous authority candidate authorization).wp
      routingMachine (Steps c f₀) Q E f := by
  unfold writeAuthorityTransactionBegin
  rw [Program.wp_bind]
  refine wp_requireValue ?_ (hraise _ f rfl)
  rw [Program.wp_bind]
  refine wp_requireValue ?_ (hraise _ f rfl)
  rw [Program.wp_bind]
  refine wp_requireValue ?_ (hraise _ f rfl)
  rw [Program.wp_bind]
  refine wp_requireValue ?_ (hraise _ f rfl)
  rw [writeIdempotentTransactionRecord, Program.wp_bind]
  refine wp_observe rfl (fun _ => id) (fun _ _ h => h) fun recordedAt _ => ?_
  rw [Program.wp_bind]
  refine wp_observe rfl (fun _ => id) (fun _ _ h => h.2) fun stored hread => ?_
  obtain rfl := hread.1
  cases hstored : f.opening c.transactionId with
  | some old =>
      refine wp_require (fun hsame => hvalue f rfl rfl rfl ?_) fun _ => hraise _ f rfl
      cases old with
      | torn => cases beq_iff_eq.mp hsame
      | record stable at' =>
          obtain rfl := Option.some.inj (beq_iff_eq.mp hsame)
          exact ⟨_, at', hstored, hlane⟩
  | none =>
      dsimp only
      rw [Program.wp_bind]
      refine ⟨?_, ?_⟩
      · rintro t ⟨-, rfl⟩
        exact .opening (hfound.trans hstored) hstored nofun rfl
      · rintro answer t ⟨rfl, rfl⟩
        rw [hstored]
        refine ⟨.opening (hfound.trans hstored) hstored ?_ rfl, wp_require (fun _ => ?_) nofun⟩
        · rintro b at' hb
          obtain ⟨rfl, -⟩ := Stored.record.inj hb
          exact hlane
        · exact hvalue _ rfl rfl rfl ⟨_, recordedAt, Function.update_self .., hlane⟩

/-! ### Promotions -/

/-- A promotion keeps the transaction records. -/
theorem Moves.records {candidate : Option (List UInt8)} {o : PromoteOptions} {op : RoutingOp}
    (h : Moves candidate o f op f') : f'.opening = f.opening ∧ f'.terminal = f.terminal := by
  cases h with
  | quiet _ _ _ hopening hterminal => exact ⟨hopening, hterminal⟩
  | create _ => exact ⟨rfl, rfl⟩
  | commit => exact ⟨rfl, rfl⟩

/-- A promotion under an open transaction: the pointer is the transaction's, or it has not moved. -/
theorem wp_promoteOpened (laws : ProcessLaws) (hf : f.Accepted) {candidate : Option (List UInt8)}
    {o : PromoteOptions} (hid : o.transactionId = c.transactionId) (hopened : Opened c f)
    (hfound : c.isOperator = true → f₀.opening c.transactionId = none ∧
      f.terminal c.transactionId = none)
    {Q : Promotion → Files → Prop}
    (hvalue : ∀ v t, Current t c.transactionId → Opened c t → Q v t)
    (hraise : ∀ e t, t.pointer = f.pointer → Opened c t → E e t) :
    (promoteManifestGeneration candidate o).wp routingMachine (Steps c f₀) Q E f := by
  refine Program.wp_mono (Program.wp_invariant
    (fun t => Opened c t ∧ (c.isOperator = true → f₀.opening c.transactionId = none ∧
      t.terminal c.transactionId = none)) (wp_promote hf laws) ⟨hopened, hfound⟩
    fun {s op t} hinv hmove => ?_) (fun v t h => ?_) fun e t h => ?_
  · refine ⟨.promote hmove hid hinv.1 hinv.2, hinv.1.of_opening hmove.records.1, fun hoperator => ?_⟩
    rw [hmove.records.2]
    exact hinv.2 hoperator
  · obtain ⟨⟨k, -, -, -, hpointer, howns⟩, hopened', -⟩ := h
    exact hvalue v t ⟨_, hpointer, howns.transactionId.trans hid⟩ hopened'
  · exact hraise e t h.1.1 h.2.1

/-! ### The `finally` clause -/

theorem wp_conclude {d : Concluded} {lane : Lane} {Q : Reply → Files → Prop} (hopened : Opened c f)
    (hlane : lane = .operatorRebaseline ↔ c.isOperator = true)
    (hbacked : c.isOperator = true → d.Backed f₀ f c.transactionId)
    (hvalue : ∀ reply t, t.pointer = f.pointer → Opened c t →
      (c.isOperator = true → (reply.status = .rebuilt ↔ d.ending.status = .committed)) → Q reply t) :
    (conclude c.transactionId lane d).wp routingMachine (Steps c f₀) Q (fun _ _ => True) f := by
  rw [conclude, Program.wp_bind]
  refine wp_attempt (wp_writeTerminal hopened hlane (fun hoperator => ?_) (fun t ht hopened' => ?_)
    fun e t ht hopened' => ?_)
  · exact ⟨(hbacked hoperator).committed, fun hstatus _ => (hbacked hoperator).uncommitted hstatus⟩
  · cases houtcome : d.outcome with
    | error e => exact trivial
    | ok reply => exact hvalue reply t ht hopened' fun hoperator => (hbacked hoperator).reply reply houtcome
  · refine ⟨fun _ => ?_, fun _ => trivial⟩
    cases houtcome : d.outcome with
    | error e => exact trivial
    | ok reply =>
        dsimp only
        split
        · next hstatus => exact hvalue _ t ht hopened' fun _ => iff_of_true rfl hstatus
        · next hstatus => exact hvalue _ t ht hopened' fun _ => iff_of_false nofun hstatus

/-! ### Runs -/

/-- The end of a run that did not commit. -/
theorem wp_uncommitted {d : Concluded} {Q : Concluded → Files → Prop} {transactionId : String}
    (huncommitted : Uncommitted f₀ f transactionId) (hstatus : d.ending.status ≠ .committed)
    (hreply : ∀ reply, d.outcome = .ok reply → reply.status ≠ .rebuilt)
    (hvalue : d.Backed f₀ f transactionId → Q d f) :
    (pure d : Task Concluded).wp routingMachine (Steps c f₀) Q E f :=
  hvalue ⟨fun h => absurd h hstatus, fun _ => huncommitted, fun reply h =>
    iff_of_false (hreply reply h) hstatus⟩

theorem wp_applyReviewed (laws : ProcessLaws) (hf : f.Accepted) {t : OperatorTransaction}
    {previous : Option String} (hid : t.transactionId = c.transactionId) (hopened : Opened c f)
    (hfound : f₀.opening c.transactionId = none) (hterminal : f.terminal c.transactionId = none)
    (hpointer : f.pointer = f₀.pointer) {Q : Concluded → Files → Prop}
    (hvalue : ∀ d u, Opened c u → d.Backed f₀ u c.transactionId → Q d u) :
    (applyReviewed t previous).wp routingMachine (Steps c f₀) Q E f := by
  have huncommitted : ∀ {u : Files}, u.pointer = f.pointer → Uncommitted f₀ u c.transactionId := by
    intro u hu
    exact ⟨hu.trans hpointer, .inl hfound⟩
  rw [applyReviewed, Program.wp_bind]
  refine wp_observe rfl (fun _ => id) (fun _ _ h => h) fun snapshot _ => ?_
  cases snapshot with
  | unstable reasonCode =>
      exact wp_uncommitted (huncommitted rfl) nofun (fun _ h => by cases h; nofun) (hvalue _ _ hopened)
  | stable observed =>
      dsimp only
      split
      · exact wp_uncommitted (huncommitted rfl) nofun (fun _ h => by cases h; nofun) (hvalue _ _ hopened)
      · rw [Program.wp_bind]
        refine wp_observe rfl (fun _ => id) (fun _ _ h => h.2) fun file _ => ?_
        rw [Program.wp_bind]
        refine wp_settle (wp_promoteOpened laws hf hid hopened (fun _ => ⟨hfound, hterminal⟩)
          (fun v u hcurrent hopened' => ?_) fun e u hu hopened' => ?_)
        · dsimp only
          rw [Program.wp_bind]
          refine wp_observe rfl (fun _ => id) (fun _ _ h => h) fun installed _ => ?_
          cases installed <;>
            exact hvalue _ _ hopened' (committedAs_backed hcurrent)
        · dsimp only
          split
          · exact wp_uncommitted (huncommitted hu) nofun (fun _ h => by cases h; nofun)
              (hvalue _ _ hopened')
          · exact wp_uncommitted (huncommitted hu) nofun nofun (hvalue _ _ hopened')

theorem wp_applyBuilt (laws : ProcessLaws) (hf : f.Accepted) {transactionId : String} {lane : Lane}
    {previous : Option String} (hid : transactionId = c.transactionId) (hopened : Opened c f)
    (hrecovery : c.isOperator = false) {Q : Concluded → Files → Prop}
    (hvalue : ∀ d u, Opened c u → Q d u) :
    (applyBuilt transactionId lane previous).wp routingMachine (Steps c f₀) Q E f := by
  rw [applyBuilt, Program.wp_bind]
  refine wp_observe rfl (fun _ => id) (fun _ _ h => h) fun built _ => ?_
  cases built with
  | denied reasonCode => exact hvalue _ _ hopened
  | raised => exact hvalue _ _ hopened
  | ready content =>
      dsimp only
      rw [Program.wp_bind]
      refine wp_settle (wp_promoteOpened laws hf hid hopened (fun h => ?_) (fun v u _ hopened' => ?_)
        fun e u _ hopened' => ?_)
      · rw [hrecovery] at h
        cases h
      · dsimp only
        rw [Program.wp_bind]
        refine wp_observe rfl (fun _ => id) (fun _ _ h => h) fun installed _ => ?_
        rcases installed with _ | _ | data
        · exact hvalue _ _ hopened'
        · exact hvalue _ _ hopened'
        · cases data <;> exact hvalue _ _ hopened'
      · dsimp only
        split <;> exact hvalue _ _ hopened'

/-- The program of a recovery. -/
theorem wp_attemptRecovery (laws : ProcessLaws) (hf : f.Accepted) {transactionId : String}
    (hc : c = .recovery transactionId) (hstart : f₀ = f) :
    (attemptRecovery transactionId).wp routingMachine (Steps c f₀) (fun _ _ => True) (fun _ _ => True)
      f := by
  subst hc hstart
  rw [attemptRecovery, Program.wp_bind]
  refine wp_observe rfl (fun _ => id) (fun _ _ h => h) fun found _ => ?_
  rcases found with refusal | ⟨lane, snapshot⟩
  · exact trivial
  · dsimp only
    split
    · exact trivial
    · next hlane =>
        have hsuits : lane = .operatorRebaseline ↔
            (TransactionCall.recovery transactionId).isOperator = true := iff_of_false hlane nofun
        rw [Program.wp_bind]
        refine wp_attempt (wp_currentPointer hf (.quiet (.refl _) rfl) ?_)
        dsimp only
        rw [Program.wp_bind]
        refine wp_attempt (wp_writeBegin hsuits rfl (fun t hpointer hgeneration _ hopened => ?_)
          fun e t _ => ⟨fun _ => trivial, fun _ => trivial⟩)
        dsimp only
        rw [Program.wp_bind]
        refine wp_applyBuilt laws (hf.of_same hpointer hgeneration) rfl hopened rfl fun d u hopened' => ?_
        exact wp_conclude hopened' hsuits nofun fun _ _ _ _ _ => trivial

/-! ### Operator runs -/

/-- The candidate's own file is written, or was there with the same bytes. -/
theorem wp_writeCandidate {transactionId : String} {content : List UInt8} {Q : Unit → Files → Prop}
    (hvalue : ∀ t, SameRecords f t → Q () t) (hraise : ∀ e, E e f) :
    (writeImmutableBytes (ask (.createCandidate transactionId content)) content).wp routingMachine
      (Steps c f₀) Q E f := by
  rw [writeImmutableBytes, Program.wp_bind]
  refine ⟨?_, ?_⟩
  · rintro t ⟨-, written, -, rfl⟩
    exact .quiet ⟨rfl, rfl, rfl, rfl⟩ rfl
  · rintro answer t ⟨rfl, rfl⟩
    cases hstored : f.candidate transactionId with
    | none => exact ⟨.quiet ⟨rfl, rfl, rfl, rfl⟩ rfl, hvalue _ ⟨rfl, rfl, rfl, rfl⟩⟩
    | some old => exact ⟨.quiet (.refl f) rfl, wp_require (fun _ => hvalue f (.refl f)) fun _ => hraise _⟩

variable {t : OperatorTransaction} {reviewed : Bool}

theorem wp_beginReviewed (laws : ProcessLaws) (hf : f.Accepted) (hc : c = .operator t reviewed)
    {previous : Option String} {content : List UInt8} (hopening : f.opening t.transactionId = none)
    (hterminal : f.terminal t.transactionId = none) :
    (beginReviewed t previous content).wp routingMachine (Steps c f)
      (fun reply u => reply.Backed f u t.transactionId) (fun _ _ => True) f := by
  subst hc
  have huncommitted : ∀ {u : Files}, u.pointer = f.pointer → Uncommitted f u t.transactionId :=
    fun hu => ⟨hu, .inl hopening⟩
  rw [beginReviewed]
  split
  · exact Reply.Backed.of_uncommitted nofun (huncommitted rfl)
  · rw [Program.wp_bind]
    refine wp_attempt ?_
    rw [Program.wp_bind]
    refine wp_writeCandidate (fun u hu => ?_) fun e =>
      ⟨fun _ => .of_uncommitted nofun (huncommitted rfl), fun _ => trivial⟩
    refine wp_writeBegin (iff_of_true rfl rfl) (by rw [hu.opening]) (fun v hpointer hgeneration hsame hopened => ?_)
      fun e v hv => ⟨fun _ => .of_uncommitted nofun (huncommitted (hv.trans hu.pointer)), fun _ => trivial⟩
    have haccepted : v.Accepted :=
      hf.of_same (hpointer.trans hu.pointer) (hgeneration.trans hu.generation)
    have hnone : v.terminal t.transactionId = none := by rw [hsame, hu.terminal, hterminal]
    dsimp only
    rw [Program.wp_bind]
    refine wp_applyReviewed laws haccepted rfl hopened hopening hnone (hpointer.trans hu.pointer)
      fun d w hopened' hbacked => ?_
    refine wp_conclude hopened' (iff_of_true rfl rfl) (fun _ => hbacked) fun reply x hx hended hiff => ?_
    by_cases hstatus : reply.status = .rebuilt
    · exact .of_current hstatus ((hbacked.committed ((hiff rfl).mp hstatus)).of_pointer hx)
        (hended.byOperator rfl)
    · exact .of_uncommitted hstatus
        ((hbacked.uncommitted fun h => hstatus ((hiff rfl).mpr h)).of_pointer hx)

/-! ### Operator replays -/

omit [FileDigest] [Decoder] in
theorem OperatorTransaction.opens_suits {b : BeginRecord} (h : t.opens b = true)
    (hc : c.isOperator = true) : b.Suits c := by
  simp only [OperatorTransaction.opens, Bool.and_eq_true, beq_iff_eq] at h
  exact iff_of_true h.1.1.1.2 hc

omit [Runtime] [FileDigest] [Decoder] in
theorem OperatorTransaction.conflict_backed {f₀ f : Files} {transactionId : String} :
    t.conflict.Backed f₀ f transactionId := .of_silent nofun (by simp [OperatorTransaction.conflict,
      OperatorTransaction.reply, silentReasons])

theorem wp_replayTerminal (hf : f.Accepted) (hopened : OpenedByOperator f t.transactionId)
    {b : BeginRecord} {r : TerminalRecord} {at' : String}
    (hr : f.terminal t.transactionId = some (.record r at')) :
    (replayTerminal t b r).wp routingMachine (Steps c f)
      (fun reply u => reply.Backed f u t.transactionId) (fun _ _ => True) f := by
  rw [replayTerminal]
  cases hends : t.ends r with
  | false => exact t.conflict_backed
  | true =>
      have hlane : r.lane = .operatorRebaseline := by
        simp only [OperatorTransaction.ends, Bool.and_eq_true, beq_iff_eq] at hends
        exact hends.1.1.2
      have hended : ∀ {u : Files} {reply : Reply}, SameRecords f u → reply.status ≠ .rebuilt →
          reply.reasonCode = r.reasonCode → r.status ≠ .committed →
          reply.Backed f u t.transactionId := by
        intro u reply hu hstatus hreason hrecord
        refine ⟨fun h => absurd h hstatus, fun _ hspeaks => .inr ⟨r, at', ?_, hlane, hrecord, ?_⟩⟩
        · rw [hu.terminal, hr]
        · rintro hunproven
          rw [hreason, hunproven] at hspeaks
          exact hspeaks (by simp [silentReasons])
      rw [if_neg (by simp), Program.wp_bind]
      refine wp_committedGeneration hf (fun u hu => ?_) fun generationId u hu hcurrent => ?_
      · cases hstatus : r.status with
        | committed =>
            dsimp only
            split
            · exact t.conflict_backed
            · exact .of_silent nofun (by simp [OperatorTransaction.reply, silentReasons, commitUnproven])
        | denied => exact hended hu nofun rfl (by rw [hstatus]; nofun)
        | error => exact hended hu nofun rfl (by rw [hstatus]; nofun)
      · have hcurrent' := hcurrent.of_pointer hu.pointer
        have hopened' : OpenedByOperator u t.transactionId := by
          rw [OpenedByOperator, hu.opening]
          exact hopened
        cases hstatus : r.status with
        | committed =>
            dsimp only
            split
            · exact t.conflict_backed
            · exact .of_current rfl hcurrent' hopened'
        | denied => exact .of_current rfl hcurrent' hopened'
        | error => exact .of_current rfl hcurrent' hopened'

theorem wp_replayInterrupted (hf : f.Accepted) {t₀ : OperatorTransaction}
    (hc : c = .operator t₀ reviewed) (hid : t₀.transactionId = t.transactionId) {b : BeginRecord}
    (hopened : Opened c f) (hterminal : f.terminal t.transactionId = none) :
    (replayInterrupted t b).wp routingMachine (Steps c f)
      (fun reply u => reply.Backed f u t.transactionId) (fun _ _ => True) f := by
  obtain ⟨id, authorization, authority, candidate⟩ := t₀
  obtain rfl : id = t.transactionId := hid
  subst hc
  have hinterrupted : ¬ Current f t.transactionId →
      (do
        writeAuthorityTransactionTerminal t.transactionId .operatorRebaseline {
          status := .error
          reasonCode := "AUTHORITY_TRANSACTION_INTERRUPTED_BEFORE_COMMIT"
          expectedAuthority := t.authority
          expectedCandidate := t.candidate }
        return t.reply .error "AUTHORITY_TRANSACTION_INTERRUPTED_BEFORE_COMMIT" : Task Reply).wp
        routingMachine (Steps (.operator ⟨t.transactionId, authorization, authority, candidate⟩ reviewed) f)
        (fun reply u => reply.Backed f u t.transactionId) (fun _ _ => True) f := by
    intro hother
    have huncommitted : ∀ {u : Files}, u.pointer = f.pointer → Uncommitted f u t.transactionId :=
      fun hu => ⟨hu, .inr ⟨hterminal, hother⟩⟩
    rw [Program.wp_bind]
    exact wp_writeTerminal hopened (iff_of_true rfl rfl) (fun _ => ⟨nofun, fun _ _ => huncommitted rfl⟩)
      (fun u hu _ => .of_uncommitted nofun (huncommitted hu)) fun _ _ _ _ => trivial
  rw [replayInterrupted, Program.wp_bind]
  refine wp_attempt (wp_currentPointer hf (.quiet (.refl f) rfl) ?_)
  cases hpointer : f.pointer with
  | none =>
      refine hinterrupted ?_
      rintro ⟨p, hp, -⟩
      rw [hpointer] at hp
      cases hp
  | some p =>
      dsimp only
      split
      · next hown =>
          have hcurrent : Current f t.transactionId := ⟨p, hpointer, beq_iff_eq.mp hown⟩
          rw [Program.wp_bind]
          refine wp_committedGeneration hf (fun u hu => ?_) fun generationId u hu _ => ?_
          · dsimp only
            rw [Program.wp_bind]
            refine wp_writeTerminal ?_ (iff_of_true rfl rfl) (fun _ => ⟨nofun, fun _ hreason => ?_⟩)
              (fun v hv _ => .of_silent nofun
                (by simp [OperatorTransaction.reply, silentReasons, commitUnproven]))
              fun _ _ _ _ => trivial
            · exact hopened.of_same hu
            · have hsame : String.ofList (commitUnproven.toList.take 96) = commitUnproven := by decide
              exact absurd hsame hreason
          · dsimp only
            rw [Program.wp_bind]
            exact wp_writeTerminal (hopened.of_same hu) (iff_of_true rfl rfl)
              (fun _ => ⟨fun _ => hcurrent.of_pointer hu.pointer, fun h => absurd rfl h⟩)
              (fun v hv hended => .of_current rfl (hcurrent.of_pointer (hv.trans hu.pointer))
                (hended.byOperator rfl))
              fun _ _ _ _ => trivial
      · next hother =>
          refine hinterrupted ?_
          rintro ⟨q, hq, hid⟩
          obtain rfl := Option.some.inj (hpointer.symm.trans hq)
          exact hother (beq_iff_eq.mpr hid)

/-- A replay finds no transaction, and has only read; or it answers. -/
theorem wp_replay (hf : f.Accepted) {t₀ : OperatorTransaction} (hc : c = .operator t₀ reviewed)
    (hid : t₀.transactionId = t.transactionId) :
    (replayOperatorTransaction t).wp routingMachine (Steps c f)
      (fun answer u => ReplayBacked f u t.transactionId answer) (fun _ _ => True) f := by
  rw [replayOperatorTransaction, Program.wp_bind]
  refine wp_requireValue ?_ trivial
  rw [Program.wp_bind]
  refine wp_observe rfl (fun _ => id) (fun _ _ h => h.2) fun opening hread => ?_
  obtain rfl := hread.1
  cases hopening : f.opening t.transactionId with
  | none => exact ⟨rfl, hopening⟩
  | some stored =>
      rcases stored with _ | ⟨b, at'⟩
      · exact t.conflict_backed
      · dsimp only [Stored.stable?]
        cases hopens : t.opens b with
        | false => exact t.conflict_backed
        | true =>
            have hopened : Opened c f := by
              refine ⟨b, at', ?_, t.opens_suits hopens (by rw [hc]; rfl)⟩
              rw [hc]
              exact (congrArg f.opening hid).trans hopening
            rw [if_neg (by simp), Program.wp_bind]
            refine wp_observe rfl (fun _ => id) (fun _ _ h => h.2) fun terminal hread' => ?_
            obtain rfl := hread'.1
            cases hterminal : f.terminal t.transactionId with
            | none =>
                dsimp only
                rw [Program.wp_bind]
                exact wp_replayInterrupted hf hc hid hopened hterminal
            | some ended =>
                rcases ended with _ | ⟨r, ended⟩
                · exact t.conflict_backed
                · dsimp only
                  rw [Program.wp_bind]
                  refine wp_replayTerminal hf ?_ hterminal
                  rw [← hid]
                  exact (hc ▸ hopened).byOperator rfl

/-- **The program of an operator.**  Whatever it replies is backed by what it found. -/
theorem wp_operatorRebaseline (laws : ProcessLaws) (hf : f.Accepted) (hc : c = .operator t reviewed)
    (hclosed : f.opening t.transactionId = none → f.terminal t.transactionId = none) :
    (operatorRebaseline t reviewed).wp routingMachine (Steps c f)
      (fun reply u => reply.Backed f u t.transactionId) (fun _ _ => True) f := by
  have hsilent : ∀ {reason : String}, reason ∈ silentReasons →
      (pure { status := .denied, reasonCode := reason } : Task Reply).wp routingMachine (Steps c f)
        (fun reply u => reply.Backed f u t.transactionId) (fun _ _ => True) f :=
    fun hreason => Reply.Backed.of_silent nofun hreason
  rw [operatorRebaseline]
  split
  · exact hsilent (by simp [silentReasons])
  split
  · exact hsilent (by simp [silentReasons])
  split
  · exact hsilent (by simp [silentReasons])
  split
  · exact hsilent (by simp [silentReasons])
  split
  · exact hsilent (by simp [silentReasons])
  rw [operatorLocked, Program.wp_bind]
  refine Program.wp_mono (wp_replay (t := t.normalized) hf hc rfl) (fun answer u hu => ?_) fun _ _ h => h
  cases answer with
  | some reply => exact hu
  | none =>
      obtain ⟨rfl, hopening⟩ := hu
      have hterminal := hclosed hopening
      have huncommitted : Uncommitted u u t.transactionId := ⟨rfl, .inl hopening⟩
      have hrefused : ∀ refusal : Refusal, refusal.reply.Backed u u t.transactionId := by
        intro refusal
        cases refusal <;> exact .of_uncommitted nofun huncommitted
      dsimp only
      rw [Program.wp_bind]
      refine wp_observe rfl (fun _ => id) (fun _ _ h => h) fun refusal _ => ?_
      cases refusal with
      | some refusal => exact hrefused refusal
      | none =>
          dsimp only
          rw [Program.wp_bind]
          refine wp_attempt (wp_currentPointer hf (.quiet (.refl u) rfl) ?_)
          dsimp only
          rw [Program.wp_bind]
          refine wp_observe rfl (fun _ => id) (fun _ _ h => h) fun review _ => ?_
          cases review with
          | error refusal => exact hrefused refusal
          | ok content => exact wp_beginReviewed laws hf hc hopening hterminal

end Rules

end CodingOS.ManifestRecovery
