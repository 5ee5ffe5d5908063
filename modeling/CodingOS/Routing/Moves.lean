import CodingOS.Routing.Materializer

/-!
# What one call does to the files

`Moves` says once, for the whole program, what a call can do to the target, the journals, the receipts
and the backups, with everything the program has checked when it does it.  A run of a call, crashed or
not, is a run of these moves; the laws of later modules are case analyses of them.
-/

namespace CodingOS.Routing

open CodingOS.Python Systems

/-! ### The records of the files -/

/-- The journal, the receipt and the backup of every transaction. -/
def Files.records (f : Files) (id : String) : Option Journal × Option Receipt × Option (List UInt8) :=
  ((f.workspace id).journal, (f.workspace id).receipt, (f.workspace id).backup)

variable {f f' : Files} {id : String}

@[simp] theorem Files.update_target (change : Workspace → Workspace) :
    (f.update id change).target = f.target := rfl

@[simp] theorem Files.update_workspace (change : Workspace → Workspace) :
    (f.update id change).workspace id = change (f.workspace id) := by
  simp [Files.update]

/-- A change of one workspace that keeps its records keeps all of them. -/
theorem Files.update_records {change : Workspace → Workspace}
    (hjournal : (change (f.workspace id)).journal = (f.workspace id).journal)
    (hreceipt : (change (f.workspace id)).receipt = (f.workspace id).receipt)
    (hbackup : (change (f.workspace id)).backup = (f.workspace id).backup) :
    (f.update id change).records = f.records := by
  funext k
  by_cases hk : k = id
  · subst hk
    simp [Files.records, Files.update, hjournal, hreceipt, hbackup]
  · simp [Files.records, Files.update, hk]

theorem Files.records_journal (h : f'.records = f.records) :
    (f'.workspace id).journal = (f.workspace id).journal := congrArg Prod.fst (congrFun h id)

theorem Files.records_receipt (h : f'.records = f.records) :
    (f'.workspace id).receipt = (f.workspace id).receipt :=
  congrArg (fun r => r.2.1) (congrFun h id)

theorem Files.records_backup (h : f'.records = f.records) :
    (f'.workspace id).backup = (f.workspace id).backup :=
  congrArg (fun r => r.2.2) (congrFun h id)

/-! ### Operations that change nothing -/

section Looking

variable {G : Files → PolicyOp → Files → Prop} {E : PolicyError → Files → Prop}

theorem wp_ensure {condition : Bool} {kind : PolicyErrorKind} {message : String}
    {Q : Unit → Files → Prop} (hpass : condition = true → Q () f)
    (hfail : condition = false → E ⟨kind, message⟩ f) :
    (ensure condition kind message).wp policyMachine G Q E f := by
  cases condition with
  | true => exact hpass rfl
  | false => exact hfail rfl

/-- An operation that changes nothing, whatever it answers. -/
theorem wp_look {op : PolicyOp} {Q : PolicyAnswer op → Files → Prop} (hstay : G f op f)
    (htorn : ∀ t, ¬ policyMachine.torn op f t) (hstep : ∀ a t, policyMachine.step op f a t → t = f)
    (h : ∀ a, policyMachine.step op f a f → Q a f) :
    (ask op).wp policyMachine G Q E f := by
  refine ⟨fun t ht => absurd ht (htorn t), fun a t ht => ?_⟩
  obtain rfl := hstep a t ht
  exact ⟨hstay, h a ht⟩

theorem wp_lookAtTarget [FileDigest] {Q : String → Files → Prop} (hstay : G f .readTarget f)
    (h : Q (targetDigest f.target) f) : targetSha256.wp policyMachine G Q E f := by
  refine Program.wp_bind.mpr (wp_look hstay nofun (fun _ _ h => h.2) fun a ha => ?_)
  obtain rfl := ha.1
  exact h

end Looking

/-! ### The moves -/

section Moves

/-- The operations that write or delete the target. -/
def PolicyOp.writesTarget : PolicyOp → Bool
  | .restoreTarget _ _ | .unlinkTarget _ | .promote _ => true
  | _ => false

/-- When a journal can be saved in a phase: the transaction is the one the call found, and the preparing
phases are saved by the call that opened it, one after another, before it touches the target. -/
structure Recordable (b : Binding) (f₀ f : Files) (phase : Phase) : Prop where
  same : ∀ j, (f₀.workspace b.transactionId).journal = some j → j.binding = b
  preparing : phase ∈ preparingPhases →
    (f₀.workspace b.transactionId).journal = none ∧ f.target = f₀.target ∧
      ∀ j, (f.workspace b.transactionId).journal = some j → j.phase ∈ preparingPhases

/-- A phase that is not a preparing one is recordable at any time. -/
theorem Recordable.of_not_mem {b : Binding} {f₀ f : Files} {phase : Phase}
    (hsame : ∀ j, (f₀.workspace b.transactionId).journal = some j → j.binding = b)
    (h : phase ∉ preparingPhases) : Recordable b f₀ f phase :=
  ⟨hsame, fun hmem => absurd hmem h⟩

/-- A call that opens its transaction has no other binding to keep. -/
theorem same_of_fresh {b : Binding} {f₀ : Files} (h : (f₀.workspace b.transactionId).journal = none) :
    ∀ j, (f₀.workspace b.transactionId).journal = some j → j.binding = b := by
  intro j hj
  rw [h] at hj
  cases hj

/-- A call finds its transaction without a receipt and past the preparing phases: it will roll it back. -/
structure Interrupted (b : Binding) (f₀ : Files) (j : Journal) : Prop where
  receipt : (f₀.workspace b.transactionId).receipt = none
  journal : (f₀.workspace b.transactionId).journal = some j
  binding : j.binding = b
  phase : j.phase ∉ preparingPhases

variable [FileDigest]

/-- What is true when a receipt with the outcome is written. -/
def Truthful (b : Binding) (policy : List UInt8) (f₀ f : Files) : ReceiptOutcome → Prop
  | .applied => (f₀.workspace b.transactionId).journal = none ∧ f.target = some policy
  | .preconditionFailed => f.target = f₀.target ∧
      ∀ j, (f₀.workspace b.transactionId).journal = some j → j.phase ∈ preparingPhases
  | .rolledBack => (f₀.workspace b.transactionId).journal = none ∧
      targetDigest f₀.target = b.expectedTargetSha256 ∧ targetDigest f.target = b.expectedTargetSha256
  | .recoveredRolledBack => (f₀.workspace b.transactionId).journal.isSome = true ∧
      targetDigest f.target = b.expectedTargetSha256
  | .rollbackFailed => True

/-- Truthfulness reads the target alone. -/
theorem Truthful.congr {b : Binding} {policy : List UInt8} {f₀ f f' : Files} {outcome : ReceiptOutcome}
    (h : Truthful b policy f₀ f outcome) (htarget : f'.target = f.target) :
    Truthful b policy f₀ f' outcome := by
  cases outcome with
  | applied | preconditionFailed | rolledBack | recoveredRolledBack =>
      simp only [Truthful, htarget] at h ⊢
      exact h
  | rollbackFailed => trivial

/-- An operation that puts the expected policy back: a policy that was missing is deleted, another one is
written from its backup. -/
inductive Restores (b : Binding) (f : Files) : PolicyOp → Files → Prop
  | unlink : b.expectedTargetSha256 = missing →
      Restores b f (.unlinkTarget b.transactionId) { f with target := none }
  | rewrite {payload : List UInt8} : (f.workspace b.transactionId).backup = some payload →
      FileDigest.sha256 payload = b.expectedTargetSha256 →
      Restores b f (.restoreTarget b.transactionId payload) { f with target := some payload }

/-- The rollback can put the expected policy back. -/
def Restorable (b : Binding) (f : Files) : Prop :=
  b.expectedTargetSha256 = missing ∨
    ∃ payload, (f.workspace b.transactionId).backup = some payload ∧
      FileDigest.sha256 payload = b.expectedTargetSha256

theorem Restores.restorable {b : Binding} {op : PolicyOp} (h : Restores b f op f') :
    Restorable b f := by
  cases h with
  | unlink hmissing => exact .inl hmissing
  | rewrite hbackup hdigest => exact .inr ⟨_, hbackup, hdigest⟩

theorem Restores.digest {b : Binding} {op : PolicyOp} (h : Restores b f op f') :
    targetDigest f'.target = b.expectedTargetSha256 := by
  cases h with
  | unlink hmissing => exact hmissing.symm
  | rewrite _ hdigest => exact hdigest

theorem Restores.writesTarget {b : Binding} {op : PolicyOp} (h : Restores b f op f') :
    op.writesTarget = true := by
  cases h <;> rfl

theorem Restores.records {b : Binding} {op : PolicyOp} (h : Restores b f op f') :
    f'.records = f.records := by
  cases h <;> rfl

variable [Runtime]

/-- The moves of a call under the binding `b` that found the files `f₀`. -/
inductive Moves (b : Binding) (policy : List UInt8) (f₀ : Files) : Files → PolicyOp → Files → Prop
  | quiet {f f' : Files} {op : PolicyOp} : op.writesTarget = false → f'.target = f.target →
      f'.records = f.records → Moves b policy f₀ f op f'
  | journal {f : Files} {j : Journal} : (f.workspace b.transactionId).receipt = none →
      j.binding = b → Recordable b f₀ f j.phase →
      Moves b policy f₀ f (.saveJournal b.transactionId j)
        (f.update b.transactionId fun w => { w with journal := some j })
  | backup {f : Files} {j : Journal} {payload : List UInt8} :
      (f₀.workspace b.transactionId).journal = none →
      targetDigest f₀.target = b.expectedTargetSha256 → f.target = f₀.target →
      (f.workspace b.transactionId).journal = some j → j.binding = b →
      Moves b policy f₀ f (.writeBackup b.transactionId payload)
        (f.update b.transactionId fun w => { w with backup := some payload })
  | promote {f f' : Files} {j : Journal} : (f₀.workspace b.transactionId).journal = none →
      targetDigest f₀.target = b.expectedTargetSha256 → f.target = f₀.target →
      (f.workspace b.transactionId).journal = some j → j.binding = b → j.phase = .promoting →
      f'.target = some policy → f'.records = f.records →
      Moves b policy f₀ f (.promote b.transactionId) f'
  | restore {f f' : Files} {op : PolicyOp} : Restores b f op f' →
      targetDigest f.target = b.materializedSha256 →
      targetDigest f.target ≠ b.expectedTargetSha256 →
      ((f₀.workspace b.transactionId).journal = none ∧
          targetDigest f₀.target = b.expectedTargetSha256) ∨
        (∃ j, Interrupted b f₀ j ∧ f = f₀) →
      Moves b policy f₀ f op f'
  | receipt {f : Files} {j : Journal} {r : Receipt} :
      (f.workspace b.transactionId).receipt = none →
      (f.workspace b.transactionId).journal = some j → r.binding = b → j.binding = b →
      r.journalSha256 = j.fileSha256 → r.receiptSha256 = r.bodySha256 →
      Truthful b policy f₀ f r.outcome →
      Moves b policy f₀ f (.createReceipt b.transactionId r)
        (f.update b.transactionId fun w => { w with receipt := some r })

/-! ### The operations -/

section Operations

variable {b : Binding} {policy : List UInt8} {f₀ f : Files} {E : PolicyError → Files → Prop}

theorem wp_read {op : PolicyOp} {Q : PolicyAnswer op → Files → Prop} (hop : op.writesTarget = false)
    (htorn : ∀ t, ¬ policyMachine.torn op f t) (hstep : ∀ a t, policyMachine.step op f a t → t = f)
    (h : ∀ a, policyMachine.step op f a f → Q a f) :
    (ask op).wp policyMachine (Moves b policy f₀) Q E f :=
  wp_look (.quiet hop rfl rfl) htorn hstep h

theorem wp_targetSha256 {Q : String → Files → Prop} (h : Q (targetDigest f.target) f) :
    targetSha256.wp policyMachine (Moves b policy f₀) Q E f :=
  wp_lookAtTarget (.quiet rfl rfl rfl) h

/-- The save of a journal that is recordable now. -/
theorem wp_saveJournal {j : Journal} {Q : Journal → Files → Prop}
    (hopen : (f.workspace b.transactionId).receipt = none) (hbinding : j.binding = b)
    (hphase : Recordable b f₀ f j.phase)
    (h : ∀ updatedAt, Q { j with updatedAt } (f.update b.transactionId fun w =>
      { w with journal := some { j with updatedAt } })) :
    (saveJournal j).wp policyMachine (Moves b policy f₀) Q E f := by
  refine Program.wp_bind.mpr (wp_read rfl nofun (fun _ _ h => h) fun updatedAt _ => ?_)
  refine Program.wp_bind.mpr ⟨fun t ht => ?_, fun _ t ht => ?_⟩
  · obtain rfl := ht
    exact .quiet rfl rfl (Files.update_records rfl rfl rfl)
  · obtain rfl := ht
    subst hbinding
    exact ⟨.journal hopen rfl hphase, h updatedAt⟩

/-- The receipt of a journal quotes the digest of its file. -/
theorem wp_receiptFromJournal {j : Journal} {outcome : ReceiptOutcome} {Q : Receipt → Files → Prop}
    (hstored : (f.workspace j.binding.transactionId).journal = some j)
    (h : ∀ r : Receipt, r.binding = j.binding → r.outcome = outcome →
      r.journalSha256 = j.fileSha256 → r.receiptSha256 = r.bodySha256 → Q r f) :
    (receiptFromJournal j outcome).wp policyMachine (Moves b policy f₀) Q E f := by
  refine Program.wp_bind.mpr (wp_read rfl nofun (fun _ _ h => h.2) fun stored ha => ?_)
  obtain rfl : stored = some j := ha.1.trans hstored
  exact h _ rfl rfl rfl rfl

/-- A receipt of an open transaction is written at once. -/
theorem wp_writeOnce {j : Journal} {r : Receipt}
    (hopen : (f.workspace b.transactionId).receipt = none)
    (hstored : (f.workspace b.transactionId).journal = some j) (hreceipt : r.binding = b)
    (hbinding : j.binding = b) (hjournal : r.journalSha256 = j.fileSha256)
    (hbody : r.receiptSha256 = r.bodySha256) (htruthful : Truthful b policy f₀ f r.outcome) :
    (writeOnce r).wp policyMachine (Moves b policy f₀) (fun _ _ => True) E f := by
  have hid : r.binding.transactionId = b.transactionId := by rw [hreceipt]
  refine Program.wp_bind.mpr (wp_read rfl nofun (fun _ _ h => h.2) fun old ha => ?_)
  obtain rfl : old = none := ha.1.trans (hid ▸ hopen)
  refine Program.wp_bind.mpr ⟨fun t ht => ?_, fun created t ht => ?_⟩
  · obtain rfl := ht
    exact .quiet rfl rfl (Files.update_records rfl rfl rfl)
  · obtain ⟨rfl, rfl⟩ := ht
    rw [hid, hopen]
    exact ⟨.receipt hopen hstored hreceipt hbinding hjournal hbody htruthful, trivial⟩

/-- The end of a path: the receipt is written, and nothing is raised. -/
theorem wp_conclude {j : Journal} {outcome : ReceiptOutcome}
    (hopen : (f.workspace b.transactionId).receipt = none) (hbinding : j.binding = b)
    (hphase : Recordable b f₀ f j.phase) (htruthful : Truthful b policy f₀ f outcome) :
    (conclude j outcome).wp policyMachine (Moves b policy f₀) (fun _ _ => True) E f := by
  refine Program.wp_bind.mpr (wp_saveJournal hopen hbinding hphase fun updatedAt => ?_)
  generalize hj : ({ j with updatedAt } : Journal) = saved
  have hsaved : saved.binding = b := by rw [← hj, ← hbinding]
  have hstored : ((f.update b.transactionId fun w => { w with journal := some saved }).workspace
      b.transactionId).journal = some saved := by rw [Files.update_workspace]
  have hopen' : ((f.update b.transactionId fun w => { w with journal := some saved }).workspace
      b.transactionId).receipt = none := by
    rw [Files.update_workspace]
    exact hopen
  refine Program.wp_bind.mpr (wp_receiptFromJournal (hsaved ▸ hstored)
    fun r hr houtcome hjournal hbody => ?_)
  refine Program.wp_bind.mpr (wp_writeOnce hopen' hstored (hr.trans hsaved) hsaved hjournal hbody
    (houtcome ▸ htruthful.congr rfl))

/-- The rollback leaves the records alone; unless it raises, the target is what was expected. -/
theorem wp_rollback {j : Journal} {Q : Unit → Files → Prop} (hbinding : j.binding = b)
    (hsource : targetDigest f.target = b.materializedSha256 →
      targetDigest f.target ≠ b.expectedTargetSha256 →
      ((f₀.workspace b.transactionId).journal = none ∧
          targetDigest f₀.target = b.expectedTargetSha256) ∨
        (∃ j, Interrupted b f₀ j ∧ f = f₀))
    (hdone : ∀ f' : Files, f'.records = f.records → targetDigest f'.target = b.expectedTargetSha256 →
      Q () f')
    (hfail : ∀ exc (f' : Files), f'.records = f.records → E exc f') :
    (rollback j).wp policyMachine (Moves b policy f₀) Q E f := by
  subst hbinding
  refine Program.wp_bind.mpr (wp_targetSha256 ?_)
  by_cases hbaseline : targetDigest f.target = j.binding.expectedTargetSha256
  · rw [if_pos hbaseline]
    exact hdone f rfl hbaseline
  rw [if_neg hbaseline]
  refine Program.wp_bind.mpr (wp_ensure (fun hown => ?_) fun _ => hfail _ f rfl)
  have hown : targetDigest f.target = j.binding.materializedSha256 := by simpa using hown
  split
  · next hmissing =>
      refine ⟨nofun, fun _ t ht => ?_⟩
      obtain rfl := ht
      exact ⟨.restore (.unlink hmissing) hown hbaseline (hsource hown hbaseline),
        hdone _ rfl hmissing.symm⟩
  · refine Program.wp_bind.mpr (wp_read rfl nofun (fun _ _ h => h.2) fun backup hbackup => ?_)
    obtain rfl := hbackup.1
    cases hbackup : (f.workspace j.binding.transactionId).backup with
    | none => exact hfail _ f rfl
    | some payload =>
        refine Program.wp_bind.mpr (wp_ensure (fun hdigest => ?_) fun _ => hfail _ f rfl)
        have hdigest : FileDigest.sha256 payload = j.binding.expectedTargetSha256 := by
          simpa using hdigest
        refine Program.wp_bind.mpr ⟨nofun, fun _ t ht => ?_⟩
        obtain rfl := ht
        refine ⟨.restore (.rewrite hbackup hdigest) hown hbaseline (hsource hown hbaseline), ?_⟩
        refine Program.wp_bind.mpr (wp_targetSha256 (wp_ensure (fun _ => ?_) fun _ => ?_))
        · exact hdone _ rfl hdigest
        · exact hfail _ _ rfl

/-- A rollback that raises is recorded, and an exception goes on. -/
theorem wp_recordFailure {j : Journal} {exc : PolicyError} {Q : Unit → Files → Prop}
    (hsame : ∀ j, (f₀.workspace b.transactionId).journal = some j → j.binding = b)
    (hopen : (f.workspace b.transactionId).receipt = none) (hbinding : j.binding = b) (text : String) :
    (do
      discard <| conclude { j with error := some text, phase := .rollbackFailed } .rollbackFailed
      Program.raise exc : Task Unit).wp policyMachine (Moves b policy f₀) Q (fun _ _ => True) f := by
  refine Program.wp_bind.mpr (Program.wp_bind.mpr (Program.wp_mono
    (wp_conclude (E := fun _ _ => True) hopen hbinding (.of_not_mem hsame (by simp [preparingPhases]))
      trivial)
    ?_ fun _ _ _ => trivial))
  exact fun _ _ _ => trivial

/-- The path of an interrupted transaction. -/
theorem wp_recover {j : Journal} (hopen : (f₀.workspace b.transactionId).receipt = none)
    (hjournal : (f₀.workspace b.transactionId).journal = some j) :
    (recover b j).wp policyMachine (Moves b policy f₀) (fun _ _ => True) (fun _ _ => True) f₀ := by
  refine Program.wp_bind.mpr (wp_ensure (fun hsame => ?_) fun _ => trivial)
  have hbinding : j.binding = b := by simpa using hsame
  subst hbinding
  have hsame : ∀ j', (f₀.workspace j.binding.transactionId).journal = some j' →
      j'.binding = j.binding := by
    intro j' hj'
    rw [Option.some.inj (hj'.symm.trans hjournal)]
  refine Program.wp_bind.mpr (wp_targetSha256 ?_)
  split
  · next hdrift =>
      refine wp_conclude hopen rfl (.of_not_mem hsame (by simp [preparingPhases])) ⟨rfl, fun j' hj' => ?_⟩
      obtain rfl := Option.some.inj (hjournal.symm.trans hj')
      simpa using hdrift.1
  · next hstill =>
      refine Program.wp_bind.mpr (Program.wp_handle.mpr (wp_rollback rfl ?_ ?_ ?_))
      · intro _ hne
        exact .inr ⟨j, ⟨hopen, hjournal, rfl, fun hmem => hstill ⟨by simpa using hmem, hne⟩⟩, rfl⟩
      · intro f' hrecords hdigest
        exact wp_conclude ((Files.records_receipt hrecords).trans hopen) rfl
          (.of_not_mem hsame (by simp [preparingPhases]))
          ⟨by rw [hjournal]; rfl, hdigest⟩
      · intro exc f' hrecords
        exact wp_recordFailure hsame ((Files.records_receipt hrecords).trans hopen) rfl _

/-- What the body of the `try` statement leaves when it raises. -/
structure Abandoned (b : Binding) (f₀ : Files) (failure : Journal × PolicyError) (f : Files) : Prop where
  binding : failure.1.binding = b
  receipt : (f.workspace b.transactionId).receipt = none
  untouched : failure.1.phase ∈ preparingPhases → f.target = f₀.target

/-- The `except` clause. -/
theorem wp_abandon {failure : Journal × PolicyError}
    (hjournal : (f₀.workspace b.transactionId).journal = none)
    (hexpected : targetDigest f₀.target = b.expectedTargetSha256) (h : Abandoned b f₀ failure f) :
    (abandon failure).wp policyMachine (Moves b policy f₀) (fun _ _ => True) (fun _ _ => True) f := by
  obtain ⟨j, exc⟩ := failure
  obtain ⟨hbinding, hopen, huntouched⟩ := h
  have hsame := same_of_fresh hjournal
  have hrest : ∀ drifted : Bool, (drifted = true → j.phase ∈ preparingPhases) →
      (if drifted then conclude { j with error := some exc.text, phase := .preconditionFailed }
          .preconditionFailed
        else do
          (rollback { j with error := some exc.text }).handle fun rollbackExc => do
            let text := exc.text ++ " | rollback=" ++ rollbackExc.text
            discard <| conclude { j with error := some text, phase := .rollbackFailed } .rollbackFailed
            raise .recovery text
          conclude { j with error := some exc.text, phase := .rolledBack } .rolledBack : Task Receipt).wp
        policyMachine (Moves b policy f₀) (fun _ _ => True) (fun _ _ => True) f := by
    intro drifted hdrifted
    cases drifted with
    | true =>
        refine wp_conclude hopen hbinding (.of_not_mem hsame (by simp [preparingPhases]))
          ⟨huntouched (hdrifted rfl), fun j' hj' => ?_⟩
        rw [hjournal] at hj'
        cases hj'
    | false =>
        refine Program.wp_bind.mpr (Program.wp_handle.mpr (wp_rollback hbinding ?_ ?_ ?_))
        · exact fun _ _ => .inl ⟨hjournal, hexpected⟩
        · intro f' hrecords hdigest
          exact wp_conclude ((Files.records_receipt hrecords).trans hopen) hbinding
            (.of_not_mem hsame (by simp [preparingPhases])) ⟨hjournal, hexpected, hdigest⟩
        · intro rollbackExc f' hrecords
          exact wp_recordFailure hsame ((Files.records_receipt hrecords).trans hopen) hbinding _
  unfold abandon
  dsimp only
  split
  · next hprecondition =>
      exact Program.wp_bind.mpr (Program.wp_bind.mpr (wp_targetSha256
        (hrest _ fun _ => by simpa using hprecondition.2)))
  · exact Program.wp_bind.mpr (hrest false nofun)

/-! ### The `try` statement -/

theorem wp_within {α : Type} {p : Task α} {j : Journal} {Q : α → Files → Prop}
    {E : Journal × PolicyError → Files → Prop}
    (h : p.wp policyMachine (Moves b policy f₀) Q (fun exc f => E (j, exc) f) f) :
    (p.within j).wp policyMachine (Moves b policy f₀) Q E f :=
  Program.wp_handle.mpr h

/-- A phase is entered by a save of the journal. -/
theorem wp_enter {j : Journal} {phase : Phase} {Q : Journal → Files → Prop}
    {E : Journal × PolicyError → Files → Prop}
    (hopen : (f.workspace b.transactionId).receipt = none) (hbinding : j.binding = b)
    (hphase : Recordable b f₀ f phase)
    (h : ∀ updatedAt, Q { j with phase, updatedAt } (f.update b.transactionId fun w =>
      { w with journal := some { j with phase, updatedAt } })) :
    (enter j phase).wp policyMachine (Moves b policy f₀) Q E f :=
  wp_within (wp_saveJournal hopen hbinding hphase h)

/-- The backup changes nothing else. -/
theorem wp_captureBackup {j : Journal} {Q : Unit → Files → Prop}
    (hjournal : (f₀.workspace b.transactionId).journal = none)
    (hexpected : targetDigest f₀.target = b.expectedTargetSha256) (htarget : f.target = f₀.target)
    (hstored : (f.workspace b.transactionId).journal = some j) (hbinding : j.binding = b)
    (h : ∀ backup, Q () (f.update b.transactionId fun w => { w with backup }))
    (hfail : ∀ exc backup, E exc (f.update b.transactionId fun w => { w with backup })) :
    (captureBackup b f.target).wp policyMachine (Moves b policy f₀) Q E f := by
  have hsame : (f.update b.transactionId fun w =>
      { w with backup := (f.workspace b.transactionId).backup }) = f := by
    simp [Files.update]
  unfold captureBackup
  cases hprior : f.target with
  | none => exact hsame ▸ h _
  | some payload =>
      refine Program.wp_bind.mpr (wp_read rfl nofun (fun _ _ h => h.2) fun current hcurrent => ?_)
      obtain rfl : current = some payload := hcurrent.1.trans hprior
      refine Program.wp_bind.mpr ⟨nofun, fun _ t ht => ?_⟩
      obtain rfl := ht
      refine ⟨.backup hjournal hexpected htarget hstored hbinding,
        Program.wp_bind.mpr (wp_read rfl nofun (fun _ _ h => h.2) fun backup _ => ?_)⟩
      exact wp_ensure (fun _ => h _) fun _ => hfail _ _

/-- The promotion leaves the staged policy as the target. -/
theorem wp_promoteStage {j : Journal} {Q : Unit → Files → Prop}
    (hjournal : (f₀.workspace b.transactionId).journal = none)
    (hexpected : targetDigest f₀.target = b.expectedTargetSha256) (htarget : f.target = f₀.target)
    (hstored : (f.workspace b.transactionId).journal = some j) (hbinding : j.binding = b)
    (hphase : j.phase = .promoting) (hstage : (f.workspace b.transactionId).stage = some policy)
    (h : ∀ f' : Files, f'.target = some policy → f'.records = f.records → Q () f')
    (hfail : ∀ exc (f' : Files), f'.records = f.records → E exc f') :
    (promoteStage b).wp policyMachine (Moves b policy f₀) Q E f := by
  refine Program.wp_bind.mpr ⟨nofun, fun promoted t ht => ?_⟩
  obtain ⟨rfl, rfl⟩ := ht
  rw [hstage]
  have hrecords : (f.update b.transactionId fun w => { w with stage := none }).records = f.records :=
    Files.update_records rfl rfl rfl
  refine ⟨.promote hjournal hexpected htarget hstored hbinding hphase rfl hrecords, ?_⟩
  refine Program.wp_bind.mpr (wp_ensure (fun _ => ?_) fun _ => hfail _ _ hrecords)
  exact Program.wp_bind.mpr (wp_targetSha256 (wp_ensure (fun _ => h _ rfl hrecords)
    fun _ => hfail _ _ hrecords))

theorem wp_stagePolicy {Q : Unit → Files → Prop}
    (h : Q () (f.update b.transactionId fun w => { w with stage := some policy }))
    (hfail : ∀ exc, E exc (f.update b.transactionId fun w => { w with stage := some policy })) :
    (stagePolicy b policy).wp policyMachine (Moves b policy f₀) Q E f := by
  refine Program.wp_bind.mpr ⟨nofun, fun _ t ht => ?_⟩
  obtain rfl := ht
  refine ⟨.quiet rfl rfl (Files.update_records rfl rfl rfl), ?_⟩
  exact Program.wp_bind.mpr (wp_read rfl nofun (fun _ _ h => h.2) fun _ _ =>
    wp_ensure (fun _ => h) fun _ => hfail _)

theorem wp_checkBeforePromotion {Q : Unit → Files → Prop} (h : Q () f) (hfail : ∀ exc, E exc f) :
    (checkBeforePromotion b).wp policyMachine (Moves b policy f₀) Q E f :=
  Program.wp_bind.mpr (wp_targetSha256 (Program.wp_bind.mpr (wp_ensure
    (fun _ => Program.wp_bind.mpr (wp_read rfl nofun (fun _ _ h => h) fun _ _ =>
      wp_ensure (fun _ => h) fun _ => hfail _)) fun _ => hfail _)))

theorem wp_validatePromoted {Q : Unit → Files → Prop} (h : Q () f) (hfail : ∀ exc, E exc f) :
    validatePromoted.wp policyMachine (Moves b policy f₀) Q E f := by
  refine Program.wp_bind.mpr (wp_read rfl nofun (fun _ _ h => h) fun message _ => ?_)
  cases message with
  | some message => exact hfail _
  | none =>
      exact Program.wp_bind.mpr (wp_read rfl nofun (fun _ _ h => h) fun _ _ =>
        wp_ensure (fun _ => h) fun _ => hfail _)

/-- The body of the `try` statement, in a call that found the target as expected. -/
theorem wp_promotePolicy {options : PolicyApplyOptions} {j : Journal}
    (hjournal : (f₀.workspace b.transactionId).journal = none)
    (hexpected : targetDigest f₀.target = b.expectedTargetSha256) (htarget : f.target = f₀.target)
    (hopen : (f.workspace b.transactionId).receipt = none)
    (hstored : (f.workspace b.transactionId).journal = some j) (hbinding : j.binding = b)
    (hphase : j.phase ∈ preparingPhases) :
    (promotePolicy options policy j f.target).wp policyMachine (Moves b policy f₀) (fun _ _ => True)
      (Abandoned b f₀) f := by
  have hsame := same_of_fresh hjournal
  have hearly : ∀ {f : Files} {j : Journal} {phase : Phase}, f.target = f₀.target →
      (f.workspace b.transactionId).journal = some j → j.phase ∈ preparingPhases →
      Recordable b f₀ f phase := by
    intro f j phase htarget hstored hphase
    refine ⟨hsame, fun _ => ⟨hjournal, htarget, fun j' hj' => ?_⟩⟩
    rw [Option.some.inj (hj'.symm.trans hstored)]
    exact hphase
  unfold promotePolicy
  rw [hbinding]
  refine Program.wp_bind.mpr (wp_within (wp_captureBackup hjournal hexpected htarget
    hstored hbinding (fun backup => ?_) fun exc backup => ⟨hbinding, by simpa using hopen, fun _ => htarget⟩))
  refine Program.wp_bind.mpr (wp_within (wp_stagePolicy ?_
    fun exc => ⟨hbinding, by simpa using hopen, fun _ => htarget⟩))
  refine Program.wp_bind.mpr (wp_enter (by simpa using hopen) hbinding
    (hearly htarget (by simpa using hstored) hphase) fun updatedAt => ?_)
  refine Program.wp_bind.mpr (wp_within (wp_ensure (fun _ => ?_)
    fun _ => ⟨hbinding, by simpa using hopen, fun _ => htarget⟩))
  refine Program.wp_bind.mpr (wp_enter (by simpa using hopen) hbinding
    (hearly htarget (j := { j with phase := .stageVerified, updatedAt }) (by simp)
      (by simp [preparingPhases])) fun updatedAt => ?_)
  refine Program.wp_bind.mpr (wp_within (wp_checkBeforePromotion ?_
    fun exc => ⟨hbinding, by simpa using hopen, fun _ => htarget⟩))
  refine Program.wp_bind.mpr (wp_enter (by simpa using hopen) hbinding
    (.of_not_mem hsame (by simp [preparingPhases])) fun updatedAt => ?_)
  refine Program.wp_bind.mpr (wp_within (wp_promoteStage (j := { j with phase := .promoting, updatedAt })
    hjournal hexpected htarget (by simp) hbinding rfl (by simp) (fun f' htarget' hrecords => ?_)
    fun exc f' hrecords => ⟨hbinding, (Files.records_receipt hrecords).trans (by simpa using hopen),
      fun hmem => absurd hmem (by simp [preparingPhases])⟩))
  have hopen' : (f'.workspace b.transactionId).receipt = none :=
    (Files.records_receipt hrecords).trans (by simpa using hopen)
  have hlate : ∀ {f : Files} {phase : Phase}, phase ∉ preparingPhases → Recordable b f₀ f phase :=
    fun hphase => .of_not_mem hsame hphase
  refine Program.wp_bind.mpr (wp_enter hopen' hbinding (hlate (by simp [preparingPhases]))
    fun updatedAt => ?_)
  refine Program.wp_bind.mpr (wp_within (wp_ensure (fun _ => ?_)
    fun _ => ⟨hbinding, by simpa using hopen', fun hmem => absurd hmem (by simp [preparingPhases])⟩))
  refine Program.wp_bind.mpr (wp_within (wp_validatePromoted ?_
    fun exc => ⟨hbinding, by simpa using hopen', fun hmem => absurd hmem (by simp [preparingPhases])⟩))
  refine Program.wp_bind.mpr (wp_enter (by simpa using hopen') hbinding
    (hlate (by simp [preparingPhases])) fun updatedAt => ?_)
  refine Program.wp_bind.mpr (wp_within (wp_ensure (fun _ => ?_)
    fun _ => ⟨hbinding, by simpa using hopen', fun hmem => absurd hmem (by simp [preparingPhases])⟩))
  exact wp_within (wp_conclude (by simpa using hopen') hbinding (hlate (by simp [preparingPhases]))
    ⟨hjournal, htarget'⟩)

/-! ### The call -/

theorem wp_start {options : PolicyApplyOptions}
    (hopen : (f₀.workspace b.transactionId).receipt = none)
    (hjournal : (f₀.workspace b.transactionId).journal = none) :
    (start options b policy).wp policyMachine (Moves b policy f₀) (fun _ _ => True)
      (fun _ _ => True) f₀ := by
  have hsame := same_of_fresh hjournal
  have hfirst : Recordable b f₀ f₀ .lockAcquired := by
    refine ⟨hsame, fun _ => ⟨hjournal, rfl, fun j hj => ?_⟩⟩
    rw [hjournal] at hj
    cases hj
  refine Program.wp_bind.mpr (wp_read rfl nofun (fun _ _ h => h.2) fun _ _ => ?_)
  refine Program.wp_bind.mpr (wp_ensure (fun _ => ?_) fun _ => trivial)
  refine Program.wp_bind.mpr (wp_read rfl nofun (fun _ _ h => h.2) fun prior hprior => ?_)
  obtain rfl := hprior.1
  refine Program.wp_bind.mpr (wp_read rfl nofun (fun _ _ h => h) fun startedAt _ => ?_)
  refine Program.wp_bind.mpr (wp_read rfl nofun (fun _ _ h => h) fun _ _ => ?_)
  refine Program.wp_bind.mpr (wp_saveJournal hopen rfl hfirst fun updatedAt => ?_)
  have hopen' : ∀ j, ((f₀.update b.transactionId fun w => { w with journal := some j }).workspace
      b.transactionId).receipt = none := by
    intro j
    rw [Files.update_workspace]
    exact hopen
  split
  · refine wp_conclude (hopen' _) rfl (.of_not_mem hsame (by simp [preparingPhases])) ⟨rfl, fun j hj => ?_⟩
    rw [hjournal] at hj
    cases hj
  · next hexpected =>
      have hexpected := not_not.mp hexpected
      refine Program.wp_handle.mpr (Program.wp_mono (wp_promotePolicy hjournal hexpected
        (f := f₀.update b.transactionId fun w => { w with journal := some _ }) rfl (hopen' _)
        (by rw [Files.update_workspace]) rfl (by simp [preparingPhases]))
        (fun _ _ h => h) ?_)
      exact fun failure f habandoned => wp_abandon hjournal hexpected habandoned

/-- The target is not where the receipt of the transaction says it is. -/
def Drifted (b : Binding) (f : Files) (r : Receipt) : Prop :=
  r.outcome = .applied ∧ targetDigest f.target ≠ b.materializedSha256 ∨
    r.outcome ∈ [ReceiptOutcome.rolledBack, .recoveredRolledBack] ∧
      targetDigest f.target ≠ b.expectedTargetSha256

/-- A receipt agrees with its own digest and with the journal it was drawn from. -/
def Evidenced (f : Files) (r : Receipt) : Prop :=
  r.receiptSha256 = r.bodySha256 ∧
    ∃ j, (f.workspace r.binding.transactionId).journal = some j ∧ r.journalSha256 = j.fileSha256

/-- The path of a transaction that has its receipt changes nothing and returns the receipt, unless the
binding or the evidence is another one or the target has drifted. -/
theorem wp_replay {r : Receipt} :
    (replay b r).wp policyMachine (fun s op t => op.writesTarget = false ∧ t = s)
      (fun r' _ => r' = r ∧ r.binding = b)
      (fun _ _ => r.binding = b → Evidenced f r → Drifted b f r) f := by
  refine Program.wp_bind.mpr (wp_ensure (fun hsame => ?_) fun hsame hbinding => ?_)
  case refine_2 => simp [hbinding] at hsame
  have hbinding : r.binding = b := by simpa using hsame
  refine Program.wp_bind.mpr (wp_ensure (fun _ => ?_) fun hbody _ hevidence => ?_)
  case refine_2 => simp [hevidence.1] at hbody
  refine Program.wp_bind.mpr (wp_look ⟨rfl, rfl⟩ nofun (fun _ _ h => h.2) fun stored hstored => ?_)
  obtain rfl := hstored.1
  refine Program.wp_bind.mpr (wp_ensure (fun _ => ?_) fun hjournal _ hevidence => ?_)
  case refine_2 =>
    obtain ⟨j, hj, hdigest⟩ := hevidence.2
    rw [hbinding] at hj
    simp [hj, hdigest] at hjournal
  dsimp only
  by_cases happlied : r.outcome = .applied
  · rw [if_pos happlied]
    refine Program.wp_bind.mpr (wp_lookAtTarget ⟨rfl, rfl⟩ ?_)
    refine Program.wp_bind.mpr (wp_ensure (fun _ => ?_) fun hdrift _ _ =>
      .inl ⟨happlied, by simpa using hdrift⟩)
    simp [happlied, hbinding]
  rw [if_neg happlied]
  split
  · next hout =>
      refine Program.wp_bind.mpr (wp_lookAtTarget ⟨rfl, rfl⟩ ?_)
      exact Program.wp_bind.mpr (wp_ensure (fun _ => ⟨rfl, hbinding⟩) fun hdrift _ _ =>
        .inr ⟨by simpa using hout, by simpa using hdrift⟩)
  · exact ⟨rfl, hbinding⟩

/-- **The part under the lock.** -/
theorem wp_applyLocked {options : PolicyApplyOptions} :
    (applyLocked options b policy).wp policyMachine (Moves b policy f₀) (fun _ _ => True)
      (fun _ _ => True) f₀ := by
  refine Program.wp_bind.mpr (wp_read rfl nofun (fun _ _ h => h.2) fun receipt hreceipt => ?_)
  cases receipt with
  | some r =>
      refine Program.wp_mono (Program.wp_guarantee wp_replay ?_) (fun _ _ _ => trivial)
        fun _ _ _ => trivial
      rintro s op t ⟨hop, rfl⟩
      exact .quiet hop rfl rfl
  | none =>
      refine Program.wp_bind.mpr (wp_read rfl nofun (fun _ _ h => h.2) fun stored hstored => ?_)
      cases stored with
      | some j => exact wp_recover hreceipt.1.symm hstored.1.symm
      | none => exact wp_start hreceipt.1.symm hstored.1.symm

/-- The part under the lock, of a transaction that has its receipt. -/
theorem wp_applyLocked_replay {options : PolicyApplyOptions} {r : Receipt}
    (hreceipt : (f.workspace b.transactionId).receipt = some r) :
    (applyLocked options b policy).wp policyMachine (fun s op t => op.writesTarget = false ∧ t = s)
      (fun r' _ => r' = r ∧ r.binding = b)
      (fun _ _ => r.binding = b → Evidenced f r → Drifted b f r) f := by
  refine Program.wp_bind.mpr (wp_look ⟨rfl, rfl⟩ nofun (fun _ _ h => h.2) fun stored hstored => ?_)
  obtain rfl : stored = some r := hstored.1.trans hreceipt
  exact wp_replay

end Operations

end Moves

end CodingOS.Routing
