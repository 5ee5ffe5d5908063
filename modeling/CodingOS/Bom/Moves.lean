import CodingOS.Bom.Promoter
import CodingOS.Systems.Session

/-!
# What one call does to the files

`Moves` says once, for the whole program, what a call can do to the target, the journals, the receipts
and the backups, with everything the program has checked when it does it.
-/

namespace CodingOS.Bom

open CodingOS.Python Systems
open CodingOS.Routing (missing targetDigest)

/-! ### The records of the files -/

/-- The journal, the receipt and the backup of every transaction. -/
def Files.records (f : Files) (id : String) : Option Journal × Option Receipt × Option (List UInt8) :=
  ((f.workspace id).journal, (f.workspace id).receipt, (f.workspace id).backup)

variable {f f' : Files} {id : String}

@[simp] theorem Files.update_target (change : Workspace → Workspace) :
    (f.update id change).target = f.target := rfl

@[simp] theorem Files.update_workspace (change : Workspace → Workspace) :
    (f.update id change).workspace id = change (f.workspace id) := by
  simp [Files.update]

/-- A change of one workspace that keeps its records keeps all of them. -/
theorem Files.update_records {change : Workspace → Workspace}
    (hjournal : (change (f.workspace id)).journal = (f.workspace id).journal)
    (hreceipt : (change (f.workspace id)).receipt = (f.workspace id).receipt)
    (hbackup : (change (f.workspace id)).backup = (f.workspace id).backup) :
    (f.update id change).records = f.records := by
  funext k
  by_cases hk : k = id
  · subst hk
    simp [Files.records, Files.update, hjournal, hreceipt, hbackup]
  · simp [Files.records, Files.update, hk]

theorem Files.records_journal (h : f'.records = f.records) :
    (f'.workspace id).journal = (f.workspace id).journal := congrArg Prod.fst (congrFun h id)

theorem Files.records_receipt (h : f'.records = f.records) :
    (f'.workspace id).receipt = (f.workspace id).receipt :=
  congrArg (fun r => r.2.1) (congrFun h id)

theorem Files.records_backup (h : f'.records = f.records) :
    (f'.workspace id).backup = (f.workspace id).backup :=
  congrArg (fun r => r.2.2) (congrFun h id)

/-! ### The moves -/

/-- The operations that write or delete the target. -/
def BomOp.writesTarget : BomOp → Bool
  | .restoreTarget _ | .unlinkTarget | .promote _ => true
  | _ => false

/-- A call finds its transaction without a receipt, under its own binding: it will roll it back. -/
structure Interrupted (b : Binding) (f₀ : Files) (j : Journal) : Prop where
  receipt : (f₀.workspace b.transactionId).receipt = none
  journal : (f₀.workspace b.transactionId).journal = some j
  binding : j.binding = b

section Moves

variable [FileDigest]

/-- A call opens its transaction and finds the target as it expects it. -/
structure Opens (b : Binding) (f₀ : Files) : Prop where
  journal : (f₀.workspace b.transactionId).journal = none
  expected : targetDigest f₀.target = b.expectedTargetSha256

/-- An operation that puts the expected bytes back: bytes that were missing are deleted, others are
written from their backup. -/
inductive Restores (b : Binding) (f : Files) : BomOp → Files → Prop
  | unlink : b.expectedTargetSha256 = missing → Restores b f .unlinkTarget { f with target := none }
  | rewrite {payload : List UInt8} : (f.workspace b.transactionId).backup = some payload →
      FileDigest.sha256 payload = b.expectedTargetSha256 →
      Restores b f (.restoreTarget payload) { f with target := some payload }

/-- The rollback can put the expected bytes back. -/
def Restorable (b : Binding) (f : Files) : Prop :=
  b.expectedTargetSha256 = missing ∨
    ∃ payload, (f.workspace b.transactionId).backup = some payload ∧
      FileDigest.sha256 payload = b.expectedTargetSha256

theorem Restores.restorable {b : Binding} {op : BomOp} (h : Restores b f op f') : Restorable b f := by
  cases h with
  | unlink hmissing => exact .inl hmissing
  | rewrite hbackup hdigest => exact .inr ⟨_, hbackup, hdigest⟩

theorem Restores.digest {b : Binding} {op : BomOp} (h : Restores b f op f') :
    targetDigest f'.target = b.expectedTargetSha256 := by
  cases h with
  | unlink hmissing => exact hmissing.symm
  | rewrite _ hdigest => exact hdigest

theorem Restores.writesTarget {b : Binding} {op : BomOp} (h : Restores b f op f') :
    op.writesTarget = true := by
  cases h <;> rfl

theorem Restores.records {b : Binding} {op : BomOp} (h : Restores b f op f') :
    f'.records = f.records := by
  cases h <;> rfl

/-- The moves of a call under the binding `b` that found the files `f₀`. -/
inductive Moves (b : Binding) (bytes : List UInt8) (f₀ : Files) : Files → BomOp → Files → Prop
  | quiet {f f' : Files} {op : BomOp} : op.writesTarget = false → f'.target = f.target →
      f'.records = f.records → Moves b bytes f₀ f op f'
  | journal {f : Files} {j : Journal} : (f.workspace b.transactionId).receipt = none →
      j.binding = b → Moves b bytes f₀ f (.saveJournal b.transactionId j)
        (f.update b.transactionId fun w => { w with journal := some j })
  | backup {f : Files} {payload : List UInt8} : Opens b f₀ → f.target = f₀.target →
      Moves b bytes f₀ f (.createBackup b.transactionId payload)
        (f.update b.transactionId fun w => { w with backup := some payload })
  | promote {f f' : Files} {j : Journal} : Opens b f₀ → f.target = f₀.target →
      (f.workspace b.transactionId).receipt = none →
      (f.workspace b.transactionId).journal = some j → j.binding = b → j.phase = .prepared →
      f'.target = some bytes → f'.records = f.records →
      Moves b bytes f₀ f (.promote b.transactionId) f'
  | restore {f f' : Files} {op : BomOp} : Restores b f op f' →
      targetDigest f.target = b.candidateSha256 → targetDigest f.target ≠ b.expectedTargetSha256 →
      (f.workspace b.transactionId).receipt = none →
      Opens b f₀ ∨ (∃ j, Interrupted b f₀ j ∧ f = f₀) → Moves b bytes f₀ f op f'
  | receipt {f : Files} {r : Receipt} : (f.workspace b.transactionId).receipt = none →
      r.binding = b → (r.outcome = .completed → f.target = some bytes) →
      Moves b bytes f₀ f (.createReceipt b.transactionId r)
        (f.update b.transactionId fun w => { w with receipt := some r })

/-! ### The operations -/

section Operations

variable {b : Binding} {bytes : List UInt8} {f₀ f : Files} {E : BomError → Files → Prop}

omit [FileDigest] in
theorem wp_ensure {G : Files → BomOp → Files → Prop} {condition : Bool} {kind : BomErrorKind}
    {message : String} {Q : Unit → Files → Prop} (hpass : condition = true → Q () f)
    (hfail : condition = false → E ⟨kind, message⟩ f) :
    (ensure condition kind message).wp bomMachine G Q E f := by
  cases condition with
  | true => exact hpass rfl
  | false => exact hfail rfl

/-- An operation that changes nothing, whatever it answers. -/
theorem wp_read {op : BomOp} {Q : BomAnswer op → Files → Prop} (hop : op.writesTarget = false)
    (htorn : ∀ t, ¬ bomMachine.torn op f t) (hstep : ∀ a t, bomMachine.step op f a t → t = f)
    (h : ∀ a, bomMachine.step op f a f → Q a f) :
    (ask op).wp bomMachine (Moves b bytes f₀) Q E f := by
  refine ⟨fun t ht => absurd ht (htorn t), fun a t ht => ?_⟩
  obtain rfl := hstep a t ht
  exact ⟨.quiet hop rfl rfl, h a ht⟩

theorem wp_targetSha256 {Q : String → Files → Prop} (h : Q (targetDigest f.target) f) :
    targetSha256.wp bomMachine (Moves b bytes f₀) Q E f := by
  refine Program.wp_bind.mpr (wp_read rfl nofun (fun _ _ h => h.2) fun a ha => ?_)
  obtain rfl := ha.1
  exact h

theorem wp_saveJournal {j : Journal} {Q : Journal → Files → Prop}
    (hopen : (f.workspace b.transactionId).receipt = none) (hbinding : j.binding = b)
    (h : ∀ updatedAt, Q { j with updatedAt } (f.update b.transactionId fun w =>
      { w with journal := some { j with updatedAt } })) :
    (saveJournal j).wp bomMachine (Moves b bytes f₀) Q E f := by
  refine Program.wp_bind.mpr (wp_read rfl nofun (fun _ _ h => h) fun updatedAt _ => ?_)
  refine Program.wp_bind.mpr ⟨fun t ht => ?_, fun _ t ht => ?_⟩
  · obtain rfl := ht
    exact .quiet rfl rfl (Files.update_records rfl rfl rfl)
  · obtain rfl := ht
    subst hbinding
    exact ⟨.journal hopen rfl, h updatedAt⟩

/-- A file that is absent is created at once. -/
theorem wp_writeOnce {α : Type} {read : Task (Option α)} {create : Task Bool} {same : α → Bool}
    {Q : Unit → Files → Prop}
    (hread : ∀ {Q : Option α → Files → Prop}, Q none f → read.wp bomMachine (Moves b bytes f₀) Q E f)
    (hcreate : create.wp bomMachine (Moves b bytes f₀) (fun created t => created = true ∧ Q () t) E f) :
    (writeOnce read create same).wp bomMachine (Moves b bytes f₀) Q E f := by
  rw [writeOnce, Program.wp_bind]
  refine hread ?_
  rw [Program.wp_bind]
  refine Program.wp_mono hcreate (fun created t h => ?_) fun _ _ h => h
  rw [h.1, if_pos rfl]
  exact h.2

variable [Runtime]

/-- The receipt of an open transaction is written at once. -/
theorem wp_finish {j : Journal} {outcome : ReceiptOutcome} {Q : Receipt → Files → Prop}
    (hopen : (f.workspace b.transactionId).receipt = none) (hbinding : j.binding = b)
    (hstored : (f.workspace b.transactionId).journal = some j)
    (htruthful : outcome = .completed → f.target = some bytes) (h : ∀ r t, Q r t) :
    (finish j outcome).wp bomMachine (Moves b bytes f₀) Q E f := by
  subst hbinding
  rw [finish, Program.wp_bind, receiptOf, Program.wp_bind]
  refine wp_read rfl nofun (fun _ _ h => h.2) fun stored ha => ?_
  obtain rfl : stored = some j := ha.1.trans hstored
  dsimp only
  rw [Program.wp_pure, Program.wp_bind, writeReceipt]
  refine wp_writeOnce (fun hq => wp_read rfl nofun (fun _ _ h => h.2) fun a ha => ?_)
    ⟨fun t ht => ?_, fun created t ht => ?_⟩
  · obtain rfl : a = none := ha.1.trans hopen
    exact hq
  · obtain rfl := ht
    exact .quiet rfl rfl (Files.update_records rfl rfl rfl)
  · obtain ⟨rfl, rfl⟩ := ht
    dsimp only
    rw [hopen]
    exact ⟨.receipt hopen rfl htruthful, rfl, h _ _⟩

omit [Runtime] in
/-- The rollback leaves the records alone. -/
theorem wp_rollback {j : Journal} {Q : Unit → Files → Prop} (hbinding : j.binding = b)
    (hopen : (f.workspace b.transactionId).receipt = none)
    (hsource : targetDigest f.target = b.candidateSha256 →
      targetDigest f.target ≠ b.expectedTargetSha256 →
      Opens b f₀ ∨ (∃ j, Interrupted b f₀ j ∧ f = f₀))
    (hdone : ∀ f' : Files, f'.records = f.records → Q () f') (hfail : ∀ exc f', E exc f') :
    (rollback j).wp bomMachine (Moves b bytes f₀) Q E f := by
  subst hbinding
  rw [rollback, Program.wp_bind]
  refine wp_targetSha256 ?_
  split
  · exact hdone f rfl
  · rename_i hne
    rw [Program.wp_bind]
    refine wp_ensure (fun hcandidate => ?_) fun _ => hfail _ _
    rw [beq_iff_eq] at hcandidate
    have hmove : ∀ {op : BomOp} {t : Files}, Restores j.binding f op t →
        Moves j.binding bytes f₀ f op t :=
      fun h => .restore h hcandidate hne hopen (hsource hcandidate hne)
    split
    · rename_i hmissing
      refine ⟨nofun, fun _ t ht => ?_⟩
      obtain rfl := ht
      exact ⟨hmove (.unlink hmissing), hdone _ rfl⟩
    · rw [Program.wp_bind]
      refine wp_read rfl nofun (fun _ _ h => h.2) fun backup hbackup => ?_
      cases backup with
      | none => exact hfail _ _
      | some payload =>
          dsimp only
          rw [Program.wp_bind]
          refine wp_ensure (fun hdigest => ?_) fun _ => hfail _ _
          rw [Program.wp_bind]
          refine ⟨nofun, fun _ t ht => ?_⟩
          obtain rfl := ht
          refine ⟨hmove (.rewrite hbackup.1.symm (beq_iff_eq.mp hdigest)), ?_⟩
          rw [Program.wp_ret, Program.wp_bind]
          exact wp_targetSha256 (wp_ensure (fun _ => hdone _ rfl) fun _ => hfail _ _)

/-- The journal is saved as rolled back, and its receipt is written. -/
theorem wp_conclude {α : Type} {j : Journal} {exc : BomError} {Q : α → Files → Prop}
    (hopen : (f.workspace b.transactionId).receipt = none) (hbinding : j.binding = b)
    (hfail : ∀ exc f', E exc f') :
    (do
      let journal ← saveJournal j
      let _ ← finish journal .rolledBack
      (.raise exc : Task α)).wp bomMachine (Moves b bytes f₀) Q E f := by
  rw [Program.wp_bind]
  refine wp_saveJournal hopen hbinding fun updatedAt => ?_
  rw [Program.wp_bind]
  refine wp_finish (by simpa using hopen) hbinding (by simp) (fun h => by cases h) fun _ _ => hfail _ _

/-- The path of a transaction that was interrupted. -/
theorem wp_recover (hopen : (f₀.workspace b.transactionId).receipt = none) :
    (recover b).wp bomMachine (Moves b bytes f₀) (fun _ _ => True) (fun _ _ => True) f₀ := by
  rw [recover, Program.wp_bind]
  refine wp_read rfl nofun (fun _ _ h => h.2) fun stored hstored => ?_
  cases stored with
  | none => trivial
  | some j =>
      dsimp only
      rw [Program.wp_bind]
      refine wp_ensure (fun hbinding => ?_) fun _ => trivial
      rw [beq_iff_eq] at hbinding
      rw [Program.wp_bind]
      refine wp_rollback hbinding hopen (fun _ _ => .inr ⟨j, ⟨hopen, hstored.1.symm, hbinding⟩, rfl⟩)
        (fun f' hrecords => ?_) fun _ _ => trivial
      exact wp_conclude ((Files.records_receipt hrecords).trans hopen) hbinding fun _ _ => trivial

/-- What the handler of the `try` statement relies on. -/
structure Abandoned (b : Binding) (f₀ : Files) (failure : Failure) (f : Files) : Prop where
  binding : failure.journal.binding = b
  receipt : (f.workspace b.transactionId).receipt = none

theorem wp_abandon {failure : Failure} (hopens : Opens b f₀) (h : Abandoned b f₀ failure f) :
    (abandon failure).wp bomMachine (Moves b bytes f₀) (fun _ _ => True) (fun _ _ => True) f := by
  have hrest : ∀ f' : Files, f'.records = f.records → ∀ j : Journal, j.binding = b → (do
      let journal ← saveJournal j
      let _ ← finish journal .rolledBack
      (.raise failure.exc : Task Receipt)).wp bomMachine (Moves b bytes f₀) (fun _ _ => True)
        (fun _ _ => True) f' := by
    intro f' hrecords j hj
    exact wp_conclude ((Files.records_receipt hrecords).trans h.receipt) hj fun _ _ => trivial
  rw [abandon]
  dsimp only
  split
  · rw [Program.wp_bind]
    exact wp_rollback h.binding h.receipt (fun _ _ => .inl hopens) (fun f' hrecords =>
      hrest f' hrecords _ h.binding) fun _ _ => trivial
  · exact hrest f rfl _ h.binding

/-! ### The `try` statement -/

omit [Runtime] in
theorem wp_within {α : Type} {p : Task α} {j : Journal} {promoted : Bool} {Q : α → Files → Prop}
    {E : Failure → Files → Prop}
    (h : p.wp bomMachine (Moves b bytes f₀) Q (fun exc f => E ⟨j, promoted, exc⟩ f) f) :
    (p.within j promoted).wp bomMachine (Moves b bytes f₀) Q E f :=
  Program.wp_handle.mpr h

omit [Runtime] in
theorem wp_fault {name : String} {configured : Option String} {Q : Unit → Files → Prop} (h : Q () f)
    (hfail : ∀ e, E e f) : (fault name configured).wp bomMachine (Moves b bytes f₀) Q E f :=
  wp_ensure (fun _ => h) fun _ => hfail _

/-- The body of the `try` statement, in a call that opened its transaction. -/
theorem wp_promoteBom {options : ApplyOptions} {j : Journal} (hopens : Opens b f₀)
    (htarget : f.target = f₀.target) (hopen : (f.workspace b.transactionId).receipt = none)
    (hstored : (f.workspace b.transactionId).journal = some j) (hbinding : j.binding = b)
    (hphase : j.phase = .prepared) (hstage : (f.workspace b.transactionId).stage = some bytes) :
    (promoteBom options j).wp bomMachine (Moves b bytes f₀) (fun _ _ => True) (Abandoned b f₀) f := by
  rw [promoteBom, hbinding, Program.wp_bind]
  refine wp_within ?_
  rw [Program.wp_bind]
  refine wp_fault ?_ fun _ => ⟨hbinding, hopen⟩
  rw [Program.wp_bind]
  refine ⟨nofun, fun moved t ht => ?_⟩
  obtain ⟨rfl, rfl⟩ := ht
  rw [hstage]
  have hrecords : (f.update b.transactionId fun w => { w with stage := none }).records = f.records :=
    Files.update_records rfl rfl rfl
  refine ⟨.promote hopens htarget hopen hstored hbinding hphase rfl hrecords, ?_⟩
  refine wp_ensure (fun _ => ?_) fun _ => ⟨hbinding, by simpa using hopen⟩
  rw [Program.wp_bind, enter]
  refine wp_within (wp_saveJournal (by simpa using hopen) hbinding fun updatedAt => ?_)
  rw [Program.wp_bind]
  refine wp_within ?_
  rw [Program.wp_bind]
  refine wp_fault ?_ fun _ => ⟨hbinding, by simpa using hopen⟩
  rw [checkPromoted, Program.wp_bind]
  refine wp_targetSha256 ?_
  rw [Program.wp_bind]
  refine wp_ensure (fun _ => ?_) fun _ => ⟨hbinding, by simpa using hopen⟩
  rw [Program.wp_bind]
  refine wp_read rfl nofun (fun _ _ h => h) fun problem _ => ?_
  cases problem with
  | some e => exact ⟨hbinding, by simpa using hopen⟩
  | none =>
      dsimp only
      rw [Program.wp_pure, Program.wp_bind, enter]
      refine wp_within (wp_saveJournal (by simpa using hopen) hbinding fun updatedAt => ?_)
      exact wp_within (wp_finish (by simpa using hopen) hbinding (by simp) (fun _ => rfl)
        fun _ _ => trivial)

/-! ### The call -/

/-- The files of a new transaction besides its journal. -/
theorem wp_start {options : ApplyOptions} (hopen : (f₀.workspace b.transactionId).receipt = none)
    (hempty : (f₀.workspace b.transactionId).occupied = false) :
    (start options b bytes).wp bomMachine (Moves b bytes f₀) (fun _ _ => True) (fun _ _ => True) f₀ := by
  have hnone : (f₀.workspace b.transactionId).journal = none ∧
      (f₀.workspace b.transactionId).backup = none ∧ (f₀.workspace b.transactionId).stage = none := by
    simp only [Workspace.occupied, Bool.or_eq_false_iff, Option.isSome_eq_false_iff,
      Option.isNone_iff_eq_none] at hempty
    exact ⟨hempty.1.1.1.1, hempty.1.1.2, hempty.1.2⟩
  rw [start, Program.wp_bind]
  refine wp_targetSha256 ?_
  rw [Program.wp_bind]
  refine wp_ensure (fun hexpected => ?_) fun _ => trivial
  have hopens : Opens b f₀ := ⟨hnone.1, beq_iff_eq.mp hexpected⟩
  rw [Program.wp_bind]
  refine ⟨nofun, fun created t ht => ?_⟩
  obtain ⟨rfl, rfl⟩ := ht
  refine ⟨.quiet rfl rfl (Files.update_records rfl rfl rfl), ?_⟩
  rw [Program.wp_ret, Program.wp_bind]
  refine wp_ensure (fun _ => ?_) fun _ => trivial
  -- the rest, once the backup is there if there is one
  have hrest : ∀ f : Files, f.target = f₀.target → (f.workspace b.transactionId).receipt = none →
      (f.workspace b.transactionId).stage = none → (do
        writeOnce (ask (.readStage b.transactionId)) (ask (.createStage b.transactionId bytes))
          (· == bytes)
        let journal ← saveJournal { binding := b, error := none, phase := .prepared, updatedAt := "" }
        (promoteBom options journal).handle abandon).wp bomMachine (Moves b bytes f₀)
        (fun _ _ => True) (fun _ _ => True) f := by
    intro f htarget hopen hstage
    rw [Program.wp_bind]
    refine wp_writeOnce (fun hq => wp_read rfl nofun (fun _ _ h => h.2) fun a ha => ?_)
      ⟨fun t ht => ?_, fun created t ht => ?_⟩
    · obtain rfl : a = none := ha.1.trans hstage
      exact hq
    · obtain rfl := ht
      exact .quiet rfl rfl (Files.update_records rfl rfl rfl)
    · obtain ⟨rfl, rfl⟩ := ht
      have hrecords : (f.update b.transactionId fun w => { w with stage := some bytes }).records =
          f.records := Files.update_records rfl rfl rfl
      rw [hstage]
      refine ⟨.quiet rfl rfl hrecords, rfl, ?_⟩
      rw [Program.wp_bind]
      refine wp_saveJournal (by simpa using hopen) rfl fun updatedAt => ?_
      rw [Program.wp_handle]
      exact Program.wp_mono (wp_promoteBom hopens (by simpa using htarget) (by simpa using hopen)
        (by simp) rfl rfl (by simp)) (fun _ _ h => h) fun _ _ h => wp_abandon hopens h
  dsimp only
  split
  · rw [Program.wp_bind]
    refine wp_read rfl nofun (fun _ _ h => h.2) fun prior _ => ?_
    cases prior with
    | none => trivial
    | some payload =>
        dsimp only
        rw [Program.wp_bind]
        refine wp_writeOnce (fun hq => wp_read rfl nofun (fun _ _ h => h.2) fun a ha => ?_)
          ⟨fun t ht => ?_, fun created t ht => ?_⟩
        · obtain rfl : a = none := ha.1.trans (by simpa using hnone.2.1)
          exact hq
        · obtain rfl := ht
          exact .quiet rfl rfl (Files.update_records rfl rfl rfl)
        · obtain ⟨rfl, rfl⟩ := ht
          rw [Files.update_workspace, hnone.2.1]
          refine ⟨.backup hopens rfl, rfl, hrest _ rfl ?_ ?_⟩
          · simpa using hopen
          · simpa using hnone.2.2
  · exact hrest _ rfl (by simpa using hopen) (by simpa using hnone.2.2)

/-- **The part under the lock.** -/
theorem wp_applyLocked {options : ApplyOptions} :
    (applyLocked options b bytes).wp bomMachine (Moves b bytes f₀) (fun _ _ => True)
      (fun _ _ => True) f₀ := by
  rw [applyLocked, Program.wp_bind]
  refine wp_read rfl nofun (fun _ _ h => h) fun problem _ => ?_
  cases problem with
  | some e => trivial
  | none =>
      dsimp only
      rw [Program.wp_bind]
      refine wp_read rfl nofun (fun _ _ h => h.2) fun receipt hreceipt => ?_
      cases receipt with
      | some r =>
          dsimp only
          rw [replay, Program.wp_bind]
          refine wp_ensure (fun _ => ?_) fun _ => trivial
          rw [Program.wp_bind]
          refine wp_read rfl nofun (fun _ _ h => h.2) fun stored _ => ?_
          cases stored with
          | none => trivial
          | some j =>
              dsimp only
              rw [Program.wp_bind]
              refine wp_ensure (fun _ => ?_) fun _ => trivial
              rw [Program.wp_bind]
              refine wp_ensure (fun _ => ?_) fun _ => trivial
              rw [Program.wp_bind]
              refine wp_ensure (fun _ => ?_) fun _ => trivial
              rw [Program.wp_bind]
              refine wp_targetSha256 ?_
              rw [Program.wp_bind]
              exact wp_ensure (fun _ => trivial) fun _ => trivial
      | none =>
          dsimp only
          rw [Program.wp_bind]
          refine wp_read rfl nofun (fun _ _ h => h.2) fun occupied hoccupied => ?_
          cases occupied with
          | true => exact wp_recover hreceipt.1.symm
          | false => exact wp_start hreceipt.1.symm hoccupied.1.symm

end Operations

end Moves

end CodingOS.Bom
