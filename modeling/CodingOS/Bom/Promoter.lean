import CodingOS.Routing.Materializer

/-!
# The promoter of the worker-runtime bill of materials

`apply_bom` of `promote_worker_runtime_bom.py`: one compare-and-swap of the live bill of materials, with
a journal, a backup of what it replaces, a staged copy of what it installs, and a receipt.

The function is a program over the files of one target and its state directory, as the policy
materializer is.  What the validation of the candidate returns is an argument; that it still returns the
same under the lock, and accepts the promoted target, are questions with any answer.
-/

namespace CodingOS.Bom

open CodingOS.Python Systems
open CodingOS.Routing (canonicalText optionalValue missing targetDigest isSha256 isIdentifier)

/-! ### Errors -/

inductive BomErrorKind
  | promotion | validation | precondition | replay | recovery | injected | os
deriving DecidableEq

/-- `type(exc).__name__`. -/
def BomErrorKind.name : BomErrorKind → String
  | promotion => "BomPromotionError"
  | validation => "BomValidationError"
  | precondition => "PreconditionError"
  | replay => "ReplayError"
  | recovery => "RecoveryError"
  | injected => "InjectedFailure"
  | os => "OSError"

structure BomError where
  kind : BomErrorKind
  message : String
deriving DecidableEq

/-- `f"{type(exc).__name__}: {exc}"`. -/
def BomError.text (e : BomError) : String := e.kind.name ++ ": " ++ e.message

/-! ### Documents -/

/-- What `_validate_candidate` returns: the digest is that of the bytes. -/
structure Verified [FileDigest] where
  bomBytes : List UInt8
  bomSha256 : String
  configSha256 : String
  schemaSha256 : String
  digest_eq : bomSha256 = FileDigest.sha256 bomBytes

structure ApplyOptions where
  targetPath : String
  transactionId : String
  expectedTargetSha256 : String
  expectedCandidateSha256 : String
  faultInjection : Option String := none
deriving DecidableEq

/-- `_binding`: what a transaction identifier is bound to. -/
structure Binding where
  candidateSha256 : String
  configSha256 : String
  expectedTargetSha256 : String
  promoterSha256 : String
  schemaSha256 : String
  target : String
  transactionId : String
deriving DecidableEq

def ApplyOptions.binding [FileDigest] (options : ApplyOptions) (verified : Verified)
    (promoterSha256 : String) : Binding where
  candidateSha256 := verified.bomSha256
  configSha256 := verified.configSha256
  expectedTargetSha256 := options.expectedTargetSha256
  promoterSha256
  schemaSha256 := verified.schemaSha256
  target := options.targetPath
  transactionId := options.transactionId

inductive Phase
  | prepared | promoted | completed | rolledBack
deriving DecidableEq

def Phase.value : Phase → String
  | prepared => "prepared"
  | promoted => "promoted"
  | completed => "completed"
  | rolledBack => "rolled_back"

inductive ReceiptOutcome
  | completed | rolledBack
deriving DecidableEq

def ReceiptOutcome.value : ReceiptOutcome → String
  | completed => "completed"
  | rolledBack => "rolled_back"

structure Journal where
  binding : Binding
  error : Option String
  phase : Phase
  updatedAt : String
deriving DecidableEq

structure Receipt where
  binding : Binding
  completedAt : String
  error : Option String
  journalSha256 : String
  outcome : ReceiptOutcome
  receiptSha256 : String
deriving DecidableEq

def Binding.entries (b : Binding) : Mapping := [
  ("candidate_sha256", .str b.candidateSha256),
  ("config_sha256", .str b.configSha256),
  ("expected_target_sha256", .str b.expectedTargetSha256),
  ("promoter_sha256", .str b.promoterSha256),
  ("schema_sha256", .str b.schemaSha256),
  ("target", .str b.target),
  ("transaction_id", .str b.transactionId)]

section Documents

variable [Runtime]

def Journal.entries (j : Journal) : Mapping := j.binding.entries ++ [
  ("error", optionalValue j.error),
  ("phase", .str j.phase.value),
  ("schema_version", .str "capability-worker-runtime-bom-journal-v2"),
  ("updated_at", .str j.updatedAt)]

/-- `_sha256_file(journal_path)`. -/
def Journal.fileSha256 (j : Journal) : String := Runtime.sha256 (canonicalText j.entries)

/-- The receipt without its own digest. -/
def Receipt.body (r : Receipt) : Mapping := r.binding.entries ++ [
  ("completed_at", .str r.completedAt),
  ("error", optionalValue r.error),
  ("journal_sha256", .str r.journalSha256),
  ("outcome", .str r.outcome.value),
  ("schema_version", .str "capability-worker-runtime-bom-receipt-v2")]

def receiptDomain : String :=
  "CAPABILITY-WORKER-RUNTIME-BOM-RECEIPT-v2" ++ String.singleton (Char.ofNat 0)

/-- The digest `_receipt` puts in a receipt and `_verify_receipt` computes again. -/
def Receipt.bodySha256 (r : Receipt) : String := Runtime.sha256 (receiptDomain ++ canonicalText r.body)

/-- The text of the receipt's file. -/
def Receipt.text (r : Receipt) : String :=
  canonicalText (r.body ++ [("receipt_sha256", .str r.receiptSha256)])

end Documents

/-! ### The files -/

/-- The workspace of one transaction: its directory, the files in it, and anything else an interrupted
write left there. -/
structure Workspace where
  root : Bool := false
  journal : Option Journal := none
  receipt : Option Receipt := none
  backup : Option (List UInt8) := none
  stage : Option (List UInt8) := none
  leftover : Bool := false
deriving DecidableEq

/-- The target and the workspaces of its state directory. -/
structure Files where
  target : Option (List UInt8)
  workspace : String → Workspace

def Files.update (f : Files) (id : String) (change : Workspace → Workspace) : Files :=
  { f with workspace := Function.update f.workspace id (change (f.workspace id)) }

/-- What the program asks of the files, the clock and the validation. -/
inductive BomOp
  | now
  | revalidate
  | validateTarget
  | readTarget
  | restoreTarget (payload : List UInt8)
  | unlinkTarget
  | promote (id : String)
  | occupied (id : String)
  | makeRoot (id : String)
  | readReceipt (id : String)
  | createReceipt (id : String) (receipt : Receipt)
  | readJournal (id : String)
  | saveJournal (id : String) (journal : Journal)
  | readBackup (id : String)
  | createBackup (id : String) (payload : List UInt8)
  | readStage (id : String)
  | createStage (id : String) (payload : List UInt8)

/-- The answers.  The two validations answer the error they raise, if any; the operations that create or
move a file answer whether they found it absent or present. -/
abbrev BomAnswer : BomOp → Type
  | .now => String
  | .revalidate | .validateTarget => Option BomError
  | .occupied _ | .makeRoot _ | .promote _ | .createReceipt _ _ | .createBackup _ _
  | .createStage _ _ => Bool
  | .readTarget | .readBackup _ | .readStage _ => Option (List UInt8)
  | .readReceipt _ => Option Receipt
  | .readJournal _ => Option Journal
  | .restoreTarget _ | .unlinkTarget | .saveJournal _ _ => Unit

/-- `any(transaction_root.iterdir())`. -/
def Workspace.occupied (w : Workspace) : Bool :=
  w.journal.isSome || w.receipt.isSome || w.backup.isSome || w.stage.isSome || w.leftover

/-- The operations.  A crash inside a write of the workspace leaves a temporary file there. -/
def bomMachine : Machine BomAnswer Files where
  step
    | .now, f, _, f' | .revalidate, f, _, f' | .validateTarget, f, _, f' => f' = f
    | .readTarget, f, answer, f' => answer = f.target ∧ f' = f
    | .restoreTarget payload, f, _, f' => f' = { f with target := some payload }
    | .unlinkTarget, f, _, f' => f' = { f with target := none }
    | .promote id, f, answer, f' => answer = (f.workspace id).stage.isSome ∧
        f' = if (f.workspace id).stage.isSome then
          { f.update id fun w => { w with stage := none } with target := (f.workspace id).stage }
          else f
    | .occupied id, f, answer, f' => answer = (f.workspace id).occupied ∧ f' = f
    | .makeRoot id, f, answer, f' => answer = !(f.workspace id).root ∧
        f' = f.update id fun w => { w with root := true }
    | .readReceipt id, f, answer, f' => answer = (f.workspace id).receipt ∧ f' = f
    | .createReceipt id receipt, f, answer, f' => answer = (f.workspace id).receipt.isNone ∧
        f' = if (f.workspace id).receipt.isNone then
          f.update id fun w => { w with receipt := some receipt }
          else f
    | .readJournal id, f, answer, f' => answer = (f.workspace id).journal ∧ f' = f
    | .saveJournal id journal, f, _, f' => f' = f.update id fun w => { w with journal := some journal }
    | .readBackup id, f, answer, f' => answer = (f.workspace id).backup ∧ f' = f
    | .createBackup id payload, f, answer, f' => answer = (f.workspace id).backup.isNone ∧
        f' = if (f.workspace id).backup.isNone then
          f.update id fun w => { w with backup := some payload }
          else f
    | .readStage id, f, answer, f' => answer = (f.workspace id).stage ∧ f' = f
    | .createStage id payload, f, answer, f' => answer = (f.workspace id).stage.isNone ∧
        f' = if (f.workspace id).stage.isNone then
          f.update id fun w => { w with stage := some payload }
          else f
  torn
    | .saveJournal id _, f, f' | .createReceipt id _, f, f' | .createBackup id _, f, f'
    | .createStage id _, f, f' => f' = f.update id fun w => { w with leftover := true }
    | _, _, _ => False

/-! ### The program -/

section Program

variable [Runtime] [FileDigest]

abbrev Task (α : Type) := Program BomAnswer BomError α

def ask (op : BomOp) : Task (BomAnswer op) := Program.perform op

/-- What the handler of the `try` statement finds: the journal as it then is, whether the target was
promoted, and the exception. -/
structure Failure where
  journal : Journal
  promoted : Bool
  exc : BomError

/-- The body of the `try` statement. -/
abbrev Attempt (α : Type) := Program BomAnswer Failure α

def raise {α : Type} (kind : BomErrorKind) (message : String) : Task α := .raise ⟨kind, message⟩

/-- `if not condition: raise`. -/
def ensure (condition : Bool) (kind : BomErrorKind) (message : String) : Task Unit :=
  if condition then pure () else raise kind message

/-- A step of the `try` statement. -/
def Task.within {α : Type} (p : Task α) (journal : Journal) (promoted : Bool) : Attempt α :=
  p.handle fun exc => .raise ⟨journal, promoted, exc⟩

/-- `_target_state(target)["sha256"]`. -/
def targetSha256 : Task String := do return targetDigest (← ask .readTarget)

/-- `_save_journal`. -/
def saveJournal (journal : Journal) : Task Journal := do
  let updatedAt ← ask .now
  let journal := { journal with updatedAt }
  ask (.saveJournal journal.binding.transactionId journal)
  return journal

/-- `_receipt`. -/
def receiptOf (journal : Journal) (outcome : ReceiptOutcome) : Task Receipt := do
  match ← ask (.readJournal journal.binding.transactionId) with
  | none => raise .os "journal.json"
  | some stored =>
      let receipt : Receipt := {
        binding := journal.binding
        completedAt := journal.updatedAt
        error := journal.error
        journalSha256 := stored.fileSha256
        outcome
        receiptSha256 := "" }
      return { receipt with receiptSha256 := receipt.bodySha256 }

/-- `_write_once`, given how its file is read and created. -/
def writeOnce {α : Type} (read : Task (Option α)) (create : Task Bool) (same : α → Bool) : Task Unit := do
  let compare : α → Task Unit := fun old =>
    ensure (same old) .replay "immutable BOM transaction artifact changed"
  match ← read with
  | some old => compare old
  | none =>
      if ← create then return ()
      else
        match ← read with
        | some old => compare old
        | none => raise .os "file"

/-- `_write_once`, of a receipt. -/
def writeReceipt (receipt : Receipt) : Task Unit :=
  let id := receipt.binding.transactionId
  writeOnce (ask (.readReceipt id)) (ask (.createReceipt id receipt)) fun old => old.text == receipt.text

/-- The receipt is drawn from the journal and written. -/
def finish (journal : Journal) (outcome : ReceiptOutcome) : Task Receipt := do
  let receipt ← receiptOf journal outcome
  writeReceipt receipt
  return receipt

/-- `_rollback`. -/
def rollback (journal : Journal) : Task Unit := do
  let current ← targetSha256
  if current = journal.binding.expectedTargetSha256 then return ()
  else
    ensure (current == journal.binding.candidateSha256) .recovery
      "rollback refused to overwrite external target drift"
    if journal.binding.expectedTargetSha256 = missing then ask .unlinkTarget
    else
      match ← ask (.readBackup journal.binding.transactionId) with
      | none => raise .recovery "worker-runtime BOM rollback backup is unavailable"
      | some payload =>
          ensure (FileDigest.sha256 payload == journal.binding.expectedTargetSha256) .recovery
            "worker-runtime BOM rollback backup is unavailable"
          ask (.restoreTarget payload)
          let restored ← targetSha256
          ensure (restored == journal.binding.expectedTargetSha256) .recovery
            "worker-runtime BOM rollback did not restore the baseline"

/-- `_fault`. -/
def fault (name : String) (configured : Option String) : Task Unit :=
  ensure (configured != some name) .injected ("injected worker-runtime BOM failure at " ++ name)

/-- The path of a transaction that has its receipt. -/
def replay (binding : Binding) (receipt : Receipt) : Task Receipt := do
  ensure (receipt.receiptSha256 == receipt.bodySha256) .replay
    "worker-runtime BOM receipt digest is invalid"
  match ← ask (.readJournal binding.transactionId) with
  | none => raise .os "journal.json"
  | some stored =>
      ensure (receipt.journalSha256 == stored.fileSha256) .replay
        "worker-runtime BOM receipt no longer matches its journal"
      ensure (receipt.binding == binding) .replay "worker-runtime BOM transaction is rebound"
      ensure (receipt.outcome == .completed) .replay "worker-runtime BOM transaction did not complete"
      let current ← targetSha256
      ensure (current == binding.candidateSha256) .replay "completed BOM transaction target changed"
      return receipt

/-- The path of a transaction that was interrupted. -/
def recover (binding : Binding) : Task Receipt := do
  match ← ask (.readJournal binding.transactionId) with
  | none => raise .replay "interrupted BOM transaction has no journal"
  | some journal =>
      ensure (journal.binding == binding) .replay "interrupted BOM transaction is rebound"
      rollback journal
      let journal ← saveJournal { journal with
        phase := .rolledBack
        error := some "interrupted transaction recovered" }
      let _ ← finish journal .rolledBack
      raise .recovery "interrupted worker-runtime BOM transaction rolled back"

/-- The journal enters a phase. -/
def enter (journal : Journal) (phase : Phase) (promoted : Bool) : Attempt Journal := do
  let journal := { journal with phase }
  (saveJournal journal).within journal promoted

/-- The check of the promoted target. -/
def checkPromoted (binding : Binding) : Task Unit := do
  let current ← targetSha256
  ensure (current == binding.candidateSha256) .precondition "promoted worker-runtime BOM bytes changed"
  match ← ask .validateTarget with
  | some e => .raise e
  | none => return ()

/-- The body of the `try` statement. -/
def promoteBom (options : ApplyOptions) (journal : Journal) : Attempt Receipt := do
  let id := journal.binding.transactionId
  (do
    fault "before_promote" options.faultInjection
    let moved ← ask (.promote id)
    ensure moved .os "stage/worker-runtime-bom.json").within journal false
  let journal ← enter journal .promoted true
  (do
    fault "after_promote" options.faultInjection
    checkPromoted journal.binding).within journal true
  let journal ← enter journal .completed true
  (finish journal .completed).within journal true

/-- The `except` clause. -/
def abandon (failure : Failure) : Task Receipt := do
  let journal := { failure.journal with error := some failure.exc.text }
  if failure.promoted then rollback journal
  let journal ← saveJournal { journal with phase := .rolledBack }
  let _ ← finish journal .rolledBack
  .raise failure.exc

/-- The path of a transaction that is new. -/
def start (options : ApplyOptions) (binding : Binding) (bomBytes : List UInt8) : Task Receipt := do
  let id := binding.transactionId
  let current ← targetSha256
  ensure (current == binding.expectedTargetSha256) .precondition
    "live worker-runtime BOM precondition changed"
  let created ← ask (.makeRoot id)
  ensure created .os "transaction root exists"
  if binding.expectedTargetSha256 ≠ missing then
    match ← ask .readTarget with
    | none => raise .os "target"
    | some payload =>
        writeOnce (ask (.readBackup id)) (ask (.createBackup id payload)) (· == payload)
  writeOnce (ask (.readStage id)) (ask (.createStage id bomBytes)) (· == bomBytes)
  let journal ← saveJournal { binding, error := none, phase := .prepared, updatedAt := "" }
  (promoteBom options journal).handle abandon

/-- The part of `apply_bom` under the lock. -/
def applyLocked (options : ApplyOptions) (binding : Binding) (bomBytes : List UInt8) : Task Receipt := do
  match ← ask .revalidate with
  | some e => .raise e
  | none =>
      match ← ask (.readReceipt binding.transactionId) with
      | some receipt => replay binding receipt
      | none =>
          if ← ask (.occupied binding.transactionId) then recover binding
          else start options binding bomBytes

/-! ### The call -/

/-- A digest in the options. -/
def isDigest (digest : String) : Bool := digest == missing || isSha256 digest

/-- `apply_bom`, given what the validation of the candidate returns or raises and the digest of the
promoter's own file. -/
def applyBom (options : ApplyOptions) (verified : Except BomError Verified)
    (promoterSha256 : String) : Task Receipt := do
  ensure (isIdentifier options.transactionId) .promotion "transaction identifier is invalid"
  ensure (isDigest options.expectedTargetSha256) .promotion "expected target digest is invalid"
  ensure (isDigest options.expectedCandidateSha256) .promotion "expected candidate digest is invalid"
  let v ← Program.ofExcept verified
  ensure (v.bomSha256 == options.expectedCandidateSha256) .precondition
    "reviewed worker-runtime BOM candidate changed"
  applyLocked options (options.binding v promoterSha256) v.bomBytes

end Program

end CodingOS.Bom
