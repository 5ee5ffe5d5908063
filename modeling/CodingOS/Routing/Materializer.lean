import CodingOS.Python.Bytes
import CodingOS.Python.Json
import CodingOS.Systems.Program

/-!
# The policy materializer

`apply_materialized_policy` of `materialize_routing_policy.py`: one compare-and-swap of the live routing
policy, with a journal, a backup of what it replaces, a staged copy of what it installs, and a receipt.

The function is a program over the files of one target and its state directory.  A file is written by
renaming a finished temporary one over it, so the operations are atomic; a crash inside one can leave the
temporary file in the workspace.  The target is a regular file or missing: at anything else the program
raises before it writes.  A state file is kept as the document it holds.

What `materialize_policy` computes is an argument: the policy and the facts about its inputs.
-/

namespace CodingOS.Routing

open CodingOS.Python Systems

/-! ### Errors -/

inductive PolicyErrorKind
  | materialization | overlay | precondition | replay | recovery | injected | os
deriving DecidableEq

/-- `type(exc).__name__`. -/
def PolicyErrorKind.name : PolicyErrorKind → String
  | materialization => "PolicyMaterializationError"
  | overlay => "OverlayError"
  | precondition => "PreconditionError"
  | replay => "ReplayError"
  | recovery => "RecoveryError"
  | injected => "InjectedFailure"
  | os => "FileNotFoundError"

structure PolicyError where
  kind : PolicyErrorKind
  message : String
deriving DecidableEq

/-- `f"{type(exc).__name__}: {exc}"`. -/
def PolicyError.text (e : PolicyError) : String := e.kind.name ++ ": " ++ e.message

/-! ### Documents -/

def missing : String := "missing"

/-- The facts `materialize_policy` returns with the policy. -/
structure Facts where
  baseSha256 : String
  capabilityManifestSha256 : String
  materializedSha256 : String
  overlayId : String
  overlaySchemaSha256 : String
  overlaySha256 : String
  policySchemaSha256 : String
  policyValidatorSha256 : String
  materializationDigest : String
deriving DecidableEq

/-- What `materialize_policy` returns: the digest in the facts is that of the policy. -/
structure Materialized [FileDigest] where
  facts : Facts
  policyBytes : List UInt8
  digest_eq : facts.materializedSha256 = FileDigest.sha256 policyBytes

structure PolicyApplyOptions where
  targetPolicy : String
  transactionId : String
  expectedTargetSha256 : String
  expectedMaterializedSha256 : String
  expectedMaterializationDigest : String
  faultInjection : Option String := none
deriving DecidableEq

/-- `_binding`: what a transaction identifier is bound to. -/
structure Binding where
  baseSha256 : String
  capabilityManifestSha256 : String
  expectedTargetSha256 : String
  materializationDigest : String
  materializedSha256 : String
  overlayId : String
  overlaySchemaSha256 : String
  overlaySha256 : String
  policySchemaSha256 : String
  policyValidatorSha256 : String
  targetPolicy : String
  transactionId : String
deriving DecidableEq

def PolicyApplyOptions.binding (options : PolicyApplyOptions) (facts : Facts) : Binding where
  baseSha256 := facts.baseSha256
  capabilityManifestSha256 := facts.capabilityManifestSha256
  expectedTargetSha256 := options.expectedTargetSha256
  materializationDigest := facts.materializationDigest
  materializedSha256 := facts.materializedSha256
  overlayId := facts.overlayId
  overlaySchemaSha256 := facts.overlaySchemaSha256
  overlaySha256 := facts.overlaySha256
  policySchemaSha256 := facts.policySchemaSha256
  policyValidatorSha256 := facts.policyValidatorSha256
  targetPolicy := options.targetPolicy
  transactionId := options.transactionId

inductive Phase
  | lockAcquired | stageVerified | promotionPrepared | promoting | promoted | liveTargetVerified
  | completed | preconditionFailed | rollbackFailed | rolledBack
deriving DecidableEq

def Phase.value : Phase → String
  | lockAcquired => "LOCK_ACQUIRED"
  | stageVerified => "STAGE_VERIFIED"
  | promotionPrepared => "PROMOTION_PREPARED"
  | promoting => "PROMOTING"
  | promoted => "PROMOTED"
  | liveTargetVerified => "LIVE_TARGET_VERIFIED"
  | completed => "COMPLETED"
  | preconditionFailed => "PRECONDITION_FAILED"
  | rollbackFailed => "ROLLBACK_FAILED"
  | rolledBack => "ROLLED_BACK"

/-- `{"LOCK_ACQUIRED", "STAGE_VERIFIED", "PROMOTION_PREPARED"}`. -/
def preparingPhases : List Phase := [.lockAcquired, .stageVerified, .promotionPrepared]

inductive ReceiptOutcome
  | applied | rolledBack | recoveredRolledBack | preconditionFailed | rollbackFailed
deriving DecidableEq

def ReceiptOutcome.value : ReceiptOutcome → String
  | applied => "applied"
  | rolledBack => "rolled_back"
  | recoveredRolledBack => "recovered_rolled_back"
  | preconditionFailed => "precondition_failed"
  | rollbackFailed => "rollback_failed"

structure Journal where
  binding : Binding
  error : Option String
  phase : Phase
  priorSize : ℕ
  startedAt : String
  updatedAt : String
deriving DecidableEq

structure Receipt where
  binding : Binding
  completedAt : String
  error : Option String
  journalSha256 : String
  outcome : ReceiptOutcome
  receiptSha256 : String
deriving DecidableEq

def optionalValue : Option String → Value
  | some s => .str s
  | none => .null

def Binding.entries (b : Binding) : Mapping := [
  ("base_sha256", .str b.baseSha256),
  ("capability_manifest_sha256", .str b.capabilityManifestSha256),
  ("expected_target_sha256", .str b.expectedTargetSha256),
  ("materialization_digest", .str b.materializationDigest),
  ("materialized_sha256", .str b.materializedSha256),
  ("overlay_id", .str b.overlayId),
  ("overlay_schema_sha256", .str b.overlaySchemaSha256),
  ("overlay_sha256", .str b.overlaySha256),
  ("policy_schema_sha256", .str b.policySchemaSha256),
  ("policy_validator_sha256", .str b.policyValidatorSha256),
  ("target_policy", .str b.targetPolicy),
  ("transaction_id", .str b.transactionId)]

section Documents

variable [Runtime]

/-- `_canonical_json_bytes(value)`, as text. -/
def canonicalText (entries : Mapping) : String := canonicalJson (.mapping entries) ++ "\n"

def Journal.entries (j : Journal) : Mapping := j.binding.entries ++ [
  ("error", optionalValue j.error),
  ("phase", .str j.phase.value),
  ("prior_size", .int j.priorSize),
  ("schema_version", .str "catalogue-routing-policy-materialization-journal-v1"),
  ("started_at", .str j.startedAt),
  ("updated_at", .str j.updatedAt)]

/-- `_sha256_file(journal_path)`. -/
def Journal.fileSha256 (j : Journal) : String := Runtime.sha256 (canonicalText j.entries)

/-- The receipt without its own digest. -/
def Receipt.body (r : Receipt) : Mapping := r.binding.entries ++ [
  ("completed_at", .str r.completedAt),
  ("error", optionalValue r.error),
  ("journal_sha256", .str r.journalSha256),
  ("outcome", .str r.outcome.value),
  ("schema_version", .str "catalogue-routing-policy-materialization-receipt-v1")]

def receiptDomain : String :=
  "CATALOGUE-ROUTING-POLICY-MATERIALIZATION-RECEIPT-v1" ++ String.singleton (Char.ofNat 0)

/-- The digest `_receipt_from_journal` puts in a receipt and `_verify_receipt` computes again. -/
def Receipt.bodySha256 (r : Receipt) : String := Runtime.sha256 (receiptDomain ++ canonicalText r.body)

/-- The text of the receipt's file. -/
def Receipt.text (r : Receipt) : String :=
  canonicalText (r.body ++ [("receipt_sha256", .str r.receiptSha256)])

end Documents

/-! ### The files -/

/-- The workspace of one transaction; `leftover` is a temporary file an interrupted write left in it. -/
structure Workspace where
  journal : Option Journal := none
  receipt : Option Receipt := none
  backup : Option (List UInt8) := none
  stage : Option (List UInt8) := none
  leftover : Bool := false
deriving DecidableEq

/-- The target and the workspaces of its state directory. -/
structure Files where
  target : Option (List UInt8)
  workspace : String → Workspace

def Files.update (f : Files) (id : String) (change : Workspace → Workspace) : Files :=
  { f with workspace := Function.update f.workspace id (change (f.workspace id)) }

/-- What the program asks of the files, the clock and the validation module. -/
inductive PolicyOp
  | now
  | revalidate
  | validatorUnchanged
  | sameDevice (id : String)
  | readTarget
  | restoreTarget (id : String) (payload : List UInt8)
  | unlinkTarget (id : String)
  | promote (id : String)
  | occupied (id : String)
  | readReceipt (id : String)
  | createReceipt (id : String) (receipt : Receipt)
  | readJournal (id : String)
  | saveJournal (id : String) (journal : Journal)
  | readBackup (id : String)
  | writeBackup (id : String) (payload : List UInt8)
  | readStage (id : String)
  | writeStage (id : String) (payload : List UInt8)

/-- The answers.  `revalidate` answers the message of the error that the validation raises, if any, and
`createReceipt` and `promote` whether they found the file they need to be absent or present. -/
abbrev PolicyAnswer : PolicyOp → Type
  | .now => String
  | .revalidate => Option String
  | .validatorUnchanged | .sameDevice _ | .occupied _ | .createReceipt _ _ | .promote _ => Bool
  | .readTarget | .readBackup _ | .readStage _ => Option (List UInt8)
  | .readReceipt _ => Option Receipt
  | .readJournal _ => Option Journal
  | .restoreTarget _ _ | .unlinkTarget _ | .saveJournal _ _ | .writeBackup _ _ | .writeStage _ _ => Unit

/-- What a workspace holds besides the journal, whose absence was seen before. -/
def Workspace.occupied (w : Workspace) : Bool :=
  w.journal.isSome || w.receipt.isSome || w.backup.isSome || w.stage.isSome || w.leftover

/-- The operations.  The clock and the three questions about the environment have any answer. -/
def policyMachine : Machine PolicyAnswer Files where
  step
    | .now, f, _, f' | .revalidate, f, _, f' | .validatorUnchanged, f, _, f'
    | .sameDevice _, f, _, f' => f' = f
    | .readTarget, f, answer, f' => answer = f.target ∧ f' = f
    | .restoreTarget _ payload, f, _, f' => f' = { f with target := some payload }
    | .unlinkTarget _, f, _, f' => f' = { f with target := none }
    | .promote id, f, answer, f' => answer = (f.workspace id).stage.isSome ∧
        f' = if (f.workspace id).stage.isSome then
          { f.update id fun w => { w with stage := none } with target := (f.workspace id).stage }
          else f
    | .occupied id, f, answer, f' => answer = (f.workspace id).occupied ∧ f' = f
    | .readReceipt id, f, answer, f' => answer = (f.workspace id).receipt ∧ f' = f
    | .createReceipt id receipt, f, answer, f' => answer = (f.workspace id).receipt.isNone ∧
        f' = if (f.workspace id).receipt.isNone then
          f.update id fun w => { w with receipt := some receipt }
          else f
    | .readJournal id, f, answer, f' => answer = (f.workspace id).journal ∧ f' = f
    | .saveJournal id journal, f, _, f' => f' = f.update id fun w => { w with journal := some journal }
    | .readBackup id, f, answer, f' => answer = (f.workspace id).backup ∧ f' = f
    | .writeBackup id payload, f, _, f' => f' = f.update id fun w => { w with backup := some payload }
    | .readStage id, f, answer, f' => answer = (f.workspace id).stage ∧ f' = f
    | .writeStage id payload, f, _, f' => f' = f.update id fun w => { w with stage := some payload }
  torn
    | .saveJournal id _, f, f' | .createReceipt id _, f, f' =>
        f' = f.update id fun w => { w with leftover := true }
    | _, _, _ => False

/-! ### The program -/

section Program

variable [Runtime] [FileDigest]

abbrev Task (α : Type) := Program PolicyAnswer PolicyError α

def ask (op : PolicyOp) : Task (PolicyAnswer op) := Program.perform op

/-- The body of the `try` statement: an exception leaves it with the journal as it then is. -/
abbrev Attempt (α : Type) := Program PolicyAnswer (Journal × PolicyError) α

def raise {α : Type} (kind : PolicyErrorKind) (message : String) : Task α := .raise ⟨kind, message⟩

/-- `if not condition: raise`. -/
def ensure (condition : Bool) (kind : PolicyErrorKind) (message : String) : Task Unit :=
  if condition then pure () else raise kind message

/-- A step of the `try` statement. -/
def Task.within {α : Type} (p : Task α) (journal : Journal) : Attempt α :=
  p.handle fun exc => .raise (journal, exc)

/-- The digest of `_target_state(target)`. -/
def targetDigest : Option (List UInt8) → String
  | some payload => FileDigest.sha256 payload
  | none => missing

/-- `_target_state(target)["sha256"]`. -/
def targetSha256 : Task String := do return targetDigest (← ask .readTarget)

/-- `_save_journal`. -/
def saveJournal (journal : Journal) : Task Journal := do
  let updatedAt ← ask .now
  let journal := { journal with updatedAt }
  ask (.saveJournal journal.binding.transactionId journal)
  return journal

/-- `_receipt_from_journal`. -/
def receiptFromJournal (journal : Journal) (outcome : ReceiptOutcome) : Task Receipt := do
  match ← ask (.readJournal journal.binding.transactionId) with
  | none => raise .os "journal.json"
  | some stored =>
      let receipt : Receipt := {
        binding := journal.binding
        completedAt := journal.updatedAt
        error := journal.error
        journalSha256 := stored.fileSha256
        outcome
        receiptSha256 := "" }
      return { receipt with receiptSha256 := receipt.bodySha256 }

/-- The comparison `_write_once` makes with a file that exists. -/
def checkWritten (receipt : Receipt) : Task Unit := do
  match ← ask (.readReceipt receipt.binding.transactionId) with
  | none => raise .os "receipt.json"
  | some old => ensure (old.text == receipt.text) .replay "immutable materialization artifact changed"

/-- `_write_once`, of a receipt. -/
def writeOnce (receipt : Receipt) : Task Unit := do
  let id := receipt.binding.transactionId
  if (← ask (.readReceipt id)).isSome then checkWritten receipt
  else
    let created ← ask (.createReceipt id receipt)
    if created then pure () else checkWritten receipt

/-- The last steps of every path: the journal, the receipt drawn from it, and the receipt's file. -/
def conclude (journal : Journal) (outcome : ReceiptOutcome) : Task Receipt := do
  let journal ← saveJournal journal
  let receipt ← receiptFromJournal journal outcome
  writeOnce receipt
  return receipt

/-- `_rollback`. -/
def rollback (journal : Journal) : Task Unit := do
  let id := journal.binding.transactionId
  let current ← targetSha256
  if current = journal.binding.expectedTargetSha256 then return ()
  ensure (current == journal.binding.materializedSha256) .recovery
    "rollback refused to overwrite external target drift"
  if journal.binding.expectedTargetSha256 = missing then
    ask (.unlinkTarget id)
  else
    let backup ← ask (.readBackup id)
    match backup with
    | none => raise .recovery "rollback backup is unavailable or changed"
    | some payload =>
        ensure (FileDigest.sha256 payload == journal.binding.expectedTargetSha256) .recovery
          "rollback backup is unavailable or changed"
        ask (.restoreTarget id payload)
        let restored ← targetSha256
        ensure (restored == journal.binding.expectedTargetSha256) .recovery
          "rollback target did not return to its exact baseline"

/-- `_fault`. -/
def fault (name : String) (configured : Option String) : Task Unit :=
  ensure (configured != some name) .injected ("injected materialization failure at " ++ name)

/-! ### The three paths -/

/-- The path of a transaction that has its receipt: `_verify_binding`, `_verify_receipt` and the
comparison with the target. -/
def replay (binding : Binding) (receipt : Receipt) : Task Receipt := do
  ensure (receipt.binding == binding) .replay
    "materialization transaction is bound to different facts"
  ensure (receipt.receiptSha256 == receipt.bodySha256) .replay
    "materialization receipt digest is invalid"
  let journal ← ask (.readJournal binding.transactionId)
  ensure (journal.any fun j => receipt.journalSha256 == j.fileSha256) .replay
    "materialization receipt no longer matches its durable journal"
  if receipt.outcome = .applied then
    ensure ((← targetSha256) == binding.materializedSha256) .replay
      "applied routing policy target has drifted"
  if [ReceiptOutcome.rolledBack, .recoveredRolledBack].contains receipt.outcome then
    ensure ((← targetSha256) == binding.expectedTargetSha256) .replay
      "rolled-back routing policy target has drifted"
  return receipt

/-- The path of a transaction that has a journal and no receipt: an earlier call was interrupted. -/
def recover (binding : Binding) (journal : Journal) : Task Receipt := do
  ensure (journal.binding == binding) .replay
    "materialization transaction is bound to different facts"
  let current ← targetSha256
  if preparingPhases.contains journal.phase ∧ current ≠ journal.binding.expectedTargetSha256 then
    conclude { journal with
      error := some "interrupted pre-promotion transaction observed external target drift"
      phase := .preconditionFailed } .preconditionFailed
  else
    (rollback journal).handle fun exc => do
      discard <| conclude { journal with error := some exc.text, phase := .rollbackFailed }
        .rollbackFailed
      Program.raise exc
    conclude { journal with
      error := some "interrupted materialization recovered to its exact baseline"
      phase := .rolledBack } .recoveredRolledBack

/-- `journal["phase"] = phase; _save_journal(journal_path, journal)`. -/
def enter (journal : Journal) (phase : Phase) : Attempt Journal :=
  (saveJournal { journal with phase }).within { journal with phase }

/-- The backup of a target that is present. -/
def captureBackup (binding : Binding) (prior : Option (List UInt8)) : Task Unit := do
  if prior.isNone then return ()
  match ← ask .readTarget with
  | none => raise .os "routing-policy.yaml"
  | some payload =>
      ask (.writeBackup binding.transactionId payload)
      let backup ← ask (.readBackup binding.transactionId)
      ensure (targetDigest backup == binding.expectedTargetSha256) .precondition
        "routing policy changed during backup capture"

def stagePolicy (binding : Binding) (policyBytes : List UInt8) : Task Unit := do
  ask (.writeStage binding.transactionId policyBytes)
  let stage ← ask (.readStage binding.transactionId)
  ensure (targetDigest stage == binding.materializedSha256) .materialization
    "staged materialized policy hash is invalid"

/-- The checks between the staging and the promotion. -/
def checkBeforePromotion (binding : Binding) : Task Unit := do
  ensure ((← targetSha256) == binding.expectedTargetSha256) .precondition
    "routing policy changed after staging"
  ensure (← ask (.sameDevice binding.transactionId)) .materialization
    "policy staging is not target-local"

/-- `os.replace(stage, target)` and the check of the promoted target. -/
def promoteStage (binding : Binding) : Task Unit := do
  let promoted ← ask (.promote binding.transactionId)
  ensure promoted .os "routing-policy.yaml"
  ensure ((← targetSha256) == binding.materializedSha256) .materialization
    "promoted routing policy hash is invalid"

/-- The validation of the promoted policy and of the validator itself. -/
def validatePromoted : Task Unit := do
  if let some message ← ask .revalidate then raise .overlay message
  ensure (← ask .validatorUnchanged) .materialization
    "shared routing policy validator changed before receipt"

/-- The body of the `try` statement. -/
def promotePolicy (options : PolicyApplyOptions) (policyBytes : List UInt8) (journal : Journal)
    (prior : Option (List UInt8)) : Attempt Receipt := do
  let binding := journal.binding
  (captureBackup binding prior).within journal
  (stagePolicy binding policyBytes).within journal
  let journal ← enter journal .stageVerified
  (fault "after-stage" options.faultInjection).within journal
  let journal ← enter journal .promotionPrepared
  (checkBeforePromotion binding).within journal
  let journal ← enter journal .promoting
  (promoteStage binding).within journal
  let journal ← enter journal .promoted
  (fault "after-promote" options.faultInjection).within journal
  validatePromoted.within journal
  let journal ← enter journal .liveTargetVerified
  (fault "after-verify" options.faultInjection).within journal
  (conclude { journal with phase := .completed } .applied).within { journal with phase := .completed }

/-- The `except` clause. -/
def abandon (failure : Journal × PolicyError) : Task Receipt := do
  let exc := failure.2
  let journal := { failure.1 with error := some exc.text }
  let drifted : Bool ← if exc.kind = .precondition ∧ preparingPhases.contains journal.phase then
      (· != journal.binding.expectedTargetSha256) <$> targetSha256
    else pure false
  if drifted then conclude { journal with phase := .preconditionFailed } .preconditionFailed
  else
    (rollback journal).handle fun rollbackExc => do
      let text := exc.text ++ " | rollback=" ++ rollbackExc.text
      discard <| conclude { journal with error := some text, phase := .rollbackFailed } .rollbackFailed
      raise .recovery text
    conclude { journal with phase := .rolledBack } .rolledBack

/-- The path of a transaction that has neither. -/
def start (options : PolicyApplyOptions) (binding : Binding) (policyBytes : List UInt8) :
    Task Receipt := do
  let occupied ← ask (.occupied binding.transactionId)
  ensure (!occupied) .replay "materialization workspace exists without a valid journal"
  let prior ← ask .readTarget
  let startedAt ← ask .now
  let updatedAt ← ask .now
  let journal ← saveJournal {
    binding
    error := none
    phase := .lockAcquired
    priorSize := (prior.map List.length).getD 0
    startedAt
    updatedAt }
  if targetDigest prior ≠ binding.expectedTargetSha256 then
    conclude { journal with
      error := some "live routing policy differs from the explicit compare-and-swap precondition"
      phase := .preconditionFailed } .preconditionFailed
  else (promotePolicy options policyBytes journal prior).handle abandon

/-- The part of `apply_materialized_policy` under the lock. -/
def applyLocked (options : PolicyApplyOptions) (binding : Binding) (policyBytes : List UInt8) :
    Task Receipt := do
  match ← ask (.readReceipt binding.transactionId) with
  | some receipt => replay binding receipt
  | none =>
      match ← ask (.readJournal binding.transactionId) with
      | some journal => recover binding journal
      | none => start options binding policyBytes

/-! ### The call -/

/-- `SHA256_RE.fullmatch`. -/
def isSha256 (s : String) : Bool := s.length == 64 && isLowerHex s

/-- `IDENTIFIER_RE.fullmatch`. -/
def isIdentifier (s : String) : Bool :=
  s.toList.all (fun c => c.isAlphanum || ['.', '_', '-'].contains c)
    && s.toList.head?.any Char.isAlphanum && s.toList.getLast?.any Char.isAlphanum
    && s.length ≤ 128

/-- The checks on the texts of the options. -/
def PolicyApplyOptions.check (options : PolicyApplyOptions) : Task Unit := do
  ensure (isIdentifier options.transactionId) .materialization "transaction identifier is invalid"
  ensure (options.expectedTargetSha256 == missing || isSha256 options.expectedTargetSha256)
    .materialization "expected target SHA-256 is invalid"
  ensure (isSha256 options.expectedMaterializedSha256) .materialization
    "expected materialized SHA-256 is invalid"
  ensure (isSha256 options.expectedMaterializationDigest) .materialization
    "expected materialization digest is invalid"

/-- `apply_materialized_policy`, given what `materialize_policy` returns or raises. -/
def applyMaterializedPolicy (options : PolicyApplyOptions)
    (materialized : Except PolicyError Materialized) : Task Receipt := do
  options.check
  let m ← Program.ofExcept materialized
  ensure (m.facts.materializedSha256 == options.expectedMaterializedSha256) .materialization
    "materialized policy does not match the explicitly expected SHA-256"
  ensure (m.facts.materializationDigest == options.expectedMaterializationDigest) .materialization
    "materialization inputs do not match the explicitly expected digest"
  applyLocked options (options.binding m.facts) m.policyBytes

end Program

end CodingOS.Routing
