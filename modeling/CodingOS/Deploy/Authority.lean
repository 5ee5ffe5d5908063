import CodingOS.Routing.Materializer

/-!
# The deployment of the router authority

`deploy_router_authority` of `deploy_router_authority.py`: the files of a bundle are promoted one by one
over their live targets, under a journal, with backups, staged copies and one receipt.

The function is a program over the live targets, the source tree and the workspaces of the transactions.
A target is a regular file or missing, and the targets of a bundle are different paths.  Every operation
can fail; a file is replaced by renaming a finished temporary one over it, and a crash or a failure inside
such a write leaves the old file or the new one.  The directories above the targets are not part of the
state: what is missing of them is a question with any answer.  The bundle that `build_bundle_manifest`
returns is an argument; it has no live preconditions, as the static allowlist of them is empty.
-/

namespace CodingOS.Deploy

open CodingOS.Python Systems
open CodingOS.Routing (canonicalText optionalValue isSha256 isIdentifier)

/-! ### Errors -/

inductive DeployErrorKind
  | deployment | bundle | precondition | replay | recovery | injected | os
deriving DecidableEq

/-- `type(exc).__name__`. -/
def DeployErrorKind.name : DeployErrorKind → String
  | deployment => "DeploymentError"
  | bundle => "BundleError"
  | precondition => "PreconditionError"
  | replay => "ReplayError"
  | recovery => "RecoveryError"
  | injected => "InjectedFailure"
  | os => "OSError"

structure DeployError where
  kind : DeployErrorKind
  message : String
deriving DecidableEq

/-- `f"{type(exc).__name__}: {exc}"`. -/
def DeployError.text (e : DeployError) : String := e.kind.name ++ ": " ++ e.message

/-! ### Documents -/

/-- What `_path_state` returns of a target. -/
inductive PathState
  | missing
  | present (sha256 : String) (size : ℕ)
deriving DecidableEq

/-- The digest of a state. -/
def PathState.sha256 : PathState → Option String
  | .missing => none
  | .present sha256 _ => some sha256

/-- `_path_state`, of a regular file or nothing. -/
def pathState [FileDigest] : Option (List UInt8) → PathState
  | none => .missing
  | some payload => .present (FileDigest.sha256 payload) payload.length

structure BundleEntry where
  sha256 : String
  size : ℕ
  source : String
  target : String
deriving DecidableEq

/-- A bundle.  `_load_spec` refuses a target that is declared twice. -/
structure Manifest where
  entries : List BundleEntry
  bundleSha256 : String
  targets_nodup : (entries.map (·.target)).Nodup
deriving DecidableEq

/-- A target of a journal.  Its stage is `stage/<target>`; its backup is `rollback/<target>` if something
was there before. -/
structure Record where
  newSha256 : String
  newSize : ℕ
  prior : PathState
  promotionStarted : Bool
  promoted : Bool
  source : String
  target : String
deriving DecidableEq

/-- The state a target has once it is promoted. -/
def Record.new (r : Record) : PathState := .present r.newSha256 r.newSize

inductive Phase
  | lockAcquired | failedBeforeBundle | preflightVerified | stageVerified | promotionPrepared
  | promoting | liveTargetsVerified | completed | rolledBack | rollbackFailed
deriving DecidableEq

def Phase.value : Phase → String
  | lockAcquired => "LOCK_ACQUIRED"
  | failedBeforeBundle => "FAILED_BEFORE_BUNDLE"
  | preflightVerified => "PREFLIGHT_VERIFIED"
  | stageVerified => "STAGE_VERIFIED"
  | promotionPrepared => "PROMOTION_PREPARED"
  | promoting => "PROMOTING"
  | liveTargetsVerified => "LIVE_TARGETS_VERIFIED"
  | completed => "COMPLETED"
  | rolledBack => "ROLLED_BACK"
  | rollbackFailed => "ROLLBACK_FAILED"

structure Journal where
  transactionId : String
  codexHome : String
  bundleSha256 : String
  phase : Phase
  targets : List Record
  createdDirectories : List String
  bundleManifestSha256 : Option String
  error : Option String
  startedAt : String
  updatedAt : String
deriving DecidableEq

inductive ReceiptOutcome
  | deployed | rolledBack | recoveredRolledBack | preconditionFailed | rollbackFailed
deriving DecidableEq

def ReceiptOutcome.value : ReceiptOutcome → String
  | deployed => "deployed"
  | rolledBack => "rolled_back"
  | recoveredRolledBack => "recovered_rolled_back"
  | preconditionFailed => "precondition_failed"
  | rollbackFailed => "rollback_failed"

/-- A target of a receipt. -/
structure ReceiptTarget where
  newSha256 : String
  prior : PathState
  target : String
deriving DecidableEq

structure Receipt where
  bundleSha256 : String
  codexHome : String
  completedAt : String
  error : Option String
  journalSha256 : String
  outcome : ReceiptOutcome
  targets : List ReceiptTarget
  transactionId : String
  receiptSha256 : String
deriving DecidableEq

def PathState.entries : PathState → Mapping
  | .missing => [("sha256", .null), ("size", .int 0), ("state", .str "missing")]
  | .present sha256 size => [("sha256", .str sha256), ("size", .int size), ("state", .str "present")]

def Record.entries (r : Record) : Mapping := [
  ("backup", match r.prior with
    | .missing => .null
    | .present _ _ => .str ("rollback/" ++ r.target)),
  ("new_sha256", .str r.newSha256),
  ("new_size", .int r.newSize),
  ("prior", .mapping r.prior.entries),
  ("promoted", .bool r.promoted),
  ("promotion_started", .bool r.promotionStarted),
  ("source", .str r.source),
  ("stage", .str ("stage/" ++ r.target)),
  ("target", .str r.target)]

def BundleEntry.entries (e : BundleEntry) : Mapping := [
  ("sha256", .str e.sha256),
  ("size", .int e.size),
  ("source", .str e.source),
  ("target", .str e.target)]

def ReceiptTarget.entries (t : ReceiptTarget) : Mapping := [
  ("new_sha256", .str t.newSha256),
  ("prior_sha256", optionalValue t.prior.sha256),
  ("prior_state", .str (match t.prior with
    | .missing => "missing"
    | .present _ _ => "present")),
  ("target", .str t.target)]

section Documents

variable [Runtime]

/-- `_manifest_bytes(manifest)`, as text. -/
def Manifest.text (m : Manifest) : String := canonicalText [
  ("bundle_sha256", .str m.bundleSha256),
  ("entries", .tuple (m.entries.map fun e => .mapping e.entries)),
  ("preconditions", .tuple []),
  ("schema_version", .str "catalogue-router-deployment-bundle-v1")]

def Manifest.fileSha256 (m : Manifest) : String := Runtime.sha256 m.text

def Journal.entries (j : Journal) : Mapping :=
  [("bundle_sha256", .str j.bundleSha256),
    ("codex_home", .str j.codexHome),
    ("created_directories", .tuple (j.createdDirectories.map .str)),
    ("phase", .str j.phase.value),
    ("schema_version", .str "catalogue-router-deployment-journal-v1"),
    ("started_at", .str j.startedAt),
    ("targets", .tuple (j.targets.map fun r => .mapping r.entries)),
    ("transaction_id", .str j.transactionId),
    ("updated_at", .str j.updatedAt)]
  ++ (j.bundleManifestSha256.map fun digest => ("bundle_manifest_sha256", Value.str digest)).toList
  ++ (j.error.map fun text => ("error", Value.str text)).toList

/-- `_sha256_file(journal_path)`. -/
def Journal.fileSha256 (j : Journal) : String := Runtime.sha256 (canonicalText j.entries)

/-- The receipt without its own digest. -/
def Receipt.body (r : Receipt) : Mapping := [
  ("bundle_sha256", .str r.bundleSha256),
  ("codex_home", .str r.codexHome),
  ("completed_at", .str r.completedAt),
  ("error", optionalValue r.error),
  ("journal_sha256", .str r.journalSha256),
  ("outcome", .str r.outcome.value),
  ("schema_version", .str "catalogue-router-deployment-receipt-v1"),
  ("targets", .tuple (r.targets.map fun t => .mapping t.entries)),
  ("transaction_id", .str r.transactionId)]

def receiptDomain : String :=
  "CATALOGUE-ROUTER-DEPLOYMENT-RECEIPT-v1" ++ String.singleton (Char.ofNat 0)

/-- The digest `_write_terminal_receipt` puts in a receipt and `_verify_receipt_digest` computes again. -/
def Receipt.bodySha256 (r : Receipt) : String := Runtime.sha256 (receiptDomain ++ canonicalText r.body)

/-- The text of the receipt's file. -/
def Receipt.text (r : Receipt) : String :=
  canonicalText (r.body ++ [("receipt_sha256", .str r.receiptSha256)])

end Documents

/-! ### The files -/

/-- The workspace of one transaction: its files, the backups and stages by target, and anything else an
interrupted write left there. -/
structure Workspace where
  journal : Option Journal := none
  receipt : Option Receipt := none
  manifest : Option Manifest := none
  backup : String → Option (List UInt8) := fun _ => none
  stage : String → Option (List UInt8) := fun _ => none
  leftover : Bool := false

/-- `any(transaction_root.iterdir())`. -/
def Workspace.occupied (w : Workspace) : Bool :=
  w.journal.isSome || w.receipt.isSome || w.manifest.isSome || w.leftover

/-- The live targets, the source tree and the workspaces. -/
structure Files where
  live : String → Option (List UInt8)
  source : String → Option (List UInt8)
  workspace : String → Workspace

def Files.update (f : Files) (id : String) (change : Workspace → Workspace) : Files :=
  { f with workspace := Function.update f.workspace id (change (f.workspace id)) }

def Files.setLive (f : Files) (target : String) (content : Option (List UInt8)) : Files :=
  { f with live := Function.update f.live target content }

/-- What the program asks of the files and the clock. -/
inductive DeployOp
  | now
  | sameDevice (id target : String)
  | missingDirectories (candidates : List String)
  | makeDirectories (directories : List String)
  | removeDirectories (directories : List String)
  | readSource (source : String)
  | readLive (target : String)
  | restoreLive (target : String) (payload : List UInt8)
  | unlinkLive (target : String)
  | promote (id target : String)
  | occupied (id : String)
  | readReceipt (id : String)
  | createReceipt (id : String) (receipt : Receipt)
  | readManifest (id : String)
  | createManifest (id : String) (manifest : Manifest)
  | readJournal (id : String)
  | saveJournal (id : String) (journal : Journal)
  | readBackup (id target : String)
  | writeBackup (id target : String) (payload : List UInt8)
  | readStage (id target : String)
  | writeStage (id target : String) (payload : List UInt8)

abbrev DeployReply : DeployOp → Type
  | .now => String
  | .sameDevice _ _ | .promote _ _ | .occupied _ | .createReceipt _ _ | .createManifest _ _ => Bool
  | .missingDirectories _ => List String
  | .readSource _ | .readLive _ | .readBackup _ _ | .readStage _ _ => Option (List UInt8)
  | .readReceipt _ => Option Receipt
  | .readManifest _ => Option Manifest
  | .readJournal _ => Option Journal
  | .makeDirectories _ | .removeDirectories _ | .restoreLive _ _ | .unlinkLive _ | .saveJournal _ _
  | .writeBackup _ _ _ | .writeStage _ _ _ => Unit

abbrev DeployAnswer (op : DeployOp) : Type := Except DeployError (DeployReply op)

/-- What an operation leaves that is not disturbed; an operation that only looks leaves everything. -/
def DeployOp.apply : DeployOp → Files → Files
  | .restoreLive target payload, f => f.setLive target (some payload)
  | .unlinkLive target, f => f.setLive target none
  | .promote id target, f =>
      if ((f.workspace id).stage target).isSome then
        (f.setLive target ((f.workspace id).stage target)).update id fun w =>
          { w with stage := Function.update w.stage target none }
      else f
  | .createReceipt id receipt, f =>
      if (f.workspace id).receipt.isNone then f.update id fun w => { w with receipt := some receipt }
      else f
  | .createManifest id manifest, f =>
      if (f.workspace id).manifest.isNone then f.update id fun w => { w with manifest := some manifest }
      else f
  | .saveJournal id journal, f => f.update id fun w => { w with journal := some journal }
  | .writeBackup id target payload, f => f.update id fun w =>
      { w with backup := Function.update w.backup target (some payload), leftover := true }
  | .writeStage id target payload, f => f.update id fun w =>
      { w with stage := Function.update w.stage target (some payload), leftover := true }
  | _, f => f

/-- What an operation that is not disturbed answers. -/
def Answers : (op : DeployOp) → Files → DeployReply op → Prop
  | .missingDirectories candidates, _, answer => answer.Nodup ∧ ∀ d ∈ answer, d ∈ candidates
  | .readSource source, f, answer => answer = f.source source
  | .readLive target, f, answer => answer = f.live target
  | .promote id target, f, answer => answer = ((f.workspace id).stage target).isSome
  | .occupied id, f, answer => answer = (f.workspace id).occupied
  | .readReceipt id, f, answer => answer = (f.workspace id).receipt
  | .createReceipt id _, f, answer => answer = (f.workspace id).receipt.isNone
  | .readManifest id, f, answer => answer = (f.workspace id).manifest
  | .createManifest id _, f, answer => answer = (f.workspace id).manifest.isNone
  | .readJournal id, f, answer => answer = (f.workspace id).journal
  | .readBackup id target, f, answer => answer = (f.workspace id).backup target
  | .readStage id target, f, answer => answer = (f.workspace id).stage target
  | _, _, _ => True

/-- The workspace a write is made in, if it is made in one. -/
def DeployOp.writesIn : DeployOp → Option String
  | .createReceipt id _ | .createManifest id _ | .saveJournal id _ | .writeBackup id _ _
  | .writeStage id _ _ => some id
  | _ => none

/-- A crash inside an operation leaves the old file or the new one, and perhaps a temporary file in the
workspace. -/
def Cut (op : DeployOp) (f f' : Files) : Prop :=
  f' = f ∨ f' = op.apply f ∨
    ∃ id, op.writesIn = some id ∧ (f' = f.update id (fun w => { w with leftover := true }) ∨
      f' = (op.apply f).update id fun w => { w with leftover := true })

/-- The files, where every operation can fail and leave the old file or the new one. -/
def deployMachine : Machine DeployAnswer Files where
  step op f answer f' :=
    (∃ reply, answer = .ok reply ∧ Answers op f reply ∧ f' = op.apply f) ∨
      (∃ e, answer = .error e) ∧ (f' = f ∨ f' = op.apply f)
  torn := Cut

/-! ### The program -/

section Program

variable [Runtime] [FileDigest]

abbrev Task (α : Type) := Program DeployAnswer DeployError α

/-- A program that holds the journal: an exception leaves it with the journal as it then is. -/
abbrev Attempt (α : Type) := Program DeployAnswer (Journal × DeployError) α

def ask (op : DeployOp) : Task (DeployReply op) := .call op fun
  | .ok reply => .ret reply
  | .error e => .raise e

def raise {α : Type} (kind : DeployErrorKind) (message : String) : Task α := .raise ⟨kind, message⟩

/-- `if not condition: raise`. -/
def ensure (condition : Bool) (kind : DeployErrorKind) (message : String) : Task Unit :=
  if condition then pure () else raise kind message

def Task.within {α : Type} (p : Task α) (journal : Journal) : Attempt α :=
  p.handle fun exc => .raise (journal, exc)

/-- `_path_state(live)`. -/
def liveState (target : String) : Task PathState := do return pathState (← ask (.readLive target))

/-- `_save_journal`. -/
def saveJournal (journal : Journal) : Task Journal := do
  let updatedAt ← ask .now
  let journal := { journal with updatedAt }
  ask (.saveJournal journal.transactionId journal)
  return journal

/-- The journal in memory is saved. -/
def save (journal : Journal) : Attempt Journal := (saveJournal journal).within journal

/-- `_write_once`, given how its file is read and created. -/
def writeOnce {α : Type} (read : Task (Option α)) (create : Task Bool) (same : α → Bool) : Task Unit := do
  let compare : α → Task Unit := fun old =>
    ensure (same old) .replay "immutable transaction artifact changed"
  match ← read with
  | some old => compare old
  | none =>
      if ← create then return ()
      else
        match ← read with
        | some old => compare old
        | none => raise .os "file"

/-- `_write_once`, of the bundle manifest. -/
def writeManifest (id : String) (manifest : Manifest) : Task Unit :=
  writeOnce (ask (.readManifest id)) (ask (.createManifest id manifest)) fun old =>
    old.text == manifest.text

/-- `_receipt_body`, with the digest of `_write_terminal_receipt`. -/
def receiptOf (journal : Journal) (outcome : ReceiptOutcome) : Task Receipt := do
  match ← ask (.readJournal journal.transactionId) with
  | none => raise .os "journal.json"
  | some stored =>
      let receipt : Receipt := {
        bundleSha256 := journal.bundleSha256
        codexHome := journal.codexHome
        completedAt := journal.updatedAt
        error := journal.error
        journalSha256 := stored.fileSha256
        outcome
        targets := journal.targets.map fun r => ⟨r.newSha256, r.prior, r.target⟩
        transactionId := journal.transactionId
        receiptSha256 := "" }
      return { receipt with receiptSha256 := receipt.bodySha256 }

/-- `_write_terminal_receipt`. -/
def writeTerminalReceipt (journal : Journal) (outcome : ReceiptOutcome) : Task Receipt := do
  let receipt ← receiptOf journal outcome
  writeOnce (ask (.readReceipt receipt.transactionId))
    (ask (.createReceipt receipt.transactionId receipt)) fun old => old.text == receipt.text
  return receipt

/-- The journal is saved and its receipt is written. -/
def conclude (journal : Journal) (outcome : ReceiptOutcome) : Task Receipt := do
  let journal ← saveJournal journal
  writeTerminalReceipt journal outcome

/-- `_fault`. -/
def fault (name : String) (configured : Option String) : Task Unit :=
  ensure (configured != some name) .injected ("injected deployment failure at " ++ name)

/-! ### Validation of what was written -/

/-- `_verify_transaction_binding`. -/
def verifyTransactionBinding (transactionId codexHome bundleSha256 : String) (journal : Journal) :
    Task Unit :=
  ensure (journal.transactionId == transactionId && journal.codexHome == codexHome
      && journal.bundleSha256 == bundleSha256) .replay
    "transaction identifier is already bound to different deployment facts"

/-- The directories above a target, as `_missing_target_directories_for_validation` lists them. -/
def parents (target : String) : List String :=
  ((target.splitOn "/").dropLast.inits.filter (· ≠ [])).map ("/".intercalate ·)

def allowedDirectories (entries : List BundleEntry) : List String :=
  (entries.flatMap fun e => parents e.target).dedup

/-- A record of a journal is that of an entry of the bundle. -/
def Record.matches (r : Record) (e : BundleEntry) : Bool :=
  r.newSha256 == e.sha256 && r.newSize == e.size && r.source == e.source && r.target == e.target

/-- `_validate_recovery_journal`. -/
def validateRecoveryJournal (id : String) (journal : Journal) (manifest : Manifest) : Task Unit := do
  if journal.targets.isEmpty then
    ensure ([Phase.failedBeforeBundle, .lockAcquired, .rolledBack].contains journal.phase) .replay
      "deployment journal lost its target records"
  else
    ensure (journal.targets.length == manifest.entries.length) .replay
      "deployment journal target count differs from the exact bundle"
    ensure ((journal.targets.zip manifest.entries).all fun p => p.1.matches p.2) .replay
      "deployment journal differs from the exact source bundle"
    ensure (journal.createdDirectories.dedup.length == journal.createdDirectories.length
        && journal.createdDirectories.all (allowedDirectories manifest.entries).contains) .replay
      "deployment journal contains invalid created-directory state"
    let stored ← ask (.readManifest id)
    ensure ((stored.map (·.text)) == some manifest.text
        && journal.bundleManifestSha256 == some manifest.fileSha256) .replay
      "deployment journal bundle artifact differs from the exact source bundle"

/-- `_verify_replay_state`, of one target. -/
def verifyReplayTarget (outcome : ReceiptOutcome) (t : ReceiptTarget) : Task Unit := do
  let state ← liveState t.target
  if outcome = .deployed then
    ensure (state.sha256 == some t.newSha256) .replay "completed deployment target has drifted"
  else ensure (state.sha256 == t.prior.sha256) .replay "rolled-back deployment target has drifted"

/-- `_verify_replay_state`. -/
def verifyReplayState (receipt : Receipt) : Task Unit :=
  if [ReceiptOutcome.deployed, .rolledBack, .recoveredRolledBack].contains receipt.outcome then
    receipt.targets.forM (verifyReplayTarget receipt.outcome)
  else pure ()

/-- `_existing_receipt`, of a receipt that exists. -/
def checkExisting (id codexHome : String) (manifest : Manifest) (receipt : Receipt) : Task Unit := do
  ensure (receipt.transactionId == id && receipt.codexHome == codexHome
      && receipt.bundleSha256 == manifest.bundleSha256) .replay
    "transaction identifier is already bound to different deployment facts"
  ensure (receipt.receiptSha256 == receipt.bodySha256) .replay
    "terminal deployment receipt digest is invalid"
  match ← ask (.readJournal id) with
  | none => raise .replay "terminal receipt no longer matches its durable journal"
  | some journal =>
      ensure (journal.fileSha256 == receipt.journalSha256) .replay
        "terminal receipt no longer matches its durable journal"
      validateRecoveryJournal id journal manifest
      let stored ← ask (.readManifest id)
      ensure (stored.isSome && stored.map (·.fileSha256) == journal.bundleManifestSha256) .replay
        "durable deployment bundle manifest no longer matches its journal"
      verifyReplayState receipt

/-! ### The forward path -/

/-- One record of `_target_records`. -/
def targetRecord (id : String) (entry : BundleEntry) : Task Record := do
  let content ← ask (.readLive entry.target)
  match content with
  | some payload => ask (.writeBackup id entry.target payload)
  | none => pure ()
  return {
    newSha256 := entry.sha256
    newSize := entry.size
    prior := pathState content
    promotionStarted := false
    promoted := false
    source := entry.source
    target := entry.target }

/-- `_target_records`. -/
def targetRecords (id : String) : List BundleEntry → Task (List Record)
  | [] => pure []
  | entry :: rest => do
      let record ← targetRecord id entry
      let records ← targetRecords id rest
      return record :: records

/-- `_stage_sources`, of one record. -/
def stageSource (id : String) (record : Record) : Task Unit := do
  match ← ask (.readSource record.source) with
  | none => raise .os "source"
  | some payload =>
      ensure (payload.length == record.newSize && FileDigest.sha256 payload == record.newSha256) .bundle
        "source changed after its bundle manifest was built"
      ask (.writeStage id record.target payload)
      let staged ← ask (.readStage id record.target)
      ensure (staged.map FileDigest.sha256 == some record.newSha256) .deployment
        "staged authority file failed hash verification"

/-- `_verify_preconditions`, of one record. -/
def checkPrior (message : String) (record : Record) : Task Unit := do
  let state ← liveState record.target
  ensure (state == record.prior) .precondition message

/-- The checks of `_promote_targets` before a record is marked. -/
def readyToPromote (id : String) (record : Record) : Task Unit := do
  checkPrior "live target changed immediately before promotion" record
  let staged ← ask (.readStage id record.target)
  ensure (staged.map FileDigest.sha256 == some record.newSha256) .deployment
    "staged target is unavailable or changed"
  let same ← ask (.sameDevice id record.target)
  ensure same .deployment "staging is not target-local for atomic promotion"

/-- The rename of `_promote_targets` and its checks. -/
def promoteRecord (id : String) (record : Record) : Task Unit := do
  checkPrior "live target changed at the promotion boundary" record
  let moved ← ask (.promote id record.target)
  ensure moved .os "stage"
  let state ← liveState record.target
  ensure (state.sha256 == some record.newSha256) .deployment
    "promoted target failed exact hash verification"

/-- `_promote_targets`, from the record after those already promoted. -/
def promoteTargets (journal : Journal) (configured : Option String) (promoted : List Record) :
    List Record → Attempt Journal
  | [] => pure journal
  | record :: rest => do
      let id := journal.transactionId
      (readyToPromote id record).within journal
      let started := { record with promotionStarted := true }
      let journal ← save { journal with targets := promoted ++ started :: rest, phase := .promoting }
      (promoteRecord id started).within journal
      let done := { started with promoted := true }
      let journal ← save { journal with targets := promoted ++ done :: rest, phase := .promoting }
      (fault ("after-promote:" ++ toString (promoted.length + 1)) configured).within journal
      promoteTargets journal configured (promoted ++ [done]) rest

/-- The last check of a promoted target. -/
def verifyPromoted (record : Record) : Task Unit := do
  let state ← liveState record.target
  ensure (state.sha256 == some record.newSha256) .deployment "live target verification failed"

/-- The journal enters a phase. -/
def enter (journal : Journal) (phase : Phase) : Attempt Journal := save { journal with phase }

/-- The body of the `try` statement. -/
def promoteBundle (configured : Option String) (manifest : Manifest) (journal : Journal) :
    Attempt Receipt := do
  let id := journal.transactionId
  (writeManifest id manifest).within journal
  let journal := { journal with bundleManifestSha256 := some manifest.fileSha256 }
  let records ← (targetRecords id manifest.entries).within journal
  let journal ← enter { journal with targets := records } .preflightVerified
  (journal.targets.forM (stageSource id)).within journal
  let journal ← enter journal .stageVerified
  (fault "after-stage" configured).within journal
  (journal.targets.forM
    (checkPrior "live targets changed after baseline capture")).within journal
  let createdDirectories ←
    (ask (.missingDirectories (allowedDirectories manifest.entries))).within journal
  let journal ← enter { journal with createdDirectories } .promotionPrepared
  (fault "after-prepare" configured).within journal
  (ask (.makeDirectories journal.createdDirectories)).within journal
  let journal ← promoteTargets journal configured [] journal.targets
  (journal.targets.forM verifyPromoted).within journal
  let journal ← enter journal .liveTargetsVerified
  (fault "after-verify" configured).within journal
  let journal ← enter { journal with error := none } .completed
  (writeTerminalReceipt journal .deployed).within journal

/-! ### Rollback -/

/-- `_rollback_targets`, of one record: the record as it then is, and whether it failed. -/
def rollbackRecord (id : String) (record : Record) : Task (Record × Bool) := do
  let cleared := { record with promotionStarted := false, promoted := false }
  let current ← liveState record.target
  if current = record.prior then return (cleared, false)
  else if !record.promotionStarted && !record.promoted then return (record, false)
  else if current ≠ record.new then return (record, true)
  else
    match record.prior with
    | .missing => do
        ask (.unlinkLive record.target)
        let restored ← liveState record.target
        return if restored = record.prior then (cleared, false) else (record, true)
    | .present sha256 _ => do
        match ← ask (.readBackup id record.target) with
        | none => return (record, true)
        | some payload =>
            if FileDigest.sha256 payload ≠ sha256 then return (record, true)
            else
              ask (.restoreLive record.target payload)
              let restored ← liveState record.target
              return if restored = record.prior then (cleared, false) else (record, true)

/-- The records of `_rollback_targets`, the last first: the journal, and the targets that failed. -/
def rollbackRecords (journal : Journal) (done : List Record) :
    List Record → Attempt (Journal × List String)
  | [] => pure ({ journal with targets := done }, [])
  | record :: todo => do
      let result ← (rollbackRecord journal.transactionId record).within
        { journal with targets := (record :: todo).reverse ++ done }
      let rest ← rollbackRecords journal (result.1 :: done) todo
      return (rest.1, (if result.2 then [record.target] else []) ++ rest.2)

/-- `_rollback_targets`. -/
def rollbackTargets (journal : Journal) : Attempt Journal := do
  let result ← rollbackRecords journal [] journal.targets.reverse
  let journal := result.1
  (ask (.removeDirectories journal.createdDirectories)).within journal
  (ensure result.2.isEmpty .recovery
    "rollback refused to overwrite drifted targets or lacked exact backups").within journal
  return journal

/-- `_recover_interrupted`. -/
def recoverInterrupted (journal : Journal) : Task Receipt := do
  let journal ← (rollbackTargets journal).handle fun failure => do
    let journal := { failure.1 with
      error := some ("interrupted recovery failed: " ++ failure.2.text), phase := .rollbackFailed }
    let _ ← conclude journal .rollbackFailed
    .raise failure.2
  conclude { journal with
    error := some "interrupted transaction recovered to its exact baseline", phase := .rolledBack }
    .recoveredRolledBack

/-- The `except` clause of `deploy_router_authority`. -/
def abandon (failure : Journal × DeployError) : Task Receipt := do
  let exc := failure.2
  let journal := { failure.1 with error := some exc.text }
  if journal.bundleManifestSha256.isNone then
    let _ ← saveJournal { journal with phase := .failedBeforeBundle }
    raise .deployment exc.text
  else
    let journal ← (rollbackTargets journal).handle fun rollback => do
      let text := exc.text ++ " | rollback=" ++ rollback.2.text
      let journal := { rollback.1 with error := some text, phase := .rollbackFailed }
      let _ ← conclude journal .rollbackFailed
      raise .recovery text
    conclude { journal with phase := .rolledBack }
      (if exc.kind = .precondition then .preconditionFailed else .rolledBack)

/-! ### The call -/

structure DeploymentOptions where
  codexHome : String
  transactionId : String
  expectedBundleSha256 : String
  faultInjection : Option String := none
deriving DecidableEq

/-- The path of a transaction that was interrupted. -/
def resume (options : DeploymentOptions) (manifest : Manifest) (journal : Journal) : Task Receipt := do
  let id := options.transactionId
  verifyTransactionBinding id options.codexHome manifest.bundleSha256 journal
  validateRecoveryJournal id journal manifest
  if journal.targets.isEmpty then
    writeManifest id manifest
    let journal ← saveJournal { journal with bundleManifestSha256 := some manifest.fileSha256 }
    recoverInterrupted journal
  else recoverInterrupted journal

/-- The path of a transaction that is new. -/
def start (options : DeploymentOptions) (manifest : Manifest) : Task Receipt := do
  let id := options.transactionId
  let occupied ← ask (.occupied id)
  ensure (!occupied) .replay "transaction workspace exists without a valid durable journal"
  let now ← ask .now
  let journal ← saveJournal {
    transactionId := id
    codexHome := options.codexHome
    bundleSha256 := manifest.bundleSha256
    phase := .lockAcquired
    targets := []
    createdDirectories := []
    bundleManifestSha256 := none
    error := none
    startedAt := now
    updatedAt := now }
  (promoteBundle options.faultInjection manifest journal).handle abandon

/-- The part of `deploy_router_authority` under the lock. -/
def deployLocked (options : DeploymentOptions) (manifest : Manifest) : Task Receipt := do
  let id := options.transactionId
  match ← ask (.readReceipt id) with
  | some receipt => do
      checkExisting id options.codexHome manifest receipt
      return receipt
  | none =>
      match ← ask (.readJournal id) with
      | some journal => resume options manifest journal
      | none => start options manifest

/-- `deploy_router_authority`, given what `build_bundle_manifest` returns or raises. -/
def deployRouterAuthority (options : DeploymentOptions) (manifest : Except DeployError Manifest) :
    Task Receipt := do
  ensure (isIdentifier options.transactionId) .deployment "transaction identifier is invalid"
  ensure (isSha256 options.expectedBundleSha256) .bundle "expected bundle SHA-256 is invalid"
  let m ← Program.ofExcept manifest
  ensure (m.bundleSha256 == options.expectedBundleSha256) .bundle
    "source bundle does not match the explicitly expected SHA-256"
  deployLocked options m

end Program

end CodingOS.Deploy
