import CodingOS.Installer.Content
import CodingOS.Systems.Program

/-!
# Install and uninstall transactions

The part of `install_transaction.py` that moves targets: the journal of a transaction, the promotion of
its staged targets, the rollback, the cleanup, and the recovery that the next invocation makes of an
interrupted transaction.

The programs run over the paths of the install roots, `current.json` and the journals.  What a path holds
is one value: the paths of a transaction do not lie below one another, as `_assert_atomic_target_layout`
checks, and a workspace is removed with everything below it.  Renames and journal writes are atomic; a
copy or a removal that fails or crashes leaves anything.  Messages are kept without the path some of them
end with.
-/

namespace CodingOS.Installer

open CodingOS.Python Systems

/-! ### Journals -/

inductive Operation
  | install | uninstall
deriving DecidableEq

inductive Status
  | inProgress | noop | rolledBack | recoveryFailed | committed
deriving DecidableEq

inductive Phase
  | lockAcquired | preflightVerified | sourceVerified | stageVerified | promotionPrepared | promoting
  | liveTargetsVerified | currentPointerCommitted | cleanupComplete
deriving DecidableEq

/-- A target as `_make_target` records it. -/
structure Target where
  targetId : String
  livePath : Path
  stagedPath : Option Path
  rollbackPath : Path
  priorPresent : Bool
  priorSha256 : Option String
  newSha256 : Option String
deriving DecidableEq

structure Workspaces where
  skills : Path
  codexHome : Path
deriving DecidableEq

/-- A journal.  `transactionWorkspace` is the workspace of a journal written before workspaces were kept
beside their targets. -/
structure Journal where
  transactionId : String
  operation : Operation
  status : Status
  phase : Option Phase
  transactionWorkspaces : Option Workspaces
  transactionWorkspace : Option Path := none
  recoveryAttempted : Bool
  recoveryError : Option String := none
  outcome : Option String := none
  previousCurrent : Option (List UInt8)
  previousCurrentSha256 : Option String
  newPointerSha256 : Option String
  targets : List Target
  stageRoots : List Path
  rollbackRoots : List Path
  runtimePinned : Bool := false
  runtimeFinalized : Bool := false
deriving DecidableEq

/-- The two roots of an invocation. -/
structure Roots where
  skillsRoot : Path
  codexHome : Path
deriving DecidableEq

/-- `_legacy_overlap_layout`. -/
def Roots.overlap (roots : Roots) : Bool := roots.skillsRoot == roots.codexHome ++ ["skills"]

/-- `_path_is_within`. -/
def within (path root : Path) : Bool := root.isPrefixOf path

/-! ### The disk -/

structure Disk where
  node : Path → Option Node
  current : Option Node
  journals : List Journal

namespace Disk

variable (d : Disk)

def set (path : Path) (n : Option Node) : Disk := { d with node := Function.update d.node path n }

/-- A journal replaces the one of its transaction. -/
def save (journal : Journal) : Disk :=
  { d with journals :=
      if d.journals.any (·.transactionId == journal.transactionId) then
        d.journals.map fun j => if j.transactionId = journal.transactionId then journal else j
      else d.journals ++ [journal] }

/-- A workspace is removed with everything below it. -/
def clear (workspace : Path) : Disk :=
  { d with node := fun path => if within path workspace then none else d.node path }

end Disk

/-- `os.replace` succeeds: the source exists, and a directory and another thing do not replace each
other; a directory replaces only an empty one. -/
def renames : Option Node → Option Node → Bool
  | none, _ => false
  | some _, none => true
  | some (.tree _), some (.tree leaves) => leaves.isEmpty
  | some (.tree _), some _ => false
  | some _, some (.tree _) => false
  | some _, some _ => true

/-! ### Operations -/

/-- What the programs ask of the disk, the campaign store and the effect driver. -/
inductive InstallOp
  | readJournals
  | saveJournal (journal : Journal)
  | look (path : Path)
  | makeParent (path : Path)
  | remove (path : Path)
  | rename (source target : Path)
  | copy (source target : Path)
  | replaceFile (path : Path) (content : List UInt8)
  | effectRecord
  | lookCurrent
  | writeCurrent (content : List UInt8)
  | unlinkCurrent
  | removeWorkspace (path : Path)
  | finalize

abbrev InstallReply : InstallOp → Type
  | .readJournals => List Journal
  | .look _ | .lookCurrent => Option Node
  | _ => Unit

abbrev InstallAnswer (op : InstallOp) : Type := Except InstallError (InstallReply op)

/-- An operation that is not disturbed. -/
def Effect : (op : InstallOp) → Disk → InstallAnswer op → Disk → Prop
  | .readJournals, d, answer, d' => answer = .ok d.journals ∧ d' = d
  | .saveJournal journal, d, answer, d' => answer = .ok () ∧ d' = d.save journal
  | .look path, d, answer, d' => answer = .ok (d.node path) ∧ d' = d
  | .makeParent _, d, answer, d' | .effectRecord, d, answer, d' | .finalize, d, answer, d' =>
      answer = .ok () ∧ d' = d
  | .remove path, d, answer, d' => answer = .ok () ∧ d' = d.set path none
  | .rename source target, d, answer, d' =>
      if renames (d.node source) (d.node target) then
        answer = .ok () ∧ d' = (d.set target (d.node source)).set source none
      else (∃ message, answer = .error ⟨.os, message⟩) ∧ d' = d
  | .copy source target, d, answer, d' => answer = .ok () ∧ d' = d.set target (d.node source)
  | .replaceFile path content, d, answer, d' => answer = .ok () ∧ d' = d.set path (some (.file content))
  | .lookCurrent, d, answer, d' => answer = .ok d.current ∧ d' = d
  | .writeCurrent content, d, answer, d' =>
      if renames (some (.file content)) d.current then
        answer = .ok () ∧ d' = { d with current := some (.file content) }
      else (∃ message, answer = .error ⟨.os, message⟩) ∧ d' = d
  | .unlinkCurrent, d, answer, d' =>
      if renames (some (.file [])) d.current then answer = .ok () ∧ d' = { d with current := none }
      else (∃ message, answer = .error ⟨.os, message⟩) ∧ d' = d
  | .removeWorkspace path, d, answer, d' => answer = .ok () ∧ d' = d.clear path

/-- What an operation can leave that fails or is cut. -/
def Partial : InstallOp → Disk → Disk → Prop
  | .saveJournal journal, d, d' => d' = d ∨ d' = d.save journal
  | .remove path, d, d' => ∃ n, (d.node path = none → n = none) ∧ d' = d.set path n
  | .rename source target, d, d' => d' = d ∨
      renames (d.node source) (d.node target) = true ∧
        d' = (d.set target (d.node source)).set source none
  | .copy _ target, d, d' => ∃ n, d' = d.set target n
  | .replaceFile path content, d, d' => d' = d ∨ d' = d.set path (some (.file content))
  | .writeCurrent content, d, d' => d' = d ∨
      renames (some (.file content)) d.current = true ∧ d' = { d with current := some (.file content) }
  | .unlinkCurrent, d, d' => d' = d ∨ d' = { d with current := none }
  | .removeWorkspace path, d, d' => d'.current = d.current ∧ d'.journals = d.journals ∧
      ∀ p, within p path = false ∨ d.node p = none → d'.node p = d.node p
  | _, d, d' => d' = d

/-- The disk, where the operations of a kind can fail. -/
def installMachine (mayFail : InstallOp → Prop) : Machine InstallAnswer Disk where
  step op d answer d' :=
    Effect op d answer d' ∨ mayFail op ∧ (∃ e, answer = .error e) ∧ Partial op d d'
  torn := Partial

abbrev Task (α : Type) := Program InstallAnswer InstallError α

/-- The body of a `try` statement: an exception leaves it with the journal as it then is in memory. -/
abbrev Attempt (α : Type) := Program InstallAnswer (Journal × InstallError) α

def ask (op : InstallOp) : Task (InstallReply op) := .call op fun
  | .ok reply => .ret reply
  | .error e => .raise e

def raise {α : Type} (kind : ErrorKind) (message : String) : Task α := .raise ⟨kind, message⟩

/-- `if not condition: raise`. -/
def ensure (condition : Bool) (kind : ErrorKind) (message : String) : Task Unit :=
  if condition then pure () else raise kind message

def Task.within {α : Type} (p : Task α) (journal : Journal) : Attempt α :=
  p.handle fun exc => .raise (journal, exc)

/-- `journal.save()`. -/
def saveJournal (journal : Journal) : Task Unit := ask (.saveJournal journal)

/-- `path.exists()`. -/
def pathExists (path : Path) : Task Bool := do return present (← ask (.look path))

section Programs

variable [Runtime] [FileDigest] [Host]

/-- `_tree_hash`. -/
def pathHash (path : Path) : Task (Option String) := do
  Program.ofExcept (treeHash (← ask (.look path)))

/-! ### Paths -/

/-- `_copy_path`. -/
def copyPath (source target : Path) : Task Unit := do
  let node ← ask (.look source)
  ensure (!isLink node) .transaction "refusing to copy link or reparse point"
  ask (.makeParent target)
  match node with
  | some (.tree _) =>
      let taken ← pathExists target
      ensure (!taken) .transaction "stage target already exists"
      ask (.copy source target)
  | some (.file _) => ask (.copy source target)
  | _ => raise .transaction "source is not a regular file or directory"

/-- `_remove_owned_path`. -/
def removeOwnedPath (path : Path) : Task Unit := do
  let node ← ask (.look path)
  if present node then
    ensure (!isLink node) .recovery "refusing to remove a link or reparse point"
    ensure (isRegular node) .recovery "refusing to remove a special file"
    ask (.remove path)

/-! ### Workspaces -/

/-- `re.fullmatch(r"[0-9a-f]{32}", transaction_id)`. -/
def isTransactionId (id : String) : Bool := id.length == 32 && isLowerHex id

/-- `_transaction_workspace_paths`. -/
def transactionWorkspacePaths (id : String) (roots : Roots) : Except InstallError Workspaces :=
  let skillsParent := if roots.overlap then roots.codexHome else roots.skillsRoot
  let paths : Workspaces := {
    skills := skillsParent ++ [".coding-os-transaction-" ++ id ++ "-skills"]
    codexHome := roots.codexHome ++ [".coding-os-transaction-" ++ id ++ "-codex-home"] }
  if !isTransactionId id then
    .error ⟨.transaction,
      "transaction workspaces require one generated 32-character transaction identifier"⟩
  else if within paths.skills roots.skillsRoot && roots.overlap then
    .error ⟨.transaction, "legacy-overlap transaction workspace must remain outside SkillsRoot"⟩
  else if [paths.skills, paths.codexHome].any [roots.skillsRoot, roots.codexHome].contains then
    .error ⟨.transaction, "transaction workspace must not replace an install root"⟩
  else .ok paths

/-- `_transaction_workspace_path`. -/
def transactionWorkspacePath (id : String) (roots : Roots) : Except InstallError Path :=
  let workspace := Host.temporaryRoot ++ ["codex-coding-os-transactions", id]
  if !isTransactionId id then
    .error ⟨.transaction,
      "transaction workspace requires one generated 32-character transaction identifier"⟩
  else if within workspace roots.skillsRoot || within workspace roots.codexHome then
    .error ⟨.transaction, "transaction workspace must be outside SkillsRoot and CodexHome"⟩
  else .ok workspace

/-- `_validate_journal_workspace`. -/
def validateJournalWorkspace (journal : Journal) (roots : Roots) :
    Except InstallError (List Path) :=
  match journal.transactionWorkspaces with
  | some workspaces =>
      match transactionWorkspacePaths journal.transactionId roots with
      | .error e => .error e
      | .ok expected =>
          if workspaces ≠ expected then
            .error ⟨.recovery,
              "transaction journal workspace mapping does not match the requested roots"⟩
          else if journal.stageRoots ≠ [workspaces.skills ++ ["stage"],
              workspaces.codexHome ++ ["stage"]] then
            .error ⟨.recovery,
              "transaction journal stage_roots does not match its target-local workspaces"⟩
          else if journal.rollbackRoots ≠ [workspaces.skills ++ ["rollback"],
              workspaces.codexHome ++ ["rollback"]] then
            .error ⟨.recovery,
              "transaction journal rollback_roots does not match its target-local workspaces"⟩
          else .ok [workspaces.skills, workspaces.codexHome].dedup
  | none =>
      match journal.transactionWorkspace with
      | none => .ok []
      | some workspace =>
          match transactionWorkspacePath journal.transactionId roots with
          | .error e => .error e
          | .ok expected =>
              if workspace ≠ expected then
                .error ⟨.recovery,
                  "transaction journal workspace is outside the expected OS-temp transaction path"⟩
              else if !journal.stageRoots.all (within · workspace) then
                .error ⟨.recovery, "transaction journal stage_roots escaped the transaction workspace"⟩
              else if !journal.rollbackRoots.all (within · workspace) then
                .error ⟨.recovery,
                  "transaction journal rollback_roots escaped the transaction workspace"⟩
              else .ok [workspace]

/-! ### Targets -/

/-- `_verify_target_state`. -/
def verifyTargetState (target : Target) (useNew : Bool) : Task Bool := do
  let expectedPresent := if useNew then target.newSha256.isSome else target.priorPresent
  let expectedHash := if useNew then target.newSha256 else target.priorSha256
  let node ← ask (.look target.livePath)
  if !expectedPresent then return !present node
  else if present node && !isLink node then
    return (← Program.ofExcept (treeHash node)) == expectedHash
  else return false

/-- The effect driver's `replace`, of a target that no operation of the driver has touched before. -/
def replaceExactFile (target : Target) (replacement : List UInt8) : Task Unit := do
  ensure (some (FileDigest.sha256 replacement) == target.newSha256) .effect
    "replacement bytes differ from their approved digest"
  match ← ask (.look target.livePath) with
  | some (.file content) =>
      if some (FileDigest.sha256 content) = target.newSha256 then ask .effectRecord
      else
        ensure (some (FileDigest.sha256 content) == target.priorSha256) .effect
          "exact-file target differs from its approved baseline"
        ask .effectRecord
        ask .effectRecord
        ask (.replaceFile target.livePath replacement)
        let node ← ask (.look target.livePath)
        if treeHash node ≠ .ok target.newSha256 then
          ask (.replaceFile target.livePath content)
          raise .effect "exact-file post-replacement verification failed"
        else ask .effectRecord
  | _ => raise .effect "exact-file target must be one non-linked regular file"

/-- A target that is replaced as one exact file. -/
def isExactFile (driver : Bool) (target : Target) : Task Bool := do
  match target.stagedPath with
  | none => return false
  | some staged =>
      if driver && target.priorPresent then
        return isFile (← ask (.look target.livePath)) && isFile (← ask (.look staged))
      else return false

/-- The first half of a promotion: the live target is moved, or copied, to its rollback path. -/
def moveOldAside (target : Target) (exactFile : Bool) : Task Unit := do
  if target.priorPresent then
    let live ← pathExists target.livePath
    let hash ← pathHash target.livePath
    ensure (live && hash == target.priorSha256) .recovery
      ("live target drifted before promotion: " ++ target.targetId)
    if exactFile then
      copyPath target.livePath target.rollbackPath
      let copied ← pathHash target.rollbackPath
      ensure (copied == target.priorSha256) .recovery
        ("exact-file rollback copy failed verification: " ++ target.targetId)
    else ask (.rename target.livePath target.rollbackPath)
  else
    let live ← pathExists target.livePath
    ensure (!live) .ownership "an unowned target appeared during promotion"

/-- The second half: the staged target becomes the live one. -/
def moveNewIn (target : Target) (exactFile : Bool) : Task Unit := do
  match target.stagedPath with
  | none => return ()
  | some staged =>
      let ready ← pathExists staged
      let hash ← pathHash staged
      ensure (ready && hash == target.newSha256) .recovery
        ("staged target drifted before promotion: " ++ target.targetId)
      if exactFile then
        match ← ask (.look staged) with
        | some (.file replacement) | some (.link (some (some replacement))) =>
            replaceExactFile target replacement
            ask (.remove staged)
        | _ => raise .os "staged file is not readable"
      else ask (.rename staged target.livePath)

/-- One round of `_promote_targets`. -/
def promoteTarget (journal : Journal) (driver : Bool) (target : Target) : Task Unit := do
  ask (.makeParent target.livePath)
  ask (.makeParent target.rollbackPath)
  let exactFile ← isExactFile driver target
  moveOldAside target exactFile
  saveJournal journal
  moveNewIn target exactFile
  saveJournal journal
  let promoted ← verifyTargetState target true
  ensure promoted .recovery ("promoted target failed exact hash verification: " ++ target.targetId)
  saveJournal journal

/-- `_promote_targets`. -/
def promoteTargets (journal : Journal) (driver : Bool) : Task Unit :=
  journal.targets.forM (promoteTarget journal driver)

/-! ### Rollback -/

/-- `_pointer_matches_new`. -/
def pointerMatchesNew (journal : Journal) : Task Bool := do
  let node ← ask .lookCurrent
  match journal.newPointerSha256 with
  | none => return false
  | some hash =>
      if isFile node then return (← Program.ofExcept (treeHash node)) == some hash
      else return false

/-- `_restore_previous_pointer`. -/
def restorePreviousPointer (journal : Journal) : Task Unit := do
  let node ← ask .lookCurrent
  if present node then
    ensure (isFile node) .os "current.json is not a file"
    let live ← Program.ofExcept (treeHash node)
    ensure ([journal.previousCurrentSha256, journal.newPointerSha256].contains live) .recovery
      "current pointer changed outside the transaction; refusing to overwrite it"
  match journal.previousCurrent with
  | none => if present node then ask .unlinkCurrent
  | some previous =>
      ensure (some (FileDigest.sha256 previous) == journal.previousCurrentSha256) .recovery
        "journal previous pointer backup hash mismatch"
      ask (.writeCurrent previous)

/-- The rollback of a target that was there before. -/
def restorePresent (target : Target) (liveHash rollbackHash : Option String) : Task Unit := do
  let kept ← pathExists target.rollbackPath
  let live ← pathExists target.livePath
  if kept then
    ensure (rollbackHash == target.priorSha256) .recovery
      ("rollback hash mismatch for " ++ target.targetId)
    if live then
      ensure (liveHash == target.newSha256 || liveHash == target.priorSha256) .recovery
        ("unexpected live bytes during rollback: " ++ target.targetId)
      removeOwnedPath target.livePath
    ask (.makeParent target.livePath)
    ask (.rename target.rollbackPath target.livePath)
  else
    ensure (live && liveHash == target.priorSha256) .recovery
      ("prior target is unavailable for rollback: " ++ target.targetId)

/-- The rollback of a target that was not there before. -/
def restoreAbsent (target : Target) (liveHash : Option String) : Task Unit := do
  let kept ← pathExists target.rollbackPath
  ensure (!kept) .recovery ("rollback slot exists for originally absent target: " ++ target.targetId)
  let live ← pathExists target.livePath
  if live then
    ensure (liveHash == target.newSha256) .recovery
      ("unexpected unowned live bytes during rollback: " ++ target.targetId)
    removeOwnedPath target.livePath

/-- One round of `_rollback_targets`. -/
def rollbackTarget (target : Target) : Task Unit := do
  let liveHash ← pathHash target.livePath
  let rollbackHash ← pathHash target.rollbackPath
  if target.priorPresent then restorePresent target liveHash rollbackHash
  else restoreAbsent target liveHash
  let restored ← verifyTargetState target false
  ensure restored .recovery ("restored target hash mismatch: " ++ target.targetId)

/-- The `except` clause of `_rollback_targets`. -/
def recoveryFailed {α : Type} (journal : Journal) (exc : InstallError) : Task α := do
  saveJournal { journal with status := .recoveryFailed, recoveryError := some exc.message }
  raise .recovery exc.message

/-- `_rollback_targets`. -/
def rollbackTargets (journal : Journal) : Task Journal := do
  (do
    journal.targets.reverse.forM rollbackTarget
    restorePreviousPointer journal).handle (recoveryFailed journal)
  let journal := { journal with outcome := some "rolled_back", status := .rolledBack }
  (saveJournal journal).handle (recoveryFailed journal)
  return journal

/-! ### Cleanup -/

/-- The retained backup of a target, below `retained-backups`. -/
def retainedPath (roots : Roots) (journal : Journal) (target : Target) : Path :=
  roots.codexHome ++ [".coding-os-install", "retained-backups", journal.transactionId,
    String.ofList ((Runtime.sha256 target.targetId).toList.take 16)]

/-- The backup of one target of a committed transaction. -/
def retainBackup (roots : Roots) (journal : Journal) (target : Target) : Task Unit := do
  let retained := retainedPath roots journal target
  if ← pathExists target.rollbackPath then
    if ← pathExists retained then
      let hash ← pathHash retained
      ensure (hash == target.priorSha256) .recovery ("retained backup mismatch: " ++ target.targetId)
    else
      copyPath target.rollbackPath retained
      let hash ← pathHash retained
      ensure (hash == target.priorSha256) .recovery
        ("retained backup verification failed: " ++ target.targetId)
    saveJournal journal

/-- `_retain_and_cleanup`. -/
def retainAndCleanup (journal : Journal) (committed : Bool) (roots : Roots) : Attempt Unit := do
  let workspaces ← Task.within (Program.ofExcept (validateJournalWorkspace journal roots)) journal
  if committed then (journal.targets.forM (retainBackup roots journal)).within journal
  ((journal.stageRoots ++ journal.rollbackRoots ++ workspaces).forM
    fun path => ask (.removeWorkspace path)).within journal
  let journal := { journal with
    status := if committed then .committed else journal.status
    phase := some .cleanupComplete }
  (saveJournal journal).within journal

/-- The exception of a `try` body that no handler inspects further. -/
def Attempt.task {α : Type} (p : Attempt α) : Task α := p.handle fun failure => .raise failure.2

/-- `_finalize_journal_campaign_runtime`. -/
def finalizeJournalCampaignRuntime (journal : Journal) : Task Journal := do
  if journal.operation = .install ∧ journal.runtimePinned ∧ ¬ journal.runtimeFinalized then
    ask .finalize
    let journal := { journal with runtimeFinalized := true }
    saveJournal journal
    return journal
  else return journal

/-- The check of every live target of a transaction whose pointer is committed. -/
def verifyCommitted (journal : Journal) (recorded raised : String) : Task Unit :=
  journal.targets.forM fun target => do
    let promoted ← verifyTargetState target true
    if !promoted then
      saveJournal { journal with
        status := .recoveryFailed
        recoveryError := some (recorded ++ target.targetId) }
      raise .recovery (raised ++ target.targetId)

/-! ### Recovery -/

/-- The recovery attempt itself. -/
def recoverJournal (journal : Journal) (roots : Roots) : Task Unit := do
  if ← pointerMatchesNew journal then
    verifyCommitted journal "committed target mismatch: "
      "committed target mismatch during recovery: "
    let journal ← finalizeJournalCampaignRuntime journal
    (retainAndCleanup { journal with outcome := some "committed_recovered" } true roots).task
  else
    let journal ← rollbackTargets journal
    (retainAndCleanup journal false roots).task

/-- The one transaction that `_recover_pending` finds interrupted. -/
def pendingJournal (journals : List Journal) : Except InstallError (Option Journal) :=
  if journals.any (·.status == .recoveryFailed) then
    .error ⟨.recovery, "a prior transaction is in RECOVERY_FAILED and requires human inspection"⟩
  else
    match journals.filter (·.status == .inProgress) with
    | [] => .ok none
    | [journal] => .ok (some journal)
    | _ => .error ⟨.recovery, "multiple incomplete transactions exist; refusing ambiguous recovery"⟩

/-- The journal of a transaction whose recovery is attempted. -/
def Journal.attempted (journal : Journal) : Journal := { journal with recoveryAttempted := true }

/-- The single attempt. -/
def attemptRecovery (journal : Journal) (roots : Roots) : Task Unit := do
  if journal.recoveryAttempted then
    saveJournal { journal with
      status := .recoveryFailed
      recoveryError := some "one recovery attempt was already consumed" }
    raise .recovery "incomplete transaction already consumed its single recovery attempt"
  else
    saveJournal journal.attempted
    let _ ← Program.ofExcept (validateJournalWorkspace journal.attempted roots)
    recoverJournal journal.attempted roots

/-- `_recover_pending`. -/
def recoverPending (roots : Roots) : Task Unit := do
  let journals ← ask .readJournals
  match ← Program.ofExcept (pendingJournal journals) with
  | none => return ()
  | some journal => attemptRecovery journal roots

/-! ### Transactions -/

/-- `journal.phase(...)`. -/
def enterPhase (journal : Journal) (phase : Phase) : Attempt Journal := do
  let journal := { journal with phase := some phase }
  (saveJournal journal).within journal
  return journal

/-- The outcomes of the two operations. -/
def Operation.outcome : Operation → String
  | .install => "committed"
  | .uninstall => "uninstalled"

def Operation.recoveredOutcome : Operation → String
  | .install => "committed_recovered"
  | .uninstall => "uninstalled_recovered"

/-- The body of the `try` statement of `install` and `uninstall` from the prepared targets on.  `check` is
what `install` verifies of the configuration and the live manifest before it commits. -/
def promote (roots : Roots) (pointer : List UInt8) (driver : Bool) (check : Task Unit)
    (journal : Journal) : Attempt Unit := do
  (saveJournal journal).within journal
  let journal ← enterPhase journal .promotionPrepared
  let journal ← enterPhase journal .promoting
  (promoteTargets journal driver).within journal
  (journal.targets.forM fun target => do
    let promoted ← verifyTargetState target true
    ensure promoted .recovery ("live target verification failed: " ++ target.targetId)).within journal
  let journal ← enterPhase journal .liveTargetsVerified
  check.within journal
  (ask (.writeCurrent pointer)).within journal
  let journal ← enterPhase journal .currentPointerCommitted
  let journal ← (finalizeJournalCampaignRuntime journal).within journal
  let journal := { journal with outcome := some journal.operation.outcome }
  (saveJournal journal).within journal
  retainAndCleanup journal true roots

/-- The `except` clause of `install` and `uninstall`. -/
def abandon (roots : Roots) (failure : Journal × InstallError) : Task Unit := do
  let journal := failure.1
  if ← pointerMatchesNew journal then
    verifyCommitted journal "post-pointer target mismatch: " "post-pointer target mismatch: "
    let journal ← finalizeJournalCampaignRuntime journal
    (retainAndCleanup { journal with outcome := some journal.operation.recoveredOutcome } true
      roots).task
  else
    let journal ← rollbackTargets journal
    (retainAndCleanup journal false roots).task
    .raise failure.2

/-- A transaction, from its first journal on.  `prepare` verifies the source, stages the targets and
returns the journal that records them. -/
def transaction (roots : Roots) (pointer : List UInt8) (driver : Bool) (prepare : Journal → Attempt Journal)
    (check : Task Unit) (journal : Journal) : Task Unit := do
  saveJournal journal
  (do promote roots pointer driver check (← prepare journal)).handle (abandon roots)

end Programs

end CodingOS.Installer
