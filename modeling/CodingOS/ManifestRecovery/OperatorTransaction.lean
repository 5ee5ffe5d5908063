import CodingOS.ManifestRecovery.Promotion

/-!
# Transactions

A transaction opens with an immutable record, promotes one candidate and ends with an immutable record.
`operator_rebaseline` runs a reviewed candidate under a transaction identifier, or replays what became of
it; `attempt_recovery` runs a candidate of the builder under a fresh one.  What the two find of the host
before and after the promotion are questions with any answer.
-/

namespace CodingOS.ManifestRecovery

open CodingOS.Python Systems

/-! ### Replies -/

inductive ReplyStatus
  | noop | denied | error | rebuilt
deriving DecidableEq

/-- The status, the reason and the identifiers of a reply. -/
structure Reply where
  status : ReplyStatus
  reasonCode : String
  transactionId : String := ""
  generationId : String := ""

def Refusal.reply : Refusal → Reply
  | .denied reasonCode => { status := .denied, reasonCode }
  | .error reasonCode => { status := .error, reasonCode }

/-- Whether `except (OSError, RuntimeError, ValueError)` catches an exception. -/
def AuthorityError.caught (e : AuthorityError) : Bool := e.kind != .type

/-- `try: p except (OSError, RuntimeError, ValueError)`. -/
def attempt {α : Type} (p : Task α) : Task (Except AuthorityError α) :=
  (p >>= fun a => pure (.ok a) : Task (Except AuthorityError α)).handle fun e =>
    if e.caught then pure (.error e) else .raise e

/-- The body of a `try` statement with a `finally` clause, whatever it raises. -/
def settle {α : Type} (p : Task α) : Task (Except AuthorityError α) :=
  (p >>= fun a => pure (.ok a) : Task (Except AuthorityError α)).handle fun e => pure (.error e)

/-- `if not condition: raise ValueError(message)`. -/
@[irreducible] def requireValue (condition : Bool) (message : String) : Task Unit :=
  if condition then pure () else .raise ⟨.value, message⟩

/-! ### Records -/

section Records

variable {α : Type} [DecidableEq α]

/-- `_write_idempotent_transaction_record`, given how its file is read and created. -/
def writeIdempotentTransactionRecord (read : Task (Option (Stored α))) (create : String → Task Bool)
    (stable : α) : Task Unit := do
  let recordedAt ← ask .now
  match ← read with
  | some stored =>
      require (stored.stable? == some stable)
        "authority transaction replay conflicts with immutable receipt"
  | none =>
      let created ← create recordedAt
      require created "immutable authority artifact already exists with different bytes"

end Records

section Program

variable [Runtime] [FileDigest] [Decoder]

/-- `write_authority_transaction_begin`. -/
def writeAuthorityTransactionBegin (transactionId : String) (lane : Lane)
    (previousGenerationId : Option String) (expectedAuthority expectedCandidate authorizationId : String) :
    Task Unit := do
  let authority := normalizedSha256 (.str expectedAuthority)
  let candidate := normalizedSha256 (.str expectedCandidate)
  requireValue (authority != "") "expected authority snapshot SHA-256 is invalid"
  requireValue (lane != .operatorRebaseline || candidate != "")
    "expected operator candidate SHA-256 is invalid"
  requireValue (lane == .operatorRebaseline || expectedCandidate == "")
    "automatic authority lanes cannot bind an operator candidate"
  requireValue (isTransactionId transactionId) "authority transaction identifier is invalid"
  let stable : BeginRecord := {
    transactionId
    lane
    previousGenerationId
    expectedAuthoritySnapshotSha256 := authority
    expectedCandidateSha256 := candidate
    authorizationSha256 := if authorizationId == "" then "" else Runtime.sha256 authorizationId }
  writeIdempotentTransactionRecord (ask (.readBegin transactionId))
    (fun recordedAt => ask (.createBegin transactionId stable recordedAt)) stable

/-- What a terminal record says, besides its transaction. -/
structure Ending where
  status : TerminalStatus
  reasonCode : String
  generationId : String := ""
  expectedAuthority : String := ""
  expectedCandidate : String := ""
  observedAuthority : String := ""
  observedCandidate : String := ""

/-- The stable fields of a terminal record. -/
def Ending.record (ending : Ending) (transactionId : String) (lane : Lane) : TerminalRecord where
  transactionId
  lane
  status := ending.status
  reasonCode := String.ofList (ending.reasonCode.toList.take 96)
  generationId := ending.generationId
  expectedAuthoritySnapshotSha256 := normalizedSha256 (.str ending.expectedAuthority)
  expectedCandidateSha256 := normalizedSha256 (.str ending.expectedCandidate)
  observedAuthoritySnapshotSha256 := normalizedSha256 (.str ending.observedAuthority)
  observedCandidateSha256 := normalizedSha256 (.str ending.observedCandidate)

/-- The checks of `write_authority_transaction_terminal`. -/
def Ending.check (ending : Ending) (lane : Lane) : Task Unit := do
  let stable := ending.record "" lane
  if lane = .operatorRebaseline then
    requireValue (stable.expectedAuthoritySnapshotSha256 != "" && stable.expectedCandidateSha256 != "")
      "operator terminal is missing reviewed CAS hashes"
    requireValue (ending.observedAuthority == "" || stable.observedAuthoritySnapshotSha256 != "")
      "observed authority snapshot SHA-256 is invalid"
    requireValue (ending.observedCandidate == "" || stable.observedCandidateSha256 != "")
      "observed candidate SHA-256 is invalid"
    requireValue (ending.status != .committed
        || stable.observedAuthoritySnapshotSha256 == stable.expectedAuthoritySnapshotSha256
          && stable.observedCandidateSha256 == stable.expectedCandidateSha256)
      "committed operator terminal violates reviewed CAS hashes"
  else
    requireValue (ending.expectedAuthority == "" && ending.expectedCandidate == ""
        && ending.observedAuthority == "" && ending.observedCandidate == "")
      "automatic authority terminal cannot bind operator CAS hashes"

/-- `write_authority_transaction_terminal`. -/
def writeAuthorityTransactionTerminal (transactionId : String) (lane : Lane) (ending : Ending) :
    Task Unit := do
  ending.check lane
  requireValue (isTransactionId transactionId) "authority transaction identifier is invalid"
  let stable := ending.record transactionId lane
  writeIdempotentTransactionRecord (ask (.readTerminal transactionId))
    (fun recordedAt => ask (.createTerminal transactionId stable recordedAt)) stable

/-! What the two writers become once their checks have passed. -/

omit [Runtime] [FileDigest] [Decoder] in
theorem requireValue_true (message : String) : requireValue true message = .ret () := by
  rw [requireValue]
  rfl

omit [FileDigest] [Decoder] in
theorem begin_of {transactionId authority candidate : String} {lane : Lane}
    (hid : isTransactionId transactionId = true) (hauthority : normalizedSha256 (.str authority) = authority)
    (hne : authority ≠ "") (hcandidate : normalizedSha256 (.str candidate) = candidate)
    (hlane : (lane == .operatorRebaseline) = (candidate != "")) (previous : Option String)
    (authorizationId : String) :
    writeAuthorityTransactionBegin transactionId lane previous authority candidate authorizationId =
      let stable : BeginRecord := ⟨transactionId, lane, previous, authority, candidate,
        if authorizationId == "" then "" else Runtime.sha256 authorizationId⟩
      writeIdempotentTransactionRecord (ask (.readBegin transactionId))
        (fun recordedAt => ask (.createBegin transactionId stable recordedAt)) stable := by
  have hoperator : (lane != .operatorRebaseline || candidate != "") = true := by
    rw [bne, hlane, Bool.not_or_self]
  have hautomatic : (lane == .operatorRebaseline || candidate == "") = true := by
    rw [hlane, bne, Bool.not_or_self]
  rw [writeAuthorityTransactionBegin]
  -- The texts stand in the types of the operations, so they are replaced as variables.
  generalize hauthority' : normalizedSha256 (.str authority) = normalized
  generalize hcandidate' : normalizedSha256 (.str candidate) = normalized'
  obtain rfl : normalized = authority := hauthority'.symm.trans hauthority
  obtain rfl : normalized' = candidate := hcandidate'.symm.trans hcandidate
  rw [hid, hoperator, hautomatic, bne_iff_ne.mpr hne]
  simp only [requireValue_true, Program.ret_bind]

omit [FileDigest] [Decoder] in
theorem terminal_of {transactionId : String} {lane : Lane} {ending : Ending}
    (hid : isTransactionId transactionId = true) (hcheck : ending.check lane = .ret ()) :
    writeAuthorityTransactionTerminal transactionId lane ending =
      writeIdempotentTransactionRecord (ask (.readTerminal transactionId))
        (fun recordedAt => ask (.createTerminal transactionId (ending.record transactionId lane) recordedAt))
        (ending.record transactionId lane) := by
  rw [writeAuthorityTransactionTerminal, hcheck, hid, Program.ret_bind, requireValue_true, Program.ret_bind]

/-! ### Replay -/

/-- An operator transaction: its identifier, who authorized it and what was reviewed. -/
structure OperatorTransaction where
  transactionId : String
  authorizationId : String
  expectedAuthority : String
  expectedCandidate : String

variable (t : OperatorTransaction)

def OperatorTransaction.authority : String := normalizedSha256 (.str t.expectedAuthority)

def OperatorTransaction.candidate : String := normalizedSha256 (.str t.expectedCandidate)

/-- The transaction as `operator_rebaseline` passes it on. -/
def OperatorTransaction.normalized : OperatorTransaction :=
  { t with expectedAuthority := t.authority, expectedCandidate := t.candidate }

def OperatorTransaction.reply (status : ReplyStatus) (reasonCode : String) : Reply :=
  { status, reasonCode, transactionId := t.transactionId }

def OperatorTransaction.conflict : Reply := t.reply .denied "AUTHORITY_TRANSACTION_REPLAY_CONFLICT"

/-- Whether a record opens this transaction. -/
def OperatorTransaction.opens (b : BeginRecord) : Bool :=
  b.transactionId == t.transactionId && b.lane == .operatorRebaseline
    && b.authorizationSha256 == Runtime.sha256 t.authorizationId
    && b.expectedAuthoritySnapshotSha256 == t.authority
    && b.expectedCandidateSha256 == t.candidate

/-- Whether a record ends this transaction. -/
def OperatorTransaction.ends (r : TerminalRecord) : Bool :=
  r.transactionId == t.transactionId && r.lane == .operatorRebaseline
    && r.expectedAuthoritySnapshotSha256 == t.authority
    && r.expectedCandidateSha256 == t.candidate

/-- The test of `_committed_generation_matches_transaction` on the manifest. -/
def provesCommit (b : BeginRecord) (p : Pointer) (manifest : Mapping) : Bool :=
  match manifest.read "authority_receipt", manifest.read "authority_generation" with
  | .mapping receipt, .mapping generation =>
      normalizedSha256 (Mapping.read receipt "snapshot_sha256") == b.expectedAuthoritySnapshotSha256
        && normalizedSha256 (.str p.manifestSha256) == b.expectedCandidateSha256
        && (Mapping.read generation "promotion_reason").eq (.str "operator_rebaseline")
  | _, _ => false

/-- The body of `_committed_generation_matches_transaction`: the generation that proves the commit. -/
def provenGeneration (b : BeginRecord) (transactionId terminalGenerationId : String) :
    Task (Option String) := do
  match ← currentPointer with
  | none => return none
  | some p =>
      if p.transactionId != transactionId
          || terminalGenerationId != "" && terminalGenerationId != p.generationId
          || p.previousGenerationId != b.previousGenerationId then
        return none
      else
        match ← ask (.readGeneration (lower p.generationId)) with
        | none => return none
        | some content =>
            if FileDigest.sha256 content != lower p.manifestSha256
                || !provesCommit b p (readManifest content) then
              return none
            else if ← ask (.generationFresh p.generationId) then
              let _ ← ask (.repairCompatibility content)
              return some p.generationId
            else return none

/-- `_committed_generation_matches_transaction`. -/
def committedGenerationMatchesTransaction (b : BeginRecord) (transactionId terminalGenerationId : String) :
    Task (Option String) :=
  (provenGeneration b transactionId terminalGenerationId).handle fun e =>
    if e.caught then pure none else .raise e

/-- What a replay answers when the transaction has its terminal record. -/
def replayTerminal (b : BeginRecord) (r : TerminalRecord) : Task Reply := do
  if !t.ends r then return t.conflict
  else
    let proven ← committedGenerationMatchesTransaction b t.transactionId r.generationId
    match r.status, proven with
    | .committed, some generationId =>
        if r.observedAuthoritySnapshotSha256 != t.authority || r.observedCandidateSha256 != t.candidate then
          return t.conflict
        else return { t.reply .rebuilt r.reasonCode with generationId }
    | .committed, none =>
        if r.observedAuthoritySnapshotSha256 != t.authority || r.observedCandidateSha256 != t.candidate then
          return t.conflict
        else return t.reply .error "AUTHORITY_TRANSACTION_COMMIT_UNPROVEN"
    | _, some generationId =>
        return { t.reply .rebuilt "OPERATOR_REBASELINE_COMMIT_RECONCILED" with generationId }
    | .denied, none => return { t.reply .denied r.reasonCode with generationId := r.generationId }
    | .error, none => return { t.reply .error r.reasonCode with generationId := r.generationId }

/-- What a replay writes and answers when the transaction has no terminal record. -/
def replayInterrupted (b : BeginRecord) : Task Reply := do
  let interrupted : Task Reply := do
    writeAuthorityTransactionTerminal t.transactionId .operatorRebaseline {
      status := .error
      reasonCode := "AUTHORITY_TRANSACTION_INTERRUPTED_BEFORE_COMMIT"
      expectedAuthority := t.authority
      expectedCandidate := t.candidate }
    return t.reply .error "AUTHORITY_TRANSACTION_INTERRUPTED_BEFORE_COMMIT"
  match ← attempt currentPointer with
  | .ok (some p) =>
      if p.transactionId == t.transactionId then
        match ← committedGenerationMatchesTransaction b t.transactionId "" with
        | none =>
            writeAuthorityTransactionTerminal t.transactionId .operatorRebaseline {
              status := .error
              reasonCode := "AUTHORITY_TRANSACTION_COMMIT_UNPROVEN"
              expectedAuthority := t.authority
              expectedCandidate := t.candidate
              observedAuthority := t.authority
              observedCandidate := t.candidate }
            return t.reply .error "AUTHORITY_TRANSACTION_COMMIT_UNPROVEN"
        | some generationId =>
            writeAuthorityTransactionTerminal t.transactionId .operatorRebaseline {
              status := .committed
              reasonCode := "OPERATOR_REBASELINE_COMMIT_RECOVERED"
              generationId
              expectedAuthority := t.authority
              expectedCandidate := t.candidate
              observedAuthority := t.authority
              observedCandidate := t.candidate }
            return { t.reply .rebuilt "OPERATOR_REBASELINE_COMMIT_RECOVERED" with generationId }
      else interrupted
  | _ => interrupted

/-- `replay_operator_transaction`.  A record that was cut in the writing reads as the empty object. -/
def replayOperatorTransaction : Task (Option Reply) := do
  requireValue (isTransactionId t.transactionId) "authority transaction identifier is invalid"
  match ← ask (.readBegin t.transactionId) with
  | none => return none
  | some opening =>
      match opening.stable? with
      | none => return some t.conflict
      | some b =>
          if !t.opens b then return some t.conflict
          else
            match ← ask (.readTerminal t.transactionId) with
            | none => return some (← replayInterrupted t b)
            | some terminal =>
                match terminal.stable? with
                | none => return some t.conflict
                | some r => return some (← replayTerminal t b r)

/-! ### The two kinds of runs -/

/-- What a run leaves to its `finally` clause: the terminal record, and its reply or its exception. -/
structure Concluded where
  ending : Ending
  outcome : Except AuthorityError Reply

/-- The `finally` clause: the terminal record is written, and a failure to write it changes the reply. -/
def conclude (transactionId : String) (lane : Lane) (c : Concluded) : Task Reply := do
  match ← attempt (writeAuthorityTransactionTerminal transactionId lane c.ending), c.outcome with
  | .ok _, outcome => Program.ofExcept outcome
  | .error _, .error e => .raise e
  | .error _, .ok _ =>
      if c.ending.status = .committed then
        return {
          status := .rebuilt
          reasonCode := "AUTHORITY_TRANSACTION_TERMINAL_REPAIR_PENDING"
          transactionId
          generationId := c.ending.generationId }
      else return { status := .error, reasonCode := "AUTHORITY_TRANSACTION_TERMINAL_FAILED", transactionId }

/-- The end of a run whose pointer was committed. -/
def committedAs (ending : Ending) (transactionId reasonCode generationId : String) : Concluded where
  ending := { ending with status := .committed, reasonCode, generationId }
  outcome := .ok { status := .rebuilt, reasonCode, transactionId, generationId }

/-- The end of a run that was denied. -/
def deniedAs (ending : Ending) (reasonCode : String) : Concluded where
  ending := { ending with status := .denied, reasonCode }
  outcome := .ok { status := .denied, reasonCode }

/-- The end of a run that failed before its commit. -/
def failedAs (ending : Ending) (transactionId reasonCode : String) : Concluded where
  ending := { ending with status := .error, reasonCode }
  outcome := .ok { status := .error, reasonCode, transactionId }

/-- The end of a run with an exception that no clause catches. -/
def abortedAs (ending : Ending) (reasonCode : String) (e : AuthorityError) : Concluded where
  ending := { ending with status := .error, reasonCode }
  outcome := .error e

/-- The body of the `try` statement of `operator_rebaseline`. -/
def applyReviewed (previousGenerationId : Option String) : Task Concluded := do
  let ending : Ending := {
    status := .error
    reasonCode := "OPERATOR_REBASELINE_ABORTED"
    expectedAuthority := t.authority
    expectedCandidate := t.candidate
    observedAuthority := t.authority
    observedCandidate := t.candidate }
  match ← ask .finalSnapshot with
  | .unstable reasonCode => return deniedAs ending reasonCode
  | .stable observed =>
      if observed != t.authority then
        return deniedAs { ending with observedAuthority := observed }
          "AUTHORITY_CHANGED_AFTER_REVIEW_VALIDATION"
      else
        let file ← ask (.readCandidate t.transactionId)
        match ← settle (promoteManifestGeneration file {
            transactionId := t.transactionId
            expectedPreviousGenerationId := previousGenerationId
            expectedCandidateSha256 := t.candidate }) with
        | .error e =>
            if e.caught then return failedAs ending t.transactionId "OPERATOR_REBASELINE_APPLY_FAILED"
            else return abortedAs ending "OPERATOR_REBASELINE_ABORTED" e
        | .ok v =>
            match ← ask .installed with
            | .fresh =>
                return committedAs ending t.transactionId "OPERATOR_REBASELINE_COMMITTED"
                  v.pointer.generationId
            | .degraded _ =>
                return committedAs ending t.transactionId "COMMITTED_MANIFEST_POSTVALIDATION_DEGRADED"
                  v.pointer.generationId
            | .raised _ =>
                return committedAs ending t.transactionId "COMMITTED_POSTVALIDATION_EXCEPTION"
                  v.pointer.generationId

/-- The part of `operator_rebaseline` after the reviewed candidate was read. -/
def beginReviewed (previousGenerationId : Option String) (content : List UInt8) : Task Reply := do
  if FileDigest.sha256 content != t.candidate then
    return { status := .denied, reasonCode := "OPERATOR_CANDIDATE_SHA256_CAS_MISMATCH" }
  else
    match ← attempt (do
        writeImmutableBytes (ask (.createCandidate t.transactionId content)) content
        writeAuthorityTransactionBegin t.transactionId .operatorRebaseline previousGenerationId
          t.authority t.candidate t.authorizationId) with
    | .error _ => return { status := .error, reasonCode := "AUTHORITY_TRANSACTION_BEGIN_FAILED" }
    | .ok _ =>
        let c ← applyReviewed t previousGenerationId
        conclude t.transactionId .operatorRebaseline c

/-- The part of `operator_rebaseline` under the mutex. -/
def operatorLocked : Task Reply := do
  match ← replayOperatorTransaction t.normalized with
  | some reply => return reply
  | none =>
      match ← ask .preflight with
      | some refusal => return refusal.reply
      | none =>
          match ← attempt currentPointer with
          | .error _ => return { status := .error, reasonCode := "GENERATION_POINTER_INVALID" }
          | .ok current =>
              match ← ask .review with
              | .error refusal => return refusal.reply
              | .ok content => beginReviewed t (current.map (·.generationId)) content

/-- `operator_rebaseline`, given whether a reviewed candidate is named. -/
def operatorRebaseline (reviewed : Bool) : Task Reply :=
  if isBlank t.authorizationId then
    return { status := .denied, reasonCode := "OPERATOR_AUTHORIZATION_REQUIRED" }
  else if t.authority = "" then
    return { status := .denied, reasonCode := "OPERATOR_EXPECTED_AUTHORITY_SNAPSHOT_SHA256_REQUIRED" }
  else if t.candidate = "" then
    return { status := .denied, reasonCode := "OPERATOR_EXPECTED_CANDIDATE_SHA256_REQUIRED" }
  else if !isTransactionId t.transactionId then
    return { status := .denied, reasonCode := "AUTHORITY_TRANSACTION_ID_INVALID" }
  else if !reviewed then
    return { status := .denied, reasonCode := "OPERATOR_REVIEWED_CANDIDATE_REQUIRED" }
  else operatorLocked t

/-- The reason of `classify_authority_update` that selects a lane. -/
def Lane.reasonCode : Lane → String
  | .coherentAppUpdate => "RECOGNIZED_CODEX_DESKTOP_UPDATE"
  | .compoundAppPrimaryRuntimeUpdate => "RECOGNIZED_COMPOUND_APP_PRIMARY_RUNTIME_UPDATE"
  | .primaryRuntimeBundleUpdate => "RECOGNIZED_PRIMARY_RUNTIME_BUNDLE_UPDATE"
  | .updaterBoundPluginUpdate => "RECOGNIZED_ENABLED_PLUGIN_VERSION_REPLACEMENT"
  | .scopedConfigUpdate => "RECOGNIZED_SCOPED_CONFIG_UPDATE"
  | .workerRuntimeBomUpdate => "RECOGNIZED_WORKER_RUNTIME_BOM_UPDATE"
  | .operatorRebaseline => "RECOVERY_LANE_UNPROVEN"

/-- The body of the `try` statement of `attempt_recovery`. -/
def applyBuilt (transactionId : String) (lane : Lane) (previousGenerationId : Option String) :
    Task Concluded := do
  let ending : Ending := { status := .error, reasonCode := "RECOVERY_ABORTED" }
  match ← ask .build with
  | .denied reasonCode => return deniedAs ending reasonCode
  | .raised => return failedAs ending transactionId "RECOVERY_BUILDER_FAILED"
  | .ready content =>
      match ← settle (promoteManifestGeneration (some content) {
          transactionId
          expectedPreviousGenerationId := previousGenerationId }) with
      | .error e =>
          if e.kind = .runtime ∨ e.kind = .os then
            return failedAs ending transactionId "RECOVERY_BUILDER_FAILED"
          else return abortedAs ending "RECOVERY_ABORTED" e
      | .ok v =>
          match ← ask .installed with
          | .fresh => return committedAs ending transactionId lane.reasonCode v.pointer.generationId
          | .degraded reasonCode =>
              return committedAs ending transactionId reasonCode v.pointer.generationId
          | .raised false =>
              return committedAs ending transactionId "COMMITTED_POSTVALIDATION_EXCEPTION"
                v.pointer.generationId
          | .raised true =>
              return abortedAs { ending with generationId := v.pointer.generationId } "RECOVERY_ABORTED"
                ⟨.data, "capability data"⟩

/-- `attempt_recovery`, given the identifier `uuid4` draws. -/
def attemptRecovery (transactionId : String) : Task Reply := do
  match ← ask .recoveryPreflight with
  | .error refusal => return refusal.reply
  | .ok (lane, snapshot) =>
      if lane = .operatorRebaseline then
        return { status := .denied, reasonCode := lane.reasonCode }
      else
        match ← attempt currentPointer with
        | .error _ => return { status := .error, reasonCode := "GENERATION_POINTER_INVALID" }
        | .ok current =>
            let previous := current.map (·.generationId)
            match ← attempt (writeAuthorityTransactionBegin transactionId lane previous snapshot "" "") with
            | .error _ => return { status := .error, reasonCode := "AUTHORITY_TRANSACTION_BEGIN_FAILED" }
            | .ok _ =>
                let c ← applyBuilt transactionId lane previous
                conclude transactionId lane c

end Program

end CodingOS.ManifestRecovery
