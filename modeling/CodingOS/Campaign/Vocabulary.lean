import CodingOS.Python.Json

/-!
# The vocabulary of the campaign model

The enumerations of `model.py`, each with the text its members carry, and the errors the engine
raises.  An error keeps its class and its message: the store reads both when it files a rejection.
-/

namespace CodingOS.Campaign

inductive CampaignMode | manual | automated
deriving DecidableEq

inductive ObjectiveKind | productCode | productDocumentation | controlRuntime
deriving DecidableEq

inductive CampaignState
  | draft | approved | running | waitingExternal | waitingHuman | completed | failed | cancelled
deriving DecidableEq

inductive NodeState
  | pending | admitted | implementing | validating | candidateFrozen | checksAndReview
  | findingsFrozen | repairAuthorized | repairing | revalidating | closure | readyToPublish
  | publishing | done | failedExactNode | cancelled
deriving DecidableEq

inductive ActorRole
  | implementer | validator | reviewer | repairer | closureReviewer | supervisor | parent
deriving DecidableEq

inductive LeaseState | active | released | expired | invalidated
deriving DecidableEq

inductive EvidenceKind
  | repository | git | validation | hostedCheck | review | publication | installation | legacyArchive
deriving DecidableEq

inductive FindingOrigin | review | closure
deriving DecidableEq

inductive EffectKind
  | dispatchWorker | interruptWorker | reconcileEffect | push | createPullRequest | upsertComment
  | merge | exactFileReplace
deriving DecidableEq

inductive EffectState | prepared | executing | confirmed | failed | ambiguous | cancelled
deriving DecidableEq

inductive CancellationState | active | cancelled
deriving DecidableEq

inductive BudgetToken
  | childCreation | childStart | validationExecution | reviewDispatch | repairDispatch
  | closureDispatch | hostedCheckWakeup | transportRetry | reconciliation | push
  | pullRequestCreation | comment | merge | rejectedAttempt | noOpAttempt
deriving DecidableEq

inductive EventType
  | approve | start | waitExternal | waitHuman | resume | admitNode | acquireLease | releaseLease
  | consumeBudget | startImplementation | implementationCompleted | requestValidationCorrection
  | validationPassed | validationFailed | startReview | freezeFindings | markReadyToPublish
  | authorizeRepair | authorizePublication | startRepair | repairCompleted | revalidationPassed
  | revalidationFailed | startClosure | completeClosure | startPublish | publishConfirmed
  | publishFailed | failNode | advanceAuthority | cancel
deriving DecidableEq

/-! ### The texts of the members -/

def CampaignMode.value : CampaignMode → String
  | manual => "MANUAL"
  | automated => "AUTOMATED"

def ObjectiveKind.value : ObjectiveKind → String
  | productCode => "PRODUCT_CODE"
  | productDocumentation => "PRODUCT_DOCUMENTATION"
  | controlRuntime => "CONTROL_RUNTIME"

def CampaignState.value : CampaignState → String
  | draft => "DRAFT"
  | approved => "APPROVED"
  | running => "RUNNING"
  | waitingExternal => "WAITING_EXTERNAL"
  | waitingHuman => "WAITING_HUMAN"
  | completed => "COMPLETED"
  | failed => "FAILED"
  | cancelled => "CANCELLED"

def NodeState.value : NodeState → String
  | pending => "PENDING"
  | admitted => "ADMITTED"
  | implementing => "IMPLEMENTING"
  | validating => "VALIDATING"
  | candidateFrozen => "CANDIDATE_FROZEN"
  | checksAndReview => "CHECKS_AND_REVIEW"
  | findingsFrozen => "FINDINGS_FROZEN"
  | repairAuthorized => "REPAIR_AUTHORIZED"
  | repairing => "REPAIRING"
  | revalidating => "REVALIDATING"
  | closure => "CLOSURE"
  | readyToPublish => "READY_TO_PUBLISH"
  | publishing => "PUBLISHING"
  | done => "DONE"
  | failedExactNode => "FAILED_EXACT_NODE"
  | cancelled => "CANCELLED"

def ActorRole.value : ActorRole → String
  | implementer => "IMPLEMENTER"
  | validator => "VALIDATOR"
  | reviewer => "REVIEWER"
  | repairer => "REPAIRER"
  | closureReviewer => "CLOSURE_REVIEWER"
  | supervisor => "SUPERVISOR"
  | parent => "PARENT"

def LeaseState.value : LeaseState → String
  | active => "ACTIVE"
  | released => "RELEASED"
  | expired => "EXPIRED"
  | invalidated => "INVALIDATED"

def EvidenceKind.value : EvidenceKind → String
  | repository => "REPOSITORY"
  | git => "GIT"
  | validation => "VALIDATION"
  | hostedCheck => "HOSTED_CHECK"
  | review => "REVIEW"
  | publication => "PUBLICATION"
  | installation => "INSTALLATION"
  | legacyArchive => "LEGACY_ARCHIVE"

def EffectState.value : EffectState → String
  | prepared => "PREPARED"
  | executing => "EXECUTING"
  | confirmed => "CONFIRMED"
  | failed => "FAILED"
  | ambiguous => "AMBIGUOUS"
  | cancelled => "CANCELLED"

def CancellationState.value : CancellationState → String
  | active => "ACTIVE"
  | cancelled => "CANCELLED"

def FindingOrigin.value : FindingOrigin → String
  | review => "REVIEW"
  | closure => "CLOSURE"

def EffectKind.value : EffectKind → String
  | dispatchWorker => "DISPATCH_WORKER"
  | interruptWorker => "INTERRUPT_WORKER"
  | reconcileEffect => "RECONCILE_EFFECT"
  | push => "PUSH"
  | createPullRequest => "CREATE_PULL_REQUEST"
  | upsertComment => "UPSERT_COMMENT"
  | merge => "MERGE"
  | exactFileReplace => "EXACT_FILE_REPLACE"

def BudgetToken.value : BudgetToken → String
  | childCreation => "CHILD_CREATION"
  | childStart => "CHILD_START"
  | validationExecution => "VALIDATION_EXECUTION"
  | reviewDispatch => "REVIEW_DISPATCH"
  | repairDispatch => "REPAIR_DISPATCH"
  | closureDispatch => "CLOSURE_DISPATCH"
  | hostedCheckWakeup => "HOSTED_CHECK_WAKEUP"
  | transportRetry => "TRANSPORT_RETRY"
  | reconciliation => "RECONCILIATION"
  | push => "PUSH"
  | pullRequestCreation => "PULL_REQUEST_CREATION"
  | comment => "COMMENT"
  | merge => "MERGE"
  | rejectedAttempt => "REJECTED_ATTEMPT"
  | noOpAttempt => "NO_OP_ATTEMPT"

def EventType.value : EventType → String
  | approve => "APPROVE"
  | start => "START"
  | waitExternal => "WAIT_EXTERNAL"
  | waitHuman => "WAIT_HUMAN"
  | resume => "RESUME"
  | admitNode => "ADMIT_NODE"
  | acquireLease => "ACQUIRE_LEASE"
  | releaseLease => "RELEASE_LEASE"
  | consumeBudget => "CONSUME_BUDGET"
  | startImplementation => "START_IMPLEMENTATION"
  | implementationCompleted => "IMPLEMENTATION_COMPLETED"
  | requestValidationCorrection => "REQUEST_VALIDATION_CORRECTION"
  | validationPassed => "VALIDATION_PASSED"
  | validationFailed => "VALIDATION_FAILED"
  | startReview => "START_REVIEW"
  | freezeFindings => "FREEZE_FINDINGS"
  | markReadyToPublish => "MARK_READY_TO_PUBLISH"
  | authorizeRepair => "AUTHORIZE_REPAIR"
  | authorizePublication => "AUTHORIZE_PUBLICATION"
  | startRepair => "START_REPAIR"
  | repairCompleted => "REPAIR_COMPLETED"
  | revalidationPassed => "REVALIDATION_PASSED"
  | revalidationFailed => "REVALIDATION_FAILED"
  | startClosure => "START_CLOSURE"
  | completeClosure => "COMPLETE_CLOSURE"
  | startPublish => "START_PUBLISH"
  | publishConfirmed => "PUBLISH_CONFIRMED"
  | publishFailed => "PUBLISH_FAILED"
  | failNode => "FAIL_NODE"
  | advanceAuthority => "ADVANCE_AUTHORITY"
  | cancel => "CANCEL"

/-! ### Reading a member back -/

/-- `CampaignMode(text)`. -/
def CampaignMode.ofValue? (s : String) : Option CampaignMode :=
  [CampaignMode.manual, .automated].find? fun k => k.value == s

/-- `ObjectiveKind(text)`. -/
def ObjectiveKind.ofValue? (s : String) : Option ObjectiveKind :=
  [ObjectiveKind.productCode, .productDocumentation, .controlRuntime].find? fun k => k.value == s

/-- `CampaignState(text)`. -/
def CampaignState.ofValue? (s : String) : Option CampaignState :=
  [CampaignState.draft, .approved, .running, .waitingExternal, .waitingHuman, .completed, .failed,
    .cancelled].find? fun k => k.value == s

/-- `NodeState(text)`. -/
def NodeState.ofValue? (s : String) : Option NodeState :=
  [NodeState.pending, .admitted, .implementing, .validating, .candidateFrozen, .checksAndReview,
    .findingsFrozen, .repairAuthorized, .repairing, .revalidating, .closure, .readyToPublish,
    .publishing, .done, .failedExactNode, .cancelled].find? fun k => k.value == s

/-- `CancellationState(text)`. -/
def CancellationState.ofValue? (s : String) : Option CancellationState :=
  [CancellationState.active, .cancelled].find? fun k => k.value == s

/-- `FindingOrigin(text)`. -/
def FindingOrigin.ofValue? (s : String) : Option FindingOrigin :=
  [FindingOrigin.review, .closure].find? fun k => k.value == s

/-- `EffectKind(text)`. -/
def EffectKind.ofValue? (s : String) : Option EffectKind :=
  [EffectKind.dispatchWorker, .interruptWorker, .reconcileEffect, .push, .createPullRequest,
    .upsertComment, .merge, .exactFileReplace].find? fun k => k.value == s

/-- `BudgetToken(text)`. -/
def BudgetToken.ofValue? (s : String) : Option BudgetToken :=
  [BudgetToken.childCreation, .childStart, .validationExecution, .reviewDispatch, .repairDispatch,
    .closureDispatch, .hostedCheckWakeup, .transportRetry, .reconciliation, .push,
    .pullRequestCreation, .comment, .merge, .rejectedAttempt, .noOpAttempt].find?
      fun k => k.value == s

theorem EffectKind.value_of_ofValue? {s : String} {k : EffectKind}
    (h : EffectKind.ofValue? s = some k) : k.value = s := by
  simpa using List.find?_some h

/-! ### Errors -/

/-- The exception classes a caller can tell apart.  `python` stands for what the interpreter raises
itself (`TypeError`, `ValueError`, `KeyError`), `integrity` for `sqlite3.IntegrityError`, and
`admission` for the `AdmissionError` of `admission.py`. -/
inductive ErrorKind
  | modelValidation | transition | revisionConflict | authority | cancellation | fencing | budget
  | store | requestConflict | scopeOverlap | admission | integrity | python
deriving DecidableEq

structure CampaignError where
  kind : ErrorKind
  message : String
deriving DecidableEq

abbrev Result (α : Type) := Except CampaignError α

def fail {α : Type} (kind : ErrorKind) (message : String) : Result α := .error ⟨kind, message⟩

/-- A check that raises when its condition is false. -/
def check (kind : ErrorKind) (condition : Bool) (message : String) : Result Unit :=
  if condition then .ok () else fail kind message

/-- `_require`. -/
def require (condition : Bool) (message : String) : Result Unit :=
  check .transition condition message

/-- What an optional value is, or the error its absence raises. -/
def orRaise {α : Type} (value : Option α) (kind : ErrorKind) (message : String) : Result α :=
  match value with
  | some a => .ok a
  | none => fail kind message

theorem bind_eq_ok {α β : Type} {x : Result α} {f : α → Result β} {b : β} :
    (x >>= f) = .ok b ↔ ∃ a, x = .ok a ∧ f a = .ok b := by
  cases x with
  | error e => simp [bind, Except.bind]
  | ok a => simp [bind, Except.bind]

@[simp] theorem pure_eq_ok {α : Type} {a b : α} : (pure a : Result α) = .ok b ↔ a = b := by
  simp [pure, Except.pure]

@[simp] theorem fail_ne_ok {α : Type} {kind : ErrorKind} {message : String} {a : α} :
    ¬ fail kind message = .ok a := by
  simp [fail]

@[simp] theorem check_eq_ok {kind : ErrorKind} {condition : Bool} {message : String} {u : Unit} :
    check kind condition message = .ok u ↔ condition = true := by
  unfold check
  cases condition <;> simp

@[simp] theorem require_eq_ok {condition : Bool} {message : String} {u : Unit} :
    require condition message = .ok u ↔ condition = true := check_eq_ok

@[simp] theorem orRaise_eq_ok {α : Type} {value : Option α} {kind : ErrorKind} {message : String}
    {a : α} : orRaise value kind message = .ok a ↔ value = some a := by
  cases value <;> simp [orRaise]

/-- A list computed item by item: each item of the result comes from the item at its place. -/
theorem mapM_eq_ok {α β : Type} {f : α → Result β} {xs : List α} {ys : List β} :
    xs.mapM f = .ok ys ↔ List.Forall₂ (fun x y => f x = .ok y) xs ys := by
  induction xs generalizing ys with
  | nil => cases ys <;> simp [List.mapM_nil]
  | cons x xs ih =>
      simp only [List.mapM_cons, bind_eq_ok, pure_eq_ok, ih]
      constructor
      · rintro ⟨y, hy, ys', hys, rfl⟩
        exact .cons hy hys
      · rintro (_ | ⟨hy, hys⟩)
        exact ⟨_, hy, _, hys, rfl⟩

/-- A fold that returned: an invariant of the accumulator that every round keeps holds of the
result. -/
theorem foldlM_eq_ok_induct {α β : Type} {f : β → α → Result β} {motive : β → Prop}
    (step : ∀ {b : β} {a : α} {b' : β}, motive b → f b a = .ok b' → motive b')
    {xs : List α} {b b' : β} (h : xs.foldlM f b = .ok b') (hb : motive b) : motive b' := by
  induction xs generalizing b with
  | nil =>
      simp only [List.foldlM_nil, pure_eq_ok] at h
      exact h ▸ hb
  | cons x xs ih =>
      simp only [List.foldlM_cons, bind_eq_ok] at h
      obtain ⟨c, hc, h⟩ := h
      exact ih h (step hb hc)

end CodingOS.Campaign
