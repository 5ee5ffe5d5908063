import CodingOS.Campaign.Vocabulary

/-!
# The approved specification

`ValidationCommand`, `NodeSpec` and `CampaignSpec` of `model.py`, with the checks of their
`__post_init__`, the canonical dictionary the specification digest is taken of, and the recognition
of a failed unittest receipt.

The three classes carry the proof that their checks passed, so a specification that the program
refuses to build cannot be stated here either.  Counters and epochs are natural numbers: the checks
that they are not negative are their types.  `from_dict` reads a blank `deadline_utc` as `None`, and
every specification of the program comes out of `from_dict`, so a blank one is excluded too.
-/

namespace CodingOS.Campaign

open CodingOS.Python

/-! ### Checks shared by the classes -/

section Checks

variable [Runtime]

/-- `_nonempty`: the stripped text of a value, which must not be empty. -/
def nonempty (v : Value) (name : String) : Result String := do
  let text := strip (if v.truthy then v.text else "")
  check .modelValidation (text != "") (name ++ " must not be empty")
  return text

end Checks

/-- A text of exactly `digits` lower-case hexadecimal characters. -/
def isHexDigest (digits : ℕ) (s : String) : Bool := s.length == digits && isLowerHex s

/-- `for item in items: body(item)`, where the body only raises. -/
def forEach {α : Type} (items : List α) (body : α → Result Unit) : Result Unit :=
  items.foldlM (fun _ item => body item) ()

theorem forEach_eq_ok {α : Type} {items : List α} {body : α → Result Unit} {u : Unit}
    (h : forEach items body = .ok u) : ∀ item ∈ items, body item = .ok () := by
  induction items with
  | nil => simp
  | cons x xs ih =>
      simp only [forEach, List.foldlM_cons, bind_eq_ok] at h
      obtain ⟨_, hx, hxs⟩ := h
      intro item hitem
      rcases List.mem_cons.mp hitem with rfl | hmem
      · exact hx
      · exact ih hxs item hmem

/-! ### Validation commands -/

structure ValidationCommandFields where
  commandId : String
  executable : String
  arguments : List String
  workingDirectory : String
  environmentAllowlist : List String
  timeoutSeconds : ℕ
  outputLimitBytes : ℕ
  expectedWorktreeCondition : String
  expectedStatusSha256 : Option String := none
  requiredExitCode : ℤ := 0
  correctionPolicy : Option Mapping := none
deriving DecidableEq

/-- The keys of a correction policy. -/
def correctionPolicyKeys : List String := ["adapter", "expectation_id", "test_id"]

section ValidationCommand

variable [Runtime]

/-- The condition under which `__post_init__` refuses a correction policy. -/
def ValidationCommandFields.rejectsPolicy (c : ValidationCommandFields) (policy : Mapping) : Bool :=
  !(policy.all (fun e => correctionPolicyKeys.contains e.1) &&
      correctionPolicyKeys.all fun key => (policy.get? key).isSome)
    || !(policy.read "adapter").eq (.str "unittest")
    || ["expectation_id", "test_id"].any (fun key => (policy.read key).asText?.all isBlank)
    || c.requiredExitCode != 0
    || c.expectedWorktreeCondition != "CLEAN"
    || !c.arguments.contains "-m"
    || ((c.arguments.dropWhile (· != "-m")).drop 1).take 1 != ["unittest"]

/-- `ValidationCommand.__post_init__`.  The digest it stores is the case-folded one, so a command
that was built has a digest that is its own folding. -/
def ValidationCommandFields.postInit (c : ValidationCommandFields) : Result Unit := do
  let _ ← nonempty (.str c.commandId) "command_id"
  let _ ← nonempty (.str c.executable) "executable"
  let _ ← nonempty (.str c.workingDirectory) "working_directory"
  check .modelValidation (["CLEAN", "EXACT_STATUS"].contains c.expectedWorktreeCondition)
    "expected_worktree_condition must be CLEAN or EXACT_STATUS"
  if c.expectedWorktreeCondition = "EXACT_STATUS" then
    let digest := c.expectedStatusSha256.getD ""
    check .modelValidation (casefold digest == digest && isHexDigest 64 digest)
      "EXACT_STATUS validation requires expected_status_sha256"
  else
    check .modelValidation c.expectedStatusSha256.isNone
      "CLEAN validation must not declare expected_status_sha256"
  check .modelValidation (0 < c.timeoutSeconds && 0 < c.outputLimitBytes)
    "validation timeout and output limit must be positive"
  check .modelValidation (decide c.environmentAllowlist.Nodup)
    "environment allowlist contains duplicates"
  match c.correctionPolicy with
  | none => return ()
  | some policy =>
      check .modelValidation (!c.rejectsPolicy policy)
        "correction policy requires an exact unittest expectation and clean passing command"

end ValidationCommand

/-- A validation command as `__post_init__` leaves it. -/
structure ValidationCommand [Runtime] extends ValidationCommandFields where
  valid : toValidationCommandFields.postInit = .ok ()
deriving DecidableEq

section Recognition

variable [Runtime]

/-- One match of `^FAIL: (\S+) \(([^()\r\n]+)\)$` on a line: the second group. -/
def failureLine (line : List Char) : Option String :=
  if "FAIL: ".toList.isPrefixOf line then
    let rest := line.drop 6
    let name := rest.takeWhile fun c => !isSpace c
    let tail := rest.drop name.length
    let inner := (tail.drop 2).dropLast
    if name ≠ [] ∧ [' ', '('].isPrefixOf tail ∧ tail.getLast? = some ')' ∧ inner ≠ [] ∧
        inner.all (fun c => c != '(' && c != ')' && c != '\r' && c != '\n') then
      some (String.ofList inner)
    else none
  else none

/-- A line `re.search` finds with `^Ran [1-9][0-9]* tests? in [0-9.]+s$`. -/
def ranLine (line : List Char) : Bool :=
  let rest := line.drop 4
  let digits := rest.takeWhile Char.isDigit
  let tail := rest.drop digits.length
  let seconds (unit : List Char) : Bool :=
    unit.isPrefixOf tail &&
      let time := tail.drop unit.length
      time.getLast? == some 's' && time.dropLast != [] &&
        time.dropLast.all fun c => c.isDigit || c == '.'
  "Ran ".toList.isPrefixOf line && digits != [] && digits.head? != some '0' &&
    (seconds " test in ".toList || seconds " tests in ".toList)

/-- A line `re.search` finds with `^ERROR:|^FAILED .*errors=`. -/
def errorLine (line : List Char) : Bool :=
  "ERROR:".toList.isPrefixOf line ||
    ("FAILED ".toList.isPrefixOf line &&
      (line.drop 7).tails.any fun t => "errors=".toList.isPrefixOf t)

/-- `ValidationCommand.recognizes_correction`: the approved assertion failed, and nothing else, in a
complete immutable receipt of this command. -/
def ValidationCommand.recognizesCorrection (c : ValidationCommand) (evidence : Value) :
    Result Bool := do
  match c.correctionPolicy, evidence.asMapping? with
  | some policy, some entries =>
      let payload := entries.erase "evidence_sha256"
      let digest := entries.read "evidence_sha256"
      let emptyStatus := Value.str (Runtime.sha256 "")
      let stderr := normalizeNewlines (payload.getD "stderr" (.str "")).text.toList
      let failures := (lines stderr).filterMap failureLine
      let bound := (Value.str (canonicalJsonDigest (.mapping payload))).eq digest
        && (payload.read "protocol_version").eq (.str "ccos-validation-execution-v1")
        && (payload.read "execution_boundary").eq (.str "READ_ONLY")
        && payload.read "passed" == Value.bool false
        && payload.read "exit_code" == .int 1
        && (payload.read "required_exit_code").eq (.int 0)
        && payload.read "timed_out" == .bool false
        && payload.read "output_limited" == .bool false
        && (payload.read "candidate_head").truthy
        && (payload.read "head_after").eq (payload.read "candidate_head")
      if !bound then return false
      let arguments ← orRaise (payload.getD "arguments" (.tuple [])).items? .python
        "object is not iterable"
      return Value.eqItems arguments (c.arguments.map .str)
        && (payload.read "status_before_sha256").eq emptyStatus
        && (payload.read "status_after_sha256").eq emptyStatus
        && (match failures with
          | [testId] => (Value.str testId).eq (policy.read "test_id")
          | _ => false)
        && (lines stderr).any ranLine
        && "FAILED (failures=1)".toList.reverse.isPrefixOf (rstripChars stderr).reverse
        && !(lines stderr).any errorLine
  | _, _ => return false

end Recognition

def optionalText (s : Option String) : Value := (s.map Value.str).getD .null

@[simp] theorem optionalText_some (s : String) : optionalText (some s) = .str s := rfl

@[simp] theorem optionalText_none : optionalText none = .null := rfl

@[simp] theorem eq_optionalText (v : Value) (s : Option String) :
    v.eq (optionalText s) = true ↔ v = optionalText s := by
  cases s <;> simp [optionalText]

def optionalNumber (n : Option ℕ) : Value := (n.map fun n => Value.int n).getD .null

def texts (items : List String) : Value := .tuple (items.map .str)

def ValidationCommandFields.toDict (c : ValidationCommandFields) : Value :=
  .mapping ([
    ("command_id", .str c.commandId),
    ("executable", .str c.executable),
    ("arguments", texts c.arguments),
    ("working_directory", .str c.workingDirectory),
    ("environment_allowlist", texts c.environmentAllowlist),
    ("timeout_seconds", .int c.timeoutSeconds),
    ("output_limit_bytes", .int c.outputLimitBytes),
    ("expected_worktree_condition", .str c.expectedWorktreeCondition),
    ("expected_status_sha256", optionalText c.expectedStatusSha256),
    ("required_exit_code", .int c.requiredExitCode)] ++
    match c.correctionPolicy with
    | none => []
    | some policy => [("correction_policy", .mapping policy)])

/-! ### Attempt budgets -/

structure AttemptBudget where
  token : BudgetToken
  limit : ℕ
deriving DecidableEq

def AttemptBudget.toDict (b : AttemptBudget) : Value :=
  .mapping [("token", .str b.token.value), ("limit", .int b.limit)]

/-! ### Nodes -/

structure NodeSpecFields where
  nodeId : String
  objective : String
  dependencies : List String := []
  allowedPaths : List String := []
  validationCommandIds : List String := []
  deadlineUtc : Option String := none
  acceptanceScenarios : List Mapping := []
  requiredTools : List Value := []
deriving DecidableEq

section NodeSpec

variable [Runtime]

/-- The checks `__post_init__` makes on one source of an acceptance scenario. -/
def checkAcceptanceSource (source : Value) : Result Unit := do
  let entries ← orRaise source.asMapping? .modelValidation "acceptance source must be an object"
  let path ← nonempty (entries.read "path") "acceptance source path"
  let parts := splitChars '/' path.toList
  check .modelValidation
    (!(path.toList.contains '\\' || path.toList.contains ':'
      || parts.any (fun part => [[], ['.'], ['.', '.']].contains part)
      || casefold (String.ofList (parts.headD [])) == ".git"
      || path.toList.any fun c => ['*', '?', '[', ']'].contains c))
    "acceptance source path must be repository-relative"
  let _ ← nonempty (entries.read "requirement_id") "requirement_id"
  check .modelValidation (isHexDigest 64 (entries.getD "sha256" (.str "")).text)
    "acceptance source requires an exact SHA-256"
  if entries.read "section" == .null then return ()
  let _ ← nonempty (entries.read "section") "acceptance source section"

/-- The checks on one acceptance scenario; `identifiers` are those of the scenarios before it. -/
def NodeSpecFields.checkScenario (n : NodeSpecFields) (identifiers : List String)
    (scenario : Mapping) : Result (List String) := do
  let identifier ← nonempty (scenario.read "scenario_id") "scenario_id"
  check .modelValidation (!identifiers.contains identifier)
    "acceptance scenario identifiers must be unique"
  let _ ← nonempty (scenario.read "expectation") "acceptance expectation"
  check .modelValidation
    ((scenario.read "validation_command_id").memberOf (n.validationCommandIds.map .str))
    "acceptance scenario requires an admitted node command"
  match scenario.read "sources" with
  | .tuple (source :: sources) => forEach (source :: sources) checkAcceptanceSource
  | _ => fail .modelValidation "acceptance scenario requires exact product sources"
  return identifier :: identifiers

/-- Whether a set takes a value of a document, where arrays are lists and objects are dicts. -/
def isScalar : Value → Bool
  | .tuple _ | .mapping _ => false
  | _ => true

/-- `NodeSpec.__post_init__`. -/
def NodeSpecFields.postInit (n : NodeSpecFields) : Result Unit := do
  let _ ← nonempty (.str n.nodeId) "node_id"
  let _ ← nonempty (.str n.objective) "node objective"
  check .modelValidation (decide n.dependencies.Nodup)
    ("node " ++ n.nodeId ++ " has duplicate dependencies")
  check .modelValidation (decide n.allowedPaths.Nodup)
    ("node " ++ n.nodeId ++ " has duplicate allowed paths")
  let _ ← n.acceptanceScenarios.foldlM n.checkScenario []
  check .python (n.requiredTools.all isScalar) "unhashable type"
  check .modelValidation (Value.distinct n.requiredTools) "required tools must be unique"
  forEach n.requiredTools fun tool => do
    let _ ← nonempty tool "required tool"

end NodeSpec

/-- A node of the campaign graph as `__post_init__` leaves it. -/
structure NodeSpec [Runtime] extends NodeSpecFields where
  valid : toNodeSpecFields.postInit = .ok ()
  deadline_ne_blank : toNodeSpecFields.deadlineUtc ≠ some ""
deriving DecidableEq

/-- The dictionary keeps the digests of specifications without scenarios or tools: both keys are
written only when there is something under them. -/
def NodeSpecFields.toDict (n : NodeSpecFields) : Value :=
  .mapping ([
    ("node_id", .str n.nodeId),
    ("objective", .str n.objective),
    ("dependencies", texts n.dependencies),
    ("allowed_paths", texts n.allowedPaths),
    ("validation_command_ids", texts n.validationCommandIds),
    ("deadline_utc", optionalText n.deadlineUtc)] ++
    (if n.acceptanceScenarios = [] then []
      else [("acceptance_scenarios", .tuple (n.acceptanceScenarios.map .mapping))]) ++
    (if n.requiredTools = [] then [] else [("required_tools", .tuple n.requiredTools)]))

/-! ### The publication authority -/

/-- `tuple(authority.get("allowed_effects", ()))` and
`tuple(authority.get("required_effects", allowed))`. -/
def effectSequences (authority : Mapping) : Result (List Value × List Value) := do
  let allowed ← orRaise (authority.getD "allowed_effects" (.tuple [])).items? .python
    "object is not iterable"
  let required ← orRaise (authority.getD "required_effects" (.tuple allowed)).items? .python
    "object is not iterable"
  return (allowed, required)

/-- The kinds a node may publish with. -/
def publicationEffects : List EffectKind := [.push, .createPullRequest, .upsertComment, .merge]

section Authority

variable [Runtime]

/-- The checks `CampaignSpec.__post_init__` makes on `human_authorization`. -/
def checkHumanAuthorization (authorization : Value) : Result Unit := do
  if authorization == .null then return ()
  let verifier ← orRaise authorization.asMapping? .modelValidation
    "human_authorization must be an immutable verifier object"
  check .modelValidation ((verifier.read "algorithm").eq (.str "ED25519"))
    "human authorization verifier algorithm must be ED25519"
  let key ← orRaise (base64Decode (verifier.getD "public_key_base64" (.str "")).text.toList)
    .modelValidation "human authorization public key is not canonical base64"
  check .modelValidation (key.length == 32)
    "human authorization ED25519 public key must be 32 bytes"

/-- The checks `CampaignSpec.__post_init__` makes on the publication authority. -/
def checkPublicationAuthority (authority : Mapping) : Result Unit := do
  let (allowed, required) ← effectSequences authority
  check .modelValidation (!allowed.isEmpty && !required.isEmpty)
    "publication authority requires a finite effect sequence"
  check .python ((allowed ++ required).all Value.hashable) "unhashable type"
  check .modelValidation (Value.distinct allowed && Value.distinct required)
    "publication effects must not contain duplicates"
  check .modelValidation (required.all (·.memberOf allowed))
    "required publication effects exceed allowed effects"
  let parsedEffects ← orRaise (allowed.mapM fun item => EffectKind.ofValue? item.text)
    .modelValidation "publication authority contains an invalid effect"
  let parsedRequired ← orRaise (required.mapM fun item => EffectKind.ofValue? item.text)
    .python "not a valid EffectKind"
  check .modelValidation
    (parsedEffects.all fun kind => (EffectKind.exactFileReplace :: publicationEffects).contains kind)
    "publication authority may contain only external publication effects"
  check .modelValidation (parsedRequired.all fun kind => publicationEffects.contains kind)
    "required publication sequence contains a non-publication effect"
  let hosted ← orRaise (authority.getD "required_hosted_checks" (.tuple [])).items? .python
    "object is not iterable"
  let hostedNames := hosted.map Value.text
  check .modelValidation (!hostedNames.any isBlank && decide hostedNames.Nodup)
    "required hosted checks must be unique nonempty check names"
  checkHumanAuthorization (authority.read "human_authorization")

end Authority

/-! ### The campaign -/

structure CampaignSpecFields [Runtime] where
  campaignId : String
  specificationRevision : ℕ
  specificationDigest : String
  authorityEpoch : ℕ
  cancellationEpoch : ℕ
  mode : CampaignMode
  objective : String
  objectiveKind : ObjectiveKind
  repositoryRemote : String
  gitRoot : String
  worktree : String
  branch : String
  baseSha : String
  allowedPaths : List String
  nodes : List NodeSpec
  requiredValidationCommands : List ValidationCommand
  requiredReviewCohort : List String
  publicationAuthority : Mapping
  attemptBudgets : List AttemptBudget
  stopConditions : List String
  installedSourceCommit : String
  installedBundleDigest : String
  installTransaction : String
  protocolVersion : String := "ccos-campaign-v1"
  schemaCompatibility : String := "campaign-store-v1"
  hostCapabilityProbeVersion : String := "native-bind-before-turn-scoped-tools-v3"
  autonomousRank : ℕ := 1
  deadlineUtc : Option String := none
deriving DecidableEq

/-- The state of the depth-first search of the dependency graph. -/
structure VisitState where
  visiting : List String
  visited : List String

/-- `visit` of `_validate_uniqueness_and_graph`.  Every nested call adds a name to `visiting`, so a
depth of one more than the number of nodes is never used up; running out stands for the
interpreter's own recursion limit. -/
def visit (graph : String → List String) : ℕ → VisitState → String → Result VisitState
  | 0, _, _ => fail .python "maximum recursion depth exceeded"
  | depth + 1, st, nodeId =>
      if st.visiting.contains nodeId then fail .modelValidation "campaign graph must be acyclic"
      else if st.visited.contains nodeId then .ok st
      else do
        let inner ← (graph nodeId).foldlM (visit graph depth)
          { st with visiting := nodeId :: st.visiting }
        return { visiting := inner.visiting.erase nodeId, visited := nodeId :: inner.visited }

section CampaignSpec

variable [Runtime]

namespace CampaignSpecFields

/-- `graph = {node.node_id: node.dependencies for node in self.nodes}`. -/
def graph (spec : CampaignSpecFields) (nodeId : String) : List String :=
  match spec.nodes.find? (·.nodeId == nodeId) with
  | some node => node.dependencies
  | none => []

/-- `sorted(missing)` inside an error message. -/
def sortedTexts (items : List String) : String :=
  "[" ++ String.intercalate ", "
    ((items.insertionSort fun a b => a ≤ b).map reprText) ++ "]"

/-- The checks of `_validate_uniqueness_and_graph` on one node. -/
def checkNode (spec : CampaignSpecFields) (node : NodeSpec) : Result Unit := do
  let known := spec.nodes.map (·.nodeId)
  let commands := spec.requiredValidationCommands.map (·.commandId)
  let missing := node.dependencies.filter fun d => !known.contains d
  check .modelValidation missing.isEmpty
    ("node " ++ node.nodeId ++ " has unknown dependencies: " ++ sortedTexts missing)
  check .modelValidation (!node.dependencies.contains node.nodeId)
    ("node " ++ node.nodeId ++ " depends on itself")
  let unknownCommands := node.validationCommandIds.filter fun c => !commands.contains c
  check .modelValidation unknownCommands.isEmpty
    ("node " ++ node.nodeId ++ " uses unknown validation commands: "
      ++ sortedTexts unknownCommands.dedup)
  check .modelValidation (!node.validationCommandIds.isEmpty)
    ("node " ++ node.nodeId ++ " must admit at least one validation command")
  check .modelValidation (decide node.validationCommandIds.Nodup)
    ("node " ++ node.nodeId ++ " has duplicate validation commands")
  forEach spec.requiredValidationCommands fun command =>
    match command.correctionPolicy with
    | none => return ()
    | some policy =>
        if node.validationCommandIds.contains command.commandId then
          check .modelValidation
            (node.acceptanceScenarios.any fun item =>
              (item.read "scenario_id").eq (policy.read "expectation_id")
                && (item.read "validation_command_id").eq (.str command.commandId))
            "validation correction must bind an approved node acceptance scenario"
        else return ()
  check .modelValidation (node.allowedPaths.all fun p => spec.allowedPaths.contains p)
    ("node " ++ node.nodeId ++ " allowed paths exceed campaign scope")

/-- `_validate_uniqueness_and_graph`. -/
def validateUniquenessAndGraph (spec : CampaignSpecFields) : Result Unit := do
  let nodeIds := spec.nodes.map (·.nodeId)
  check .modelValidation (decide nodeIds.Nodup) "campaign graph has duplicate node identifiers"
  check .modelValidation (decide (spec.requiredValidationCommands.map (·.commandId)).Nodup)
    "validation command identifiers must be unique"
  check .modelValidation (decide (spec.attemptBudgets.map (·.token)).Nodup)
    "attempt budget tokens must be unique"
  check .modelValidation (spec.autonomousRank ≤ (spec.attemptBudgets.map (·.limit)).sum)
    "autonomous rank exceeds declared durable attempt-budget capacity"
  check .modelValidation (decide spec.allowedPaths.Nodup) "allowed paths must be unique"
  check .modelValidation (decide spec.requiredReviewCohort.Nodup)
    "review cohort identifiers must be unique"
  let worktreeIdentity := Runtime.resolvedPath spec.worktree
  forEach spec.requiredValidationCommands fun command =>
    check .modelValidation (Runtime.resolvedPath command.workingDirectory == worktreeIdentity)
      ("validation command " ++ command.commandId ++
        " working_directory must be the exact campaign worktree")
  forEach spec.nodes spec.checkNode
  let _ ← (nodeIds.insertionSort fun a b => a ≤ b).foldlM
    (visit spec.graph (spec.nodes.length + 1)) ⟨[], []⟩

/-- `CampaignSpec.__post_init__`. -/
def postInit (spec : CampaignSpecFields) : Result Unit := do
  forEach [
      (spec.campaignId, "campaign_id"),
      (spec.objective, "objective"),
      (spec.repositoryRemote, "repository_remote"),
      (spec.gitRoot, "git_root"),
      (spec.worktree, "worktree"),
      (spec.branch, "branch"),
      (spec.baseSha, "base_sha"),
      (spec.installedSourceCommit, "installed_source_commit"),
      (spec.installedBundleDigest, "installed_bundle_digest"),
      (spec.installTransaction, "install_transaction"),
      (spec.protocolVersion, "protocol_version"),
      (spec.schemaCompatibility, "schema_compatibility"),
      (spec.hostCapabilityProbeVersion, "host_capability_probe_version")] fun field => do
    let _ ← nonempty (.str field.1) field.2
  check .modelValidation (0 < spec.specificationRevision) "specification revision must be positive"
  check .modelValidation (0 < spec.autonomousRank) "autonomous rank must be positive"
  check .modelValidation (!spec.nodes.isEmpty) "campaign graph must contain at least one node"
  check .modelValidation (!spec.requiredReviewCohort.isEmpty)
    "required review cohort must not be empty"
  check .modelValidation (!spec.stopConditions.isEmpty) "stop conditions must not be empty"
  check .modelValidation (!spec.publicationAuthority.isEmpty)
    "publication authority must not be empty"
  checkPublicationAuthority spec.publicationAuthority
  spec.validateUniquenessAndGraph

/-- `CampaignSpec.to_dict`. -/
def toDict (spec : CampaignSpecFields) : Mapping := [
  ("campaign_id", .str spec.campaignId),
  ("specification_revision", .int spec.specificationRevision),
  ("specification_digest", .str spec.specificationDigest),
  ("authority_epoch", .int spec.authorityEpoch),
  ("cancellation_epoch", .int spec.cancellationEpoch),
  ("mode", .str spec.mode.value),
  ("objective", .str spec.objective),
  ("objective_kind", .str spec.objectiveKind.value),
  ("repository_remote", .str spec.repositoryRemote),
  ("git_root", .str spec.gitRoot),
  ("worktree", .str spec.worktree),
  ("branch", .str spec.branch),
  ("base_sha", .str spec.baseSha),
  ("allowed_paths", texts spec.allowedPaths),
  ("nodes", .tuple (spec.nodes.map fun n => n.toDict)),
  ("required_validation_commands", .tuple (spec.requiredValidationCommands.map fun c => c.toDict)),
  ("required_review_cohort", texts spec.requiredReviewCohort),
  ("publication_authority", .mapping spec.publicationAuthority),
  ("attempt_budgets", .tuple (spec.attemptBudgets.map fun b => b.toDict)),
  ("stop_conditions", texts spec.stopConditions),
  ("installed_source_commit", .str spec.installedSourceCommit),
  ("installed_bundle_digest", .str spec.installedBundleDigest),
  ("install_transaction", .str spec.installTransaction),
  ("protocol_version", .str spec.protocolVersion),
  ("schema_compatibility", .str spec.schemaCompatibility),
  ("host_capability_probe_version", .str spec.hostCapabilityProbeVersion),
  ("autonomous_rank", .int spec.autonomousRank),
  ("deadline_utc", optionalText spec.deadlineUtc)]

/-- `CampaignSpec.compute_digest`. -/
def computeDigest (spec : CampaignSpecFields) : String :=
  canonicalJsonDigest (.mapping (Mapping.erase spec.toDict "specification_digest"))

/-- `CampaignSpec.verify_digest`. -/
def verifyDigest (spec : CampaignSpecFields) : Result Unit :=
  check .modelValidation
    (spec.specificationDigest != "" && spec.specificationDigest == spec.computeDigest)
    "specification digest does not match the immutable specification"

end CampaignSpecFields

end CampaignSpec

/-- A campaign specification as `__post_init__` leaves it. -/
structure CampaignSpec [Runtime] extends CampaignSpecFields where
  valid : toCampaignSpecFields.postInit = .ok ()
  deadline_ne_blank : toCampaignSpecFields.deadlineUtc ≠ some ""
deriving DecidableEq

namespace CampaignSpec

variable [Runtime]

/-- The two groups of checks a built specification has passed. -/
theorem checked (spec : CampaignSpec) :
    checkPublicationAuthority spec.publicationAuthority = .ok () ∧
      spec.validateUniquenessAndGraph = .ok () := by
  have h := spec.valid
  simp only [CampaignSpecFields.postInit, bind_eq_ok, check_eq_ok, exists_const] at h
  obtain ⟨_, -, -, -, -, -, -, -, _, hauthority, hgraph⟩ := h
  exact ⟨hauthority, hgraph⟩

theorem node_ids_nodup (spec : CampaignSpec) : (spec.nodes.map (·.nodeId)).Nodup := by
  have h := spec.checked.2
  simp only [CampaignSpecFields.validateUniquenessAndGraph, bind_eq_ok, check_eq_ok, exists_const,
    decide_eq_true_eq] at h
  exact h.1

theorem budget_tokens_nodup (spec : CampaignSpec) : (spec.attemptBudgets.map (·.token)).Nodup := by
  have h := spec.checked.2
  simp only [CampaignSpecFields.validateUniquenessAndGraph, bind_eq_ok, check_eq_ok, exists_const,
    decide_eq_true_eq] at h
  exact h.2.2.1

end CampaignSpec

end CodingOS.Campaign
